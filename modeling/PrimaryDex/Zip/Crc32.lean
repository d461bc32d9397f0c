namespace PrimaryDex.Zip

/-!
# CRC-32

`crc32` is the checksum that archives keep for each entry: the remainder by the reversed polynomial
`0xedb88320`, one byte at a time.
-/

/-- Eight steps of the division for one byte. -/
def crcByte (b : UInt32) : UInt32 :=
  (List.range 8).foldl (fun c _ => if c &&& 1 = 1 then c >>> 1 ^^^ 0xedb88320 else c >>> 1) b

/-- The remainders of all bytes. -/
def crcTable : Array UInt32 := (Array.range 256).map fun i => crcByte (UInt32.ofNat i)

/-- The checksum after one more byte. -/
def crcStep (c : UInt32) (b : UInt8) : UInt32 :=
  crcTable.getD ((c ^^^ b.toUInt32) &&& 0xff).toNat 0 ^^^ c >>> 8

/-- The checksum of some bytes. -/
def crc32 (bytes : ByteArray) : UInt32 :=
  ~~~(bytes.foldl crcStep 0xffffffff)

end PrimaryDex.Zip
