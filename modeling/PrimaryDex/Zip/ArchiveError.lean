namespace PrimaryDex.Zip

/-!
# What can be wrong with an archive

`ArchiveError` lists the causes for which an archive or one of its entries can not be opened.
`ArchiveError.message` words them, and `ArchiveError.causes` what lies behind them.
-/

/-- A fault of an archive. -/
inductive ArchiveError where
  /-- The bytes end inside of something that is being read. -/
  | truncated
  /-- There is no room for an end record. -/
  | tooShort
  | noEndRecord
  /-- The directory would start before the archive. -/
  | misplacedDirectory
  /-- There is a locator for a large end record, but no room for one. -/
  | noRoomForLargeEnd
  | noLargeEndRecord
  | badDirectoryHeader
  | badEntryHeader
  /-- An entry's offset does not fit into sixty-four bits. -/
  | offsetTooLarge
  | severalDisks
  | encryptionFieldLength
  | encryptionVendor
  | encryptionVersion
  | encryptionStrength
  | encryptionFieldMissing
  | passwordRequired
  /-- A field tells how the entry is encrypted, but no flag says that it is. -/
  | unmarkedEncryption
  | unknownMethod
  deriving DecidableEq

namespace ArchiveError

/-- The wording of an archive that breaks the format. -/
def invalid (what : String) : String := "invalid Zip archive: " ++ what

/-- The wording of an archive that uses something beyond what can be read. -/
def unsupported (what : String) : String := "unsupported Zip archive: " ++ what

/-- The wording of a fault. -/
def message : ArchiveError → String
  | truncated => "failed to fill whole buffer"
  | tooShort => invalid "Invalid zip header"
  | noEndRecord => invalid "Could not find central directory end"
  | misplacedDirectory => invalid "Invalid central directory size or offset"
  | noRoomForLargeEnd => invalid "File cannot contain ZIP64 central directory end"
  | noLargeEndRecord => invalid "Could not find ZIP64 central directory end"
  | badDirectoryHeader => invalid "Invalid Central Directory header"
  | badEntryHeader => invalid "Invalid local file header"
  | offsetTooLarge => invalid "Archive header is too large"
  | severalDisks => unsupported "Support for multi-disk files is not implemented"
  | encryptionFieldLength => unsupported "AES extra data field has an unsupported length"
  | encryptionVendor => invalid "Invalid AES vendor"
  | encryptionVersion => invalid "Invalid AES vendor version"
  | encryptionStrength => invalid "Invalid AES encryption strength"
  | encryptionFieldMissing => invalid "AES encryption without AES extra data field"
  | passwordRequired | unmarkedEncryption => unsupported "Password required to decrypt file"
  | unknownMethod => unsupported "Compression method not supported"

/-- What lies behind a fault: bytes that end too early are a fault of reading. -/
def causes : ArchiveError → List String
  | truncated => [truncated.message]
  | _ => []

end ArchiveError

end PrimaryDex.Zip
