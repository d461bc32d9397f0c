import PrimaryDex.Text.Utf8

namespace PrimaryDex

/-!
# Names of files and folders

To the system a name is a row of bytes, which need not be a text.

* `FileName` — a name; `FileName.ofText` is the name that a text stands for;
* `FileName.text` — the text that a name is shown as, which leads back to the name only if the name
  is UTF-8 (`text_ofText`, `isText_iff`);
* `FileName.le` — the order of names, byte by byte.
-/

/-- The name of an entry of a folder. -/
@[ext] structure FileName where
  bytes : ByteArray
  deriving Inhabited

namespace FileName

/-- Names are compared byte by byte. -/
instance : DecidableEq FileName := fun a b =>
  decidable_of_iff (a.bytes.data.toList = b.bytes.data.toList)
    ⟨fun h => FileName.ext (ByteArray.ext (Array.toList_inj.1 h)), fun h => h ▸ rfl⟩

/-- The name that a text stands for. -/
def ofText (text : String) : FileName := ⟨text.toUTF8⟩

instance : Coe String FileName := ⟨ofText⟩

/-- How many bytes a name has. -/
def size (name : FileName) : Nat := name.bytes.size

/-- The text that a name is shown as, with U+FFFD for what is no UTF-8. -/
def text (name : FileName) : String :=
  match String.fromUTF8? name.bytes with
  | some t => t
  | none => String.ofList (Text.Utf8.decodeLossy name.bytes.data.toList)

/-- Whether a name is UTF-8. -/
def isText (name : FileName) : Bool := (String.fromUTF8? name.bytes).isSome

/-- Whether `a` comes before `b` or equals it, byte by byte. -/
def le (a b : FileName) : Bool := decide (a.bytes.data.toList ≤ b.bytes.data.toList)

/-- A name has as many bytes as its text. -/
@[simp] theorem size_ofText (t : String) : (ofText t).size = t.utf8ByteSize := rfl

/-- Different texts stand for different names. -/
theorem ofText_inj {s t : String} : ofText s = ofText t ↔ s = t := by
  rw [ofText, ofText, mk.injEq]
  exact String.toByteArray_inj

/-- Bytes are read as a text exactly if they are the bytes of that text. -/
theorem fromUTF8?_eq_some_iff {b : ByteArray} {t : String} :
    String.fromUTF8? b = some t ↔ t.toUTF8 = b := by
  unfold String.fromUTF8?
  split
  · rename_i hvalid
    rw [Option.some.injEq]
    constructor
    · rintro rfl
      rfl
    · rintro rfl
      rfl
  · rename_i hinvalid
    refine iff_of_false (by simp) ?_
    rintro rfl
    exact hinvalid t.isValidUTF8

/-- The name of a text is shown as that text. -/
@[simp] theorem text_ofText (t : String) : (ofText t).text = t := by
  simp only [text, ofText, fromUTF8?_eq_some_iff.2 rfl]

/-- A name is UTF-8 exactly if it is the name of the text that it is shown as. -/
theorem isText_iff {name : FileName} : name.isText = true ↔ ofText name.text = name := by
  constructor
  · intro h
    obtain ⟨t, ht⟩ := Option.isSome_iff_exists.1 h
    simp only [text, ht, ofText, fromUTF8?_eq_some_iff.1 ht]
  · intro h
    rw [← h, isText, ofText, fromUTF8?_eq_some_iff.2 rfl]
    rfl

end FileName

end PrimaryDex
