import LiveDex.Container.Interning
import LiveDex.Container.Layout

/-!
Writing a bundle as a container. It fails only when some length does not fit its word of four
bytes, and then reports the first such length in the order of the layout.
-/
namespace LiveDex.Container

/-- A length that is written as a word, with the name of what it counts. -/
structure Extent where
  part : String
  length : Nat
  deriving DecidableEq, Repr

inductive EncodeError where
  | lengthTooLarge (extent : Extent)
  deriving DecidableEq, Repr

def EncodeError.message : EncodeError → String
  | .lengthTooLarge ⟨part, length⟩ => s!"{part} length too large: {length}"

def ClassEntry.extents (entry : ClassEntry) : List Extent :=
  ⟨"interfaces", entry.interfaces.length⟩ :: ⟨"fields", entry.fields.length⟩
    :: ⟨"methods", entry.methods.length⟩
    :: entry.methods.filterMap fun method => method.code.map fun code =>
      ⟨"insns", code.insns.length⟩

/-- All extents of the layout, in its order. -/
def Tables.extents (tables : Tables) : List Extent :=
  ⟨"strings", tables.strings.size⟩
    :: (tables.strings.toList.map fun text => ⟨"string", (Text.utf8 text).length⟩)
    ++ [⟨"types", tables.types.size⟩, ⟨"classes", tables.classes.length⟩]
    ++ tables.classes.flatMap ClassEntry.extents

def Tables.oversize? (tables : Tables) : Option Extent :=
  tables.extents.find? fun extent => UInt32.size ≤ extent.length

def Tables.encode (tables : Tables) : Except EncodeError Bytes :=
  match tables.oversize? with
  | some extent => .error (.lengthTooLarge extent)
  | none =>
    let body := tables.layout
    let size := headerLength + body.length
    if size < UInt32.size then .ok (sealed tables.dialect (signedPart body))
    else .error (.lengthTooLarge ⟨"file", size⟩)

end Container

def Bundle.encode (bundle : Bundle) : Except Container.EncodeError Bytes :=
  (Container.Tables.ofBundle bundle).encode

end LiveDex
