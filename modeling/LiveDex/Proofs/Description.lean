import LiveDex.Container.Description
import LiveDex.Proofs.Defects
import LiveDex.Proofs.RoundTrip

/-!
What a description shows. The lines that show a bundle are written out here, down to their digits
and quotes. A description follows indices by rules of its own: the word for no index is shown as
such wherever it stands, and an index out of range gets a text that says so. Once tables were read
from a container and resolve, neither rule makes a difference. A container is too short for tables
in which the word for no index could be in range, so a description shows what the indices denote,
and its classes are those of the resolved bundle.
-/
namespace LiveDex

namespace Text

/-- A number in at least four digits. -/
def fourDigits (base n : ℕ) : String :=
  String.ofList ((Nat.toDigits base n).leftpad 4 '0')

def escapes : List (Char × String) :=
  [(Char.ofNat 0, "\\0"), ('\t', "\\t"), ('\n', "\\n"), ('\r', "\\r"), ('"', "\\\""),
    ('\\', "\\\\")]

/-- A character between quotes: by its escape, by its number, or as it is. -/
def shownChar (c : Char) : String :=
  (escapes.lookup c).getD
    (if isUnprintable c then "\\u\x7b" ++ String.ofList (Nat.toDigits 16 c.toNat) ++ "\x7d"
      else String.ofList [c])

def inQuotes (text : String) : String :=
  "\"" ++ String.join (text.toList.map shownChar) ++ "\""

theorem hex_one (n : ℕ) : hex 1 n = String.ofList (Nat.toDigits 16 n) := by
  have hdigits : 1 - (Nat.toDigits 16 n).length = 0 :=
    Nat.sub_eq_zero_of_le Nat.length_toDigits_pos
  simp [hex, padLeft, hdigits]

theorem shownChar_of_notMem {c : Char} (h : c ∉ escapes.map Prod.fst) :
    shownChar c =
      if isUnprintable c then "\\u\x7b" ++ String.ofList (Nat.toDigits 16 c.toNat) ++ "\x7d"
      else String.ofList [c] := by
  have hnone : escapes.lookup c = none := by
    rw [List.lookup_eq_none_iff]
    intro entry hentry
    have hne : c ≠ entry.1 := fun heq => h (heq ▸ List.mem_map_of_mem hentry)
    simpa using hne
  rw [shownChar, hnone, Option.getD_none]

theorem mem_escapes_iff {c : Char} : c ∈ escapes.map Prod.fst ↔
    c = Char.ofNat 0 ∨ c = '\t' ∨ c = '\n' ∨ c = '\r' ∨ c = '"' ∨ c = '\\' := by
  simp [escapes]

theorem quotedChar_eq (c : Char) : quotedChar c = shownChar c := by
  by_cases hescape : c ∈ escapes.map Prod.fst
  · rcases mem_escapes_iff.mp hescape with rfl | rfl | rfl | rfl | rfl | rfl <;> rfl
  · rw [shownChar_of_notMem hescape]
    simp only [mem_escapes_iff, not_or] at hescape
    obtain ⟨hnul, htab, hfeed, hreturn, hquote, hbackslash⟩ := hescape
    simp [quotedChar, hnul, htab, hfeed, hreturn, hquote, hbackslash, hex_one]

theorem quoted_eq (text : String) : quoted text = inQuotes text := by
  unfold quoted inQuotes
  rw [funext quotedChar_eq]

theorem isUnprintable_of_ascii {c : Char} (hlow : 0x20 ≤ c.toNat) (hhigh : c.toNat < 0x7f) :
    isUnprintable c = false := by
  have hranges : ∀ range ∈ unprintableRanges.toList, range.2 < 0x20 ∨ 0x7f ≤ range.1 := by
    decide +kernel
  rw [isUnprintable, Array.any_eq_false']
  intro range hrange
  have hoff := hranges range (Array.mem_toList_iff.mpr hrange)
  simp only [Bool.and_eq_true, decide_eq_true_eq, not_and]
  omega

/-- Characters that stand between quotes as they are. -/
def isPlain (c : Char) : Bool :=
  0x20 ≤ c.toNat && c.toNat < 0x7f && c ∉ escapes.map Prod.fst

theorem shownChar_of_plain {c : Char} (h : isPlain c) : shownChar c = String.ofList [c] := by
  simp only [isPlain, Bool.and_eq_true, decide_eq_true_eq] at h
  obtain ⟨⟨hlow, hhigh⟩, hescape⟩ := h
  rw [shownChar_of_notMem hescape, isUnprintable_of_ascii hlow hhigh]
  rfl

theorem inQuotes_of_plain {text : String} (h : text.toList.all isPlain) :
    inQuotes text = "\"" ++ text ++ "\"" := by
  have hjoin : String.join (text.toList.map shownChar) = text := by
    rw [List.map_congr_left fun c hc => shownChar_of_plain (List.all_eq_true.mp h c hc),
      ← String.toList_inj]
    simp [List.flatMap_map]
  rw [inQuotes, hjoin]

end Text

open Container

def shownFlags (flags : UInt32) : String :=
  "access=0x" ++ Text.fourDigits 16 flags.toNat

def shownCode (code : CodeItem) : String :=
  "regs=" ++ toString code.registers ++ " ins=" ++ toString code.ins ++ " outs="
    ++ toString code.outs ++ " insns=" ++ toString code.insns.length

def FieldRecord.line (field : FieldRecord) : String :=
  "    field " ++ field.name ++ ":" ++ field.typeDescriptor ++ " " ++ shownFlags field.accessFlags

def MethodRecord.line (method : MethodRecord) : String :=
  "    method " ++ method.name ++ method.proto ++ " " ++ shownFlags method.accessFlags ++ " "
    ++ method.code.elim "no code" shownCode

/-- The lines that show a class: the class itself and one for each interface and member. -/
def ClassRecord.lines (record : ClassRecord) : List String :=
  ("  class " ++ record.descriptor ++ " " ++ shownFlags record.accessFlags
      ++ " super=" ++ record.superclass.getD "<none>")
    :: (record.interfaces.map fun descriptor => "    implements " ++ descriptor)
    ++ record.fields.map FieldRecord.line ++ record.methods.map MethodRecord.line

def Dialect.line : Dialect → String
  | .v035 => "dialect: dex 035"
  | .v037 => "dialect: dex 037"
  | .v038 => "dialect: dex 038"
  | .v039 => "dialect: dex 039"

namespace Container

def numberedLines (texts : List String) : List String :=
  texts.zipIdx.map fun (text, index) => "  [" ++ Text.fourDigits 10 index ++ "] " ++ text

/-- The lines that show a bundle, when its container lists these strings and types. -/
def bundleLines (strings descriptors : List String) (bundle : Bundle) : List String :=
  bundle.dialect.line
    :: ("strings (" ++ toString strings.length ++ "):")
      :: numberedLines (strings.map Text.inQuotes)
    ++ ("types (" ++ toString descriptors.length ++ "):") :: numberedLines descriptors
    ++ ("classes (" ++ toString bundle.classes.length ++ "):")
      :: bundle.classes.flatMap ClassRecord.lines

theorem flagsText_eq (flags : UInt32) : flagsText flags = shownFlags flags := rfl

theorem codeText_eq (code : Option CodeItem) :
    codeText code = code.elim "no code" shownCode := by
  cases code with
  | none => rfl
  | some code => rfl

theorem map_numberedLine {α : Type} (shown : α → String) (items : List α) :
    (items.zipIdx.map fun place => numberedLine place.2 (shown place.1)) =
      numberedLines (items.map shown) := by
  rw [numberedLines, List.zipIdx_map, List.map_map]
  rfl

theorem dialect_line_eq (dialect : Dialect) : "dialect: " ++ dialect.display = dialect.line := by
  cases dialect with
  | _ => rfl

namespace Tables

/-- Tables in which no index in range is the word for no index. -/
structure Roomy (tables : Tables) : Prop where
  strings : tables.strings.size < 2 ^ 32
  types : tables.types.size < 2 ^ 32

theorem roomy_of_decode {bytes : Bytes} {tables : Tables} (h : Tables.decode bytes = .ok tables) :
    tables.Roomy := by
  obtain ⟨hsize, -⟩ := (decode_eq_ok_iff tables bytes).mp h
  obtain ⟨hstrings, -, htypes, -⟩ := (fit_extents_iff tables).mp (fit_of_layout tables (by omega))
  exact ⟨hstrings, htypes⟩

section Shown

variable {tables : Tables} (hroomy : tables.Roomy)

include hroomy

theorem stringText_of_denotes {index : UInt32} {text : String}
    (h : tables.DenotesText index text) : tables.stringText index = text := by
  have hlt : index.toNat < tables.strings.size := exists_denotesText_iff.mp ⟨text, h⟩
  have hfound : tables.strings[index.toNat]? = some text := h
  rw [stringText, if_neg (ne_noIndex_of_toNat_lt hlt hroomy.strings), hfound]

theorem typeText_of_denotes {index : UInt32} {descriptor : String}
    (h : tables.DenotesType index descriptor) : tables.typeText index = descriptor := by
  have hlt : index.toNat < tables.types.size := lt_of_denotesType h
  obtain ⟨stringIndex, hfound, htext⟩ := Option.bind_eq_some_iff.mp h
  rw [typeText, if_neg (ne_noIndex_of_toNat_lt hlt hroomy.types), hfound]
  exact stringText_of_denotes hroomy htext

theorem typeText_of_optionally {index : UInt32} {o : Option String}
    (h : Optionally tables.DenotesType index o) : tables.typeText index = o.getD "<none>" := by
  cases o with
  | none => exact if_pos h
  | some descriptor => exact typeText_of_denotes hroomy h.2

theorem fieldLine_of_denotes {entry : FieldEntry} {field : FieldRecord}
    (h : entry.Denotes tables field) : tables.fieldLine entry = field.line := by
  unfold fieldLine FieldRecord.line
  rw [stringText_of_denotes hroomy h.name, typeText_of_denotes hroomy h.type, h.accessFlags,
    flagsText_eq]

theorem methodLine_of_denotes {entry : MethodEntry} {method : MethodRecord}
    (h : entry.Denotes tables method) : tables.methodLine entry = method.line := by
  unfold methodLine MethodRecord.line
  rw [stringText_of_denotes hroomy h.name, stringText_of_denotes hroomy h.proto, h.accessFlags,
    h.code, flagsText_eq, codeText_eq]

theorem classLines_of_denotes {entry : ClassEntry} {record : ClassRecord}
    (h : entry.Denotes tables record) : tables.classLines entry = record.lines := by
  have hinterfaces :
      (entry.interfaces.map fun index => "    implements " ++ tables.typeText index) =
        record.interfaces.map fun descriptor => "    implements " ++ descriptor :=
    map_eq_map_of_forall₂ h.interfaces fun index descriptor hindex => by
      rw [typeText_of_denotes hroomy hindex]
  have hfields : entry.fields.map tables.fieldLine = record.fields.map FieldRecord.line :=
    map_eq_map_of_forall₂ h.fields fun _ _ => fieldLine_of_denotes hroomy
  have hmethods : entry.methods.map tables.methodLine = record.methods.map MethodRecord.line :=
    map_eq_map_of_forall₂ h.methods fun _ _ => methodLine_of_denotes hroomy
  unfold classLines ClassRecord.lines
  rw [typeText_of_denotes hroomy h.type, typeText_of_optionally hroomy h.superclass,
    h.accessFlags, flagsText_eq, hinterfaces, hfields, hmethods]

theorem typeLines_of_denotes {descriptors : List String}
    (h : List.Forall₂ tables.DenotesText tables.types.toList descriptors) :
    tables.typeLines = numberedLines descriptors := by
  have htexts : tables.types.toList.map tables.stringText = descriptors.map id :=
    map_eq_map_of_forall₂ h fun _ _ => stringText_of_denotes hroomy
  rw [List.map_id] at htexts
  rw [← htexts]
  exact map_numberedLine tables.stringText _

theorem lines_of_denotes {bundle : Bundle} {descriptors : List String}
    (hdenotes : tables.Denotes bundle)
    (htypes : List.Forall₂ tables.DenotesText tables.types.toList descriptors) :
    tables.lines = bundleLines tables.strings.toList descriptors bundle := by
  have hstrings : tables.stringLines = numberedLines (tables.strings.toList.map Text.inQuotes) := by
    rw [← funext Text.quoted_eq]
    exact map_numberedLine Text.quoted _
  have hclasses : tables.classes.flatMap tables.classLines =
      bundle.classes.flatMap ClassRecord.lines := by
    rw [List.flatMap_def, List.flatMap_def,
      map_eq_map_of_forall₂ hdenotes.classes fun _ _ => classLines_of_denotes hroomy]
  unfold lines bundleLines
  rw [hstrings, typeLines_of_denotes hroomy htypes, hclasses, hdenotes.dialect, dialect_line_eq,
    ← htypes.length_eq, ← hdenotes.classes.length_eq, Array.length_toList, Array.length_toList]

/-- The type table of sound tables is shown as type descriptors. -/
theorem exists_descriptors (hsound : tables.SoundTypes) :
    ∃ descriptors, List.Forall₂ tables.DenotesText tables.types.toList descriptors ∧
      ∀ descriptor ∈ descriptors, Descriptor.isTypeDescriptor descriptor := by
  refine ⟨tables.types.toList.map tables.stringText, (forall₂_and_right _ _ _ _).mp ?_⟩
  rw [List.forall₂_map_right_iff, List.forall₂_same]
  intro index hindex
  obtain ⟨descriptor, htext, htype⟩ := hsound index hindex
  rw [stringText_of_denotes hroomy htext]
  exact ⟨htext, htype⟩

end Shown

/-- The description of a container that resolves shows the type table as the descriptors it stands
for and the classes as the records of the bundle. Every index in the tables that is not the word for
an absent part leads to what is shown for it. -/
theorem describe_shows_bundle (bytes : Bytes) (tables : Tables) (bundle : Bundle)
    (hdecode : Tables.decode bytes = .ok tables) (hresolve : tables.resolve = .ok bundle) :
    (∃ descriptors, List.Forall₂ tables.DenotesText tables.types.toList descriptors ∧
      (∀ descriptor ∈ descriptors, Descriptor.isTypeDescriptor descriptor) ∧
      (Tables.decode bytes).map Tables.describe =
        .ok (String.join ((bundleLines tables.strings.toList descriptors bundle).map
          fun line => line ++ "\n"))) ∧
    (∀ place, ∀ index ∈ tables.textIndices place, ∃ text,
      tables.DenotesText index text ∧ tables.stringText index = text) ∧
    ∀ place, ∀ index ∈ tables.typeIndices place, ∃ descriptor,
      tables.DenotesType index descriptor ∧ tables.typeText index = descriptor := by
  obtain ⟨hsound, hdenotes, hadmissible, -⟩ := (tables.resolve_eq_ok_iff bundle).mp hresolve
  have hroomy := roomy_of_decode hdecode
  refine ⟨?_, ?_, ?_⟩
  · obtain ⟨descriptors, htypes, hdescriptors⟩ := exists_descriptors hroomy hsound
    refine ⟨descriptors, htypes, hdescriptors, ?_⟩
    rw [hdecode, ← lines_of_denotes hroomy hdenotes htypes]
    rfl
  · intro place index hindex
    obtain ⟨text, htext⟩ := exists_text_of_denotes hdenotes hsound place index hindex
    exact ⟨text, htext, stringText_of_denotes hroomy htext⟩
  · intro place index hindex
    obtain ⟨descriptor, htype⟩ := exists_type_of_denotes hdenotes hadmissible place index hindex
    exact ⟨descriptor, htype, typeText_of_denotes hroomy htype⟩

/-- A class at the root of its hierarchy and one below it, with types that are not in the order of
their strings. -/
def rootTables : Tables where
  dialect := .v035
  strings := #["I", "LR;", "f", "m", "()I", "n", "LS;"]
  types := #[1, 0, 6]
  classes := [⟨0, 0x401, noIndex, [], noIndex, [⟨2, 1, 2⟩],
      [⟨3, 4, 9, some ⟨1, 0, 0, 0, [15, 0]⟩⟩, ⟨5, 4, 0x400, none⟩]⟩,
    ⟨2, 1, 0, [0], 6, [], []⟩]

def rootBundle : Bundle where
  dialect := .v035
  classes :=
    [{ descriptor := "LR;", accessFlags := 0x401, fields := [⟨"f", "I", 2⟩],
       methods := [⟨"m", "()I", 9, some ⟨1, 0, 0, 0, [15, 0]⟩⟩, ⟨"n", "()I", 0x400, none⟩] },
     { descriptor := "LS;", accessFlags := 1, superclass := some "LR;", interfaces := ["LR;"],
       sourceFile := some "LS;" }]

theorem describe_shows_rootBundle :
    rootTables.resolve = .ok rootBundle ∧
    (Tables.decode (sealed .v035 (signedPart rootTables.layout))).map Tables.describe =
      .ok (String.join (["dialect: dex 035",
        "strings (7):", "  [0000] \"I\"", "  [0001] \"LR;\"", "  [0002] \"f\"", "  [0003] \"m\"",
        "  [0004] \"()I\"", "  [0005] \"n\"", "  [0006] \"LS;\"",
        "types (3):", "  [0000] LR;", "  [0001] I", "  [0002] LS;",
        "classes (2):", "  class LR; access=0x0401 super=<none>", "    field f:I access=0x0002",
        "    method m()I access=0x0009 regs=1 ins=0 outs=0 insns=2",
        "    method n()I access=0x0400 no code", "  class LS; access=0x0001 super=LR;",
        "    implements LR;"].map fun line => line ++ "\n")) := by
  have hdecode : Tables.decode (sealed .v035 (signedPart rootTables.layout)) = .ok rootTables :=
    (decode_eq_ok_iff rootTables _).mpr ⟨by decide +kernel, rfl⟩
  have hresolve : rootTables.resolve = .ok rootBundle := rfl
  obtain ⟨⟨descriptors, htypes, -, hdescribe⟩, -⟩ := describe_shows_bundle _ _ _ hdecode hresolve
  have hdescriptors : descriptors = ["LR;", "I", "LS;"] :=
    denotesText_unique.forall₂ htypes (.cons rfl (.cons rfl (.cons rfl .nil)))
  have hplain : ∀ text ∈ rootTables.strings.toList, text.toList.all Text.isPlain := by decide
  have hquotes : rootTables.strings.toList.map Text.inQuotes =
      ["\"I\"", "\"LR;\"", "\"f\"", "\"m\"", "\"()I\"", "\"n\"", "\"LS;\""] :=
    List.map_congr_left fun text htext => Text.inQuotes_of_plain (hplain text htext)
  rw [hdescribe, hdescriptors, bundleLines, hquotes]
  exact ⟨hresolve, rfl⟩

end Tables

end Container

end LiveDex
