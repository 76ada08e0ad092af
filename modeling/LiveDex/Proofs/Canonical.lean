import LiveDex.Proofs.RoundTrip

/-!
Writing again what was read. Tables that denote a bundle hold every text and every type the bundle
mentions, while the tables made of the bundle hold each of them once and nothing else; the entries
take the same room in both. So the container of a bundle is the shortest among those that resolve
to it, and no accepted container is too long to be written again.
-/
namespace LiveDex

open Container

theorem sum_map_le_of_subset {α : Type} {l u : List α} (hnodup : l.Nodup) (hsubset : l ⊆ u)
    (f : α → ℕ) : (l.map f).sum ≤ (u.map f).sum := by
  obtain ⟨v, hperm, hsublist⟩ := List.subperm_of_subset hnodup hsubset
  rw [← (hperm.map f).sum_eq]
  exact (hsublist.map f).sum_le_sum (by simp)

/-- The room that the entry of a record takes. -/
def ClassRecord.entryLength (record : ClassRecord) : ℕ :=
  28 + record.interfaces.length * 4 + record.fields.length * 12 +
    (record.methods.map fun method => 12 + (codeLayout method.code).length).sum

namespace Container

variable {tables : Tables} {bundle : Bundle} {record : ClassRecord}

theorem ClassEntry.Denotes.length_layout {entry : ClassEntry} (h : entry.Denotes tables record) :
    entry.layout.length = record.entryLength := by
  have hmethods : (entry.methods.map fun method => method.layout.length) =
      record.methods.map fun method => 12 + (codeLayout method.code).length := by
    apply map_eq_map_of_forall₂ h.methods
    intro method denoted hdenotes
    rw [length_methodLayout, hdenotes.code]
  rw [length_classLayout, length_listLayout_of_const length_word32,
    length_listLayout_of_const length_fieldLayout, length_listLayout, hmethods,
    h.interfaces.length_eq, h.fields.length_eq, ClassRecord.entryLength]
  omega

/-- Entries take the same room in all tables that denote a bundle. -/
theorem Tables.Denotes.length_classes (h : tables.Denotes bundle) :
    (listLayout ClassEntry.layout tables.classes).length =
      4 + (bundle.classes.map ClassRecord.entryLength).sum := by
  have hentries : (tables.classes.map fun entry => entry.layout.length) =
      bundle.classes.map ClassRecord.entryLength := by
    apply map_eq_map_of_forall₂ h.classes
    intro entry record hentry
    exact hentry.length_layout
  rw [length_listLayout, hentries]

/-- The descriptors that the type table leads to. -/
def Tables.descriptors (tables : Tables) : List String :=
  tables.types.toList.filterMap tables.text?

/-- The tables hold what a use mentions, in the table where it belongs. -/
def Tables.Covers (tables : Tables) : Use → Prop
  | .text string => string ∈ tables.strings.toList
  | .type string => string ∈ tables.descriptors

theorem mem_strings_of_denotesText {index : UInt32} {text : String}
    (h : tables.DenotesText index text) : text ∈ tables.strings.toList := by
  exact Array.mem_toList_iff.mpr (Array.mem_of_getElem? h)

theorem mem_descriptors_of_denotesType {index : UInt32} {descriptor : String}
    (h : tables.DenotesType index descriptor) : descriptor ∈ tables.descriptors := by
  obtain ⟨found, hfound, htext⟩ := Option.bind_eq_some_iff.mp h
  exact List.mem_filterMap.mpr
    ⟨found, Array.mem_toList_iff.mpr (Array.mem_of_getElem? hfound), htext⟩

theorem Tables.Covers.string_mem {use : Use} (h : tables.Covers use) :
    use.string ∈ tables.strings.toList := by
  cases use with
  | text string => exact h
  | type string =>
    obtain ⟨index, -, htext⟩ := List.mem_filterMap.mp h
    exact mem_strings_of_denotesText htext

theorem Optionally.imp {denotes : UInt32 → String → Prop} {p : String → Prop} {index : UInt32}
    {o : Option String} (h : Optionally denotes index o)
    (hp : ∀ text, denotes index text → p text) : ∀ text ∈ o, p text := by
  rintro text ⟨⟩
  exact hp text h.2

theorem FieldEntry.Denotes.covers {entry : FieldEntry} {field : FieldRecord}
    (h : entry.Denotes tables field) : ∀ use ∈ field.uses, tables.Covers use := by
  simp only [FieldRecord.uses, List.forall_mem_cons]
  exact ⟨mem_strings_of_denotesText h.name, mem_descriptors_of_denotesType h.type, by simp⟩

theorem MethodEntry.Denotes.covers {entry : MethodEntry} {method : MethodRecord}
    (h : entry.Denotes tables method) : ∀ use ∈ method.uses, tables.Covers use := by
  simp only [MethodRecord.uses, List.forall_mem_cons]
  exact ⟨mem_strings_of_denotesText h.name, mem_strings_of_denotesText h.proto, by simp⟩

theorem ClassEntry.Denotes.covers {entry : ClassEntry} (h : entry.Denotes tables record) :
    ∀ use ∈ record.uses, tables.Covers use := by
  have hclass : ∀ descriptor ∈ record.classTypes, descriptor ∈ tables.descriptors := by
    simp only [ClassRecord.classTypes, List.forall_mem_cons, List.forall_mem_append,
      Option.mem_toList]
    exact ⟨mem_descriptors_of_denotesType h.type,
      h.superclass.imp fun _ => mem_descriptors_of_denotesType,
      forall_mem_of_forall₂ h.interfaces fun _ _ => mem_descriptors_of_denotesType⟩
  have hsource := h.sourceFile.imp fun _ => mem_strings_of_denotesText
  have hfields := forall_mem_of_forall₂ h.fields fun _ _ => FieldEntry.Denotes.covers
  have hmethods := forall_mem_of_forall₂ h.methods fun _ _ => MethodEntry.Denotes.covers
  intro use huse
  simp only [ClassRecord.uses, List.mem_append, List.mem_map, List.mem_flatMap,
    Option.mem_toList] at huse
  rcases huse with ((⟨descriptor, hmem, rfl⟩ | ⟨text, hmem, rfl⟩) | ⟨field, hmem, huse⟩) |
    ⟨method, hmem, huse⟩
  · exact hclass descriptor hmem
  · exact hsource text hmem
  · exact hfields field hmem use huse
  · exact hmethods method hmem use huse

theorem Tables.Denotes.covers (h : tables.Denotes bundle) :
    ∀ use ∈ bundle.uses, tables.Covers use := by
  intro use huse
  obtain ⟨record, hrecord, hmem⟩ := List.mem_flatMap.mp huse
  exact forall_mem_of_forall₂ h.classes (fun _ _ => ClassEntry.Denotes.covers) record hrecord use
    hmem

theorem Tables.Denotes.mem_descriptors (h : tables.Denotes bundle) {descriptor : String}
    (hmem : descriptor ∈ bundle.classes.flatMap ClassRecord.types) :
    descriptor ∈ tables.descriptors := by
  rw [← Bundle.descriptors_uses] at hmem
  obtain ⟨use, huse, hdescriptor⟩ := List.mem_filterMap.mp hmem
  cases use with
  | text string => cases hdescriptor
  | type string =>
    obtain rfl := Option.some.inj hdescriptor
    exact h.covers _ huse

section Length

variable (h : tables.Denotes bundle)

include h

theorem length_strings_ofBundle_le :
    (listLayout stringLayout (Interner.ofBundle bundle).strings.values.toList).length ≤
      (listLayout stringLayout tables.strings.toList).length := by
  rw [(Interner.listsFirstUses_ofBundle bundle).strings, length_listLayout, length_listLayout]
  apply Nat.add_le_add_left
  apply sum_map_le_of_subset (nodup_eraseDups _)
  intro string hstring
  obtain ⟨use, huse, rfl⟩ := List.mem_map.mp (List.mem_eraseDups.mp hstring)
  exact (h.covers use huse).string_mem

theorem size_types_ofBundle_le
    (hstrings : (Interner.ofBundle bundle).strings.values.size ≤ 2 ^ 32) :
    (Interner.ofBundle bundle).types.values.size ≤ tables.types.size := by
  have htypes := (Interner.listsFirstUses_ofBundle bundle).types hstrings
  rw [Bundle.descriptors_uses] at htypes
  have hsubset : (bundle.classes.flatMap ClassRecord.types).eraseDups ⊆ tables.descriptors := by
    intro descriptor hdescriptor
    exact h.mem_descriptors (List.mem_eraseDups.mp hdescriptor)
  calc
    (Interner.ofBundle bundle).types.values.size
        = (bundle.classes.flatMap ClassRecord.types).eraseDups.length := by
      rw [← Array.length_toList, htypes, List.length_map]
    _ ≤ tables.descriptors.length :=
      (List.subperm_of_subset (nodup_eraseDups _) hsubset).length_le
    _ ≤ tables.types.size := List.length_filterMap_le _ _

/-- The tables of a bundle are the shortest that denote it. -/
theorem length_layout_ofBundle_le (hsize : tables.layout.length < 2 ^ 32) :
    (Tables.ofBundle bundle).layout.length ≤ tables.layout.length := by
  have hword (pool : Array UInt32) : (listLayout word32 pool.toList).length = 4 + pool.size * 4 :=
    length_listLayout_of_const length_word32 pool.toList
  have hstrings := length_strings_ofBundle_le h
  have hcount : (Interner.ofBundle bundle).strings.values.size ≤
      (listLayout stringLayout (Interner.ofBundle bundle).strings.values.toList).length :=
    length_le_listLayout stringLayout _ (fun text _ => by rw [length_stringLayout]; omega)
  -- The types are bounded through the strings: their table holds positions of strings, and only
  -- positions that fit words tell the strings apart.
  rw [length_tablesLayout tables, hword] at hsize ⊢
  have htypes := size_types_ofBundle_le h (by omega)
  have hsmall : (Interner.ofBundle bundle).Small := ⟨by omega, by omega⟩
  rw [length_tablesLayout, (ofBundle_denotes hsmall).length_classes, h.length_classes, hword]
  rw [Tables.strings_ofBundle, Tables.types_ofBundle]
  omega

end Length

theorem isTypeDescriptor_of_mem_descriptors (hsound : tables.SoundTypes) {descriptor : String}
    (hmem : descriptor ∈ tables.descriptors) : Descriptor.isTypeDescriptor descriptor := by
  obtain ⟨index, hindex, htext⟩ := List.mem_filterMap.mp hmem
  obtain ⟨found, hfound, htype⟩ := hsound index hindex
  rwa [denotesText_unique htext hfound]

theorem loadable_of_resolve (h : tables.resolve = .ok bundle) :
    ∀ record ∈ bundle.classes, Loadable record := by
  obtain ⟨hsound, hdenotes, hadmissible, -⟩ := (tables.resolve_eq_ok_iff bundle).mp h
  intro record hrecord
  refine ⟨?_, (hadmissible record hrecord).classTypes, (hadmissible record hrecord).registers⟩
  intro descriptor hdescriptor
  apply isTypeDescriptor_of_mem_descriptors hsound
  exact hdenotes.mem_descriptors (List.mem_flatMap_of_mem hrecord hdescriptor)

theorem valid_of_resolve (h : tables.resolve = .ok bundle) : Valid bundle :=
  ⟨((tables.resolve_eq_ok_iff bundle).mp h).2.2.2, loadable_of_resolve h⟩

/-- What was read from a container can be written, in no more bytes, and from there on reading
and writing change nothing. -/
theorem encode_of_decode_resolve (bytes : Bytes) (tables : Tables) (bundle : Bundle)
    (hdecode : Tables.decode bytes = .ok tables) (hresolve : tables.resolve = .ok bundle) :
    ∃ written, bundle.encode = .ok written ∧ written.length ≤ bytes.length ∧
      ∃ again resolved, Tables.decode written = .ok again ∧ again.resolve = .ok resolved ∧
        resolved = bundle ∧ resolved.encode = .ok written := by
  obtain ⟨-, hdenotes, -, hdistinct⟩ := (tables.resolve_eq_ok_iff bundle).mp hresolve
  obtain ⟨hsize, rfl⟩ := (decode_eq_ok_iff tables bytes).mp hdecode
  have hle := length_layout_ofBundle_le hdenotes (by omega)
  have hencode : bundle.encode = .ok _ :=
    (encode_eq_ok_iff (Tables.ofBundle bundle) _).mpr ⟨by omega, rfl⟩
  obtain ⟨hagain, hsmall⟩ := decode_of_encode hencode
  have hback := (resolve_ofBundle_eq_ok_iff hsmall hdistinct bundle).mpr
    ⟨rfl, loadable_of_resolve hresolve⟩
  refine ⟨_, hencode, ?_, _, bundle, hagain, hback, rfl, hencode⟩
  rw [length_sealed, length_sealed]
  omega

/-- Tables with a string that nothing uses, one that stands twice, and two types that are one. -/
def repetitiveTables : Tables where
  dialect := .v037
  strings := #["unused", "LA;", "f", "LA;"]
  types := #[3, 1]
  classes := [⟨1, 1, 0, [0], noIndex, [⟨2, 1, 0⟩], []⟩]

theorem encode_repetitiveTables :
    Tables.decode (sealed .v037 (signedPart repetitiveTables.layout)) = .ok repetitiveTables ∧
    ∃ bundle written, repetitiveTables.resolve = .ok bundle ∧ bundle.encode = .ok written ∧
      written.length ≤ (sealed .v037 (signedPart repetitiveTables.layout)).length ∧
      ∃ again, Tables.decode written = .ok again ∧ again.resolve = .ok bundle := by
  have hdecode := (decode_eq_ok_iff repetitiveTables _).mpr ⟨by decide, rfl⟩
  have hresolve : repetitiveTables.resolve = .ok
      ⟨.v037, [⟨"LA;", 1, some "LA;", ["LA;"], none, [⟨"f", "LA;", 0⟩], []⟩]⟩ := by
    rfl
  obtain ⟨written, hwritten, hle, again, resolved, hagain, hback, rfl, -⟩ :=
    encode_of_decode_resolve _ _ _ hdecode hresolve
  exact ⟨hdecode, _, written, hresolve, hwritten, hle, again, hagain, hback⟩

end Container

end LiveDex
