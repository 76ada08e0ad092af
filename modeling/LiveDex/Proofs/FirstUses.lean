import LiveDex.Proofs.Defects
import LiveDex.Proofs.RoundTrip

/-!
The tables of a written container. Strings and types stand in them in the order of their first
uses, none stands twice, and each is there for a reason: some index in the same tables leads to it.
-/
namespace LiveDex.Container

section Indices

variable {bundle : Bundle} (hsmall : (Interner.ofBundle bundle).Small)

theorem entry_mem_classes {record : ClassRecord} (h : record ∈ bundle.classes) :
    (Interner.ofBundle bundle).entry record ∈ (Tables.ofBundle bundle).classes := by
  rw [Tables.ofBundle_eq]
  exact List.mem_map_of_mem h

include hsmall

/-- A string that is used as it is has its index at a place for strings. -/
theorem exists_place_of_text {text : String} (h : Use.text text ∈ bundle.uses) :
    ∃ place, (Interner.ofBundle bundle).stringIndex text ∈
      (Tables.ofBundle bundle).textIndices place := by
  obtain ⟨record, hrecord, huse⟩ := List.mem_flatMap.mp h
  have hholds := Interner.holds_ofBundle bundle record hrecord _ huse
  have hentry := entry_mem_classes hrecord
  simp only [ClassRecord.uses, List.mem_append, List.mem_map, List.mem_flatMap,
    Option.mem_toList, reduceCtorEq, and_false, exists_false, false_or, Use.text.injEq,
    exists_eq_right] at huse
  rcases huse with (hsource | ⟨field, hfield, hmem⟩) | ⟨method, hmethod, hmem⟩
  · have hindex : ((Interner.ofBundle bundle).entry record).sourceFile =
        (Interner.ofBundle bundle).stringIndex text := by
      simp [Interner.entry, hsource, Interner.optionalIndex]
    exact ⟨.sourceFile, Tables.mem_present_iff.mpr
      ⟨_, hentry, hindex, idxOf_ne_noIndex hholds hsmall.strings⟩⟩
  · obtain rfl : text = field.name := by simpa [FieldRecord.uses] using hmem
    have hmember := List.mem_map_of_mem (f := (Interner.ofBundle bundle).fieldEntry) hfield
    exact ⟨.fieldName, List.mem_flatMap.mpr ⟨_, hentry, List.mem_map_of_mem hmember⟩⟩
  · have hmember := List.mem_map_of_mem (f := (Interner.ofBundle bundle).methodEntry) hmethod
    have hcases : text = method.name ∨ text = method.proto := by
      simpa [MethodRecord.uses] using hmem
    rcases hcases with rfl | rfl
    · exact ⟨.methodName, List.mem_flatMap.mpr ⟨_, hentry, List.mem_map_of_mem hmember⟩⟩
    · exact ⟨.methodProto, List.mem_flatMap.mpr ⟨_, hentry, List.mem_map_of_mem hmember⟩⟩

/-- A type that is used has its index at a place for types. -/
theorem exists_place_of_type {descriptor : String} (h : Use.type descriptor ∈ bundle.uses) :
    ∃ place, (Interner.ofBundle bundle).typeIndex descriptor ∈
      (Tables.ofBundle bundle).typeIndices place := by
  obtain ⟨record, hrecord, huse⟩ := List.mem_flatMap.mp h
  have hholds := Interner.holds_ofBundle bundle record hrecord _ huse
  have hentry := entry_mem_classes hrecord
  have hmem : descriptor ∈ record.types := by
    rw [← ClassRecord.descriptors_uses]
    exact List.mem_filterMap.mpr ⟨_, huse, rfl⟩
  simp only [ClassRecord.types, ClassRecord.classTypes, List.mem_append, List.mem_cons,
    Option.mem_toList, List.mem_map] at hmem
  rcases hmem with (rfl | hsuper | hinterface) | ⟨field, hfield, rfl⟩
  · exact ⟨.classType, List.mem_map_of_mem hentry⟩
  · have hindex : ((Interner.ofBundle bundle).entry record).superclass =
        (Interner.ofBundle bundle).typeIndex descriptor := by
      simp [Interner.entry, hsuper, Interner.optionalIndex]
    exact ⟨.superclass, Tables.mem_present_iff.mpr
      ⟨_, hentry, hindex, idxOf_ne_noIndex hholds.2 hsmall.types⟩⟩
  · exact ⟨.interface, List.mem_flatMap.mpr ⟨_, hentry, List.mem_map_of_mem hinterface⟩⟩
  · have hmember := List.mem_map_of_mem (f := (Interner.ofBundle bundle).fieldEntry) hfield
    exact ⟨.fieldType, List.mem_flatMap.mpr ⟨_, hentry, List.mem_map_of_mem hmember⟩⟩

end Indices

section Used

theorem idxOf_getElem_of_nodup {α : Type} [DecidableEq α] {pool : Array α}
    (hnodup : pool.toList.Nodup) {position : ℕ} (h : position < pool.size) :
    pool.idxOf pool[position] = position := by
  obtain ⟨items⟩ := pool
  rw [List.idxOf_toArray]
  exact hnodup.idxOf_getElem position h

theorem nodup_strings_ofBundle (bundle : Bundle) :
    (Interner.ofBundle bundle).strings.values.toList.Nodup := by
  rw [(Interner.listsFirstUses_ofBundle bundle).strings]
  exact nodup_eraseDups _

variable {bundle : Bundle} (hsmall : (Interner.ofBundle bundle).Small)

include hsmall

theorem nodup_types_ofBundle : (Interner.ofBundle bundle).types.values.toList.Nodup := by
  have hlists := Interner.listsFirstUses_ofBundle bundle
  rw [hlists.types hsmall.strings.le]
  refine List.Nodup.map_on ?_ (nodup_eraseDups _)
  intro descriptor hdescriptor other hother heq
  rw [List.mem_eraseDups] at hdescriptor hother
  exact Interner.stringIndex_inj hsmall.strings.le (hlists.descriptor_mem_strings hdescriptor)
    (hlists.descriptor_mem_strings hother) heq

/-- The type table holds the positions of the descriptors among the strings. -/
theorem types_toNat_ofBundle :
    (Interner.ofBundle bundle).types.values.toList.map UInt32.toNat =
      (bundle.uses.filterMap Use.descriptor?).eraseDups.map fun descriptor =>
        (Interner.ofBundle bundle).strings.values.idxOf descriptor := by
  have hlists := Interner.listsFirstUses_ofBundle bundle
  rw [hlists.types hsmall.strings.le, List.map_map]
  apply List.map_congr_left
  intro descriptor hdescriptor
  rw [List.mem_eraseDups] at hdescriptor
  exact toNat_idxOf (hlists.descriptor_mem_strings hdescriptor) hsmall.strings.le

/-- Some index leads to every string of the tables: that of a type, if the string was used as a
descriptor, and else one of a class. -/
theorem exists_index_of_string {position : ℕ}
    (h : position < (Interner.ofBundle bundle).strings.values.size) :
    ∃ place, ∃ index ∈ (Tables.ofBundle bundle).textIndices place, index.toNat = position := by
  have hmem : (Interner.ofBundle bundle).strings.values[position] ∈
      (bundle.uses.map Use.string).eraseDups := by
    rw [← (Interner.listsFirstUses_ofBundle bundle).strings]
    exact Array.mem_toList_iff.mpr (Array.getElem_mem h)
  obtain ⟨use, huse, hstring⟩ := List.mem_map.mp (List.mem_eraseDups.mp hmem)
  have hindex : ((Interner.ofBundle bundle).stringIndex use.string).toNat = position := by
    rw [hstring, Interner.stringIndex,
      toNat_idxOf (Array.getElem_mem h) hsmall.strings.le]
    exact idxOf_getElem_of_nodup (nodup_strings_ofBundle bundle) h
  cases use with
  | text text =>
    obtain ⟨place, hplace⟩ := exists_place_of_text hsmall huse
    exact ⟨place, _, hplace, hindex⟩
  | type descriptor =>
    have hholds := Interner.holds_meetAll {} bundle.uses _ huse
    refine ⟨.typeTable, _, ?_, hindex⟩
    rw [Tables.textIndices, Tables.types_ofBundle]
    exact Array.mem_toList_iff.mpr hholds.2

theorem exists_index_of_type {position : ℕ}
    (h : position < (Interner.ofBundle bundle).types.values.size) :
    ∃ place, ∃ index ∈ (Tables.ofBundle bundle).typeIndices place, index.toNat = position := by
  have hmem : (Interner.ofBundle bundle).types.values[position] ∈
      (bundle.uses.filterMap Use.descriptor?).eraseDups.map
        (Interner.ofBundle bundle).stringIndex := by
    rw [← (Interner.listsFirstUses_ofBundle bundle).types hsmall.strings.le]
    exact Array.mem_toList_iff.mpr (Array.getElem_mem h)
  obtain ⟨descriptor, hdescriptor, heq⟩ := List.mem_map.mp hmem
  obtain ⟨use, huse, hsome⟩ := List.mem_filterMap.mp (List.mem_eraseDups.mp hdescriptor)
  cases use with
  | text text => cases hsome
  | type found =>
    obtain rfl := Option.some.inj hsome
    obtain ⟨place, hplace⟩ := exists_place_of_type hsmall huse
    refine ⟨place, _, hplace, ?_⟩
    rw [Interner.typeIndex, heq, toNat_idxOf (Array.getElem_mem h) hsmall.types.le]
    exact idxOf_getElem_of_nodup (nodup_types_ofBundle hsmall) h

end Used

/-- A written container is read back with its strings in the order in which the classes use them
first, and its types likewise, each as the position of its descriptor. Neither table has an entry
twice, and some index leads to every entry. -/
theorem decode_lists_first_uses (bundle : Bundle) (bytes : Bytes)
    (h : bundle.encode = .ok bytes) :
    ∃ tables, Tables.decode bytes = .ok tables ∧
      tables.strings.toList = (bundle.uses.map Use.string).eraseDups ∧
      tables.types.toList.map UInt32.toNat =
        ((bundle.uses.filterMap Use.descriptor?).eraseDups.map fun descriptor =>
          tables.strings.idxOf descriptor) ∧
      tables.strings.toList.Nodup ∧ tables.types.toList.Nodup ∧
      (∀ position < tables.strings.size,
        ∃ place, ∃ index ∈ tables.textIndices place, index.toNat = position) ∧
      ∀ position < tables.types.size,
        ∃ place, ∃ index ∈ tables.typeIndices place, index.toNat = position := by
  obtain ⟨hdecode, hsmall⟩ := decode_of_encode h
  refine ⟨Tables.ofBundle bundle, hdecode, ?_⟩
  rw [Tables.strings_ofBundle, Tables.types_ofBundle]
  exact ⟨(Interner.listsFirstUses_ofBundle bundle).strings, types_toNat_ofBundle hsmall,
    nodup_strings_ofBundle bundle, nodup_types_ofBundle hsmall,
    fun _ => exists_index_of_string hsmall, fun _ => exists_index_of_type hsmall⟩

/-- A string that is a name before it is a type, a type that is a field's before it is a class, and
a class that is mentioned before it is defined. -/
def lateTypes : Bundle where
  dialect := .v039
  classes :=
    [{ descriptor := "LA;", superclass := some "LB;", sourceFile := some "I",
       fields := [⟨"f", "I", 1⟩, ⟨"LC;", "LC;", 0⟩], methods := [⟨"f", "(I)V", 1, none⟩] },
     { descriptor := "LB;", interfaces := ["LC;"] }]

theorem decode_lists_lateTypes :
    ∃ bytes tables, lateTypes.encode = .ok bytes ∧ Tables.decode bytes = .ok tables ∧
      tables.strings = #["LA;", "LB;", "I", "f", "LC;", "(I)V"] ∧
      tables.types.toList.map UInt32.toNat = [0, 1, 2, 4] := by
  have hsize : headerLength + (Tables.ofBundle lateTypes).layout.length < 2 ^ 32 := by
    decide +kernel
  have hencode := (encode_eq_ok_iff (Tables.ofBundle lateTypes) _).mpr ⟨hsize, rfl⟩
  obtain ⟨tables, hdecode, hlist, htypes, -⟩ := decode_lists_first_uses lateTypes _ hencode
  have hstrings : tables.strings = #["LA;", "LB;", "I", "f", "LC;", "(I)V"] := by
    apply Array.toList_inj.mp
    rw [hlist]
    decide
  refine ⟨_, tables, hencode, hdecode, hstrings, ?_⟩
  rw [htypes, hstrings]
  simp only [List.idxOf_toArray]
  decide

end LiveDex.Container
