import LiveDex.Proofs.ContainerFormat
import LiveDex.Proofs.Interning
import LiveDex.Proofs.Resolution

/-!
From a bundle to its container and back. The tables of a bundle denote that bundle and no other,
as long as words can hold their indices, which the size of a container ensures. So a container
always gives back the tables it was written from, distinct bundles have distinct containers, and
the one thing that may keep a bundle from coming back whole is a record that may not be loaded.
-/
namespace LiveDex.Container

/-- A position of an array that words can count is not the word for no index. -/
theorem ne_noIndex_of_toNat_lt {index : UInt32} {size : ℕ} (h : index.toNat < size)
    (hsize : size < 2 ^ 32) : index ≠ noIndex := by
  rintro rfl
  simp only [noIndex, UInt32.reduceToNat] at h
  omega

theorem idxOf_ne_noIndex {α : Type} [DecidableEq α] {pool : Array α} {a : α} (ha : a ∈ pool)
    (hsize : pool.size < 2 ^ 32) : (pool.idxOf a).toUInt32 ≠ noIndex := by
  apply ne_noIndex_of_toNat_lt _ hsize
  rw [toNat_idxOf ha hsize.le]
  exact Array.idxOf_lt_size_iff.mpr ha

/-- Records that may be loaded: all types are type descriptors, those the class is made of name
classes, and no method has more arguments than registers. -/
structure Loadable (record : ClassRecord) : Prop where
  types : ∀ descriptor ∈ record.types, Descriptor.isTypeDescriptor descriptor
  classTypes : ∀ descriptor ∈ record.classTypes, NamesClass descriptor
  registers : ∀ method ∈ record.methods, HoldsArguments method.code

instance (record : ClassRecord) : Decidable (Loadable record) :=
  decidable_of_iff
    ((∀ descriptor ∈ record.types, Descriptor.isTypeDescriptor descriptor) ∧
      (∀ descriptor ∈ record.classTypes, NamesClass descriptor) ∧
      ∀ method ∈ record.methods, HoldsArguments method.code)
    ⟨fun ⟨types, classTypes, registers⟩ => ⟨types, classTypes, registers⟩,
      fun h => ⟨h.types, h.classTypes, h.registers⟩⟩

/-- Bundles that may be loaded: no class is in them twice, and each record may be loaded. -/
structure Valid (bundle : Bundle) : Prop where
  distinct : bundle.Distinct
  loadable : ∀ record ∈ bundle.classes, Loadable record

/-- Pools whose positions fit words, with room for the word that stands for no index. -/
structure Interner.Small (pools : Interner) : Prop where
  strings : pools.strings.values.size < 2 ^ 32
  types : pools.types.values.size < 2 ^ 32

theorem forall₂_map_self {α β : Type} {R : β → α → Prop} {f : α → β} {l : List α}
    (h : ∀ a ∈ l, R (f a) a) : List.Forall₂ R (l.map f) l :=
  List.forall₂_map_left_iff.mpr (List.forall₂_same.mpr h)

section Denotation

variable {bundle : Bundle} {record : ClassRecord} (hsmall : (Interner.ofBundle bundle).Small)

include hsmall

theorem denotesText_stringIndex {text : String}
    (h : (Interner.ofBundle bundle).Holds (.text text)) :
    (Tables.ofBundle bundle).DenotesText ((Interner.ofBundle bundle).stringIndex text) text := by
  rw [Tables.ofBundle_eq]
  exact Interner.getElem?_stringIndex hsmall.strings.le h

theorem denotesType_typeIndex {descriptor : String}
    (h : (Interner.ofBundle bundle).Holds (.type descriptor)) :
    (Tables.ofBundle bundle).DenotesType
      ((Interner.ofBundle bundle).typeIndex descriptor) descriptor := by
  obtain ⟨hstring, htype⟩ := h
  have htext := denotesText_stringIndex hsmall hstring
  rw [Tables.ofBundle_eq] at htext ⊢
  unfold Tables.DenotesType Tables.descriptor?
  change ((Interner.ofBundle bundle).types.values[((Interner.ofBundle bundle).types.values.idxOf
    ((Interner.ofBundle bundle).stringIndex descriptor)).toUInt32.toNat]?).bind _ = _
  rw [getElem?_idxOf htype hsmall.types.le]
  exact htext

theorem optionally_typeIndex (o : Option String)
    (h : ∀ descriptor ∈ o, (Interner.ofBundle bundle).Holds (.type descriptor)) :
    Optionally (Tables.ofBundle bundle).DenotesType
      (Interner.optionalIndex (Interner.ofBundle bundle).typeIndex o) o := by
  cases o with
  | none => rfl
  | some descriptor =>
    have hholds := h descriptor rfl
    exact ⟨idxOf_ne_noIndex hholds.2 hsmall.types, denotesType_typeIndex hsmall hholds⟩

theorem optionally_stringIndex (o : Option String)
    (h : ∀ text ∈ o, (Interner.ofBundle bundle).Holds (.text text)) :
    Optionally (Tables.ofBundle bundle).DenotesText
      (Interner.optionalIndex (Interner.ofBundle bundle).stringIndex o) o := by
  cases o with
  | none => rfl
  | some text =>
    have hholds := h text rfl
    exact ⟨idxOf_ne_noIndex hholds hsmall.strings, denotesText_stringIndex hsmall hholds⟩

/-- The entry of a record denotes the record. -/
theorem entry_denotes (hrecord : record ∈ bundle.classes) :
    ((Interner.ofBundle bundle).entry record).Denotes (Tables.ofBundle bundle) record := by
  have hholds := Interner.holds_ofBundle bundle record hrecord
  have hclass (descriptor : String) (h : descriptor ∈ record.classTypes) :
      (Interner.ofBundle bundle).Holds (.type descriptor) :=
    hholds _ (by simp [ClassRecord.uses, h])
  have hfield (field : FieldRecord) (h : field ∈ record.fields) (use : Use)
      (huse : use ∈ field.uses) : (Interner.ofBundle bundle).Holds use := by
    apply hholds
    simp only [ClassRecord.uses, List.mem_append, List.mem_flatMap]
    exact Or.inl (Or.inr ⟨field, h, huse⟩)
  have hmethod (method : MethodRecord) (h : method ∈ record.methods) (use : Use)
      (huse : use ∈ method.uses) : (Interner.ofBundle bundle).Holds use := by
    apply hholds
    simp only [ClassRecord.uses, List.mem_append, List.mem_flatMap]
    exact Or.inr ⟨method, h, huse⟩
  refine ⟨?_, rfl, ?_, ?_, ?_, ?_, ?_⟩
  · exact denotesType_typeIndex hsmall (hclass _ (by simp [ClassRecord.classTypes]))
  · apply optionally_typeIndex hsmall
    intro descriptor h
    exact hclass descriptor (by simp [ClassRecord.classTypes, Option.mem_def.mp h])
  · apply forall₂_map_self
    intro descriptor h
    exact denotesType_typeIndex hsmall (hclass descriptor (by simp [ClassRecord.classTypes, h]))
  · apply optionally_stringIndex hsmall
    intro text h
    exact hholds _ (by simp [ClassRecord.uses, Option.mem_def.mp h])
  · apply forall₂_map_self
    intro field h
    exact ⟨denotesText_stringIndex hsmall (hfield field h _ (by simp [FieldRecord.uses])),
      denotesType_typeIndex hsmall (hfield field h _ (by simp [FieldRecord.uses])), rfl⟩
  · apply forall₂_map_self
    intro method h
    exact ⟨denotesText_stringIndex hsmall (hmethod method h _ (by simp [MethodRecord.uses])),
      denotesText_stringIndex hsmall (hmethod method h _ (by simp [MethodRecord.uses])), rfl, rfl⟩

/-- The tables of a bundle denote the bundle. -/
theorem ofBundle_denotes : (Tables.ofBundle bundle).Denotes bundle := by
  have hentries : List.Forall₂ (ClassEntry.Denotes (Tables.ofBundle bundle))
      (bundle.classes.map (Interner.ofBundle bundle).entry) bundle.classes := by
    apply forall₂_map_self
    intro record hrecord
    exact entry_denotes hsmall hrecord
  refine ⟨?_, ?_⟩
  · rw [Tables.ofBundle_eq]
  · have hclasses : (Tables.ofBundle bundle).classes =
        bundle.classes.map (Interner.ofBundle bundle).entry := by
      rw [Tables.ofBundle_eq]
    rwa [hclasses]

/-- The type table of a bundle lists the types that its classes mention, each once. -/
theorem toList_types_ofBundle :
    (Tables.ofBundle bundle).types.toList =
      (bundle.classes.flatMap ClassRecord.types).eraseDups.map
        (Interner.ofBundle bundle).stringIndex := by
  rw [Tables.ofBundle_eq, ← Bundle.descriptors_uses]
  exact (Interner.listsFirstUses_ofBundle bundle).types hsmall.strings.le

theorem denotesText_of_mem_types {descriptor : String}
    (h : descriptor ∈ bundle.classes.flatMap ClassRecord.types) :
    (Tables.ofBundle bundle).DenotesText
      ((Interner.ofBundle bundle).stringIndex descriptor) descriptor := by
  rw [← Bundle.descriptors_uses] at h
  exact denotesText_stringIndex hsmall
    ((Interner.listsFirstUses_ofBundle bundle).descriptor_mem_strings h)

theorem ofBundle_soundTypes_iff :
    (Tables.ofBundle bundle).SoundTypes ↔
      ∀ descriptor ∈ bundle.classes.flatMap ClassRecord.types,
        Descriptor.isTypeDescriptor descriptor := by
  unfold Tables.SoundTypes
  rw [toList_types_ofBundle hsmall]
  simp only [List.forall_mem_map, List.mem_eraseDups]
  constructor
  · intro h descriptor hmem
    obtain ⟨found, hfound, htype⟩ := h descriptor hmem
    rwa [denotesText_unique (denotesText_of_mem_types hsmall hmem) hfound]
  · intro h descriptor hmem
    exact ⟨descriptor, denotesText_of_mem_types hsmall hmem, h descriptor hmem⟩

/-- If some type of a bundle is malformed, then resolving its tables reports such a type. -/
theorem resolve_ofBundle_malformed
    (h : ∃ descriptor ∈ bundle.classes.flatMap ClassRecord.types,
      ¬ Descriptor.isTypeDescriptor descriptor) :
    ∃ descriptor ∈ bundle.classes.flatMap ClassRecord.types,
      ¬ Descriptor.isTypeDescriptor descriptor ∧
        (Tables.ofBundle bundle).resolve = .error (.malformedType descriptor) := by
  rcases forM_eq_ok_or_error (Tables.ofBundle bundle).checkType
    (Tables.ofBundle bundle).types.toList with hok | ⟨index, hindex, e, hcheck, herror⟩
  · have hsound : (Tables.ofBundle bundle).SoundTypes := by
      intro index hindex
      exact (Tables.checkType_eq_ok_iff _ index).mp ((forM_eq_ok_iff _ _).mp hok index hindex)
    obtain ⟨descriptor, hmem, hbad⟩ := h
    exact absurd ((ofBundle_soundTypes_iff hsmall).mp hsound descriptor hmem) hbad
  · rw [toList_types_ofBundle hsmall] at hindex
    obtain ⟨descriptor, hdescriptor, rfl⟩ := List.mem_map.mp hindex
    have hmem := List.mem_eraseDups.mp hdescriptor
    rw [Tables.checkType_eq_of_denotesText _ (denotesText_of_mem_types hsmall hmem)] at hcheck
    split at hcheck
    case isTrue => cases hcheck
    case isFalse hbad =>
      obtain rfl := Except.error.inj hcheck
      exact ⟨descriptor, hmem, hbad, Tables.resolve_eq_error_of_checkType _ herror⟩

/-- What the tables of a bundle resolve to is the bundle, if it is valid. -/
theorem resolve_ofBundle_eq_ok_iff_valid (resolved : Bundle) :
    (Tables.ofBundle bundle).resolve = .ok resolved ↔ resolved = bundle ∧ Valid bundle := by
  rw [Tables.resolve_eq_ok_iff, ofBundle_soundTypes_iff hsmall]
  constructor
  · rintro ⟨htypes, hdenotes, hadmissible, hdistinct⟩
    obtain rfl := Tables.denotes_unique hdenotes (ofBundle_denotes hsmall)
    refine ⟨rfl, hdistinct, ?_⟩
    intro record hrecord
    refine ⟨?_, (hadmissible record hrecord).classTypes, (hadmissible record hrecord).registers⟩
    intro descriptor hdescriptor
    exact htypes descriptor (List.mem_flatMap_of_mem hrecord hdescriptor)
  · rintro ⟨rfl, hdistinct, hloadable⟩
    refine ⟨?_, ofBundle_denotes hsmall, ?_, hdistinct⟩
    · intro descriptor hdescriptor
      obtain ⟨record, hrecord, hmem⟩ := List.mem_flatMap.mp hdescriptor
      exact (hloadable record hrecord).types descriptor hmem
    · intro record hrecord
      exact ⟨(hloadable record hrecord).classTypes, (hloadable record hrecord).registers⟩

theorem resolve_ofBundle_eq_ok_iff (hdistinct : bundle.Distinct) (resolved : Bundle) :
    (Tables.ofBundle bundle).resolve = .ok resolved ↔
      resolved = bundle ∧ ∀ record ∈ bundle.classes, Loadable record := by
  rw [resolve_ofBundle_eq_ok_iff_valid hsmall]
  exact and_congr_right fun _ => ⟨Valid.loadable, fun hloadable => ⟨hdistinct, hloadable⟩⟩

end Denotation

theorem small_of_size {bundle : Bundle}
    (hsize : headerLength + (Tables.ofBundle bundle).layout.length < 2 ^ 32) :
    (Interner.ofBundle bundle).Small := by
  have hfit := fit_of_layout (Tables.ofBundle bundle) (by omega)
  obtain ⟨hstrings, -, htypes, -⟩ := (fit_extents_iff _).mp hfit
  rw [Tables.ofBundle_eq] at hstrings htypes
  exact ⟨hstrings, htypes⟩

/-- A container is read back as the tables it was written from. -/
theorem decode_of_encode {bundle : Bundle} {bytes : Bytes} (h : bundle.encode = .ok bytes) :
    Tables.decode bytes = .ok (Tables.ofBundle bundle) ∧ (Interner.ofBundle bundle).Small := by
  have hencode := (encode_eq_ok_iff (Tables.ofBundle bundle) bytes).mp h
  exact ⟨(decode_eq_ok_iff _ _).mpr hencode, small_of_size hencode.1⟩

/-- The container of a valid bundle resolves to that bundle. -/
theorem decode_resolve_of_valid {bundle : Bundle} {bytes : Bytes}
    (h : bundle.encode = .ok bytes) (hvalid : Valid bundle) :
    Tables.decode bytes = .ok (Tables.ofBundle bundle) ∧
      (Tables.ofBundle bundle).resolve = .ok bundle := by
  obtain ⟨hdecode, hsmall⟩ := decode_of_encode h
  exact ⟨hdecode, (resolve_ofBundle_eq_ok_iff_valid hsmall bundle).mpr ⟨rfl, hvalid⟩⟩

/-- Bundles with the same container are the same. -/
theorem bundle_eq_of_encode {first second : Bundle} {bytes : Bytes}
    (hfirst : first.encode = .ok bytes) (hsecond : second.encode = .ok bytes) : first = second := by
  obtain ⟨hdecode, hsmall⟩ := decode_of_encode hfirst
  obtain ⟨hdecode', hsmall'⟩ := decode_of_encode hsecond
  have htables : Tables.ofBundle first = Tables.ofBundle second :=
    Except.ok.inj (hdecode.symm.trans hdecode')
  have hdenotes := ofBundle_denotes hsmall
  rw [htables] at hdenotes
  exact Tables.denotes_unique hdenotes (ofBundle_denotes hsmall')

/-- A container written from an assembled bundle is read back with the same dialect. It resolves
exactly when all records may be loaded, and then to the bundle itself; no other bundle has that
container. -/
theorem decode_resolve_of_encode (dialect : Dialect) (records : List ClassRecord) (bytes : Bytes)
    (h : (Bundle.assembled dialect records).encode = .ok bytes) :
    (∃ tables, Tables.decode bytes = .ok tables ∧
      tables.dialect = (Bundle.assembled dialect records).dialect ∧
      ((∃ resolved, tables.resolve = .ok resolved) ↔
        ∀ record ∈ (Bundle.assembled dialect records).classes, Loadable record) ∧
      ∀ resolved, tables.resolve = .ok resolved → resolved = Bundle.assembled dialect records) ∧
    ∀ other : Bundle, other.encode = .ok bytes → other = Bundle.assembled dialect records := by
  obtain ⟨hdistinct, -⟩ := Bundle.assembled_invariant dialect records
  obtain ⟨hdecode, hsmall⟩ := decode_of_encode h
  have hresolve := resolve_ofBundle_eq_ok_iff hsmall hdistinct
  refine ⟨⟨_, hdecode, (ofBundle_denotes hsmall).dialect.symm, ⟨?_, ?_⟩, ?_⟩, ?_⟩
  · rintro ⟨resolved, hresolved⟩
    exact ((hresolve resolved).mp hresolved).2
  · intro hloadable
    exact ⟨_, (hresolve _).mpr ⟨rfl, hloadable⟩⟩
  · intro resolved hresolved
    exact ((hresolve resolved).mp hresolved).1
  · intro other hother
    exact bundle_eq_of_encode hother h

/-- A class with a part of every kind, a second one under the same name, and another class. -/
def threeAdditions : List ClassRecord :=
  [{ descriptor := "La/B;", accessFlags := 1, superclass := some "La/A;", interfaces := ["La/I;"],
     sourceFile := some "B.java", fields := [⟨"f", "[I", 2⟩],
     methods := [⟨"m", "(I)V", 1, some ⟨2, 2, 0, 0, [14, 0]⟩⟩, ⟨"n", "()V", 0x400, none⟩] },
   { descriptor := "La/B;" }, { descriptor := "LC;", fields := [⟨"f", "La/B;", 0⟩] }]

theorem decode_resolve_threeAdditions :
    ∃ bytes tables, (Bundle.assembled .v038 threeAdditions).encode = .ok bytes ∧
      Tables.decode bytes = .ok tables ∧
      tables.resolve = .ok (Bundle.assembled .v038 threeAdditions) := by
  have hsize : headerLength +
      (Tables.ofBundle (Bundle.assembled .v038 threeAdditions)).layout.length < 2 ^ 32 := by
    decide +kernel
  have hencode := (encode_eq_ok_iff (Tables.ofBundle (Bundle.assembled .v038 threeAdditions)) _).mpr
    ⟨hsize, rfl⟩
  obtain ⟨⟨tables, hdecode, -, hiff, hback⟩, -⟩ :=
    decode_resolve_of_encode .v038 threeAdditions _ hencode
  have hloadable : ∀ record ∈ (Bundle.assembled .v038 threeAdditions).classes,
      Loadable record := by
    decide
  obtain ⟨resolved, hresolved⟩ := hiff.mpr hloadable
  obtain rfl := hback resolved hresolved
  exact ⟨_, tables, hencode, hdecode, hresolved⟩

end LiveDex.Container
