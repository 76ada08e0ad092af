import LiveDex.Proofs.Resolution
import Mathlib.Data.List.Duplicate

/-!
What can be wrong with tables. The indices of tables are sorted by the places where they stand, so
that well-formed tables and the single defects are told in the same words, without following the
order in which resolving looks at them. Resolving then accepts exactly the well-formed tables, and
what it reports of the others is always a defect that is there.
-/
namespace LiveDex.Container

section Blame

variable {ε α β : Type} {p : ε → Prop}

/-- Whatever error the computation ends with is one of those. -/
def Blames (x : Except ε α) (p : ε → Prop) : Prop :=
  ∀ e, x = .error e → p e

theorem blames_ok (a : α) : Blames (.ok a) p := by
  rintro e ⟨⟩

theorem blames_error {e : ε} (h : p e) : Blames (.error e : Except ε α) p := by
  rintro e ⟨⟩
  exact h

theorem Blames.bind {x : Except ε α} {f : α → Except ε β} (hx : Blames x p)
    (hf : ∀ a, x = .ok a → Blames (f a) p) : Blames (x >>= f) p := by
  cases x with
  | error e => exact blames_error (hx e rfl)
  | ok a => exact hf a rfl

theorem Blames.check {q : Prop} [Decidable q] {e : ε} {k : Unit → Except ε β} (he : q → p e)
    (hk : ¬ q → Blames (k ()) p) : Blames (if q then Except.error e >>= k else k ()) p := by
  split
  case isTrue hq => exact blames_error (he hq)
  case isFalse hq => exact hk hq

theorem Blames.forM {f : α → Except ε Unit} {items : List α} (h : ∀ a ∈ items, Blames (f a) p) :
    Blames (items.forM f) p := by
  rcases forM_eq_ok_or_error f items with hok | ⟨a, ha, e, he, herror⟩
  · rw [hok]
    exact blames_ok ()
  · rw [herror]
    exact blames_error (h a ha e he)

theorem Blames.mapM {f : α → Except ε β} {items : List α} (h : ∀ a ∈ items, Blames (f a) p) :
    Blames (items.mapM f) p := by
  induction items with
  | nil => exact blames_ok []
  | cons a items ih =>
    obtain ⟨ha, hrest⟩ := List.forall_mem_cons.mp h
    rw [List.mapM_cons]
    exact ha.bind fun b _ => (ih hrest).bind fun bs _ => blames_ok (b :: bs)

end Blame

namespace Tables

/-- The indices of strings that stand at a place, less the word for no index where it may stand. -/
def textIndices (tables : Tables) : Place → List UInt32
  | .typeTable => tables.types.toList
  | .sourceFile => (tables.classes.map ClassEntry.sourceFile).filter (· ≠ noIndex)
  | .fieldName => tables.classes.flatMap fun entry => entry.fields.map FieldEntry.name
  | .methodName => tables.classes.flatMap fun entry => entry.methods.map MethodEntry.name
  | .methodProto => tables.classes.flatMap fun entry => entry.methods.map MethodEntry.proto
  | .classType | .superclass | .interface | .fieldType => []

/-- The indices of types that must name classes. -/
def classIndices (tables : Tables) : Place → List UInt32
  | .classType => tables.classes.map ClassEntry.type
  | .superclass => (tables.classes.map ClassEntry.superclass).filter (· ≠ noIndex)
  | .interface => tables.classes.flatMap ClassEntry.interfaces
  | .typeTable | .sourceFile | .fieldName | .fieldType | .methodName | .methodProto => []

/-- All indices of types that stand at a place. -/
def typeIndices (tables : Tables) : Place → List UInt32
  | .fieldType => tables.classes.flatMap fun entry => entry.fields.map FieldEntry.type
  | place => tables.classIndices place

/-- The descriptors of the classes, as far as they have one. -/
def classDescriptors (tables : Tables) : List String :=
  tables.classes.filterMap fun entry => tables.descriptor? entry.type

/-- Tables in which every index leads to something that may stand at its place. -/
structure WellFormed (tables : Tables) : Prop where
  types : tables.SoundTypes
  classTypes : ∀ place, ∀ index ∈ tables.classIndices place,
    ∃ descriptor, tables.DenotesType index descriptor ∧ NamesClass descriptor
  distinct : tables.classDescriptors.Nodup
  texts : ∀ place, ∀ index ∈ tables.textIndices place, index.toNat < tables.strings.size
  fieldTypes : ∀ index ∈ tables.typeIndices .fieldType, index.toNat < tables.types.size
  registers : ∀ entry ∈ tables.classes, ∀ method ∈ entry.methods, HoldsArguments method.code

/-- The tables have the defect that an error reports. -/
def Exhibits (tables : Tables) : ValidationError → Prop
  | .invalidString place index =>
    index ∈ tables.textIndices place ∧ tables.strings.size ≤ index.toNat
  | .invalidType place index =>
    index ∈ tables.typeIndices place ∧ tables.types.size ≤ index.toNat
  | .malformedType descriptor =>
    (∃ index ∈ tables.types.toList, tables.DenotesText index descriptor) ∧
      ¬ Descriptor.isTypeDescriptor descriptor
  | .nonClassType place descriptor =>
    (∃ index ∈ tables.classIndices place, tables.DenotesType index descriptor) ∧
      ¬ NamesClass descriptor
  | .duplicateClass descriptor => List.Duplicate descriptor tables.classDescriptors
  | .registerCount method ins registers =>
    ∃ entry ∈ tables.classes, ∃ member ∈ entry.methods, ∃ descriptor name code,
      tables.DenotesType entry.type descriptor ∧ tables.DenotesText member.name name ∧
      method = descriptor ++ "->" ++ name ∧ member.code = some code ∧
      ins = code.ins ∧ registers = code.registers ∧ registers < ins

variable {tables : Tables}

theorem exists_denotesText_iff {index : UInt32} :
    (∃ text, tables.DenotesText index text) ↔ index.toNat < tables.strings.size := by
  unfold DenotesText text?
  rw [← Option.isSome_iff_exists, isSome_getElem?]

theorem mem_present_iff {classes : List ClassEntry} {word : ClassEntry → UInt32} {index : UInt32} :
    index ∈ (classes.map word).filter (· ≠ noIndex) ↔
      ∃ entry ∈ classes, word entry = index ∧ index ≠ noIndex := by
  simp only [List.mem_filter, List.mem_map, decide_eq_true_eq, ← exists_and_right, and_assoc]

theorem typeIndices_of_ne {place : Place} (h : place ≠ .fieldType) :
    tables.typeIndices place = tables.classIndices place := by
  cases place with
  | fieldType => exact absurd rfl h
  | _ => rfl

theorem mem_typeIndices {place : Place} {index : UInt32} (h : index ∈ tables.classIndices place) :
    index ∈ tables.typeIndices place := by
  by_cases hplace : place = .fieldType
  · simp [hplace, classIndices] at h
  · rwa [typeIndices_of_ne hplace]

theorem mem_types_of_getElem? {position : ℕ} {index : UInt32}
    (h : tables.types[position]? = some index) : index ∈ tables.types.toList :=
  Array.mem_toList_iff.mpr (Array.mem_of_getElem? h)

section Lookups

variable {place : Place} {index : UInt32}

theorem blames_string (h : index ∈ tables.textIndices place) :
    Blames (tables.string place index) tables.Exhibits := by
  unfold Tables.string
  split
  · exact blames_ok _
  · rename_i hnone
    exact blames_error ⟨h, Array.getElem?_eq_none_iff.mp hnone⟩

theorem blames_checkType (h : index ∈ tables.types.toList) :
    Blames (tables.checkType index) tables.Exhibits := by
  have hstring : Blames (tables.string .typeTable index) tables.Exhibits := blames_string h
  refine hstring.bind fun descriptor hdescriptor => ?_
  split
  · exact blames_ok ()
  · rename_i hmalformed
    exact blames_error
      ⟨⟨index, h, (tables.string_eq_ok_iff _ _ _).mp hdescriptor⟩, hmalformed⟩

/-- Once the type table is sound, only the index of a type can be out of range. -/
theorem blames_typeDescriptor (hsound : tables.SoundTypes) (h : index ∈ tables.typeIndices place) :
    Blames (tables.typeDescriptor place index) tables.Exhibits := by
  unfold typeDescriptor
  split
  · rename_i stringIndex hfound
    obtain ⟨descriptor, htext, -⟩ := hsound stringIndex (mem_types_of_getElem? hfound)
    rw [(tables.string_eq_ok_iff place stringIndex descriptor).mpr htext]
    exact blames_ok descriptor
  · rename_i hnone
    exact blames_error ⟨h, Array.getElem?_eq_none_iff.mp hnone⟩

theorem blames_classType (hsound : tables.SoundTypes) (h : index ∈ tables.classIndices place) :
    Blames (tables.classType place index) tables.Exhibits := by
  refine (blames_typeDescriptor hsound (mem_typeIndices h)).bind fun descriptor hdescriptor => ?_
  split
  · exact blames_ok descriptor
  · rename_i hother
    exact blames_error
      ⟨⟨index, h, (tables.typeDescriptor_eq_ok_iff _ _ _).mp hdescriptor⟩, hother⟩

theorem blames_optional {lookup : UInt32 → Except ValidationError String}
    {p : ValidationError → Prop} (h : index ≠ noIndex → Blames (lookup index) p) :
    Blames (optional lookup index) p := by
  unfold optional
  split
  · exact blames_ok none
  · rename_i hindex
    rw [map_eq_pure_bind]
    exact (h hindex).bind fun text _ => blames_ok (some text)

end Lookups

section Entries

variable {entry : ClassEntry} (hentry : entry ∈ tables.classes)

include hentry

theorem blames_field (hsound : tables.SoundTypes) {field : FieldEntry}
    (hfield : field ∈ entry.fields) : Blames (tables.field field) tables.Exhibits := by
  have hname : field.name ∈ tables.textIndices .fieldName :=
    List.mem_flatMap.mpr ⟨entry, hentry, List.mem_map_of_mem hfield⟩
  have htype : field.type ∈ tables.typeIndices .fieldType :=
    List.mem_flatMap.mpr ⟨entry, hentry, List.mem_map_of_mem hfield⟩
  exact (blames_string hname).bind fun _ _ =>
    (blames_typeDescriptor hsound htype).bind fun _ _ => blames_ok _

theorem blames_checkRegisters {method : MethodEntry} {descriptor name : String}
    (hmethod : method ∈ entry.methods) (htype : tables.DenotesType entry.type descriptor)
    (hname : tables.DenotesText method.name name) :
    Blames (checkRegisters descriptor name method.code) tables.Exhibits := by
  cases hcode : method.code with
  | none => exact blames_ok ()
  | some code =>
    simp only [checkRegisters]
    split
    · exact blames_ok ()
    · rename_i hfew
      exact blames_error ⟨entry, hentry, method, hmethod, descriptor, name, code, htype, hname, rfl,
        hcode, rfl, rfl, UInt16.not_le.mp hfew⟩

theorem blames_method {method : MethodEntry} {descriptor : String}
    (hmethod : method ∈ entry.methods) (htype : tables.DenotesType entry.type descriptor) :
    Blames (tables.method descriptor method) tables.Exhibits := by
  have hname : method.name ∈ tables.textIndices .methodName :=
    List.mem_flatMap.mpr ⟨entry, hentry, List.mem_map_of_mem hmethod⟩
  have hproto : method.proto ∈ tables.textIndices .methodProto :=
    List.mem_flatMap.mpr ⟨entry, hentry, List.mem_map_of_mem hmethod⟩
  refine (blames_string hname).bind fun name hfound => ?_
  have htext := (tables.string_eq_ok_iff _ _ _).mp hfound
  exact (blames_checkRegisters hentry hmethod htype htext).bind fun _ _ =>
    (blames_string hproto).bind fun _ _ => blames_ok _

end Entries

/-- Entries that denote records lead to the descriptors of the records. -/
theorem descriptors_of_denotes {entries : List ClassEntry} {records : List ClassRecord}
    (h : List.Forall₂ (ClassEntry.Denotes tables) entries records) :
    (entries.filterMap fun entry => tables.descriptor? entry.type) =
      records.map ClassRecord.descriptor := by
  induction h with
  | nil => rfl
  | @cons entry record _ _ hdenotes _ ih =>
    have hfirst : tables.descriptor? entry.type = some record.descriptor := hdenotes.type
    simp only [List.filterMap_cons, hfirst, ih, List.map_cons]

/-- A class that was resolved before and is met again stands twice among the classes. -/
theorem duplicate_of_defines {front back : List ClassEntry} {entry : ClassEntry} {bundle : Bundle}
    {descriptor : String} (hclasses : tables.classes = front ++ entry :: back)
    (hbundle : List.Forall₂ (ClassEntry.Denotes tables) front bundle.classes)
    (htype : tables.DenotesType entry.type descriptor) (hdefines : bundle.defines descriptor) :
    List.Duplicate descriptor tables.classDescriptors := by
  have hfirst : tables.descriptor? entry.type = some descriptor := htype
  rw [Bundle.defines_iff] at hdefines
  rw [classDescriptors, hclasses, List.filterMap_append, descriptors_of_denotes hbundle,
    List.duplicate_iff_sublist]
  simp only [List.filterMap_cons, hfirst]
  exact (List.singleton_sublist.mpr hdefines).append
    (List.singleton_sublist.mpr List.mem_cons_self)

/-- What adding a class reports is there, if the classes before were resolved. -/
theorem blames_addClass (hsound : tables.SoundTypes) {front back : List ClassEntry}
    {entry : ClassEntry} {bundle : Bundle} (hclasses : tables.classes = front ++ entry :: back)
    (hbundle : List.Forall₂ (ClassEntry.Denotes tables) front bundle.classes) :
    Blames (tables.addClass bundle entry) tables.Exhibits := by
  have hentry : entry ∈ tables.classes := by simp [hclasses]
  have hinterfaces (index : UInt32) (h : index ∈ entry.interfaces) :
      index ∈ tables.classIndices .interface :=
    List.mem_flatMap.mpr ⟨entry, hentry, h⟩
  refine (blames_classType hsound (List.mem_map_of_mem hentry)).bind fun descriptor hfound => ?_
  obtain ⟨htype, -⟩ := (tables.classType_eq_ok_iff _ _ _).mp hfound
  refine Blames.check (fun h => duplicate_of_defines hclasses hbundle htype h) fun hnew => ?_
  refine (blames_optional fun hindex => blames_classType hsound ?_).bind fun superclass _ => ?_
  · exact mem_present_iff.mpr ⟨entry, hentry, rfl, hindex⟩
  refine (Blames.mapM fun index h => blames_classType hsound (hinterfaces index h)).bind
    fun interfaces _ => ?_
  refine (blames_optional fun hindex => blames_string ?_).bind fun sourceFile _ => ?_
  · exact mem_present_iff.mpr ⟨entry, hentry, rfl, hindex⟩
  refine (Blames.mapM fun field h => blames_field hentry hsound h).bind fun fields _ => ?_
  refine (Blames.mapM fun method h => blames_method hentry h htype).bind fun methods _ => ?_
  -- The class was new when it was met, so it can still be added at the end.
  dsimp only
  rw [(Bundle.add_eq_ok_iff _ _ _).mpr ⟨hnew, rfl⟩]
  exact blames_ok _

/-- The classes that remain are blamed rightly, whatever was resolved before. -/
theorem blames_foldlM_addClass (hsound : tables.SoundTypes) (front entries : List ClassEntry)
    (bundle : Bundle) (hclasses : tables.classes = front ++ entries)
    (hbundle : List.Forall₂ (ClassEntry.Denotes tables) front bundle.classes) :
    Blames (entries.foldlM tables.addClass bundle) tables.Exhibits := by
  induction entries generalizing front bundle with
  | nil => exact blames_ok bundle
  | cons entry entries ih =>
    rw [List.foldlM_cons]
    refine (blames_addClass hsound hclasses hbundle).bind fun next hnext => ?_
    obtain ⟨record, hdenotes, -, -, rfl⟩ := (tables.addClass_eq_ok_iff _ _ _).mp hnext
    refine ih (front ++ [entry]) _ (by simp [hclasses]) ?_
    exact List.rel_append hbundle (.cons hdenotes .nil)

theorem blames_resolve (tables : Tables) : Blames tables.resolve tables.Exhibits := by
  refine (Blames.forM fun index h => blames_checkType h).bind fun _ hchecked => ?_
  have hsound : tables.SoundTypes := by
    intro index h
    exact (tables.checkType_eq_ok_iff index).mp ((forM_eq_ok_iff _ _).mp hchecked index h)
  exact blames_foldlM_addClass hsound [] tables.classes _ rfl .nil

section Accepted

theorem exists_of_optionally {denotes : UInt32 → String → Prop} {index : UInt32}
    {o : Option String} (h : Optionally denotes index o) (hindex : index ≠ noIndex) :
    ∃ text ∈ o, denotes index text := by
  cases o with
  | none => exact absurd h hindex
  | some text => exact ⟨text, rfl, h.2⟩

theorem lt_of_denotesType {index : UInt32} {descriptor : String}
    (h : tables.DenotesType index descriptor) : index.toNat < tables.types.size := by
  obtain ⟨found, hfound, -⟩ := Option.bind_eq_some_iff.mp h
  exact (Array.getElem?_eq_some_iff.mp hfound).1

variable {bundle : Bundle} {entry : ClassEntry} (hdenotes : tables.Denotes bundle)

include hdenotes

theorem exists_field_of_denotes (hentry : entry ∈ tables.classes) {field : FieldEntry}
    (hfield : field ∈ entry.fields) : ∃ denoted, field.Denotes tables denoted := by
  obtain ⟨record, -, hrel⟩ := exists_mem_of_forall₂ hdenotes.classes hentry
  obtain ⟨denoted, -, hdenoted⟩ := exists_mem_of_forall₂ hrel.fields hfield
  exact ⟨denoted, hdenoted⟩

theorem exists_method_of_denotes (hentry : entry ∈ tables.classes) {method : MethodEntry}
    (hmethod : method ∈ entry.methods) :
    ∃ record ∈ bundle.classes, ∃ denoted ∈ record.methods, method.Denotes tables denoted := by
  obtain ⟨record, hrecord, hrel⟩ := exists_mem_of_forall₂ hdenotes.classes hentry
  obtain ⟨denoted, hmem, hdenoted⟩ := exists_mem_of_forall₂ hrel.methods hmethod
  exact ⟨record, hrecord, denoted, hmem, hdenoted⟩

theorem namesClass_of_denotes (hadmissible : ∀ record ∈ bundle.classes, Admissible record)
    (place : Place) (index : UInt32) (h : index ∈ tables.classIndices place) :
    ∃ descriptor, tables.DenotesType index descriptor ∧ NamesClass descriptor := by
  cases place with
  | classType =>
    obtain ⟨entry, hentry, rfl⟩ := List.mem_map.mp h
    obtain ⟨record, hrecord, hrel⟩ := exists_mem_of_forall₂ hdenotes.classes hentry
    exact ⟨_, hrel.type, ((admissible_iff record).mp (hadmissible record hrecord)).1⟩
  | superclass =>
    obtain ⟨entry, hentry, rfl, hindex⟩ := mem_present_iff.mp h
    obtain ⟨record, hrecord, hrel⟩ := exists_mem_of_forall₂ hdenotes.classes hentry
    obtain ⟨descriptor, hsuper, htype⟩ := exists_of_optionally hrel.superclass hindex
    exact ⟨descriptor, htype,
      ((admissible_iff record).mp (hadmissible record hrecord)).2.1 descriptor hsuper⟩
  | interface =>
    obtain ⟨entry, hentry, hindex⟩ := List.mem_flatMap.mp h
    obtain ⟨record, hrecord, hrel⟩ := exists_mem_of_forall₂ hdenotes.classes hentry
    obtain ⟨descriptor, hmem, htype⟩ := exists_mem_of_forall₂ hrel.interfaces hindex
    exact ⟨descriptor, htype,
      ((admissible_iff record).mp (hadmissible record hrecord)).2.2.1 descriptor hmem⟩
  | _ => simp [classIndices] at h

theorem exists_type_of_denotes (hadmissible : ∀ record ∈ bundle.classes, Admissible record)
    (place : Place) (index : UInt32) (h : index ∈ tables.typeIndices place) :
    ∃ descriptor, tables.DenotesType index descriptor := by
  by_cases hplace : place = .fieldType
  · subst hplace
    obtain ⟨entry, hentry, hmem⟩ := List.mem_flatMap.mp h
    obtain ⟨field, hfield, rfl⟩ := List.mem_map.mp hmem
    obtain ⟨denoted, hdenoted⟩ := exists_field_of_denotes hdenotes hentry hfield
    exact ⟨denoted.typeDescriptor, hdenoted.type⟩
  · rw [typeIndices_of_ne hplace] at h
    obtain ⟨descriptor, htype, -⟩ := namesClass_of_denotes hdenotes hadmissible place index h
    exact ⟨descriptor, htype⟩

theorem exists_text_of_denotes (hsound : tables.SoundTypes) (place : Place) (index : UInt32)
    (h : index ∈ tables.textIndices place) : ∃ text, tables.DenotesText index text := by
  cases place with
  | typeTable =>
    obtain ⟨descriptor, htext, -⟩ := hsound index h
    exact ⟨descriptor, htext⟩
  | sourceFile =>
    obtain ⟨entry, hentry, rfl, hindex⟩ := mem_present_iff.mp h
    obtain ⟨record, -, hrel⟩ := exists_mem_of_forall₂ hdenotes.classes hentry
    obtain ⟨text, -, htext⟩ := exists_of_optionally hrel.sourceFile hindex
    exact ⟨text, htext⟩
  | fieldName =>
    obtain ⟨entry, hentry, hmem⟩ := List.mem_flatMap.mp h
    obtain ⟨field, hfield, rfl⟩ := List.mem_map.mp hmem
    obtain ⟨denoted, hdenoted⟩ := exists_field_of_denotes hdenotes hentry hfield
    exact ⟨denoted.name, hdenoted.name⟩
  | methodName =>
    obtain ⟨entry, hentry, hmem⟩ := List.mem_flatMap.mp h
    obtain ⟨method, hmethod, rfl⟩ := List.mem_map.mp hmem
    obtain ⟨-, -, denoted, -, hdenoted⟩ := exists_method_of_denotes hdenotes hentry hmethod
    exact ⟨denoted.name, hdenoted.name⟩
  | methodProto =>
    obtain ⟨entry, hentry, hmem⟩ := List.mem_flatMap.mp h
    obtain ⟨method, hmethod, rfl⟩ := List.mem_map.mp hmem
    obtain ⟨-, -, denoted, -, hdenoted⟩ := exists_method_of_denotes hdenotes hentry hmethod
    exact ⟨denoted.proto, hdenoted.proto⟩
  | _ => simp [textIndices] at h

end Accepted

theorem wellFormed_of_resolve {bundle : Bundle} (h : tables.resolve = .ok bundle) :
    tables.WellFormed := by
  obtain ⟨hsound, hdenotes, hadmissible, hdistinct⟩ := (tables.resolve_eq_ok_iff bundle).mp h
  refine ⟨hsound, namesClass_of_denotes hdenotes hadmissible, ?_, ?_, ?_, ?_⟩
  · rw [classDescriptors, descriptors_of_denotes hdenotes.classes]
    exact hdistinct
  · intro place index hindex
    exact exists_denotesText_iff.mp (exists_text_of_denotes hdenotes hsound place index hindex)
  · intro index hindex
    obtain ⟨descriptor, htype⟩ :=
      exists_type_of_denotes hdenotes hadmissible .fieldType index hindex
    exact lt_of_denotesType htype
  · intro entry hentry method hmethod
    obtain ⟨record, hrecord, denoted, hmem, hdenoted⟩ :=
      exists_method_of_denotes hdenotes hentry hmethod
    rw [← hdenoted.code]
    exact (hadmissible record hrecord).registers denoted hmem

/-- Well-formed tables have no defect. -/
theorem WellFormed.not_exhibits (h : tables.WellFormed) (e : ValidationError) :
    ¬ tables.Exhibits e := by
  cases e with
  | invalidString place index =>
    rintro ⟨hindex, hrange⟩
    exact absurd (h.texts place index hindex) (Nat.not_lt.mpr hrange)
  | invalidType place index =>
    rintro ⟨hindex, hrange⟩
    refine absurd ?_ (Nat.not_lt.mpr hrange)
    by_cases hplace : place = .fieldType
    · subst hplace
      exact h.fieldTypes index hindex
    · rw [typeIndices_of_ne hplace] at hindex
      obtain ⟨descriptor, htype, -⟩ := h.classTypes place index hindex
      exact lt_of_denotesType htype
  | malformedType descriptor =>
    rintro ⟨⟨index, hindex, htext⟩, hmalformed⟩
    obtain ⟨found, hfound, htype⟩ := h.types index hindex
    rw [denotesText_unique htext hfound] at hmalformed
    exact hmalformed htype
  | nonClassType place descriptor =>
    rintro ⟨⟨index, hindex, htype⟩, hother⟩
    obtain ⟨found, hfound, hclass⟩ := h.classTypes place index hindex
    rw [denotesType_unique htype hfound] at hother
    exact hother hclass
  | duplicateClass descriptor =>
    intro hduplicate
    exact hduplicate.not_nodup h.distinct
  | registerCount method ins registers =>
    rintro ⟨entry, hentry, member, hmember, descriptor, name, code, -, -, -, hcode, rfl, rfl, hfew⟩
    exact absurd (h.registers entry hentry member hmember code hcode) (UInt16.not_le.mpr hfew)

/-- Resolving succeeds exactly on the well-formed tables, and the error that it ends with on any
others reports a defect that they have. -/
theorem resolve_reports_present_defect (tables : Tables) :
    ((∃ bundle, tables.resolve = .ok bundle) ↔ tables.WellFormed) ∧
      ∀ e, tables.resolve = .error e → tables.Exhibits e := by
  refine ⟨⟨?_, ?_⟩, blames_resolve tables⟩
  · rintro ⟨bundle, hresolve⟩
    exact wellFormed_of_resolve hresolve
  · intro hwellFormed
    cases hresolve : tables.resolve with
    | ok bundle => exact ⟨bundle, rfl⟩
    | error e => exact absurd (blames_resolve tables e hresolve) (hwellFormed.not_exhibits e)

/-- Two classes with the same descriptor, met through other types and other strings. -/
def sharedDescriptor : Tables where
  dialect := .v035
  strings := #["LA;", "LA;", "m"]
  types := #[1, 0]
  classes := [⟨0, 0, noIndex, [], noIndex, [], []⟩, ⟨1, 0, 0, [], 2, [], [⟨2, 9, 0, none⟩]⟩]

theorem sharedDescriptor_exhibits_duplicate :
    sharedDescriptor.resolve = .error (.duplicateClass "LA;") ∧
      List.Duplicate "LA;" sharedDescriptor.classDescriptors ∧ ¬ sharedDescriptor.WellFormed := by
  have hresolve : sharedDescriptor.resolve = .error (.duplicateClass "LA;") := rfl
  obtain ⟨hiff, hreport⟩ := resolve_reports_present_defect sharedDescriptor
  refine ⟨hresolve, hreport _ hresolve, ?_⟩
  intro hwellFormed
  obtain ⟨bundle, hbundle⟩ := hiff.mpr hwellFormed
  cases hresolve.symm.trans hbundle

end Tables

end LiveDex.Container
