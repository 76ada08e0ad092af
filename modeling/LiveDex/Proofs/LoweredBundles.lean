import LiveDex.Proofs.Lowered

/-!
Bundles of lowered classes. What lowering lets pass and what loading demands are the same but for
one thing: lowering does not look at the names of classes. So a container of lowered classes
resolves to those classes if all their names make type descriptors, and is otherwise refused for
such a name and for nothing else.
-/
namespace LiveDex

open Container

/-- A record with the class file that it was lowered from. -/
structure LoweredClass where
  options : Lowering.Options
  source : ClassSource
  file : ClassFile
  record : ClassRecord
  parse_eq : ClassFile.parse source.bytes = .ok file
  lower_eq : lower options source = .ok record

namespace LoweredClass

/-- Names of the class, its superclass and its interfaces, as the class file has them. -/
def names (lowered : LoweredClass) : List String :=
  lowered.file.thisClass :: (lowered.file.superClass.toList ++ lowered.file.interfaces)

theorem classTypes_eq (lowered : LoweredClass) :
    lowered.record.classTypes = lowered.names.map ClassName.descriptorOf := by
  obtain ⟨file, hparse, -, hclass⟩ := Lowering.lower_eq_ok_iff.mp lowered.lower_eq
  have hfile : file = lowered.file := Except.ok.inj (hparse.symm.trans lowered.parse_eq)
  subst hfile
  obtain ⟨fields, methods, -, -, hrecord⟩ := Lowering.lowerClass_eq_ok_iff.mp hclass
  have hsuper : (lowered.file.superClass.map ClassName.descriptorOf).toList =
      lowered.file.superClass.toList.map ClassName.descriptorOf := by
    cases lowered.file.superClass <;> simp
  simp only [hrecord, ClassRecord.classTypes, names, hsuper, List.map_cons, List.map_append]

theorem isLowered (lowered : LoweredClass) : Lowered lowered.record :=
  lowered_of_lower lowered.lower_eq

/-- The bundle to which the records were added one after the other. -/
def bundle (dialect : Dialect) (classes : List LoweredClass) : Bundle :=
  Bundle.assembled dialect (classes.map LoweredClass.record)

/-- Class names that matter for a bundle: those of the classes that got into it. -/
def namesIn (dialect : Dialect) (classes : List LoweredClass) : List String :=
  (classes.filter fun lowered => lowered.record ∈ (bundle dialect classes).classes).flatMap names

variable {dialect : Dialect} {classes : List LoweredClass}

theorem exists_of_mem_bundle {record : ClassRecord}
    (h : record ∈ (bundle dialect classes).classes) :
    ∃ lowered ∈ classes, lowered.record = record :=
  List.mem_map.mp (Bundle.mem_of_mem_assembled h)

theorem mem_namesIn_iff {name : String} :
    name ∈ namesIn dialect classes ↔ ∃ lowered ∈ classes,
      lowered.record ∈ (bundle dialect classes).classes ∧ name ∈ lowered.names := by
  simp only [namesIn, List.mem_flatMap, List.mem_filter, decide_eq_true_eq, and_assoc]

/-- A malformed type of the bundle can only be a class type, and so stems from a class name. -/
theorem exists_name_of_malformed {descriptor : String}
    (h : descriptor ∈ (bundle dialect classes).classes.flatMap ClassRecord.types)
    (hbad : ¬ Descriptor.isTypeDescriptor descriptor) :
    ∃ name ∈ namesIn dialect classes, descriptor = ClassName.descriptorOf name := by
  obtain ⟨record, hrecord, htype⟩ := List.mem_flatMap.mp h
  obtain ⟨lowered, hlowered, rfl⟩ := exists_of_mem_bundle hrecord
  rcases List.mem_append.mp htype with hclass | hfield
  · rw [lowered.classTypes_eq] at hclass
    obtain ⟨name, hname, heq⟩ := List.mem_map.mp hclass
    exact ⟨name, mem_namesIn_iff.mpr ⟨lowered, hlowered, hrecord, hname⟩, heq.symm⟩
  · obtain ⟨field, hmember, rfl⟩ := List.mem_map.mp hfield
    exact absurd (lowered.isLowered.fieldTypes field hmember) hbad

theorem loadable_of_names
    (h : ∀ name ∈ namesIn dialect classes,
      Descriptor.isTypeDescriptor (ClassName.descriptorOf name)) :
    ∀ record ∈ (bundle dialect classes).classes, Loadable record := by
  intro record hrecord
  obtain ⟨lowered, hlowered, rfl⟩ := exists_of_mem_bundle hrecord
  apply lowered.isLowered.loadable_iff.mpr
  intro descriptor hdescriptor
  rw [lowered.classTypes_eq] at hdescriptor
  obtain ⟨name, hname, rfl⟩ := List.mem_map.mp hdescriptor
  exact h name (mem_namesIn_iff.mpr ⟨lowered, hlowered, hrecord, hname⟩)

theorem descriptorOf_mem_types {name : String} (h : name ∈ namesIn dialect classes) :
    ClassName.descriptorOf name ∈ (bundle dialect classes).classes.flatMap ClassRecord.types := by
  obtain ⟨lowered, -, hrecord, hname⟩ := mem_namesIn_iff.mp h
  have hclass : ClassName.descriptorOf name ∈ lowered.record.classTypes := by
    rw [lowered.classTypes_eq]
    exact List.mem_map_of_mem hname
  exact List.mem_flatMap.mpr ⟨lowered.record, hrecord, List.mem_append_left _ hclass⟩

section Resolve

variable (hsmall : (Interner.ofBundle (bundle dialect classes)).Small)

include hsmall

theorem resolve_of_names
    (h : ∀ name ∈ namesIn dialect classes,
      Descriptor.isTypeDescriptor (ClassName.descriptorOf name)) :
    (Tables.ofBundle (bundle dialect classes)).resolve = .ok (bundle dialect classes) := by
  obtain ⟨hdistinct, -⟩ := Bundle.assembled_invariant dialect (classes.map LoweredClass.record)
  exact (resolve_ofBundle_eq_ok_iff hsmall hdistinct _).mpr ⟨rfl, loadable_of_names h⟩

theorem resolve_of_malformed_name
    (h : ∃ name ∈ namesIn dialect classes,
      ¬ Descriptor.isTypeDescriptor (ClassName.descriptorOf name)) :
    ∃ name ∈ namesIn dialect classes,
      ¬ Descriptor.isTypeDescriptor (ClassName.descriptorOf name) ∧
      (Tables.ofBundle (bundle dialect classes)).resolve =
        .error (.malformedType (ClassName.descriptorOf name)) := by
  obtain ⟨name, hname, hnot⟩ := h
  obtain ⟨descriptor, hmem, hmalformed, hresolve⟩ :=
    resolve_ofBundle_malformed hsmall ⟨_, descriptorOf_mem_types hname, hnot⟩
  obtain ⟨found, hfound, rfl⟩ := exists_name_of_malformed hmem hmalformed
  exact ⟨found, hfound, hmalformed, hresolve⟩

end Resolve

/-- A container of lowered classes is refused for a class name only: it gives back its classes if
every class name makes a type descriptor, and reports one that does not otherwise. -/
theorem resolve_bundle_decided_by_names (dialect : Dialect) (classes : List LoweredClass)
    (bytes : Bytes) (h : (bundle dialect classes).encode = .ok bytes) :
    ∃ tables, Tables.decode bytes = .ok tables ∧
      ((∀ name ∈ namesIn dialect classes,
          Descriptor.isTypeDescriptor (ClassName.descriptorOf name)) →
        tables.resolve = .ok (bundle dialect classes)) ∧
      ((∃ name ∈ namesIn dialect classes,
          ¬ Descriptor.isTypeDescriptor (ClassName.descriptorOf name)) →
        ∃ name ∈ namesIn dialect classes,
          ¬ Descriptor.isTypeDescriptor (ClassName.descriptorOf name) ∧
          tables.resolve = .error (.malformedType (ClassName.descriptorOf name))) ∧
      ∀ e, tables.resolve = .error e →
        ∃ name ∈ namesIn dialect classes, e = .malformedType (ClassName.descriptorOf name) := by
  obtain ⟨hdecode, hsmall⟩ := decode_of_encode h
  refine ⟨_, hdecode, resolve_of_names hsmall, resolve_of_malformed_name hsmall, ?_⟩
  intro e he
  by_cases hnames : ∀ name ∈ namesIn dialect classes,
      Descriptor.isTypeDescriptor (ClassName.descriptorOf name)
  · rw [resolve_of_names hsmall hnames] at he
    cases he
  · push Not at hnames
    obtain ⟨name, hname, -, hresolve⟩ := resolve_of_malformed_name hsmall hnames
    rw [hresolve] at he
    exact ⟨name, hname, (Except.error.inj he).symm⟩

/-- A class file for `C` whose superclass has a slash in front of its name. -/
def oddFile : Bytes :=
  [202, 254, 186, 190, 0, 0, 0, 52, 0, 5, 1, 0, 1, 67, 7, 0, 1, 1, 0, 2, 47, 120, 7, 0, 3, 0, 33, 0,
    2, 0, 4, 0, 0, 0, 0, 0, 0, 0, 0]

/-- A class file for `D` without any parts. -/
def plainFile : Bytes :=
  [202, 254, 186, 190, 0, 0, 0, 52, 0, 3, 1, 0, 1, 68, 7, 0, 1, 0, 33, 0, 2, 0, 0, 0, 0, 0, 0, 0, 0,
    0, 0]

def oddClass : LoweredClass where
  options := { apiLevel := 28 }
  source := ⟨"C", oddFile⟩
  file :=
    { minorVersion := 0, majorVersion := 52, accessFlags := 33, thisClass := "C"
      pool := ⟨#[none, some (.utf8 "C"), some (.classRef 1), some (.utf8 "/x"),
        some (.classRef 3)]⟩
      superClass := some "/x", interfaces := [], fields := [], methods := [], sourceFile := none
      attributes := [] }
  record := { descriptor := "LC;", accessFlags := 1, superclass := some "L/x;" }
  parse_eq := by decide +kernel
  lower_eq := by decide +kernel

def plainClass : LoweredClass where
  options := .pinned
  source := ⟨"other", plainFile⟩
  file :=
    { minorVersion := 0, majorVersion := 52, accessFlags := 33, thisClass := "D"
      pool := ⟨#[none, some (.utf8 "D"), some (.classRef 1)]⟩
      superClass := none, interfaces := [], fields := [], methods := [], sourceFile := none
      attributes := [] }
  record := { descriptor := "LD;", accessFlags := 1 }
  parse_eq := by decide +kernel
  lower_eq := by decide +kernel

theorem resolve_bundle_plain_odd :
    ∃ bytes tables, (bundle .v038 [plainClass, oddClass]).encode = .ok bytes ∧
      Tables.decode bytes = .ok tables ∧
      tables.resolve = .error (.malformedType "L/x;") := by
  have hsize : headerLength +
      (Tables.ofBundle (bundle .v038 [plainClass, oddClass])).layout.length < 2 ^ 32 := by
    decide +kernel
  have hencode := (encode_eq_ok_iff (Tables.ofBundle (bundle .v038 [plainClass, oddClass])) _).mpr
    ⟨hsize, rfl⟩
  have hnames : namesIn .v038 [plainClass, oddClass] = ["D", "C", "/x"] := by decide +kernel
  obtain ⟨tables, hdecode, -, hbad, -⟩ :=
    resolve_bundle_decided_by_names .v038 [plainClass, oddClass] _ hencode
  rw [hnames] at hbad
  obtain ⟨name, hname, hnot, hresolve⟩ := hbad ⟨"/x", by decide, by decide⟩
  have hodd : name = "/x" := by
    simp only [List.mem_cons, List.not_mem_nil, or_false] at hname
    rcases hname with rfl | rfl | rfl
    · exact absurd (by decide) hnot
    · exact absurd (by decide) hnot
    · rfl
  rw [hodd] at hresolve
  exact ⟨_, tables, hencode, hdecode, hresolve⟩

end LoweredClass

end LiveDex
