import LiveDex.Lowering
import LiveDex.Proofs.RoundTrip

/-!
Records of class files. Their class types are made of class names, the types of fields and the
registers of methods are sound, and so a class name alone may keep such a record from being
loaded.
-/
namespace LiveDex

open Container

namespace Lowering

theorem lowerClass_eq_ok_iff {dialect : Dialect} {file : ClassFile} {record : ClassRecord} :
    lowerClass dialect file = .ok record ↔
      ∃ fields methods,
        List.Forall₂ (fun member field =>
          lowerField (ClassName.descriptorOf file.thisClass) member = .ok field)
          file.fields fields ∧
        List.Forall₂ (fun member method =>
          lowerMethod (ClassName.descriptorOf file.thisClass)
            (AccessFlags.hasAny file.accessFlags.toUInt32 AccessFlags.interfaceBit) dialect
            member = .ok method) file.methods methods ∧
        record =
          { descriptor := ClassName.descriptorOf file.thisClass
            accessFlags := file.accessFlags.toUInt32 &&& ~~~AccessFlags.superBit
            superclass := file.superClass.map ClassName.descriptorOf
            interfaces := file.interfaces.map ClassName.descriptorOf
            sourceFile := file.sourceFile
            fields
            methods } := by
  unfold lowerClass
  simp only [except_bind_eq_ok_iff, mapM_eq_ok_iff, except_pure_eq_ok_iff]
  constructor
  · rintro ⟨fields, hfields, methods, hmethods, rfl⟩
    exact ⟨fields, methods, hfields, hmethods, rfl⟩
  · rintro ⟨fields, methods, hfields, hmethods, rfl⟩
    exact ⟨fields, hfields, methods, hmethods, rfl⟩

theorem lower_eq_ok_iff {options : Options} {source : ClassSource} {record : ClassRecord} :
    lower options source = .ok record ↔
      ∃ file, ClassFile.parse source.bytes = .ok file ∧ checkClass source options file = .ok () ∧
        lowerClass options.dialect file = .ok record := by
  unfold lower
  cases hparse : ClassFile.parse source.bytes with
  | error e => simp
  | ok file =>
    simp only [except_bind_eq_ok_iff, Except.ok.injEq, exists_eq_left']
    constructor
    · rintro ⟨⟨⟩, hcheck, hclass⟩
      exact ⟨hcheck, hclass⟩
    · rintro ⟨hcheck, hclass⟩
      exact ⟨(), hcheck, hclass⟩

theorem ins_lowerCode_le (parameters : UInt16) (isStatic : Bool) (code : ClassFile.Code) :
    (lowerCode parameters isStatic code).ins ≤ (lowerCode parameters isStatic code).registers := by
  simp only [lowerCode]
  generalize saturatingAdd parameters _ = ins
  split
  case isTrue => exact UInt16.le_refl ins
  case isFalse hframe => exact UInt16.le_of_lt (UInt16.not_le.mp hframe)

/-- The record of a method is told by its member alone, whatever the dialect. -/
theorem eq_of_lowerMethod {classDescriptor : String} {isInterface : Bool} {dialect : Dialect}
    {member : ClassFile.Member} {method : MethodRecord}
    (h : lowerMethod classDescriptor isInterface dialect member = .ok method) :
    ∃ registers, Descriptor.parameterRegisters? member.descriptor = some registers ∧
      method = ⟨member.name, member.descriptor, methodFlags member,
        member.code.map (lowerCode registers
          (AccessFlags.hasAny (methodFlags member) AccessFlags.staticBit))⟩ := by
  simp only [lowerMethod] at h
  cases hregisters : Descriptor.parameterRegisters? member.descriptor with
  | none => simp [hregisters] at h
  | some registers =>
    refine ⟨registers, rfl, ?_⟩
    simp only [hregisters] at h
    cases hcode : member.code with
    | none =>
      simp only [hcode] at h
      split at h
      · exact (Except.ok.inj h).symm
      · cases h
    | some code =>
      simp only [hcode] at h
      split at h
      · cases h
      · exact (Except.ok.inj h).symm

theorem holdsArguments_of_lowerMethod {classDescriptor : String} {isInterface : Bool}
    {dialect : Dialect} {member : ClassFile.Member} {method : MethodRecord}
    (h : lowerMethod classDescriptor isInterface dialect member = .ok method) :
    HoldsArguments method.code := by
  obtain ⟨registers, -, rfl⟩ := eq_of_lowerMethod h
  intro item hitem
  obtain ⟨code, -, rfl⟩ := Option.map_eq_some_iff.mp hitem
  exact ins_lowerCode_le _ _ _

theorem isTypeDescriptor_of_lowerField {classDescriptor : String} {member : ClassFile.Member}
    {field : FieldRecord} (h : lowerField classDescriptor member = .ok field) :
    Descriptor.isTypeDescriptor field.typeDescriptor := by
  unfold lowerField at h
  split at h
  case isTrue hvalue =>
    obtain rfl := Except.ok.inj h
    exact (Bool.and_eq_true_iff.mp hvalue).2
  case isFalse => cases h

end Lowering

/-- What holds of every record that lowering gives. -/
structure Lowered (record : ClassRecord) : Prop where
  classTypes : ∀ descriptor ∈ record.classTypes, ∃ name, descriptor = ClassName.descriptorOf name
  fieldTypes : ∀ field ∈ record.fields, Descriptor.isTypeDescriptor field.typeDescriptor
  registers : ∀ method ∈ record.methods, HoldsArguments method.code

theorem lowered_of_lower {options : Lowering.Options} {source : ClassSource}
    {record : ClassRecord} (h : lower options source = .ok record) : Lowered record := by
  obtain ⟨file, -, -, hclass⟩ := Lowering.lower_eq_ok_iff.mp h
  obtain ⟨fields, methods, hfields, hmethods, rfl⟩ := Lowering.lowerClass_eq_ok_iff.mp hclass
  refine ⟨?_, ?_, ?_⟩
  · intro descriptor hdescriptor
    simp only [ClassRecord.classTypes, List.mem_cons, List.mem_append, Option.mem_toList,
      Option.map_eq_some_iff, List.mem_map] at hdescriptor
    rcases hdescriptor with rfl | ⟨name, -, rfl⟩ | ⟨name, -, rfl⟩
    all_goals exact ⟨_, rfl⟩
  · exact forall_mem_of_forall₂ hfields fun _ _ => Lowering.isTypeDescriptor_of_lowerField
  · exact forall_mem_of_forall₂ hmethods fun _ _ => Lowering.holdsArguments_of_lowerMethod

theorem namesClass_descriptorOf (name : String) : NamesClass (ClassName.descriptorOf name) := by
  simp [NamesClass, ClassName.descriptorOf]

/-- Only a class name can make a lowered record unfit for loading. -/
theorem Lowered.loadable_iff {record : ClassRecord} (h : Lowered record) :
    Loadable record ↔
      ∀ descriptor ∈ record.classTypes, Descriptor.isTypeDescriptor descriptor := by
  constructor
  · intro hloadable descriptor hdescriptor
    exact hloadable.types descriptor (by simp [ClassRecord.types, hdescriptor])
  · intro htypes
    refine ⟨?_, ?_, h.registers⟩
    · intro descriptor hdescriptor
      simp only [ClassRecord.types, List.mem_append, List.mem_map] at hdescriptor
      rcases hdescriptor with hclass | ⟨field, hfield, rfl⟩
      · exact htypes descriptor hclass
      · exact h.fieldTypes field hfield
    · intro descriptor hdescriptor
      obtain ⟨name, rfl⟩ := h.classTypes descriptor hdescriptor
      exact namesClass_descriptorOf name

end LiveDex
