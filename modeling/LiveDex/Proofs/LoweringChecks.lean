import LiveDex.Proofs.Lowered
import LiveDex.Proofs.MethodDescriptor

/-!
What decides a lowering. All that can fail in it is a check of the class file, and the checks stand
in one list whose first failure is the error. A class file that passes them all is mapped part by
part, and the record is told by the class file without the way it was made.
-/
namespace LiveDex

section Checks

variable {ε α β : Type}

/-- A demand, and the error reported where it is not met. -/
structure Check (ε : Type) where
  met : Prop
  error : ε

/-- The error of the first check that is not met. -/
def FirstFailure (checks : List (Check ε)) (e : ε) : Prop :=
  ∃ before check after, checks = before ++ check :: after ∧ (∀ earlier ∈ before, earlier.met) ∧
    ¬ check.met ∧ check.error = e

theorem firstFailure_cons_iff (check : Check ε) (checks : List (Check ε)) (e : ε) :
    FirstFailure (check :: checks) e ↔
      (¬ check.met ∧ check.error = e) ∨ (check.met ∧ FirstFailure checks e) := by
  constructor
  · rintro ⟨before, failed, after, heq, hbefore, hfailed, herror⟩
    cases before with
    | nil =>
      obtain ⟨rfl, -⟩ := List.cons.inj heq
      exact Or.inl ⟨hfailed, herror⟩
    | cons first before =>
      obtain ⟨rfl, hrest⟩ := List.cons.inj heq
      obtain ⟨hfirst, hbefore⟩ := List.forall_mem_cons.mp hbefore
      exact Or.inr ⟨hfirst, before, failed, after, hrest, hbefore, hfailed, herror⟩
  · rintro (⟨hfailed, herror⟩ | ⟨hmet, before, failed, after, rfl, hbefore, hfailed, herror⟩)
    · exact ⟨[], check, checks, rfl, by simp, hfailed, herror⟩
    · exact ⟨check :: before, failed, after, rfl, List.forall_mem_cons.mpr ⟨hmet, hbefore⟩, hfailed,
        herror⟩

theorem FirstFailure.append {checks : List (Check ε)} {e : ε} (h : FirstFailure checks e)
    (later : List (Check ε)) : FirstFailure (checks ++ later) e := by
  obtain ⟨before, check, after, rfl, hcheck⟩ := h
  exact ⟨before, check, after ++ later, by simp, hcheck⟩

theorem FirstFailure.prepend {checks : List (Check ε)} {e : ε} (h : FirstFailure checks e)
    {earlier : List (Check ε)} (hearlier : ∀ check ∈ earlier, check.met) :
    FirstFailure (earlier ++ checks) e := by
  obtain ⟨before, check, after, rfl, hbefore, hcheck⟩ := h
  refine ⟨earlier ++ before, check, after, by simp, ?_, hcheck⟩
  intro met hmem
  rcases List.mem_append.mp hmem with hleft | hright
  · exact hearlier met hleft
  · exact hbefore met hright

theorem FirstFailure.not_all_met {checks : List (Check ε)} {e : ε} (h : FirstFailure checks e) :
    ¬ ∀ check ∈ checks, check.met := by
  obtain ⟨before, check, after, rfl, -, hfailed, -⟩ := h
  intro hall
  exact hfailed (hall check (by simp))

theorem FirstFailure.unique {checks : List (Check ε)} {e e' : ε} (h : FirstFailure checks e)
    (h' : FirstFailure checks e') : e = e' := by
  induction checks with
  | nil =>
    obtain ⟨before, check, after, heq, -⟩ := h
    simp at heq
  | cons check checks ih =>
    rw [firstFailure_cons_iff] at h h'
    rcases h with ⟨hfailed, rfl⟩ | ⟨hmet, hrest⟩
    · rcases h' with ⟨-, rfl⟩ | ⟨hmet, -⟩
      · rfl
      · exact absurd hmet hfailed
    · rcases h' with ⟨hfailed, -⟩ | ⟨-, hrest'⟩
      · exact absurd hmet hfailed
      · exact ih hrest hrest'

/-- The computation fails exactly where one of the checks does, with the error of the first. -/
def DecidedBy (checks : List (Check ε)) : Except ε α → Prop
  | .ok _ => ∀ check ∈ checks, check.met
  | .error e => FirstFailure checks e

theorem DecidedBy.exists_ok_iff {checks : List (Check ε)} {x : Except ε α}
    (h : DecidedBy checks x) : (∃ a, x = .ok a) ↔ ∀ check ∈ checks, check.met := by
  cases x with
  | ok a => exact iff_of_true ⟨a, rfl⟩ h
  | error e => exact iff_of_false (by simp) (FirstFailure.not_all_met h)

theorem DecidedBy.error_iff {checks : List (Check ε)} {x : Except ε α} (h : DecidedBy checks x)
    (e : ε) : x = .error e ↔ FirstFailure checks e := by
  cases x with
  | ok a => exact iff_of_false (by simp) fun hfailure => hfailure.not_all_met h
  | error found =>
    constructor
    · rintro ⟨⟩
      exact h
    · intro hfailure
      rw [FirstFailure.unique h hfailure]

theorem DecidedBy.of_not_met {check : Check ε} (later : List (Check ε)) (h : ¬ check.met) :
    DecidedBy (check :: later) (.error check.error : Except ε α) :=
  ⟨[], check, later, rfl, by simp, h, rfl⟩

theorem DecidedBy.of_met {check : Check ε} {checks : List (Check ε)} {x : Except ε α}
    (hmet : check.met) (h : DecidedBy checks x) : DecidedBy (check :: checks) x := by
  cases x with
  | ok a => exact List.forall_mem_cons.mpr ⟨hmet, h⟩
  | error e => exact (firstFailure_cons_iff ..).mpr (Or.inr ⟨hmet, h⟩)

theorem decidedBy_nil (a : α) : DecidedBy ([] : List (Check ε)) (.ok a) := by
  intro check hmem
  simp at hmem

theorem DecidedBy.bind {checks later : List (Check ε)} {x : Except ε α} {f : α → Except ε β}
    (hx : DecidedBy checks x) (hf : ∀ a, DecidedBy later (f a)) :
    DecidedBy (checks ++ later) (x >>= f) := by
  cases x with
  | error e => exact FirstFailure.append hx later
  | ok a =>
    have hnext := hf a
    have heq : Except.ok a >>= f = f a := rfl
    rw [heq]
    cases hresult : f a with
    | ok b =>
      rw [hresult] at hnext
      exact List.forall_mem_append.mpr ⟨hx, hnext⟩
    | error e =>
      rw [hresult] at hnext
      exact FirstFailure.prepend hnext hx

theorem DecidedBy.map {checks : List (Check ε)} {x : Except ε α} (h : DecidedBy checks x)
    (f : α → β) : DecidedBy checks (x >>= fun a => pure (f a)) := by
  have hbind := h.bind fun a => decidedBy_nil (f a)
  rwa [List.append_nil] at hbind

theorem DecidedBy.mapM {checksOf : α → List (Check ε)} {f : α → Except ε β}
    (h : ∀ a, DecidedBy (checksOf a) (f a)) (items : List α) :
    DecidedBy (items.flatMap checksOf) (items.mapM f) := by
  induction items with
  | nil => exact decidedBy_nil []
  | cons a items ih =>
    rw [List.mapM_cons, List.flatMap_cons]
    exact (h a).bind fun b => ih.map (b :: ·)

end Checks

/-- A dialect that some runtimes without the other one take. -/
def Dialect.Older (dialect other : Dialect) : Prop :=
  dialect.minApiLevel < other.minApiLevel

theorem Dialect.hasInvokeDynamic_eq_false_iff (dialect : Dialect) :
    dialect.hasInvokeDynamic = false ↔ dialect.Older .v038 := by
  cases dialect <;> simp [hasInvokeDynamic, Older, minApiLevel]

theorem Dialect.hasDefaultMethods_eq_false_iff (dialect : Dialect) :
    dialect.hasDefaultMethods = false ↔ dialect.Older .v037 := by
  cases dialect <;> simp [hasDefaultMethods, Older, minApiLevel]

theorem AccessFlags.hasAny_or_left (flags more bits : UInt32) :
    hasAny (flags ||| more) bits = (hasAny flags bits || hasAny more bits) := by
  have hand : (flags ||| more) &&& bits = (flags &&& bits) ||| (more &&& bits) :=
    UInt32.toBitVec_inj.mp BitVec.and_or_distrib_right
  rw [Bool.eq_iff_iff]
  simp [hasAny, hand, UInt32.or_eq_zero_iff, imp_iff_not_or]

theorem AccessFlags.hasAny_or_right (flags bits more : UInt32) :
    hasAny flags (bits ||| more) = (hasAny flags bits || hasAny flags more) := by
  have hand : flags &&& (bits ||| more) = (flags &&& bits) ||| (flags &&& more) :=
    UInt32.toBitVec_inj.mp BitVec.and_or_distrib_left
  rw [Bool.eq_iff_iff]
  simp [hasAny, hand, UInt32.or_eq_zero_iff, imp_iff_not_or]

def ClassFile.IsInterface (file : ClassFile) : Prop :=
  AccessFlags.hasAny file.accessFlags.toUInt32 AccessFlags.interfaceBit

namespace ClassFile.Member

def IsAbstract (member : Member) : Prop :=
  AccessFlags.hasAny member.accessFlags.toUInt32 AccessFlags.abstractBit

def IsNative (member : Member) : Prop :=
  AccessFlags.hasAny member.accessFlags.toUInt32 AccessFlags.nativeBit

end ClassFile.Member

namespace Lowering

theorem methodFlags_eq (member : ClassFile.Member) :
    methodFlags member = if member.name = "<init>" ∨ member.name = "<clinit>" then
      member.accessFlags.toUInt32 ||| AccessFlags.constructorBit
      else member.accessFlags.toUInt32 := by
  simp [methodFlags, isInitializer]

/-- Marking a constructor changes none of the other flags. -/
theorem hasAny_methodFlags (member : ClassFile.Member) {bits : UInt32}
    (hbits : AccessFlags.hasAny AccessFlags.constructorBit bits = false) :
    AccessFlags.hasAny (methodFlags member) bits =
      AccessFlags.hasAny member.accessFlags.toUInt32 bits := by
  unfold methodFlags
  split
  · rw [AccessFlags.hasAny_or_left, hbits, Bool.or_false]
  · rfl

section Demands

variable (options : Options) (name : String) (file : ClassFile)

/-- How errors name a member of the class. -/
def memberOf (member : ClassFile.Member) : String :=
  "L" ++ file.thisClass ++ ";" ++ "->" ++ member.name

/-- The checks of the class as a whole. -/
def classChecks : List (Check Error) :=
  [⟨file.majorVersion ≤ 52, .unsupportedVersion file.majorVersion file.minorVersion⟩,
    ⟨options.strictNames → file.thisClass = ClassName.internal name,
      .nameMismatch (ClassName.internal name) file.thisClass⟩,
    ⟨options.dialect.Older .v038 → ∀ entry ∈ file.pool.entries,
        entry.2.kind ∉ [.methodHandle, .methodType, .dynamic, .invokeDynamic],
      .unsupportedFeature .invokeDynamic options.dialect⟩]

def fieldChecks (member : ClassFile.Member) : List (Check Error) :=
  [⟨Descriptor.isTypeDescriptor member.descriptor ∧ member.descriptor ≠ "V",
    .invalidDescriptor (memberOf file member) member.descriptor⟩]

def methodChecks (dialect : Dialect) (member : ClassFile.Member) : List (Check Error) :=
  [⟨∃ registers, Descriptor.parameterRegisters? member.descriptor = some registers,
      .invalidDescriptor (memberOf file member) member.descriptor⟩,
    ⟨file.IsInterface ∧ dialect.Older .v037 ∧ member.name ≠ "<clinit>" → member.code = none,
      .unsupportedFeature .interfaceBodies dialect⟩,
    ⟨member.code = none → member.IsAbstract ∨ member.IsNative,
      .missingCode (memberOf file member)⟩]

/-- All checks of a class file that was asked for under a name, in their order. -/
def checks : List (Check Error) :=
  classChecks options name file ++
    (file.fields.flatMap (fieldChecks file) ++
      file.methods.flatMap (methodChecks file options.dialect))

/-- What a class file must be like to have a record. -/
structure Admissible : Prop where
  version : file.majorVersion ≤ 52
  names : options.strictNames → file.thisClass = ClassName.internal name
  pool : options.dialect.Older .v038 → ∀ entry ∈ file.pool.entries,
    entry.2.kind ∉ [.methodHandle, .methodType, .dynamic, .invokeDynamic]
  fields : ∀ member ∈ file.fields,
    Descriptor.isTypeDescriptor member.descriptor ∧ member.descriptor ≠ "V"
  descriptors : ∀ member ∈ file.methods,
    ∃ registers, Descriptor.parameterRegisters? member.descriptor = some registers
  bodies : file.IsInterface → options.dialect.Older .v037 →
    ∀ member ∈ file.methods, member.name ≠ "<clinit>" → member.code = none
  code : ∀ member ∈ file.methods, member.code = none → member.IsAbstract ∨ member.IsNative

theorem admissible_iff : Admissible options name file ↔
    ∀ check ∈ checks options name file, check.met := by
  simp only [checks, classChecks, fieldChecks, methodChecks, List.forall_mem_append,
    List.forall_mem_cons, List.forall_mem_flatMap, List.not_mem_nil, false_implies, implies_true,
    and_true]
  constructor
  · intro h
    refine ⟨⟨h.version, h.names, h.pool⟩, h.fields, ?_⟩
    intro member hmember
    refine ⟨h.descriptors member hmember, ?_, h.code member hmember⟩
    rintro ⟨hinterface, hdialect, hname⟩
    exact h.bodies hinterface hdialect member hmember hname
  · rintro ⟨⟨hversion, hnames, hpool⟩, hfields, hmethods⟩
    refine ⟨hversion, hnames, hpool, hfields, fun member hmember => (hmethods member hmember).1, ?_,
      fun member hmember => (hmethods member hmember).2.2⟩
    intro hinterface hdialect member hmember hname
    exact (hmethods member hmember).2.1 ⟨hinterface, hdialect, hname⟩

theorem lowerField_decided (member : ClassFile.Member) :
    DecidedBy (fieldChecks file member)
      (lowerField (ClassName.descriptorOf file.thisClass) member) := by
  unfold lowerField
  split
  case isTrue hvalue =>
    exact .of_met ((Descriptor.isValueType_toList_iff _).mp hvalue) (decidedBy_nil _)
  case isFalse hvalue =>
    exact .of_not_met _ fun hmet => hvalue ((Descriptor.isValueType_toList_iff _).mpr hmet)

theorem lowerMethod_decided (dialect : Dialect) (member : ClassFile.Member) :
    DecidedBy (methodChecks file dialect member)
      (lowerMethod (ClassName.descriptorOf file.thisClass)
        (AccessFlags.hasAny file.accessFlags.toUInt32 AccessFlags.interfaceBit) dialect
        member) := by
  have hbodiless : AccessFlags.hasAny (methodFlags member)
      (AccessFlags.abstractBit ||| AccessFlags.nativeBit) ↔
        member.IsAbstract ∨ member.IsNative := by
    rw [hasAny_methodFlags member (by decide), AccessFlags.hasAny_or_right, Bool.or_eq_true]
    rfl
  simp only [lowerMethod]
  cases hregisters : Descriptor.parameterRegisters? member.descriptor with
  | none => exact .of_not_met _ (by simp [hregisters])
  | some registers =>
    refine .of_met ⟨registers, hregisters⟩ ?_
    cases hcode : member.code with
    | some code =>
      have hdialect := dialect.hasDefaultMethods_eq_false_iff
      dsimp only
      split
      case isTrue hrefused =>
        simp only [Bool.and_eq_true, bne_iff_ne, Bool.not_eq_true'] at hrefused
        refine .of_not_met _ fun hmet => ?_
        cases hmet ⟨hrefused.1.1, hdialect.mp hrefused.2, hrefused.1.2⟩
      case isFalse hallowed =>
        refine .of_met ?_ (.of_met (by simp) (decidedBy_nil _))
        rintro ⟨hinterface, holder, hname⟩
        refine absurd ?_ hallowed
        simp only [Bool.and_eq_true, bne_iff_ne, Bool.not_eq_true']
        exact ⟨⟨hinterface, hname⟩, hdialect.mpr holder⟩
    | none =>
      refine .of_met (fun _ => rfl) ?_
      dsimp only
      split
      case isTrue hflags => exact .of_met (fun _ => hbodiless.mp hflags) (decidedBy_nil _)
      case isFalse hflags => exact .of_not_met _ fun hmet => hflags (hbodiless.mpr (hmet rfl))

theorem checkClass_decided (bytes : Bytes) :
    DecidedBy (classChecks options name file) (checkClass ⟨name, bytes⟩ options file) := by
  have hpool : (!options.dialect.hasInvokeDynamic &&
      file.pool.entries.any fun entry => entry.2.needsInvokeDynamic) = true ↔
        ¬ (options.dialect.Older .v038 → ∀ entry ∈ file.pool.entries,
          entry.2.kind ∉ [.methodHandle, .methodType, .dynamic, .invokeDynamic]) := by
    rw [Bool.and_eq_true, Bool.not_eq_true', Dialect.hasInvokeDynamic_eq_false_iff,
      List.any_eq_true]
    simp only [ClassFile.Constant.needsInvokeDynamic, List.contains_eq_mem, decide_eq_true_eq]
    push Not
    rfl
  unfold checkClass
  split
  case isTrue hnew => exact .of_not_met _ (UInt16.not_le.mpr hnew)
  case isFalse hversion =>
    refine .of_met (UInt16.not_lt.mp hversion) ?_
    split
    case isTrue hother =>
      refine .of_not_met _ fun hmet => ?_
      simp only [Bool.and_eq_true, bne_iff_ne] at hother
      exact hother.2 (hmet hother.1)
    case isFalse hnames =>
      refine .of_met ?_ ?_
      · intro hstrict
        by_contra hother
        simp only [Bool.and_eq_true, bne_iff_ne, not_and, not_not] at hnames
        exact hother (hnames hstrict)
      · split
        case isTrue hrefused => exact .of_not_met _ (hpool.mp hrefused)
        case isFalse hallowed =>
          exact .of_met (not_not.mp (mt hpool.mpr hallowed)) (decidedBy_nil _)

theorem lowerClass_decided :
    DecidedBy (file.fields.flatMap (fieldChecks file) ++
        file.methods.flatMap (methodChecks file options.dialect))
      (lowerClass options.dialect file) := by
  unfold lowerClass
  exact (DecidedBy.mapM (lowerField_decided file) file.fields).bind fun fields =>
    (DecidedBy.mapM (lowerMethod_decided file options.dialect) file.methods).map _

theorem lower_decided {source : ClassSource}
    (hparse : ClassFile.parse source.bytes = .ok file) :
    DecidedBy (checks options source.name file) (lower options source) := by
  unfold lower
  simp only [hparse]
  exact (checkClass_decided options source.name file source.bytes).bind fun _ =>
    lowerClass_decided options file

end Demands

end Lowering

/-- Registers of the declared parameters, and one for the receiver where there is one. -/
def argumentRegisters (accessFlags : UInt32) (parameters : List String) : ℕ :=
  (parameters.map Descriptor.registersOf).sum +
    if AccessFlags.hasAny accessFlags AccessFlags.staticBit then 0 else 1

structure FieldRecord.Carries (field : FieldRecord) (member : ClassFile.Member) : Prop where
  name : field.name = member.name
  typeDescriptor : field.typeDescriptor = member.descriptor
  accessFlags : field.accessFlags = member.accessFlags.toUInt32

/-- Code of a member as it is, with its registers counted up to the greatest word. -/
structure CodeItem.Carries (member : ClassFile.Member) (code : ClassFile.Code) (item : CodeItem) :
    Prop where
  insns : item.insns = code.code
  tries : item.tries = code.exceptionTableLength
  outs : item.outs = code.maxStack
  ins : ∃ parameters returned, Descriptor.Declares member.descriptor parameters returned ∧
    (parameters.map Descriptor.registersOf).sum ≤ 65535 ∧
    item.ins.toNat = min (argumentRegisters member.accessFlags.toUInt32 parameters) 65535
  registers : item.registers.toNat =
    max (min (code.maxLocals.toNat + code.maxStack.toNat) 65535) item.ins.toNat

structure MethodRecord.Carries (method : MethodRecord) (member : ClassFile.Member) : Prop where
  name : method.name = member.name
  proto : method.proto = member.descriptor
  accessFlags : method.accessFlags = if member.name = "<init>" ∨ member.name = "<clinit>" then
    member.accessFlags.toUInt32 ||| AccessFlags.constructorBit else member.accessFlags.toUInt32
  code : Option.Rel (CodeItem.Carries member) member.code method.code

/-- The record of a class file, part by part. -/
structure ClassRecord.Carries (record : ClassRecord) (file : ClassFile) : Prop where
  descriptor : record.descriptor = ClassName.descriptorOf file.thisClass
  accessFlags : record.accessFlags = file.accessFlags.toUInt32 &&& ~~~AccessFlags.superBit
  superclass : record.superclass = file.superClass.map ClassName.descriptorOf
  interfaces : record.interfaces = file.interfaces.map ClassName.descriptorOf
  sourceFile : record.sourceFile = file.sourceFile
  fields : List.Forall₂ (fun member field => field.Carries member) file.fields record.fields
  methods : List.Forall₂ (fun member method => method.Carries member) file.methods record.methods

namespace Lowering

theorem toNat_saturatingAdd (a b : UInt16) :
    (saturatingAdd a b).toNat = min (a.toNat + b.toNat) 65535 := by
  unfold saturatingAdd
  split
  case isTrue hfits =>
    rw [UInt16.toNat_add, Nat.mod_eq_of_lt hfits]
    omega
  case isFalse hover =>
    have hgreatest : (65535 : UInt16).toNat = 65535 := rfl
    omega

theorem toNat_registers_lowerCode (parameters : UInt16) (isStatic : Bool) (code : ClassFile.Code) :
    (lowerCode parameters isStatic code).registers.toNat =
      max (min (code.maxLocals.toNat + code.maxStack.toNat) 65535)
        (lowerCode parameters isStatic code).ins.toNat := by
  have hframe := toNat_saturatingAdd code.maxLocals code.maxStack
  simp only [lowerCode]
  generalize saturatingAdd parameters _ = ins
  split
  case isTrue hle =>
    have hframeLe := UInt16.le_iff_toNat_le.mp hle
    omega
  case isFalse hnot =>
    have hinsLt := mt UInt16.le_iff_toNat_le.mpr hnot
    omega

theorem carries_lowerCode {member : ClassFile.Member} {registers : UInt16}
    (h : Descriptor.parameterRegisters? member.descriptor = some registers)
    (code : ClassFile.Code) :
    CodeItem.Carries member code (lowerCode registers
      (AccessFlags.hasAny (methodFlags member) AccessFlags.staticBit) code) := by
  obtain ⟨parameters, returned, hdeclares, hregisters, hlimit⟩ :=
    (Descriptor.parameterRegisters?_eq_iff member.descriptor registers.toNat).mp (by rw [h]; rfl)
  refine ⟨rfl, rfl, rfl, ⟨parameters, returned, hdeclares, hregisters ▸ hlimit, ?_⟩,
    toNat_registers_lowerCode ..⟩
  rw [hasAny_methodFlags member (by decide), lowerCode, toNat_saturatingAdd, hregisters,
    argumentRegisters]
  split
  · rfl
  · rfl

theorem carries_of_lowerField {classDescriptor : String} {member : ClassFile.Member}
    {field : FieldRecord} (h : lowerField classDescriptor member = .ok field) :
    field.Carries member := by
  unfold lowerField at h
  split at h
  case isTrue =>
    obtain rfl := Except.ok.inj h
    exact ⟨rfl, rfl, rfl⟩
  case isFalse => cases h

theorem carries_of_lowerMethod {classDescriptor : String} {isInterface : Bool} {dialect : Dialect}
    {member : ClassFile.Member} {method : MethodRecord}
    (h : lowerMethod classDescriptor isInterface dialect member = .ok method) :
    method.Carries member := by
  obtain ⟨registers, hregisters, rfl⟩ := eq_of_lowerMethod h
  refine ⟨rfl, rfl, methodFlags_eq member, ?_⟩
  cases member.code with
  | none => exact .none
  | some code => exact .some (carries_lowerCode hregisters code)

theorem carries_of_lowerClass {dialect : Dialect} {file : ClassFile} {record : ClassRecord}
    (h : lowerClass dialect file = .ok record) : record.Carries file := by
  obtain ⟨fields, methods, hfields, hmethods, rfl⟩ := lowerClass_eq_ok_iff.mp h
  exact ⟨rfl, rfl, rfl, rfl, rfl, hfields.imp fun _ _ => carries_of_lowerField,
    hmethods.imp fun _ _ => carries_of_lowerMethod⟩

end Lowering

/-- An interface with a body for its one method. -/
def defaultMethodFile : Bytes :=
  [202, 254, 186, 190, 0, 0, 0, 52, 0, 6, 1, 0, 1, 73, 7, 0, 1, 1, 0, 1, 109, 1, 0, 3, 40, 41, 86,
    1, 0, 4, 67, 111, 100, 101, 6, 1, 0, 2, 0, 0, 0, 0, 0, 0, 0, 1, 0, 1, 0, 3, 0, 4, 0, 1, 0, 5, 0,
    0, 0, 13, 0, 1, 0, 1, 0, 0, 0, 1, 177, 0, 0, 0, 0, 0, 0]

end LiveDex
