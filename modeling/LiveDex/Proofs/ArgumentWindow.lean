import LiveDex.Proofs.ClassFileFormat
import LiveDex.Proofs.LoweringChecks

/-!
The argument registers of lowered methods. Parameters whose registers a word cannot count make a
descriptor malformed, while the receiver of a method is added up to the greatest word only. So the
arguments of a method are counted in full, unless the parameters take the greatest word and there is
a receiver besides: then it is left out.
-/
namespace LiveDex

/-- Whether a method is static can be told from its record. -/
theorem MethodRecord.Carries.argumentRegisters_eq {method : MethodRecord}
    {member : ClassFile.Member} (h : method.Carries member) (parameters : List String) :
    argumentRegisters method.accessFlags parameters =
      argumentRegisters member.accessFlags.toUInt32 parameters := by
  have hmark : AccessFlags.hasAny AccessFlags.constructorBit AccessFlags.staticBit = false := by
    decide
  rw [argumentRegisters, argumentRegisters, h.accessFlags, ← Lowering.methodFlags_eq,
    Lowering.hasAny_methodFlags member hmark]

namespace Lowering

theorem exists_carried_method {options : Options} {source : ClassSource} {record : ClassRecord}
    (h : lower options source = .ok record) {method : MethodRecord}
    (hmethod : method ∈ record.methods) : ∃ member, method.Carries member := by
  obtain ⟨file, -, -, hclass⟩ := lower_eq_ok_iff.mp h
  have hcarries := (carries_of_lowerClass hclass).methods
  exact Container.forall_mem_of_forall₂ (p := fun method => ∃ member, method.Carries member)
    hcarries (fun member _ hcarried => ⟨member, hcarried⟩) method hmethod

section OneMethod

open ClassFile

/-- The code of a method that returns at once. -/
def returning : IndexedCode where
  maxStack := 1
  maxLocals := 1
  code := [177]
  exceptionTable := []
  attributes := []

/-- A class `C` with one public method `m`, whose descriptor is given. -/
def oneMethodLayout (descriptor : String) : IndexedClassFile where
  minorVersion := 0
  majorVersion := 52
  constants := [.utf8 (Text.utf8 "C"), .classRef 1, .utf8 (Text.utf8 "m"),
    .utf8 (Text.utf8 descriptor), .utf8 (Text.utf8 "Code")]
  accessFlags := 1
  thisClass := 2
  superClass := 0
  interfaces := []
  fields := []
  methods := [⟨1, 3, 4, [⟨5, returning.layout⟩]⟩]
  attributes := []

def oneMethodFile (descriptor : String) : ClassFile where
  minorVersion := 0
  majorVersion := 52
  pool := .ofConstants [.utf8 "C", .classRef 1, .utf8 "m", .utf8 descriptor, .utf8 "Code"]
  accessFlags := 1
  thisClass := "C"
  superClass := none
  interfaces := []
  fields := []
  methods := [⟨1, "m", descriptor, some ⟨1, 1, [177], 0⟩, [⟨"Code", returning.layout⟩]⟩]
  sourceFile := none
  attributes := []

theorem utf8_denotes (text : String) :
    (Constant.utf8 (Text.utf8 text)).Denotes (.utf8 text) := by
  simp [Constant.Denotes, Constant.mapText?, Text.ofClassFileBytes?, Text.ofUtf8?_utf8]

theorem oneMethodLayout_fits {descriptor : String}
    (hlength : (Text.utf8 descriptor).length < UInt16.size) :
    (oneMethodLayout descriptor).Fits := by
  refine ⟨?_, ?_, ?_, ?_, ?_, ?_, ?_, ?_, ?_⟩
  · simp [oneMethodLayout, IndexedClassFile.slotCount, Constant.slots, Constant.isWide,
      Constant.kind, UInt16.size]
  · simp only [oneMethodLayout, List.forall_mem_cons, Constant.Fits, List.not_mem_nil,
      false_implies, implies_true, and_true, true_and]
    exact ⟨by decide, by decide, hlength, by decide⟩
  · simp [oneMethodLayout, UInt16.size]
  · simp [oneMethodLayout, UInt16.size]
  · simp [oneMethodLayout]
  · simp [oneMethodLayout, UInt16.size]
  · simp only [oneMethodLayout, List.mem_singleton, forall_eq]
    refine ⟨by decide, ?_⟩
    simp only [List.mem_singleton, forall_eq, IndexedAttribute.Fits]
    decide
  · simp [oneMethodLayout, UInt16.size]
  · simp [oneMethodLayout]

theorem oneMethodLayout_denotes (descriptor : String) :
    (oneMethodLayout descriptor).Denotes (oneMethodFile descriptor) := by
  refine ⟨rfl, rfl, ?_, ?_, rfl, ⟨1, rfl, rfl⟩, rfl, .nil, .nil, ?_, .nil, ⟨[], .nil, rfl⟩⟩
  · exact ⟨_, .cons (utf8_denotes _) (.cons rfl (.cons (utf8_denotes _) (.cons (utf8_denotes _)
      (.cons (utf8_denotes _) .nil)))), rfl⟩
  · exact (oneMethodFile descriptor).pool.checkReferences_eq_ok_iff.mp rfl
  · refine .cons ⟨rfl, rfl, rfl, .cons ⟨rfl, rfl⟩ .nil, ?_⟩ .nil
    exact ⟨⟨"Code", returning.layout⟩, returning, by simp,
      ⟨by decide, by decide, by decide, by simp [returning]⟩,
      ⟨rfl, rfl, rfl, rfl, by simp [returning]⟩, rfl⟩

theorem parse_oneMethodLayout {descriptor : String}
    (hlength : (Text.utf8 descriptor).length < UInt16.size) :
    ClassFile.parse (oneMethodLayout descriptor).layout = .ok (oneMethodFile descriptor) := by
  exact parse_eq_ok_iff.mpr
    ⟨_, oneMethodLayout_fits hlength, oneMethodLayout_denotes descriptor, rfl⟩

def loweredMethod (descriptor : String) (registers : UInt16) : MethodRecord where
  name := "m"
  proto := descriptor
  accessFlags := 1
  code := some (lowerCode registers false ⟨1, 1, [177], 0⟩)

theorem lower_oneMethodLayout {descriptor : String} {registers : UInt16}
    (hlength : (Text.utf8 descriptor).length < UInt16.size)
    (hregisters : Descriptor.parameterRegisters? descriptor = some registers) :
    lower .pinned ⟨"C", (oneMethodLayout descriptor).layout⟩ =
      .ok { descriptor := "LC;", accessFlags := 1,
            methods := [loweredMethod descriptor registers] } := by
  have hmethod (member : Member) (hname : member.name = "m") (hflags : member.accessFlags = 1)
      (hdescriptor : member.descriptor = descriptor)
      (hcode : member.code = some ⟨1, 1, [177], 0⟩) :
      lowerMethod (ClassName.descriptorOf "C") false Options.pinned.dialect member =
        .ok (loweredMethod descriptor registers) := by
    have hplain : methodFlags member = 1 := by
      simp [methodFlags, isInitializer, hname, hflags]
    have hstatic : AccessFlags.hasAny 1 AccessFlags.staticBit = false := by decide
    simp [lowerMethod, loweredMethod, hdescriptor, hregisters, hcode, hplain, hstatic, hname]
  refine lower_eq_ok_iff.mpr ⟨oneMethodFile descriptor, parse_oneMethodLayout hlength, rfl,
    lowerClass_eq_ok_iff.mpr ⟨[], [loweredMethod descriptor registers], .nil, ?_, ?_⟩⟩
  · have hflags : (oneMethodFile descriptor).accessFlags = 1 := rfl
    have hinterface : AccessFlags.hasAny (UInt16.toUInt32 1) AccessFlags.interfaceBit = false := by
      decide
    rw [hflags, hinterface]
    exact .cons (hmethod _ rfl rfl rfl rfl) .nil
  · have hdescriptor : ClassName.descriptorOf "C" = "LC;" := by decide
    have hpublic : (1 : UInt32) = 1 &&& ~~~AccessFlags.superBit := by decide
    simpa [oneMethodFile, hdescriptor] using hpublic

end OneMethod

/-- Parameters of which all but the last take two registers. -/
def longParameters (n : ℕ) : List String :=
  List.replicate n "J" ++ ["I"]

theorem sum_longParameters (n : ℕ) :
    ((longParameters n).map Descriptor.registersOf).sum = 2 * n + 1 := by
  have hlong : Descriptor.registersOf "J" = 2 := by decide
  have hint : Descriptor.registersOf "I" = 1 := by decide
  simp [longParameters, hlong, hint, Nat.mul_comm]

theorem declares_longParameters (n : ℕ) :
    Descriptor.Declares (Descriptor.methodDescriptor (longParameters n) "V") (longParameters n)
      "V" := by
  refine ⟨rfl, ?_, by decide⟩
  intro type htype
  simp only [longParameters, List.mem_append, List.mem_replicate, List.mem_singleton] at htype
  rcases htype with ⟨-, rfl⟩ | rfl
  · decide
  · decide

theorem registers_longParameters (n : ℕ) (h : 2 * n + 1 ≤ 65535) :
    Descriptor.parameterRegisters? (Descriptor.methodDescriptor (longParameters n) "V") =
      some (2 * n + 1).toUInt16 := by
  obtain ⟨registers, hregisters, hcount⟩ := Option.map_eq_some_iff.mp
    ((Descriptor.parameterRegisters?_eq_iff _ _).mpr
      ⟨_, _, declares_longParameters n, (sum_longParameters n).symm, h⟩)
  rw [hregisters, ← hcount]
  simp

theorem length_longDescriptor (n : ℕ) :
    (Text.utf8 (Descriptor.methodDescriptor (longParameters n) "V")).length = n + 4 := by
  have hjoin (n : ℕ) : (String.join (longParameters n)).utf8ByteSize = n + 1 := by
    induction n with
    | zero => decide
    | succ n ih =>
      have hsucc : longParameters (n + 1) = "J" :: longParameters n := rfl
      have hone : "J".utf8ByteSize = 1 := by decide
      rw [hsucc, String.join_cons, String.utf8ByteSize_append, ih, hone]
      omega
  have hopen : "(".utf8ByteSize = 1 := by decide
  have hclose : ")".utf8ByteSize = 1 := by decide
  have hvoid : "V".utf8ByteSize = 1 := by decide
  have hsize (text : String) : (Text.utf8 text).length = text.utf8ByteSize := by simp [Text.utf8]
  rw [hsize, Descriptor.methodDescriptor, String.utf8ByteSize_append, String.utf8ByteSize_append,
    String.utf8ByteSize_append, hjoin, hopen, hclose, hvoid]
  omega

/-- The argument registers of a method with code are those of its parameters and of its receiver,
cut at the greatest word, and lie within its registers. The cut takes one register away where the
parameters take 65535 and there is a receiver, and none elsewhere. -/
theorem lower_counts_arguments (options : Options) (source : ClassSource) (record : ClassRecord)
    (method : MethodRecord) (item : CodeItem) (h : lower options source = .ok record)
    (hmethod : method ∈ record.methods) (hcode : method.code = some item) :
    ∃ parameters returned, Descriptor.Declares method.proto parameters returned ∧
      (item.ins.toNat = argumentRegisters method.accessFlags parameters ↔
        argumentRegisters method.accessFlags parameters ≠ 65536) ∧
      (argumentRegisters method.accessFlags parameters = 65536 →
        (parameters.map Descriptor.registersOf).sum = 65535 ∧ item.ins.toNat = 65535) ∧
      item.ins ≤ item.registers := by
  obtain ⟨member, hcarries⟩ := exists_carried_method h hmethod
  have hrelated := hcarries.code
  rw [hcode] at hrelated
  generalize member.code = body at hrelated
  cases hrelated with
  | some hitem =>
    obtain ⟨parameters, returned, hdeclares, hlimit, hins⟩ := hitem.ins
    rw [← hcarries.argumentRegisters_eq parameters] at hins
    have hreceiver : argumentRegisters method.accessFlags parameters ≤
        (parameters.map Descriptor.registersOf).sum + 1 := by
      unfold argumentRegisters
      split <;> omega
    refine ⟨parameters, returned, hcarries.proto ▸ hdeclares, ?_, ?_,
      (lowered_of_lower h).registers method hmethod item hcode⟩
    · omega
    · intro hover
      omega

theorem lower_counts_long_class_receiver :
    ∃ record method item,
      lower .pinned ⟨"C", (oneMethodLayout "(JLx;)V").layout⟩ = .ok record ∧
      method ∈ record.methods ∧ method.code = some item ∧
      argumentRegisters method.accessFlags ["J", "Lx;"] = 4 ∧ item.ins.toNat = 4 ∧
      item.ins ≤ item.registers := by
  have hregisters : Descriptor.parameterRegisters? "(JLx;)V" = some 3 := by decide
  have hlower := lower_oneMethodLayout (by decide) hregisters
  obtain ⟨parameters, returned, hdeclares, hcounts, -, hwithin⟩ := lower_counts_arguments _ _ _
    (loweredMethod "(JLx;)V" 3) _ hlower (List.mem_singleton_self _) rfl
  have hknown : Descriptor.Declares "(JLx;)V" ["J", "Lx;"] "V" :=
    ⟨by decide, by decide, by decide⟩
  obtain ⟨rfl, rfl⟩ := hdeclares.unique hknown
  exact ⟨_, _, _, hlower, List.mem_singleton_self _, rfl, by decide, hcounts.mpr (by decide),
    hwithin⟩

/-- Of the 65536 arguments of a method one is not counted. -/
theorem lower_leaves_out_receiver :
    ∃ record method item,
      lower .pinned ⟨"C", (oneMethodLayout
        (Descriptor.methodDescriptor (longParameters 32767) "V")).layout⟩ = .ok record ∧
      method ∈ record.methods ∧ method.code = some item ∧
      Descriptor.Declares method.proto (longParameters 32767) "V" ∧
      argumentRegisters method.accessFlags (longParameters 32767) = 65536 ∧ item.ins = 65535 := by
  have hregisters := registers_longParameters 32767 (by decide)
  have hlength := length_longDescriptor 32767
  have hlower := lower_oneMethodLayout (by rw [hlength]; decide) hregisters
  refine ⟨_, _, _, hlower, List.mem_singleton_self _, rfl, declares_longParameters 32767, ?_, ?_⟩
  · rw [argumentRegisters, sum_longParameters]
    decide
  · decide

end Lowering

end LiveDex
