import LiveDex.AccessFlags
import LiveDex.Bundle
import LiveDex.ClassFile.Parser
import LiveDex.Descriptor

/-!
Lowering a class file to a class record. Structure is mapped part by part and method bodies are
carried over as they are. What the record may hold depends on the dialect of the container it is
meant for; the checks run in a fixed order and the first that fails is the error.
-/
namespace LiveDex

/-- A class file as it is handed in, with the qualified name it was asked for under. -/
structure ClassSource where
  name : String
  bytes : Bytes

namespace ClassSource

def filePath (source : ClassSource) : String :=
  ClassName.filePath source.name

/-- The name that the path implies for the class inside. -/
def expectedName (source : ClassSource) : String :=
  ClassName.internal source.name

end ClassSource

namespace Lowering

/-- Newest class-file version that is taken. -/
def maxMajorVersion : UInt16 := 52

structure Options where
  apiLevel : UInt32
  /-- The class must have the name that its path implies. -/
  strictNames : Bool := true

/-- For classes made at run time, whose names are checked when they are looked up; some runtimes
reject containers in newer dialects. -/
def Options.pinned : Options where
  apiLevel := 13
  strictNames := false

def Options.dialect (options : Options) : Dialect :=
  .ofApiLevel options.apiLevel

inductive Feature where
  | invokeDynamic
  | interfaceBodies
  deriving DecidableEq, Repr

def Feature.label : Feature → String
  | .invokeDynamic => "invokedynamic"
  | .interfaceBodies => "interface method bodies"

inductive Error where
  | malformed (cause : ClassFile.Error)
  | unsupportedVersion (major minor : UInt16)
  | nameMismatch (expected found : String)
  | unsupportedFeature (feature : Feature) (dialect : Dialect)
  | invalidDescriptor (member descriptor : String)
  | missingCode (method : String)
  | rejected (cause : Bundle.Error)
  deriving DecidableEq, Repr

def Error.message : Error → String
  | .malformed cause => "malformed class file: " ++ cause.message
  | .unsupportedVersion major minor =>
    s!"unsupported class file version {major}.{minor} (max {maxMajorVersion})"
  | .nameMismatch expected found =>
    s!"class name {found} does not match file path {expected}.class"
  | .unsupportedFeature feature dialect =>
    feature.label ++ " is not supported by " ++ dialect.display
  | .invalidDescriptor member descriptor => s!"invalid descriptor '{descriptor}' on {member}"
  | .missingCode method => s!"concrete method {method} has no code"
  | .rejected cause => "rejected by container: " ++ cause.message

/-- Messages of the errors underneath, nearest first. -/
def Error.causes : Error → List String
  | .malformed cause => [cause.message]
  | .rejected cause => [cause.message]
  | _ => []

/-- Addition that stays at the greatest word instead of wrapping. -/
def saturatingAdd (a b : UInt16) : UInt16 :=
  if a.toNat + b.toNat < 65536 then a + b else 65535

def lowerField (classDescriptor : String) (member : ClassFile.Member) :
    Except Error FieldRecord :=
  if Descriptor.isValueType member.descriptor.toList then
    .ok ⟨member.name, member.descriptor, member.accessFlags.toUInt32⟩
  else
    .error (.invalidDescriptor (memberName classDescriptor member.name) member.descriptor)

def isInitializer (name : String) : Bool :=
  name = "<init>" || name = "<clinit>"

def methodFlags (member : ClassFile.Member) : UInt32 :=
  let flags := member.accessFlags.toUInt32
  if isInitializer member.name then flags ||| AccessFlags.constructorBit else flags

/-- Arguments take the last of the registers, so there are at least as many. -/
def lowerCode (parameters : UInt16) (isStatic : Bool) (code : ClassFile.Code) : CodeItem :=
  let ins := saturatingAdd parameters (if isStatic then 0 else 1)
  let frame := saturatingAdd code.maxLocals code.maxStack
  { registers := if frame ≤ ins then ins else frame
    ins
    outs := code.maxStack
    tries := code.exceptionTableLength
    insns := code.code }

def lowerMethod (classDescriptor : String) (isInterface : Bool) (dialect : Dialect)
    (member : ClassFile.Member) : Except Error MethodRecord :=
  let name := memberName classDescriptor member.name
  let flags := methodFlags member
  match Descriptor.parameterRegisters? member.descriptor with
  | none => .error (.invalidDescriptor name member.descriptor)
  | some parameters =>
    match member.code with
    | some code =>
      if isInterface && member.name != "<clinit>" && !dialect.hasDefaultMethods then
        .error (.unsupportedFeature .interfaceBodies dialect)
      else
        let isStatic := AccessFlags.hasAny flags AccessFlags.staticBit
        .ok ⟨member.name, member.descriptor, flags, some (lowerCode parameters isStatic code)⟩
    | none =>
      if AccessFlags.hasAny flags (AccessFlags.abstractBit ||| AccessFlags.nativeBit) then
        .ok ⟨member.name, member.descriptor, flags, none⟩
      else .error (.missingCode name)

/-- The checks that concern the class as a whole. -/
def checkClass (source : ClassSource) (options : Options) (file : ClassFile) :
    Except Error Unit :=
  if maxMajorVersion < file.majorVersion then
    .error (.unsupportedVersion file.majorVersion file.minorVersion)
  else if options.strictNames && file.thisClass != source.expectedName then
    .error (.nameMismatch source.expectedName file.thisClass)
  else if !options.dialect.hasInvokeDynamic
      && file.pool.entries.any (fun entry => entry.2.needsInvokeDynamic) then
    .error (.unsupportedFeature .invokeDynamic options.dialect)
  else .ok ()

def lowerClass (dialect : Dialect) (file : ClassFile) : Except Error ClassRecord := do
  let flags := file.accessFlags.toUInt32
  let isInterface := AccessFlags.hasAny flags AccessFlags.interfaceBit
  let descriptor := ClassName.descriptorOf file.thisClass
  let fields ← file.fields.mapM (lowerField descriptor)
  let methods ← file.methods.mapM (lowerMethod descriptor isInterface dialect)
  return {
    descriptor
    accessFlags := flags &&& ~~~AccessFlags.superBit
    superclass := file.superClass.map ClassName.descriptorOf
    interfaces := file.interfaces.map ClassName.descriptorOf
    sourceFile := file.sourceFile
    fields
    methods }

end Lowering

/-- The record of a class file, or the first reason why it has none. -/
def lower (options : Lowering.Options) (source : ClassSource) :
    Except Lowering.Error ClassRecord := do
  match ClassFile.parse source.bytes with
  | .error e => .error (.malformed e)
  | .ok file =>
    Lowering.checkClass source options file
    Lowering.lowerClass options.dialect file

end LiveDex
