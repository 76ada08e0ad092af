import LiveDex.Bundle
import LiveDex.Container.Tables
import LiveDex.Descriptor

/-!
From tables back to a bundle. Every index is followed and the first one that leads nowhere, or
to something that may not stand there, is reported with the place where it was met. The type
table is checked first, then the classes in order.
-/
namespace LiveDex.Container

inductive Place where
  | typeTable
  | classType
  | superclass
  | interface
  | sourceFile
  | fieldName
  | fieldType
  | methodName
  | methodProto
  deriving DecidableEq, Repr

def Place.label : Place → String
  | .typeTable => "type table"
  | .classType => "class"
  | .superclass => "superclass"
  | .interface => "interface"
  | .sourceFile => "source file"
  | .fieldName => "field name"
  | .fieldType => "field type"
  | .methodName => "method name"
  | .methodProto => "method proto"

inductive ValidationError where
  | invalidString (place : Place) (index : UInt32)
  | invalidType (place : Place) (index : UInt32)
  | malformedType (descriptor : String)
  | nonClassType (place : Place) (descriptor : String)
  | duplicateClass (descriptor : String)
  | registerCount (method : String) (ins registers : UInt16)
  deriving DecidableEq, Repr

def ValidationError.message : ValidationError → String
  | .invalidString place index => s!"invalid string index {index} in " ++ place.label
  | .invalidType place index => s!"invalid type index {index} in " ++ place.label
  | .malformedType descriptor => s!"malformed type descriptor '{descriptor}'"
  | .nonClassType place descriptor =>
    place.label ++ s!" must be a class type, found '{descriptor}'"
  | .duplicateClass descriptor => s!"class {descriptor} is defined more than once"
  | .registerCount method ins registers =>
    s!"method {method} declares {ins} ins but only {registers} registers"

namespace Tables

def string (tables : Tables) (place : Place) (index : UInt32) : Except ValidationError String :=
  match tables.strings[index.toNat]? with
  | some text => .ok text
  | none => .error (.invalidString place index)

def typeDescriptor (tables : Tables) (place : Place) (index : UInt32) :
    Except ValidationError String :=
  match tables.types[index.toNat]? with
  | some descriptor => tables.string place descriptor
  | none => .error (.invalidType place index)

def classType (tables : Tables) (place : Place) (index : UInt32) :
    Except ValidationError String := do
  let descriptor ← tables.typeDescriptor place index
  if descriptor.toList.head? = some 'L' then return descriptor
  else .error (.nonClassType place descriptor)

def optional (lookup : UInt32 → Except ValidationError String) (index : UInt32) :
    Except ValidationError (Option String) :=
  if index = noIndex then .ok none else some <$> lookup index

def checkType (tables : Tables) (index : UInt32) : Except ValidationError Unit := do
  let descriptor ← tables.string .typeTable index
  if Descriptor.isTypeDescriptor descriptor then return ()
  else .error (.malformedType descriptor)

def field (tables : Tables) (entry : FieldEntry) : Except ValidationError FieldRecord := do
  let name ← tables.string .fieldName entry.name
  let typeDescriptor ← tables.typeDescriptor .fieldType entry.type
  return ⟨name, typeDescriptor, entry.accessFlags⟩

/-- The registers of a method must hold its arguments. -/
def checkRegisters (classDescriptor name : String) : Option CodeItem → Except ValidationError Unit
  | none => .ok ()
  | some code =>
    if code.ins ≤ code.registers then .ok ()
    else .error (.registerCount (memberName classDescriptor name) code.ins code.registers)

def method (tables : Tables) (classDescriptor : String) (entry : MethodEntry) :
    Except ValidationError MethodRecord := do
  let name ← tables.string .methodName entry.name
  checkRegisters classDescriptor name entry.code
  let proto ← tables.string .methodProto entry.proto
  return ⟨name, proto, entry.accessFlags, entry.code⟩

/-- Adds the class of an entry to those resolved before it. -/
def addClass (tables : Tables) (bundle : Bundle) (entry : ClassEntry) :
    Except ValidationError Bundle := do
  let descriptor ← tables.classType .classType entry.type
  if bundle.defines descriptor then .error (.duplicateClass descriptor)
  let superclass ← optional (tables.classType .superclass) entry.superclass
  let interfaces ← entry.interfaces.mapM (tables.classType .interface)
  let sourceFile ← optional (tables.string .sourceFile) entry.sourceFile
  let fields ← entry.fields.mapM tables.field
  let methods ← entry.methods.mapM (tables.method descriptor)
  let record : ClassRecord :=
    ⟨descriptor, entry.accessFlags, superclass, interfaces, sourceFile, fields, methods⟩
  match bundle.add record with
  | .ok extended => return extended
  | .error (.duplicateClass again) => .error (.duplicateClass again)

def resolve (tables : Tables) : Except ValidationError Bundle := do
  tables.types.toList.forM tables.checkType
  tables.classes.foldlM tables.addClass { dialect := tables.dialect }

end Tables

end LiveDex.Container
