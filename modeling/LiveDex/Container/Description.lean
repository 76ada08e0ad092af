import LiveDex.Container.Tables
import LiveDex.Text.Quoted

/-!
A readable description of tables. Strings are listed in quotes and everything else as it is. It
can be made of any tables: an index that leads nowhere is shown as such.
-/
namespace LiveDex.Container

namespace Tables

def stringText (tables : Tables) (index : UInt32) : String :=
  if index = noIndex then "<none>"
  else
    match tables.strings[index.toNat]? with
    | some text => text
    | none => s!"<bad string {index}>"

def typeText (tables : Tables) (index : UInt32) : String :=
  if index = noIndex then "<none>"
  else
    match tables.types[index.toNat]? with
    | some descriptor => tables.stringText descriptor
    | none => s!"<bad type {index}>"

end Tables

def flagsText (flags : UInt32) : String :=
  "access=0x" ++ Text.hex 4 flags.toNat

def codeText : Option CodeItem → String
  | none => "no code"
  | some ⟨registers, ins, outs, _, insns⟩ =>
    s!"regs={registers} ins={ins} outs={outs} insns=" ++ toString insns.length

def numberedLine (index : Nat) (text : String) : String :=
  "  [" ++ Text.decimal 4 index ++ "] " ++ text

namespace Tables

def fieldLine (tables : Tables) (field : FieldEntry) : String :=
  "    field " ++ tables.stringText field.name ++ ":" ++ tables.typeText field.type
    ++ " " ++ flagsText field.accessFlags

def methodLine (tables : Tables) (method : MethodEntry) : String :=
  "    method " ++ tables.stringText method.name ++ tables.stringText method.proto
    ++ " " ++ flagsText method.accessFlags ++ " " ++ codeText method.code

def classLines (tables : Tables) (entry : ClassEntry) : List String :=
  ("  class " ++ tables.typeText entry.type ++ " " ++ flagsText entry.accessFlags
      ++ " super=" ++ tables.typeText entry.superclass)
    :: (entry.interfaces.map fun index => "    implements " ++ tables.typeText index)
    ++ entry.fields.map tables.fieldLine ++ entry.methods.map tables.methodLine

def stringLines (tables : Tables) : List String :=
  tables.strings.toList.zipIdx.map fun (text, index) => numberedLine index (Text.quoted text)

def typeLines (tables : Tables) : List String :=
  tables.types.toList.zipIdx.map fun (descriptor, index) =>
    numberedLine index (tables.stringText descriptor)

def lines (tables : Tables) : List String :=
  ("dialect: " ++ tables.dialect.display)
    :: ("strings (" ++ toString tables.strings.size ++ "):") :: tables.stringLines
    ++ ("types (" ++ toString tables.types.size ++ "):") :: tables.typeLines
    ++ ("classes (" ++ toString tables.classes.length ++ "):")
      :: tables.classes.flatMap tables.classLines

/-- Every line ends with a line feed. -/
def describe (tables : Tables) : String :=
  String.join (tables.lines.map fun line => line ++ "\n")

end Tables

end LiveDex.Container
