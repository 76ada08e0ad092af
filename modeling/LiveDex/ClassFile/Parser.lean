import LiveDex.ClassFile.Basic

/-!
Reading class files. The pool comes first and is checked before anything else is read, so every
later index can be resolved as soon as it is met. `Code` and `SourceFile` attributes are read
again from their own bytes, which they must use up.
-/
namespace LiveDex.ClassFile

def readAttribute (pool : Pool) : Reader Error Attribute := do
  let name ← pool.text (← .word16 .big)
  let length ← .word32 .big
  return ⟨name, ← .take length.toNat⟩

def readAttributes (pool : Pool) : Reader Error (List Attribute) := do
  let count ← .word16 .big
  .times count.toNat (readAttribute pool)

/-- Fails unless the bytes of the attribute are used up. -/
def endAttribute (attr : Attribute) : Reader Error Unit := do
  unless ← .atEnd do
    .fail (.attributeLength attr.name attr.data.length.toUInt32)

def readCode (pool : Pool) (attr : Attribute) : Reader Error Code := do
  let maxStack ← .word16 .big
  let maxLocals ← .word16 .big
  let length ← .word32 .big
  let code ← .take length.toNat
  let exceptionTableLength ← .word16 .big
  let _ ← .take (exceptionTableLength.toNat * 8)
  let _ ← readAttributes pool
  endAttribute attr
  return ⟨maxStack, maxLocals, code, exceptionTableLength⟩

/-- The parts of the first `Code` attribute. -/
def codeOf (pool : Pool) (attributes : List Attribute) : Except Error (Option Code) :=
  match attributes.find? fun attr => attr.name = "Code" with
  | none => .ok none
  | some attr =>
    match (readCode pool attr).run attr.data with
    | .error e => .error e
    | .ok (code, _) => .ok (some code)

def readMember (pool : Pool) : Reader Error Member := do
  let accessFlags ← .word16 .big
  let name ← pool.text (← .word16 .big)
  let descriptor ← pool.text (← .word16 .big)
  let attributes ← readAttributes pool
  let code ← codeOf pool attributes
  return ⟨accessFlags, name, descriptor, code, attributes⟩

def readMembers (pool : Pool) : Reader Error (List Member) := do
  let count ← .word16 .big
  .times count.toNat (readMember pool)

/-- Index 0 stands for no superclass. -/
def readSuperClass (pool : Pool) : Reader Error (Option String) := do
  let index ← .word16 .big
  if index = 0 then return none
  else return some (← pool.className index)

def readInterfaces (pool : Pool) : Reader Error (List String) := do
  let count ← .word16 .big
  .times count.toNat do pool.className (← .word16 .big)

def readSourceFile (pool : Pool) (attr : Attribute) : Reader Error String := do
  let index ← .word16 .big
  endAttribute attr
  pool.text index

/-- Every `SourceFile` attribute is read and the last one counts. -/
def sourceFileFrom (pool : Pool) (last : Option String) :
    List Attribute → Except Error (Option String)
  | [] => .ok last
  | attr :: rest =>
    if attr.name = "SourceFile" then
      match (readSourceFile pool attr).run attr.data with
      | .error e => .error e
      | .ok (name, _) => sourceFileFrom pool (some name) rest
    else sourceFileFrom pool last rest

def read : Reader Error ClassFile := do
  let found ← .word32 .big
  if found ≠ magic then .fail (.invalidMagic found)
  let minorVersion ← .word16 .big
  let majorVersion ← .word16 .big
  let pool ← Pool.read
  pool.checkReferences
  let accessFlags ← .word16 .big
  let thisClass ← pool.className (← .word16 .big)
  let superClass ← readSuperClass pool
  let interfaces ← readInterfaces pool
  let fields ← readMembers pool
  let methods ← readMembers pool
  let attributes ← readAttributes pool
  let sourceFile ← sourceFileFrom pool none attributes
  unless ← .atEnd do
    .fail (.trailingBytes (← .offset))
  return {
    minorVersion, majorVersion, pool, accessFlags, thisClass, superClass, interfaces, fields,
    methods, sourceFile, attributes }

def parse (bytes : Bytes) : Except Error ClassFile :=
  match read.run bytes with
  | .error e => .error e
  | .ok (file, _) => .ok file

end LiveDex.ClassFile
