/-!
Type descriptors and method descriptors. A type descriptor is a base type behind at most 255
brackets, where `V` takes none. A method descriptor lists parameter types in parentheses and
ends with the return type; its parameters take one register each, and two for `J` and `D`.
-/
namespace LiveDex.Descriptor

def primitives : List Char := ['Z', 'B', 'S', 'C', 'I', 'J', 'F', 'D']

def maxDimensions : Nat := 255

/-- Names between `L` and `;`: not empty, without `;` and `.`, and no slash at either end. -/
def isClassPath (name : List Char) : Bool :=
  !name.isEmpty && !name.contains ';' && !name.contains '.'
    && name.head? != some '/' && name.getLast? != some '/'

def isBaseType : List Char → Bool
  | [c] => primitives.contains c
  | 'L' :: rest => rest.getLast? == some ';' && isClassPath rest.dropLast
  | _ => false

def isType (chars : List Char) : Bool :=
  let base := chars.dropWhile (· == '[')
  chars == ['V'] || (chars.length - base.length ≤ maxDimensions && isBaseType base)

def isTypeDescriptor (text : String) : Bool :=
  isType text.toList

/-- Types that a field or a parameter may have. -/
def isValueType (chars : List Char) : Bool :=
  chars != ['V'] && isType chars

/-- Cuts a parameter list behind each base type. The piece under way is in `piece` and the
finished ones in `done`, both newest first; inside a class name only `;` ends the piece. -/
def piecesFrom (inClass : Bool) (piece : List Char) (done : List (List Char)) :
    List Char → Option (List (List Char))
  | [] => if piece.isEmpty then some done.reverse else none
  | c :: rest =>
    if c = '[' && !inClass then piecesFrom false (c :: piece) done rest
    else if c = 'L' && !inClass then piecesFrom true (c :: piece) done rest
    else if c = ';' || !inClass then piecesFrom false [] ((c :: piece).reverse :: done) rest
    else piecesFrom true (c :: piece) done rest

def pieces? (params : List Char) : Option (List (List Char)) :=
  piecesFrom false [] [] params

/-- Registers of one parameter. -/
def width (type : List Char) : Nat :=
  if type = ['J'] || type = ['D'] then 2 else 1

/-- Parameter types of a method descriptor, or nothing if it is malformed. -/
def parameters? (text : String) : Option (List (List Char)) :=
  match text.toList with
  | '(' :: rest =>
    match rest.dropWhile (· != ')') with
    | _ :: returned =>
      if isType returned then
        match pieces? (rest.takeWhile (· != ')')) with
        | some types => if types.all isValueType then some types else none
        | none => none
      else none
    | [] => none
  | _ => none

def totalWidth : List (List Char) → Nat
  | [] => 0
  | type :: rest => width type + totalWidth rest

/-- Registers taken by the declared parameters, if a word of two bytes can hold their number. -/
def parameterRegisters? (text : String) : Option UInt16 :=
  match parameters? text with
  | some types =>
    let total := totalWidth types
    if total < 65536 then some total.toUInt16 else none
  | none => none

end LiveDex.Descriptor
