import LiveDex.Text.Utf8

/-!
The text form of class files. A byte string that is UTF-8 as a whole is taken as it is. Any
other one must be in the modified form from its first byte on: NUL is `C0 80`, characters up to
U+FFFF are as in UTF-8, and a character above them is a pair of surrogates of three bytes each.
-/
namespace LiveDex.Text.ModifiedUtf8

def isContinuation (b : UInt8) : Bool :=
  0x80 ≤ b && b ≤ 0xbf

/-- The six low bits of a continuation byte. -/
def payload (b : UInt8) : Nat :=
  b.toNat % 64

/-- Second bytes of a three-byte character that is neither overlong nor a surrogate. -/
def isSecondOfThree (first second : UInt8) : Bool :=
  if first = 0xe0 then 0xa0 ≤ second && second ≤ 0xbf
  else if first = 0xed then 0x80 ≤ second && second ≤ 0x9f
  else isContinuation second

/-- Second byte of a surrogate that opens a pair. -/
def isHighSurrogate (first second : UInt8) : Bool :=
  first = 0xed && 0xa0 ≤ second && second ≤ 0xaf

def pairChar (b₂ b₃ b₅ b₆ : UInt8) : Char :=
  let high := (payload b₂ - 0x20) * 64 + payload b₃
  let low := (payload b₅ - 0x30) * 64 + payload b₆
  Char.ofNat (0x10000 + high * 1024 + low)

def nul? : Bytes → Option (Char × Bytes)
  | b₂ :: rest => if b₂ = 0x80 then some (Char.ofNat 0, rest) else none
  | [] => none

def twoByte? (b₁ : UInt8) : Bytes → Option (Char × Bytes)
  | b₂ :: rest =>
    if isContinuation b₂ then some (Char.ofNat (b₁.toNat % 32 * 64 + payload b₂), rest) else none
  | [] => none

/-- The low surrogate that must follow a high one. -/
def pair? (b₂ b₃ : UInt8) : Bytes → Option (Char × Bytes)
  | b₄ :: b₅ :: b₆ :: rest =>
    if b₄ = 0xed && 0xb0 ≤ b₅ && b₅ ≤ 0xbf && isContinuation b₆ then
      some (pairChar b₂ b₃ b₅ b₆, rest)
    else none
  | _ => none

def threeByte? (b₁ : UInt8) : Bytes → Option (Char × Bytes)
  | b₂ :: b₃ :: rest =>
    if !isContinuation b₃ then none
    else if isSecondOfThree b₁ b₂ then
      some (Char.ofNat (b₁.toNat % 16 * 4096 + payload b₂ * 64 + payload b₃), rest)
    else if isHighSurrogate b₁ b₂ then pair? b₂ b₃ rest
    else none
  | _ => none

/-- The first character of the modified form and the bytes behind it. -/
def char? : Bytes → Option (Char × Bytes)
  | [] => none
  | b :: rest =>
    if 0x01 ≤ b && b ≤ 0x7f then some (Char.ofNat b.toNat, rest)
    else if b = 0xc0 then nul? rest
    else if 0xc2 ≤ b && b ≤ 0xdf then twoByte? b rest
    else if 0xe0 ≤ b && b ≤ 0xef then threeByte? b rest
    else none

/-- At most `n` more characters; those read so far are in `acc`, newest first. -/
def decodeFrom : Nat → List Char → Bytes → Option (List Char)
  | _, acc, [] => some acc.reverse
  | 0, _, _ :: _ => none
  | n + 1, acc, b :: rest =>
    match char? (b :: rest) with
    | none => none
    | some (c, behind) => decodeFrom n (c :: acc) behind

/-- Each character takes a byte at least, so as many steps as bytes are enough. -/
def decode? (bytes : Bytes) : Option (List Char) :=
  decodeFrom bytes.length [] bytes

end ModifiedUtf8

/-- The text of a byte string in class-file form. -/
def ofClassFileBytes? (bytes : Bytes) : Option String :=
  match ofUtf8? bytes with
  | some s => some s
  | none => (ModifiedUtf8.decode? bytes).map String.ofList

end LiveDex.Text
