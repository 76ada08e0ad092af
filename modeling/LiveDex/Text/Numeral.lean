/-!
Numbers in messages: decimal and lowercase hexadecimal, padded with zeros on the left.
-/
namespace LiveDex.Text

def padLeft (width : Nat) (digits : List Char) : String :=
  String.ofList (List.replicate (width - digits.length) '0' ++ digits)

def decimal (width n : Nat) : String :=
  padLeft width (Nat.toDigits 10 n)

def hex (width n : Nat) : String :=
  padLeft width (Nat.toDigits 16 n)

end LiveDex.Text
