import LiveDex.Container.Layout

/-!
Optimized files: a header with its own magic, where the container starts, how long it is and the
flags it was loaded with, and then the container bytes as they were.
-/
namespace LiveDex.Container.Optimized

def magic : Bytes := [0x64, 0x65, 0x79, 0x0a, 0x30, 0x33, 0x36, 0x00]

def headerLength : Nat := 20

def wrap (flags : UInt32) (container : Bytes) : Bytes :=
  magic ++ lengthWord headerLength ++ lengthWord container.length ++ word32 flags ++ container

/-- The word of four bytes at an offset. -/
def wordAt (bytes : Bytes) (offset : Nat) : Nat :=
  Bytes.toNat .little ((bytes.drop offset).take 4)

/-- The container bytes, if the header is sound and they end where the file ends. -/
def payload? (bytes : Bytes) : Option Bytes :=
  let offset := wordAt bytes magic.length
  let length := wordAt bytes (magic.length + 4)
  if headerLength ≤ bytes.length && bytes.take magic.length = magic && headerLength ≤ offset
      && offset + length = bytes.length then
    some ((bytes.drop offset).take length)
  else none

end LiveDex.Container.Optimized
