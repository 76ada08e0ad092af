import LiveDex.Text.Utf8

/-!
Container dialects, oldest first. A dialect is chosen by the API level of the runtime that will
load the container: the newest one whose minimum the level reaches, and the baseline for levels
below all minima.
-/
namespace LiveDex

inductive Dialect where
  | v035
  | v037
  | v038
  | v039
  deriving DecidableEq, Repr

namespace Dialect

def all : List Dialect := [.v035, .v037, .v038, .v039]

/-- The dialect that every deployed runtime accepts. -/
def baseline : Dialect := .v035

def label : Dialect → String
  | .v035 => "035"
  | .v037 => "037"
  | .v038 => "038"
  | .v039 => "039"

def display (d : Dialect) : String :=
  "dex " ++ d.label

def versionBytes : Dialect → Bytes
  | .v035 => [0x30, 0x33, 0x35, 0x00]
  | .v037 => [0x30, 0x33, 0x37, 0x00]
  | .v038 => [0x30, 0x33, 0x38, 0x00]
  | .v039 => [0x30, 0x33, 0x39, 0x00]

def ofVersionBytes? (bytes : Bytes) : Option Dialect :=
  all.find? fun d => d.versionBytes = bytes

/-- The first four bytes of every container. -/
def containerMark : Bytes := [0x64, 0x65, 0x78, 0x0a]

def magic (d : Dialect) : Bytes :=
  containerMark ++ d.versionBytes

def minApiLevel : Dialect → UInt32
  | .v035 => 1
  | .v037 => 24
  | .v038 => 26
  | .v039 => 28

def ofApiLevel (level : UInt32) : Dialect :=
  (all.reverse.find? fun d => d.minApiLevel ≤ level).getD baseline

def hasDefaultMethods : Dialect → Bool
  | .v035 => false
  | .v037 | .v038 | .v039 => true

def hasInvokeDynamic : Dialect → Bool
  | .v035 | .v037 => false
  | .v038 | .v039 => true

end Dialect

end LiveDex
