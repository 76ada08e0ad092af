import LiveDex.Bytes
import LiveDex.Path

/-!
Files and directories. A place is the list of names that leads to it from the top, which is
always a directory. Following a path takes one name after the other, and each step must start in
a directory. A file is written as a whole or not at all, and a new file never replaces anything.
-/
namespace LiveDex

inductive Node where
  | file (content : Bytes)
  | directory
  deriving DecidableEq, Repr

structure Volume where
  nodes : List (List String × Node) := []
  deriving DecidableEq, Repr

namespace Volume

inductive Error where
  | notFound
  | alreadyExists
  | notADirectory
  | isADirectory
  | nulInName
  deriving DecidableEq, Repr

def Error.message : Error → String
  | .notFound => "No such file or directory (os error 2)"
  | .alreadyExists => "File exists (os error 17)"
  | .notADirectory => "Not a directory (os error 20)"
  | .isADirectory => "Is a directory (os error 21)"
  | .nulInName => "file name contained an unexpected NUL byte"

def node? (volume : Volume) (place : List String) : Option Node :=
  if place.isEmpty then some .directory else volume.nodes.lookup place

def set (volume : Volume) (place : List String) (node : Node) : Volume :=
  ⟨volume.nodes.filter (fun entry => entry.1 ≠ place) ++ [(place, node)]⟩

/-- Where a name leads from a directory. -/
def step (place : List String) (name : String) : List String :=
  if name = "." then place
  else if name = ".." then place.dropLast
  else place ++ [name]

/-- The place that names lead to; only the last of them may lead to nothing. -/
def walk (volume : Volume) (place : List String) : List String → Except Error (List String)
  | [] => .ok place
  | name :: rest =>
    match volume.node? place with
    | none => .error .notFound
    | some (.file _) => .error .notADirectory
    | some .directory => walk volume (step place name) rest

def locate (volume : Volume) (path : String) : Except Error (List String) :=
  if path.isEmpty then .error .notFound
  else if path.toList.contains (Char.ofNat 0) then .error .nulInName
  else volume.walk [] (Path.names path)

def read (volume : Volume) (path : String) : Except Error Bytes :=
  match volume.locate path with
  | .error e => .error e
  | .ok place =>
    match volume.node? place with
    | none => .error .notFound
    | some .directory => .error .isADirectory
    | some (.file content) =>
      if Path.endsWithSlash path then .error .notADirectory else .ok content

/-- Puts a node where there is none yet. -/
def create (volume : Volume) (path : String) (node : Node) : Except Error Volume :=
  match volume.locate path with
  | .error e => .error e
  | .ok place =>
    match volume.node? place with
    | some _ => .error .alreadyExists
    | none => .ok ⟨volume.nodes ++ [(place, node)]⟩

/-- A path with a slash at its end can only be that of a directory. -/
def createFile (volume : Volume) (path : String) (content : Bytes) : Except Error Volume :=
  match volume.locate path with
  | .error e => .error e
  | .ok _ =>
    if Path.endsWithSlash path then .error .isADirectory else volume.create path (.file content)

def createDirectory (volume : Volume) (path : String) : Except Error Volume :=
  volume.create path .directory

/-- Writes a file, over the one that is there if there is one. -/
def write (volume : Volume) (path : String) (content : Bytes) : Except Error Volume :=
  match volume.locate path with
  | .error e => .error e
  | .ok place =>
    if volume.node? place = some .directory || Path.endsWithSlash path then .error .isADirectory
    else .ok (volume.set place (.file content))

def removeFile (volume : Volume) (path : String) : Except Error Volume :=
  match volume.locate path with
  | .error e => .error e
  | .ok place =>
    match volume.node? place with
    | none => .error .notFound
    | some .directory => .error .isADirectory
    | some (.file _) =>
      if Path.endsWithSlash path then .error .notADirectory
      else .ok ⟨volume.nodes.filter fun entry => entry.1 ≠ place⟩

/-- Names of what is directly in a directory, in the order in which it came there. -/
def list (volume : Volume) (path : String) : Except Error (List String) :=
  match volume.locate path with
  | .error e => .error e
  | .ok place =>
    match volume.node? place with
    | none => .error .notFound
    | some (.file _) => .error .notADirectory
    | some .directory =>
      .ok (volume.nodes.filterMap fun entry =>
        if entry.1.dropLast = place then entry.1.getLast? else none)

def exists? (volume : Volume) (path : String) : Bool :=
  match volume.locate path with
  | .error _ => false
  | .ok place => (volume.node? place).isSome

end Volume

end LiveDex
