/-!
Paths as texts with slashes. An absolute path is made without looking at any file: components
`.` and doubled slashes go away, while `..`, a slash at the end and exactly two slashes at the
start stay.
-/
namespace LiveDex.Path

/-- Parts between slashes; the part under way is in `part` and the finished ones in `done`, both
newest first. -/
def partsFrom (part : List Char) (done : List String) : List Char → List String
  | [] => ((String.ofList part.reverse) :: done).reverse
  | c :: rest =>
    if c = '/' then partsFrom [] (String.ofList part.reverse :: done) rest
    else partsFrom (c :: part) done rest

/-- Parts that are not empty. -/
def names (path : String) : List String :=
  (partsFrom [] [] path.toList).filter fun part => part ≠ ""

/-- Parts that lead somewhere: neither empty nor `.`. -/
def components (path : String) : List String :=
  (names path).filter fun name => name ≠ "."

def isAbsolute (path : String) : Bool :=
  path.toList.head? = some '/'

def endsWithSlash (path : String) : Bool :=
  path.toList.getLast? = some '/'

/-- Puts a name behind a path, with one slash between them. -/
def push (path name : String) : String :=
  if endsWithSlash path then path ++ name else path ++ "/" ++ name

/-- A path taken from the directory `base`. -/
def join (base path : String) : String :=
  if isAbsolute path then path else push base path

/-- What an absolute path starts with. -/
def start (current path : String) : String :=
  match path.toList with
  | '/' :: '/' :: '/' :: _ => "/"
  | '/' :: '/' :: _ => "//"
  | '/' :: _ => "/"
  | _ => current

/-- The absolute form of a path, where relative ones are taken from the directory `current`; the
empty path has none. -/
def absolute? (current path : String) : Option String :=
  if path.isEmpty then none
  else
    let first := start current path
    let behind := components path
    let body := if behind.isEmpty then first else push first ("/".intercalate behind)
    some (if endsWithSlash path then push body "" else body)

end LiveDex.Path
