import WasiSandbox.Checked

/-! # The files of the surroundings

The files and directories that lie outside the sandbox, as far as a run can see them: those at and
below its working directory. A path is followed name by name, with `.` and `..` for the same and the
upper directory. Of what lies elsewhere nothing is known but that the directories above exist. -/

namespace WasiSandbox

/-- Why a file outside cannot be read or written. -/
inductive OutsideError where
  | notFound
  | notADirectory
  | isADirectory
  | nameTooLong
  | nulInName
  /-- Another error, in the words of the surroundings. -/
  | other (text : String)
  deriving DecidableEq, Repr

def OutsideError.message : OutsideError → String
  | notFound => "No such file or directory (os error 2)"
  | notADirectory => "Not a directory (os error 20)"
  | isADirectory => "Is a directory (os error 21)"
  | nameTooLong => "File name too long (os error 36)"
  | nulInName => "file name contained an unexpected NUL byte"
  | other text => text

/-- Where a path has led so far. -/
inductive Place where
  /-- At or below the working directory, through these names. -/
  | within (names : List String)
  /-- So many directories above the working directory. -/
  | above (levels : Nat)
  /-- At the top of everything. -/
  | top
  deriving DecidableEq, Repr

/-- The files and directories below the working directory, by their names from there. -/
structure OutsideFiles where
  directories : List (List String)
  files : List (List String × Bytes)
  deriving Repr

namespace OutsideFiles

/-- The names in a path, empty ones among them. -/
def parts (path : String) : List String := (path.toList.splitOn '/').map String.ofList

def isDirectory (o : OutsideFiles) (names : List String) : Bool :=
  names.isEmpty || o.directories.contains names

/-- One step of a path from a place that has to be a directory. -/
def step (o : OutsideFiles) (place : Place) (name : String) : Except OutsideError Place :=
  match place with
  | .within names =>
    if !o.isDirectory names then .error .notADirectory
    else if name = "" || name = "." then .ok place
    else if name = ".." then
      .ok (if names.isEmpty then .above 1 else .within names.dropLast)
    else if 255 < name.utf8ByteSize then .error .nameTooLong
    else
      let names := names ++ [name]
      if o.isDirectory names || (o.files.lookup names).isSome then .ok (.within names)
      else .error .notFound
  | .above n =>
    if name = "" || name = "." then .ok place
    else if name = ".." then .ok (.above (n + 1))
    else .error .notFound
  | .top => if name = "" || name = "." || name = ".." then .ok place else .error .notFound

/-- Follows the path to its end. -/
def resolve (o : OutsideFiles) (path : String) : Except OutsideError Place :=
  if path.toList.contains '\x00' then .error .nulInName
  else if path = "" then .error .notFound
  else if path.toList.head? = some '/' then (parts path).foldlM o.step .top
  else (parts path).foldlM o.step (.within [])

/-- The content of the file at the path. -/
def read (o : OutsideFiles) (path : String) : Except OutsideError Bytes := do
  match ← o.resolve path with
  | .within names =>
    match o.files.lookup names with
    | some content => return content
    | none => throw .isADirectory
  | _ => throw .isADirectory

/-- Puts a file below the working directory. -/
def put (o : OutsideFiles) (names : List String) (content : Bytes) : OutsideFiles :=
  { o with files := (names, content) :: o.files.filter (·.1 != names) }

/-- Writes a file that does not exist yet in a directory that does. Above the working directory it
is out of sight afterwards. -/
def writeNew (o : OutsideFiles) (path : String) (content : Bytes) :
    Except OutsideError OutsideFiles := do
  let all := parts path
  let names := (all.reverse.dropWhile (· = "")).reverse
  match names.getLast? with
  | none => throw .notFound
  | some name =>
    let top := path.toList.head? = some '/'
    match ← names.dropLast.foldlM o.step (if top then .top else .within []) with
    | .within dir =>
      if !o.isDirectory dir then throw .notADirectory
      else if names.length < all.length then throw .isADirectory
      else return o.put (dir ++ [name]) content
    | .above _ => if names.length < all.length then throw .isADirectory else return o
    | .top => throw .notFound

/-- Writes the file at the path, which may be new in a directory that exists. -/
def write (o : OutsideFiles) (path : String) (content : Bytes) :
    Except OutsideError OutsideFiles :=
  match o.resolve path with
  | .ok (.within names) =>
    if o.isDirectory names then .error .isADirectory else .ok (o.put names content)
  | .ok _ => .error .isADirectory
  | .error .notFound => o.writeNew path content
  | .error e => .error e

end OutsideFiles

end WasiSandbox
