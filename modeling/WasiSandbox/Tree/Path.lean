import WasiSandbox.Text.Quoted

/-! # Paths

A path names a node by the names on the way down to it, with `/` between them and perhaps one `/` in
front. Every name is taken literally: there is no parent or self reference, and names that differ in
case differ. The path `/` alone names the root. A path that is empty or holds an empty name is
malformed. -/

namespace WasiSandbox

/-- Why an operation on the file tree fails. -/
inductive FsError where
  /-- The path is empty or holds an empty name. -/
  | malformedPath (path : String)
  /-- A file stands where the path needs a directory. -/
  | notADirectory (path : String)
  /-- A directory stands where the path needs a file. -/
  | isADirectory (path : String)
  /-- A directory on the way is missing. -/
  | notFound (path : String)
  /-- The name is taken. -/
  | alreadyExists (path : String)
  /-- The file of this name would outgrow the largest size. -/
  | fileTooLarge (name : String)
  deriving DecidableEq, Repr

/-- The wording of an error. -/
def FsError.message : FsError → String
  | .malformedPath p => "Malformed path: " ++ Text.quoted p
  | .notADirectory p => "Not a directory: " ++ p
  | .isADirectory p => "Is a directory: " ++ p
  | .notFound p => "No such file or directory: " ++ p
  | .alreadyExists p => "Already exists: " ++ p
  | .fileTooLarge n => "File too large: " ++ n

namespace Path

/-- The path without the `/` in front, if it has one. -/
def withoutLeadingSlash : List Char → List Char
  | '/' :: rest => rest
  | path => path

/-- The names in a path that has at least one, or a malformed path. -/
def names (path : String) (rest : List Char) : Except FsError (List String) :=
  let parts := rest.splitOn '/'
  if parts.any List.isEmpty then .error (.malformedPath path)
  else .ok (parts.map String.ofList)

/-- The names on the way from the root to the node. -/
def segments (path : String) : Except FsError (List String) :=
  if path.toList = [] then .error (.malformedPath path)
  else match withoutLeadingSlash path.toList with
    | [] => .ok []
    | rest => names path rest

/-- The path is meant from the root, whatever directory it is used in. -/
def isAbsolute (path : String) : Bool := path.toList.head? == some '/'

/-- The path below a directory, with one `/` between the two. -/
def join (base path : String) : String :=
  if base.toList.getLast? = some '/' then base ++ path else base ++ "/" ++ path

/-- The path from the root through the given names. -/
def ofSegments (names : List String) : String :=
  String.join (names.map ("/" ++ ·))

end Path

end WasiSandbox
