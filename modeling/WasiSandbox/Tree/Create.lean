import WasiSandbox.Tree.Basic

/-! # Making and changing nodes

Every operation that changes the tree runs on it as on a state: a failing operation leaves whatever
it has changed by then. Files can be added with all missing directories on their way, or made, like
single directories, where the directory above already exists. A file that is added under the name of
another takes its place; the other one stays in the list of nodes without a parent, and is alive
as long as others have handles on it. -/

namespace WasiSandbox

/-- An operation on the file tree. -/
abbrev TreeM := EStateM (Failure FsError) FileTree

namespace FileTree

/-- Fails with an error of the tree. -/
def fail {α : Type} (e : FsError) : TreeM α := throw (.reported e)

/-- The names in the path, or its error. -/
def parse (path : String) : TreeM (List String) :=
  match Path.segments path with
  | .ok names => pure names
  | .error e => fail e

/-! ### Children -/

/-- A new node in the directory, which has a handle on it. -/
def create (dir : NodeId) (name : String) (body : NodeBody) : TreeM NodeId :=
  modifyGet fun t => (t.nodes.length,
    { t with nodes := t.nodes ++ [⟨name, some dir, body⟩], strong := t.strong ++ [1] })

/-- Takes the node out of the directory that lists it, which drops its handle on the node. -/
def detach (n : NodeId) : TreeM Unit :=
  modify fun t =>
    let unlisted : FileTree :=
      { t with nodes := t.nodes.modify n fun m => { m with parent := none } }
    unlisted.drop n

/-- The child directory of that name, made if there is none. -/
def ensureDirectory (path : String) (dir : NodeId) (name : String) : TreeM NodeId := do
  let t ← get
  match t.child? dir name with
  | some n => if t.isDirectory n then pure n else fail (.notADirectory path)
  | none => create dir name .directory

/-- A new file in the directory, in place of the file of that name if there is one. -/
def putFile (path : String) (dir : NodeId) (name : String) (content : Bytes) : TreeM NodeId := do
  let t ← get
  match t.child? dir name with
  | some n =>
    if t.isDirectory n then fail (.isADirectory path)
    else
      detach n
      create dir name (.file content)
  | none => create dir name (.file content)

/-- A new node in the directory, if the name is free. -/
def insertNew (path : String) (dir : NodeId) (name : String) (body : NodeBody) : TreeM NodeId := do
  if ((← get).child? dir name).isSome then fail (.alreadyExists path)
  else create dir name body

/-- The child directory of that name, which has to exist. -/
def requireDirectory (path : String) (dir : NodeId) (name : String) : TreeM NodeId := do
  let t ← get
  match t.child? dir name with
  | some n => if t.isDirectory n then pure n else fail (.notADirectory path)
  | none => fail (.notFound path)

/-! ### By path -/

/-- Adds or replaces the file at the path, with all missing directories above it. -/
def addFile (path : String) (content : Bytes) : TreeM NodeId := do
  let names ← parse path
  match names.getLast? with
  | none => fail (.isADirectory path)
  | some name =>
    let dir ← names.dropLast.foldlM (ensureDirectory path) (← get).root
    putFile path dir name content

/-- The directory at the path, with all missing directories on the way. -/
def createDirectories (path : String) : TreeM NodeId := do
  let names ← parse path
  names.foldlM (ensureDirectory path) (← get).root

/-- A new node at the path, in a directory that exists and has the name free. -/
def createAt (path : String) (body : NodeBody) : TreeM NodeId := do
  let names ← parse path
  match names.getLast? with
  | none => fail (.alreadyExists path)
  | some name =>
    let dir ← names.dropLast.foldlM (requireDirectory path) (← get).root
    insertNew path dir name body

/-- A new directory at the path. -/
def createDirectory (path : String) : TreeM NodeId := createAt path .directory

/-- A new empty file at the path. -/
def createFile (path : String) : TreeM NodeId := createAt path (.file [])

/-! ### Through a node -/

/-- Replaces the content of a file. -/
def setContent (n : NodeId) (content : Bytes) : TreeM Unit :=
  modify fun t => { t with nodes := t.nodes.modify n fun m => { m with body := .file content } }

/-- Runs an operation on the content of a file and keeps the new content; a directory is left alone
and answers `none`. -/
def updateContent {α : Type} (n : NodeId)
    (f : String → Bytes → Except (Failure FsError) (α × Bytes)) : TreeM (Option α) := do
  match (← get).file? n with
  | none => pure none
  | some (name, content) =>
    match f name content with
    | .error e => throw e
    | .ok (a, content) =>
      setContent n content
      pure (some a)

/-- Writes at an offset: how many octets were written. -/
def writeAt (n : NodeId) (offset : Nat) (data : Bytes) : TreeM (Option Nat) :=
  updateContent n fun name content =>
    (Content.overwrite name content offset data).map (data.length, ·)

/-- Writes at the end: the new length. -/
def append (n : NodeId) (data : Bytes) : TreeM (Option Nat) :=
  updateContent n fun name content => Content.append name content data

/-- Cuts or pads with zeros. -/
def setLength (n : NodeId) (length : Nat) : TreeM (Option Unit) :=
  updateContent n fun name content => (Content.setLength name content length).map ((), ·)

/-! ### From a list of files -/

/-- A fresh root in the same list of nodes, with nothing below it. The handle on the root that there was
is not dropped yet. -/
def replant (t : FileTree) : FileTree where
  nodes := t.nodes ++ [⟨"", none, .directory⟩]
  root := t.nodes.length
  strong := t.strong ++ [1]

/-- Adds files in order, up to the first failure. -/
def addFiles (files : List (String × Bytes)) : TreeM Unit :=
  files.forM fun f => discard (addFile f.1 f.2)

/-- Builds a tree from the files and puts it in place of the current one, whose handle on its root is
dropped; on a failure the current one stays. -/
def replaceWith (files : List (String × Bytes)) : TreeM Unit := fun t =>
  match addFiles files t.replant with
  | .ok _ grown => .ok () (grown.drop t.root)
  | .error e _ => .error e t

end FileTree

end WasiSandbox
