import WasiSandbox.Host.Basic

/-! # Opening and closing

A path is opened relative to a directory that is open. A path from the root is taken as it stands, and
a single dot names the directory itself; any other path is put behind the path that the directory was
opened by. -/

namespace WasiSandbox.Host

/-! ### Single descriptors -/

/-- The descriptor of an open handle. -/
def descriptor (fd : Nat) : HostM Descriptor := do
  match (← get).table.get? fd with
  | some d => pure d
  | none => fail .badf

/-- Replaces the descriptor of a handle. -/
def setDescriptor (fd : Nat) (d : Descriptor) : HostM Unit :=
  modify fun h => { h with table := h.table.put fd d }

/-- Fails unless the node is still alive. -/
def requireAlive (n : NodeId) : HostM Unit := do
  if (← get).tree.alive n then pure () else fail .badf

/-- Fails unless the descriptor has the right. -/
def requireRight (d : Descriptor) (right : Rights) : HostM Unit :=
  if d.rights.contains right then pure () else fail .notcapable

/-- Gives out the lowest free handle. -/
def insert (d : Descriptor) : HostM Nat := do
  let fd := (← get).table.lowestFree
  if UInt32.size ≤ fd then ofChecked (.error .overflow)
  else
    setDescriptor fd d
    return fd

/-! ### Paths -/

/-- The path from the root that the path stands for, relative to an open directory. -/
def resolve (dirfd : Nat) (path : String) : HostM String := do
  match (← descriptor dirfd).target with
  | .directory base _ _ =>
    if path = "" then fail .noent
    else if Path.isAbsolute path then return path
    else if path = "." then return base
    else return Path.join base path
  | _ => fail .notdir

/-- The node at the path, made as an empty file if it is missing and the flags say so. -/
def nodeToOpen (full : String) (flags : OpenFlags) : HostM NodeId := do
  match (← get).tree.lookup full with
  | some n => if flags.creates && flags.exclusive then fail .exist else return n
  | none => if flags.creates then onTree (FileTree.createFile full) else fail .noent

/-- What a descriptor on the node refers to; a file is emptied if the flags say so. -/
def targetToOpen (full : String) (n : NodeId) (flags : OpenFlags) : HostM DescriptorTarget := do
  if (← get).tree.isDirectory n then
    if flags.truncates then fail .isdir else return .directory full n false
  else if flags.wantsDirectory then fail .notdir
  else if flags.truncates then
    let _ ← onTree (FileTree.setLength n 0)
    return .file full n
  else return .file full n

/-- Opens the path: the new handle. -/
def openPath (dirfd : Nat) (path : String) (flags : OpenFlags) (rights inheriting : Rights)
    (descriptorFlags : DescriptorFlags) : HostM Nat := do
  let full ← resolve dirfd path
  let n ← nodeToOpen full flags
  let target ← targetToOpen full n flags
  insert ⟨target, 0, rights, inheriting, descriptorFlags⟩

/-- Closes an open handle. -/
def close (fd : Nat) : HostM Unit := do
  let _ ← descriptor fd
  modify fun h => { h with table := h.table.clear fd }

/-- Makes a directory. -/
def makeDirectory (dirfd : Nat) (path : String) : HostM Unit := do
  let full ← resolve dirfd path
  let _ ← onTree (FileTree.createDirectory full)

end WasiSandbox.Host
