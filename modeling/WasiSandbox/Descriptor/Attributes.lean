import WasiSandbox.Abi.Records
import WasiSandbox.Descriptor.Open

/-! # Attributes of descriptors and paths

What a guest can learn about a handle or a path without a transfer, and the one attribute that it can
set, the flags of a descriptor. -/

namespace WasiSandbox.Host

/-- The type and size behind a handle; a stream has no size. -/
def filestat (fd : Nat) : HostM Filestat := do
  let d ← descriptor fd
  let size ← match d.target with
    | .file _ n | .directory _ n _ => do
      requireAlive n
      pure ((← get).tree.size n)
    | _ => pure 0
  return ⟨d.target.filetype, size⟩

/-- The type and size behind a path. -/
def pathFilestat (dirfd : Nat) (path : String) : HostM Filestat := do
  let full ← resolve dirfd path
  let t := (← get).tree
  match t.lookup full with
  | some n => return ⟨if t.isDirectory n then .directory else .regularFile, t.size n⟩
  | none => fail .noent

/-- The type, flags and rights of a handle. -/
def fdstat (fd : Nat) : HostM Fdstat := do
  let d ← descriptor fd
  return ⟨d.target.filetype, d.flags, d.rights, d.inheriting⟩

/-- Sets the flags of a handle. -/
def setFlags (fd : Nat) (flags : DescriptorFlags) : HostM Unit := do
  let d ← descriptor fd
  setDescriptor fd { d with flags := flags }

/-- The path of a directory that was open from the start. -/
def prestat (fd : Nat) : HostM String := do
  match (← descriptor fd).target with
  | .directory path _ true => return path
  | _ => fail .badf

/-- The names and kinds of the children of a directory. -/
def readDirectory (fd : Nat) : HostM (List (String × NodeKind)) := do
  match (← descriptor fd).target with
  | .directory _ n _ =>
    requireAlive n
    let t := (← get).tree
    if t.isDirectory n then return t.entries n else fail .notdir
  | _ => fail .notdir

end WasiSandbox.Host
