import WasiSandbox.Abi.Codes
import WasiSandbox.Output.Stream

/-! # Descriptors

A descriptor is what a handle of the guest stands for: one of the three standard streams, or a file
or directory that was opened by its path. A descriptor on a node does not keep the node alive. The
table has a slot for each handle, and the first four are given out in advance: the standard streams
and the root directory. A new handle is the lowest one from four on whose slot is free. -/

namespace WasiSandbox

/-- What a descriptor refers to. -/
inductive DescriptorTarget where
  | stdin
  | stdout
  | stderr
  /-- A directory under the path it was opened by; `preopen` if it was there from the start. -/
  | directory (path : String) (node : NodeId) (preopen : Bool)
  /-- A file under the path it was opened by. -/
  | file (path : String) (node : NodeId)
  deriving DecidableEq, Repr

def DescriptorTarget.filetype : DescriptorTarget → Filetype
  | stdin | stdout | stderr => .characterDevice
  | directory .. => .directory
  | file .. => .regularFile

/-- An open handle. -/
structure Descriptor where
  target : DescriptorTarget
  /-- Where the next transfer starts. -/
  cursor : Nat
  rights : Rights
  /-- The rights that the guest has asked to pass on. -/
  inheriting : Rights
  flags : DescriptorFlags
  deriving DecidableEq, Repr

/-- A descriptor on a standard stream. -/
def Descriptor.ofStream (target : DescriptorTarget) (rights : Rights) : Descriptor :=
  ⟨target, 0, rights, .none, ⟨0⟩⟩

/-- The descriptor on the root directory. -/
def Descriptor.ofRoot (root : NodeId) : Descriptor :=
  ⟨.directory "/" root true, 0, .all, .all, ⟨0⟩⟩

/-- All handles, and the standard streams behind the first three. -/
structure DescriptorTable where
  slots : List (Option Descriptor)
  stdin : Bytes
  stdout : OutputStream
  stderr : OutputStream
  deriving DecidableEq, Repr

namespace DescriptorTable

/-- The lowest handle that is ever given out anew. -/
def firstHandle : Nat := 4

/-- The table with nothing open but the standard streams and the root directory. Standard error keeps
a transcript. -/
def new (root : NodeId) (stdin : Bytes) : DescriptorTable where
  slots := [
    some (.ofStream .stdin (Rights.fdRead.union .pollFdReadwrite)),
    some (.ofStream .stdout (Rights.fdWrite.union .pollFdReadwrite)),
    some (.ofStream .stderr (Rights.fdWrite.union .pollFdReadwrite)),
    some (.ofRoot root)]
  stdin := stdin
  stdout := .plain
  stderr := .capturing

/-- The descriptor that the handle stands for. -/
def get? (t : DescriptorTable) (fd : Nat) : Option Descriptor := (t.slots[fd]?).join

/-- The number of open handles. -/
def size (t : DescriptorTable) : Nat := t.slots.countP (·.isSome)

/-- The open handles in order. -/
def handles (t : DescriptorTable) : List Nat :=
  (List.range t.slots.length).filter fun fd => (t.get? fd).isSome

/-- The lowest free handle that may be given out. -/
def lowestFree (t : DescriptorTable) : Nat :=
  firstHandle + (t.slots.drop firstHandle).findIdx (·.isNone)

/-- Puts the descriptor into the slot of the handle. -/
def put (t : DescriptorTable) (fd : Nat) (d : Descriptor) : DescriptorTable :=
  { t with slots :=
      (t.slots ++ List.replicate (fd + 1 - t.slots.length) none).set fd (some d) }

/-- Frees the slot of the handle. -/
def clear (t : DescriptorTable) (fd : Nat) : DescriptorTable :=
  { t with slots := t.slots.set fd none }

end DescriptorTable

end WasiSandbox
