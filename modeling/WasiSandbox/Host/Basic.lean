import WasiSandbox.Descriptor.Basic
import WasiSandbox.Output.Journal
import WasiSandbox.Abi.Errno
import WasiSandbox.Tree.Create

/-! # The state of a host

What one guest can reach through its imports, and nothing that two guests share: the file tree, the
table of descriptors, the journal, and the clocks and random octets of the surroundings. Operations
run on the host as on a state; what a failing operation has changed by then stays changed. Others than
the guest may have handles on nodes of the tree, and take and drop them at any time; what they keep is
alive even when it is in the tree no more. -/

namespace WasiSandbox

/-- What the host takes from its surroundings: readings of the clocks in nanoseconds, of which a
failed one is `none`, and random octets, from a source that may fail in the place of any of them. The
two counts say how much was taken. -/
structure Surroundings where
  clock : ClockId → Nat → Option UInt64
  readings : Nat
  random : Nat → UInt8
  drawn : Nat
  randomFails : Nat → Bool := fun _ => false

/-- Surroundings in which no clock can be read, and no random octet be had. -/
def Surroundings.silent : Surroundings := ⟨fun _ _ => none, 0, fun _ => 0, 0, fun _ => true⟩

/-- The state of a host. -/
structure Host where
  tree : FileTree
  table : DescriptorTable
  journal : Journal
  surroundings : Surroundings
  /-- The nodes that others have handles on, each as often as there are such handles. -/
  kept : List NodeId

/-- An operation on the host that may answer with an error number. -/
abbrev HostM := EStateM SysFailure Host

namespace Host

/-- A host on the tree, with nothing open but what is there from the start. -/
def new (tree : FileTree) (stdin : Bytes) (surroundings : Surroundings) : Host :=
  ⟨tree, .new tree.root stdin, [], surroundings, []⟩

def fail {α : Type} (e : Errno) : HostM α := throw (.reported e)

/-- A checked step as an operation on the host. -/
def ofChecked {α : Type} (c : Checked α) : HostM α :=
  match c with
  | .ok a => pure a
  | .error d => throw (.defect d)

/-- An operation on the tree as one on the host. -/
def onTree {α : Type} (op : TreeM α) : HostM α := fun h =>
  match op h.tree with
  | .ok a t => .ok a { h with tree := t }
  | .error e t => .error (e.map FsError.errno) { h with tree := t }

/-- Somebody else takes a handle on the node at the path, if there is one. -/
def keep (h : Host) (path : String) : Host :=
  match h.tree.lookup path with
  | some n => { h with tree := h.tree.acquire n, kept := n :: h.kept }
  | none => h

/-- Somebody else drops a handle on the node, if there is one. -/
def letGo (h : Host) (n : NodeId) : Host :=
  if n ∈ h.kept then { h with tree := h.tree.drop n, kept := h.kept.erase n } else h

/-- Adds an entry to the journal. -/
def note (e : Event) : HostM Unit := modify fun h => { h with journal := h.journal ++ [e] }

/-- The host with the texts handed on and the table after it. -/
def handOn (h : Host) (channel : Channel) (texts : List String) (table : DescriptorTable) : Host :=
  { h with table := table, journal := h.journal ++ texts.map (.output channel) }

end Host

end WasiSandbox
