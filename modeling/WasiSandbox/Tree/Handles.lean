import WasiSandbox.Tree.Create

/-! # Handles on nodes

Whoever works with the tree directly keeps nodes in numbered slots. A *held* slot has a handle on its
node, so the node stays alive, with everything below it, whatever happens to the tree; a *watched* node
is only remembered, and can be had back as long as it is alive. -/

namespace WasiSandbox

/-- A tree with two sets of slots. -/
structure Workspace where
  tree : FileTree
  held : List (Nat × NodeId)
  watched : List (Nat × NodeId)
  deriving Repr

namespace Workspace

/-- An empty tree and no handles. -/
def empty : Workspace := ⟨.empty, [], []⟩

/-- The nodes that the held slots keep. -/
def kept (w : Workspace) : List NodeId := w.held.map (·.2)

/-- The slots without the given one. -/
def without (slots : List (Nat × NodeId)) (slot : Nat) : List (Nat × NodeId) :=
  slots.filter (·.1 != slot)

/-- Empties a held slot, and drops its handle: whether it held a node. -/
def release (w : Workspace) (slot : Nat) : Bool × Workspace :=
  match w.held.lookup slot with
  | some n => (true, { w with tree := w.tree.drop n, held := without w.held slot })
  | none => (false, w)

/-- One more handle on a node. -/
def acquire (w : Workspace) (n : NodeId) : Workspace := { w with tree := w.tree.acquire n }

/-- Puts a handle on the node at the path into a held slot: whether there is a node. -/
def hold (w : Workspace) (slot : Nat) (path : String) : Bool × Workspace :=
  match w.tree.lookup path with
  | some n =>
    -- The handle is there before that which the slot has held is dropped.
    let w := ((w.acquire n).release slot).2
    (true, { w with held := (slot, n) :: w.held })
  | none => (false, w)

/-- Puts the node at the path into a watched slot: whether there is one. -/
def watch (w : Workspace) (slot : Nat) (path : String) : Bool × Workspace :=
  match w.tree.lookup path with
  | some n => (true, { w with watched := (slot, n) :: without w.watched slot })
  | none => (false, w)

/-- The node in the held slot. -/
def heldNode? (w : Workspace) (slot : Nat) : Option NodeId := w.held.lookup slot

/-- The node in the watched slot, if it is alive. -/
def upgrade (w : Workspace) (slot : Nat) : Option NodeId :=
  (w.watched.lookup slot).filter w.tree.alive

/-- Runs an operation on the tree. -/
def onTree {α : Type} (w : Workspace) (op : TreeM α) : Except (Failure FsError) α × Workspace :=
  match op w.tree with
  | .ok a t => (.ok a, { w with tree := t })
  | .error e t => (.error e, { w with tree := t })

end Workspace

end WasiSandbox
