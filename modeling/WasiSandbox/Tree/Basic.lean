import WasiSandbox.Text.Utf8
import WasiSandbox.Tree.Content

/-! # The file tree

A tree of directories and files that can grow but never loses a path. The nodes stand in one list, in
the order in which they were made, and a node is referred to by its place in it. Each node knows its
name, the directory that lists it, and what it is; the children of a directory are the nodes that
name it as their parent. A file that another one has replaced, and the root itself, have no parent.

A place in the list stays the same node forever. A node is kept by the handles on it, which are
counted: a directory has one on each of its children, the tree has one on its root, and whoever works
with the tree may have more. A node is *alive* as long as there is a handle on it; when the last one
is dropped, those go as well that the node had on its children. It is *attached* if the way up from
it ends at the root. -/

namespace WasiSandbox

/-- A node's place in the order of creation. -/
abbrev NodeId := Nat

/-- What a node is, without its content. -/
inductive NodeKind where
  | file
  | directory
  deriving DecidableEq, Repr

/-- What a node is. -/
inductive NodeBody where
  | file (content : Bytes)
  | directory
  deriving DecidableEq, Repr

def NodeBody.kind : NodeBody → NodeKind
  | .file _ => .file
  | .directory => .directory

/-- A file or a directory: its name, and the directory that lists it. -/
structure Node where
  name : String
  parent : Option NodeId
  body : NodeBody
  deriving DecidableEq, Repr

/-- The node is listed in that directory under that name. -/
def Node.isChild (dir : NodeId) (name : String) (n : Node) : Bool :=
  n.parent == some dir && n.name == name

/-- All nodes ever made, which of them is the root, and how many handles there are on each of them. -/
structure FileTree where
  nodes : List Node
  root : NodeId
  strong : List Nat
  deriving DecidableEq, Repr

namespace FileTree

/-- A root without children, and the handle that the tree has on it. -/
def empty : FileTree := ⟨[⟨"", none, .directory⟩], 0, [1]⟩

instance : Inhabited FileTree := ⟨empty⟩

/-! ### Single nodes -/

def node? (t : FileTree) (n : NodeId) : Option Node := t.nodes[n]?

def kind? (t : FileTree) (n : NodeId) : Option NodeKind := (t.node? n).map (·.body.kind)

def isDirectory (t : FileTree) (n : NodeId) : Bool := t.kind? n == some .directory

def isFile (t : FileTree) (n : NodeId) : Bool := t.kind? n == some .file

/-- The name and content of a file; a directory answers `none`. -/
def file? (t : FileTree) (n : NodeId) : Option (String × Bytes) :=
  match t.node? n with
  | some ⟨name, _, .file content⟩ => some (name, content)
  | _ => none

/-- The content of a file; a directory has none. -/
def content? (t : FileTree) (n : NodeId) : Option Bytes := (t.file? n).map (·.2)

/-! ### Children -/

/-- The child of the directory that has the name. -/
def child? (t : FileTree) (dir : NodeId) (name : String) : Option NodeId :=
  t.nodes.findIdx? (·.isChild dir name)

/-- The names and kinds of the children, in the order of the names. -/
def entries (t : FileTree) (dir : NodeId) : List (String × NodeKind) :=
  ((t.nodes.filter fun n => n.parent == some dir).map fun n => (n.name, n.body.kind)).mergeSort
    fun a b => Text.nameLe a.1 b.1

/-- The length of a file, the number of children of a directory. -/
def size (t : FileTree) (n : NodeId) : Nat :=
  match t.content? n with
  | some content => content.length
  | none => (t.entries n).length

/-! ### Ways down -/

/-- The node reached from `n` through the names. -/
def walk (t : FileTree) (n : NodeId) : List String → Option NodeId
  | [] => some n
  | name :: rest => if t.isDirectory n then (t.child? n name).bind (t.walk · rest) else none

/-- The node that the path names. -/
def lookup (t : FileTree) (path : String) : Option NodeId :=
  match Path.segments path with
  | .ok names => t.walk t.root names
  | .error _ => none

/-- The content of the file that the path names. -/
def contentAt (t : FileTree) (path : String) : Option Bytes :=
  (t.lookup path).bind t.content?

/-! ### Ways up -/

/-- The node, its parent, the parent of that, and so on. A parent is made before its children. -/
def ancestry (t : FileTree) (n : NodeId) : List NodeId :=
  match (t.node? n).bind (·.parent) with
  | some p => if p < n then n :: t.ancestry p else [n]
  | none => [n]
termination_by n

/-- The way up from the node ends at the root. -/
def attached (t : FileTree) (n : NodeId) : Bool := (t.ancestry n).contains t.root

/-! ### Handles -/

/-- The number of handles on the node. -/
def strongCount (t : FileTree) (n : NodeId) : Nat := t.strong[n]?.getD 0

/-- Somebody has a handle on the node. -/
def alive (t : FileTree) (n : NodeId) : Bool := 0 < t.strongCount n

/-- One more handle on the node. -/
def acquire (t : FileTree) (n : NodeId) : FileTree := { t with strong := t.strong.modify n (· + 1) }

/-- The nodes that the directory lists. -/
def children (nodes : List Node) (dir : NodeId) : List NodeId :=
  (List.range nodes.length).filter fun n => nodes[n]?.bind (·.parent) == some dir

/-- The number of all handles. -/
def handleCount (strong : List Nat) : Nat := strong.foldr (· + ·) 0

theorem handleCount_set_lt {strong : List Nat} {n left : Nat} (h : strong[n]? = some (left + 1)) :
    handleCount (strong.set n left) < handleCount strong := by
  unfold handleCount
  induction strong generalizing n with
  | nil => cases h
  | cons first strong ih =>
    cases n with
    | zero =>
      cases h
      simp
    | succ n =>
      have hlt := ih h
      simpa using hlt

/-- The nodes that lose a handle together with a node on which so many handles are left: with the last
one go those that it has on its children. -/
def bereft (nodes : List Node) (n : NodeId) (left : Nat) : List NodeId :=
  if left = 0 then children nodes n else []

theorem length_bereft_le (nodes : List Node) (n : NodeId) (left : Nat) :
    (bereft nodes n left).length ≤ nodes.length := by
  unfold bereft
  split
  · exact Nat.le_trans (List.length_filter_le ..) (Nat.le_of_eq List.length_range)
  · exact Nat.zero_le _

/-- The counts after handles on these nodes were dropped, one after the other. -/
def released (nodes : List Node) (strong : List Nat) : List NodeId → List Nat
  | [] => strong
  | n :: dropped =>
    match _ : strong[n]? with
    | some (left + 1) => released nodes (strong.set n left) (bereft nodes n left ++ dropped)
    | _ => released nodes strong dropped
termination_by dropped => handleCount strong * (nodes.length + 1) + dropped.length
decreasing_by
  · have hfewer := Nat.mul_le_mul_right (nodes.length + 1) (handleCount_set_lt ‹strong[n]? = some (left + 1)›)
    have hbereft := length_bereft_le nodes n left
    rw [Nat.succ_mul] at hfewer
    rw [List.length_append, List.length_cons]
    omega
  · rw [List.length_cons]
    omega

/-- One handle on the node less. -/
def drop (t : FileTree) (n : NodeId) : FileTree :=
  { t with strong := released t.nodes t.strong [n] }

/-! ### The whole tree -/

/-- The names on the way from the root down to the node. -/
def names (t : FileTree) (n : NodeId) : List String :=
  ((t.ancestry n).takeWhile (· != t.root)).reverse.map fun m => ((t.node? m).map (·.name)).getD ""

/-- The order of paths in which a directory comes before what is below it, and children in the order
of their names. -/
def namesLe (a b : List String) : Bool :=
  decide (a.map Text.utf8 ≤ b.map Text.utf8)

/-- Every attached node but the root, with the names on the way to it: each directory before its
children, children in the order of their names. -/
def listing (t : FileTree) : List (List String × NodeBody) :=
  let below := (List.range t.nodes.length).filter fun n => t.attached n && n != t.root
  (below.filterMap fun n => (t.node? n).map fun m => (t.names n, m.body)).mergeSort
    fun a b => namesLe a.1 b.1

end FileTree

end WasiSandbox
