import WasiSandbox.Tree.Create

/-! # The shape of a tree

A list of nodes is a tree if its root is a directory that nothing lists, if whatever lists a node is
a directory made before it, and if no two nodes in one directory share a name (`WellFormed`). Four
changes are all that operations do to the list: they add a node, take a node out of its directory,
give a file other content, and plant another root. Each of them keeps the shape. In a well-formed
tree a directory and a name determine the child, and the names on the way down from the root
determine the node and are determined by it (`walk_root_injective`). -/

namespace WasiSandbox

namespace FileTree

/-! ### The changes -/

/-- The tree with one more node, listed in the directory. -/
def add (t : FileTree) (dir : NodeId) (name : String) (body : NodeBody) : FileTree :=
  { t with nodes := t.nodes ++ [⟨name, some dir, body⟩], strong := t.strong ++ [1] }

/-- The tree with the node out of the directory that lists it, and all its handles still there. -/
def cutOff (t : FileTree) (n : NodeId) : FileTree :=
  { t with nodes := t.nodes.modify n fun m => { m with parent := none } }

/-- The tree with other counts. -/
def withCounts (t : FileTree) (strong : List Nat) : FileTree := { t with strong := strong }

/-- The tree with the node taken out of the directory that lists it. -/
def unlist (t : FileTree) (n : NodeId) : FileTree := (t.cutOff n).drop n

/-- The tree with other content in the node. -/
def withContent (t : FileTree) (n : NodeId) (content : Bytes) : FileTree :=
  { t with nodes := t.nodes.modify n fun m => { m with body := .file content } }

variable {t : FileTree} {n k dir : NodeId} {name : String} {body : NodeBody} {content : Bytes}

theorem create_run (dir : NodeId) (name : String) (body : NodeBody) (t : FileTree) :
    create dir name body t = .ok t.nodes.length (t.add dir name body) := rfl

theorem detach_run (n : NodeId) (t : FileTree) : detach n t = .ok () (t.unlist n) := rfl

/-- Handles come and go, and leave the nodes what they are. -/
@[simp] theorem nodes_withCounts (strong : List Nat) : (t.withCounts strong).nodes = t.nodes := rfl

@[simp] theorem root_withCounts (strong : List Nat) : (t.withCounts strong).root = t.root := rfl

@[simp] theorem nodes_acquire : (t.acquire n).nodes = t.nodes := rfl

@[simp] theorem nodes_drop : (t.drop n).nodes = t.nodes := rfl

@[simp] theorem root_acquire : (t.acquire n).root = t.root := rfl

@[simp] theorem root_drop : (t.drop n).root = t.root := rfl

@[simp] theorem root_add : (t.add dir name body).root = t.root := rfl

@[simp] theorem root_unlist : (t.unlist n).root = t.root := rfl

@[simp] theorem root_withContent : (t.withContent n content).root = t.root := rfl

theorem node?_lt {m : Node} (h : t.node? n = some m) : n < t.nodes.length :=
  (List.getElem?_eq_some_iff.mp h).1

/-- What stands behind all others. -/
theorem getElem?_concat {α : Type} (front : List α) (last : α) (i : Nat) :
    (front ++ [last])[i]? = if i = front.length then some last else front[i]? := by
  rw [List.getElem?_append, List.getElem?_singleton]
  rcases Nat.lt_trichotomy i front.length with hn | rfl | hn
  · rw [if_pos hn, if_neg (Nat.ne_of_lt hn)]
  · simp
  · rw [if_neg (Nat.lt_asymm hn), if_neg (by omega), if_neg (Nat.ne_of_gt hn),
      List.getElem?_eq_none (Nat.le_of_lt hn)]

theorem node?_add : (t.add dir name body).node? n =
    if n = t.nodes.length then some ⟨name, some dir, body⟩ else t.node? n :=
  getElem?_concat ..

theorem node?_replant : t.replant.node? n =
    if n = t.nodes.length then some ⟨"", none, .directory⟩ else t.node? n :=
  getElem?_concat ..

theorem node?_add_of_some {m : Node} (h : t.node? n = some m) :
    (t.add dir name body).node? n = some m := by
  rw [node?_add, if_neg (Nat.ne_of_lt (node?_lt h)), h]

theorem node?_unlist : (t.unlist n).node? k =
    (t.node? k).map fun m => if n = k then { m with parent := none } else m := by
  unfold node? unlist cutOff
  rw [nodes_drop, List.getElem?_modify]
  by_cases h : n = k <;> simp [h]

theorem node?_withContent : (t.withContent n content).node? k =
    (t.node? k).map fun m => if n = k then { m with body := .file content } else m := by
  unfold node? withContent
  rw [List.getElem?_modify]
  by_cases h : n = k <;> simp [h]

/-- The last content counts. -/
theorem withContent_withContent (content' : Bytes) :
    (t.withContent n content).withContent n content' = t.withContent n content' := by
  unfold withContent
  dsimp only
  rw [List.modify_modify_eq]
  rfl

/-! ### Kinds -/

theorem kind?_eq_some_iff {kind : NodeKind} :
    t.kind? n = some kind ↔ ∃ m, t.node? n = some m ∧ m.body.kind = kind :=
  Option.map_eq_some_iff

theorem isDirectory_iff : t.isDirectory n = true ↔ ∃ m, t.node? n = some m ∧ m.body = .directory := by
  unfold isDirectory kind?
  cases t.node? n with
  | none => simp
  | some m =>
    cases hm : m.body <;> simp [NodeBody.kind, hm]

theorem isDirectory_lt (h : t.isDirectory n = true) : n < t.nodes.length := by
  obtain ⟨m, hm, -⟩ := isDirectory_iff.mp h
  exact node?_lt hm

theorem isDirectory_add (hn : n < t.nodes.length) :
    (t.add dir name body).isDirectory n = t.isDirectory n := by
  unfold isDirectory kind?
  rw [node?_add, if_neg (Nat.ne_of_lt hn)]

theorem isDirectory_unlist : (t.unlist n).isDirectory k = t.isDirectory k := by
  unfold isDirectory kind?
  rw [node?_unlist]
  cases t.node? k with
  | none => rfl
  | some m => by_cases h : n = k <;> simp [h]

theorem isDirectory_withContent (hn : t.isDirectory n = false) :
    (t.withContent n content).isDirectory k = t.isDirectory k := by
  by_cases h : n = k
  · subst h
    rw [hn]
    unfold isDirectory kind?
    rw [node?_withContent]
    cases t.node? n <;> simp [NodeBody.kind]
  · unfold isDirectory kind?
    rw [node?_withContent]
    cases t.node? k <;> simp [h]

/-! ### Children -/

/-- The node is listed in the directory under the name. -/
def Lists (t : FileTree) (dir : NodeId) (name : String) (n : NodeId) : Prop :=
  ∃ m, t.node? n = some m ∧ m.parent = some dir ∧ m.name = name

theorem isChild_iff {m : Node} : m.isChild dir name = true ↔ m.parent = some dir ∧ m.name = name := by
  simp [Node.isChild]

theorem lists_of_child? (h : t.child? dir name = some n) : t.Lists dir name n := by
  obtain ⟨hn, hm, -⟩ := List.findIdx?_eq_some_iff_getElem.mp h
  exact ⟨t.nodes[n], List.getElem?_eq_getElem hn, isChild_iff.mp hm⟩

theorem child?_eq_none_iff : t.child? dir name = none ↔ ∀ n, ¬ t.Lists dir name n := by
  constructor
  · rintro h n ⟨m, hm, hp⟩
    have hfree := List.findIdx?_eq_none_iff.mp h m (List.mem_of_getElem? hm)
    rw [isChild_iff.mpr hp] at hfree
    cases hfree
  · intro h
    cases hc : t.child? dir name with
    | none => rfl
    | some n => exact absurd (lists_of_child? hc) (h n)

/-- What all trees that were built by operations have in common. -/
structure WellFormed (t : FileTree) : Prop where
  /-- The root is a directory, and nothing lists it. -/
  root : ∃ m, t.node? t.root = some m ∧ m.parent = none ∧ m.body = .directory
  /-- Whatever lists a node is a directory that was made before it. -/
  parent : ∀ {n m p}, t.node? n = some m → m.parent = some p → p < n ∧ t.isDirectory p = true
  /-- No two nodes in one directory share a name. -/
  distinct : ∀ {n n' dir name}, t.Lists dir name n → t.Lists dir name n' → n = n'

/-- The shape is that of the nodes, whatever handles there are on them. -/
theorem WellFormed.withCounts (h : t.WellFormed) (strong : List Nat) :
    (t.withCounts strong).WellFormed := ⟨h.root, h.parent, h.distinct⟩

theorem WellFormed.empty : FileTree.empty.WellFormed where
  root := ⟨_, rfl, rfl, rfl⟩
  parent {n m p} hm hp := by
    cases n with
    | zero => cases hm; cases hp
    | succ n => cases hm
  distinct {n n' dir name} h h' := by
    obtain ⟨m, hm, hp, -⟩ := h
    cases n with
    | zero => cases hm; cases hp
    | succ n => cases hm

namespace WellFormed

theorem root_isDirectory (h : t.WellFormed) : t.isDirectory t.root = true := by
  obtain ⟨m, hm, -, hb⟩ := h.root
  exact isDirectory_iff.mpr ⟨m, hm, hb⟩

/-- **A directory and a name determine the child.** -/
theorem child?_eq_some_iff (h : t.WellFormed) : t.child? dir name = some n ↔ t.Lists dir name n := by
  constructor
  · exact lists_of_child?
  · intro hn
    cases hc : t.child? dir name with
    | none => exact absurd hn (child?_eq_none_iff.mp hc n)
    | some k => rw [h.distinct (lists_of_child? hc) hn]

theorem dir_lt (h : t.WellFormed) (hn : t.Lists dir name n) :
    dir < n ∧ t.isDirectory dir = true := by
  obtain ⟨m, hm, hp, -⟩ := hn
  exact h.parent hm hp

theorem not_lists_root (h : t.WellFormed) : ¬ t.Lists dir name t.root := by
  rintro ⟨m, hm, hp, -⟩
  obtain ⟨m', hm', hp', -⟩ := h.root
  rw [hm] at hm'
  cases hm'
  rw [hp] at hp'
  cases hp'

end WellFormed

/-! ### Children after a change -/

theorem lists_add : (t.add dir name body).Lists k x n ↔
    t.Lists k x n ∨ n = t.nodes.length ∧ k = dir ∧ x = name := by
  unfold Lists
  rw [node?_add]
  by_cases hn : n = t.nodes.length
  · have hnone : t.node? n = none := List.getElem?_eq_none (Nat.le_of_eq hn.symm)
    rw [if_pos hn, hnone]
    simp [hn, eq_comm]
  · rw [if_neg hn]
    simp [hn]

theorem lists_unlist : (t.unlist n).Lists dir name k ↔ t.Lists dir name k ∧ k ≠ n := by
  unfold Lists
  rw [node?_unlist]
  cases t.node? k with
  | none => simp
  | some m =>
    by_cases h : n = k
    · simp [h]
    · simp [h, Ne.symm h]

theorem lists_withContent : (t.withContent n content).Lists dir name k ↔ t.Lists dir name k := by
  unfold Lists
  rw [node?_withContent]
  cases t.node? k with
  | none => simp
  | some m => by_cases h : n = k <;> simp [h]

namespace WellFormed

/-- A new name in a directory keeps the shape. -/
theorem add (h : t.WellFormed) (hdir : t.isDirectory dir = true) (hfree : t.child? dir name = none) :
    (t.add dir name body).WellFormed where
  root := by
    obtain ⟨m, hm, hp, hb⟩ := h.root
    exact ⟨m, node?_add_of_some hm, hp, hb⟩
  parent {n m p} hm hp := by
    rw [node?_add] at hm
    split at hm
    · next hn =>
      cases hm
      cases hp
      have hlt := isDirectory_lt hdir
      exact ⟨hn ▸ hlt, by rw [isDirectory_add hlt, hdir]⟩
    · obtain ⟨hlt, hd⟩ := h.parent hm hp
      exact ⟨hlt, by rw [isDirectory_add (isDirectory_lt hd), hd]⟩
  distinct {n n' k x} hn hn' := by
    have hnone := child?_eq_none_iff.mp hfree
    rcases lists_add.mp hn with hold | ⟨rfl, rfl, rfl⟩ <;>
      rcases lists_add.mp hn' with hold' | ⟨rfl, hk, hx⟩
    · exact h.distinct hold hold'
    · exact absurd (hk ▸ hx ▸ hold) (hnone n)
    · exact absurd hold' (hnone n')
    · rfl

/-- A node fewer in a directory keeps the shape. -/
theorem unlist (h : t.WellFormed) : (t.unlist n).WellFormed where
  root := by
    obtain ⟨m, hm, hp, hb⟩ := h.root
    rw [root_unlist, node?_unlist, hm]
    by_cases hn : n = t.root
    · exact ⟨{ m with parent := none }, by simp [hn], rfl, hb⟩
    · exact ⟨m, by simp [hn], hp, hb⟩
  parent {k m p} hm hp := by
    rw [node?_unlist] at hm
    obtain ⟨m', hm', rfl⟩ := Option.map_eq_some_iff.mp hm
    by_cases hk : n = k
    · simp [hk] at hp
    · obtain ⟨hlt, hd⟩ := h.parent hm' (by simpa [hk] using hp)
      exact ⟨hlt, by rw [isDirectory_unlist, hd]⟩
  distinct {k k' dir name} hk hk' := h.distinct (lists_unlist.mp hk).1 (lists_unlist.mp hk').1

/-- Another root keeps the shape. -/
theorem replant (h : t.WellFormed) : t.replant.WellFormed where
  root := ⟨_, by rw [node?_replant]; exact if_pos rfl, rfl, rfl⟩
  parent {n m p} hm hp := by
    rw [node?_replant] at hm
    split at hm
    · cases hm
      cases hp
    · obtain ⟨hlt, hd⟩ := h.parent hm hp
      refine ⟨hlt, ?_⟩
      unfold isDirectory kind? at hd ⊢
      rwa [node?_replant, if_neg (Nat.ne_of_lt (Nat.lt_trans hlt (node?_lt hm)))]
  distinct {n n' dir name} hn hn' := by
    have hold : ∀ {k}, t.replant.Lists dir name k → t.Lists dir name k := by
      rintro k ⟨m, hm, hp, hx⟩
      rw [node?_replant] at hm
      split at hm
      · cases hm
        cases hp
      · exact ⟨m, hm, hp, hx⟩
    exact h.distinct (hold hn) (hold hn')

/-- Other content in a file keeps the shape. -/
theorem withContent (h : t.WellFormed) (hn : t.isDirectory n = false) :
    (t.withContent n content).WellFormed where
  root := by
    obtain ⟨m, hm, hp, hb⟩ := h.root
    have hne : n ≠ t.root := by
      rintro rfl
      rw [h.root_isDirectory] at hn
      cases hn
    exact ⟨m, by simp [node?_withContent, hm, hne], hp, hb⟩
  parent {k m p} hm hp := by
    rw [node?_withContent] at hm
    obtain ⟨m', hm', rfl⟩ := Option.map_eq_some_iff.mp hm
    have hp' : m'.parent = some p := by
      by_cases hk : n = k
      · simpa [hk] using hp
      · simpa [hk] using hp
    obtain ⟨hlt, hd⟩ := h.parent hm' hp'
    exact ⟨hlt, by rw [isDirectory_withContent hn, hd]⟩
  distinct {k k' dir name} hk hk' :=
    h.distinct (lists_withContent.mp hk) (lists_withContent.mp hk')

end WellFormed

/-! ### Ways down -/

@[simp] theorem walk_nil : t.walk n [] = some n := rfl

theorem walk_cons (x : String) (q : List String) : t.walk n (x :: q) =
    if t.isDirectory n then (t.child? n x).bind (t.walk · q) else none := rfl

/-- Ways do not depend on handles. -/
@[simp] theorem walk_withCounts (strong : List Nat) (q : List String) :
    (t.withCounts strong).walk n q = t.walk n q := by
  induction q generalizing n with
  | nil => rfl
  | cons x q ih =>
    have hdir : (t.withCounts strong).isDirectory n = t.isDirectory n := rfl
    have hchild : (t.withCounts strong).child? n x = t.child? n x := rfl
    rw [walk_cons, walk_cons, hdir, hchild]
    split
    · exact Option.bind_congr fun k _ => ih
    · rfl

theorem walk_append (a b : List String) : t.walk n (a ++ b) = (t.walk n a).bind (t.walk · b) := by
  induction a generalizing n with
  | nil => rfl
  | cons x a ih =>
    rw [List.cons_append, walk_cons, walk_cons]
    split
    · rw [Option.bind_assoc]
      exact Option.bind_congr fun k _ => ih
    · rfl

theorem walk_singleton (x : String) :
    t.walk n [x] = if t.isDirectory n then t.child? n x else none := by
  simp [walk_cons]

/-- The last step of a way. -/
theorem walk_snoc (k : NodeId) (q : List String) (y : String) : t.walk k (q ++ [y]) =
    (t.walk k q).bind fun n => if t.isDirectory n then t.child? n y else none := by
  rw [walk_append]
  exact Option.bind_congr fun n _ => walk_singleton y

theorem walk_snoc_eq_some_iff {q : List String} {x : String} :
    t.walk k (q ++ [x]) = some n ↔
      ∃ dir, t.walk k q = some dir ∧ t.isDirectory dir = true ∧ t.child? dir x = some n := by
  simp [walk_snoc, Option.bind_eq_some_iff]

namespace WellFormed

/-- Whatever the root leads to is a node. -/
theorem walk_lt (h : t.WellFormed) {q : List String} (hq : t.walk t.root q = some n) :
    n < t.nodes.length := by
  rcases List.eq_nil_or_concat q with rfl | ⟨q, x, rfl⟩
  · cases hq
    exact isDirectory_lt h.root_isDirectory
  · rw [List.concat_eq_append] at hq
    obtain ⟨dir, -, -, hc⟩ := walk_snoc_eq_some_iff.mp hq
    obtain ⟨m, hm, -⟩ := lists_of_child? hc
    exact node?_lt hm

/-- **The node at the end of a way determines the way.** -/
theorem walk_root_injective (h : t.WellFormed) {q q' : List String}
    (hq : t.walk t.root q = some n) (hq' : t.walk t.root q' = some n) : q = q' := by
  -- The last name of a way and the directory before it are read off the node, and the directory is
  -- the older one of the two.
  induction n using Nat.strongRecOn generalizing q q' with
  | _ n ih =>
    rcases List.eq_nil_or_concat q with rfl | ⟨q, x, rfl⟩ <;>
      rcases List.eq_nil_or_concat q' with rfl | ⟨q', x', rfl⟩
    · rfl
    · cases hq
      rw [List.concat_eq_append] at hq'
      obtain ⟨dir, -, -, hc⟩ := walk_snoc_eq_some_iff.mp hq'
      exact absurd (lists_of_child? hc) h.not_lists_root
    · cases hq'
      rw [List.concat_eq_append] at hq
      obtain ⟨dir, -, -, hc⟩ := walk_snoc_eq_some_iff.mp hq
      exact absurd (lists_of_child? hc) h.not_lists_root
    · rw [List.concat_eq_append] at hq hq'
      obtain ⟨dir, hdir, -, hc⟩ := walk_snoc_eq_some_iff.mp hq
      obtain ⟨dir', hdir', -, hc'⟩ := walk_snoc_eq_some_iff.mp hq'
      obtain ⟨m, hm, hp, hx⟩ := lists_of_child? hc
      obtain ⟨m', hm', hp', hx'⟩ := lists_of_child? hc'
      rw [hm] at hm'
      cases hm'
      rw [hp] at hp'
      cases hp'
      rw [ih dir (h.parent hm hp).1 hdir hdir', ← hx, ← hx']

end WellFormed

end FileTree

end WasiSandbox
