import WasiSandbox.Proofs.Descriptor.Answers

/-! # Handles and what they name

A descriptor remembers both the path by which a node was opened and the node. The path goes on naming
that very node, as long as nobody takes nodes out of the tree (`Faithful`); and the only one who ever
does is an owner of the tree that replaces a file. So in a run of operations on descriptors no handle
goes stale (`run_live`). -/

namespace WasiSandbox

/-! ### Paths from the root -/

namespace Path

variable {base path : String}

theorem isAbsolute_append (hbase : isAbsolute base = true) (path : String) :
    isAbsolute (base ++ path) = true := by
  unfold isAbsolute at *
  rw [String.toList_append]
  cases hlist : base.toList with
  | nil =>
    rw [hlist] at hbase
    cases hbase
  | cons c cs =>
    rw [hlist] at hbase
    exact hbase

theorem isAbsolute_under (hbase : isAbsolute base = true) (path : String) :
    isAbsolute (under base path) = true := by
  unfold under
  split
  · assumption
  · split
    · exact hbase
    · unfold join
      split
      · exact isAbsolute_append hbase path
      · exact isAbsolute_append (isAbsolute_append hbase "/") path

end Path

namespace FileTree

variable {t t' : FileTree} {path : String} {n : NodeId} {kind : NodeKind}
  {kinds : NodeKind → Prop}

/-- The path leads from the root to the node, which is of the kind. -/
structure Names (t : FileTree) (path : String) (n : NodeId) (kind : NodeKind) : Prop where
  absolute : Path.isAbsolute path = true
  lookup : t.lookup path = some n
  kind : t.kind? n = some kind

theorem lookup_eq_some_iff : t.lookup path = some n ↔
    ∃ names, Path.segments path = .ok names ∧ t.walk t.root names = some n := by
  unfold lookup
  cases Path.segments path <;> simp

namespace Names

theorem attached (h : t.Names path n kind) (ht : t.WellFormed) : t.attached n = true := by
  obtain ⟨names, -, hw⟩ := lookup_eq_some_iff.mp h.lookup
  exact ht.attached_iff.mpr ⟨names, hw⟩

/-- A path goes on naming what stays. -/
theorem retained (h : t.Names path n kind) (ht' : t'.WellFormed) (hr : t.Retains kinds t')
    (hdir : kinds .directory) (hk : kinds kind) : t'.Names path n kind where
  absolute := h.absolute
  lookup := by
    obtain ⟨names, hp, hw⟩ := lookup_eq_some_iff.mp h.lookup
    exact lookup_eq_some_iff.mpr ⟨names, hp, ht'.walk_retained hr hdir hw h.kind hk⟩
  kind := hr.kind? h.kind hk

end Names

end FileTree

namespace Host

variable {h h' : Host} {fd : Nat} {d : Descriptor} {path : String} {n : NodeId} {kind : NodeKind}
  {kinds : NodeKind → Prop}

/-! ### Faithful handles -/

/-- The path behind every open handle on a node of these kinds names that node. -/
def Faithful (kinds : NodeKind → Prop) (h : Host) : Prop :=
  ∀ fd d path n kind, h.table.get? fd = some d → d.target.node? = some (path, n, kind) →
    kinds kind → h.tree.Names path n kind

theorem faithful_new {t : FileTree} (ht : t.WellFormed) (stdin : Bytes)
    (surroundings : Surroundings) : Faithful kinds (.new t stdin surroundings) := by
  intro fd d path n kind hget hnode _
  cases (DescriptorTable.get?_new hget).2 _ hnode
  exact ⟨rfl, rfl, FileTree.isDirectory_iff_kind?.mp ht.root_isDirectory⟩

/-- The handles stay faithful when the tree changes so that their nodes stay. -/
theorem Faithful.retained (hf : Faithful kinds h) {t : FileTree} (ht : t.WellFormed)
    (hr : h.tree.Retains kinds t) (hdir : kinds .directory) :
    Faithful kinds { h with tree := t } := fun _ _ _ _ _ hget hnode hk =>
  (hf _ _ _ _ _ hget hnode hk).retained ht hr hdir hk

/-- The handles stay faithful when a descriptor comes in whose path names its node. -/
theorem Faithful.put (hf : Faithful kinds h)
    (hd : ∀ path n kind, d.target.node? = some (path, n, kind) → kinds kind →
      h.tree.Names path n kind) :
    Faithful kinds { h with table := h.table.put fd d } := by
  intro k d' path n kind hget hnode hk
  rw [DescriptorTable.get?_put] at hget
  split at hget
  · cases hget
    exact hd _ _ _ hnode hk
  · exact hf _ _ _ _ _ hget hnode hk

theorem Change.faithful (hdir : kinds .directory) (hc : Change h h') (ht : h.tree.WellFormed)
    (hf : Faithful kinds h) : Faithful kinds h' := by
  have ht' := hc.wellFormed ht
  have hr : h.tree.Retains kinds h'.tree := hc.retains
  cases hc with
  | aside htree _ hslots =>
    intro fd d path n kind hget hnode hk
    rw [htree]
    exact hf _ _ _ _ _ (by rwa [DescriptorTable.get?, ← hslots]) hnode hk
  | made => exact hf.retained ht' hr hdir
  | filled => exact hf.retained ht' hr hdir
  | opened hresolve hlookup hkind hnode =>
    refine hf.put fun path n kind hnode' hk => ?_
    cases hnode.symm.trans hnode'
    obtain ⟨-, dir, base, m, preopen, hget, htarget, rfl⟩ := resolve_ok hresolve
    have hbase := hf _ _ _ _ _ hget (by rw [htarget]; rfl) hdir
    exact ⟨Path.isAbsolute_under hbase.absolute _, hlookup, hkind⟩
  | updated hget htarget =>
    exact hf.put fun _ _ _ hnode hk => hf _ _ _ _ _ hget (by rwa [← htarget]) hk
  | closed fd =>
    intro k d path n kind hget hnode hk
    rw [DescriptorTable.get?_clear] at hget
    split at hget
    · cases hget
    · exact hf _ _ _ _ _ hget hnode hk

/-! ### Runs without an owner -/

/-- What holds at an open handle on a node of that kind, opened by that path. -/
structure LiveAt (h : Host) (fd : Nat) (d : Descriptor) (path : String) (n : NodeId)
    (kind : NodeKind) : Prop where
  /-- The node is in the tree. -/
  attached : h.tree.attached n = true
  /-- There is a handle on it. -/
  alive : h.tree.alive n = true
  /-- The path leads from the root to that very node, which is of the kind. -/
  named : h.tree.Names path n kind
  /-- The path is well formed. -/
  parsed : ∃ names, Path.segments path = .ok names
  /-- No operation on the handle finds nothing behind it: the only one that answers `badf` is
  `prestat`, and not because the node is gone, but because the handle was not open from the start. -/
  answered : ∀ (op : DescriptorOperation) (h' : Host), op.handle? = some fd →
    op.act h = .error (.reported .badf) h' →
    op = .prestat fd ∧ ∀ path n, d.target ≠ .directory path n true

/-- No handle on a node has gone stale. -/
def Live (h : Host) : Prop := ∀ fd d path n kind, h.table.get? fd = some d →
  d.target.node? = some (path, n, kind) → h.LiveAt fd d path n kind

theorem Faithful.live (hf : Faithful (fun _ => True) h) (hc : h.Counted) : h.Live := by
  intro fd d path n kind hget hnode
  have hnamed := hf fd d path n kind hget hnode trivial
  have hattached := hnamed.attached hc.wellFormed
  have halive := FileTree.Counted.alive_of_attached hc hattached
  obtain ⟨names, hp, -⟩ := FileTree.lookup_eq_some_iff.mp hnamed.lookup
  refine ⟨hattached, halive, hnamed, ⟨names, hp⟩, fun op h' hop hfail => ?_⟩
  by_contra hneg
  -- Were it none of the two, the operation would have no reason for its answer.
  have havoids : Avoids (· = .reported .badf) op.act h := by
    refine avoids_act (fun e he => Failure.reported.inj he) op (fun _ k hk => ?_)
      (fun d hd => by cases hd)
    obtain rfl : fd = k := Option.some.inj (hop.symm.trans hk)
    refine ⟨⟨d, path, n, kind, hget, hnode, halive⟩, fun hprestat => ?_⟩
    by_contra hclosed
    exact hneg ⟨hprestat, fun path n htarget => hclosed ⟨d, path, n, hget, htarget⟩⟩
  exact havoids _ _ hfail rfl

/-- **Handles and paths do not drift apart** in any run of operations on descriptors, from any tree
that has grown from the empty one. -/
theorem run_live (treeOps : List TreeOperation) (stdin : Bytes) (surroundings : Surroundings)
    (ops : List DescriptorOperation) :
    ((Host.new (FileTree.empty.run treeOps) stdin surroundings).run ops).Live := by
  have ht := FileTree.WellFormed.empty.run treeOps
  have hstart : Faithful (fun _ => True) (.new (FileTree.empty.run treeOps) stdin surroundings) ∧
      Counted (.new (FileTree.empty.run treeOps) stdin surroundings) :=
    ⟨faithful_new ht stdin surroundings, counted_new treeOps stdin surroundings⟩
  obtain ⟨-, hf, hc⟩ := run_keeps (p := fun h => Faithful (fun _ => True) h ∧ h.Counted)
    (fun _ _ hc ht hh => ⟨hc.faithful trivial ht hh.1, hc.counted_after hh.2⟩) ht hstart ops
  exact hf.live hc

end Host

end WasiSandbox
