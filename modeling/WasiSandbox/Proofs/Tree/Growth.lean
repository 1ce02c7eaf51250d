import WasiSandbox.Proofs.Tree.Failure

/-! # What stays when a tree changes

No operation takes a directory away from where it is, and whoever does not replace files takes no file
away either. `Retains kinds` says that all nodes of these kinds stay under their names in their
directories; a way from the root to such a node is then a way to the same node afterwards
(`WellFormed.walk_retained`). A node is attached just if there is a way to it
(`WellFormed.attached_iff`). -/

namespace WasiSandbox

namespace FileTree

variable {t t' t'' : FileTree} {n k dir : NodeId} {x : String} {q : List String} {path : String}
  {kinds : NodeKind → Prop} {kind : NodeKind} {body : NodeBody} {content : Bytes}

/-! ### Attached nodes -/

theorem ancestry_of_parent {m : Node} {p : NodeId} (hm : t.node? n = some m)
    (hp : m.parent = some p) (hlt : p < n) : t.ancestry n = n :: t.ancestry p := by
  rw [ancestry, hm, Option.bind_some, hp]
  exact if_pos hlt

theorem ancestry_of_top (h : (t.node? n).bind (·.parent) = none) : t.ancestry n = [n] := by
  rw [ancestry, h]

theorem mem_ancestry_self (t : FileTree) (n : NodeId) : n ∈ t.ancestry n := by
  rw [ancestry]
  split
  · split <;> exact List.mem_cons_self
  · exact List.mem_cons_self

/-- **The way up from a node** meets those from which there is a way down to it. -/
theorem WellFormed.mem_ancestry_iff (h : t.WellFormed) :
    k ∈ t.ancestry n ↔ ∃ q, t.walk k q = some n := by
  -- A node comes after its parent, so the way up and the way down both shorten by the last step.
  induction n using Nat.strongRecOn with
  | _ n ih =>
    constructor
    · intro hk
      cases hparent : (t.node? n).bind (·.parent) with
      | none =>
        rw [ancestry_of_top hparent, List.mem_singleton] at hk
        exact ⟨[], by rw [hk]; rfl⟩
      | some p =>
        obtain ⟨m, hm, hp⟩ := Option.bind_eq_some_iff.mp hparent
        obtain ⟨hlt, hd⟩ := h.parent hm hp
        rw [ancestry_of_parent hm hp hlt, List.mem_cons] at hk
        rcases hk with rfl | hk
        · exact ⟨[], rfl⟩
        · obtain ⟨q, hq⟩ := (ih p hlt).mp hk
          refine ⟨q ++ [m.name], walk_snoc_eq_some_iff.mpr ⟨p, hq, hd, ?_⟩⟩
          exact h.child?_eq_some_iff.mpr ⟨m, hm, hp, rfl⟩
    · rintro ⟨q, hq⟩
      rcases List.eq_nil_or_concat q with rfl | ⟨q, x, rfl⟩
      · cases hq
        exact mem_ancestry_self t _
      · rw [List.concat_eq_append] at hq
        obtain ⟨dir, hdir, -, hc⟩ := walk_snoc_eq_some_iff.mp hq
        obtain ⟨m, hm, hp, -⟩ := lists_of_child? hc
        have hlt := (h.parent hm hp).1
        rw [ancestry_of_parent hm hp hlt]
        exact List.mem_cons_of_mem n ((ih dir hlt).mpr ⟨q, hdir⟩)

/-- **A node is attached** if there is a way to it from the root. -/
theorem WellFormed.attached_iff (h : t.WellFormed) :
    t.attached n = true ↔ ∃ q, t.walk t.root q = some n := by
  unfold attached
  rw [List.contains_iff_mem]
  exact h.mem_ancestry_iff

/-! ### Nodes that stay -/

/-- The nodes of these kinds stay what and where they are, but for the content of a file. -/
structure Retains (kinds : NodeKind → Prop) (t t' : FileTree) : Prop where
  root : t'.root = t.root
  node : ∀ {n m}, t.node? n = some m → kinds m.body.kind → ∃ m', t'.node? n = some m' ∧
    m'.name = m.name ∧ m'.parent = m.parent ∧ m'.body.kind = m.body.kind

theorem isDirectory_iff_kind? : t.isDirectory n = true ↔ t.kind? n = some .directory := by
  simp [isDirectory]

theorem WellFormed.lookup_lt (h : t.WellFormed) (hl : t.lookup path = some n) :
    n < t.nodes.length := by
  unfold lookup at hl
  cases hp : Path.segments path with
  | error e =>
    rw [hp] at hl
    cases hl
  | ok names =>
    rw [hp] at hl
    exact h.walk_lt hl

theorem content?_not_directory (h : t.content? n = some content) : t.isDirectory n = false := by
  obtain ⟨f, hf, -⟩ := Option.map_eq_some_iff.mp h
  exact file?_not_directory hf

/-- What is at a path and no directory is a file. -/
theorem WellFormed.kind?_file (h : t.WellFormed) (hl : t.lookup path = some n)
    (hdir : t.isDirectory n = false) : t.kind? n = some .file := by
  obtain ⟨m, hm⟩ : ∃ m, t.node? n = some m := ⟨_, List.getElem?_eq_getElem (h.lookup_lt hl)⟩
  rw [kind?, hm, Option.map_some]
  cases hbody : m.body with
  | file content => rfl
  | directory =>
    rw [isDirectory_iff.mpr ⟨m, hm, hbody⟩] at hdir
    cases hdir

namespace Retains

theorem refl (t : FileTree) : Retains kinds t t := ⟨rfl, fun {_ m} hm _ => ⟨m, hm, rfl, rfl, rfl⟩⟩

theorem trans (h : Retains kinds t t') (h' : Retains kinds t' t'') : Retains kinds t t'' where
  root := h'.root.trans h.root
  node {n m} hm hk := by
    obtain ⟨m', hm', hname, hparent, hkind⟩ := h.node hm hk
    obtain ⟨m'', hm'', hname', hparent', hkind'⟩ := h'.node hm' (hkind ▸ hk)
    exact ⟨m'', hm'', hname'.trans hname, hparent'.trans hparent, hkind'.trans hkind⟩

theorem withCounts (t : FileTree) (strong : List Nat) : Retains kinds t (t.withCounts strong) :=
  ⟨rfl, fun {_ m} hm _ => ⟨m, hm, rfl, rfl, rfl⟩⟩

theorem add (t : FileTree) (dir : NodeId) (x : String) (body : NodeBody) :
    Retains kinds t (t.add dir x body) :=
  ⟨rfl, fun {_ m} hm _ => ⟨m, node?_add_of_some hm, rfl, rfl, rfl⟩⟩

theorem withContent (hn : t.isDirectory n = false) (content : Bytes) :
    Retains kinds t (t.withContent n content) where
  root := rfl
  node {k m} hm _ := by
    rw [node?_withContent, hm, Option.map_some]
    by_cases hk : n = k
    · refine ⟨_, rfl, ?_⟩
      rw [if_pos hk]
      refine ⟨rfl, rfl, ?_⟩
      cases hbody : m.body with
      | file content => rfl
      | directory =>
        rw [isDirectory_iff.mpr ⟨m, hk ▸ hm, hbody⟩] at hn
        cases hn
    · exact ⟨m, by rw [if_neg hk], rfl, rfl, rfl⟩

/-- A file that is taken out is no directory. -/
theorem unlist (hn : t.isDirectory n = false) : Retains (· = .directory) t (t.unlist n) where
  root := rfl
  node {k m} hm hkind := by
    have hk : n ≠ k := by
      rintro rfl
      rw [isDirectory_iff_kind?.mpr (kind?_eq_some_iff.mpr ⟨m, hm, hkind⟩)] at hn
      cases hn
    rw [node?_unlist, hm, Option.map_some, if_neg hk]
    exact ⟨m, rfl, rfl, rfl, rfl⟩

theorem kind? (h : Retains kinds t t') (hn : t.kind? n = some kind) (hk : kinds kind) :
    t'.kind? n = some kind := by
  obtain ⟨m, hm, rfl⟩ := kind?_eq_some_iff.mp hn
  obtain ⟨m', hm', -, -, hkind⟩ := h.node hm hk
  exact kind?_eq_some_iff.mpr ⟨m', hm', hkind⟩

end Retains

/-- **Whoever stays is reached as before**, if directories stay. -/
theorem WellFormed.walk_retained (ht' : t'.WellFormed) (h : Retains kinds t t')
    (hdir : kinds .directory) (hq : t.walk t.root q = some n) (hn : t.kind? n = some kind)
    (hk : kinds kind) : t'.walk t'.root q = some n := by
  -- From the end: before the last name the way leads to directories, which stay whatever `kinds` are.
  induction q using List.reverseRecOn generalizing n kind with
  | nil =>
    cases hq
    rw [h.root]
    rfl
  | append_singleton q x ih =>
    obtain ⟨dir, hw, hd, hc⟩ := walk_snoc_eq_some_iff.mp hq
    have hkind := isDirectory_iff_kind?.mp hd
    refine walk_snoc_eq_some_iff.mpr ⟨dir, ih hw hkind hdir, ?_, ?_⟩
    · exact isDirectory_iff_kind?.mpr (h.kind? hkind hdir)
    · obtain ⟨m, hm, hp, hx⟩ := lists_of_child? hc
      obtain ⟨m₁, hm₁, rfl⟩ := kind?_eq_some_iff.mp hn
      obtain rfl : m = m₁ := Option.some.inj (hm.symm.trans hm₁)
      obtain ⟨m', hm', hname, hparent, -⟩ := h.node hm hk
      exact ht'.child?_eq_some_iff.mpr ⟨m', hm', hparent.trans hp, hname.trans hx⟩

/-! ### The content of a file -/

theorem content?_withContent {old : Bytes} (h : t.content? n = some old) (content : Bytes) :
    (t.withContent n content).content? n = some content := by
  obtain ⟨f, hf, -⟩ := Option.map_eq_some_iff.mp h
  unfold content? file?
  unfold file? at hf
  rw [node?_withContent]
  cases hn : t.node? n with
  | none =>
    rw [hn] at hf
    cases hf
  | some m => simp

theorem content?_withContent_of_ne (hk : k ≠ n) (t : FileTree) (content : Bytes) :
    (t.withContent k content).content? n = t.content? n := by
  rw [← bodyAt?_content, ← bodyAt?_content]
  unfold bodyAt?
  rw [node?_withContent]
  cases t.node? n with
  | none => rfl
  | some m => simp [hk]

theorem WellFormed.walk_withContent (h : t.WellFormed) (hn : t.isDirectory n = false)
    (content : Bytes) (k : NodeId) (q : List String) :
    (t.withContent n content).walk k q = t.walk k q := by
  have hchild : ∀ dir x, (t.withContent n content).child? dir x = t.child? dir x := fun dir x =>
    Option.ext fun k => by
      rw [(h.withContent hn).child?_eq_some_iff, lists_withContent, h.child?_eq_some_iff]
  induction q generalizing k with
  | nil => rfl
  | cons x q ih =>
    rw [walk_cons, walk_cons, isDirectory_withContent hn, hchild]
    split
    · exact Option.bind_congr fun k _ => ih k
    · rfl

/-- **Other content in a file** is seen where there is a way to it, and nowhere else. -/
theorem WellFormed.pathMap_withContent (h : t.WellFormed) (hn : t.isDirectory n = false)
    (content : Bytes) (q : List String) : (t.withContent n content).pathMap q =
      if t.walk t.root q = some n then some (.file content) else t.pathMap q := by
  unfold pathMap
  rw [root_withContent, h.walk_withContent hn]
  cases hq : t.walk t.root q with
  | none => rfl
  | some k =>
    obtain ⟨m, hm⟩ : ∃ m, t.node? k = some m := ⟨_, List.getElem?_eq_getElem (h.walk_lt hq)⟩
    rw [Option.bind_some, Option.bind_some, bodyAt?, bodyAt?, node?_withContent, hm, Option.map_some,
      Option.map_some, Option.map_some]
    by_cases heq : n = k
    · rw [if_pos heq, if_pos (congrArg some heq.symm)]
    · rw [if_neg heq, if_neg fun hsome => heq (Option.some.inj hsome).symm]

theorem WellFormed.lookup_withContent (h : t.WellFormed) (hn : t.isDirectory n = false)
    (content : Bytes) (path : String) : (t.withContent n content).lookup path = t.lookup path := by
  unfold lookup
  cases Path.segments path with
  | ok names => exact h.walk_withContent hn content _ names
  | error e => rfl

end FileTree

end WasiSandbox
