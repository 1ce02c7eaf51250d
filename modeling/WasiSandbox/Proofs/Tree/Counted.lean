import WasiSandbox.Proofs.Tree.Places

/-! # All handles are counted

A directory that is alive has a handle on each node that it lists; all other handles are with somebody else:
that on the root with the tree, the rest with those who work with it. `Counted handles` says that the
counts of a tree are those of all these handles, of which `handles` are the ones that no directory has. To
drop handles keeps the account: what a node has had on its children when its last handle goes is, until it
is dropped as well, a handle that no directory has (`Counted.released`). So does all that operations do to a
tree (`Counted.perform`). It follows that a node is alive just if there is a way down to it from a node with
such a handle (`Counted.alive_iff`). -/

namespace WasiSandbox

namespace FileTree

variable {t : FileTree} {n k dir : NodeId} {x path : String} {handles : List NodeId} {content : Bytes}
  {body : NodeBody} {strong : List Nat}

/-! ### The account -/

/-- The directory that lists the node. -/
def parent? (t : FileTree) (n : NodeId) : Option NodeId := (t.node? n).bind (·.parent)

/-- The handle that the directory has on a node that it lists, as long as it is alive itself. -/
def entryCount (t : FileTree) (n : NodeId) : Nat := if (t.parent? n).any t.alive then 1 else 0

/-- The handles on each node are those of the directory that lists it and the given ones. -/
structure Counted (t : FileTree) (handles : List NodeId) : Prop extends WellFormed t where
  length : t.strong.length = t.nodes.length
  count : ∀ n, t.strongCount n = t.entryCount n + handles.count n

theorem alive_iff_pos : t.alive n = true ↔ 0 < t.strongCount n := decide_eq_true_iff

theorem lists_parent? (h : t.Lists dir x n) : t.parent? n = some dir := by
  obtain ⟨m, hm, hp, -⟩ := h
  rw [parent?, hm, Option.bind_some, hp]

theorem WellFormed.parent?_lt (h : t.WellFormed) (hn : t.parent? n = some dir) :
    dir < n ∧ n < t.nodes.length ∧ t.isDirectory dir = true := by
  obtain ⟨m, hm, hp⟩ := Option.bind_eq_some_iff.mp hn
  exact ⟨(h.parent hm hp).1, node?_lt hm, (h.parent hm hp).2⟩

theorem strongCount_of_length_le (hn : t.strong.length ≤ n) : t.strongCount n = 0 := by
  unfold strongCount
  rw [List.getElem?_eq_none hn]
  rfl

theorem length_add (h : t.strong.length = t.nodes.length) :
    (t.add dir x body).strong.length = (t.add dir x body).nodes.length := by
  simp [FileTree.add, h]

/-- A node that was there before a new one came is as alive as before. -/
theorem alive_of_add (h : t.strong.length = t.nodes.length) (hn : n ≠ t.nodes.length)
    (halive : (t.add dir x body).alive n = true) : t.alive n = true := by
  rw [alive_iff_pos, strongCount] at halive ⊢
  rwa [show (t.add dir x body).strong = t.strong ++ [1] from rfl, getElem?_concat, h, if_neg hn] at halive

theorem alive_lt (hn : t.alive n = true) : n < t.strong.length := by
  by_contra hout
  rw [alive_iff_pos, strongCount_of_length_le (Nat.le_of_not_lt hout)] at hn
  exact Nat.lt_irrefl 0 hn

theorem counted_empty : empty.Counted [empty.root] where
  toWellFormed := .empty
  length := rfl
  count n := by
    cases n with
    | zero => rfl
    | succ n =>
      have hcount : [empty.root].count (n + 1) = 0 := List.count_eq_zero.mpr (by simp [empty])
      rw [strongCount_of_length_le (Nat.le_add_left 1 n), hcount]
      rfl

namespace Counted

/-- Whatever has a handle of somebody's is alive. -/
theorem alive_of_mem (h : t.Counted handles) (hn : n ∈ handles) : t.alive n = true := by
  have hpos := List.count_pos_iff.mpr hn
  rw [alive_iff_pos, h.count]
  omega

/-- What a directory lists is alive with it. -/
theorem alive_of_parent (h : t.Counted handles) (hn : t.parent? n = some dir)
    (hdir : t.alive dir = true) : t.alive n = true := by
  rw [alive_iff_pos, h.count, entryCount, hn, Option.any_some, if_pos hdir]
  omega

/-- A node is alive because of a directory, or because of somebody else. -/
theorem alive_cases (h : t.Counted handles) (hn : t.alive n = true) :
    (∃ dir, t.parent? n = some dir ∧ t.alive dir = true) ∨ n ∈ handles := by
  by_cases hmem : n ∈ handles
  · exact Or.inr hmem
  · rw [alive_iff_pos, h.count, List.count_eq_zero.mpr hmem, entryCount] at hn
    cases hp : t.parent? n with
    | none => simp [hp] at hn
    | some dir =>
      have hdir : t.alive dir = true := by
        by_contra hdead
        simp [hp, hdead] at hn
      exact Or.inl ⟨dir, rfl, hdir⟩

/-- **A node is alive** just if there is a way down to it from a node with a handle. -/
theorem alive_iff (h : t.Counted handles) :
    t.alive n = true ↔ ∃ k ∈ handles, ∃ q, t.walk k q = some n := by
  -- The last step of a way comes from the directory that lists the node, which is older than it.
  induction n using Nat.strongRecOn with
  | _ n ih =>
    constructor
    · intro hn
      rcases h.alive_cases hn with ⟨dir, hp, hdir⟩ | hmem
      · obtain ⟨m, hm, hparent⟩ := Option.bind_eq_some_iff.mp hp
        obtain ⟨hlt, -, hd⟩ := h.parent?_lt hp
        obtain ⟨k, hk, q, hq⟩ := (ih dir hlt).mp hdir
        have hc : t.child? dir m.name = some n := h.child?_eq_some_iff.mpr ⟨m, hm, hparent, rfl⟩
        exact ⟨k, hk, q ++ [m.name], walk_snoc_eq_some_iff.mpr ⟨dir, hq, hd, hc⟩⟩
      · exact ⟨n, hmem, [], rfl⟩
    · rintro ⟨k, hk, q, hq⟩
      rcases List.eq_nil_or_concat q with rfl | ⟨q, x, rfl⟩
      · cases hq
        exact h.alive_of_mem hk
      · rw [List.concat_eq_append] at hq
        obtain ⟨dir, hdir, -, hc⟩ := walk_snoc_eq_some_iff.mp hq
        have hp := lists_parent? (lists_of_child? hc)
        exact h.alive_of_parent hp ((ih dir (h.parent?_lt hp).1).mpr ⟨k, hk, q, hdir⟩)

/-- What is attached to the tree is alive, as the tree has a handle on its root. -/
theorem alive_of_attached (h : t.Counted (t.root :: handles)) (hn : t.attached n = true) :
    t.alive n = true :=
  h.alive_iff.mpr ⟨t.root, List.mem_cons_self, h.attached_iff.mp hn⟩

theorem alive_of_lookup (h : t.Counted (t.root :: handles)) (hn : t.lookup path = some n) :
    t.alive n = true := by
  unfold lookup at hn
  split at hn
  · exact h.alive_iff.mpr ⟨t.root, List.mem_cons_self, _, hn⟩
  · cases hn

theorem perm {handles' : List NodeId} (h : t.Counted handles) (hperm : handles.Perm handles') :
    t.Counted handles' where
  toWellFormed := h.toWellFormed
  length := h.length
  count n := by rw [h.count, hperm.count_eq]

/-! ### Handles -/

/-- **One more handle on a node that is alive.** -/
theorem acquire (h : t.Counted handles) (hn : t.alive n = true) : (t.acquire n).Counted (n :: handles) := by
  have hcount : ∀ k, (t.acquire n).strongCount k = t.strongCount k + if n = k then 1 else 0 := fun k => by
    unfold FileTree.acquire strongCount
    rw [List.getElem?_modify]
    by_cases hk : n = k
    · obtain ⟨count, hsome⟩ : ∃ count, t.strong[k]? = some count :=
        ⟨_, List.getElem?_eq_getElem (hk ▸ alive_lt hn)⟩
      simp [hk, hsome]
    · simp [hk]
  have halive : (t.acquire n).alive = t.alive := funext fun k => by
    rw [Bool.eq_iff_iff, alive_iff_pos, alive_iff_pos, hcount]
    by_cases hk : n = k
    · have hpos := alive_iff_pos.mp (hk ▸ hn)
      omega
    · rw [if_neg hk, Nat.add_zero]
  exact
    { toWellFormed := h.withCounts _
      length := (List.length_modify ..).trans h.length
      count := fun k => by
        have hentry : (t.acquire n).entryCount k = t.entryCount k := by
          unfold entryCount
          rw [halive]
          rfl
        rw [hcount, h.count, hentry, List.count_cons, Nat.add_assoc]
        simp only [beq_iff_eq] }

end Counted

theorem mem_children : k ∈ children t.nodes dir ↔ t.parent? k = some dir := by
  unfold children parent? node?
  rw [List.mem_filter, List.mem_range, beq_iff_eq]
  refine and_iff_right_of_imp fun hp => ?_
  obtain ⟨m, hm, -⟩ := Option.bind_eq_some_iff.mp hp
  exact (List.getElem?_eq_some_iff.mp hm).1

theorem count_bereft (t : FileTree) (n : NodeId) (left : Nat) (k : NodeId) :
    (bereft t.nodes n left).count k = if left = 0 ∧ t.parent? k = some n then 1 else 0 := by
  unfold bereft
  by_cases hleft : left = 0
  · have hnodup : (children t.nodes n).Nodup := List.nodup_range.filter _
    rw [if_pos hleft, List.Nodup.count hnodup]
    simp only [mem_children, hleft, true_and]
  · rw [if_neg hleft, if_neg fun h => hleft h.1, List.count_nil]

section Set

variable {left : Nat} (hleft : strong[n]? = some (left + 1))

include hleft

theorem strongCount_set (k : NodeId) : (t.withCounts (strong.set n left)).strongCount k =
    if n = k then left else (t.withCounts strong).strongCount k := by
  unfold strongCount withCounts
  dsimp only
  rw [List.getElem?_set]
  by_cases hk : n = k
  · subst hk
    rw [if_pos rfl, if_pos rfl, if_pos (List.getElem?_eq_some_iff.mp hleft).1]
    rfl
  · rw [if_neg hk, if_neg hk]

/-- A directory that goes has no handles any more, and leaves its own to nobody. -/
theorem entryCount_set (k : NodeId) : (t.withCounts strong).entryCount k =
    (t.withCounts (strong.set n left)).entryCount k + (bereft t.nodes n left).count k := by
  rw [count_bereft]
  unfold entryCount
  have hparent : ∀ strong, (t.withCounts strong).parent? k = t.parent? k := fun _ => rfl
  rw [hparent, hparent]
  cases t.parent? k with
  | none => simp
  | some p =>
    rw [Option.any_some, Option.any_some, alive, alive, strongCount_set hleft]
    by_cases hp : n = p
    · subst hp
      have hn : (t.withCounts strong).strongCount n = left + 1 := by
        unfold strongCount withCounts
        rw [hleft, Option.getD_some]
      rw [hn]
      cases left <;> simp
    · have hne : ¬ (left = 0 ∧ some p = some n) := fun hboth => hp (Option.some.inj hboth.2).symm
      rw [if_neg hp, if_neg hne, Nat.add_zero]

end Set

namespace Counted

/-- One handle on a node goes, and with the last one those come to nobody that it has on its children. -/
theorem given {left : Nat} (h : (t.withCounts strong).Counted (n :: handles))
    (hleft : strong[n]? = some (left + 1)) :
    (t.withCounts (strong.set n left)).Counted (bereft t.nodes n left ++ handles) where
  toWellFormed := h.withCounts _
  length := (List.length_set ..).trans h.length
  count k := by
    have hbefore := h.count k
    rw [entryCount_set hleft, List.count_cons] at hbefore
    rw [strongCount_set hleft, List.count_append]
    by_cases hk : n = k
    · subst hk
      rw [strongCount, show (t.withCounts strong).strong = strong from rfl, hleft] at hbefore
      simp only [Option.getD_some, beq_self_eq_true, if_true] at hbefore
      rw [if_pos rfl]
      omega
    · rw [beq_false_of_ne hk, if_neg Bool.false_ne_true] at hbefore
      rw [if_neg hk]
      omega

/-- **Handles are dropped** one after the other, and with them those that nobody has any more. -/
theorem released {dropped : List NodeId}
    (h : (t.withCounts strong).Counted (dropped ++ handles)) :
    (t.withCounts (FileTree.released t.nodes strong dropped)).Counted handles := by
  fun_induction FileTree.released t.nodes strong dropped with
  | case1 strong => exact h
  | case2 strong n dropped left hleft ih =>
    refine ih ?_
    rw [List.append_assoc]
    exact h.given hleft
  | case3 strong n dropped hnone ih =>
    -- There is none to drop of a node on which nobody has a handle.
    have hpos := alive_iff_pos.mp (h.alive_of_mem List.mem_cons_self)
    unfold strongCount withCounts at hpos
    cases hcount : strong[n]? with
    | none => simp [hcount] at hpos
    | some count =>
      cases count with
      | zero => simp [hcount] at hpos
      | succ left => exact absurd hcount (hnone left)

theorem drop (h : t.Counted (n :: handles)) : (t.drop n).Counted handles := by
  have hone : (t.withCounts t.strong).Counted ([n] ++ handles) := h
  exact hone.released

end Counted

/-- A node that lists nothing takes no other handles with it. -/
theorem strongCount_drop_of_leaf (hleaf : ∀ m, t.parent? m ≠ some n) (hk : n ≠ k) :
    (t.drop n).strongCount k = t.strongCount k := by
  have hbereft : ∀ left, bereft t.nodes n left = [] := fun left =>
    List.eq_nil_iff_forall_not_mem.mpr fun m hm => by
      have hpos := List.count_pos_iff.mpr hm
      rw [count_bereft, if_neg fun hboth => hleaf m hboth.2] at hpos
      exact Nat.lt_irrefl 0 hpos
  have hcount : (FileTree.released t.nodes t.strong [n])[k]? = t.strong[k]? := by
    rw [FileTree.released]
    split
    · rw [hbereft, List.nil_append, FileTree.released, List.getElem?_set_ne hk]
    · rw [FileTree.released]
  unfold strongCount FileTree.drop
  rw [hcount]

/-! ### Changes of the nodes -/

namespace Counted

theorem count_length (h : t.Counted handles) : handles.count t.nodes.length = 0 := by
  have hcount := h.count t.nodes.length
  rw [strongCount_of_length_le (Nat.le_of_eq h.length)] at hcount
  omega

section Concat

variable {t' : FileTree} {m : Node} (hnodes : t'.nodes = t.nodes ++ [m]) (hstrong : t'.strong = t.strong ++ [1])

include hnodes hstrong

/-- **A node behind all others**, with one handle on it: a directory's or somebody else's. The others are
listed where they were. -/
theorem concat {handles' : List NodeId} (h : t.Counted handles) (ht' : t'.WellFormed)
    (hm : ∀ dir, m.parent = some dir → dir < t.nodes.length)
    (hone : (if m.parent.any t.alive then 1 else 0) + handles'.count t.nodes.length = 1)
    (hothers : ∀ n, n ≠ t.nodes.length → handles'.count n = handles.count n) : t'.Counted handles' where
  toWellFormed := ht'
  length := by rw [hstrong, hnodes, List.length_append, List.length_append, h.length]; rfl
  count n := by
    have hcount : ∀ n, t'.strongCount n = if n = t.nodes.length then 1 else t.strongCount n := fun n => by
      unfold strongCount
      rw [hstrong, getElem?_concat, h.length]
      split <;> rfl
    have hparent : t'.parent? n = if n = t.nodes.length then m.parent else t.parent? n := by
      unfold parent? node?
      rw [hnodes, getElem?_concat]
      split <;> rfl
    have halive : ∀ p : Option NodeId, (∀ dir, p = some dir → dir < t.nodes.length) →
        p.any t'.alive = p.any t.alive := fun p hp => by
      cases p with
      | none => rfl
      | some dir =>
        rw [Option.any_some, Option.any_some, alive, alive, hcount, if_neg (Nat.ne_of_lt (hp dir rfl))]
    rw [hcount, entryCount, hparent]
    by_cases hn : n = t.nodes.length
    · rw [if_pos hn, if_pos hn, halive _ hm, hn, hone]
    · rw [if_neg hn, if_neg hn, hothers n hn, h.count, halive]
      · rfl
      · intro dir hdir
        obtain ⟨hlt, hlength, -⟩ := h.parent?_lt hdir
        exact hlt.trans hlength

end Concat

/-- **A new node in a directory that is alive.** -/
theorem add (h : t.Counted handles) (hd : t.isDirectory dir = true) (hdir : t.alive dir = true)
    (hfree : t.child? dir x = none) (body : NodeBody) : (t.add dir x body).Counted handles := by
  refine concat rfl rfl h (h.toWellFormed.add hd hfree) ?_ ?_ fun _ _ => rfl
  · rintro p ⟨⟩
    exact isDirectory_lt hd
  · rw [h.count_length, Option.any_some, if_pos hdir]

theorem alive_add (hn : t.alive n = true) : (t.add dir x body).alive n = true := by
  have hlt := alive_lt hn
  rw [alive_iff_pos, strongCount] at hn ⊢
  rw [show (t.add dir x body).strong = t.strong ++ [1] from rfl, List.getElem?_append_left hlt]
  exact hn

/-- **A fresh root**: there is one handle on it, which is not a directory's. -/
theorem replant (h : t.Counted handles) : t.replant.Counted (t.nodes.length :: handles) := by
  refine concat rfl rfl h h.toWellFormed.replant ?_ ?_ fun n hn => List.count_cons_of_ne hn.symm
  · rintro p ⟨⟩
  · rw [List.count_cons_self, h.count_length]
    rfl

/-- **Other content in a file.** -/
theorem withContent (h : t.Counted handles) (hn : t.isDirectory n = false) (content : Bytes) :
    (t.withContent n content).Counted handles where
  toWellFormed := h.toWellFormed.withContent hn
  length := h.length.trans (List.length_modify ..).symm
  count k := by
    have hparent : (t.withContent n content).parent? k = t.parent? k := by
      unfold parent?
      rw [node?_withContent]
      cases t.node? k with
      | none => rfl
      | some m => by_cases hk : n = k <;> simp [hk]
    have hentry : (t.withContent n content).entryCount k = t.entryCount k := by
      unfold entryCount
      rw [hparent]
      rfl
    rw [hentry]
    exact h.count k

/-- A node out of its directory: the handle of the directory comes to nobody. -/
theorem cutOff (h : t.Counted handles) (hn : t.parent? n = some dir) (hdir : t.alive dir = true) :
    (t.cutOff n).Counted (n :: handles) where
  toWellFormed := h.toWellFormed.unlist.withCounts t.strong
  length := h.length.trans (List.length_modify ..).symm
  count k := by
    have hparent : (t.cutOff n).parent? k = if n = k then none else t.parent? k := by
      unfold parent? FileTree.cutOff node?
      rw [List.getElem?_modify]
      by_cases hk : n = k <;> cases t.nodes[k]? <;> simp [hk]
    have hcount := h.count k
    have hentry : (t.cutOff n).entryCount k = if n = k then 0 else t.entryCount k := by
      unfold entryCount
      rw [hparent]
      by_cases hk : n = k
      · simp [hk]
      · rw [if_neg hk, if_neg hk]
        rfl
    rw [show (t.cutOff n).strongCount k = t.strongCount k from rfl, hcount, hentry, List.count_cons]
    by_cases hk : n = k
    · subst hk
      rw [entryCount, hn, Option.any_some, if_pos hdir]
      simp [Nat.add_comm]
    · simp [hk]

/-- **A file out of its directory**, whose handle on it is dropped. -/
theorem unlist (h : t.Counted handles) (hn : t.parent? n = some dir) (hdir : t.alive dir = true) :
    (t.unlist n).Counted handles := (h.cutOff hn hdir).drop

/-- The directory is none the worse for it. -/
theorem alive_unlist (h : t.Counted handles) (hn : t.isDirectory n = false) (hd : t.isDirectory dir = true)
    (hdir : t.alive dir = true) : (t.unlist n).alive dir = true := by
  have hleaf : ∀ m, (t.cutOff n).parent? m ≠ some n := fun m hm => by
    have hwell : (t.cutOff n).WellFormed := h.toWellFormed.unlist.withCounts t.strong
    have hdirectory := hwell.parent?_lt hm
    rw [show (t.cutOff n).isDirectory n = (t.unlist n).isDirectory n from rfl, isDirectory_unlist, hn]
      at hdirectory
    cases hdirectory.2.2
  have hne : n ≠ dir := by
    rintro rfl
    rw [hn] at hd
    cases hd
  have hcount : (t.unlist n).strongCount dir = t.strongCount dir := strongCount_drop_of_leaf hleaf hne
  rw [alive_iff_pos, hcount]
  exact alive_iff_pos.mp hdir

end Counted

/-! ### Operations -/

/-- All handles are counted afterwards, and the node that is given, if any, is a directory that is alive. -/
def GivesDirectory (handles : List NodeId) : EStateM.Result (Failure FsError) FileTree NodeId → Prop
  | .ok n t => t.Counted handles ∧ t.isDirectory n = true ∧ t.alive n = true
  | .error _ t => t.Counted handles

namespace GivesDirectory

theorem counted_left {r : EStateM.Result (Failure FsError) FileTree NodeId} (hr : GivesDirectory handles r) :
    (left r).Counted handles := by
  cases r with
  | ok n t => exact hr.1
  | error e t => exact hr

/-- What comes next goes on with the directory, or does not run at all. -/
theorem bind_cases {α : Type} {op : TreeM NodeId} {f : NodeId → TreeM α}
    {motive : EStateM.Result (Failure FsError) FileTree α → Prop} (hop : GivesDirectory handles (op t))
    (hf : ∀ n t', t'.Counted handles → t'.isDirectory n = true → t'.alive n = true → motive (f n t'))
    (hfail : ∀ e t', t'.Counted handles → motive (.error e t')) : motive ((op >>= f) t) := by
  cases hrun : op t with
  | ok n t' =>
    rw [hrun] at hop
    rw [run_bind_ok hrun]
    exact hf n t' hop.1 hop.2.1 hop.2.2
  | error e t' =>
    rw [hrun] at hop
    rw [run_bind_error hrun]
    exact hfail e t' hop

theorem counted_bind {α : Type} {op : TreeM NodeId} {f : NodeId → TreeM α}
    (hop : GivesDirectory handles (op t))
    (hf : ∀ n t', t'.Counted handles → t'.isDirectory n = true → t'.alive n = true →
      (left (f n t')).Counted handles) : (left ((op >>= f) t)).Counted handles :=
  hop.bind_cases (motive := fun r => (left r).Counted handles) hf fun _ _ h => h

end GivesDirectory

namespace Counted

/-- A step of a way comes from a directory that is alive to one that is. -/
theorem ensureDirectory (h : t.Counted handles) (hd : t.isDirectory dir = true) (hdir : t.alive dir = true)
    (path x : String) : GivesDirectory handles (FileTree.ensureDirectory path dir x t) := by
  rw [ensureDirectory_eq]
  cases hc : t.child? dir x with
  | none =>
    have hadded := h.add hd hdir hc .directory
    have hp := lists_parent? (lists_add.mpr (Or.inr ⟨rfl, rfl, rfl⟩) :
      (t.add dir x .directory).Lists dir x t.nodes.length)
    refine ⟨hadded, ?_, hadded.alive_of_parent hp (alive_add hdir)⟩
    rw [isDirectory_iff_bodyAt?, bodyAt?_add, if_pos rfl]
  | some n =>
    dsimp only
    split
    · next hn => exact ⟨h, hn, h.alive_of_parent (lists_parent? (lists_of_child? hc)) hdir⟩
    · exact h

theorem requireDirectory (h : t.Counted handles) (hdir : t.alive dir = true) (path x : String) :
    GivesDirectory handles (FileTree.requireDirectory path dir x t) := by
  rw [requireDirectory_eq]
  cases hc : t.child? dir x with
  | none => exact h
  | some n =>
    dsimp only
    split
    · next hn => exact ⟨h, hn, h.alive_of_parent (lists_parent? (lists_of_child? hc)) hdir⟩
    · exact h

/-- **A way** comes from a directory that is alive to one that is. -/
theorem foldlM {f : NodeId → String → TreeM NodeId}
    (hf : ∀ {t : FileTree} {dir}, t.Counted handles → t.isDirectory dir = true → t.alive dir = true →
      ∀ x, GivesDirectory handles (f dir x t))
    (h : t.Counted handles) (hd : t.isDirectory dir = true) (hdir : t.alive dir = true) (ns : List String) :
    GivesDirectory handles (ns.foldlM f dir t) := by
  induction ns generalizing t dir with
  | nil => exact ⟨h, hd, hdir⟩
  | cons x ns ih =>
    rw [List.foldlM_cons]
    exact (hf h hd hdir x).bind_cases (fun n t' h hd hdir => ih h hd hdir) fun _ _ h => h

theorem insertNew (h : t.Counted handles) (hd : t.isDirectory dir = true) (hdir : t.alive dir = true)
    (path x : String) (body : NodeBody) :
    (left (FileTree.insertNew path dir x body t)).Counted handles := by
  unfold FileTree.insertNew
  rw [run_get_bind]
  split
  · exact h
  · next hfree => exact h.add hd hdir (Option.not_isSome_iff_eq_none.mp hfree) body

/-- A file that is put in the place of another goes into the directory that had a handle on that one. -/
theorem putFile (h : t.Counted handles) (hd : t.isDirectory dir = true) (hdir : t.alive dir = true)
    (path x : String) (content : Bytes) :
    (left (FileTree.putFile path dir x content t)).Counted handles := by
  unfold FileTree.putFile
  rw [run_get_bind]
  cases hc : t.child? dir x with
  | none => exact h.add hd hdir hc _
  | some n =>
    dsimp only
    split
    · exact h
    · next hn =>
      have hfile := Bool.eq_false_iff.mpr hn
      have hlists := lists_of_child? hc
      rw [run_bind_ok (detach_run n t), create_run]
      refine (h.unlist (lists_parent? hlists) hdir).add ?_ (h.alive_unlist hfile hd hdir) ?_ _
      · rw [isDirectory_unlist, hd]
      · rw [h.child?_unlist hlists, if_pos ⟨rfl, rfl⟩]

theorem updateContent {α : Type} (h : t.Counted handles) (n : NodeId)
    (f : String → Bytes → Except (Failure FsError) (α × Bytes)) :
    (left (FileTree.updateContent n f t)).Counted handles := by
  rw [updateContent_run]
  split
  · exact h
  · next hfile =>
    split
    · exact h
    · exact h.withContent (file?_not_directory hfile) _

section Root

variable (h : t.Counted (t.root :: handles))

include h

theorem alive_root : t.alive t.root = true := h.alive_of_mem List.mem_cons_self

/-- So does the way from the root, with or without directories that are missing. -/
theorem ensureWay (path : String) (names : List String) :
    GivesDirectory (t.root :: handles) (names.foldlM (FileTree.ensureDirectory path) t.root t) :=
  foldlM (fun h hd hdir x => h.ensureDirectory hd hdir path x) h h.root_isDirectory h.alive_root names

theorem requireWay (path : String) (names : List String) :
    GivesDirectory (t.root :: handles) (names.foldlM (FileTree.requireDirectory path) t.root t) :=
  foldlM (fun h _ hdir x => h.requireDirectory hdir path x) h h.root_isDirectory h.alive_root names

theorem createDirectories (path : String) :
    (left (FileTree.createDirectories path t)).Counted (t.root :: handles) := by
  unfold FileTree.createDirectories
  cases hp : Path.segments path with
  | error e =>
    rw [run_bind_error (parse_error hp t)]
    exact h
  | ok names =>
    rw [run_bind_ok (parse_ok hp t), run_get_bind]
    exact (h.ensureWay path names).counted_left

theorem addFile (path : String) (content : Bytes) :
    (left (FileTree.addFile path content t)).Counted (t.root :: handles) := by
  unfold FileTree.addFile
  cases hp : Path.segments path with
  | error e =>
    rw [run_bind_error (parse_error hp t)]
    exact h
  | ok names =>
    rw [run_bind_ok (parse_ok hp t)]
    cases names.getLast? with
    | none => exact h
    | some x =>
      dsimp only
      rw [run_get_bind]
      exact (h.ensureWay path _).counted_bind fun n t' h' hd hn => h'.putFile hd hn path x content

theorem createAt (path : String) (body : NodeBody) :
    (left (FileTree.createAt path body t)).Counted (t.root :: handles) := by
  unfold FileTree.createAt
  cases hp : Path.segments path with
  | error e =>
    rw [run_bind_error (parse_error hp t)]
    exact h
  | ok names =>
    rw [run_bind_ok (parse_ok hp t)]
    cases names.getLast? with
    | none => exact h
    | some x =>
      dsimp only
      rw [run_get_bind]
      exact (h.requireWay path _).counted_bind fun n t' h' hd hn => h'.insertNew hd hn path x body

/-- One file after the other, below the same root. -/
theorem addFiles (files : List (String × Bytes)) :
    (left (FileTree.addFiles files t)).root = t.root ∧
      (left (FileTree.addFiles files t)).Counted (t.root :: handles) := by
  have hadd : ∀ f : String × Bytes, Maintains
      (fun s : FileTree => s.root = t.root ∧ s.Counted (t.root :: handles)) (FileTree.addFile f.1 f.2) := by
    rintro f s ⟨hroot, hs⟩
    have hsame : (left (FileTree.addFile f.1 f.2 s)).root = s.root :=
      (perform_retains s ⟨.addFile f.1 f.2, rfl⟩).root
    refine ⟨hsame.trans hroot, ?_⟩
    rw [← hroot] at hs ⊢
    exact hs.addFile f.1 f.2
  exact maintains_forM (fun f => (hadd f).discard) files t ⟨rfl, h⟩

/-- Where another tree takes the place of the old one, its root is owned in the stead of the old one. -/
theorem replaceWith (files : List (String × Bytes)) : (left (FileTree.replaceWith files t)).Counted
    ((left (FileTree.replaceWith files t)).root :: handles) := by
  rcases left_replaceWith files t with heq | heq
  · rw [heq]
    obtain ⟨hroot, hcounted⟩ := h.replant.addFiles files
    rw [root_drop, hroot]
    exact (hcounted.perm (List.Perm.swap ..)).drop
  · rwa [heq]

/-- **Whatever is done to a tree**, all handles are counted. -/
theorem perform (op : TreeOperation) : (t.perform op).Counted ((t.perform op).root :: handles) := by
  have hroot : ∀ hop : op.isInPlace = true, (t.perform op).root = t.root := fun hop =>
    (perform_retains t ⟨op, hop⟩).root
  cases op with
  | replaceWith files => exact h.replaceWith files
  | addFile path content => rw [hroot rfl]; exact h.addFile path content
  | createDirectories path => rw [hroot rfl]; exact h.createDirectories path
  | createDirectory path => rw [hroot rfl]; exact h.createAt path _
  | createFile path => rw [hroot rfl]; exact h.createAt path _
  | writeAt n offset data => rw [hroot rfl]; exact h.updateContent n _
  | append n data => rw [hroot rfl]; exact h.updateContent n _
  | setLength n length => rw [hroot rfl]; exact h.updateContent n _

end Root

/-- **A tree that has grown from the empty one** counts all handles, of which one is with the tree itself. -/
theorem run (h : t.Counted (t.root :: handles)) (ops : List TreeOperation) :
    (t.run ops).Counted ((t.run ops).root :: handles) := by
  induction ops generalizing t with
  | nil => exact h
  | cons op ops ih => exact ih (h.perform op)

end Counted

end FileTree

end WasiSandbox
