import WasiSandbox.Proofs.Tree.Counted
import WasiSandbox.Tree.Handles

/-! # How long a watched node can be had back

Whoever works with a tree holds some of its nodes and watches others. A watched node can be had back as long
as something owns it: the tree that it is found in, or a held node that it lies at or below (`Owns`). What
the program looks at is how many handles there are on the node. Whatever steps are taken, they are those of
the tree on its root, of the directories that are alive on what they list, and of the slots (`Tidy`), so
there is one just if the node has an owner (`Tidy.alive_iff`). A directory of a tree that stays in place is
owned for good. A file is owned by the tree until another one is added at its path; it is in no directory
then, so only those who hold it own it, and what they write to it is seen by nobody else (`upgrade_owned`). -/

namespace WasiSandbox

/-- The operation writes through the node. -/
def TreeOperation.WritesTo (n : NodeId) : TreeOperation → Prop
  | .writeAt k _ _ | .append k _ | .setLength k _ => k = n
  | _ => False

namespace FileTree

variable {t : FileTree} {n : NodeId} {q : List String} {content : Bytes}

/-! ### Writing outside the tree -/

theorem WellFormed.updateContent_outside (h : t.WellFormed) (hout : ∀ q, t.walk t.root q ≠ some n)
    {α : Type} (f : String → Bytes → Except (Failure FsError) (α × Bytes)) :
    (left (FileTree.updateContent n f t)).pathMap = t.pathMap ∧
      ∀ path, (left (FileTree.updateContent n f t)).lookup path = t.lookup path := by
  rw [updateContent_run]
  split
  · exact ⟨rfl, fun _ => rfl⟩
  · next hfile =>
    have hn := file?_not_directory hfile
    split
    · exact ⟨rfl, fun _ => rfl⟩
    · exact ⟨funext fun q => (h.pathMap_withContent hn _ q).trans (if_neg (hout q)),
        h.lookup_withContent hn _⟩

/-- **What is written outside the tree** is not seen in the tree. -/
theorem WellFormed.perform_outside (h : t.WellFormed) (hout : ∀ q, t.walk t.root q ≠ some n)
    {op : TreeOperation} (hop : op.WritesTo n) :
    (t.perform op).pathMap = t.pathMap ∧ ∀ path, (t.perform op).lookup path = t.lookup path := by
  cases op with
  | writeAt k offset data =>
    obtain rfl : k = n := hop
    exact h.updateContent_outside hout _
  | append k data =>
    obtain rfl : k = n := hop
    exact h.updateContent_outside hout _
  | setLength k length =>
    obtain rfl : k = n := hop
    exact h.updateContent_outside hout _
  | _ => exact hop.elim

end FileTree

/-! ### Steps on a workspace -/

/-- What can be done to a tree and to the slots for its nodes. -/
inductive WorkspaceStep where
  | change (op : TreeOperation)
  | hold (slot : Nat) (path : String)
  | release (slot : Nat)
  | watch (slot : Nat) (path : String)

/-- The step leaves the tree the one that it is. -/
def WorkspaceStep.isInPlace : WorkspaceStep → Bool
  | change op => op.isInPlace
  | _ => true

namespace Workspace

variable {w : Workspace} {slot s : Nat} {n k : NodeId} {step : WorkspaceStep} {path : String}
  {names : List String}

/-- The workspace after the step, whatever has come of it. -/
def take (w : Workspace) : WorkspaceStep → Workspace
  | .change op => { w with tree := w.tree.perform op }
  | .hold slot path => (w.hold slot path).2
  | .release slot => (w.release slot).2
  | .watch slot path => (w.watch slot path).2

/-- The workspace after all the steps. -/
def run (w : Workspace) (steps : List WorkspaceStep) : Workspace := steps.foldl take w

theorem take_hold_none (hn : w.tree.lookup path = none) (slot : Nat) : w.take (.hold slot path) = w := by
  show (w.hold slot path).2 = w
  unfold hold
  rw [hn]

theorem take_watch_some (hn : w.tree.lookup path = some n) (slot : Nat) :
    w.take (.watch slot path) = { w with watched := (slot, n) :: without w.watched slot } := by
  show (w.watch slot path).2 = _
  unfold watch
  rw [hn]

theorem take_watch_none (hn : w.tree.lookup path = none) (slot : Nat) : w.take (.watch slot path) = w := by
  show (w.watch slot path).2 = w
  unfold watch
  rw [hn]

/-! ### Slots -/

section Slots

variable {slots : List (Nat × NodeId)}

theorem lookup_cons_of_ne (hs : s ≠ slot) (n : NodeId) :
    List.lookup s ((slot, n) :: slots) = slots.lookup s := by
  rw [List.lookup_cons, beq_false_of_ne hs]

theorem lookup_without (hs : s ≠ slot) : (without slots slot).lookup s = slots.lookup s := by
  unfold without
  induction slots with
  | nil => rfl
  | cons p slots ih =>
    rw [List.filter_cons]
    split
    · rw [List.lookup_cons, List.lookup_cons, ih]
    · next hdrop =>
      have heq : p.1 = slot := by simpa using hdrop
      rw [ih, lookup_cons_of_ne (heq ▸ hs)]

theorem nodup_without (h : (slots.map (·.1)).Nodup) (slot : Nat) :
    ((without slots slot).map (·.1)).Nodup :=
  h.sublist (List.filter_sublist.map _)

theorem without_of_lookup_none (h : slots.lookup slot = none) : without slots slot = slots := by
  refine List.filter_eq_self.mpr fun p hp => bne_iff_ne.mpr ?_
  have hne := List.lookup_eq_none_iff.mp h p hp
  exact (bne_iff_ne.mp hne).symm

/-- What is taken out of a slot is what it has held. -/
theorem perm_without (h : (slots.map (·.1)).Nodup) (hn : slots.lookup slot = some n) :
    (slots.map (·.2)).Perm (n :: (without slots slot).map (·.2)) := by
  obtain ⟨front, back, rfl, hfront⟩ := List.lookup_eq_some_iff.mp hn
  rw [List.map_append, List.map_cons, List.nodup_middle, List.nodup_cons] at h
  have hout : without (front ++ (slot, n) :: back) slot = front ++ back := by
    unfold without
    rw [List.filter_append, List.filter_cons_of_neg (by simp), ← List.filter_append]
    refine List.filter_eq_self.mpr fun p hp => bne_iff_ne.mpr fun heq => h.1 ?_
    rw [← heq, ← List.map_append]
    exact List.mem_map_of_mem (f := (·.1)) hp
  rw [hout, List.map_append, List.map_append, List.map_cons]
  exact List.perm_middle

theorem not_mem_without (slots : List (Nat × NodeId)) (slot : Nat) :
    slot ∉ (without slots slot).map (·.1) := by
  rintro hmem
  obtain ⟨p, hp, rfl⟩ := List.mem_map.mp hmem
  simp [without] at hp

end Slots

/-! ### What a slot holds -/

section Release

variable (w : Workspace) (slot : Nat)

theorem release_held : (w.release slot).2.held = without w.held slot := by
  unfold release
  split
  · rfl
  · next hnone => exact (without_of_lookup_none hnone).symm

theorem release_watched : (w.release slot).2.watched = w.watched := by
  unfold release
  split <;> rfl

/-- A slot that is emptied changes the tree in its counts only. -/
theorem release_tree : ∃ strong, (w.release slot).2.tree = w.tree.withCounts strong := by
  unfold release
  split
  · exact ⟨_, rfl⟩
  · exact ⟨w.tree.strong, rfl⟩

end Release

theorem take_hold_some (hn : w.tree.lookup path = some n) (slot : Nat) : w.take (.hold slot path) =
    { ((w.acquire n).release slot).2 with held := (slot, n) :: without w.held slot } := by
  show (w.hold slot path).2 = _
  unfold hold
  rw [hn]
  dsimp only
  rw [release_held]
  rfl

/-- **A slot that is emptied** drops the handle on what it has held, if anything. -/
theorem release_counted {handles : List NodeId} (h : w.tree.Counted (handles ++ w.kept))
    (hnodup : (w.held.map (·.1)).Nodup) (slot : Nat) :
    (w.release slot).2.tree.Counted (handles ++ (w.release slot).2.kept) := by
  unfold release
  split
  · next n hn =>
    have hperm : (handles ++ w.kept).Perm (n :: (handles ++ (without w.held slot).map (·.2))) :=
      ((perm_without hnodup hn).append_left handles).trans List.perm_middle
    exact (h.perm hperm).drop
  · exact h

/-- All handles on nodes of the tree are counted, and every slot holds one node at most. -/
structure Tidy (w : Workspace) : Prop where
  counted : w.tree.Counted (w.tree.root :: w.kept)
  held : (w.held.map (·.1)).Nodup

theorem Tidy.tree (h : w.Tidy) : w.tree.WellFormed := h.counted.toWellFormed

theorem tidy_empty : empty.Tidy := ⟨FileTree.counted_empty, List.nodup_nil⟩

theorem Tidy.take (h : w.Tidy) (step : WorkspaceStep) : (w.take step).Tidy := by
  cases step with
  | change op => exact ⟨h.counted.perform op, h.held⟩
  | hold slot path =>
    cases hn : w.tree.lookup path with
    | none => rwa [take_hold_none hn]
    | some n =>
      have hfound : (w.acquire n).tree.Counted ([w.tree.root, n] ++ (w.acquire n).kept) :=
        (h.counted.acquire (h.counted.alive_of_lookup hn)).perm (List.Perm.swap ..)
      have hcounted := release_counted hfound h.held slot
      rw [kept, release_held] at hcounted
      obtain ⟨strong, htree⟩ := (w.acquire n).release_tree slot
      have hroot : ((w.acquire n).release slot).2.tree.root = w.tree.root := by
        rw [htree]
        rfl
      rw [take_hold_some hn]
      exact ⟨hroot.symm ▸ hcounted, List.nodup_cons.mpr ⟨not_mem_without _ _, nodup_without h.held slot⟩⟩
  | release slot =>
    obtain ⟨strong, htree⟩ := w.release_tree slot
    refine ⟨?_, ?_⟩
    · have hroot : (w.release slot).2.tree.root = w.tree.root := by
        rw [htree]
        rfl
      show (w.release slot).2.tree.Counted ((w.release slot).2.tree.root :: (w.release slot).2.kept)
      rw [hroot]
      have hcounted : w.tree.Counted ([w.tree.root] ++ w.kept) := h.counted
      exact release_counted hcounted h.held slot
    · show ((w.release slot).2.held.map (·.1)).Nodup
      rw [release_held]
      exact nodup_without h.held slot
  | watch slot path =>
    cases hn : w.tree.lookup path with
    | none => rwa [take_watch_none hn]
    | some n =>
      rw [take_watch_some hn]
      exact ⟨h.counted, h.held⟩

theorem Tidy.run (h : w.Tidy) (steps : List WorkspaceStep) : (w.run steps).Tidy := by
  induction steps generalizing w with
  | nil => exact h
  | cons step steps ih => exact ih (h.take step)

/-- What is kept is what the slots hold. -/
theorem Tidy.mem_kept_iff (h : w.Tidy) : k ∈ w.kept ↔ ∃ slot, w.heldNode? slot = some k := by
  unfold kept heldNode?
  rw [List.mem_map]
  constructor
  · rintro ⟨⟨slot, n⟩, hmem, rfl⟩
    obtain ⟨front, back, hsplit⟩ := List.append_of_mem hmem
    refine ⟨slot, List.lookup_eq_some_iff.mpr ⟨front, back, hsplit, fun p hp => ?_⟩⟩
    have hnodup := h.held
    rw [hsplit, List.map_append, List.map_cons, List.nodup_append] at hnodup
    exact bne_iff_ne.mpr (hnodup.2.2 p.1 (List.mem_map_of_mem hp) slot List.mem_cons_self).symm
  · rintro ⟨slot, hslot⟩
    obtain ⟨front, back, hsplit, -⟩ := List.lookup_eq_some_iff.mp hslot
    exact ⟨(slot, k), hsplit ▸ List.mem_append_right _ List.mem_cons_self, rfl⟩

/-! ### Owners -/

/-- The node is in the tree, or it lies at or below a node that a slot holds. -/
def Owns (w : Workspace) (n : NodeId) : Prop :=
  (∃ q, w.tree.walk w.tree.root q = some n) ∨
    ∃ slot k q, w.heldNode? slot = some k ∧ w.tree.walk k q = some n

/-- **There is a handle on a node** just if it has an owner. -/
theorem Tidy.alive_iff (h : w.Tidy) : w.tree.alive n = true ↔ w.Owns n := by
  rw [h.counted.alive_iff]
  unfold Owns
  constructor
  · rintro ⟨k, hk, q, hq⟩
    rcases List.mem_cons.mp hk with rfl | hk
    · exact Or.inl ⟨q, hq⟩
    · obtain ⟨slot, hslot⟩ := h.mem_kept_iff.mp hk
      exact Or.inr ⟨slot, k, q, hslot, hq⟩
  · rintro (⟨q, hq⟩ | ⟨slot, k, q, hslot, hq⟩)
    · exact ⟨w.tree.root, List.mem_cons_self, q, hq⟩
    · exact ⟨k, List.mem_cons_of_mem _ (h.mem_kept_iff.mpr ⟨slot, hslot⟩), q, hq⟩

/-- **A watched node can be had back** if it has an owner. -/
theorem Tidy.upgrade_eq_some_iff (h : w.Tidy) (hwatched : w.watched.lookup slot = some n) :
    w.upgrade slot = some k ↔ k = n ∧ w.Owns n := by
  unfold upgrade
  rw [hwatched, Option.filter_some]
  split
  · next halive =>
    rw [Option.some.injEq]
    exact ⟨fun heq => ⟨heq.symm, h.alive_iff.mp halive⟩, fun heq => heq.1.symm⟩
  · next hdead => exact ⟨fun hnone => (nomatch hnone), fun how => absurd (h.alive_iff.mpr how.2) hdead⟩

/-! ### What a run does to a watched node -/

/-- The step puts another node into the watched slot. -/
def Watches (slot : Nat) (w : Workspace) : WorkspaceStep → Prop
  | .watch s path => s = slot ∧ (w.tree.lookup path).isSome = true
  | _ => False

/-- The step adds a file at the names, and succeeds. -/
def Puts (names : List String) (w : Workspace) : WorkspaceStep → Prop
  | .change op => w.tree.Puts op names
  | _ => False

/-- One of the steps puts another node into the watched slot. -/
def WatchesAmong (w : Workspace) (steps : List WorkspaceStep) (slot : Nat) : Prop :=
  Among take (Watches slot) w steps

/-- One of the steps adds a file at the names, and succeeds. -/
def PutsAmong (w : Workspace) (steps : List WorkspaceStep) (names : List String) : Prop :=
  Among take (Puts names) w steps

theorem watched_take (h : ¬ w.Watches slot step) :
    (w.take step).watched.lookup slot = w.watched.lookup slot := by
  cases step with
  | change op => rfl
  | hold s path =>
    cases hn : w.tree.lookup path with
    | none => rw [take_hold_none hn]
    | some n =>
      rw [take_hold_some hn]
      exact congrArg (List.lookup slot) (release_watched ..)
  | release s => exact congrArg (List.lookup slot) (release_watched ..)
  | watch s path =>
    cases hn : w.tree.lookup path with
    | none => rw [take_watch_none hn]
    | some n =>
      have hs : slot ≠ s := fun heq => h ⟨heq.symm, by rw [hn]; rfl⟩
      rw [take_watch_some hn]
      exact (lookup_cons_of_ne hs n).trans (lookup_without hs)

theorem watched_run {steps : List WorkspaceStep} (h : ¬ w.WatchesAmong steps slot) :
    (w.run steps).watched.lookup slot = w.watched.lookup slot := by
  induction steps generalizing w with
  | nil => rfl
  | cons step steps ih =>
    obtain ⟨hstep, hrest⟩ := not_or.mp fun hor => h (among_cons.mpr hor)
    exact (ih hrest).trans (watched_take hstep)

/-- All steps but the operations on the tree change it in its counts only. -/
theorem tree_take (hstep : ∀ op, step ≠ .change op) :
    ∃ strong, (w.take step).tree = w.tree.withCounts strong := by
  cases step with
  | change op => exact absurd rfl (hstep op)
  | hold s path =>
    cases hn : w.tree.lookup path with
    | none => exact ⟨w.tree.strong, by rw [take_hold_none hn]; rfl⟩
    | some n =>
      obtain ⟨strong, htree⟩ := (w.acquire n).release_tree s
      rw [take_hold_some hn]
      exact ⟨strong, htree⟩
  | release s => exact w.release_tree s
  | watch s path =>
    cases hn : w.tree.lookup path with
    | none => exact ⟨w.tree.strong, by rw [take_watch_none hn]; rfl⟩
    | some n => exact ⟨w.tree.strong, by rw [take_watch_some hn]; rfl⟩

theorem Tidy.take_replaces (h : w.Tidy) (hstep : step.isInPlace = true) :
    FileTree.Replaces (fun names => w.Puts names step) w.tree (w.take step).tree := by
  by_cases hchange : ∃ op, step = .change op
  · obtain ⟨op, rfl⟩ := hchange
    exact h.tree.perform_replaces ⟨op, hstep⟩
  · have hno : ∀ op, step ≠ .change op := fun op heq => hchange ⟨op, heq⟩
    have hput : ∀ names, ¬ w.Puts names step := fun names hputs => by
      cases step with
      | change op => exact hno op rfl
      | _ => exact hputs
    obtain ⟨strong, htree⟩ := tree_take (w := w) hno
    rw [htree]
    exact .withCounts hput w.tree strong

theorem Tidy.run_replaces (h : w.Tidy) {steps : List WorkspaceStep}
    (hsteps : ∀ step ∈ steps, step.isInPlace = true) :
    FileTree.Replaces (w.PutsAmong steps) w.tree (w.run steps).tree := by
  induction steps generalizing w with
  | nil => exact .refl (fun _ => not_among_nil) w.tree
  | cons step steps ih =>
    obtain ⟨hstep, hrest⟩ := List.forall_mem_cons.mp hsteps
    exact ((h.take_replaces hstep).trans (ih (h.take step) hrest)).congr fun _ => among_cons

/-- A file that is in no directory is owned by those who hold it, and by nobody else. -/
theorem Tidy.owns_loose_iff (h : w.Tidy) (hloose : w.tree.Loose n)
    (hfile : w.tree.kind? n = some .file) :
    (w.Owns n ↔ ∃ slot, w.heldNode? slot = some n) ∧ ∀ q, w.tree.walk w.tree.root q ≠ some n := by
  have hout : ∀ q, w.tree.walk w.tree.root q ≠ some n := h.tree.walk_ne_loose hloose hfile
  refine ⟨⟨?_, fun ⟨slot, hslot⟩ => Or.inr ⟨slot, n, [], hslot, rfl⟩⟩, hout⟩
  rintro (⟨q, hq⟩ | ⟨slot, k, q, hslot, hq⟩)
  · exact absurd hq (hout q)
  · exact ⟨slot, hslot.trans (congrArg some (hloose.walk_eq hq))⟩

/-- **A watched node can be had back exactly as long as it has an owner.** Whatever has happened before a
slot comes to watch the node at a path, and whatever happens then while it watches no other: it gives back
that node, just if the tree or a held node owns it. As long as no other tree takes the place of this one, a
directory is always given back, and a file until another one is added at its path; it is out of the tree
then, and given back just to be held by a slot. What is written to a node out of the tree does not show. -/
theorem upgrade_owned (past future : List WorkspaceStep) (hp : Path.segments path = .ok names)
    (hn : (empty.run past).tree.lookup path = some n)
    (hslot : ¬ ((empty.run past).take (.watch slot path)).WatchesAmong future slot) :
    let w₀ := empty.run past
    let w := w₀.run (.watch slot path :: future)
    (∀ k, w.upgrade slot = some k ↔ k = n ∧ w.Owns n) ∧
    ((∀ step ∈ future, step.isInPlace = true) →
      (w₀.tree.isDirectory n = true → w.upgrade slot = some n) ∧
      (w₀.tree.isFile n = true → ¬ w₀.PutsAmong (.watch slot path :: future) names →
        w.upgrade slot = some n) ∧
      (w₀.tree.isFile n = true → w₀.PutsAmong (.watch slot path :: future) names →
        (w.upgrade slot = some n ↔ ∃ s, w.heldNode? s = some n) ∧
          ∀ q, w.tree.walk w.tree.root q ≠ some n)) ∧
    ∀ k, (∀ q, w.tree.walk w.tree.root q ≠ some k) → ∀ op : TreeOperation, op.WritesTo k →
      (w.tree.perform op).pathMap = w.tree.pathMap ∧
        ∀ p, (w.tree.perform op).lookup p = w.tree.lookup p := by
  intro w₀ w
  have h₀ : w₀.Tidy := tidy_empty.run past
  have h : w.Tidy := h₀.run (.watch slot path :: future)
  have hwatched : w.watched.lookup slot = some n := by
    refine (watched_run hslot).trans ?_
    rw [take_watch_some hn]
    exact List.lookup_cons_self
  have hback : ∀ k, w.upgrade slot = some k ↔ k = n ∧ w.Owns n := fun k =>
    h.upgrade_eq_some_iff hwatched
  have hown : w.upgrade slot = some n ↔ w.Owns n := (hback n).trans (and_iff_right rfl)
  have hq : w₀.tree.walk w₀.tree.root names = some n := (FileTree.lookup_eq hp w₀.tree).symm.trans hn
  refine ⟨hback, fun hplace => ?_, fun k hout op hop => h.tree.perform_outside hout hop⟩
  have hr := h₀.run_replaces (List.forall_mem_cons.mpr ⟨rfl, hplace⟩ :
    ∀ step ∈ WorkspaceStep.watch slot path :: future, step.isInPlace = true)
  refine ⟨fun hdir => ?_, fun _ hput => ?_, fun hfile hput => ?_⟩
  · exact hown.mpr (Or.inl ⟨names, hr.directory hq (FileTree.isDirectory_iff_kind?.mp hdir)⟩)
  · exact hown.mpr (Or.inl ⟨names, hr.stays hq hput⟩)
  · have hkind := FileTree.isFile_iff_kind?.mp hfile
    rw [hown]
    exact h.owns_loose_iff (hr.put hq hkind hput).1 (hr.kind hkind)

/-- A file is held in slot 0 and watched in slot 1, and another one is added at its path: the first one is
given back as long as it is held. -/
theorem replaced_file_given_back :
    let w := (empty.run [.change (.addFile "a" []), .hold 0 "a"]).run
      [.watch 1 "a", .change (.addFile "/a" [1])]
    w.tree.lookup "a" = some 2 ∧ w.upgrade 1 = some 1 ∧ (w.take (.release 0)).upgrade 1 ≠ some 1 := by
  have hp : Path.segments "a" = .ok ["a"] := by rfl
  have hn : (empty.run [.change (.addFile "a" []), .hold 0 "a"]).tree.lookup "a" = some 1 := by rfl
  have hput : ∀ rest, (empty.run [.change (.addFile "a" []), .hold 0 "a"]).PutsAmong
      (.watch 1 "a" :: .change (.addFile "/a" [1]) :: rest) ["a"] := fun rest =>
    ⟨[.watch 1 "a"], .change (.addFile "/a" [1]), rest, rfl, "/a", [1], 2, _, rfl, rfl, rfl⟩
  have hslot : ∀ rest, (∀ w, ¬ Workspace.WatchesAmong w rest 1) → ∀ w,
      ¬ Workspace.WatchesAmong w (.change (.addFile "/a" [1]) :: rest) 1 := fun rest hrest w hor =>
    (among_cons.mp hor).elim id (hrest _)
  have hkept := upgrade_owned [.change (.addFile "a" []), .hold 0 "a"] [.change (.addFile "/a" [1])]
    hp hn (hslot [] (fun _ => not_among_nil) _)
  have hgone := upgrade_owned [.change (.addFile "a" []), .hold 0 "a"]
    [.change (.addFile "/a" [1]), .release 0] hp hn
    (hslot [.release 0] (fun _ hor => (among_cons.mp hor).elim id not_among_nil) _)
  refine ⟨by rfl, ?_, fun hback => ?_⟩
  · exact ((hkept.2.1 (by simp [WorkspaceStep.isInPlace, TreeOperation.isInPlace])).2.2 (by rfl)
      (hput [])).1.mpr ⟨0, by rfl⟩
  · obtain ⟨s, hs⟩ := ((hgone.2.1 (by simp [WorkspaceStep.isInPlace, TreeOperation.isInPlace])).2.2
      (by rfl) (hput [.release 0])).1.mp hback
    cases hs

end Workspace

end WasiSandbox
