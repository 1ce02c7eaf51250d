import WasiSandbox.Proofs.Descriptor.Handles
import WasiSandbox.Proofs.Tree.Places

/-! # What guest and owner leave where it is

A guest works on a tree through descriptors while its owner adds to it, in any order. What the guest does
never replaces a file, and what the owner does replaces the file at a path only by adding another one there
(`take_replaces`). So a path that has led to a directory leads to that directory for good, and one that has
led to a file leads to a file, the same one as long as none was added there; and the tree is in order all
the while (`runShared_places`). -/

namespace WasiSandbox

/-- The children of every directory stand under their own names, in the order of the names, and no node is
found in two places. A node is stored with its one name and its one parent, so two of these hold of whatever
nodes there are, `named` and `once`; what operations have to keep up is that no two children share a name, on
which `listed` and `sorted` rest. -/
structure FileTree.Orderly (t : FileTree) : Prop where
  named : ∀ {dir x n}, t.child? dir x = some n →
    ∃ m, t.node? n = some m ∧ m.name = x ∧ m.parent = some dir
  listed : ∀ {dir x kind}, (x, kind) ∈ t.entries dir ↔
    ∃ n, t.child? dir x = some n ∧ t.kind? n = some kind
  sorted : ∀ dir, ((t.entries dir).map (·.1)).Pairwise fun a b => Text.nameLe a b = true ∧ a ≠ b
  once : ∀ {q q' n}, t.walk t.root q = some n → t.walk t.root q' = some n → q = q'

theorem FileTree.WellFormed.orderly {t : FileTree} (h : t.WellFormed) : t.Orderly where
  named hc := by
    obtain ⟨m, hm, hp, hx⟩ := lists_of_child? hc
    exact ⟨m, hm, hx, hp⟩
  listed := by
    intro dir x kind
    rw [mem_entries_iff_lists]
    simp only [h.child?_eq_some_iff]
  sorted := h.entries_sorted
  once := h.walk_root_injective

namespace Host

variable {h : Host} {names : List String}

/-- The step adds a file at the names, and succeeds. -/
def Puts (names : List String) (h : Host) : HostStep → Prop
  | .guest _ | .other _ => False
  | .owner change => h.tree.Puts change.val names

/-- One of the steps adds a file at the names, and succeeds. -/
def PutsAmong (h : Host) (steps : List HostStep) (names : List String) : Prop :=
  Among take (Puts names) h steps

theorem take_replaces (ht : h.tree.WellFormed) (step : HostStep) :
    FileTree.Replaces (fun names => h.Puts names step) h.tree (h.take step).tree := by
  cases step with
  | guest op => exact .of_edits ht (wellFormed_take ht _) (perform_tree_edits ht op) fun _ => id
  | owner change => exact ht.perform_replaces change
  | other act =>
    obtain ⟨strong, kept, heq⟩ := h.take_hold act
    rw [heq]
    exact .withCounts (fun _ => id) h.tree strong

theorem runShared_replaces (ht : h.tree.WellFormed) (steps : List HostStep) :
    (h.runShared steps).tree.WellFormed ∧
      FileTree.Replaces (h.PutsAmong steps) h.tree (h.runShared steps).tree := by
  induction steps generalizing h with
  | nil => exact ⟨ht, .refl (fun _ => not_among_nil) h.tree⟩
  | cons step steps ih =>
    obtain ⟨ht', hrest⟩ := ih (wellFormed_take ht step)
    exact ⟨ht', ((take_replaces ht step).trans hrest).congr fun _ => among_cons⟩

/-- What the paths of a host come to in the steps that follow. -/
structure Steadfast (h : Host) (steps : List HostStep) : Prop where
  /-- A path to a directory goes on leading to it. -/
  directory : ∀ {path n}, h.tree.lookup path = some n → h.tree.isDirectory n = true →
    (h.runShared steps).tree.lookup path = some n ∧ (h.runShared steps).tree.isDirectory n = true
  /-- A path to a file goes on leading to a file, which is the same one just if none was added there. -/
  file : ∀ {path names n}, Path.segments path = .ok names → h.tree.lookup path = some n →
    h.tree.isFile n = true → ∃ n', (h.runShared steps).tree.lookup path = some n' ∧
      (h.runShared steps).tree.isFile n' = true ∧ (n' = n ↔ ¬ h.PutsAmong steps names)

theorem steadfast (ht : h.tree.WellFormed) (steps : List HostStep) : h.Steadfast steps := by
  obtain ⟨-, hr⟩ := runShared_replaces ht steps
  refine ⟨fun {path n} hn hdir => ?_, fun {path names n} hp hn hfile => ?_⟩
  · obtain ⟨names, hp, hq⟩ := FileTree.lookup_eq_some_iff.mp hn
    have hkind := FileTree.isDirectory_iff_kind?.mp hdir
    rw [FileTree.lookup_eq hp]
    exact ⟨hr.directory hq hkind, FileTree.isDirectory_iff_kind?.mpr (hr.kind hkind)⟩
  · have hkind := FileTree.isFile_iff_kind?.mp hfile
    have hlt := ht.lookup_lt hn
    rw [FileTree.lookup_eq hp] at hn
    rw [FileTree.lookup_eq hp]
    by_cases hput : h.PutsAmong steps names
    · obtain ⟨-, n', hq', hkind', hle⟩ := hr.put hn hkind hput
      -- What has come in is younger.
      have hne : n' ≠ n := Nat.ne_of_gt (Nat.lt_of_lt_of_le hlt hle)
      exact ⟨n', hq', FileTree.isFile_iff_kind?.mpr hkind', iff_of_false hne (not_not_intro hput)⟩
    · exact ⟨n, hr.stays hn hput, FileTree.isFile_iff_kind?.mpr (hr.kind hkind), iff_of_true rfl hput⟩

/-- **The tree only grows, and its shape is stable.** Whatever guest and owner have done before, and
whatever they do then, directories stay where they are, and so do files unless others are added at their
paths; and the children of every directory are in order. -/
theorem runShared_places (treeOps : List TreeOperation) (stdin : Bytes) (surroundings : Surroundings)
    (past future : List HostStep) :
    let h := (Host.new (FileTree.empty.run treeOps) stdin surroundings).runShared past
    h.Steadfast future ∧ (h.runShared future).tree.Orderly := by
  have hstart : (Host.new (FileTree.empty.run treeOps) stdin surroundings).tree.WellFormed :=
    FileTree.WellFormed.empty.run treeOps
  obtain ⟨ht, -⟩ := runShared_replaces hstart past
  exact ⟨steadfast ht future, (runShared_replaces ht future).1.orderly⟩

/-- A file that the owner adds again is another one, while its directory is the same. -/
example : (nested.take (.owner ⟨.addFile "/a/b/c" [1], rfl⟩)).tree.lookup "a/b/c" = some 4 ∧
    nested.tree.lookup "a/b/c" = some 3 ∧
    (nested.take (.owner ⟨.addFile "/a/b/c" [1], rfl⟩)).tree.lookup "a/b" = nested.tree.lookup "a/b" := by
  decide +kernel

end Host

end WasiSandbox
