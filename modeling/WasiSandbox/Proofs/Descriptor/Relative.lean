import WasiSandbox.Proofs.Descriptor.Faithful
import WasiSandbox.Proofs.Tree.Grammar

/-! # Paths relative to an open directory

A path that is given relative to an open directory is put behind the path of that directory and
looked up from the root. That comes to the same as a walk from the directory itself
(`lookup_under`), as long as the path of the handle still names its node; and it does, whatever the
guest and the owner of the tree do to it in turn, because neither of them moves a directory
(`runShared_relative`). Others may take and drop handles on nodes in the meantime, which moves nothing. -/

namespace WasiSandbox

/-! ### Joined paths -/

namespace Path

variable {full base path : String} {r s : List Char} {ds ns : List String}

/-- A path parts at every `/` into two, each well formed for itself. -/
theorem names_append (base path : String) : names full (r ++ '/' :: s) = .ok ns ↔
    ∃ a b, names base r = .ok a ∧ names path s = .ok b ∧ ns = a ++ b := by
  have hsplit : (r ++ '/' :: s).splitOn '/' = r.splitOn '/' ++ s.splitOn '/' :=
    List.splitOnP_append_cons r s (by decide)
  simp only [names_eq_ok_iff, hsplit, List.forall_mem_append, List.map_append]
  constructor
  · rintro ⟨⟨hr, hs⟩, rfl⟩
    exact ⟨_, _, ⟨hr, rfl⟩, ⟨hs, rfl⟩, rfl⟩
  · rintro ⟨_, _, ⟨hr, rfl⟩, ⟨hs, rfl⟩, rfl⟩
    exact ⟨⟨hr, hs⟩, rfl⟩

theorem names_nil : names path [] ≠ .ok ns := by
  rw [Ne, names_eq_ok_iff, List.splitOn_nil]
  simp

theorem toList_of_isAbsolute (h : isAbsolute base = true) : ∃ r, base.toList = '/' :: r := by
  unfold isAbsolute at h
  cases hlist : base.toList with
  | nil =>
    rw [hlist] at h
    cases h
  | cons c r =>
    rw [hlist, List.head?_cons, beq_iff_eq] at h
    exact ⟨r, by rw [Option.some.inj h]⟩

/-- Behind the `/` in front stand the names. -/
theorem segments_of_toList (h : base.toList = '/' :: r) (hr : r ≠ []) :
    segments base = names base r := by
  rw [segments_slashed h, if_neg hr]

/-- **The names in a joined path** are those of the directory and those of the rest. -/
theorem segments_join (hbase : isAbsolute base = true) (hds : segments base = .ok ds)
    (hpath : path ≠ "") : segments (join base path) = .ok ns ↔
      ∃ b, names path path.toList = .ok b ∧ ns = ds ++ b := by
  obtain ⟨r, hr⟩ := toList_of_isAbsolute hbase
  have hne : path.toList ≠ [] := by simpa using hpath
  by_cases hroot : r = []
  · -- Below the root nothing is put between the two.
    subst hroot
    have hlast : base.toList.getLast? = some '/' := by rw [hr]; rfl
    have hnil : ds = [] := by
      unfold segments at hds
      rw [hr] at hds
      cases hds
      rfl
    rw [join, if_pos hlast, segments_of_toList (by rw [String.toList_append, hr]; rfl) hne, hnil]
    simp only [List.nil_append, exists_eq_right', names_eq_ok_iff]
  · rw [segments_of_toList hr hroot] at hds
    have hlast : base.toList.getLast? ≠ some '/' := by
      rw [hr, List.getLast?_cons_of_ne_nil hroot]
      intro hlast
      obtain ⟨r', rfl⟩ := List.getLast?_eq_some_iff.mp hlast
      obtain ⟨a, b, -, hb, -⟩ := (names_append base path).mp hds
      exact names_nil hb
    have hlist : (join base path).toList = '/' :: (r ++ '/' :: path.toList) := by
      rw [join, if_neg hlast, String.toList_append, String.toList_append, hr]
      simp
    rw [segments_of_toList hlist (by simp), names_append base path, hds]
    simp

end Path

/-! ### Walks from a directory -/

namespace FileTree

variable {t : FileTree} {base path : String} {dir n : NodeId} {kind : NodeKind}

/-- The node that a relative path leads to from the directory: the directory itself by a single dot,
and otherwise what is reached through the names in the path, none of which may be empty. -/
def lookupFrom (t : FileTree) (dir : NodeId) (path : String) : Option NodeId :=
  if path = "." then some dir
  else match Path.names path path.toList with
    | .ok names => t.walk dir names
    | .error _ => none

/-- **To look up a path behind that of a directory is to walk from the directory.** -/
theorem Names.lookup_under (h : t.Names base dir kind) (hpath : path ≠ "")
    (hrel : Path.isAbsolute path = false) :
    t.lookup (Path.under base path) = t.lookupFrom dir path := by
  obtain ⟨ds, hds, hw⟩ := lookup_eq_some_iff.mp h.lookup
  unfold Path.under lookupFrom
  rw [if_neg (by rw [hrel]; exact Bool.false_ne_true)]
  split
  · exact h.lookup
  · refine Option.ext fun n => ?_
    rw [lookup_eq_some_iff]
    simp only [Path.segments_join h.absolute hds hpath]
    cases hnames : Path.names path path.toList with
    | error e => simp
    | ok names => simp [walk_append, hw]

end FileTree

/-! ### Guest and owner in turn -/

/-- What others do with handles: somebody takes one on the node at a path, or drops one on a node. -/
inductive HandleStep where
  | keep (path : String)
  | letGo (n : NodeId)

/-- What happens to a host whose tree has an owner: the guest runs an operation on descriptors, the owner
changes the tree, or others take or drop a handle. -/
inductive HostStep where
  | guest (op : DescriptorOperation)
  | owner (change : TreeChange)
  | other (act : HandleStep)

namespace Host

variable {h h' : Host} {fd dirfd : Nat} {d : Descriptor} {base full path : String} {dir n : NodeId}
  {flags : OpenFlags} {rights inheriting : Rights} {descriptorFlags : DescriptorFlags}

/-- The host after somebody has taken or dropped a handle. -/
def hold (h : Host) : HandleStep → Host
  | .keep path => h.keep path
  | .letGo n => h.letGo n

/-- Handles that are taken and dropped change the counts of the tree. -/
theorem hold_eq (h : Host) (act : HandleStep) : ∃ strong kept,
    h.hold act = { h with tree := h.tree.withCounts strong, kept := kept } := by
  cases act with
  | keep path =>
    unfold hold keep
    dsimp only
    split
    · exact ⟨_, _, rfl⟩
    · exact ⟨h.tree.strong, h.kept, rfl⟩
  | letGo n =>
    unfold hold letGo
    dsimp only
    split
    · exact ⟨_, _, rfl⟩
    · exact ⟨h.tree.strong, h.kept, rfl⟩

theorem table_hold (h : Host) (act : HandleStep) : (h.hold act).table = h.table := by
  obtain ⟨strong, kept, heq⟩ := h.hold_eq act
  rw [heq]

/-- **All handles are counted**, whoever takes and drops them. -/
theorem Counted.hold (hc : h.Counted) (act : HandleStep) : (h.hold act).Counted := by
  cases act with
  | keep path =>
    show (h.keep path).Counted
    unfold keep
    split
    · next n hn =>
      exact (FileTree.Counted.acquire hc (FileTree.Counted.alive_of_lookup hc hn)).perm (List.Perm.swap ..)
    · exact hc
  | letGo n =>
    show (h.letGo n).Counted
    unfold letGo
    split
    · next hn =>
      have hperm : (h.tree.root :: h.kept).Perm (n :: h.tree.root :: h.kept.erase n) :=
        ((List.perm_cons_erase hn).cons h.tree.root).trans (List.Perm.swap ..)
      exact (FileTree.Counted.perm hc hperm).drop
    · exact hc

def take (h : Host) : HostStep → Host
  | .guest op => h.perform op
  | .owner change => { h with tree := h.tree.perform change.val }
  | .other act => h.hold act

theorem take_hold (h : Host) (act : HandleStep) : ∃ strong kept,
    h.take (.other act) = { h with tree := h.tree.withCounts strong, kept := kept } := h.hold_eq act

/-- No step loses count of a handle. -/
theorem Counted.take (hc : h.Counted) (step : HostStep) : (h.take step).Counted := by
  cases step with
  | guest op => exact (perform_changes hc.wellFormed op).counted_after hc
  | owner change => exact FileTree.Counted.perform hc change.val
  | other act => exact hc.hold act

/-- The host after all the steps. -/
def runShared (h : Host) (steps : List HostStep) : Host := steps.foldl take h

theorem runShared_append (h : Host) (steps steps' : List HostStep) :
    h.runShared (steps ++ steps') = (h.runShared steps).runShared steps' := List.foldl_append

theorem Counted.runShared (hc : h.Counted) (steps : List HostStep) : (h.runShared steps).Counted := by
  induction steps generalizing h with
  | nil => exact hc
  | cons step steps ih => exact ih (hc.take step)

/-- The directories that are open are found at their paths. -/
structure Anchored (h : Host) : Prop where
  counted : h.Counted
  faithful : Faithful (· = .directory) h

theorem anchored_new (treeOps : List TreeOperation) (stdin : Bytes) (surroundings : Surroundings) :
    Anchored (.new (FileTree.empty.run treeOps) stdin surroundings) where
  counted := counted_new treeOps stdin surroundings
  faithful := faithful_new (FileTree.WellFormed.empty.run treeOps) stdin surroundings

theorem Anchored.take (ha : h.Anchored) (step : HostStep) : (h.take step).Anchored := by
  obtain ⟨hc, hf⟩ := ha
  refine ⟨hc.take step, ?_⟩
  have ht := hc.wellFormed
  cases step with
  | guest op =>
    exact ((perform_changes ht op).keeps (p := fun h => h.tree.WellFormed ∧ Faithful (· = .directory) h)
      (fun h h' hc hh => ⟨hc.wellFormed hh.1, hc.faithful rfl hh.1 hh.2⟩) ⟨ht, hf⟩).2
  | owner change => exact hf.retained (ht.perform change.val) (FileTree.perform_retains h.tree change) rfl
  | other act =>
    obtain ⟨strong, kept, heq⟩ := h.take_hold act
    rw [heq]
    exact hf.retained (ht.withCounts strong) (.withCounts h.tree strong) rfl

theorem Anchored.runShared (ha : h.Anchored) (steps : List HostStep) :
    (h.runShared steps).Anchored := by
  induction steps generalizing h with
  | nil => exact ha
  | cons step steps ih => exact ih (ha.take step)

/-! ### What is done below a directory -/

/-- A successful `openPath` opens what is at the path then; if nothing was, the flags ask for it to be
made, and it is the youngest node. -/
theorem openPath_ok {k : Nat} (ht : h.tree.WellFormed)
    (hok : openPath dirfd path flags rights inheriting descriptorFlags h = .ok k h') :
    ∃ full target n kind, resolve dirfd path h = .ok full h ∧
      h'.table.get? k = some ⟨target, 0, rights, inheriting, descriptorFlags⟩ ∧
      target.node? = some (full, n, kind) ∧ h'.tree.lookup full = some n ∧
      h'.tree.kind? n = some kind ∧
      (h.tree.lookup full = some n ∨
        h.tree.lookup full = none ∧ flags.creates = true ∧ n = h.tree.nodes.length) := by
  obtain ⟨full, h₁, hresolve, hrest⟩ := run_bind_eq_ok hok
  obtain rfl : h₁ = h := (keeps_resolve dirfd path).ok hresolve
  obtain ⟨n, h₂, hnode, hopen⟩ := run_bind_eq_ok hrest
  obtain ⟨-, hwell, -, hlookup⟩ := nodeToOpen_finds ht hnode
  obtain ⟨target, h₃, htarget, hinsert⟩ := run_bind_eq_ok hopen
  obtain ⟨-, -, hlookup', kind, hkind, hnode?⟩ := targetToOpen_finds hwell hlookup htarget
  obtain ⟨rfl, rfl⟩ := insert_ok hinsert
  refine ⟨full, target, n, kind, hresolve, ?_, hnode?, hlookup', hkind, ?_⟩
  · rw [DescriptorTable.get?_put, if_pos rfl]
  · rcases nodeToOpen_ok hnode with ⟨-, hfound⟩ | ⟨hcreates, hnone, hcreate, -⟩
    · exact Or.inl hfound
    · exact Or.inr ⟨hnone, hcreates, (FileTree.createAt_ok hcreate).1⟩

theorem makeDirectory_ok {u : Unit} (ht : h.tree.WellFormed)
    (hok : makeDirectory dirfd path h = .ok u h') :
    ∃ full n, resolve dirfd path h = .ok full h ∧ h.tree.lookup full = none ∧
      h'.tree.lookup full = some n ∧ h'.tree.isDirectory n = true := by
  obtain ⟨full, h₁, hresolve, hrest⟩ := run_bind_eq_ok hok
  obtain rfl : h₁ = h := (keeps_resolve dirfd path).ok hresolve
  obtain ⟨n, h₂, htree, hpure⟩ := run_bind_eq_ok hrest
  cases hpure
  obtain ⟨t, hcreate, rfl⟩ := onTree_ok htree
  obtain ⟨-, hlookup, hmap⟩ := (ht.createAt_refines full .directory).ok hcreate
  obtain ⟨names, hp, hnone, hmap'⟩ := PathMap.createAt_ok hmap
  refine ⟨full, n, hresolve, ?_, hlookup, ?_⟩
  · rw [FileTree.lookup_eq hp, ← ht.pathMap_eq_none_iff, hnone]
  · rw [FileTree.lookup_eq hp] at hlookup
    rw [FileTree.isDirectory_iff_bodyAt?, ← FileTree.pathMap_of_walk hlookup, hmap',
      Function.update_self]

/-- What a relative path does at a handle on the directory. -/
structure ActsBelow (h : Host) (fd : Nat) (dir : NodeId) (path : String) : Prop where
  /-- It stands for a path that is looked up as from the directory. -/
  resolved : ∃ full, resolve fd path h = .ok full h ∧
    h.tree.lookup full = h.tree.lookupFrom dir path
  /-- Its attributes are those of what is found below the directory. -/
  stat : pathFilestat fd path h = match h.tree.lookupFrom dir path with
    | some n => .ok ⟨if h.tree.isDirectory n then .directory else .regularFile, h.tree.size n⟩ h
    | none => .error (.reported .noent) h
  /-- What is opened is what was found below the directory, or else is made there. -/
  opened : ∀ flags rights inheriting descriptorFlags k h',
    openPath fd path flags rights inheriting descriptorFlags h = .ok k h' →
    ∃ d full n kind, h'.table.get? k = some d ∧ d.target.node? = some (full, n, kind) ∧
      h'.tree.lookupFrom dir path = some n ∧ (h.tree.lookupFrom dir path = some n ∨
        h.tree.lookupFrom dir path = none ∧ flags.creates = true)
  /-- A directory is made where nothing was found below the directory, and is found there then. -/
  made : ∀ h', makeDirectory fd path h = .ok () h' → h.tree.lookupFrom dir path = none ∧
    ∃ n, h'.tree.lookupFrom dir path = some n ∧ h'.tree.isDirectory n = true

theorem Anchored.actsBelow (ha : h.Anchored) {preopen : Bool} (hget : h.table.get? fd = some d)
    (htarget : d.target = .directory base dir preopen) (hpath : path ≠ "")
    (hrel : Path.isAbsolute path = false) : h.ActsBelow fd dir path := by
  have ht := ha.counted.wellFormed
  have hf := ha.faithful
  have hnamed := hf fd d base dir .directory hget (by rw [htarget]; rfl) rfl
  have hresolve := resolve_eq hget htarget hpath
  have hlookup := hnamed.lookup_under hpath hrel
  -- What leads from the directory stays so while the host changes.
  have hlater : ∀ {h'}, Changes h h' →
      h'.tree.lookup (Path.under base path) = h'.tree.lookupFrom dir path := fun hc =>
    (hnamed.retained (hc.wellFormed ht) hc.retains rfl rfl).lookup_under hpath hrel
  refine ⟨⟨_, hresolve, hlookup⟩, ?_, ?_, ?_⟩
  · unfold pathFilestat
    rw [run_bind_ok hresolve, run_get_bind, hlookup]
    cases h.tree.lookupFrom dir path <;> rfl
  · intro flags rights inheriting descriptorFlags k h' hok
    have hc := alters_openPath fd path flags rights inheriting descriptorFlags h ht
    rw [hok] at hc
    obtain ⟨full, target, n, kind, hresolve', hget', hnode, hfound, -, hbefore⟩ := openPath_ok ht hok
    cases hresolve.symm.trans hresolve'
    rw [hlookup] at hbefore
    exact ⟨_, _, n, kind, hget', hnode, (hlater hc).symm.trans hfound,
      hbefore.imp id fun hmade => ⟨hmade.1, hmade.2.1⟩⟩
  · intro h' hok
    have hc := alters_makeDirectory fd path h ht
    rw [hok] at hc
    obtain ⟨full, n, hresolve', hnone, hfound, hdir⟩ := makeDirectory_ok ht hok
    cases hresolve.symm.trans hresolve'
    exact ⟨hlookup.symm.trans hnone, n, (hlater hc).symm.trans hfound, hdir⟩

/-- **A relative path acts below the directory that was opened**, whatever the guest and the owner of
the tree have done in turn. -/
theorem runShared_relative (treeOps : List TreeOperation) (stdin : Bytes)
    (surroundings : Surroundings) (steps : List HostStep) {preopen : Bool}
    (hget : ((Host.new (FileTree.empty.run treeOps) stdin surroundings).runShared steps).table.get? fd =
      some d)
    (htarget : d.target = .directory base dir preopen) (hpath : path ≠ "")
    (hrel : Path.isAbsolute path = false) :
    ((Host.new (FileTree.empty.run treeOps) stdin surroundings).runShared steps).ActsBelow
      fd dir path :=
  ((anchored_new treeOps stdin surroundings).runShared steps).actsBelow hget htarget hpath hrel

/-- A directory that was opened through another one, with a file that the owner has put into it. -/
def nested : Host := (Host.new (FileTree.empty.run []) [] .silent).runShared
  [.guest (.makeDirectory 3 "a"), .guest (.openPath 3 "a" ⟨0⟩ .all .all ⟨0⟩),
    .guest (.makeDirectory 4 "b"), .guest (.openPath 4 "b" ⟨0⟩ .all .all ⟨0⟩),
    .owner ⟨.addFile "a/b/c" [], rfl⟩]

theorem nested_relative : nested.ActsBelow 5 2 "c" ∧ nested.tree.lookupFrom 2 "c" = some 3 := by
  have hget : nested.table.get? 5 = some ⟨.directory "/a/b" 2 false, 0, .all, .all, ⟨0⟩⟩ := by
    decide +kernel
  exact ⟨runShared_relative [] [] _ _ hget rfl (by decide) (by decide), by decide +kernel⟩

end Host

end WasiSandbox
