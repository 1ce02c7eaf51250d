import WasiSandbox.Proofs.Descriptor.Slots

/-! # Directories that are open stay open

No step of the guest but closing the handle takes away what a handle stands for, and none of the owner or of
others (`take_opens`). Nor does any of them take a directory out of the tree or an entry out of a directory.
A directory in the tree is alive, so it can be listed through its handle (`OpenOn.browses`), and ever after,
with the entries that it had among those that it has (`OpenOn.runShared`). And every directory that is open
is in the tree, however guest and owner have taken turns (`InTurn.attached`). -/

namespace WasiSandbox

namespace Host

variable {h h' : Host} {fd : Nat} {target : DescriptorTarget}

/-- The handle is open and stands for this. -/
def Opens (h : Host) (fd : Nat) (target : DescriptorTarget) : Prop :=
  ∃ d, h.table.get? fd = some d ∧ d.target = target

/-- **A handle stays open** in every step but the one that closes it, whatever comes of it. -/
theorem take_opens {step : HostStep} (hstep : step ≠ .guest (.close fd)) (hopen : h.Opens fd target) :
    (h.take step).Opens fd target := by
  obtain ⟨d, hget, rfl⟩ := hopen
  obtain ⟨cursor, flags, hget'⟩ := take_open hget hstep
  exact ⟨_, hget', rfl⟩

/-! ### Directories that can be listed -/

/-- The handle is open on the directory, which is alive. -/
structure Browses (h : Host) (fd : Nat) (n : NodeId) : Prop where
  handle : ∃ path preopen, h.Opens fd (.directory path n preopen)
  alive : h.tree.alive n = true
  directory : h.tree.isDirectory n = true

theorem Browses.readDirectory_run {n : NodeId} (hb : h.Browses fd n) :
    readDirectory fd h = .ok (h.tree.entries n) h := by
  obtain ⟨path, preopen, d, hget, htarget⟩ := hb.handle
  unfold readDirectory
  rw [run_bind_ok (descriptor_run hget), htarget]
  dsimp only
  rw [run_bind_ok (requireAlive_run hb.alive), run_get_bind, if_pos hb.directory]
  rfl

/-- The handle is open on the directory, which is in the tree. -/
structure OpenOn (h : Host) (fd : Nat) (n : NodeId) : Prop where
  handle : ∃ path preopen, h.Opens fd (.directory path n preopen)
  attached : h.tree.attached n = true
  directory : h.tree.isDirectory n = true

theorem OpenOn.browses {n : NodeId} (ho : h.OpenOn fd n) (hc : h.Counted) : h.Browses fd n :=
  ⟨ho.handle, FileTree.Counted.alive_of_attached hc ho.attached, ho.directory⟩

/-- An operation on descriptors edits the tree, and brings no file in that could replace another. -/
theorem perform_tree_edits (ht : h.tree.WellFormed) (op : DescriptorOperation) :
    FileTree.Edits [] h.tree (h.perform op).tree :=
  (perform_changes ht op).keeps (p := fun h' => FileTree.Edits [] h.tree h'.tree)
    (fun _ _ hc hedits => hedits.trans hc.edits) (.refl h.tree)

/-- A step edits the tree, and what comes in with it leaves directories where they are. -/
theorem take_edits (ht : h.tree.WellFormed) (step : HostStep) :
    ∃ brought, FileTree.Edits brought h.tree (h.take step).tree := by
  cases step with
  | guest op => exact ⟨[], perform_tree_edits ht op⟩
  | owner change => exact ⟨_, FileTree.perform_edits h.tree change⟩
  | other act =>
    obtain ⟨strong, kept, heq⟩ := h.take_hold act
    rw [heq]
    exact ⟨[], (FileTree.Edit.recounted strong).edits⟩

theorem wellFormed_take (ht : h.tree.WellFormed) (step : HostStep) : (h.take step).tree.WellFormed := by
  cases step with
  | guest op => exact (perform_changes ht op).wellFormed ht
  | owner change => exact ht.perform change.val
  | other act =>
    obtain ⟨strong, kept, heq⟩ := h.take_hold act
    rw [heq]
    exact ht.withCounts strong

theorem OpenOn.take {n : NodeId} (ho : h.OpenOn fd n) (ht : h.tree.WellFormed) {step : HostStep}
    (hstep : step ≠ .guest (.close fd)) : (h.take step).OpenOn fd n := by
  obtain ⟨path, preopen, hopen⟩ := ho.handle
  obtain ⟨brought, hedits⟩ := take_edits ht step
  have hr := hedits.retains_directories
  have hkind := FileTree.isDirectory_iff_kind?.mp ho.directory
  obtain ⟨q, hq⟩ := ht.attached_iff.mp ho.attached
  have ht' := wellFormed_take ht step
  have hattached : (h.take step).tree.attached n = true :=
    ht'.attached_iff.mpr ⟨q, ht'.walk_retained hr rfl hq hkind rfl⟩
  exact ⟨⟨path, preopen, take_opens hstep hopen⟩, hattached,
    FileTree.isDirectory_iff_kind?.mpr (hr.kind? hkind rfl)⟩

/-- **A directory that can be listed** can be listed ever after, and what it lists stays listed. -/
theorem OpenOn.runShared {n : NodeId} (ho : h.OpenOn fd n) (hc : h.Counted)
    {steps : List HostStep} (hsteps : ∀ step ∈ steps, step ≠ .guest (.close fd)) :
    (h.runShared steps).OpenOn fd n ∧ (h.runShared steps).Counted ∧
      h.tree.entries n ⊆ (h.runShared steps).tree.entries n := by
  induction steps generalizing h with
  | nil => exact ⟨ho, hc, List.Subset.refl _⟩
  | cons step steps ih =>
    obtain ⟨ho', hc', hmore⟩ := ih (ho.take hc.wellFormed (hsteps step List.mem_cons_self)) (hc.take step)
      fun step' hmem => hsteps step' (List.mem_cons_of_mem step hmem)
    obtain ⟨brought, hedits⟩ := take_edits hc.wellFormed step
    exact ⟨ho', hc', fun e he => hmore (hedits.mem_entries he)⟩

/-! ### Guest and owner in turn -/

/-- The hosts that come about while guest and owner work on the same tree in turn, and things are noted in the
journal and taken from the surroundings. -/
inductive InTurn : Host → Prop where
  | start (treeOps : List TreeOperation) (stdin : Bytes) (surroundings : Surroundings) :
      InTurn (.new (FileTree.empty.run treeOps) stdin surroundings)
  | take {h : Host} (step : HostStep) : InTurn h → InTurn (h.take step)
  | besides {h : Host} (journal : Journal) (surroundings : Surroundings) : InTurn h →
      InTurn { h with journal := journal, surroundings := surroundings }

theorem InTurn.runShared (hi : h.InTurn) (steps : List HostStep) : (h.runShared steps).InTurn := by
  induction steps generalizing h with
  | nil => exact hi
  | cons step steps ih => exact ih (hi.take step)

theorem InTurn.anchored (hi : h.InTurn) : h.Anchored := by
  induction hi with
  | start treeOps stdin surroundings => exact anchored_new treeOps stdin surroundings
  | take step _ ih => exact ih.take step
  | besides _ _ _ ih => exact ⟨ih.counted, ih.faithful⟩

/-- **A directory that is open is in the tree.** -/
theorem InTurn.attached {path : String} {n : NodeId} {preopen : Bool} (hi : h.InTurn)
    (hopen : h.Opens fd (.directory path n preopen)) : h.tree.attached n = true := by
  obtain ⟨hc, hf⟩ := hi.anchored
  obtain ⟨d, hget, htarget⟩ := hopen
  exact (hf fd d path n .directory hget (by rw [htarget]; rfl) rfl).attached hc.wellFormed

end Host

end WasiSandbox
