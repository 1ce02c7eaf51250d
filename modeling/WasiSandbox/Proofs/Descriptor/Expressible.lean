import WasiSandbox.Proofs.Descriptor.Cursors

/-! # Hosts whose files are of sizes that can be expressed

The owner of a tree may bring in files that are larger than a guest could make them, within what memory can
hold. As long as their sizes can be expressed as offsets, everything that is counted in a file can be: its
size, and the cursor of every descriptor on it, on every host that comes about (`ReachedWithin.expressible`).
So a seek never fails for what it counts from (`Expressible.seekBase_le`), and a cursor can be brought back
to where it has been (`seek_set_run`). -/

namespace WasiSandbox

namespace Host

variable {h h' : Host} {fd k : Nat} {d : Descriptor} {path : String} {n : NodeId} {limit : Nat}

/-- The hosts that come about if no file comes in that is over the limit. -/
inductive ReachedWithin (limit : Nat) : Host → Prop where
  | start (treeOps : List TreeOperation) (stdin : Bytes) (surroundings : Surroundings) :
      (∀ op ∈ treeOps, ∀ content ∈ op.brings, content.length ≤ limit) →
      ReachedWithin limit (.new (FileTree.empty.run treeOps) stdin surroundings)
  | guest {h : Host} (op : DescriptorOperation) : ReachedWithin limit h → ReachedWithin limit (h.perform op)
  | owner {h : Host} (op : TreeOperation) : (∀ content ∈ op.brings, content.length ≤ limit) →
      ReachedWithin limit h → ReachedWithin limit { h with tree := h.tree.perform op }
  | other {h : Host} (act : HandleStep) : ReachedWithin limit h → ReachedWithin limit (h.hold act)
  | besides {h : Host} (journal : Journal) (surroundings : Surroundings) : ReachedWithin limit h →
      ReachedWithin limit { h with journal := journal, surroundings := surroundings }

/-- The sizes of the files and the cursors in them can be expressed as offsets. -/
structure Expressible (h : Host) : Prop where
  tree : h.tree.WellFormed
  files : h.tree.Within maxOffset
  cursors : ∀ fd d path n, h.table.get? fd = some d → d.target = .file path n → d.cursor ≤ maxOffset
  backed : ∀ fd d, h.table.get? fd = some d → h.Backed d

theorem maxFileSize_le_maxOffset : Content.maxFileSize ≤ maxOffset := by decide

theorem expressible_new {t : FileTree} (ht : t.WellFormed) (hfiles : t.Within maxOffset) (stdin : Bytes)
    (surroundings : Surroundings) : Expressible (.new t stdin surroundings) where
  tree := ht
  files := hfiles
  cursors fd d path n hget _ := by
    rw [(DescriptorTable.get?_new hget).1]
    exact Nat.zero_le _
  backed _ _ := backed_new ht

/-- Where a cursor may land can be expressed. -/
theorem Expressible.lands (he : h.Expressible) (hget : h.table.get? fd = some d) (hlands : h.Lands d k)
    (htarget : d.target = .file path n) : k ≤ maxOffset := by
  rcases hlands with rfl | hend
  · exact he.cursors fd d path n hget htarget
  · rw [htarget] at hend
    rcases hend with hle | ⟨-, content, hcontent, hle⟩
    · exact hle
    · exact hle.trans (he.files n content hcontent)

/-- A descriptor comes in whose cursor can be expressed. -/
theorem Expressible.put (he : h.Expressible) (hcursor : ∀ path n, d.target = .file path n →
    d.cursor ≤ maxOffset) {j : Nat} {d' : Descriptor} (hget : (h.table.put fd d).get? j = some d')
    (htarget : d'.target = .file path n) : d'.cursor ≤ maxOffset := by
  rw [DescriptorTable.get?_put] at hget
  split at hget
  · obtain rfl := Option.some.inj hget
    exact hcursor path n htarget
  · exact he.cursors j d' path n hget htarget

/-- **No change of the guest** makes anything too large to be expressed. -/
theorem Change.expressible (hc : Change h h') (he : h.Expressible) : h'.Expressible := by
  refine ⟨hc.wellFormed he.tree,
    hc.edits.within maxFileSize_le_maxOffset (List.forall_mem_nil _) he.files, ?_, fun fd d hget =>
    hc.backed he.backed hget⟩
  intro fd d path n hget htarget
  cases hc with
  | aside _ _ hslots =>
    rw [DescriptorTable.get?, hslots] at hget
    exact he.cursors fd d path n hget htarget
  | made | filled => exact he.cursors fd d path n hget htarget
  | opened _ _ _ _ hstart =>
    refine he.put (fun _ _ _ => ?_) hget htarget
    rw [hstart]
    exact Nat.zero_le _
  | updated hget' hsame hlands =>
    exact he.put (fun _ _ htarget' => he.lands hget' hlands (hsame.symm.trans htarget')) hget htarget
  | closed k =>
    rw [DescriptorTable.get?_clear] at hget
    split at hget
    · cases hget
    · exact he.cursors fd d path n hget htarget

/-- Neither does the owner of the tree, who brings nothing that is too large. -/
theorem Expressible.owner (he : h.Expressible) {op : TreeOperation}
    (hop : ∀ content ∈ op.brings, content.length ≤ maxOffset) :
    Expressible { h with tree := h.tree.perform op } where
  tree := he.tree.perform op
  files := he.files.perform maxFileSize_le_maxOffset hop
  cursors := he.cursors
  backed fd d hget := (he.backed fd d hget).withTree fun hn => FileTree.kind?_perform hn op

/-- Neither does anybody who takes or drops handles. -/
theorem Expressible.hold (he : h.Expressible) (act : HandleStep) : (h.hold act).Expressible := by
  obtain ⟨strong, kept, heq⟩ := h.hold_eq act
  rw [heq]
  exact ⟨he.tree.withCounts strong, he.files, he.cursors, fun fd d hget =>
    (he.backed fd d hget).withTree id⟩

/-- **Sizes and cursors can be expressed** on every host that comes about with files of such sizes. -/
theorem ReachedWithin.expressible (hr : h.ReachedWithin maxOffset) : h.Expressible := by
  induction hr with
  | start treeOps stdin surroundings htree =>
    exact expressible_new (FileTree.WellFormed.empty.run treeOps)
      ((FileTree.within_empty _).run maxFileSize_le_maxOffset htree) stdin surroundings
  | guest op _ ih => exact (perform_changes ih.tree op).keeps (fun _ _ hc he => hc.expressible he) ih
  | owner op hop _ ih => exact ih.owner hop
  | other act _ ih => exact ih.hold act
  | besides _ _ _ ih => exact ⟨ih.tree, ih.files, ih.cursors, fun fd d hget =>
      (ih.backed fd d hget).withTree id⟩

theorem ReachedWithin.runShared (hr : h.ReachedWithin limit) {steps : List HostStep}
    (hsteps : ∀ step ∈ steps, ∀ content ∈ step.brings, content.length ≤ limit) :
    (h.runShared steps).ReachedWithin limit := by
  induction steps generalizing h with
  | nil => exact hr
  | cons step steps ih =>
    have htake : (h.take step).ReachedWithin limit := by
      cases step with
      | guest op => exact hr.guest op
      | owner change => exact hr.owner change.val (hsteps _ List.mem_cons_self)
      | other act => exact hr.other act
    exact ih htake fun step' hmem => hsteps step' (List.mem_cons_of_mem step hmem)

/-! ### What a seek counts from -/

/-- There is a content behind a descriptor on a file, and its size can be expressed. -/
theorem Expressible.content (he : h.Expressible) (hget : h.table.get? fd = some d)
    (htarget : d.target = .file path n) :
    ∃ content, h.tree.content? n = some content ∧ content.length ≤ maxOffset := by
  obtain ⟨content, hcontent⟩ := (he.backed fd d hget).file htarget
  exact ⟨content, hcontent, he.files n content hcontent⟩

/-- What a seek counts from can be expressed. -/
theorem Expressible.seekBase_le (he : h.Expressible) (hget : h.table.get? fd = some d)
    (htarget : d.target = .file path n) (whence : Whence) : h.seekBase d n whence ≤ maxOffset := by
  obtain ⟨content, hcontent, hsize⟩ := he.content hget htarget
  rw [← FileTree.size_eq_length hcontent] at hsize
  exact Host.seekBase_le (he.cursors fd d path n hget htarget) hsize whence

/-! ### The cursor of a handle -/

/-- The host with the descriptor under the handle, its cursor at the place. -/
def withCursor (h : Host) (fd : Nat) (d : Descriptor) (place : Nat) : Host :=
  { h with table := h.table.put fd { d with cursor := place } }

theorem get?_withCursor (h : Host) (fd : Nat) (d : Descriptor) (place : Nat) :
    (h.withCursor fd d place).table.get? fd = some { d with cursor := place } := by
  rw [withCursor, DescriptorTable.get?_put, if_pos rfl]

theorem get?_withCursor_of_ne (hk : k ≠ fd) (h : Host) (d : Descriptor) (place : Nat) :
    (h.withCursor fd d place).table.get? k = h.table.get? k := by
  rw [withCursor, DescriptorTable.get?_put, if_neg hk]

/-- The last place counts. -/
theorem withCursor_withCursor (h : Host) (fd : Nat) (d : Descriptor) (place place' : Nat) :
    (h.withCursor fd d place).withCursor fd { d with cursor := place } place' =
      h.withCursor fd d place' := by
  unfold withCursor
  rw [DescriptorTable.put_put]

/-- At its own place the cursor is already. -/
theorem withCursor_self (hget : h.table.get? fd = some d) : h.withCursor fd d d.cursor = h := by
  unfold withCursor
  rw [DescriptorTable.put_get hget]

/-- A seek to an offset goes there. -/
theorem seek_set_run (hget : h.table.get? fd = some d) (htarget : d.target = .file path n)
    (hn : h.tree.alive n = true) {place : Nat} (hplace : place ≤ maxOffset) :
    seek fd place .set h = .ok place (h.withCursor fd d place) := by
  have hbase : h.seekBase d n .set ≤ maxOffset := Nat.zero_le _
  have hsum : ((h.seekBase d n .set : Nat) : Int) + place = place := by simp [seekBase]
  rw [seek_run hget htarget hn hbase, hsum, if_pos ⟨by omega, by omega⟩, Int.toNat_natCast]
  rfl

end Host

end WasiSandbox
