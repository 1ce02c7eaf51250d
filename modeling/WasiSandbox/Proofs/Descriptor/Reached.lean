import WasiSandbox.Proofs.Descriptor.Cursors
import WasiSandbox.Proofs.Descriptor.Handles
import WasiSandbox.Proofs.Descriptor.Slots

/-! # The hosts that there are

A host starts on a tree that has grown from the empty one, and changes with what its guest does to the
descriptors, with what the owner does to the tree, with the handles that others take and drop, and with what
is noted in its journal and taken from its surroundings (`Reached`). Whatever has happened, the handles on
the nodes of the tree are counted (`Reached.handles_counted`), every cursor fits its word, and a descriptor
on the standard input can be read from (`Reached.regular`). A handle on a directory has a directory behind
it, and as long as that is alive it can be listed (`Reached.browses`). -/

namespace WasiSandbox

/-- The cursor fits its word, and nothing stands for the input that may not be read. -/
structure Descriptor.Regular (d : Descriptor) : Prop where
  cursor : d.cursor < UInt64.size
  input : d.target = .stdin → d.rights.contains .fdRead = true

namespace Host

variable {h h' : Host} {fd : Nat} {d : Descriptor}

/-- The hosts that come about. -/
inductive Reached : Host → Prop where
  | start (treeOps : List TreeOperation) (stdin : Bytes) (surroundings : Surroundings) :
      Reached (.new (FileTree.empty.run treeOps) stdin surroundings)
  | guest {h : Host} (op : DescriptorOperation) : Reached h → Reached (h.perform op)
  | owner {h : Host} (op : TreeOperation) : Reached h → Reached { h with tree := h.tree.perform op }
  | other {h : Host} (act : HandleStep) : Reached h → Reached (h.hold act)
  | besides {h : Host} (journal : Journal) (surroundings : Surroundings) : Reached h →
      Reached { h with journal := journal, surroundings := surroundings }

/-- Every open handle stands for a regular descriptor. -/
def Regular (h : Host) : Prop := ∀ fd d, h.table.get? fd = some d → d.Regular

theorem regular_new (t : FileTree) (stdin : Bytes) (surroundings : Surroundings) :
    Regular (.new t stdin surroundings) := by
  intro fd d hget
  obtain ⟨hcursor, -⟩ := DescriptorTable.get?_new hget
  refine ⟨by rw [hcursor]; decide, fun htarget => ?_⟩
  have hlt : fd < DescriptorTable.firstHandle :=
    (isSome_get?_new t.root stdin fd).mp (Option.isSome_iff_exists.mpr ⟨d, hget⟩)
  match fd, hlt with
  | 0, _ =>
    cases hget
    decide
  | 1, _ | 2, _ | 3, _ =>
    cases hget
    cases htarget

namespace Regular

theorem of_slots (hr : h.Regular) (hslots : h'.table.slots = h.table.slots) : h'.Regular := by
  intro fd d hget
  rw [DescriptorTable.get?, hslots] at hget
  exact hr fd d hget

theorem of_keeps {α : Type} {x : HostM α} (hr : h.Regular) (hx : Keeps (·.table.slots) x) :
    (left (x h)).Regular := hr.of_slots (hx h)

/-- A regular descriptor comes in. -/
theorem put (hr : h.Regular) (htable : h'.table = h.table.put fd d) (hd : d.Regular) : h'.Regular := by
  intro k d' hget
  rw [htable, DescriptorTable.get?_put] at hget
  split at hget
  · cases hget
    exact hd
  · exact hr k d' hget

/-- The cursor of a handle moves, within its word. -/
theorem moved (hr : h.Regular) (hget : h.table.get? fd = some d) {cursor : Nat}
    (hcursor : cursor < UInt64.size) (htable : h'.table = h.table.put fd { d with cursor := cursor }) :
    h'.Regular := hr.put htable ⟨hcursor, (hr fd d hget).input⟩

/-- An operation that leaves no trace when it fails. -/
theorem of_atomic {α : Type} {x : HostM α} (hr : h.Regular) (hx : Atomic x)
    (hok : ∀ a h', x h = .ok a h' → h'.Regular) : (left (x h)).Regular := by
  cases hrun : x h with
  | ok a h' => exact hok a h' hrun
  | error e h' =>
    obtain rfl : h' = h := hx h e h' hrun
    exact hr

/-- What is opened is a node, at its start. -/
theorem openPath (hr : h.Regular) (ht : h.tree.WellFormed) (dirfd : Nat) (path : String)
    (flags : OpenFlags) (rights inheriting : Rights) (descriptorFlags : DescriptorFlags) :
    (left (openPath dirfd path flags rights inheriting descriptorFlags h)).Regular := by
  cases hrun : Host.openPath dirfd path flags rights inheriting descriptorFlags h with
  | error e h' => exact hr.of_slots (congrArg (·.slots) (openPath_table_error hrun))
  | ok k h' =>
    obtain ⟨rfl, target, htable⟩ := openPath_table hrun
    obtain ⟨full, target', n, kind, -, hget, hnode, -⟩ := openPath_ok ht hrun
    rw [htable, DescriptorTable.get?_put, if_pos rfl] at hget
    cases hget
    refine hr.put htable ⟨show 0 < UInt64.size by decide, fun hinput => ?_⟩
    rw [show target = .stdin from hinput] at hnode
    cases hnode

/-- **No operation of the guest** makes a descriptor irregular. -/
theorem perform (hr : h.Regular) (ht : h.tree.WellFormed) (op : DescriptorOperation) :
    (h.perform op).Regular := by
  cases op with
  | openPath dirfd path flags rights inheriting descriptorFlags =>
    rw [perform_openPath]
    exact hr.openPath ht dirfd path flags rights inheriting descriptorFlags
  | makeDirectory dirfd path =>
    exact hr.of_keeps (keeps_bind (keeps_resolve dirfd path).of_id fun _ =>
      keeps_bind (keeps_onTree (fun _ _ => rfl) _) fun _ => keeps_pure _)
  | pathFilestat dirfd path => exact hr.of_keeps (keeps_pathFilestat dirfd path).of_id.discard
  | close k =>
    refine hr.of_atomic (atomic_close k) fun u h' hok => ?_
    obtain ⟨d, h₁, hd, hclear⟩ := run_bind_eq_ok hok
    obtain ⟨-, rfl⟩ := descriptor_ok hd
    cases hclear
    intro fd d' hget
    rw [DescriptorTable.get?_clear] at hget
    split at hget
    · cases hget
    · exact hr fd d' hget
  | read k length =>
    rw [perform_read]
    refine hr.of_atomic (atomic_read k length) fun data h' hok => ?_
    obtain ⟨d, ahead, hget, -, -, hend, rfl, rfl⟩ := read_ok hok
    rw [← List.length_take] at hend
    exact hr.moved hget hend rfl
  | readAt k length offset => exact hr.of_keeps (keeps_readAt k length offset).of_id.discard
  | write k data =>
    rw [perform_write]
    refine hr.of_atomic (atomic_write k data) fun m h' hok => ?_
    obtain ⟨-, hw⟩ := write_ok hok
    cases hw with
    | stream _ _ hslots => exact hr.of_slots hslots
    | file hget _ _ _ _ hcursor => exact hr.moved hget (Nat.lt_of_le_of_lt hcursor (by decide)) rfl
  | writeAt k data offset =>
    rw [perform_writeAt]
    refine hr.of_atomic (atomic_writeAt k data offset) fun m h' hok => ?_
    obtain ⟨d, path, n, old, -, -, -, -, rfl⟩ := writeAt_ok hok
    exact hr.of_slots rfl
  | seek k offset whence =>
    rw [perform_seek]
    refine hr.of_atomic (atomic_seek k offset whence) fun m h' hok => ?_
    obtain ⟨d, path, n, hget, -, hcursor, -, rfl⟩ := seek_ok hok
    exact hr.moved hget (Nat.lt_of_le_of_lt hcursor (by decide)) rfl
  | tell k => exact hr.of_keeps (keeps_tell k).of_id.discard
  | filestat k => exact hr.of_keeps (keeps_filestat k).of_id.discard
  | fdstat k => exact hr.of_keeps (keeps_fdstat k).of_id.discard
  | setFlags k flags =>
    refine hr.of_atomic (atomic_setFlags k flags) fun u h' hok => ?_
    obtain ⟨d, h₁, hd, hset⟩ := run_bind_eq_ok hok
    obtain ⟨hget, rfl⟩ := descriptor_ok hd
    cases hset
    exact hr.put rfl ⟨(hr k d hget).cursor, (hr k d hget).input⟩
  | prestat k => exact hr.of_keeps (keeps_prestat k).of_id.discard
  | readDirectory k => exact hr.of_keeps (keeps_readDirectory k).of_id.discard
  | flush => exact hr.of_slots rfl

end Regular

/-- **All handles are counted** on every host that there is. -/
theorem Reached.handles_counted (hr : h.Reached) : h.Counted := by
  induction hr with
  | start treeOps stdin surroundings => exact counted_new treeOps stdin surroundings
  | guest op _ ih => exact (perform_changes ih.wellFormed op).counted_after ih
  | owner op _ ih => exact FileTree.Counted.perform ih op
  | other act _ ih => exact ih.hold act
  | besides _ _ _ ih => exact ih

theorem Reached.wellFormed (hr : h.Reached) : h.tree.WellFormed := hr.handles_counted.wellFormed

/-- **Every descriptor is regular**, on every host that there is. -/
theorem Reached.regular (hr : h.Reached) : h.Regular := by
  induction hr with
  | start _ stdin surroundings => exact regular_new _ stdin surroundings
  | guest op hr ih => exact ih.perform hr.wellFormed op
  | owner _ _ ih => exact ih.of_slots rfl
  | other act _ ih => exact ih.of_slots (congrArg (·.slots) (table_hold _ act))
  | besides _ _ _ ih => exact ih.of_slots rfl

theorem Reached.backed (hr : h.Reached) : ∀ fd d, h.table.get? fd = some d → h.Backed d := by
  induction hr with
  | start treeOps => exact fun fd d => backed_new (FileTree.WellFormed.empty.run treeOps)
  | guest op hr ih =>
    exact (perform_changes hr.wellFormed op).keeps
      (p := fun h => ∀ fd d, h.table.get? fd = some d → h.Backed d) (fun _ _ hc hb _ _ => hc.backed hb) ih
  | owner op _ ih => exact fun fd d hget => (ih fd d hget).withTree fun hn => FileTree.kind?_perform hn op
  | @other h act _ ih =>
    obtain ⟨strong, kept, heq⟩ := h.hold_eq act
    rw [heq]
    exact fun fd d hget => (ih fd d hget).withTree id
  | besides _ _ _ ih => exact fun fd d hget => (ih fd d hget).withTree id

/-- **A directory that is open can be listed**, if it is still alive. -/
theorem Reached.browses {path : String} {n : NodeId} {preopen : Bool} (hr : h.Reached)
    (hopen : h.Opens fd (.directory path n preopen)) (hn : h.tree.alive n = true) : h.Browses fd n := by
  obtain ⟨d, hget, htarget⟩ := hopen
  have hkind := (hr.backed fd d hget).kind path n .directory (by rw [htarget]; rfl)
  exact ⟨⟨path, preopen, d, hget, htarget⟩, hn, FileTree.isDirectory_iff_kind?.mpr hkind⟩

theorem InTurn.reached (hi : h.InTurn) : h.Reached := by
  induction hi with
  | start treeOps stdin surroundings => exact .start treeOps stdin surroundings
  | take step _ ih =>
    cases step with
    | guest op => exact ih.guest op
    | owner change => exact ih.owner change.val
    | other act => exact ih.other act
  | besides journal surroundings _ ih => exact ih.besides journal surroundings

end Host

end WasiSandbox
