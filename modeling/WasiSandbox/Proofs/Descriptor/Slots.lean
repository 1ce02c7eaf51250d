import WasiSandbox.Proofs.Descriptor.Bounds
import WasiSandbox.Proofs.Descriptor.Relative
import Mathlib.Order.Bounds.Defs

/-! # What a step does to one handle

The table has a slot for every handle, and a step does one of five things to a slot: it leaves it alone,
gives the handle out, moves the cursor, sets the flags, or closes the handle (`Turns`, `take_turns`). What
is to be said about a handle along a run follows from that. A handle that nothing closes stands for what it
was opened on, with the same rights (`runShared_open`). It is open just from a step that gives it out to the
next one that closes it (`isOpen_runShared_iff`), and no step changes a descriptor but that of its own
handle (`take_other`). New handles are the least ones that are free; those that are there from the start are
not among them, so they are closed for good when they are closed (`runShared_allots`). -/

namespace WasiSandbox

/-! ### The lowest free handle -/

namespace DescriptorTable

theorem get?_lowestFree (t : DescriptorTable) : t.get? t.lowestFree = none := by
  unfold get? lowestFree
  rw [← List.getElem?_drop]
  by_cases hfree : (t.slots.drop firstHandle).findIdx (·.isNone) < (t.slots.drop firstHandle).length
  · rw [List.getElem?_eq_getElem hfree]
    exact Option.isNone_iff_eq_none.mp (List.findIdx_getElem (w := hfree))
  · rw [List.getElem?_eq_none (Nat.le_of_not_lt hfree)]
    rfl

/-- **The lowest free handle** is the least one that is not open and may be given out. -/
theorem lowestFree_isLeast (t : DescriptorTable) :
    IsLeast {fd | firstHandle ≤ fd ∧ t.get? fd = none} t.lowestFree := by
  refine ⟨⟨Nat.le_add_right _ _, t.get?_lowestFree⟩, fun fd hfd => ?_⟩
  obtain ⟨hfirst, hfree⟩ := hfd
  obtain ⟨i, rfl⟩ := Nat.exists_eq_add_of_le hfirst
  by_contra hlt
  have hbefore : i < (t.slots.drop firstHandle).findIdx (·.isNone) := by
    unfold lowestFree at hlt
    omega
  have hslot := List.not_of_lt_findIdx hbefore
  have hlen : i < (t.slots.drop firstHandle).length :=
    Nat.lt_of_lt_of_le hbefore List.findIdx_le_length
  unfold get? at hfree
  rw [← List.getElem?_drop, List.getElem?_eq_getElem hlen, Option.join_some] at hfree
  rw [hfree] at hslot
  cases hslot

end DescriptorTable

/-- The handle that the step works on. -/
def HostStep.handle? : HostStep → Option Nat
  | .guest op => op.handle?
  | .owner _ | .other _ => none

namespace Host

variable {h h' : Host} {fd k : Nat} {d : Descriptor} {slot slot' : Option Descriptor} {step : HostStep}
  {op : DescriptorOperation} {α β : Type} {x : HostM α}

/-- The step opens a path, and answers with the handle. -/
def Gives (fd : Nat) (h : Host) : HostStep → Prop
  | .guest (.openPath dirfd path flags rights inheriting descriptorFlags) =>
    ∃ h', openPath dirfd path flags rights inheriting descriptorFlags h = .ok fd h'
  | _ => False

/-! ### Slots -/

/-- What a step can do to the slot of a handle: the slot before and after it. -/
inductive Turns (h : Host) (fd : Nat) : HostStep → Option Descriptor → Option Descriptor → Prop where
  /-- The slot stays as it is. -/
  | kept {step : HostStep} {slot : Option Descriptor} : step ≠ .guest (.close fd) → ¬ h.Gives fd step →
      Turns h fd step slot slot
  /-- The handle was free and is given out, with what was asked for. -/
  | given {dirfd : Nat} {path : String} {flags : OpenFlags} {rights inheriting : Rights}
      {descriptorFlags : DescriptorFlags} {target : DescriptorTarget} {h' : Host} :
      openPath dirfd path flags rights inheriting descriptorFlags h = .ok fd h' →
      Turns h fd (.guest (.openPath dirfd path flags rights inheriting descriptorFlags)) none
        (some ⟨target, 0, rights, inheriting, descriptorFlags⟩)
  /-- The cursor moves. -/
  | moved {op : DescriptorOperation} {d : Descriptor} {cursor : Nat} : op.handle? = some fd →
      op ≠ .close fd → Turns h fd (.guest op) (some d) (some { d with cursor := cursor })
  /-- The flags are set. -/
  | flagged {d : Descriptor} {flags : DescriptorFlags} :
      Turns h fd (.guest (.setFlags fd flags)) (some d) (some { d with flags := flags })
  /-- The handle is closed, if it was open. -/
  | closed {slot : Option Descriptor} : Turns h fd (.guest (.close fd)) slot none

/-- The table does not change. -/
theorem turns_of_slots (hslots : h'.table.slots = h.table.slots) (hclose : step ≠ .guest (.close fd))
    (hgives : ¬ h.Gives fd step) : h.Turns fd step (h.table.get? fd) (h'.table.get? fd) := by
  have hget : h'.table.get? fd = h.table.get? fd := by
    rw [DescriptorTable.get?, hslots, DescriptorTable.get?]
  rw [hget]
  exact .kept hclose hgives

theorem turns_of_keeps (hx : Keeps (·.table.slots) x) (hclose : step ≠ .guest (.close fd))
    (hgives : ¬ h.Gives fd step) : h.Turns fd step (h.table.get? fd) ((left (x h)).table.get? fd) :=
  turns_of_slots (hx h) hclose hgives

/-- The cursor of a handle moves. -/
theorem turns_of_cursor {cursor : Nat} (hop : op.handle? = some k) (hclose : op ≠ .close fd)
    (hgives : ¬ h.Gives fd (.guest op)) (hget : h.table.get? k = some d)
    (htable : h'.table = h.table.put k { d with cursor := cursor }) :
    h.Turns fd (.guest op) (h.table.get? fd) (h'.table.get? fd) := by
  rw [htable, DescriptorTable.get?_put]
  split
  · next hk =>
    subst hk
    rw [hget]
    exact .moved hop hclose
  · exact .kept (fun heq => hclose (HostStep.guest.inj heq)) hgives

/-- An operation that leaves no trace when it fails has to be looked at where it succeeds. -/
theorem turns_of_atomic (hx : Atomic x) (hclose : step ≠ .guest (.close fd)) (hgives : ¬ h.Gives fd step)
    (hok : ∀ a h', x h = .ok a h' → h.Turns fd step (h.table.get? fd) (h'.table.get? fd)) :
    h.Turns fd step (h.table.get? fd) ((left (x h)).table.get? fd) := by
  cases hrun : x h with
  | ok a h' => exact hok a h' hrun
  | error e h' =>
    obtain rfl : h' = h := hx h e h' hrun
    exact .kept hclose hgives

/-! ### Operations -/

variable {dirfd : Nat} {path : String} {flags : OpenFlags} {rights inheriting : Rights}
  {descriptorFlags : DescriptorFlags}

/-- What is opened comes under the lowest free handle, with what was asked for. -/
theorem openPath_table
    (hok : openPath dirfd path flags rights inheriting descriptorFlags h = .ok fd h') :
    fd = h.table.lowestFree ∧ ∃ target,
      h'.table = h.table.put fd ⟨target, 0, rights, inheriting, descriptorFlags⟩ := by
  obtain ⟨full, h₁, hresolve, hrest⟩ := run_bind_eq_ok hok
  obtain rfl : h₁ = h := (keeps_resolve dirfd path).ok hresolve
  obtain ⟨n, h₂, hnode, hopen⟩ := run_bind_eq_ok hrest
  obtain ⟨target, h₃, htarget, hinsert⟩ := run_bind_eq_ok hopen
  obtain ⟨rfl, rfl⟩ := insert_ok hinsert
  have htable : h₃.table = h₁.table :=
    ((keeps_targetToOpen (fun _ _ => rfl) full n flags).ok htarget).trans
      ((keeps_nodeToOpen (fun _ _ => rfl) full flags).ok hnode)
  rw [htable]
  exact ⟨rfl, target, rfl⟩

/-- If nothing is opened, the table stays as it was. -/
theorem openPath_table_error {e : SysFailure}
    (hfail : openPath dirfd path flags rights inheriting descriptorFlags h = .error e h') :
    h'.table = h.table := by
  rcases run_bind_eq_error hfail with hresolve | ⟨full, h₁, hresolve, hrest⟩
  · exact congrArg (·.table) ((keeps_resolve dirfd path).error hresolve)
  obtain rfl : h₁ = h := (keeps_resolve dirfd path).ok hresolve
  rcases run_bind_eq_error hrest with hnode | ⟨n, h₂, hnode, hrest⟩
  · exact (keeps_nodeToOpen (fun _ _ => rfl) full flags).error hnode
  have htable : h₂.table = h₁.table := (keeps_nodeToOpen (fun _ _ => rfl) full flags).ok hnode
  rcases run_bind_eq_error hrest with htarget | ⟨target, h₃, htarget, hinsert⟩
  · exact ((keeps_targetToOpen (fun _ _ => rfl) full n flags).error htarget).trans htable
  · rw [atomic_insert _ _ _ _ hinsert]
    exact ((keeps_targetToOpen (fun _ _ => rfl) full n flags).ok htarget).trans htable

theorem turns_openPath (h : Host) (fd dirfd : Nat) (path : String) (flags : OpenFlags)
    (rights inheriting : Rights) (descriptorFlags : DescriptorFlags) :
    h.Turns fd (.guest (.openPath dirfd path flags rights inheriting descriptorFlags)) (h.table.get? fd)
      ((left (openPath dirfd path flags rights inheriting descriptorFlags h)).table.get? fd) := by
  have hclose : HostStep.guest (.openPath dirfd path flags rights inheriting descriptorFlags) ≠
      .guest (.close fd) := by simp
  cases hrun : openPath dirfd path flags rights inheriting descriptorFlags h with
  | error e h' =>
    refine turns_of_slots (congrArg (·.slots) (openPath_table_error hrun)) hclose ?_
    rintro ⟨h'', hok⟩
    rw [hrun] at hok
    cases hok
  | ok k h' =>
    obtain ⟨rfl, target, htable⟩ := openPath_table hrun
    show h.Turns fd _ _ (h'.table.get? fd)
    rw [htable, DescriptorTable.get?_put]
    split
    · next hfd =>
      subst hfd
      rw [h.table.get?_lowestFree]
      exact .given hrun
    · next hfd =>
      refine .kept hclose ?_
      rintro ⟨h'', hok⟩
      rw [hrun] at hok
      cases hok
      exact hfd rfl

theorem turns_setFlags (h : Host) (fd k : Nat) (flags : DescriptorFlags) :
    h.Turns fd (.guest (.setFlags k flags)) (h.table.get? fd)
      ((left (setFlags k flags h)).table.get? fd) := by
  have hclose : HostStep.guest (.setFlags k flags) ≠ .guest (.close fd) := by simp
  refine turns_of_atomic (atomic_setFlags k flags) hclose id fun u h' hok => ?_
  obtain ⟨d, h₁, hd, hset⟩ := run_bind_eq_ok hok
  obtain ⟨hget, rfl⟩ := descriptor_ok hd
  cases hset
  show h₁.Turns fd _ _ ((h₁.table.put k { d with flags := flags }).get? fd)
  rw [DescriptorTable.get?_put]
  split
  · next hk =>
    subst hk
    rw [hget]
    exact .flagged
  · exact .kept hclose id

theorem turns_close (h : Host) (fd k : Nat) :
    h.Turns fd (.guest (.close k)) (h.table.get? fd) ((left (close k h)).table.get? fd) := by
  by_cases hk : k = fd
  · subst hk
    have hnone : (left (close k h)).table.get? k = none := by
      cases hget : h.table.get? k with
      | none => rw [show close k h = .error (.reported .badf) h from
          run_bind_error (descriptor_error hget)]; exact hget
      | some d =>
        rw [show close k h = .ok () { h with table := h.table.clear k } from
          run_bind_ok (descriptor_run hget)]
        exact DescriptorTable.get?_clear.trans (if_pos rfl)
    rw [hnone]
    exact .closed
  · have hclose : HostStep.guest (.close k) ≠ .guest (.close fd) := by simpa using hk
    refine turns_of_atomic (atomic_close k) hclose id fun u h' hok => ?_
    obtain ⟨d, h₁, hd, hclear⟩ := run_bind_eq_ok hok
    obtain ⟨-, rfl⟩ := descriptor_ok hd
    cases hclear
    show h₁.Turns fd _ _ ((h₁.table.clear k).get? fd)
    rw [DescriptorTable.get?_clear, if_neg (Ne.symm hk)]
    exact .kept hclose id

/-- **What a step does to a slot** is one of the five, whatever comes of the step. -/
theorem take_turns (h : Host) (fd : Nat) (step : HostStep) :
    h.Turns fd step (h.table.get? fd) ((h.take step).table.get? fd) := by
  have hlook : ∀ {op : DescriptorOperation}, Keeps (·.table.slots) op.act → op ≠ .close fd →
      ¬ h.Gives fd (.guest op) →
      h.Turns fd (.guest op) (h.table.get? fd) ((h.perform op).table.get? fd) :=
    fun hx hclose hgives => turns_of_keeps hx (fun heq => hclose (HostStep.guest.inj heq)) hgives
  cases step with
  | owner change => exact .kept (by simp) id
  | other act => exact turns_of_slots (congrArg (·.slots) (h.table_hold act)) (by simp) id
  | guest op =>
    show h.Turns fd _ _ ((h.perform op).table.get? fd)
    cases op with
    | openPath dirfd path flags rights inheriting descriptorFlags =>
      rw [perform_openPath]
      exact turns_openPath h fd dirfd path flags rights inheriting descriptorFlags
    | makeDirectory dirfd path =>
      exact hlook (keeps_bind (keeps_resolve dirfd path).of_id fun _ =>
        keeps_bind (keeps_onTree (fun _ _ => rfl) _) fun _ => keeps_pure _) (by simp) id
    | pathFilestat dirfd path => exact hlook (keeps_pathFilestat dirfd path).of_id.discard (by simp) id
    | close k => exact turns_close h fd k
    | read k length =>
      rw [perform_read]
      refine turns_of_atomic (atomic_read k length) (by simp) id fun data h' hok => ?_
      obtain ⟨d, ahead, hget, -, -, -, -, rfl⟩ := read_ok hok
      exact turns_of_cursor rfl (by simp) id hget rfl
    | readAt k length offset => exact hlook (keeps_readAt k length offset).of_id.discard (by simp) id
    | write k data =>
      rw [perform_write]
      refine turns_of_atomic (atomic_write k data) (by simp) id fun m h' hok => ?_
      obtain ⟨-, hw⟩ := write_ok hok
      cases hw with
      | stream _ _ hslots => exact turns_of_slots hslots (by simp) id
      | file hget => exact turns_of_cursor rfl (by simp) id hget rfl
    | writeAt k data offset =>
      rw [perform_writeAt]
      refine turns_of_atomic (atomic_writeAt k data offset) (by simp) id fun m h' hok => ?_
      obtain ⟨d, path, n, old, -, -, -, -, rfl⟩ := writeAt_ok hok
      exact .kept (by simp) id
    | seek k offset whence =>
      rw [perform_seek]
      refine turns_of_atomic (atomic_seek k offset whence) (by simp) id fun m h' hok => ?_
      obtain ⟨d, path, n, hget, -, -, -, rfl⟩ := seek_ok hok
      exact turns_of_cursor rfl (by simp) id hget rfl
    | tell k => exact hlook (keeps_tell k).of_id.discard (by simp) id
    | filestat k => exact hlook (keeps_filestat k).of_id.discard (by simp) id
    | fdstat k => exact hlook (keeps_fdstat k).of_id.discard (by simp) id
    | setFlags k flags => exact turns_setFlags h fd k flags
    | prestat k => exact hlook (keeps_prestat k).of_id.discard (by simp) id
    | readDirectory k => exact hlook (keeps_readDirectory k).of_id.discard (by simp) id
    | flush => exact turns_of_slots rfl (by simp) id

/-! ### Handles that are open -/

/-- Only the cursor and the flags of a handle change until it is closed. -/
theorem take_open (hget : h.table.get? fd = some d) (hstep : step ≠ .guest (.close fd)) :
    ∃ cursor flags, (h.take step).table.get? fd = some { d with cursor := cursor, flags := flags } := by
  have hturns := h.take_turns fd step
  rw [hget] at hturns
  generalize (h.take step).table.get? fd = slot at hturns
  cases hturns with
  | kept => exact ⟨d.cursor, d.flags, rfl⟩
  | @moved op d cursor => exact ⟨cursor, d.flags, rfl⟩
  | @flagged d flags => exact ⟨d.cursor, flags, rfl⟩
  | closed => exact absurd rfl hstep

/-- **A handle stands for what it was opened on**, with the same rights, as long as nothing closes it. -/
theorem runShared_open {steps : List HostStep} (hget : h.table.get? fd = some d)
    (hsteps : .guest (.close fd) ∉ steps) : ∃ cursor flags,
      (h.runShared steps).table.get? fd = some { d with cursor := cursor, flags := flags } := by
  induction steps generalizing h d with
  | nil => exact ⟨d.cursor, d.flags, hget⟩
  | cons step steps ih =>
    obtain ⟨hstep, hrest⟩ := not_or.mp fun hor => hsteps (List.mem_cons.mpr hor)
    obtain ⟨cursor, flags, hget'⟩ := take_open hget (Ne.symm hstep)
    obtain ⟨cursor', flags', hget''⟩ := ih hget' hrest
    exact ⟨cursor', flags', hget''⟩

/-- A step leaves the descriptors of all other handles as they are. -/
theorem take_other (hget : h.table.get? fd = some d) (hstep : step.handle? ≠ some fd) :
    (h.take step).table.get? fd = some d := by
  have hturns := h.take_turns fd step
  rw [hget] at hturns
  generalize (h.take step).table.get? fd = slot at hturns ⊢
  cases hturns with
  | kept => rfl
  | moved hop => exact absurd hop hstep
  | flagged | closed => exact absurd rfl hstep

theorem isOpen_take_iff (h : Host) (fd : Nat) (step : HostStep) :
    ((h.take step).table.get? fd).isSome ↔
      (h.table.get? fd).isSome ∧ step ≠ .guest (.close fd) ∨ h.Gives fd step := by
  have hturns := h.take_turns fd step
  generalize (h.take step).table.get? fd = slot' at hturns ⊢
  generalize h.table.get? fd = slot at hturns ⊢
  cases hturns with
  | kept hclose hgives => exact ⟨fun hsome => Or.inl ⟨hsome, hclose⟩, fun hor => (hor.resolve_right hgives).1⟩
  | given hok => exact iff_of_true rfl (Or.inr ⟨_, hok⟩)
  | moved _ hclose => exact iff_of_true rfl (Or.inl ⟨rfl, fun heq => hclose (HostStep.guest.inj heq)⟩)
  | flagged => exact iff_of_true rfl (Or.inl ⟨rfl, by simp⟩)
  | closed => exact iff_of_false (by simp) (by rintro (⟨-, hne⟩ | hgives); exacts [hne rfl, hgives])

/-- One of the steps gives the handle out, and none after it closes the handle. -/
def GivenSince (h : Host) (steps : List HostStep) (fd : Nat) : Prop :=
  ∃ front step back, steps = front ++ step :: back ∧ (h.runShared front).Gives fd step ∧
    .guest (.close fd) ∉ back

theorem not_givenSince_nil : ¬ h.GivenSince [] fd := by
  rintro ⟨front, step, back, heq, -⟩
  simp at heq

theorem givenSince_cons {steps : List HostStep} : h.GivenSince (step :: steps) fd ↔
    h.Gives fd step ∧ .guest (.close fd) ∉ steps ∨ (h.take step).GivenSince steps fd := by
  constructor
  · rintro ⟨front, step', back, heq, hgives, hback⟩
    cases front with
    | nil =>
      cases heq
      exact Or.inl ⟨hgives, hback⟩
    | cons first front =>
      cases heq
      exact Or.inr ⟨front, step', back, rfl, hgives, hback⟩
  · rintro (⟨hgives, hsteps⟩ | ⟨front, step', back, rfl, hgives, hback⟩)
    · exact ⟨[], step, steps, rfl, hgives, hsteps⟩
    · exact ⟨step :: front, step', back, rfl, hgives, hback⟩

/-- **A handle is open** after a run if it was open before or has been given out, and not closed since. -/
theorem isOpen_runShared_iff (h : Host) (fd : Nat) (steps : List HostStep) :
    ((h.runShared steps).table.get? fd).isSome ↔
      (h.table.get? fd).isSome ∧ .guest (.close fd) ∉ steps ∨ h.GivenSince steps fd := by
  induction steps generalizing h with
  | nil =>
    have hnil : ¬ h.GivenSince [] fd := not_givenSince_nil
    simp [runShared, hnil]
  | cons step steps ih =>
    have hmem : HostStep.guest (.close fd) ∉ step :: steps ↔
        step ≠ .guest (.close fd) ∧ .guest (.close fd) ∉ steps := by
      rw [List.mem_cons, not_or, ne_comm]
    show ((h.take step).runShared steps |>.table.get? fd).isSome ↔ _
    rw [ih, isOpen_take_iff, givenSince_cons, hmem]
    tauto

/-- The handles that are there from the start are not given out. -/
theorem Gives.le (hgives : h.Gives fd step) : DescriptorTable.firstHandle ≤ fd := by
  cases step with
  | owner | other => exact hgives.elim
  | guest op =>
    cases op with
    | openPath =>
      obtain ⟨h', hok⟩ := hgives
      rw [(openPath_table hok).1]
      exact h.table.lowestFree_isLeast.1.1
    | _ => exact hgives.elim

theorem not_givenSince_of_lt {steps : List HostStep} (hfd : fd < DescriptorTable.firstHandle) :
    ¬ h.GivenSince steps fd := by
  rintro ⟨front, step, back, -, hgives, -⟩
  exact absurd hgives.le (Nat.not_le.mpr hfd)

/-! ### Handles that are closed -/

theorem discard_error {e : SysFailure} (hx : x h = .error e h') :
    (discard x : HostM PUnit) h = .error e h' := by
  show EStateM.map _ x h = _
  unfold EStateM.map
  rw [hx]

theorem resolve_closed (hget : h.table.get? fd = none) (path : String) :
    resolve fd path h = .error (.reported .badf) h := run_bind_error (descriptor_error hget)

/-- **An operation on a handle that is not open** answers `badf`. -/
theorem act_closed (hget : h.table.get? fd = none) (hop : op.handle? = some fd) :
    op.act h = .error (.reported .badf) h := by
  cases op with
  | openPath | pathFilestat =>
    cases hop
    exact discard_error (run_bind_error (resolve_closed hget _))
  | makeDirectory =>
    cases hop
    exact run_bind_error (resolve_closed hget _)
  | close | setFlags =>
    cases hop
    exact run_bind_error (descriptor_error hget)
  | read | readAt | write | writeAt | seek | tell | filestat | fdstat | prestat | readDirectory =>
    cases hop
    exact discard_error (run_bind_error (descriptor_error hget))
  | flush => cases hop

/-! ### Whole runs -/

open DescriptorTable in
/-- How handles are given out and taken back on a host that has come from another one by these steps. -/
structure Allots (start : Host) (steps : List HostStep) (h : Host) : Prop where
  /-- What is opened comes under the least handle that may be given out and is not open. Its cursor is at
  the start, its rights and flags are those that were asked for. -/
  given : ∀ {dirfd path flags rights inheriting descriptorFlags fd h'},
    openPath dirfd path flags rights inheriting descriptorFlags h = .ok fd h' →
      IsLeast {fd | firstHandle ≤ fd ∧ h.table.get? fd = none} fd ∧
      ∃ target, h'.table.get? fd = some ⟨target, 0, rights, inheriting, descriptorFlags⟩
  /-- There is such a handle, as long as not all of them are open. -/
  room : h.table.size < UInt32.size - firstHandle →
    ∀ dirfd path flags rights inheriting descriptorFlags,
      Avoids Failure.IsDefect (openPath dirfd path flags rights inheriting descriptorFlags) h
  /-- So what is at a path can be opened. -/
  opens : h.table.size < UInt32.size - firstHandle → ∀ {dirfd path full n},
    resolve dirfd path h = .ok full h → h.tree.lookup full = some n →
    ∀ rights inheriting descriptorFlags, ∃ fd h',
      openPath dirfd path ⟨0⟩ rights inheriting descriptorFlags h = .ok fd h'
  /-- A handle is open just from when it is given out to when it is closed the next time. -/
  isOpen_iff : ∀ {fd}, firstHandle ≤ fd → ((h.table.get? fd).isSome ↔ start.GivenSince steps fd)
  /-- The handles that are there from the start are open until they are closed, and never again. -/
  isReserved_iff : ∀ {fd}, fd < firstHandle → ((h.table.get? fd).isSome ↔ .guest (.close fd) ∉ steps)
  /-- At a handle that is not open there is nothing but `badf`, also for paths relative to it. -/
  closed : ∀ {fd}, h.table.get? fd = none →
    (∀ path, resolve fd path h = .error (.reported .badf) h) ∧
      ∀ {op : DescriptorOperation}, op.handle? = some fd → op.act h = .error (.reported .badf) h
  /-- A step changes nothing about any handle but its own. -/
  other : ∀ {step fd d}, h.table.get? fd = some d → step.handle? ≠ some fd →
    (h.take step).table.get? fd = some d
  /-- What its own handle stands for and its rights stay as well, unless the step closes the handle. -/
  own : ∀ {step fd d}, h.table.get? fd = some d → step ≠ .guest (.close fd) → ∃ cursor flags,
    (h.take step).table.get? fd = some { d with cursor := cursor, flags := flags }

theorem openPath_avoids_defects (hroom : h.table.lowestFree < UInt32.size) (dirfd : Nat) (path : String)
    (flags : OpenFlags) (rights inheriting : Rights) (descriptorFlags : DescriptorFlags) :
    Avoids Failure.IsDefect (openPath dirfd path flags rights inheriting descriptorFlags) h :=
  avoids_openPath (fun _ hbad => hbad.elim) (fun hbad => hbad.elim) (fun _ _ => hroom) path flags rights
    inheriting descriptorFlags

theorem openPath_run {full : String} {n : NodeId} (hroom : h.table.lowestFree < UInt32.size)
    (hresolve : resolve dirfd path h = .ok full h) (hn : h.tree.lookup full = some n)
    (rights inheriting : Rights) (descriptorFlags : DescriptorFlags) :
    ∃ fd h', openPath dirfd path ⟨0⟩ rights inheriting descriptorFlags h = .ok fd h' := by
  have hnode : nodeToOpen full ⟨0⟩ h = .ok n h := by
    unfold nodeToOpen
    rw [run_get_bind, hn]
    rfl
  obtain ⟨target, htarget⟩ : ∃ target, targetToOpen full n ⟨0⟩ h = .ok target h := by
    unfold targetToOpen
    rw [run_get_bind]
    split
    · exact ⟨_, rfl⟩
    · exact ⟨_, rfl⟩
  unfold openPath insert
  rw [run_bind_ok hresolve, run_bind_ok hnode, run_bind_ok htarget, run_get_bind,
    if_neg (Nat.not_le.mpr hroom)]
  exact ⟨_, _, rfl⟩

theorem isSome_get?_new (root : NodeId) (stdin : Bytes) (fd : Nat) :
    ((DescriptorTable.new root stdin).get? fd).isSome ↔ fd < DescriptorTable.firstHandle := by
  match fd with
  | 0 | 1 | 2 | 3 => exact iff_of_true rfl (by decide)
  | k + 4 => exact iff_of_false (fun hsome => nomatch hsome) (by simp [DescriptorTable.firstHandle])

/-- **Handles are given out from the lowest free one on and do not touch each other**, whatever the guest
and the owner of the tree have done in turn. -/
theorem runShared_allots (treeOps : List TreeOperation) (stdin : Bytes) (surroundings : Surroundings)
    (steps : List HostStep) :
    let start := Host.new (FileTree.empty.run treeOps) stdin surroundings
    start.Allots steps (start.runShared steps) := by
  intro start
  have hnew : ∀ fd, (start.table.get? fd).isSome ↔ fd < DescriptorTable.firstHandle :=
    isSome_get?_new _ stdin
  refine ⟨?_, ?_, ?_, ?_, ?_, ?_, take_other, take_open⟩
  · intro dirfd path flags rights inheriting descriptorFlags fd h' hok
    obtain ⟨rfl, target, htable⟩ := openPath_table hok
    refine ⟨DescriptorTable.lowestFree_isLeast _, target, ?_⟩
    rw [htable, DescriptorTable.get?_put, if_pos rfl]
  · intro hsize
    exact openPath_avoids_defects (DescriptorTable.lowestFree_lt hsize)
  · intro hsize dirfd path full n hresolve hn
    exact openPath_run (DescriptorTable.lowestFree_lt hsize) hresolve hn
  · intro fd hfd
    rw [isOpen_runShared_iff, hnew]
    exact or_iff_right fun hboth => absurd hboth.1 (Nat.not_lt.mpr hfd)
  · intro fd hfd
    rw [isOpen_runShared_iff, hnew, and_iff_right hfd]
    exact or_iff_left (not_givenSince_of_lt hfd)
  · intro fd hfree
    exact ⟨resolve_closed hfree, act_closed hfree⟩

/-- A handle that is closed is the next one to be given out, but not if it was there from the start. -/
example : (nested.run [.close 4, .openPath 3 "a" ⟨0⟩ .all .all ⟨0⟩]).table.handles = [0, 1, 2, 3, 4, 5] ∧
    (nested.run [.close 2, .openPath 3 "a" ⟨0⟩ .all .all ⟨0⟩]).table.handles = [0, 1, 3, 4, 5, 6] := by
  decide +kernel

end Host

end WasiSandbox
