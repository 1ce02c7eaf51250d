import WasiSandbox.Proofs.Descriptor.Expressible
import WasiSandbox.Proofs.Tree.Octets

/-! # A transfer at an offset is a transfer with a detour

What is read or written at an offset could be read or written at the cursor as well: by a seek to the offset,
the transfer there, and a seek back to where the cursor has been, which is made in any case (`detour`). The
answer is the same, an error included, and so is all that is left behind (`ReachedWithin.detours`). The way
back is always open, since a cursor is never where no seek leads. A descriptor that appends is no such case
for writing: it would write at the end. -/

namespace WasiSandbox

namespace Host

variable {h : Host} {fd offset : Nat} {d : Descriptor} {path : String} {n : NodeId} {content : Bytes}
  {α : Type}

/-- Moves the cursor to the place, makes the transfer, and moves the cursor back, whatever has come of the
transfer. -/
def detour (fd place back : Nat) (transfer : HostM α) : HostM α := do
  let _ ← seek fd place .set
  tryFinally transfer (seek fd back .set)

/-- What a transfer at the offset comes to on a handle that is open on a file: what a detour does. -/
structure Detours (h : Host) (fd : Nat) (d : Descriptor) (offset : Nat) : Prop where
  read : ∀ length, readAt fd length offset h = detour fd offset d.cursor (read fd length) h
  write : d.flags.appends = false → ∀ data,
    writeAt fd data offset h = detour fd offset d.cursor (write fd data) h

/-! ### The way there and back -/

section Detour

variable (hget : h.table.get? fd = some d) (htarget : d.target = .file path n)
  (hn : h.tree.alive n = true) (hoffset : offset ≤ maxOffset) (hback : d.cursor ≤ maxOffset)
  {transfer : HostM α}

include hget htarget hn hoffset hback

/-- A transfer that leaves the cursor somewhere and has perhaps changed the tree. -/
theorem detour_ok {a : α} {t : FileTree} {place : Nat} (ht : t.alive n = true)
    (hrun : transfer (h.withCursor fd d offset) =
      .ok a { (h.withCursor fd d offset).withCursor fd { d with cursor := offset } place with tree := t }) :
    detour fd offset d.cursor transfer h = .ok a { h with tree := t } := by
  -- Where the transfer has left the cursor does not matter.
  rw [withCursor_withCursor] at hrun
  have hreturn : seek fd d.cursor .set { h.withCursor fd d place with tree := t } =
      .ok d.cursor { h with tree := t } := by
    have hget' : ({ h.withCursor fd d place with tree := t } : Host).table.get? fd =
        some { d with cursor := place } := h.get?_withCursor fd d place
    rw [seek_set_run hget' htarget ht hback]
    have hself := withCursor_self hget
    rw [← withCursor_withCursor h fd d place] at hself
    exact congrArg (fun h' : Host => EStateM.Result.ok d.cursor { h' with tree := t }) hself
  unfold detour
  rw [run_bind_ok (seek_set_run hget htarget hn hoffset)]
  exact run_finally_ok hrun hreturn

/-- A transfer that fails without a trace. -/
theorem detour_error {e : SysFailure}
    (hrun : transfer (h.withCursor fd d offset) = .error e (h.withCursor fd d offset)) :
    detour fd offset d.cursor transfer h = .error e h := by
  have hreturn : seek fd d.cursor .set (h.withCursor fd d offset) = .ok d.cursor h := by
    have hget' := h.get?_withCursor fd d offset
    rw [seek_set_run hget' htarget hn hback, withCursor_withCursor, withCursor_self hget]
  unfold detour
  rw [run_bind_ok (seek_set_run hget htarget hn hoffset)]
  exact run_finally_error hrun hreturn

/-- Without the right it is refused in either way. -/
theorem detour_refused {right : Rights} (hright : d.rights.contains right = false)
    (f g : Descriptor → HostM α) :
    (descriptor fd >>= fun d => requireRight d right >>= fun _ => f d) h =
      detour fd offset d.cursor (descriptor fd >>= fun d => requireRight d right >>= fun _ => g d) h := by
  have hthere := h.get?_withCursor fd d offset
  rw [permitted_error hget hright]
  exact (detour_error hget htarget hn hoffset hback (permitted_error hthere hright)).symm

end Detour

/-! ### Reading -/

theorem readAt_run (hget : h.table.get? fd = some d) (hright : d.rights.contains .fdRead = true)
    (htarget : d.target = .file path n) (hn : h.tree.alive n = true)
    (hcontent : h.tree.content? n = some content) {length : Nat}
    (hend : offset + min length (content.length - offset) < UInt64.size) :
    readAt fd length offset h = .ok ((content.drop offset).take length) h := by
  unfold readAt
  rw [permitted_run hget hright, htarget]
  exact readNode_run hn hcontent hend

/-- **A read at an offset** is a read with a detour. -/
theorem Expressible.readAt_eq (he : h.Expressible) (hget : h.table.get? fd = some d)
    (htarget : d.target = .file path n) (hn : h.tree.alive n = true) (hoffset : offset ≤ maxOffset)
    (length : Nat) : readAt fd length offset h = detour fd offset d.cursor (read fd length) h := by
  have hback := he.cursors fd d path n hget htarget
  cases hright : d.rights.contains .fdRead with
  | false => exact detour_refused hget htarget hn hoffset hback hright _ _
  | true =>
    have hget' := h.get?_withCursor fd d offset
    obtain ⟨content, hcontent, hsize⟩ := he.content hget htarget
    -- An offset and the size of a file have room for their sum.
    have hmax : 2 * maxOffset < UInt64.size := by decide
    have hend : offset + min length (content.length - offset) < UInt64.size := by omega
    have hahead : Readable (h.withCursor fd d offset) { d with cursor := offset } (content.drop offset) :=
      .file htarget hn hcontent
    have hlength : offset + min length (content.drop offset).length < UInt64.size := by
      rwa [List.length_drop]
    have hrun := read_run hget' hright hahead hlength
    rw [readAt_run hget hright htarget hn hcontent hend]
    exact (detour_ok hget htarget hn hoffset hback hn hrun).symm

/-! ### Writing -/

theorem onContent_writeAt_run (hn : h.tree.alive n = true) (hcontent : h.tree.content? n = some content)
    (offset : Nat) (data : Bytes) : onContent n (FileTree.writeAt n offset data) h =
      if offset + data.length ≤ Content.maxFileSize then
        .ok data.length { h with tree := h.tree.withContent n (Content.overwritten content offset data) }
      else .error (.reported .fbig) h := by
  obtain ⟨⟨name, old⟩, hfile, rfl⟩ := Option.map_eq_some_iff.mp hcontent
  unfold onContent
  rw [run_bind_ok (requireAlive_run hn)]
  by_cases hfit : offset + data.length ≤ Content.maxFileSize
  · have htree : onTree (FileTree.writeAt n offset data) h = .ok (some data.length)
        { h with tree := h.tree.withContent n (Content.overwritten old offset data) } := by
      rw [onTree, FileTree.writeAt_run hfile, if_pos hfit]
    rw [run_bind_ok htree, if_pos hfit]
    rfl
  · have htree : onTree (FileTree.writeAt n offset data) h = .error (.reported .fbig) h := by
      rw [onTree, FileTree.writeAt_run hfile, if_neg hfit]
      rfl
    rw [run_bind_error htree, if_neg hfit]

theorem writeAt_run (hget : h.table.get? fd = some d) (hright : d.rights.contains .fdWrite = true)
    (htarget : d.target = .file path n) (data : Bytes) :
    writeAt fd data offset h = onContent n (FileTree.writeAt n offset data) h := by
  unfold writeAt
  rw [permitted_run hget hright, htarget]

/-- A write at the cursor that would make the file too large. -/
theorem write_refused (hget : h.table.get? fd = some d) (hright : d.rights.contains .fdWrite = true)
    (htarget : d.target = .file path n) (hn : h.tree.alive n = true)
    (hcontent : h.tree.content? n = some content) (happends : d.flags.appends = false) {data : Bytes}
    (hlarge : ¬ d.cursor + data.length ≤ Content.maxFileSize) :
    write fd data h = .error (.reported .fbig) h := by
  obtain ⟨target, cursor, rights, inheriting, flags⟩ := d
  cases htarget
  have hrun := onContent_writeAt_run hn hcontent cursor data
  rw [if_neg hlarge] at hrun
  unfold write
  rw [permitted_run hget hright]
  dsimp only at happends ⊢
  rw [happends, if_neg Bool.false_ne_true, run_bind_error hrun]

/-- **A write at an offset** is a write with a detour, through a descriptor that does not append. -/
theorem Expressible.writeAt_eq (he : h.Expressible) (hget : h.table.get? fd = some d)
    (htarget : d.target = .file path n) (hn : h.tree.alive n = true) (hoffset : offset ≤ maxOffset)
    (happends : d.flags.appends = false) (data : Bytes) :
    writeAt fd data offset h = detour fd offset d.cursor (write fd data) h := by
  have hback := he.cursors fd d path n hget htarget
  cases hright : d.rights.contains .fdWrite with
  | false => exact detour_refused hget htarget hn hoffset hback hright _ _
  | true =>
    have hget' := h.get?_withCursor fd d offset
    obtain ⟨content, hcontent, -⟩ := he.content hget htarget
    rw [writeAt_run hget hright htarget, onContent_writeAt_run hn hcontent]
    by_cases hfit : offset + data.length ≤ Content.maxFileSize
    · have hwritten : ({ d with cursor := offset } : Descriptor).written content data =
          (Content.overwritten content offset data, offset + data.length) := by
        simp [Descriptor.written, happends]
      have hfit' : (({ d with cursor := offset } : Descriptor).written content data).2 ≤
          Content.maxFileSize := by rwa [hwritten]
      have hrun := write_file_run hget' hright htarget hn hcontent hfit'
      rw [hwritten] at hrun
      have halive : (h.tree.withContent n (Content.overwritten content offset data)).alive n = true := hn
      rw [if_pos hfit]
      exact (detour_ok hget htarget hn hoffset hback halive hrun).symm
    · have hrefused : write fd data (h.withCursor fd d offset) =
          .error (.reported .fbig) (h.withCursor fd d offset) :=
        write_refused hget' hright htarget hn hcontent happends hfit
      rw [if_neg hfit, detour_error hget htarget hn hoffset hback hrefused]

/-- **Transfers at an offset are transfers with a detour**, on every handle that is open on a file that is
alive, for every offset that can be expressed. -/
theorem ReachedWithin.detours (hr : h.ReachedWithin maxOffset) (hget : h.table.get? fd = some d)
    (htarget : d.target = .file path n) (hn : h.tree.alive n = true) (hoffset : offset ≤ maxOffset) :
    h.Detours fd d offset where
  read length := hr.expressible.readAt_eq hget htarget hn hoffset length
  write happends data := hr.expressible.writeAt_eq hget htarget hn hoffset happends data

/-- A handle whose cursor has moved, next to the start of its file and as far from it as a seek leads. -/
theorem moved_handle_detours :
    let h := (Host.new (FileTree.empty.run [.addFile "a" [1, 2, 3]]) []
      .silent).runShared
      [.guest (.openPath 3 "a" ⟨0⟩ .all .all ⟨0⟩), .guest (.read 4 2)]
    let d : Descriptor := ⟨.file "/a" 1, 2, .all, .all, ⟨0⟩⟩
    h.Detours 4 d 1 ∧ h.Detours 4 d maxOffset := by
  intro h d
  have hr : h.ReachedWithin maxOffset := (ReachedWithin.start _ _ _ (by decide)).runShared (by decide)
  have hget : h.table.get? 4 = some d := by decide +kernel
  have hn : h.tree.alive 1 = true := by decide +kernel
  exact ⟨hr.detours hget rfl hn (by decide), hr.detours hget rfl hn le_rfl⟩

end Host

end WasiSandbox
