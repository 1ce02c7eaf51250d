import WasiSandbox.Proofs.Descriptor.Appends
import WasiSandbox.Proofs.Descriptor.Opening

/-! # The size of a file is the one that it was left with

A write leaves a file as long as it has reached, or as the file was before if that is more, an append as
long as the file and the data together, a cut as long as it says. What size an operation leaves a file with
can so be told before it is run (`Host.resized?`, `FileTree.resized?`), through whichever handle or by
whatever path the file is reached; and everything else leaves the size as it is (`Host.perform_size`,
`FileTree.perform_size`). After all that guest and owner have done, the size is the last one that the file
was left with (`Resizes.hasSize`). -/

namespace WasiSandbox

/-! ### What the owner of the tree does -/

namespace FileTree

variable {t : FileTree} {n : NodeId} {content : Bytes}

/-- The size that the operation leaves the file with, if it writes to it. -/
def resized? (t : FileTree) (n : NodeId) : TreeOperation → Option Nat
  | .writeAt k offset data =>
    if k = n ∧ offset + data.length ≤ Content.maxFileSize then some (max (t.size n) (offset + data.length))
    else none
  | .append k data =>
    if k = n ∧ t.size n + data.length ≤ Content.maxFileSize then some (t.size n + data.length) else none
  | .setLength k length => if k = n ∧ length ≤ Content.maxFileSize then some length else none
  | _ => none

/-- The file has a content of this size. -/
def HasSize (t : FileTree) (n : NodeId) (size : Nat) : Prop :=
  ∃ content, t.content? n = some content ∧ content.length = size

theorem HasSize.size_eq {size : Nat} (h : t.HasSize n size) : t.size n = size := by
  obtain ⟨content, hcontent, rfl⟩ := h
  exact size_eq_length hcontent

/-- An operation that is refused, or gives the file another content of this size. -/
theorem hasSize_ite {α : Type} {fits : Prop} [Decidable fits] {content' : Bytes} {size : Nat} (a : α)
    (e : Failure FsError) (hcontent : t.content? n = some content) (hsize : content'.length = size) :
    (left (if fits then EStateM.Result.ok a (t.withContent n content') else .error e t)).HasSize n
      ((if n = n ∧ fits then some size else none).getD (t.size n)) := by
  by_cases hfits : fits
  · simp only [hfits, and_self, if_true, Option.getD_some]
    exact ⟨content', content?_withContent hcontent content', hsize⟩
  · simp only [hfits, and_false, if_false, Option.getD_none]
    exact ⟨content, hcontent, (size_eq_length hcontent).symm⟩

/-- **What the owner does** leaves the file with the size that it sets, and otherwise with the one that it
had. -/
theorem perform_size (hcontent : t.content? n = some content) (op : TreeOperation) :
    (t.perform op).HasSize n ((t.resized? n op).getD (t.size n)) := by
  have hsize := size_eq_length hcontent
  by_cases hwrites : op.WritesTo n
  · obtain ⟨⟨name, old⟩, hfile, rfl⟩ := Option.map_eq_some_iff.mp hcontent
    cases op with
    | writeAt k offset data =>
      obtain rfl : k = n := hwrites
      show (left (writeAt k offset data t)).HasSize k _
      rw [writeAt_run hfile]
      exact hasSize_ite _ _ hcontent (by rw [Content.length_overwritten, hsize])
    | append k data =>
      obtain rfl : k = n := hwrites
      show (left (append k data t)).HasSize k _
      rw [append_run hfile, ← hsize]
      exact hasSize_ite _ _ hcontent (by rw [List.length_append, hsize])
    | setLength k length =>
      obtain rfl : k = n := hwrites
      show (left (setLength k length t)).HasSize k _
      rw [setLength_run hfile]
      exact hasSize_ite _ _ hcontent (Content.length_resize ..)
    | _ => exact hwrites.elim
  · have hnone : t.resized? n op = none := by
      cases op with
      | writeAt | append | setLength => exact if_neg fun h => hwrites h.1
      | _ => rfl
    rw [hnone]
    exact ⟨content, perform_spares hcontent hwrites, hsize.symm⟩

end FileTree

/-! ### What the guest does -/

/-- The size of a file after a write through the descriptor that has succeeded. -/
def Descriptor.sizeWritten (d : Descriptor) (size length : Nat) : Nat :=
  if d.flags.appends then size + length else max size (d.cursor + length)

theorem Descriptor.length_written (d : Descriptor) (old data : Bytes) :
    (d.written old data).1.length = d.sizeWritten old.length data.length := by
  unfold written sizeWritten
  split
  · exact List.length_append
  · exact Content.length_overwritten ..

namespace Host

open FileTree (HasSize)

variable {h : Host} {fd dirfd : Nat} {path : String} {n : NodeId} {content : Bytes} {flags : OpenFlags}
  {rights inheriting : Rights} {descriptorFlags : DescriptorFlags}

/-- The node that is at the path, relative to the open directory. -/
def nodeAt? (h : Host) (dirfd : Nat) (path : String) : Option NodeId :=
  match resolve dirfd path h with
  | .ok full _ => h.tree.lookup full
  | .error _ _ => none

theorem nodeAt?_eq {full : String} (hresolve : resolve dirfd path h = .ok full h) :
    h.nodeAt? dirfd path = h.tree.lookup full := by
  rw [nodeAt?, hresolve]

/-- The size that the operation leaves the file with, if it writes to the file or cuts it: a write that
succeeds through a handle on it, or a path to it that is opened to be emptied. -/
def resized? (h : Host) (n : NodeId) : DescriptorOperation → Option Nat
  | .write fd data =>
    if h.fileAt? fd = some n ∧ succeeds (write fd data h) = true then
      (h.table.get? fd).map fun d => d.sizeWritten (h.tree.size n) data.length
    else none
  | .writeAt fd data offset =>
    if h.fileAt? fd = some n ∧ succeeds (writeAt fd data offset h) = true then
      some (max (h.tree.size n) (offset + data.length))
    else none
  | .openPath dirfd path flags _ _ _ =>
    if h.nodeAt? dirfd path = some n ∧ flags.truncates = true ∧ h.openError? dirfd path flags = none then
      some 0
    else none
  | _ => none

/-- The sizes that the file has been left with on the way from one host to another, in their order. -/
inductive Resizes (n : NodeId) (start : Host) : List Nat → Host → Prop where
  | start : Resizes n start [] start
  | guest {sizes : List Nat} {h : Host} (op : DescriptorOperation) : Resizes n start sizes h →
      Resizes n start (sizes ++ (h.resized? n op).toList) (h.perform op)
  | owner {sizes : List Nat} {h : Host} (op : TreeOperation) : Resizes n start sizes h →
      Resizes n start (sizes ++ (h.tree.resized? n op).toList) { h with tree := h.tree.perform op }
  | besides {sizes : List Nat} {h : Host} (journal : Journal) (surroundings : Surroundings) :
      Resizes n start sizes h →
      Resizes n start sizes { h with journal := journal, surroundings := surroundings }

/-! ### Operation by operation -/

/-- A transfer that leaves no trace when it fails, and the file with this size when it succeeds. -/
theorem hasSize_transfer {x : HostM Nat} {size : Nat} (hx : Atomic x)
    (hcontent : h.tree.content? n = some content)
    (hok : ∀ k h', x h = .ok k h' → h'.tree.HasSize n size) :
    (left (x h)).tree.HasSize n (if succeeds (x h) = true then size else h.tree.size n) := by
  cases hrun : x h with
  | ok k h' =>
    simp only [succeeds, if_true]
    exact hok k h' hrun
  | error e h' =>
    simp only [succeeds, Bool.false_eq_true, if_false]
    obtain rfl : h' = h := hx h e h' hrun
    exact ⟨content, hcontent, (FileTree.size_eq_length hcontent).symm⟩

theorem write_size (hcontent : h.tree.content? n = some content) (fd : Nat) (data : Bytes) :
    (left (write fd data h)).tree.HasSize n ((h.resized? n (.write fd data)).getD (h.tree.size n)) := by
  have hsize := FileTree.size_eq_length hcontent
  by_cases hfd : h.fileAt? fd = some n
  · obtain ⟨d, path, hget, htarget⟩ := fileAt?_eq_some_iff.mp hfd
    have hset : (h.resized? n (.write fd data)).getD (h.tree.size n) =
        if succeeds (write fd data h) = true then d.sizeWritten (h.tree.size n) data.length
        else h.tree.size n := by
      by_cases hok : succeeds (write fd data h) = true <;> simp [resized?, hfd, hget, hok]
    rw [hset]
    refine hasSize_transfer (atomic_write fd data) hcontent fun k h' hrun => ?_
    obtain ⟨-, -, old, hold, -, rfl⟩ := write_file_ok hget htarget hrun
    obtain rfl : old = content := Option.some.inj (hold.symm.trans hcontent)
    rw [hsize, ← d.length_written]
    exact ⟨_, FileTree.content?_withContent hcontent _, rfl⟩
  · have hnone : h.resized? n (.write fd data) = none := by simp [resized?, hfd]
    rw [hnone]
    exact ⟨content, write_elsewhere hcontent hfd data, hsize.symm⟩

theorem writeAt_size (hcontent : h.tree.content? n = some content) (fd : Nat) (data : Bytes)
    (offset : Nat) : (left (writeAt fd data offset h)).tree.HasSize n
      ((h.resized? n (.writeAt fd data offset)).getD (h.tree.size n)) := by
  have hsize := FileTree.size_eq_length hcontent
  by_cases hfd : h.fileAt? fd = some n
  · have hset : (h.resized? n (.writeAt fd data offset)).getD (h.tree.size n) =
        if succeeds (writeAt fd data offset h) = true then max (h.tree.size n) (offset + data.length)
        else h.tree.size n := by
      by_cases hok : succeeds (writeAt fd data offset h) = true <;> simp [resized?, hfd, hok]
    rw [hset]
    refine hasSize_transfer (atomic_writeAt fd data offset) hcontent fun k h' hrun => ?_
    obtain ⟨d, path, m, old, hget, htarget, hold, -, rfl⟩ := writeAt_ok hrun
    rw [fileAt?_eq_some_iff.mpr ⟨d, path, hget, htarget⟩] at hfd
    obtain rfl : m = n := Option.some.inj hfd
    obtain rfl : old = content := Option.some.inj (hold.symm.trans hcontent)
    rw [hsize, ← Content.length_overwritten]
    exact ⟨_, FileTree.content?_withContent hcontent _, rfl⟩
  · have hnone : h.resized? n (.writeAt fd data offset) = none := by simp [resized?, hfd]
    rw [hnone]
    exact ⟨content, writeAt_elsewhere hcontent hfd data offset, hsize.symm⟩

/-- A path to the file that is opened to be emptied empties it just if the table has nothing against it. -/
theorem openPath_cut (ht : h.tree.WellFormed) (hcontent : h.tree.content? n = some content)
    (hnode : h.nodeAt? dirfd path = some n) (htruncates : flags.truncates = true) :
    (left (openPath dirfd path flags rights inheriting descriptorFlags h)).tree.content? n =
      some (if h.openError? dirfd path flags = none then [] else content) := by
  unfold openPath
  rcases h.resolve_byTable dirfd path flags with ⟨e, hresolve, -⟩ | ⟨full, hresolve, hspec⟩
  · rw [nodeAt?, hresolve] at hnode
    cases hnode
  rw [nodeAt?_eq hresolve] at hnode
  rw [run_bind_ok hresolve]
  rcases nodeToOpen_byTable ht full flags with ⟨e, hrun, hnone⟩ | ⟨m, t, body, hrun, hreaches, hbody, htable⟩
  · rw [run_bind_error hrun, hspec, hnone]
    exact hcontent
  rw [run_bind_ok hrun, hspec, htable]
  cases hreaches with
  | made hmissing =>
    -- A node that has just been made was at no path.
    rw [hmissing] at hnode
    cases hnode
  | found hfound =>
    obtain rfl : m = n := Option.some.inj (hfound.symm.trans hnode)
    cases hkind : body.openError? flags with
    | some e =>
      rw [run_bind_error (targetToOpen_refused full hbody hkind)]
      exact hcontent
    | none =>
      rw [run_bind_ok (targetToOpen_run full hbody hkind), if_pos htruncates]
      exact spares_of_keeps (keeps_tree_insert _) [] _ (FileTree.content?_withContent hcontent [])

theorem openPath_size (ht : h.tree.WellFormed) (hcontent : h.tree.content? n = some content) (dirfd : Nat)
    (path : String) (flags : OpenFlags) (rights inheriting : Rights) (descriptorFlags : DescriptorFlags) :
    (left (openPath dirfd path flags rights inheriting descriptorFlags h)).tree.HasSize n
      ((h.resized? n (.openPath dirfd path flags rights inheriting descriptorFlags)).getD
        (h.tree.size n)) := by
  have hsize := FileTree.size_eq_length hcontent
  by_cases hcut : h.nodeAt? dirfd path = some n ∧ flags.truncates = true
  · obtain ⟨hnode, htruncates⟩ := hcut
    refine ⟨_, openPath_cut ht hcontent hnode htruncates, ?_⟩
    by_cases herror : h.openError? dirfd path flags = none
    · simp [resized?, hnode, htruncates, herror]
    · simp [resized?, herror, hsize]
  · have hnone : h.resized? n (.openPath dirfd path flags rights inheriting descriptorFlags) = none :=
      if_neg fun hall => hcut ⟨hall.1, hall.2.1⟩
    rw [hnone]
    refine ⟨content, openPath_content hcontent fun full hresolve hfound => ?_, hsize.symm⟩
    have hnode : h.nodeAt? dirfd path = some n := (nodeAt?_eq hresolve).trans hfound
    exact Bool.eq_false_iff.mpr fun htruncates => hcut ⟨hnode, htruncates⟩

/-- **What the guest does** leaves the file with the size that it sets, and otherwise with the one that it
had. -/
theorem perform_size (ht : h.tree.WellFormed) (hcontent : h.tree.content? n = some content)
    (op : DescriptorOperation) :
    (h.perform op).tree.HasSize n ((h.resized? n op).getD (h.tree.size n)) := by
  cases op with
  | openPath dirfd path flags rights inheriting descriptorFlags =>
    rw [perform_openPath]
    exact openPath_size ht hcontent dirfd path flags rights inheriting descriptorFlags
  | write fd data =>
    rw [perform_write]
    exact write_size hcontent fd data
  | writeAt fd data offset =>
    rw [perform_writeAt]
    exact writeAt_size hcontent fd data offset
  | _ => exact ⟨content, spares_act rfl content h hcontent, (FileTree.size_eq_length hcontent).symm⟩

/-! ### From one host to another -/

/-- The last size, after one more has come perhaps. -/
theorem getLastD_concat_toList (sizes : List Nat) (size? : Option Nat) (size : Nat) :
    (sizes ++ size?.toList).getLastD size = size?.getD (sizes.getLastD size) := by
  cases size? with
  | none => simp
  | some last => simp

/-- **The size of a file is the last one that it was left with**, or the one that it had. -/
theorem Resizes.hasSize {start : Host} {sizes : List Nat} (hr : Resizes n start sizes h)
    (ht : start.tree.WellFormed) (hfile : start.tree.kind? n = some .file) :
    h.tree.WellFormed ∧ h.tree.HasSize n (sizes.getLastD (start.tree.size n)) := by
  induction hr with
  | start =>
    obtain ⟨content, hcontent⟩ := FileTree.kind?_file_iff.mp hfile
    exact ⟨ht, content, hcontent, (FileTree.size_eq_length hcontent).symm⟩
  | guest op _ ih =>
    obtain ⟨ht', hsize⟩ := ih
    obtain ⟨content, hcontent, -⟩ := id hsize
    refine ⟨(perform_changes ht' op).wellFormed ht', ?_⟩
    rw [getLastD_concat_toList, ← hsize.size_eq]
    exact perform_size ht' hcontent op
  | owner op _ ih =>
    obtain ⟨ht', hsize⟩ := ih
    obtain ⟨content, hcontent, -⟩ := id hsize
    refine ⟨ht'.perform op, ?_⟩
    rw [getLastD_concat_toList, ← hsize.size_eq]
    exact FileTree.perform_size hcontent op
  | besides _ _ _ ih => exact ih

end Host

end WasiSandbox
