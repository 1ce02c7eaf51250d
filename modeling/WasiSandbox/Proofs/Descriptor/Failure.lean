import WasiSandbox.Descriptor.Attributes
import WasiSandbox.Descriptor.Transfer
import WasiSandbox.Proofs.Tree.Failure

/-! # Failures leave no trace

An operation on the host looks first and changes last, so a failing one has changed nothing
(`Traceless`). `openPath` is the exception: asked for a directory that is missing and told to create
what is missing, it makes a file and then fails because that is no directory (`openPath_error`). -/

namespace WasiSandbox

namespace Host

variable {h h' : Host} {fd : Nat} {e : SysFailure}

/-! ### What only looks -/

theorem keeps_fail {α : Type} (e : Errno) : Keeps id (fail e : HostM α) := keeps_throw _

theorem keeps_ofChecked {α : Type} (c : Checked α) : Keeps id (ofChecked c : HostM α) := by
  unfold ofChecked
  split
  · exact keeps_pure _
  · exact keeps_throw _

theorem keeps_descriptor (fd : Nat) : Keeps id (descriptor fd) := by
  refine keeps_bind keeps_get fun h => ?_
  split
  · exact keeps_pure _
  · exact keeps_fail _

theorem keeps_requireAlive (n : NodeId) : Keeps id (requireAlive n) :=
  keeps_bind keeps_get fun _ => keeps_ite (keeps_pure _) (keeps_fail _)

theorem keeps_requireRight (d : Descriptor) (right : Rights) : Keeps id (requireRight d right) :=
  keeps_ite (keeps_pure _) (keeps_fail _)

theorem keeps_resolve (dirfd : Nat) (path : String) : Keeps id (resolve dirfd path) := by
  refine keeps_bind (keeps_descriptor dirfd) fun d => ?_
  split
  · exact keeps_ite (keeps_fail _) (keeps_ite (keeps_pure _)
      (keeps_ite (keeps_pure _) (keeps_pure _)))
  · exact keeps_fail _

theorem keeps_readNode (n : NodeId) (offset length : Nat) : Keeps id (readNode n offset length) := by
  refine keeps_bind (keeps_requireAlive n) fun _ => keeps_bind keeps_get fun h => ?_
  split
  · exact keeps_ofChecked _
  · exact keeps_fail _

theorem keeps_readAt (fd length offset : Nat) : Keeps id (readAt fd length offset) := by
  refine keeps_bind (keeps_descriptor fd) fun d => keeps_bind (keeps_requireRight d _) fun _ => ?_
  split
  · exact keeps_readNode _ _ _
  · exact keeps_fail _
  · exact keeps_fail _

theorem keeps_tell (fd : Nat) : Keeps id (tell fd) := by
  refine keeps_bind (keeps_descriptor fd) fun d => ?_
  split
  · exact keeps_pure _
  · exact keeps_fail _
  · exact keeps_fail _

theorem keeps_filestat (fd : Nat) : Keeps id (filestat fd) := by
  refine keeps_bind (keeps_descriptor fd) fun d => ?_
  dsimp only
  have hsize : ∀ n : NodeId, Keeps id (do
      requireAlive n
      let size ← pure ((← get).tree.size n)
      return (⟨d.target.filetype, size⟩ : Filestat)) := fun n =>
    keeps_bind (keeps_requireAlive n) fun _ => keeps_bind keeps_get fun _ => keeps_pure _
  split
  · exact hsize _
  · exact hsize _
  · exact keeps_pure _

theorem keeps_pathFilestat (dirfd : Nat) (path : String) : Keeps id (pathFilestat dirfd path) := by
  refine keeps_bind (keeps_resolve dirfd path) fun full => keeps_bind keeps_get fun h => ?_
  dsimp only
  split
  · exact keeps_pure _
  · exact keeps_fail _

theorem keeps_fdstat (fd : Nat) : Keeps id (fdstat fd) :=
  keeps_bind (keeps_descriptor fd) fun _ => keeps_pure _

theorem keeps_prestat (fd : Nat) : Keeps id (prestat fd) := by
  refine keeps_bind (keeps_descriptor fd) fun d => ?_
  split
  · exact keeps_pure _
  · exact keeps_fail _

theorem keeps_readDirectory (fd : Nat) : Keeps id (readDirectory fd) := by
  refine keeps_bind (keeps_descriptor fd) fun d => ?_
  split
  · exact keeps_bind (keeps_requireAlive _) fun _ => keeps_bind keeps_get fun _ =>
      keeps_ite (keeps_pure _) (keeps_fail _)
  · exact keeps_fail _

/-! ### What changes at the end -/

theorem setDescriptor_run (fd : Nat) (d : Descriptor) (h : Host) :
    setDescriptor fd d h = .ok () { h with table := h.table.put fd d } := rfl

theorem atomic_modify (f : Host → Host) : Atomic (modify f : HostM Unit) :=
  atomic_of_ok fun h => ⟨(), f h, rfl⟩

/-- Ends with a changed descriptor. -/
theorem atomic_setDescriptor {α : Type} (fd : Nat) (d : Descriptor) (a : α) :
    Atomic (do setDescriptor fd d; pure a) :=
  atomic_of_ok fun _ => ⟨a, _, run_bind_ok (setDescriptor_run ..)⟩

theorem onTree_error {α : Type} {op : TreeM α} (hfail : onTree op h = .error e h') :
    ∃ e' t, op h.tree = .error e' t ∧ e = e'.map FsError.errno ∧ h' = { h with tree := t } := by
  unfold onTree at hfail
  split at hfail
  · cases hfail
  · next e' t ht =>
    cases hfail
    exact ⟨e', t, ht, rfl, rfl⟩

theorem onTree_ok {α : Type} {op : TreeM α} {a : α} (hop : onTree op h = .ok a h') :
    ∃ t, op h.tree = .ok a t ∧ h' = { h with tree := t } := by
  unfold onTree at hop
  split at hop
  · next a' t ht =>
    cases hop
    exact ⟨t, ht, rfl⟩
  · cases hop

theorem atomic_onTree {α : Type} {op : TreeM α} (hop : Atomic op) : Atomic (onTree op) := by
  intro h e h' hfail
  obtain ⟨e', t, ht, -, rfl⟩ := onTree_error hfail
  rw [hop _ _ _ ht]

theorem atomic_onContent {α : Type} (n : NodeId)
    (f : String → Bytes → Except (Failure FsError) (α × Bytes)) :
    Atomic (onContent n (FileTree.updateContent n f)) := by
  refine Atomic.after (keeps_requireAlive n) fun _ h e h' hfail => ?_
  rcases run_bind_eq_error hfail with htree | ⟨a, h₁, htree, hrest⟩
  · exact atomic_onTree (FileTree.atomic_updateContent n f) _ _ _ htree
  · cases a with
    | some a => cases hrest
    | none =>
      obtain ⟨t, ht, rfl⟩ := onTree_ok htree
      rw [FileTree.updateContent_none ht] at hrest
      cases hrest
      rfl

/-! ### One operation after the other -/

theorem atomic_read (fd length : Nat) : Atomic (read fd length) := by
  refine Atomic.after (keeps_descriptor fd) fun d => Atomic.after (keeps_requireRight d _) fun _ => ?_
  dsimp only
  -- Whatever has been read, the cursor moves last.
  have hmove : ∀ data : Bytes, Atomic (do
      let cursor ← ofChecked (Checked.add 64 d.cursor data.length)
      setDescriptor fd { d with cursor := cursor }
      return data) := fun data =>
    Atomic.after (keeps_ofChecked _) fun cursor => atomic_setDescriptor fd _ data
  split
  · exact Atomic.after keeps_get fun h => Atomic.after (keeps_ofChecked _) hmove
  · exact atomic_throw_bind _ _
  · exact atomic_throw_bind _ _
  · exact atomic_throw_bind _ _
  · exact Atomic.after (keeps_readNode _ _ _) hmove

/-- A cursor that a write at it has brought to its end is far from the end of its word. -/
theorem writeAt_end {n : NodeId} {offset : Nat} {data : Bytes} {k : Nat}
    (hop : onContent n (FileTree.writeAt n offset data) h = .ok k h') :
    Checked.add 64 offset data.length = .ok (offset + data.length) := by
  obtain ⟨-, h₁, -, hrest⟩ := run_bind_eq_ok hop
  obtain ⟨a, h₂, htree, hsome⟩ := run_bind_eq_ok hrest
  obtain ⟨t, ht, -⟩ := onTree_ok htree
  have hstop : offset + data.length ≤ Content.maxFileSize := by
    cases a with
    | none => cases hsome
    | some k' =>
      obtain ⟨name, content, content', -, hf, -⟩ := FileTree.updateContent_some ht
      cases hover : Content.overwrite name content offset data with
      | error e =>
        rw [hover] at hf
        cases hf
      | ok content' => exact Content.overwrite_ok hover
  unfold Checked.add
  rw [if_pos (Nat.lt_of_le_of_lt hstop (by decide))]

theorem atomic_write (fd : Nat) (data : Bytes) : Atomic (write fd data) := by
  refine Atomic.after (keeps_descriptor fd) fun d => Atomic.after (keeps_requireRight d _) fun _ => ?_
  dsimp only
  split
  · exact atomic_of_ok fun h => ⟨data.length, _, rfl⟩
  · exact atomic_of_ok fun h => ⟨data.length, _, rfl⟩
  · exact atomic_throw_bind _ _
  · exact atomic_throw_bind _ _
  · next n _ =>
    refine atomic_ite ?_ ?_
    · exact Atomic.before (atomic_onContent n _) fun _ length _ _ =>
        ⟨data.length, _, run_bind_ok (setDescriptor_run ..)⟩
    · refine Atomic.before (atomic_onContent n _) fun _ _ h' hwrite => ?_
      rw [writeAt_end hwrite]
      exact ⟨data.length, _, (run_bind_ok (a := d.cursor + data.length) rfl).trans
        (run_bind_ok (setDescriptor_run fd _ h'))⟩

theorem atomic_writeAt (fd : Nat) (data : Bytes) (offset : Nat) :
    Atomic (writeAt fd data offset) := by
  refine Atomic.after (keeps_descriptor fd) fun d => Atomic.after (keeps_requireRight d _) fun _ => ?_
  split
  · exact atomic_onContent _ _
  · exact (keeps_fail _).atomic
  · exact (keeps_fail _).atomic

theorem atomic_seek (fd : Nat) (offset : Int) (whence : Whence) :
    Atomic (seek fd offset whence) := by
  refine Atomic.after (keeps_descriptor fd) fun d => ?_
  dsimp only
  split
  · refine Atomic.after (keeps_requireAlive _) fun _ => Atomic.after keeps_get fun h =>
      Atomic.after (keeps_pure _) fun size => ?_
    split
    · exact (keeps_fail _).atomic
    · exact atomic_setDescriptor fd _ _
  · exact atomic_throw_bind _ _
  · exact atomic_throw_bind _ _

theorem atomic_setFlags (fd : Nat) (flags : DescriptorFlags) : Atomic (setFlags fd flags) :=
  Atomic.after (keeps_descriptor fd) fun _ => atomic_modify _

theorem atomic_close (fd : Nat) : Atomic (close fd) :=
  Atomic.after (keeps_descriptor fd) fun _ => atomic_modify _

theorem atomic_makeDirectory (dirfd : Nat) (path : String) : Atomic (makeDirectory dirfd path) :=
  Atomic.after (keeps_resolve dirfd path) fun full =>
    Atomic.before (atomic_onTree (FileTree.atomic_createAt full _)) fun _ _ h' _ => ⟨(), h', rfl⟩

/-! ### All at once -/

/-- No failing operation changes anything: the tree operations leave the tree as it was, and the
operations on descriptors the whole host. -/
structure Traceless (h : Host) : Prop where
  addFile : ∀ path content, FailsCleanly (FileTree.addFile path content) h.tree
  createDirectories : ∀ path, FailsCleanly (FileTree.createDirectories path) h.tree
  createDirectory : ∀ path, FailsCleanly (FileTree.createDirectory path) h.tree
  createFile : ∀ path, FailsCleanly (FileTree.createFile path) h.tree
  writeFile : ∀ n offset data, FailsCleanly (FileTree.writeAt n offset data) h.tree
  appendFile : ∀ n data, FailsCleanly (FileTree.append n data) h.tree
  setFileLength : ∀ n length, FailsCleanly (FileTree.setLength n length) h.tree
  read : ∀ fd length, FailsCleanly (read fd length) h
  write : ∀ fd data, FailsCleanly (write fd data) h
  writeAt : ∀ fd data offset, FailsCleanly (writeAt fd data offset) h
  seek : ∀ fd offset whence, FailsCleanly (seek fd offset whence) h
  setFlags : ∀ fd flags, FailsCleanly (setFlags fd flags) h
  close : ∀ fd, FailsCleanly (close fd) h
  makeDirectory : ∀ dirfd path, FailsCleanly (makeDirectory dirfd path) h

theorem traceless_of_wellFormed (ht : h.tree.WellFormed) : h.Traceless where
  addFile path content := (ht.addFile_refines path content).failsCleanly
  createDirectories path := (ht.createDirectories_refines path).failsCleanly
  createDirectory path := FileTree.atomic_createAt path _ _
  createFile path := FileTree.atomic_createAt path _ _
  writeFile n _ _ := FileTree.atomic_updateContent n _ _
  appendFile n _ := FileTree.atomic_updateContent n _ _
  setFileLength n _ := FileTree.atomic_updateContent n _ _
  read fd length := atomic_read fd length h
  write fd data := atomic_write fd data h
  writeAt fd data offset := atomic_writeAt fd data offset h
  seek fd offset whence := atomic_seek fd offset whence h
  setFlags fd flags := atomic_setFlags fd flags h
  close fd := atomic_close fd h
  makeDirectory dirfd path := atomic_makeDirectory dirfd path h

/-- **A failing operation leaves no trace** on a host whose tree has grown from the empty one, whatever
handles there are on its nodes, not even the directories that `addFile` and `createDirectories` make on
their way. -/
theorem traceless (ops : List TreeOperation) (strong : List Nat) (table : DescriptorTable)
    (journal : Journal) (surroundings : Surroundings) (kept : List NodeId) :
    Traceless ⟨(FileTree.empty.run ops).withCounts strong, table, journal, surroundings, kept⟩ :=
  traceless_of_wellFormed ((FileTree.WellFormed.empty.run ops).withCounts strong)

example : FileTree.addFile "n/a/b" [] (FileTree.empty.run [.addFile "n/a" []]) =
    .error (.reported (.notADirectory "n/a/b")) (FileTree.empty.run [.addFile "n/a" []]) := by rfl

/-! ### Opening -/

variable {full path : String} {flags : OpenFlags} {n : NodeId} {dirfd : Nat}
  {rights inheriting : Rights} {fdflags : DescriptorFlags}

theorem atomic_nodeToOpen (full : String) (flags : OpenFlags) : Atomic (nodeToOpen full flags) := by
  refine Atomic.after keeps_get fun h => ?_
  split
  · exact atomic_ite (keeps_fail _).atomic (keeps_pure _).atomic
  · exact atomic_ite (atomic_onTree (FileTree.atomic_createAt full _)) (keeps_fail _).atomic

/-- The node was there, or it is a new file. -/
theorem nodeToOpen_ok (hok : nodeToOpen full flags h = .ok n h') :
    h' = h ∧ h.tree.lookup full = some n ∨ flags.creates = true ∧ h.tree.lookup full = none ∧
      FileTree.createFile full h.tree = .ok n h'.tree ∧ h' = { h with tree := h'.tree } := by
  unfold nodeToOpen at hok
  rw [run_get_bind] at hok
  cases hlookup : h.tree.lookup full with
  | some n' =>
    rw [hlookup] at hok
    dsimp only at hok
    split at hok <;> cases hok
    exact Or.inl ⟨rfl, rfl⟩
  | none =>
    rw [hlookup] at hok
    dsimp only at hok
    split at hok
    · next hcreates =>
      obtain ⟨t, ht, rfl⟩ := onTree_ok hok
      exact Or.inr ⟨hcreates, rfl, ht, rfl⟩
    · cases hok

/-- A node is refused before anything is done to it. -/
theorem targetToOpen_error (hfail : targetToOpen full n flags h = .error e h') :
    h' = h ∧
      (h.tree.isDirectory n = false → e = .reported .notdir ∧ flags.wantsDirectory = true) := by
  unfold targetToOpen at hfail
  rw [run_get_bind] at hfail
  split at hfail
  · next hdir =>
    split at hfail <;> cases hfail
    refine ⟨rfl, fun hfile => ?_⟩
    rw [hdir] at hfile
    cases hfile
  · split at hfail
    · next hwants =>
      cases hfail
      exact ⟨rfl, fun _ => ⟨rfl, hwants⟩⟩
    · split at hfail
      · rcases run_bind_eq_error hfail with htree | ⟨a, h₁, -, hrest⟩
        · obtain ⟨e', t, ht, -, -⟩ := onTree_error htree
          obtain ⟨a, t', hok⟩ := FileTree.setLength_zero n h.tree
          rw [hok] at ht
          cases ht
        · cases hrest
      · cases hfail

/-- Handles do not run out with an error number. -/
theorem insert_error {d : Descriptor} (hfail : insert d h = .error e h') : e = .defect .overflow := by
  unfold insert at hfail
  rw [run_get_bind] at hfail
  split at hfail
  · cases hfail
    rfl
  · rw [run_bind_ok (setDescriptor_run ..)] at hfail
    cases hfail

/-- A directory was wanted and to be created, nothing was at the path, and a file is there now. -/
structure StrayFile (dirfd : Nat) (path : String) (flags : OpenFlags) (h h' : Host) : Prop where
  creates : flags.creates = true
  wantsDirectory : flags.wantsDirectory = true
  created : ∃ full n, resolve dirfd path h = .ok full h ∧ h.tree.lookup full = none ∧
    FileTree.createFile full h.tree = .ok n h'.tree
  only : h' = { h with tree := h'.tree }

namespace StrayFile

/-- What the file is. -/
theorem tree_eq (hs : StrayFile dirfd path flags h h') :
    ∃ full dir x, resolve dirfd path h = .ok full h ∧ h.tree.lookup full = none ∧
      FileTree.createFile full h.tree = .ok h.tree.nodes.length h'.tree ∧
      h'.tree = h.tree.add dir x (.file []) := by
  obtain ⟨full, n, hresolve, hnone, hcreate⟩ := hs.created
  obtain ⟨rfl, dir, x, ht⟩ := FileTree.createAt_ok hcreate
  exact ⟨full, dir, x, hresolve, hnone, hcreate, ht⟩

theorem ne (hs : StrayFile dirfd path flags h h') : h' ≠ h := by
  rintro rfl
  obtain ⟨-, dir, x, -, -, -, ht⟩ := hs.tree_eq
  have hlen := congrArg (·.nodes.length) ht
  simp [FileTree.add] at hlen

/-- **The file is made before it is refused.** -/
theorem openPath_eq (hs : StrayFile dirfd path flags h h') :
    openPath dirfd path flags rights inheriting fdflags h = .error (.reported .notdir) h' := by
  obtain ⟨full, dir, x, hresolve, hnone, hcreate, ht⟩ := hs.tree_eq
  have hnode : nodeToOpen full flags h = .ok h.tree.nodes.length h' := by
    unfold nodeToOpen
    rw [run_get_bind, hnone]
    dsimp only
    rw [if_pos hs.creates, onTree, hcreate, hs.only]
  have htarget : targetToOpen full h.tree.nodes.length flags h' = .error (.reported .notdir) h' := by
    unfold targetToOpen
    rw [run_get_bind, ht, FileTree.isDirectory_add_file, if_neg Bool.false_ne_true,
      if_pos hs.wantsDirectory]
    rfl
  unfold openPath
  rw [run_bind_ok hresolve, run_bind_ok hnode, run_bind_error htarget]

end StrayFile

/-- **A failing `openPath` changes nothing**, unless it fails with `notdir` at the empty file that it
has just made. -/
theorem openPath_error {e : Errno}
    (hfail : openPath dirfd path flags rights inheriting fdflags h = .error (.reported e) h') :
    h' = h ∨ e = .notdir ∧ StrayFile dirfd path flags h h' := by
  rcases run_bind_eq_error hfail with hresolve | ⟨full, h₁, hresolve, hrest⟩
  · exact Or.inl ((keeps_resolve dirfd path).error hresolve)
  obtain rfl : h₁ = h := (keeps_resolve dirfd path).ok hresolve
  rcases run_bind_eq_error hrest with hnode | ⟨n, h₂, hnode, hrest⟩
  · exact Or.inl (atomic_nodeToOpen full flags _ _ _ hnode)
  rcases run_bind_eq_error hrest with htarget | ⟨target, h₃, -, hinsert⟩
  · obtain ⟨rfl, hfile⟩ := targetToOpen_error htarget
    rcases nodeToOpen_ok hnode with ⟨rfl, -⟩ | ⟨hcreates, hnone, hcreate, honly⟩
    · exact Or.inl rfl
    · right
      obtain ⟨hn, dir, x, ht⟩ := FileTree.createAt_ok hcreate
      obtain ⟨he, hwants⟩ := hfile (by rw [ht, hn, FileTree.isDirectory_add_file])
      cases he
      exact ⟨rfl, hcreates, hwants, ⟨full, n, hresolve, hnone, hcreate⟩, honly⟩
  · cases insert_error hinsert

/-- **When a failing `openPath` leaves a trace**, and which. -/
theorem openPath_trace_iff {e : Errno} :
    openPath dirfd path flags rights inheriting fdflags h = .error (.reported e) h' ∧ h' ≠ h ↔
      e = .notdir ∧ StrayFile dirfd path flags h h' := by
  constructor
  · rintro ⟨hfail, hne⟩
    exact (openPath_error hfail).resolve_left hne
  · rintro ⟨rfl, hs⟩
    exact ⟨hs.openPath_eq, hs.ne⟩

/-- A host on the tree, without clocks and chance. -/
def bare (tree : FileTree) (stdin : Bytes) : Host :=
  .new tree stdin .silent

/-- Asked for the directory `x`, created if it is missing, the host makes a file of that name. -/
theorem openPath_makes_file : ∃ h', openPath 3 "x" ⟨3⟩ .all .all ⟨0⟩ (bare .empty []) =
      .error (.reported .notdir) h' ∧
    (bare .empty []).tree.contentAt "x" = none ∧ h'.tree.contentAt "x" = some [] :=
  ⟨_, rfl, by decide +kernel, by decide +kernel⟩

end Host

end WasiSandbox
