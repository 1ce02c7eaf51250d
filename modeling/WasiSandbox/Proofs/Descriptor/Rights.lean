import WasiSandbox.Proofs.Descriptor.Slots

/-! # Rights for the life of a handle

Whether a handle may be read or written is settled when it is opened. The rights are looked at before
anything else is done, whatever the handle stands for, and no step changes them (`runShared_open`). So until
the handle is closed, what they do not allow is refused, and nothing changes when it is; and what they allow
goes through to the file behind the handle as long as that is alive (`Granted`, `runShared_enforces`). The
standard streams are no exception: nothing is ever read from an output stream or written to the input, not
even when it has been closed, because its handle is not given out again. -/

namespace WasiSandbox

namespace Host

variable {h : Host} {fd : Nat} {d : Descriptor} {path : String} {n : NodeId} {content : Bytes}

/-! ### What the rights refuse -/

/-- The transfers that the rights do not allow fail at the handle, and leave the host as it is. -/
structure Enforces (h : Host) (fd : Nat) (rights : Rights) (e : SysFailure) : Prop where
  read : rights.contains .fdRead = false → ∀ length, read fd length h = .error e h
  readAt : rights.contains .fdRead = false → ∀ length offset, readAt fd length offset h = .error e h
  write : rights.contains .fdWrite = false → ∀ data, write fd data h = .error e h
  writeAt : rights.contains .fdWrite = false → ∀ data offset, writeAt fd data offset h = .error e h

/-- The right is asked for first. -/
theorem enforces_of_get? (hget : h.table.get? fd = some d) :
    h.Enforces fd d.rights (.reported .notcapable) where
  read hright _ := permitted_error hget hright
  readAt hright _ _ := permitted_error hget hright
  write hright _ := permitted_error hget hright
  writeAt hright _ _ := permitted_error hget hright

/-- At a handle that is not open there is nothing to ask. -/
theorem enforces_of_closed (hget : h.table.get? fd = none) (rights : Rights) :
    h.Enforces fd rights (.reported .badf) where
  read _ _ := run_bind_error (descriptor_error hget)
  readAt _ _ _ := run_bind_error (descriptor_error hget)
  write _ _ := run_bind_error (descriptor_error hget)
  writeAt _ _ _ := run_bind_error (descriptor_error hget)

/-! ### What the rights allow -/

/-- What the rights allow goes through to the file behind the handle, which has this content. -/
structure Serves (h : Host) (fd : Nat) (d : Descriptor) (n : NodeId) (content : Bytes) : Prop where
  read : d.rights.contains .fdRead = true → ∀ {length},
    d.cursor + min length (content.length - d.cursor) < UInt64.size →
    ∃ h', read fd length h = .ok ((content.drop d.cursor).take length) h'
  readAt : d.rights.contains .fdRead = true → ∀ {length offset},
    offset + min length (content.length - offset) < UInt64.size →
    readAt fd length offset h = .ok ((content.drop offset).take length) h
  write : d.rights.contains .fdWrite = true → ∀ {data},
    (d.written content data).2 ≤ Content.maxFileSize → ∃ h', write fd data h = .ok data.length h' ∧
      h'.tree.content? n = some (d.written content data).1
  writeAt : d.rights.contains .fdWrite = true → ∀ {data offset},
    offset + data.length ≤ Content.maxFileSize → ∃ h', writeAt fd data offset h = .ok data.length h' ∧
      h'.tree.content? n = some (Content.overwritten content offset data)

theorem serves_of_alive (hget : h.table.get? fd = some d) (htarget : d.target = .file path n)
    (hn : h.tree.alive n = true) (hcontent : h.tree.content? n = some content) :
    h.Serves fd d n content where
  read hright {length} hend := by
    have hahead : h.Readable d (content.drop d.cursor) := .file htarget hn hcontent
    have hend' : d.cursor + min length (content.drop d.cursor).length < UInt64.size := by
      rwa [List.length_drop]
    exact ⟨_, read_run hget hright hahead hend'⟩
  readAt hright {length offset} hend := by
    have hread := readNode_run hn hcontent hend
    unfold readAt
    rw [permitted_run hget hright, htarget]
    exact hread
  write hright {data} hfit :=
    ⟨_, write_file_run hget hright htarget hn hcontent hfit, FileTree.content?_withContent hcontent _⟩
  writeAt hright {data offset} hfit := by
    have hwrite : onContent n (FileTree.writeAt n offset data) h = .ok data.length
        { h with tree := h.tree.withContent n (Content.overwritten content offset data) } :=
      onContent_run hn hcontent fun name => by
        rw [Content.overwrite_eq, if_pos hfit]
        rfl
    refine ⟨{ h with tree := h.tree.withContent n (Content.overwritten content offset data) }, ?_,
      FileTree.content?_withContent hcontent _⟩
    unfold writeAt
    rw [permitted_run hget hright, htarget]
    exact hwrite

/-- The handle is open with these rights: what they do not allow is refused, and what they allow goes through
to a file that is alive. -/
structure Granted (h : Host) (fd : Nat) (rights : Rights) : Prop where
  isOpen : ∃ d, h.table.get? fd = some d ∧ d.rights = rights
  refused : h.Enforces fd rights (.reported .notcapable)
  served : ∀ {d path n content}, h.table.get? fd = some d → d.target = .file path n →
    h.tree.alive n = true → h.tree.content? n = some content → h.Serves fd d n content

/-! ### Whole runs -/

/-- The rights stay what they were until the handle is closed. -/
theorem granted_runShared {steps : List HostStep} (hget : h.table.get? fd = some d)
    (hsteps : .guest (.close fd) ∉ steps) : (h.runShared steps).Granted fd d.rights := by
  obtain ⟨cursor, flags, hget'⟩ := runShared_open hget hsteps
  have hrefused := enforces_of_get? hget'
  exact ⟨⟨_, hget', rfl⟩, hrefused, serves_of_alive⟩

/-- A handle that is not given out anew has its rights or is closed. -/
theorem enforces_reserved (hget : h.table.get? fd = some d) (hfd : fd < DescriptorTable.firstHandle)
    (steps : List HostStep) : ∃ e, (h.runShared steps).Enforces fd d.rights e := by
  by_cases hclose : .guest (.close fd) ∈ steps
  · have hclosed : ¬ ((h.runShared steps).table.get? fd).isSome := by
      rw [isOpen_runShared_iff]
      exact not_or.mpr ⟨fun hopen => hopen.2 hclose, not_givenSince_of_lt hfd⟩
    exact ⟨_, enforces_of_closed (Option.not_isSome_iff_eq_none.mp hclosed) d.rights⟩
  · exact ⟨_, (granted_runShared hget hclose).refused⟩

/-- Nothing is read from the output streams, and nothing is written to the input. -/
structure OneWay (h : Host) : Prop where
  input : ∃ e, (∀ data, write 0 data h = .error e h) ∧
    ∀ data offset, writeAt 0 data offset h = .error e h
  output : ∀ fd, fd = 1 ∨ fd = 2 → ∃ e, (∀ length, read fd length h = .error e h) ∧
    ∀ length offset, readAt fd length offset h = .error e h

theorem oneWay_runShared (t : FileTree) (stdin : Bytes) (surroundings : Surroundings)
    (steps : List HostStep) : ((Host.new t stdin surroundings).runShared steps).OneWay where
  input := by
    have hget : (Host.new t stdin surroundings).table.get? 0 =
        some (.ofStream .stdin (Rights.fdRead.union .pollFdReadwrite)) := rfl
    obtain ⟨e, he⟩ := enforces_reserved hget (by decide) steps
    have hright : (Rights.fdRead.union .pollFdReadwrite).contains .fdWrite = false := by decide
    exact ⟨e, he.write hright, he.writeAt hright⟩
  output fd hfd := by
    have hget : (Host.new t stdin surroundings).table.get? fd =
        some (.ofStream (if fd = 1 then .stdout else .stderr)
          (Rights.fdWrite.union .pollFdReadwrite)) := by
      rcases hfd with rfl | rfl <;> rfl
    have hlt : fd < DescriptorTable.firstHandle := by
      unfold DescriptorTable.firstHandle
      omega
    obtain ⟨e, he⟩ := enforces_reserved hget hlt steps
    have hright : (Rights.fdWrite.union .pollFdReadwrite).contains .fdRead = false := by decide
    exact ⟨e, he.read hright, he.readAt hright⟩

/-- **Rights hold for the life of a handle.** Whatever guest and owner have done before a handle is opened,
and whatever they do then short of closing it, what the handle was not opened for is refused, and nothing
else is. The same goes for the handles that are there from the start; and no standard stream ever goes the
other way. -/
theorem runShared_enforces (treeOps : List TreeOperation) (stdin : Bytes) (surroundings : Surroundings)
    (past future : List HostStep) :
    let start := Host.new (FileTree.empty.run treeOps) stdin surroundings
    (∀ {dirfd path flags rights inheriting descriptorFlags fd h},
      openPath dirfd path flags rights inheriting descriptorFlags (start.runShared past) = .ok fd h →
        .guest (.close fd) ∉ future → (h.runShared future).Granted fd rights) ∧
      (∀ {fd d}, start.table.get? fd = some d → .guest (.close fd) ∉ future →
        (start.runShared future).Granted fd d.rights) ∧
      (start.runShared future).OneWay := by
  refine ⟨?_, granted_runShared, oneWay_runShared _ stdin surroundings future⟩
  intro dirfd path flags rights inheriting descriptorFlags fd h hok hfuture
  obtain ⟨-, target, htable⟩ := openPath_table hok
  have hget : h.table.get? fd = some ⟨target, 0, rights, inheriting, descriptorFlags⟩ := by
    rw [htable, DescriptorTable.get?_put, if_pos rfl]
  exact granted_runShared hget hfuture

/-- A file is opened to be read. Another handle on it, with more rights, and other flags do not let anything
be written through the first one, and what is written through the second one is read. -/
theorem readOnly_enforced :
    let start := Host.new (FileTree.empty.run [.addFile "a" [1]]) [] .silent
    let opened := left (openPath 3 "a" ⟨0⟩ .fdRead .all ⟨0⟩ start)
    let future : List HostStep := [.guest (.openPath 3 "a" ⟨0⟩ .all .all ⟨0⟩), .guest (.setFlags 4 ⟨1⟩),
      .guest (.write 5 [3, 4]), .owner ⟨.addFile "b" [], rfl⟩, .other (.keep "a")]
    (opened.runShared future).Granted 4 .fdRead ∧
      (∀ data, write 4 data (opened.runShared future) =
        .error (.reported .notcapable) (opened.runShared future)) ∧
      (∃ h', read 4 2 (opened.runShared future) = .ok [3, 4] h') ∧
      (start.runShared future).Granted 1 (Rights.fdWrite.union .pollFdReadwrite) ∧
      (start.runShared future).OneWay := by
  intro start opened future
  have hopen : openPath 3 "a" ⟨0⟩ .fdRead .all ⟨0⟩ (start.runShared []) = .ok 4 opened := by rfl
  obtain ⟨hopened, hreserved, honeWay⟩ := runShared_enforces [.addFile "a" [1]] [] .silent [] future
  have hgranted : (opened.runShared future).Granted 4 .fdRead := hopened hopen (by simp [future])
  have hget : (opened.runShared future).table.get? 4 =
      some ⟨.file "/a" 1, 0, .fdRead, .all, ⟨1⟩⟩ := by decide +kernel
  have halive : (opened.runShared future).tree.alive 1 = true := by decide +kernel
  have hcontent : (opened.runShared future).tree.content? 1 = some [3, 4] := by decide +kernel
  have hstdout : start.table.get? 1 =
      some (.ofStream .stdout (Rights.fdWrite.union .pollFdReadwrite)) := rfl
  exact ⟨hgranted, hgranted.refused.write (by decide),
    (hgranted.served hget rfl halive hcontent).read (by decide) (by decide),
    hreserved hstdout (by simp [future]), honeWay⟩

end Host

end WasiSandbox
