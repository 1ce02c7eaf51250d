import WasiSandbox.Proofs.Descriptor.Change

/-! # What operations on descriptors never answer

Two failures say nothing about the arguments of an operation. `badf` says that a handle is not open, or
that nothing is behind it any more; a defect says that a number does not fit its word. The first does
not come from a handle whose node is alive (`Served`), the second not from a host whose sizes
and cursors are in their bounds (`Fits`). For both at once, `avoids_act` goes through the operations:
each avoids the failures of any set in which `badf` is the only one that is reported. -/

namespace WasiSandbox

/-- The handle that the operation works on. -/
def DescriptorOperation.handle? : DescriptorOperation → Option Nat
  | openPath fd .. | makeDirectory fd _ | pathFilestat fd _ | close fd | read fd _ | readAt fd ..
  | write fd _ | writeAt fd .. | seek fd .. | tell fd | filestat fd | fdstat fd | setFlags fd _
  | prestat fd | readDirectory fd => some fd
  | flush => none

namespace Host

/-- The handle is open, on a node that is alive. -/
def Served (h : Host) (fd : Nat) : Prop := ∃ d path n kind, h.table.get? fd = some d ∧
  d.target.node? = some (path, n, kind) ∧ h.tree.alive n = true

/-- What the host counts with is in its bounds. -/
structure Fits (h : Host) : Prop where
  tree : h.tree.WellFormed
  /-- There is one count for each node. -/
  counts : h.tree.strong.length = h.tree.nodes.length
  files : ∀ {n content}, h.tree.alive n = true → h.tree.content? n = some content →
    content.length ≤ Content.maxFileSize
  stdin : h.table.stdin.length < UInt64.size
  inInput : ∀ fd d, h.table.get? fd = some d → d.target = .stdin → d.cursor ≤ h.table.stdin.length
  inFile : ∀ fd d path n, h.table.get? fd = some d → d.target = .file path n → d.cursor ≤ maxOffset

theorem Served.node? {h : Host} {fd : Nat} {d : Descriptor} (hs : h.Served fd)
    (hget : h.table.get? fd = some d) :
    ∃ path n kind, d.target.node? = some (path, n, kind) ∧ h.tree.alive n = true := by
  obtain ⟨d', path, n, kind, hget', hnode, hn⟩ := hs
  cases hget.symm.trans hget'
  exact ⟨path, n, kind, hnode, hn⟩

theorem Served.ne_stream {h : Host} {fd : Nat} {d : Descriptor} (hs : h.Served fd)
    (hget : h.table.get? fd = some d) : d.target.node? ≠ none := by
  obtain ⟨path, n, kind, hnode, -⟩ := hs.node? hget
  rw [hnode]
  exact Option.some_ne_none _

theorem Served.alive {h : Host} {fd : Nat} {d : Descriptor} {path : String} {n : NodeId}
    {kind : NodeKind} (hs : h.Served fd) (hget : h.table.get? fd = some d)
    (hnode : d.target.node? = some (path, n, kind)) : h.tree.alive n = true := by
  obtain ⟨path', n', kind', hnode', hn⟩ := hs.node? hget
  cases hnode.symm.trans hnode'
  exact hn

variable {h h' : Host} {fd : Nat} {d : Descriptor} {n : NodeId} {offset length : Nat} {data : Bytes}
  {α β : Type}

theorem readContent_succeeds {content : Bytes} (hsize : content.length < UInt64.size)
    (offset length : Nat) : ∃ data, readContent content offset length = .ok data := by
  unfold readContent
  obtain ⟨r, hr⟩ := Content.readInto_succeeds hsize offset
    (List.replicate (min length (content.length - offset)) 0)
  exact ⟨_, by dsimp only; rw [hr]; rfl⟩

theorem readInput_succeeds {input : Bytes} (hsize : input.length < UInt64.size)
    (cursor length : Nat) : ∃ data, readInput input cursor length = .ok data := by
  rw [readInput_run, Checked.add_eq (by omega)]
  exact ⟨_, rfl⟩

section

variable {bad : SysFailure → Prop}

/-! ### Single steps -/

theorem avoids_ofChecked {c : Checked α} (hc : ∀ d, bad (.defect d) → ∃ a, c = .ok a) (h : Host) :
    Avoids bad (ofChecked c) h := by
  cases c with
  | ok a => exact avoids_pure a h
  | error d =>
    refine avoids_throw (fun hd => ?_) h
    obtain ⟨a, ha⟩ := hc d hd
    cases ha

theorem avoids_setDescriptor (fd : Nat) (d : Descriptor) (h : Host) :
    Avoids bad (setDescriptor fd d) h := avoids_modify _ h

theorem avoids_descriptor {f : Descriptor → HostM α} (hs : bad (.reported .badf) → h.Served fd)
    (hf : ∀ d, h.table.get? fd = some d → Avoids bad (f d) h) :
    Avoids bad (descriptor fd >>= f) h := by
  refine Avoids.look ?_ (keeps_descriptor fd) fun d hd => hf d (descriptor_ok hd).1
  refine avoids_get_bind ?_
  cases hget : h.table.get? fd with
  | some d => exact avoids_pure d h
  | none =>
    refine avoids_throw (fun hbadf => ?_) h
    obtain ⟨d, path, n, kind, hsome, -⟩ := hs hbadf
    cases hget.symm.trans hsome

variable (hbad : ∀ e, bad (.reported e) → e = .badf)

include hbad

theorem avoids_fail {e : Errno} (he : e ≠ .badf) (h : Host) : Avoids bad (fail e : HostM α) h :=
  avoids_throw (fun hbadf => he (hbad e hbadf)) h

theorem avoids_requireRight (d : Descriptor) (right : Rights) (h : Host) :
    Avoids bad (requireRight d right) h :=
  avoids_ite (fun _ => avoids_pure () h) fun _ => avoids_fail hbad (by decide) h

/-- No error of the tree is taken for `badf`. -/
theorem avoids_onTree {op : TreeM α} (hop : Avoids Failure.IsDefect op h.tree) :
    Avoids bad (onTree op) h := by
  intro e h' hfail
  obtain ⟨e', t, ht, rfl, -⟩ := onTree_error hfail
  cases e' with
  | defect d => exact absurd trivial (hop _ _ ht)
  | reported e' =>
    intro hbadf
    cases e' <;> cases hbad _ hbadf

theorem avoids_fail_bind {e : Errno} (he : e ≠ .badf) (f : α → HostM β) (h : Host) :
    Avoids bad ((fail e : HostM α) >>= f) h :=
  avoids_throw_bind (fun hbadf => he (hbad e hbadf)) f h

omit hbad in
theorem avoids_requireAlive (hn : bad (.reported .badf) → h.tree.alive n = true) :
    Avoids bad (requireAlive n) h :=
  avoids_get_bind (avoids_ite (fun _ => avoids_pure () h) fun hgone =>
    avoids_throw (fun hbadf => hgone (hn hbadf)) h)

theorem avoids_onContent {op : TreeM (Option α)} (hop : ∀ t, Avoids Failure.IsDefect op t)
    (hn : bad (.reported .badf) → h.tree.alive n = true) : Avoids bad (onContent n op) h := by
  refine (avoids_requireAlive hn).look (keeps_requireAlive n) fun _ _ =>
    (avoids_onTree hbad (hop h.tree)).bind fun a h' _ => ?_
  split
  · exact avoids_pure _ h'
  · exact avoids_fail hbad (by decide) h'

/-! ### Reading -/

theorem avoids_readNode (hn : bad (.reported .badf) → h.tree.alive n = true)
    (hfit : ∀ d, bad (.defect d) → h.Fits) : Avoids bad (readNode n offset length) h := by
  refine (avoids_requireAlive hn).look (keeps_requireAlive n) fun _ hok => avoids_get_bind ?_
  cases hcontent : h.tree.content? n with
  | none => exact avoids_fail hbad (by decide) h
  | some content =>
    refine avoids_ofChecked (fun d hd => readContent_succeeds ?_ _ _) h
    have hle := (hfit d hd).files (requireAlive_ok hok).1 hcontent
    exact Nat.lt_of_le_of_lt hle (by decide)

theorem avoids_read (hs : bad (.reported .badf) → h.Served fd)
    (hfit : ∀ d, bad (.defect d) → h.Fits) (length : Nat) : Avoids bad (read fd length) h := by
  refine avoids_descriptor hs fun d hget =>
    (avoids_requireRight hbad d _ h).look (keeps_requireRight d _) fun _ _ => ?_
  dsimp only
  have hmove : ∀ data : Bytes, (∀ e, bad (.defect e) → d.cursor + data.length < UInt64.size) →
      Avoids bad (do
        let cursor ← ofChecked (Checked.add 64 d.cursor data.length)
        setDescriptor fd { d with cursor := cursor }
        return data) h := fun data hroom =>
    (avoids_ofChecked (fun e he => ⟨_, Checked.add_eq (hroom e he)⟩) h).bind fun cursor h' _ =>
      (avoids_setDescriptor fd _ h').bind fun _ h'' _ => avoids_pure data h''
  obtain ⟨target, cursor, rights, inheriting, flags⟩ := d
  cases target with
  | stdin =>
    refine avoids_get_bind ((avoids_ofChecked (fun e he => ?_) h).look (keeps_ofChecked _)
      fun data hok => hmove data fun e he => ?_)
    · exact readInput_succeeds (hfit e he).stdin _ _
    · have hcursor := (hfit e he).inInput fd _ hget rfl
      have hstdin := (hfit e he).stdin
      have hdata := congrArg List.length (readInput_ok (ofChecked_ok hok).1)
      rw [List.length_take, List.length_drop] at hdata
      dsimp only at hcursor hdata ⊢
      omega
  | stdout | stderr =>
    exact avoids_throw_bind (fun hbadf => (hs hbadf).ne_stream hget rfl) _ h
  | directory => exact avoids_fail_bind hbad (by decide) _ h
  | file path n =>
    refine (avoids_readNode hbad (fun hbadf => (hs hbadf).alive hget rfl) hfit).look
      (keeps_readNode _ _ _) fun data hok => hmove data fun e he => ?_
    -- Beyond the end of the file nothing is read, but the cursor may be there from a seek.
    obtain ⟨-, hn, content, hcontent, hdata⟩ := readNode_ok hok
    have hcursor := (hfit e he).inFile fd _ path n hget rfl
    have hsize := (hfit e he).files hn hcontent
    have hlen := congrArg List.length hdata
    rw [List.length_take, List.length_drop] at hlen
    have hmax : maxOffset + Content.maxFileSize < UInt64.size := by decide
    dsimp only at hcursor hlen ⊢
    omega

theorem avoids_readAt (hs : bad (.reported .badf) → h.Served fd)
    (hfit : ∀ d, bad (.defect d) → h.Fits) (length offset : Nat) :
    Avoids bad (readAt fd length offset) h := by
  refine avoids_descriptor hs fun d hget =>
    (avoids_requireRight hbad d _ h).look (keeps_requireRight d _) fun _ _ => ?_
  obtain ⟨target, cursor, rights, inheriting, flags⟩ := d
  cases target with
  | stdin | stdout | stderr | directory => exact avoids_fail hbad (by decide) h
  | file path n => exact avoids_readNode hbad (fun hbadf => (hs hbadf).alive hget rfl) hfit

/-! ### Writing and seeking -/

theorem avoids_write (hs : bad (.reported .badf) → h.Served fd) (data : Bytes) :
    Avoids bad (write fd data) h := by
  refine avoids_descriptor hs fun d hget =>
    (avoids_requireRight hbad d _ h).look (keeps_requireRight d _) fun _ _ => ?_
  obtain ⟨target, cursor, rights, inheriting, flags⟩ := d
  cases target with
  | stdin => exact avoids_throw_bind (fun hbadf => (hs hbadf).ne_stream hget rfl) _ h
  | stdout | stderr => exact avoids_of_ok rfl
  | directory => exact avoids_fail_bind hbad (by decide) _ h
  | file path n =>
    have hn : bad (.reported .badf) → h.tree.alive n = true := fun hbadf =>
      (hs hbadf).alive hget rfl
    dsimp only
    refine avoids_ite (fun _ => ?_) fun _ => ?_
    · exact (avoids_onContent hbad (FileTree.append_avoids n data) hn).bind fun length h' _ =>
        (avoids_setDescriptor fd _ h').bind fun _ h'' _ => avoids_pure _ h''
    · refine (avoids_onContent hbad (FileTree.writeAt_avoids n cursor data) hn).bind
        fun k h' hok => ?_
      exact (avoids_ofChecked (fun _ _ => ⟨_, writeAt_end hok⟩) h').bind fun stop h₁ _ =>
        (avoids_setDescriptor fd _ h₁).bind fun _ h₂ _ => avoids_pure _ h₂

theorem avoids_writeAt (hs : bad (.reported .badf) → h.Served fd) (data : Bytes) (offset : Nat) :
    Avoids bad (writeAt fd data offset) h := by
  refine avoids_descriptor hs fun d hget =>
    (avoids_requireRight hbad d _ h).look (keeps_requireRight d _) fun _ _ => ?_
  obtain ⟨target, cursor, rights, inheriting, flags⟩ := d
  cases target with
  | stdin | stdout | stderr | directory => exact avoids_fail hbad (by decide) h
  | file path n =>
    exact avoids_onContent hbad (FileTree.writeAt_avoids n offset data) fun hbadf =>
      (hs hbadf).alive hget rfl

theorem avoids_seek (hs : bad (.reported .badf) → h.Served fd) (offset : Int) (whence : Whence) :
    Avoids bad (seek fd offset whence) h := by
  refine avoids_descriptor hs fun d hget => ?_
  obtain ⟨target, cursor, rights, inheriting, flags⟩ := d
  cases target with
  | stdin | stdout | stderr | directory => exact avoids_fail_bind hbad (by decide) _ h
  | file path n =>
    refine (avoids_requireAlive fun hbadf => (hs hbadf).alive hget rfl).look
      (keeps_requireAlive n) fun _ _ => avoids_get_bind ((avoids_pure _ h).bind
        fun size h' _ => ?_)
    -- Whatever the offset counts from, there is such a place in the file or there is none.
    cases whence
    all_goals
      dsimp only
      split
      · exact avoids_fail hbad (by decide) h'
      · exact (avoids_setDescriptor fd _ h').bind fun _ h'' _ => avoids_pure _ h''

theorem avoids_tell (hs : bad (.reported .badf) → h.Served fd) : Avoids bad (tell fd) h := by
  refine avoids_descriptor hs fun d hget => ?_
  split
  · exact avoids_pure _ h
  · exact avoids_fail hbad (by decide) h
  · exact avoids_fail hbad (by decide) h

/-! ### Attributes -/

omit hbad in
theorem avoids_filestat (hs : bad (.reported .badf) → h.Served fd) : Avoids bad (filestat fd) h := by
  refine avoids_descriptor hs fun d hget => ?_
  have hsize : ∀ path n kind, d.target.node? = some (path, n, kind) → Avoids bad (do
      requireAlive n
      let size ← pure ((← get).tree.size n)
      return (⟨d.target.filetype, size⟩ : Filestat)) h := fun path n kind hnode =>
    (avoids_requireAlive fun hbadf => (hs hbadf).alive hget hnode).look
      (keeps_requireAlive n) fun _ _ => avoids_get_bind (avoids_pure _ h)
  obtain ⟨target, cursor, rights, inheriting, flags⟩ := d
  cases target with
  | stdin | stdout | stderr => exact avoids_pure _ h
  | directory path n | file path n => exact hsize path n _ rfl

theorem avoids_resolve (hs : bad (.reported .badf) → h.Served fd) (path : String) :
    Avoids bad (resolve fd path) h := by
  refine avoids_descriptor hs fun d _ => ?_
  split
  · exact avoids_ite (fun _ => avoids_fail hbad (by decide) h) fun _ =>
      avoids_ite (fun _ => avoids_pure _ h) fun _ =>
      avoids_ite (fun _ => avoids_pure _ h) fun _ => avoids_pure _ h
  · exact avoids_fail hbad (by decide) h

theorem avoids_pathFilestat (hs : bad (.reported .badf) → h.Served fd) (path : String) :
    Avoids bad (pathFilestat fd path) h := by
  refine (avoids_resolve hbad hs path).look (keeps_resolve fd path) fun full _ => avoids_get_bind ?_
  dsimp only
  split
  · exact avoids_pure _ h
  · exact avoids_fail hbad (by decide) h

omit hbad in
theorem avoids_fdstat (hs : bad (.reported .badf) → h.Served fd) : Avoids bad (fdstat fd) h :=
  avoids_descriptor hs fun _ _ => avoids_pure _ h

omit hbad in
theorem avoids_setFlags (hs : bad (.reported .badf) → h.Served fd) (flags : DescriptorFlags) :
    Avoids bad (setFlags fd flags) h :=
  avoids_descriptor hs fun _ _ => avoids_setDescriptor _ _ h

omit hbad in
/-- Only what was open from the start has a path to tell. -/
theorem avoids_prestat (hs : bad (.reported .badf) → h.Served fd)
    (hopen : bad (.reported .badf) →
      ∃ d path n, h.table.get? fd = some d ∧ d.target = .directory path n true) :
    Avoids bad (prestat fd) h := by
  refine avoids_descriptor hs fun d hget => ?_
  split
  · exact avoids_pure _ h
  · next hother =>
    refine avoids_throw (fun hbadf => ?_) h
    obtain ⟨d', path, n, hget', htarget⟩ := hopen hbadf
    cases hget.symm.trans hget'
    exact hother path n htarget

theorem avoids_readDirectory (hs : bad (.reported .badf) → h.Served fd) :
    Avoids bad (readDirectory fd) h := by
  refine avoids_descriptor hs fun d hget => ?_
  obtain ⟨target, cursor, rights, inheriting, flags⟩ := d
  cases target with
  | stdin | stdout | stderr | file => exact avoids_fail hbad (by decide) h
  | directory path n preopen =>
    exact (avoids_requireAlive fun hbadf => (hs hbadf).alive hget rfl).look
      (keeps_requireAlive n) fun _ _ => avoids_get_bind (avoids_ite (fun _ => avoids_pure _ h)
        fun _ => avoids_fail hbad (by decide) h)

/-! ### Opening and closing -/

omit hbad in
theorem avoids_close (hs : bad (.reported .badf) → h.Served fd) : Avoids bad (close fd) h :=
  avoids_descriptor hs fun _ _ => avoids_modify _ h

theorem avoids_makeDirectory (hs : bad (.reported .badf) → h.Served fd) (path : String) :
    Avoids bad (makeDirectory fd path) h :=
  (avoids_resolve hbad hs path).bind fun full _ _ =>
    (avoids_onTree hbad (FileTree.createAt_avoids full _ _)).bind fun _ h' _ => avoids_pure _ h'

theorem avoids_nodeToOpen (full : String) (flags : OpenFlags) (h : Host) :
    Avoids bad (nodeToOpen full flags) h := by
  refine avoids_get_bind ?_
  split
  · exact avoids_ite (fun _ => avoids_fail hbad (by decide) h) fun _ => avoids_pure _ h
  · exact avoids_ite (fun _ => avoids_onTree hbad (FileTree.createAt_avoids full _ _)) fun _ =>
      avoids_fail hbad (by decide) h

theorem avoids_targetToOpen (full : String) (n : NodeId) (flags : OpenFlags) (h : Host) :
    Avoids bad (targetToOpen full n flags) h := by
  refine avoids_get_bind (avoids_ite (fun _ => ?_) fun _ =>
    avoids_ite (fun _ => avoids_fail hbad (by decide) h) fun _ => ?_)
  · exact avoids_ite (fun _ => avoids_fail hbad (by decide) h) fun _ => avoids_pure _ h
  · exact avoids_ite (fun _ => (avoids_onTree hbad (FileTree.setLength_avoids n 0 _)).bind
      fun _ h' _ => avoids_pure _ h') fun _ => avoids_pure _ h

omit hbad in
theorem avoids_insert (hroom : ∀ e, bad (.defect e) → h.table.lowestFree < UInt32.size)
    (d : Descriptor) : Avoids bad (insert d) h := by
  refine avoids_get_bind (avoids_ite (fun hfull => ?_) fun _ => ?_)
  · refine avoids_throw (fun he => ?_) h
    exact absurd (hroom _ he) (Nat.not_lt.mpr hfull)
  · exact (avoids_setDescriptor _ d h).bind fun _ h' _ => avoids_pure _ h'

section Views

variable {τ : Type} {view : Host → τ} (hview : ∀ h t, view { h with tree := t } = view h)

include hview

omit hbad in
/-- An operation on the tree keeps what does not show the tree. -/
theorem keeps_onTree (op : TreeM α) : Keeps view (onTree op) := by
  intro h
  unfold onTree
  split <;> exact hview h _

omit hbad in
theorem keeps_nodeToOpen (full : String) (flags : OpenFlags) : Keeps view (nodeToOpen full flags) := by
  refine keeps_bind keeps_get fun h => ?_
  split
  · exact keeps_ite (keeps_fail _).of_id (keeps_pure _)
  · exact keeps_ite (keeps_onTree hview _) (keeps_fail _).of_id

omit hbad in
theorem keeps_targetToOpen (full : String) (n : NodeId) (flags : OpenFlags) :
    Keeps view (targetToOpen full n flags) :=
  keeps_bind keeps_get fun _ => keeps_ite (keeps_ite (keeps_fail _).of_id (keeps_pure _))
    (keeps_ite (keeps_fail _).of_id (keeps_ite
      (keeps_bind (keeps_onTree hview _) fun _ => keeps_pure _) (keeps_pure _)))

end Views

theorem avoids_openPath (hs : bad (.reported .badf) → h.Served fd)
    (hroom : ∀ e, bad (.defect e) → h.table.lowestFree < UInt32.size) (path : String)
    (flags : OpenFlags) (rights inheriting : Rights) (descriptorFlags : DescriptorFlags) :
    Avoids bad (openPath fd path flags rights inheriting descriptorFlags) h := by
  refine (avoids_resolve hbad hs path).look (keeps_resolve fd path) fun full _ => ?_
  refine (avoids_nodeToOpen hbad full flags h).bind fun n h₁ hnode => ?_
  refine (avoids_targetToOpen hbad full n flags h₁).bind fun target h₂ htarget => ?_
  have htable : h₂.table = h.table :=
    ((keeps_targetToOpen (fun _ _ => rfl) full n flags).ok htarget).trans
      ((keeps_nodeToOpen (fun _ _ => rfl) full flags).ok hnode)
  exact avoids_insert (by rwa [htable]) _

/-! ### All operations -/

/-- **What an operation does not answer**: `badf` as long as its handle is served, and a defect as long
as the host is in its bounds and has a handle to give out. Only `prestat` answers `badf` on a handle
that is served, on all but the directories that were open from the start. -/
theorem avoids_act (op : DescriptorOperation)
    (hs : bad (.reported .badf) → ∀ fd, op.handle? = some fd → h.Served fd ∧ (op = .prestat fd →
      ∃ d path n, h.table.get? fd = some d ∧ d.target = .directory path n true))
    (hfit : ∀ d, bad (.defect d) → h.Fits ∧ h.table.lowestFree < UInt32.size) :
    Avoids bad op.act h := by
  have hserved : bad (.reported .badf) → ∀ fd, op.handle? = some fd → h.Served fd :=
    fun hbadf fd hfd => (hs hbadf fd hfd).1
  have hfits : ∀ d, bad (.defect d) → h.Fits := fun d hd => (hfit d hd).1
  cases op with
  | openPath dirfd path flags rights inheriting descriptorFlags =>
    exact (avoids_openPath hbad (fun hbadf => hserved hbadf _ rfl) (fun d hd => (hfit d hd).2)
      path flags rights inheriting descriptorFlags).discard
  | makeDirectory dirfd path =>
    exact avoids_makeDirectory hbad (fun hbadf => hserved hbadf _ rfl) path
  | pathFilestat dirfd path =>
    exact (avoids_pathFilestat hbad (fun hbadf => hserved hbadf _ rfl) path).discard
  | close fd => exact avoids_close fun hbadf => hserved hbadf _ rfl
  | read fd length =>
    exact (avoids_read hbad (fun hbadf => hserved hbadf _ rfl) hfits length).discard
  | readAt fd length offset =>
    exact (avoids_readAt hbad (fun hbadf => hserved hbadf _ rfl) hfits length offset).discard
  | write fd data => exact (avoids_write hbad (fun hbadf => hserved hbadf _ rfl) data).discard
  | writeAt fd data offset =>
    exact (avoids_writeAt hbad (fun hbadf => hserved hbadf _ rfl) data offset).discard
  | seek fd offset whence =>
    exact (avoids_seek hbad (fun hbadf => hserved hbadf _ rfl) offset whence).discard
  | tell fd => exact (avoids_tell hbad fun hbadf => hserved hbadf _ rfl).discard
  | filestat fd => exact (avoids_filestat fun hbadf => hserved hbadf _ rfl).discard
  | fdstat fd => exact (avoids_fdstat fun hbadf => hserved hbadf _ rfl).discard
  | setFlags fd flags => exact avoids_setFlags (fun hbadf => hserved hbadf _ rfl) flags
  | prestat fd =>
    exact (avoids_prestat (fun hbadf => hserved hbadf _ rfl) fun hbadf => (hs hbadf fd rfl).2 rfl).discard
  | readDirectory fd => exact (avoids_readDirectory hbad fun hbadf => hserved hbadf _ rfl).discard
  | flush => exact avoids_modify _ h

end

end Host

end WasiSandbox
