import WasiSandbox.Proofs.Descriptor.Handles
import WasiSandbox.Proofs.Tree.Spared

/-! # Appends are never lost

A file that is written through descriptors that append only grows, and by all that is written. Where a writer
has sought to and what the others have written since does not matter: a write looks up the end of the file
when it is made, and leaves the cursor there. That holds in every run in which nobody comes in between by
another way (`Meddles`): by a write at an offset, a change of the flags of a descriptor on the file, a
descriptor that writes and does not append, or a cut, when the file is opened. The invariant is that every
descriptor that may write to the file appends (`AppendOnly`); a step keeps it and adds to the file what it
writes through one of them (`take_content`), so a run adds what its steps do (`runShared_appends`). -/

namespace WasiSandbox

/-- The file that a target stands for. -/
def DescriptorTarget.file? : DescriptorTarget → Option NodeId
  | .file _ n => some n
  | _ => none

theorem DescriptorTarget.file?_eq_some_iff {target : DescriptorTarget} {n : NodeId} :
    target.file? = some n ↔ ∃ path, target = .file path n := by
  cases target <;> simp [file?]

/-- The operation is one of those that can change a file that is there. -/
def DescriptorOperation.mayWrite : DescriptorOperation → Bool
  | .openPath .. | .write .. | .writeAt .. => true
  | _ => false

namespace Host

variable {h h' : Host} {fd k : Nat} {d : Descriptor} {path : String} {n : NodeId}
  {content data : Bytes} {step : HostStep} {op : DescriptorOperation} {α : Type} {x : HostM α}

/-- The file that the handle is open on. -/
def fileAt? (h : Host) (fd : Nat) : Option NodeId := (h.table.get? fd).bind (·.target.file?)

theorem fileAt?_eq_some_iff :
    h.fileAt? fd = some n ↔ ∃ d path, h.table.get? fd = some d ∧ d.target = .file path n := by
  unfold fileAt?
  rw [Option.bind_eq_some_iff]
  simp only [DescriptorTarget.file?_eq_some_iff, exists_and_left]

/-! ### Runs in which a file is only appended to -/

/-- Every descriptor that may write to the file appends. -/
def AppendOnly (h : Host) (n : NodeId) : Prop :=
  ∀ {fd d path}, h.table.get? fd = some d → d.target = .file path n →
    d.rights.contains .fdWrite = true → d.flags.appends = true

/-- It is so if it is so for every slot of the table. -/
theorem appendOnly_of_slots (hslots : ∀ slot ∈ h.table.slots, ∀ d ∈ slot, d.target.file? = some n →
    d.rights.contains .fdWrite = true → d.flags.appends = true) : h.AppendOnly n := by
  intro fd d path hget htarget hright
  have hslot : some d ∈ h.table.slots := List.mem_of_getElem? (DescriptorTable.get?_eq_some_iff.mp hget)
  have hfile : d.target.file? = some n := by rw [htarget, DescriptorTarget.file?]
  exact hslots (some d) hslot d rfl hfile hright

/-- The step may change the file in another way than by appending to it: it cuts the file or opens it to be
written elsewhere than at the end, writes to it at an offset or directly, or sets the flags of a descriptor
on it. -/
def Meddles (n : NodeId) (h : Host) : HostStep → Prop
  | .guest (.openPath dirfd path flags rights _ descriptorFlags) =>
    ∃ full, resolve dirfd path h = .ok full h ∧ h.tree.lookup full = some n ∧
      (flags.truncates = true ∨ rights.contains .fdWrite = true ∧ descriptorFlags.appends = false)
  | .guest (.writeAt fd _ _) => h.fileAt? fd = some n
  | .guest (.setFlags fd _) => h.fileAt? fd = some n
  | .guest _ => False
  | .owner change => change.val.WritesTo n
  | .other _ => False

/-- One of the steps is such a one. -/
def MeddlesAmong (h : Host) (n : NodeId) (steps : List HostStep) : Prop :=
  Among take (Meddles n) h steps

/-- What the step writes through a handle on the file, if it succeeds. -/
def appended (h : Host) (n : NodeId) : HostStep → List Bytes
  | .guest (.write fd data) =>
    if h.fileAt? fd = some n ∧ succeeds (write fd data h) = true then [data] else []
  | _ => []

/-- What the steps write through handles on the file where they succeed, in the order in which they do. -/
def appendedAmong (h : Host) (n : NodeId) : List HostStep → List Bytes
  | [] => []
  | step :: steps => h.appended n step ++ (h.take step).appendedAmong n steps

/-! ### What a step adds to the file -/

/-- A write through a descriptor that appends. -/
theorem write_append_ok (honly : h.AppendOnly n) (hcontent : h.tree.content? n = some content)
    (hfd : h.fileAt? fd = some n) (hok : write fd data h = .ok k h') :
    k = data.length ∧ h'.tree.content? n = some (content ++ data) ∧
      ∃ d, h'.table.get? fd = some d ∧ d.cursor = (content ++ data).length := by
  obtain ⟨d, path, hget, htarget⟩ := fileAt?_eq_some_iff.mp hfd
  obtain ⟨d', hget', hright, -⟩ := permitted_ok hok
  cases hget.symm.trans hget'
  have happends : d.flags.appends = true := honly hget htarget hright
  obtain ⟨hk, -, old, hold, -, rfl⟩ := write_file_ok hget htarget hok
  cases hold.symm.trans hcontent
  have hwritten : d.written content data = (content ++ data, content.length + data.length) := by
    unfold Descriptor.written
    rw [if_pos happends]
  rw [hwritten]
  refine ⟨hk, FileTree.content?_withContent hcontent _, { d with cursor := (content ++ data).length },
    ?_, rfl⟩
  rw [DescriptorTable.get?_put, if_pos rfl, List.length_append]

/-- A write through a handle on something else leaves the file as it is. -/
theorem write_elsewhere (hcontent : h.tree.content? n = some content) (hfd : h.fileAt? fd ≠ some n)
    (data : Bytes) : (left (write fd data h)).tree.content? n = some content := by
  cases hrun : write fd data h with
  | error e h' =>
    rw [atomic_write fd data h e h' hrun]
    exact hcontent
  | ok k h' =>
    obtain ⟨-, hw⟩ := write_ok hrun
    cases hw with
    | stream htree =>
      rw [← hcontent]
      exact congrArg (·.content? n) htree
    | file hget htarget =>
      refine (FileTree.content?_withContent_of_ne ?_ h.tree _).trans hcontent
      rintro rfl
      exact hfd (fileAt?_eq_some_iff.mpr ⟨_, _, hget, htarget⟩)

/-- So does a write at an offset. -/
theorem writeAt_elsewhere (hcontent : h.tree.content? n = some content) (hfd : h.fileAt? fd ≠ some n)
    (data : Bytes) (offset : Nat) :
    (left (writeAt fd data offset h)).tree.content? n = some content := by
  cases hrun : writeAt fd data offset h with
  | error e h' =>
    rw [atomic_writeAt fd data offset h e h' hrun]
    exact hcontent
  | ok k h' =>
    obtain ⟨d, path, m, old, hget, htarget, -, -, rfl⟩ := writeAt_ok hrun
    refine (FileTree.content?_withContent_of_ne ?_ h.tree _).trans hcontent
    rintro rfl
    exact hfd (fileAt?_eq_some_iff.mpr ⟨d, path, hget, htarget⟩)

theorem write_content (honly : h.AppendOnly n) (hcontent : h.tree.content? n = some content)
    (fd : Nat) (data : Bytes) : (left (write fd data h)).tree.content? n =
      some (content ++ (h.appended n (.guest (.write fd data))).flatten) := by
  by_cases hfd : h.fileAt? fd = some n
  · cases hrun : write fd data h with
    | error e h' =>
      obtain rfl : h' = h := atomic_write fd data h e h' hrun
      have hnothing : h'.appended n (.guest (.write fd data)) = [] := by simp [appended, hrun, succeeds]
      rw [hnothing, List.flatten_nil, List.append_nil]
      exact hcontent
    | ok k h' =>
      have hdata : h.appended n (.guest (.write fd data)) = [data] := by
        simp [appended, hfd, hrun, succeeds]
      rw [hdata, List.flatten_singleton]
      exact (write_append_ok honly hcontent hfd hrun).2.1
  · have hnothing : h.appended n (.guest (.write fd data)) = [] := by simp [appended, hfd]
    rw [hnothing, List.flatten_nil, List.append_nil]
    exact write_elsewhere hcontent hfd data

/-- The operation leaves the content of the file as it is, whatever comes of it. -/
def Spares (n : NodeId) (x : HostM α) : Prop :=
  ∀ content, Maintains (fun h : Host => h.tree.content? n = some content) x

theorem spares_of_keeps (hx : Keeps (·.tree) x) : Spares n x := fun content =>
  hx.maintains (p := fun t => t.content? n = some content)

theorem spares_onTree {op : TreeM α} (hop : FileTree.Spares n op) : Spares n (onTree op) := by
  intro content h hcontent
  have htree := hop content h.tree hcontent
  unfold onTree
  cases hrun : op h.tree with
  | ok a t =>
    rw [hrun] at htree
    exact htree
  | error e t =>
    rw [hrun] at htree
    exact htree

theorem spares_nodeToOpen (full : String) (flags : OpenFlags) : Spares n (nodeToOpen full flags) := by
  refine fun content => maintains_bind (spares_of_keeps keeps_get content) fun h => ?_
  cases h.tree.lookup full with
  | none =>
    dsimp only
    split
    · exact spares_onTree (FileTree.spares_createAt full (.file [])) content
    · exact spares_of_keeps (keeps_throw _) content
  | some m => exact spares_of_keeps (keeps_ite (keeps_throw _) (keeps_pure m)) content

/-- Opening a node cuts no other file, and this one only if the flags say so. -/
theorem spares_targetToOpen {m : NodeId} {flags : OpenFlags} (hm : m = n → flags.truncates = false)
    (full : String) : Spares n (targetToOpen full m flags) := by
  refine fun content => maintains_bind (spares_of_keeps keeps_get content) fun h => ?_
  have hkeeps : ∀ target, Keeps (·.tree) (pure target : HostM DescriptorTarget) := keeps_pure
  split
  · exact spares_of_keeps (keeps_ite (keeps_throw _) (hkeeps _)) content
  · split
    · exact spares_of_keeps (keeps_throw _) content
    · split
      · next htruncates =>
        have hne : m ≠ n := fun heq => by simp [hm heq] at htruncates
        exact maintains_bind (spares_onTree (FileTree.spares_updateContent hne _) content) fun _ =>
          spares_of_keeps (hkeeps _) content
      · exact spares_of_keeps (hkeeps _) content

/-- To give out a handle changes no node. -/
theorem keeps_tree_insert (d : Descriptor) : Keeps (·.tree) (insert d) := by
  refine (atomic_insert d).keeps fun h fd h' hok => ?_
  obtain ⟨-, rfl⟩ := insert_ok hok
  rfl

/-- Opening a path leaves the file as it is unless it cuts it. -/
theorem openPath_content {dirfd : Nat} {flags : OpenFlags} {rights inheriting : Rights}
    {descriptorFlags : DescriptorFlags} (hcontent : h.tree.content? n = some content)
    (hkept : ∀ full, resolve dirfd path h = .ok full h → h.tree.lookup full = some n →
      flags.truncates = false) :
    (left (openPath dirfd path flags rights inheriting descriptorFlags h)).tree.content? n =
      some content := by
  unfold openPath
  cases hresolve : resolve dirfd path h with
  | error e h₁ =>
    obtain rfl : h₁ = h := (keeps_resolve dirfd path).error hresolve
    rw [run_bind_error hresolve]
    exact hcontent
  | ok full h₁ =>
    obtain rfl : h₁ = h := (keeps_resolve dirfd path).ok hresolve
    rw [run_bind_ok hresolve]
    have hspared := spares_nodeToOpen full flags content h₁ hcontent
    cases hnode : nodeToOpen full flags h₁ with
    | error e h₂ =>
      rw [hnode] at hspared
      rw [run_bind_error hnode]
      exact hspared
    | ok m h₂ =>
      rw [hnode] at hspared
      rw [run_bind_ok hnode]
      -- A node that has just been made is not the file.
      have hm : m = n → flags.truncates = false := by
        rintro rfl
        rcases nodeToOpen_ok hnode with ⟨-, hfound⟩ | ⟨-, -, hcreate, -⟩
        · exact hkept full hresolve hfound
        · have hnew := (FileTree.createAt_ok hcreate).1
          have hlt := FileTree.content?_lt hcontent
          exact absurd hnew (Nat.ne_of_lt hlt)
      have hrest : Spares n (targetToOpen full m flags >>= fun target =>
          insert ⟨target, 0, rights, inheriting, descriptorFlags⟩) := fun content =>
        maintains_bind (spares_targetToOpen hm full content) fun target =>
          spares_of_keeps (keeps_tree_insert _) content
      exact hrest content h₂ hspared

/-- Whatever else the guest does leaves the file as it is. -/
theorem spares_act (hop : op.mayWrite = false) : Spares n op.act := by
  have hkeeps : ∀ {op : DescriptorOperation}, Keeps (·.tree) op.act → Spares n op.act :=
    fun hx => spares_of_keeps hx
  cases op with
  | openPath | write | writeAt => cases hop
  | makeDirectory dirfd path =>
    exact fun content => maintains_bind (spares_of_keeps (keeps_resolve dirfd path).of_id content)
      fun full => maintains_bind (spares_onTree (FileTree.spares_createAt full .directory) content)
        fun _ => spares_of_keeps (keeps_pure _) content
  | pathFilestat dirfd path => exact hkeeps (keeps_pathFilestat dirfd path).of_id.discard
  | close fd => exact hkeeps (keeps_bind (keeps_descriptor fd).of_id fun _ _ => rfl)
  | read fd length =>
    refine hkeeps (Keeps.discard ((atomic_read fd length).keeps fun h data h' hok => ?_))
    obtain ⟨d, ahead, -, -, -, -, -, rfl⟩ := read_ok hok
    rfl
  | readAt fd length offset => exact hkeeps (keeps_readAt fd length offset).of_id.discard
  | seek fd offset whence =>
    refine hkeeps (Keeps.discard ((atomic_seek fd offset whence).keeps fun h k h' hok => ?_))
    obtain ⟨d, path, m, -, -, -, -, rfl⟩ := seek_ok hok
    rfl
  | tell fd => exact hkeeps (keeps_tell fd).of_id.discard
  | filestat fd => exact hkeeps (keeps_filestat fd).of_id.discard
  | fdstat fd => exact hkeeps (keeps_fdstat fd).of_id.discard
  | setFlags fd flags => exact hkeeps (keeps_bind (keeps_descriptor fd).of_id fun _ _ => rfl)
  | prestat fd => exact hkeeps (keeps_prestat fd).of_id.discard
  | readDirectory fd => exact hkeeps (keeps_readDirectory fd).of_id.discard
  | flush => exact hkeeps fun _ => rfl

/-- What does not meddle and is no write at the cursor leaves the file as it is. -/
theorem act_content (hcontent : h.tree.content? n = some content) (hstep : ¬ h.Meddles n (.guest op))
    (hop : ∀ fd data, op ≠ .write fd data) : (h.perform op).tree.content? n = some content := by
  cases op with
  | openPath dirfd path flags rights inheriting descriptorFlags =>
    rw [perform_openPath]
    refine openPath_content hcontent fun full hresolve hfound => ?_
    exact Bool.eq_false_iff.mpr fun htruncates => hstep ⟨full, hresolve, hfound, Or.inl htruncates⟩
  | write fd data => exact absurd rfl (hop fd data)
  | writeAt fd data offset =>
    rw [perform_writeAt]
    exact writeAt_elsewhere hcontent hstep data offset
  | _ => exact spares_act rfl content h hcontent

/-- **A step adds to the file** what it writes through a handle on it, and nothing else. -/
theorem take_content (honly : h.AppendOnly n) (hcontent : h.tree.content? n = some content)
    (hstep : ¬ h.Meddles n step) :
    (h.take step).tree.content? n = some (content ++ (h.appended n step).flatten) := by
  have hother : h.appended n step = [] → (h.take step).tree.content? n = some content →
      (h.take step).tree.content? n = some (content ++ (h.appended n step).flatten) := by
    intro hnothing hsame
    rw [hnothing, List.flatten_nil, List.append_nil, hsame]
  cases step with
  | owner change => exact hother rfl (FileTree.perform_spares hcontent hstep)
  | other act =>
    obtain ⟨strong, kept, heq⟩ := h.take_hold act
    exact hother rfl (by rw [heq]; exact hcontent)
  | guest op =>
    by_cases hop : ∃ fd data, op = .write fd data
    · obtain ⟨fd, data, rfl⟩ := hop
      show (h.perform (.write fd data)).tree.content? n = _
      rw [perform_write]
      exact write_content honly hcontent fd data
    · have hne : ∀ fd data, op ≠ .write fd data := fun fd data heq => hop ⟨fd, data, heq⟩
      refine hother ?_ (act_content hcontent hstep hne)
      cases op with
      | write fd data => exact absurd rfl (hne fd data)
      | _ => rfl

/-! ### Descriptors that append -/

/-- **A step keeps it up** that every descriptor that may write to the file appends. -/
theorem AppendOnly.take (honly : h.AppendOnly n) (ht : h.tree.WellFormed)
    (hcontent : h.tree.content? n = some content) (hstep : ¬ h.Meddles n step) :
    (h.take step).AppendOnly n := by
  intro fd d path hget htarget hright
  have hturns := h.take_turns fd step
  rw [hget] at hturns
  generalize hslot : h.table.get? fd = slot at hturns
  cases hturns with
  | kept => exact honly hslot htarget hright
  | moved =>
    have happends := honly hslot htarget hright
    exact happends
  | flagged => exact absurd (fileAt?_eq_some_iff.mpr ⟨_, path, hslot, htarget⟩) hstep
  | @given dirfd path' flags rights inheriting descriptorFlags target h' hok =>
    obtain ⟨full, target', m, kind, hresolve, hget', hnode, -, -, hbefore⟩ := openPath_ok ht hok
    have htake : h.take (.guest (.openPath dirfd path' flags rights inheriting descriptorFlags)) = h' := by
      rw [take, perform_openPath, hok]
      rfl
    rw [htake, hget'] at hget
    cases hget
    cases htarget
    cases hnode
    -- It stands for the file only if that was at the path before.
    rcases hbefore with hfound | ⟨-, -, hnew⟩
    · by_contra happends
      exact hstep ⟨_, hresolve, hfound, Or.inr ⟨hright, Bool.eq_false_iff.mpr happends⟩⟩
    · have hlt := FileTree.content?_lt hcontent
      exact absurd hnew (Nat.ne_of_lt hlt)

/-! ### Whole runs -/

/-- The file has this content, and what is written through a handle on it comes behind that. -/
structure Appends (h : Host) (n : NodeId) (content : Bytes) : Prop where
  holds : h.tree.content? n = some content
  /-- A write that succeeds adds its data, and leaves the cursor at the end of the file. -/
  written : ∀ {fd data k h'}, h.fileAt? fd = some n → write fd data h = .ok k h' →
    k = data.length ∧ h'.tree.content? n = some (content ++ data) ∧
      ∃ d, h'.table.get? fd = some d ∧ d.cursor = (content ++ data).length
  /-- A write that fails leaves everything as it is. -/
  refused : ∀ {fd data e h'}, write fd data h = .error e h' → h' = h
  /-- What the rights allow and the largest size leaves room for can be written. -/
  room : ∀ {fd d path data}, h.table.get? fd = some d → d.target = .file path n →
    d.rights.contains .fdWrite = true → h.tree.alive n = true →
    (content ++ data).length ≤ Content.maxFileSize → ∃ h', write fd data h = .ok data.length h'

theorem AppendOnly.appends (honly : h.AppendOnly n) (hcontent : h.tree.content? n = some content) :
    h.Appends n content where
  holds := hcontent
  written := write_append_ok honly hcontent
  refused hfail := atomic_write _ _ _ _ _ hfail
  room {fd d path data} hget htarget hright hn hroom := by
    have happends : d.flags.appends = true := honly hget htarget hright
    have hfit : (d.written content data).2 ≤ Content.maxFileSize := by
      unfold Descriptor.written
      rw [if_pos happends]
      simpa using hroom
    exact ⟨_, write_file_run hget hright htarget hn hcontent hfit⟩

theorem AppendOnly.runShared (honly : h.AppendOnly n) (ht : h.tree.WellFormed)
    (hcontent : h.tree.content? n = some content) {steps : List HostStep}
    (hsteps : ¬ h.MeddlesAmong n steps) : (h.runShared steps).AppendOnly n ∧
      (h.runShared steps).tree.content? n = some (content ++ (h.appendedAmong n steps).flatten) := by
  induction steps generalizing h content with
  | nil =>
    rw [appendedAmong, List.flatten_nil, List.append_nil]
    exact ⟨honly, hcontent⟩
  | cons step steps ih =>
    obtain ⟨hstep, hrest⟩ := not_or.mp fun hor => hsteps (among_cons.mpr hor)
    have hcontent' := take_content honly hcontent hstep
    obtain ⟨honly', hfinal⟩ := ih (honly.take ht hcontent hstep) (wellFormed_take ht step) hcontent' hrest
    rw [appendedAmong, List.flatten_append, ← List.append_assoc]
    exact ⟨honly', hfinal⟩

/-- **Appends are never lost.** Whatever guest and owner have done before, and whatever they do then short of
meddling: if every descriptor that may write to a file appends, the file holds what it held, and behind that
all that is written through its handles, in the order in which it is. -/
theorem runShared_appends (treeOps : List TreeOperation) (stdin : Bytes) (surroundings : Surroundings)
    (past steps : List HostStep)
    (hcontent : ((Host.new (FileTree.empty.run treeOps) stdin surroundings).runShared past).tree.content? n =
      some content)
    (honly : ((Host.new (FileTree.empty.run treeOps) stdin surroundings).runShared past).AppendOnly n)
    (hsteps : ¬ ((Host.new (FileTree.empty.run treeOps) stdin surroundings).runShared past).MeddlesAmong
      n steps) :
    let h := (Host.new (FileTree.empty.run treeOps) stdin surroundings).runShared past
    (h.runShared steps).Appends n (content ++ (h.appendedAmong n steps).flatten) := by
  intro h
  have hpast : h.tree.WellFormed := ((counted_new treeOps stdin surroundings).runShared past).wellFormed
  obtain ⟨honly', hcontent'⟩ := honly.runShared hpast hcontent hsteps
  exact honly'.appends hcontent'

/-- Two writers on one file that seek in between, a reader, and a writer on another file. -/
theorem two_writers_append :
    let start := Host.new (FileTree.empty.run [.addFile "a" [1], .addFile "b" []]) []
      .silent
    let past : List HostStep := [.guest (.openPath 3 "a" ⟨0⟩ .fdWrite .all ⟨1⟩),
      .guest (.openPath 3 "a" ⟨0⟩ .all .all ⟨1⟩), .guest (.openPath 3 "b" ⟨0⟩ .all .all ⟨0⟩)]
    let steps : List HostStep := [.guest (.write 4 [2, 3]), .guest (.seek 4 0 .set), .guest (.read 5 2),
      .guest (.write 5 [4]), .guest (.write 6 [9]), .guest (.write 4 [5])]
    (((start.runShared past).runShared steps).Appends 1
      ([1] ++ ((start.runShared past).appendedAmong 1 steps).flatten)) ∧
      (start.runShared past).appendedAmong 1 steps = [[2, 3], [4], [5]] := by
  intro start past steps
  have hcontent : (start.runShared past).tree.content? 1 = some [1] := by decide +kernel
  have honly : (start.runShared past).AppendOnly 1 := appendOnly_of_slots (by decide +kernel)
  have hsteps : ¬ (start.runShared past).MeddlesAmong 1 steps := by
    simp [steps, MeddlesAmong, among_cons, not_among_nil, Meddles]
  exact ⟨runShared_appends _ [] _ past steps hcontent honly hsteps, by decide +kernel⟩

end Host

end WasiSandbox
