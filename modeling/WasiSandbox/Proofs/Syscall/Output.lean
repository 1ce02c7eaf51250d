import WasiSandbox.Host.Setup
import WasiSandbox.Proofs.Descriptor.Chunks
import WasiSandbox.Proofs.Output.Feeds
import WasiSandbox.Proofs.Syscall.Fault

/-! # What system calls write

A host shows two output streams, and what each of them has handed on (`Host.outputs`). Of all system calls
one writes to them, `fd_write`, and it writes what it has gathered, if the handle is one of the stream and
may be written to (`Syscall.fed_fdWrite`); all others leave them alone (`HostSetup.builtins_heed`). What
other imports do to the streams is up to them, as long as it comes down to writes and flushes
(`Import.Heeds`). -/

namespace WasiSandbox

/-! ### The output streams of a host -/

/-- The text that the entry has brought to the channel. -/
def Event.textOn (channel : Channel) : Event → Option String
  | .output c text => if c = channel then some text else none
  | _ => none

/-- What a descriptor on the stream refers to. -/
def Channel.target : Channel → DescriptorTarget
  | stdout => .stdout
  | stderr => .stderr

/-- What is written through the handle goes to the channel. -/
def DescriptorTable.writesTo (t : DescriptorTable) (fd : Nat) (channel : Channel) : Bool :=
  (t.get? fd).any fun d => d.rights.contains .fdWrite && d.target == channel.target

theorem Channel.target_injective {c c' : Channel} (h : c.target = c'.target) : c = c' := by
  cases c <;> cases c' <;> first | rfl | cases h

theorem DescriptorTable.writesTo_iff {t : DescriptorTable} {fd : Nat} {channel : Channel} :
    t.writesTo fd channel = true ↔ ∃ d, t.get? fd = some d ∧ d.rights.contains .fdWrite = true ∧
      d.target = channel.target := by
  unfold writesTo
  simp only [Option.any_eq_true, Bool.and_eq_true, beq_iff_eq]

namespace Host

variable {h h' h'' : Host} {α τ : Type} {view : Host → τ}

/-- The output stream behind the channel. -/
def stream (h : Host) : Channel → OutputStream
  | .stdout => h.table.stdout
  | .stderr => h.table.stderr

/-- What the channel was handed, in order. -/
def received (h : Host) (channel : Channel) : List String := h.journal.filterMap (Event.textOn channel)

/-- The streams, and what they have handed on. -/
def outputs (h : Host) (channel : Channel) : OutputStream × List String :=
  (h.stream channel, h.received channel)

/-- The streams of the one host were fed so, and then they are those of the other. -/
def Fed (h : Host) (feeds : Channel → List Feed) (h' : Host) : Prop := ∀ channel,
  h'.outputs channel = (((h.stream channel).feedAll (feeds channel)).2,
    h.received channel ++ ((h.stream channel).feedAll (feeds channel)).1)

theorem fed_of_outputs (heq : h'.outputs = h.outputs) : h.Fed (fun _ => []) h' := by
  intro channel
  rw [heq]
  exact Prod.ext rfl (List.append_nil _).symm

theorem Fed.trans {feeds more : Channel → List Feed} (hfed : h.Fed feeds h') (hmore : h'.Fed more h'') :
    h.Fed (fun channel => feeds channel ++ more channel) h'' := by
  intro channel
  obtain ⟨hstream, hreceived⟩ := Prod.mk.inj (hfed channel)
  rw [hmore channel, hstream, hreceived, OutputStream.feedAll_append, List.append_assoc]

/-- The streams may be fed and then left alone. -/
theorem Fed.congr {feeds : Channel → List Feed} (hfed : h.Fed feeds h') (heq : h''.outputs = h'.outputs) :
    h.Fed feeds h'' := by
  intro channel
  rw [heq, hfed channel]

/-! ### Operations of the host -/

theorem outputs_withTree (h : Host) (t : FileTree) : outputs { h with tree := t } = outputs h := by
  funext channel
  cases channel <;> rfl

theorem outputs_put (h : Host) (fd : Nat) (d : Descriptor) :
    outputs { h with table := h.table.put fd d } = outputs h := by
  funext channel
  cases channel <;> rfl

/-- What is no text on a channel does not show there. -/
theorem outputs_note (h : Host) {e : Event} (he : ∀ channel, e.textOn channel = none) :
    outputs { h with journal := h.journal ++ [e] } = outputs h := by
  have hreceived : ∀ channel, (h.journal ++ [e]).filterMap (Event.textOn channel) = h.received channel := by
    intro channel
    rw [List.filterMap_append, List.filterMap_cons_none (he channel), List.filterMap_nil,
      List.append_nil]
    rfl
  funext channel
  exact Prod.ext (by cases channel <;> rfl) (hreceived channel)

theorem keeps_outputs_setDescriptor (fd : Nat) (d : Descriptor) : Keeps outputs (setDescriptor fd d) :=
  fun h => outputs_put h fd d

theorem keeps_outputs_insert (d : Descriptor) : Keeps outputs (insert d) :=
  keeps_bind keeps_get fun _ => keeps_ite (keeps_ofChecked _).of_id
    (keeps_bind (keeps_outputs_setDescriptor _ d) fun _ => keeps_pure _)

theorem keeps_outputs_openPath (dirfd : Nat) (path : String) (flags : OpenFlags)
    (rights inheriting : Rights) (descriptorFlags : DescriptorFlags) :
    Keeps outputs (openPath dirfd path flags rights inheriting descriptorFlags) :=
  keeps_bind (keeps_resolve dirfd path).of_id fun full =>
    keeps_bind (keeps_nodeToOpen outputs_withTree full flags) fun n =>
      keeps_bind (keeps_targetToOpen outputs_withTree full n flags) fun _ => keeps_outputs_insert _

theorem keeps_outputs_close (fd : Nat) : Keeps outputs (close fd) :=
  keeps_bind (keeps_descriptor fd).of_id fun _ h => by
    funext channel
    cases channel <;> rfl

theorem keeps_outputs_makeDirectory (dirfd : Nat) (path : String) :
    Keeps outputs (makeDirectory dirfd path) :=
  keeps_bind (keeps_resolve dirfd path).of_id fun _ =>
    keeps_bind (keeps_onTree outputs_withTree _) fun _ => keeps_pure _

theorem keeps_outputs_read (fd length : Nat) : Keeps outputs (read fd length) :=
  (atomic_read fd length).keeps fun h data h' hok => by
    obtain ⟨d, ahead, -, -, -, -, -, rfl⟩ := read_ok hok
    exact outputs_put h fd _

theorem keeps_outputs_writeAt (fd : Nat) (data : Bytes) (offset : Nat) :
    Keeps outputs (writeAt fd data offset) :=
  (atomic_writeAt fd data offset).keeps fun h k h' hok => by
    obtain ⟨d, path, n, old, -, -, -, -, rfl⟩ := writeAt_ok hok
    exact outputs_withTree h _

theorem keeps_outputs_seek (fd : Nat) (offset : Int) (whence : Whence) :
    Keeps outputs (seek fd offset whence) :=
  (atomic_seek fd offset whence).keeps fun h k h' hok => by
    obtain ⟨d, path, n, -, -, -, -, rfl⟩ := seek_ok hok
    exact outputs_put h fd _

theorem keeps_outputs_setFlags (fd : Nat) (flags : DescriptorFlags) : Keeps outputs (setFlags fd flags) :=
  keeps_bind (keeps_descriptor fd).of_id fun _ => keeps_outputs_setDescriptor fd _

/-! ### Writes and flushes -/

/-- What a write through the handle feeds to the channel. -/
def feedsOf (h : Host) (fd : Nat) (data : Bytes) (channel : Channel) : List Feed :=
  if h.table.writesTo fd channel then [.octets data] else []

theorem received_handOn (h : Host) (c : Channel) (texts : List String) (table : DescriptorTable)
    (channel : Channel) : (h.handOn c texts table).received channel =
      h.received channel ++ if c = channel then texts else [] := by
  unfold received handOn
  dsimp only
  rw [List.filterMap_append, List.filterMap_map]
  congr 1
  split
  · next hc =>
    have hsome : Event.textOn channel ∘ Event.output c = some := funext fun text => by
      simp [Event.textOn, hc]
    rw [hsome, List.filterMap_some]
  · next hc =>
    have hnone : Event.textOn channel ∘ Event.output c = fun _ => none := funext fun text => by
      simp [Event.textOn, hc]
    rw [hnone, List.filterMap_none]

/-- What one stream is fed shows on its channel. -/
theorem fed_stream {feeds : Channel → List Feed} {c : Channel} {data : Bytes}
    (hfeeds : ∀ channel, feeds channel = if c = channel then [.octets data] else [])
    (hreceived : ∀ channel, h'.received channel =
      h.received channel ++ if c = channel then ((h.stream c).write data).1 else [])
    (hstream : ∀ channel, h'.stream channel =
      if c = channel then ((h.stream c).write data).2 else h.stream channel) : h.Fed feeds h' := by
  intro channel
  unfold outputs
  rw [hfeeds, hreceived, hstream]
  split
  · next hc =>
    subst hc
    simp [OutputStream.feedAll, OutputStream.feed]
  · rfl

/-- **A write** feeds the stream that it is for, whatever comes of it. -/
theorem fed_write (h : Host) (fd : Nat) (data : Bytes) :
    h.Fed (h.feedsOf fd data) (left (write fd data h)) := by
  by_cases hout : ∃ c, h.table.writesTo fd c = true
  · obtain ⟨c, hc⟩ := hout
    obtain ⟨d, hget, hright, htarget⟩ := DescriptorTable.writesTo_iff.mp hc
    have hfeeds : ∀ channel, h.feedsOf fd data channel = if c = channel then [.octets data] else [] := by
      intro channel
      unfold feedsOf
      refine if_congr ?_ rfl rfl
      rw [DescriptorTable.writesTo_iff]
      refine ⟨fun ⟨d', hget', _, htarget'⟩ => ?_, fun hc => ⟨d, hget, hright, hc ▸ htarget⟩⟩
      cases hget.symm.trans hget'
      exact Channel.target_injective (htarget.symm.trans htarget')
    cases c with
    | stdout =>
      rw [write_output_run hget hright htarget]
      exact fed_stream hfeeds (received_handOn h _ _ _) fun channel => by cases channel <;> rfl
    | stderr =>
      rw [write_error_run hget hright htarget]
      exact fed_stream hfeeds (received_handOn h _ _ _) fun channel => by cases channel <;> rfl
  · have hfeeds : h.feedsOf fd data = fun _ => [] := funext fun channel => if_neg fun hc => hout ⟨channel, hc⟩
    rw [hfeeds]
    refine fed_of_outputs ?_
    cases hw : write fd data h with
    | error e h' => exact congrArg outputs (atomic_write fd data h e h' hw)
    | ok k h' =>
      obtain ⟨d, hget, hright, hwrite⟩ := permitted_ok hw
      cases htarget : d.target with
      | stdin | directory =>
        rw [htarget] at hwrite
        cases hwrite
      | stdout => exact absurd ⟨.stdout, DescriptorTable.writesTo_iff.mpr ⟨d, hget, hright, htarget⟩⟩ hout
      | stderr => exact absurd ⟨.stderr, DescriptorTable.writesTo_iff.mpr ⟨d, hget, hright, htarget⟩⟩ hout
      | file path n =>
        obtain ⟨-, -, old, -, -, rfl⟩ := write_file_ok hget htarget hw
        funext channel
        cases channel <;> rfl

/-- A flush feeds both streams. -/
theorem fed_flush (h : Host) : h.Fed (fun _ => [.flush]) (left (flush h)) := by
  have hleft : left (flush h) =
      (h.handOn .stdout h.table.stdout.flush.1 { h.table with stdout := h.table.stdout.flush.2 }).handOn
        .stderr h.table.stderr.flush.1
        { h.table with stdout := h.table.stdout.flush.2, stderr := h.table.stderr.flush.2 } := rfl
  intro channel
  unfold outputs
  rw [hleft, received_handOn, received_handOn]
  cases channel <;> simp [OutputStream.feedAll, OutputStream.feed, stream, handOn]

end Host

/-! ### System calls -/

/-- What the import does to the output streams comes down to these writes and flushes. -/
def Import.Heeds (i : Import) (feeds : List Value → Caller → Channel → List Feed) : Prop :=
  ∀ args (c : Caller), c.host.Fed (feeds args c) (left (i.body args c)).host

namespace Syscall

variable {α β : Type} {x : SyscallM α} {f : α → SyscallM β} {c c' : Caller} {args : List Value}

/-- The output streams are left alone. -/
def LeavesOutputs (x : SyscallM α) : Prop := Keeps (fun c : Caller => c.host.outputs) x

theorem leavesOutputs_of_layout (hx : Keeps layout x) : LeavesOutputs x :=
  fun c => congrArg (fun l => l.1.outputs) (hx c)

theorem leavesOutputs_onMemory (op : MemoryM α) : LeavesOutputs (onMemory op) := by
  intro c
  unfold onMemory
  split
  · rfl
  · split <;> rfl

theorem leavesOutputs_onHost {op : HostM α} (hop : Keeps Host.outputs op) : LeavesOutputs (onHost op) := by
  intro c
  have hhost := hop c.host
  unfold onHost
  split <;> next hrun => rwa [hrun] at hhost

/-- Looking comes before. -/
theorem LeavesOutputs.after (hx : Keeps layout x) (hf : ∀ a, LeavesOutputs (f a)) :
    LeavesOutputs (x >>= f) :=
  keeps_bind (leavesOutputs_of_layout hx) hf

/-- The host does its part. -/
theorem LeavesOutputs.before {op : HostM α} (hop : Keeps Host.outputs op) (hf : ∀ a, LeavesOutputs (f a)) :
    LeavesOutputs (onHost op >>= f) :=
  keeps_bind (leavesOutputs_onHost hop) hf

theorem leavesOutputs_atWord (op : UInt32 → MemoryM α) (args : List Value) (i : Nat) :
    LeavesOutputs (do onMemory (op (← word args i))) :=
  .after (keeps_word args i) fun _ => leavesOutputs_onMemory _

theorem leavesOutputs_fail (e : Errno) : LeavesOutputs (fail e : SyscallM α) := keeps_throw _

theorem leavesOutputs_pathOpen (args : List Value) : LeavesOutputs (pathOpen args) :=
  .after (keeps_handle args 0) fun _ => .after (keeps_halfWord args 4) fun _ =>
    .after (keeps_longWord args 5) fun _ => .after (keeps_longWord args 6) fun _ =>
    .after (keeps_halfWord args 7) fun _ => .after (keeps_word args 8) fun _ =>
    .after keeps_requireMemory fun _ => .after (keeps_textAt args 2 3) fun _ =>
    .before (Host.keeps_outputs_openPath _ _ _ _ _ _) fun _ => leavesOutputs_onMemory _

theorem leavesOutputs_pathFilestatGet (args : List Value) : LeavesOutputs (pathFilestatGet args) :=
  .after (keeps_handle args 0) fun _ => .after keeps_requireMemory fun _ =>
    .after (keeps_textAt args 2 3) fun _ =>
    .before (Host.keeps_pathFilestat _ _).of_id fun stat => leavesOutputs_atWord stat.write args 4

theorem leavesOutputs_pathCreateDirectory (args : List Value) : LeavesOutputs (pathCreateDirectory args) :=
  .after (keeps_handle args 0) fun _ => .after keeps_requireMemory fun _ =>
    .after (keeps_textAt args 1 2) fun _ => leavesOutputs_onHost (Host.keeps_outputs_makeDirectory _ _)

theorem leavesOutputs_fdRead (args : List Value) : LeavesOutputs (fdRead args) :=
  .after (keeps_handle args 0) fun _ => .after keeps_requireMemory fun _ =>
    .after (keeps_buffersAt args 1 2) fun iovs =>
    .after (keeps_onMemory (Memory.keeps_requireIovecs iovs).of_id) fun _ =>
    .before (Host.keeps_outputs_read _ _) fun data =>
      leavesOutputs_of_layout (keeps_deliver args iovs data 3)

theorem leavesOutputs_fdPread (args : List Value) : LeavesOutputs (fdPread args) :=
  .after (keeps_handle args 0) fun _ => .after (keeps_longWord args 3) fun _ =>
    .after keeps_requireMemory fun _ => .after (keeps_buffersAt args 1 2) fun iovs =>
    .after (keeps_onMemory (Memory.keeps_requireIovecs iovs).of_id) fun _ =>
    .before (Host.keeps_readAt _ _ _).of_id fun data =>
      leavesOutputs_of_layout (keeps_deliver args iovs data 4)

theorem leavesOutputs_fdPwrite (args : List Value) : LeavesOutputs (fdPwrite args) :=
  .after (keeps_handle args 0) fun _ => .after (keeps_longWord args 3) fun _ =>
    .after keeps_requireMemory fun _ => .after (keeps_buffersAt args 1 2) fun iovs =>
    .after (keeps_onMemory (Memory.keeps_gather iovs).of_id) fun _ =>
    .before (Host.keeps_outputs_writeAt _ _ _) fun _ => leavesOutputs_atWord _ args 4

theorem leavesOutputs_fdSeek (args : List Value) : LeavesOutputs (fdSeek args) := by
  refine .after (keeps_handle args 0) fun _ => .after (keeps_longWord args 1) fun _ =>
    .after (keeps_word args 2) fun _ => ?_
  split
  · exact leavesOutputs_fail _
  · exact .after keeps_requireMemory fun _ =>
      .before (Host.keeps_outputs_seek _ _ _) fun _ => leavesOutputs_atWord _ args 3

theorem leavesOutputs_fdTell (args : List Value) : LeavesOutputs (fdTell args) :=
  .after (keeps_handle args 0) fun _ => .after keeps_requireMemory fun _ =>
    .before (Host.keeps_tell _).of_id fun _ => leavesOutputs_atWord _ args 1

theorem leavesOutputs_fdClose (args : List Value) : LeavesOutputs (fdClose args) :=
  .after (keeps_handle args 0) fun _ => .after keeps_requireMemory fun _ =>
    leavesOutputs_onHost (Host.keeps_outputs_close _)

theorem leavesOutputs_fdFilestatGet (args : List Value) : LeavesOutputs (fdFilestatGet args) :=
  .after (keeps_handle args 0) fun _ => .after keeps_requireMemory fun _ =>
    .before (Host.keeps_filestat _).of_id fun stat => leavesOutputs_atWord stat.write args 1

theorem leavesOutputs_fdFdstatGet (args : List Value) : LeavesOutputs (fdFdstatGet args) :=
  .after (keeps_handle args 0) fun _ => .after keeps_requireMemory fun _ =>
    .before (Host.keeps_fdstat _).of_id fun stat => leavesOutputs_atWord stat.write args 1

theorem leavesOutputs_fdFdstatSetFlags (args : List Value) : LeavesOutputs (fdFdstatSetFlags args) :=
  .after (keeps_handle args 0) fun _ => .after (keeps_halfWord args 1) fun _ =>
    .after keeps_requireMemory fun _ => leavesOutputs_onHost (Host.keeps_outputs_setFlags _ _)

theorem leavesOutputs_fdPrestatGet (args : List Value) : LeavesOutputs (fdPrestatGet args) :=
  .after (keeps_handle args 0) fun _ => .after keeps_requireMemory fun _ =>
    .before (Host.keeps_prestat _).of_id fun _ => leavesOutputs_atWord _ args 1

theorem leavesOutputs_fdPrestatDirName (args : List Value) : LeavesOutputs (fdPrestatDirName args) :=
  .after (keeps_handle args 0) fun _ => .after (keeps_word args 1) fun _ =>
    .after (keeps_word args 2) fun _ => .after keeps_requireMemory fun _ =>
    .before (Host.keeps_prestat _).of_id fun _ => keeps_ite (leavesOutputs_fail _) (leavesOutputs_onMemory _)

theorem leavesOutputs_fdReaddir (args : List Value) : LeavesOutputs (fdReaddir args) :=
  .after (keeps_handle args 0) fun _ => .after (keeps_word args 1) fun _ =>
    .after (keeps_word args 2) fun _ => .after (keeps_longWord args 3) fun _ =>
    .after keeps_requireMemory fun _ => .before (Host.keeps_readDirectory _).of_id fun _ =>
    keeps_bind (leavesOutputs_onMemory _) fun _ => leavesOutputs_atWord _ args 4

theorem leavesOutputs_randomGet (args : List Value) : LeavesOutputs (randomGet args) :=
  .after (keeps_word args 0) fun _ => .after (keeps_word args 1) fun _ =>
    .after keeps_requireMemory fun _ => .after (keeps_onMemory (Memory.keeps_requireRange _ _).of_id) fun _ =>
    .before (fun h => by funext channel; cases channel <;> rfl) fun _ =>
    keeps_bind (leavesOutputs_onMemory _) fun _ => keeps_ite (leavesOutputs_fail .io) (keeps_pure ())

theorem keeps_outputs_readClock (clock : ClockId) : Keeps Host.outputs (readClock clock) := by
  refine keeps_bind (fun h => by funext channel; cases channel <;> rfl) fun s => ?_
  split
  · exact keeps_pure _
  · exact (Host.keeps_fail _).of_id

theorem leavesOutputs_clockTimeGet (args : List Value) : LeavesOutputs (clockTimeGet args) :=
  keeps_bind (keeps_clockId args 0) fun id => LeavesOutputs.before (keeps_outputs_readClock id) fun _ =>
    .after (keeps_word args 2) fun _ => .after keeps_requireMemory fun _ => leavesOutputs_onMemory _

theorem leavesOutputs_clockResGet (args : List Value) : LeavesOutputs (clockResGet args) :=
  keeps_bind (keeps_clockId args 0) fun _ => LeavesOutputs.after (keeps_word args 1) fun _ =>
    .after keeps_requireMemory fun _ => leavesOutputs_onMemory _

/-! ### What the calls write -/

/-- The import that writes. -/
def fdWriteId : ImportId := ⟨moduleName, "fd_write"⟩

/-- The handle and the data of a write, as far as memory gives them. -/
def gathered (args : List Value) : SyscallM (Nat × Bytes) := do
  let fd ← handle args 0
  requireMemory
  let iovs ← buffersAt args 1 2
  return (fd, ← onMemory (Memory.gather iovs))

/-- What a call of `fd_write` feeds to the channel. -/
def writes (args : List Value) (c : Caller) (channel : Channel) : List Feed :=
  match gathered args c with
  | .ok (fd, data) _ => c.host.feedsOf fd data channel
  | .error _ _ => []

/-- What a system call feeds to the channel. -/
def feeds (id : ImportId) (args : List Value) (c : Caller) (channel : Channel) : List Feed :=
  if id = fdWriteId then writes args c channel else []

theorem keeps_gathered (args : List Value) : Keeps layout (gathered args) :=
  keeps_bind (keeps_handle args 0) fun _ => keeps_bind keeps_requireMemory fun _ =>
    keeps_bind (keeps_buffersAt args 1 2) fun iovs =>
    keeps_bind (keeps_onMemory (Memory.keeps_gather iovs).of_id) fun _ => keeps_pure _

theorem fdWrite_eq (args : List Value) : fdWrite args = (do
    let p ← gathered args
    let n ← onHost (Host.write p.1 p.2)
    onMemory (Memory.writeU32 (← word args 3) (.ofNat n))) := by
  unfold fdWrite gathered
  simp only [bind_assoc, pure_bind]

/-- **A call of `fd_write` feeds what it has gathered** to the stream that the handle is for, whatever
comes of it. -/
theorem fed_fdWrite (args : List Value) (c : Caller) :
    c.host.Fed (writes args c) (left (fdWrite args c)).host := by
  have hlayout := keeps_gathered args c
  rw [fdWrite_eq]
  unfold writes
  cases hrun : gathered args c with
  | error e c₁ =>
    rw [hrun] at hlayout
    rw [run_bind_error hrun]
    exact Host.fed_of_outputs (congrArg (fun l => l.1.outputs) hlayout)
  | ok p c₁ =>
    rw [hrun] at hlayout
    have hhost : c₁.host = c.host := congrArg Prod.fst hlayout
    have hrest : ∀ n, LeavesOutputs (do onMemory (Memory.writeU32 (← word args 3) (.ofNat n))) := fun n =>
      leavesOutputs_atWord _ args 3
    have hfed := Host.fed_write c₁.host p.1 p.2
    rw [run_bind_ok hrun, ← hhost]
    cases hw : Host.write p.1 p.2 c₁.host with
    | ok n h' =>
      rw [hw] at hfed
      have hon : onHost (Host.write p.1 p.2) c₁ = .ok n { c₁ with host := h' } := by
        unfold onHost
        rw [hw]
      rw [run_bind_ok hon]
      exact hfed.congr (hrest n _)
    | error e h' =>
      rw [hw] at hfed
      have hon : onHost (Host.write p.1 p.2) c₁ = .error e { c₁ with host := h' } := by
        unfold onHost
        rw [hw]
      rw [run_bind_error hon]
      exact hfed

theorem define_heeds {name : String} {params : List ValueType} {body : List Value → SyscallM Unit}
    (hname : name ≠ "fd_write") (hleaves : ∀ args, LeavesOutputs (body args)) :
    (define name params body).Heeds (feeds (define name params body).id) := by
  intro args c
  have hid : (define name params body).id ≠ fdWriteId := fun h => hname (congrArg ImportId.name h)
  have hfeeds : feeds (define name params body).id args c = fun _ => [] :=
    funext fun _ => if_neg hid
  rw [hfeeds]
  refine Host.fed_of_outputs ?_
  show (left (run body args c)).host.outputs = _
  rw [left_run]
  exact hleaves args c

theorem fdWrite_heeds (params : List ValueType) :
    (define "fd_write" params fdWrite).Heeds (feeds (define "fd_write" params fdWrite).id) := by
  intro args c
  have hfeeds : feeds (define "fd_write" params fdWrite).id args c = writes args c :=
    funext fun _ => if_pos rfl
  rw [hfeeds]
  show c.host.Fed _ (left (run fdWrite args c)).host
  rw [left_run]
  exact fed_fdWrite args c

theorem files_heed : ∀ i ∈ files.imports, i.Heeds (feeds i.id) := by
  unfold files
  simp only [List.forall_mem_cons, List.not_mem_nil, IsEmpty.forall_iff, implies_true, and_true]
  exact ⟨define_heeds (by decide) leavesOutputs_pathOpen, define_heeds (by decide) leavesOutputs_fdRead,
    define_heeds (by decide) leavesOutputs_fdPread, fdWrite_heeds _,
    define_heeds (by decide) leavesOutputs_fdPwrite,
    define_heeds (by decide) leavesOutputs_fdSeek, define_heeds (by decide) leavesOutputs_fdTell,
    define_heeds (by decide) leavesOutputs_fdClose, define_heeds (by decide) leavesOutputs_fdFilestatGet,
    define_heeds (by decide) leavesOutputs_pathFilestatGet,
    define_heeds (by decide) leavesOutputs_fdFdstatGet,
    define_heeds (by decide) leavesOutputs_fdFdstatSetFlags,
    define_heeds (by decide) leavesOutputs_fdPrestatGet,
    define_heeds (by decide) leavesOutputs_fdPrestatDirName,
    define_heeds (by decide) leavesOutputs_fdReaddir,
    define_heeds (by decide) leavesOutputs_pathCreateDirectory⟩

theorem tableCalls_heed {sizesName getName : String} (hsizes : sizesName ≠ "fd_write")
    (hget : getName ≠ "fd_write") (t : StringTable) :
    ∀ i ∈ tableCalls sizesName getName t, i.Heeds (feeds i.id) := by
  unfold tableCalls
  simp only [List.forall_mem_cons, List.not_mem_nil, IsEmpty.forall_iff, implies_true, and_true]
  exact ⟨define_heeds hsizes fun args => .after keeps_requireMemory fun _ =>
      .after (keeps_word args 0) fun _ => leavesOutputs_atWord _ args 1,
    define_heeds hget fun args => .after keeps_requireMemory fun _ =>
      .after (keeps_word args 0) fun _ => leavesOutputs_atWord _ args 1⟩

/-- An exit leaves the streams alone. -/
theorem exit_heeds {id : ImportId} (hid : id ≠ fdWriteId) {signature : Signature}
    {code : List Value → Int32} :
    (Import.mk id signature fun args => throw (.exit (code args))).Heeds (feeds id) := by
  intro args c
  have hfeeds : feeds id args c = fun _ => [] := funext fun _ => if_neg hid
  rw [hfeeds]
  exact Host.fed_of_outputs rfl

end Syscall

/-- **Every system call does to the output streams what it is said to do.** -/
theorem HostSetup.builtins_heed (s : HostSetup) :
    ∀ p ∈ s.builtins, ∀ i ∈ p.imports, i.Heeds (Syscall.feeds i.id) := by
  unfold builtins
  simp only [List.forall_mem_cons, List.not_mem_nil, IsEmpty.forall_iff, implies_true, and_true]
  refine ⟨Syscall.tableCalls_heed (by decide) (by decide) _,
    Syscall.tableCalls_heed (by decide) (by decide) _, ?_, ?_, ?_, Syscall.files_heed⟩
  · exact List.forall_mem_singleton.mpr (Syscall.define_heeds (by decide) Syscall.leavesOutputs_randomGet)
  · exact List.forall_mem_cons.mpr ⟨Syscall.define_heeds (by decide) Syscall.leavesOutputs_clockTimeGet,
      List.forall_mem_singleton.mpr (Syscall.define_heeds (by decide) Syscall.leavesOutputs_clockResGet)⟩
  · exact List.forall_mem_cons.mpr ⟨Syscall.exit_heeds (by decide), List.forall_mem_singleton.mpr
      (Syscall.define_heeds (by decide) fun _ => keeps_pure ())⟩

end WasiSandbox
