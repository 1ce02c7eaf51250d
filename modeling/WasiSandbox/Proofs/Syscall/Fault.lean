import WasiSandbox.Proofs.Descriptor.Failure
import WasiSandbox.Proofs.Memory.Records
import WasiSandbox.Syscall.Files
import WasiSandbox.Syscall.Process

/-! # What a fault leaves behind

Most calls on handles and paths look at the memory of the guest before they touch the host, and a
fault is all that they have done (`FaultsCleanly`). Five of them write an answer when the host has
changed already. They cannot fault at what they have read or checked before; if they fault then, it
is because the slot that the guest has given them for the answer leaves memory
(`HarmlessFaults`). -/

namespace WasiSandbox

namespace Syscall

variable {α β τ : Type} {x : SyscallM α} {f : α → SyscallM β} {c c' : Caller} {e : SysFailure}
  {args : List Value} {m : Memory} {view : Caller → τ}

/-! ### What only looks -/

/-- The host, and how large the memory is. -/
def layout (c : Caller) : Host × Option Nat := (c.host, c.memory.map Memory.size)

theorem onMemory_ok {op : MemoryM α} {a : α} (h : onMemory op c = .ok a c') :
    ∃ m m', c.memory = some m ∧ op m = .ok a m' ∧ c' = { c with memory := some m' } := by
  unfold onMemory at h
  split at h
  · cases h
  · next m hm =>
    split at h
    · next hop =>
      cases h
      exact ⟨m, _, hm, hop, rfl⟩
    · cases h

theorem onMemory_error {op : MemoryM α} (hm : c.memory = some m) (h : onMemory op c = .error e c') :
    ∃ m', op m = .error e m' ∧ c' = { c with memory := some m' } := by
  unfold onMemory at h
  rw [hm] at h
  dsimp only at h
  split at h
  · cases h
  · next hop =>
    cases h
    exact ⟨_, hop, rfl⟩

/-- What only reads memory keeps whatever there is to see. -/
theorem keeps_onMemory_of_id {op : MemoryM α} (hop : Keeps id op) : Keeps view (onMemory op) := by
  refine Keeps.of_id fun ⟨memory, h⟩ => ?_
  cases memory with
  | none => rfl
  | some m =>
    have hm : left (op m) = m := hop m
    unfold onMemory
    dsimp only
    split <;> next hrun =>
      rw [hrun] at hm
      exact congrArg (fun m => (⟨some m, h⟩ : Caller)) hm

theorem keeps_onMemory {op : MemoryM α} (hop : Keeps Memory.size op) :
    Keeps layout (onMemory op) := by
  intro c
  unfold onMemory layout
  split
  · rfl
  · next m hm =>
    have hsize := hop m
    split <;> next hrun => rw [hrun] at hsize; simpa [left, hm] using hsize

theorem keeps_onHost {op : HostM α} (hop : Keeps id op) : Keeps layout (onHost op) := by
  intro c
  have hhost := hop c.host
  unfold onHost layout
  split <;> next hrun => rw [hrun] at hhost; simpa [left] using hhost

theorem keeps_fail (e : Errno) : Keeps view (fail e : SyscallM α) := keeps_throw _

theorem keeps_word (args : List Value) (i : Nat) : Keeps view (word args i) := by
  unfold word
  split
  · exact keeps_pure _
  · exact keeps_fail _

theorem keeps_longWord (args : List Value) (i : Nat) : Keeps view (longWord args i) := by
  unfold longWord
  split
  · exact keeps_pure _
  · exact keeps_fail _

theorem keeps_handle (args : List Value) (i : Nat) : Keeps view (handle args i) :=
  keeps_bind (keeps_word args i) fun _ => keeps_pure _

theorem keeps_halfWord (args : List Value) (i : Nat) : Keeps view (halfWord args i) :=
  keeps_bind (keeps_word args i) fun _ => keeps_pure _

theorem keeps_requireMemory : Keeps view requireMemory := keeps_onMemory_of_id (keeps_pure ())

/-- An operation on memory at the pointer that an argument gives. -/
theorem keeps_atWord {op : UInt32 → MemoryM α} (hop : ∀ ptr, Keeps Memory.size (op ptr))
    (args : List Value) (i : Nat) : Keeps layout (do onMemory (op (← word args i))) :=
  keeps_bind (keeps_word args i) fun ptr => keeps_onMemory (hop ptr)

theorem keeps_textAt (args : List Value) (ptr length : Nat) : Keeps view (textAt args ptr length) :=
  keeps_bind (keeps_word args ptr) fun _ => keeps_bind (keeps_word args length) fun _ =>
    keeps_onMemory_of_id (Memory.keeps_readText _ _)

theorem keeps_buffersAt (args : List Value) (ptr count : Nat) :
    Keeps view (buffersAt args ptr count) :=
  keeps_bind (keeps_word args ptr) fun _ => keeps_bind (keeps_word args count) fun _ =>
    keeps_onMemory_of_id (Memory.keeps_iovecs _ _)

theorem keeps_clockId (args : List Value) (i : Nat) : Keeps view (clockId args i) := by
  refine keeps_bind (keeps_word args i) fun _ => ?_
  split
  · exact keeps_pure _
  · exact keeps_fail _

theorem keeps_deliver (args : List Value) (iovs : List IoVec) (data : Bytes) (count : Nat) :
    Keeps layout (deliver args iovs data count) :=
  keeps_bind (keeps_onMemory (Memory.keeps_scatter iovs data)) fun _ =>
    keeps_atWord (fun _ => Memory.keeps_store _ _ _) args count

theorem word_ok {i : Nat} {w : UInt32} (h : word args i c = .ok w c') :
    args[i]? = some (.i32 w) ∧ c' = c := by
  unfold word at h
  cases hw : args[i]? with
  | none =>
    rw [hw] at h
    cases h
  | some v =>
    rw [hw] at h
    cases v <;> cases h
    exact ⟨rfl, rfl⟩

theorem word_error {i : Nat} (h : word args i c = .error e c') : e = .reported .inval := by
  unfold word at h
  cases hw : args[i]? with
  | none =>
    rw [hw] at h
    cases h
    rfl
  | some v =>
    rw [hw] at h
    cases v <;> cases h <;> rfl

/-! ### Faults -/

/-- A fault in this state leaves the host as it was, or memory is of a size that has an excuse. -/
def FaultsCleanly (excuse : Nat → Prop) (x : SyscallM α) (c : Caller) : Prop :=
  ∀ c', x c = .error (.reported .fault) c' →
    c'.host = c.host ∨ ∃ size, (layout c).2 = some size ∧ excuse size

variable {excuse : Nat → Prop}

theorem keeps_faultsCleanly (hx : Keeps layout x) (c : Caller) : FaultsCleanly excuse x c :=
  fun _ h => Or.inl (congrArg Prod.fst (hx.error h))

/-- Looking comes before. -/
theorem FaultsCleanly.after (hx : Keeps layout x)
    (hf : ∀ a c₁, x c = .ok a c₁ → FaultsCleanly excuse (f a) c₁) :
    FaultsCleanly excuse (x >>= f) c := by
  intro c' h
  rcases run_bind_eq_error h with hfail | ⟨a, c₁, hok, hfail⟩
  · exact keeps_faultsCleanly hx c c' hfail
  · have hlayout : layout c₁ = layout c := hx.ok hok
    rw [← hlayout, show c.host = c₁.host from congrArg Prod.fst hlayout.symm]
    exact hf a c₁ hok c' hfail

/-- Work on the host may come last. -/
theorem onHost_faultsCleanly {op : HostM α} (hop : Atomic op) (c : Caller) :
    FaultsCleanly excuse (onHost op) c := by
  intro c' h
  unfold onHost at h
  split at h
  · cases h
  · next h' hrun =>
    cases h
    exact Or.inl (hop _ _ _ hrun)

/-- What comes after work on the host needs an excuse for its faults. -/
theorem onHost_bind_faultsCleanly {op : HostM α}
    (hop : ∀ h', op c.host = .error (.reported .fault) h' → h' = c.host)
    (hf : ∀ a c₁, c₁.memory = c.memory → ∀ c', f a c₁ = .error (.reported .fault) c' →
      ∃ size, (layout c).2 = some size ∧ excuse size) :
    FaultsCleanly excuse (onHost op >>= f) c := by
  intro c' h
  rcases run_bind_eq_error h with hfail | ⟨a, c₁, hok, hfail⟩
  · unfold onHost at hfail
    split at hfail
    · cases hfail
    · next h' hrun =>
      cases hfail
      exact Or.inl (hop _ hrun)
  · refine Or.inr (hf a c₁ ?_ c' hfail)
    unfold onHost at hok
    split at hok <;> cases hok
    rfl

/-! ### The slot for the answer -/

/-- The argument that points to the slot which a call fills when the host has changed already, and
the width of the slot. -/
def resultSlot? : String → Option (Nat × Nat)
  | "path_open" => some (8, 4)
  | "fd_read" => some (3, 4)
  | "fd_write" => some (3, 4)
  | "fd_pwrite" => some (4, 4)
  | "fd_seek" => some (3, 8)
  | _ => none

/-- The slot for the answer of the call leaves a memory of the size. -/
def Overhangs (name : String) (args : List Value) (size : Nat) : Prop :=
  ∃ k width ptr, resultSlot? name = some (k, width) ∧ args[k]? = some (.i32 ptr) ∧
    size < ptr.toNat + width

theorem store_fault {ptr length : UInt32} {data : Bytes} (hm : c.memory = some m)
    (h : onMemory (Memory.store ptr length data) c = .error (.reported .fault) c') :
    m.size < ptr.toNat + length.toNat := by
  obtain ⟨m', hrun, -⟩ := onMemory_error hm h
  exact Memory.store_fault hrun

/-- A fault of the store at the pointer that an argument gives. -/
theorem store_atWord_fault {k : Nat} {length : UInt32} {data : Bytes} (hm : c.memory = some m)
    (h : (do onMemory (Memory.store (← word args k) length data)) c =
      .error (.reported .fault) c') :
    ∃ ptr, args[k]? = some (.i32 ptr) ∧ m.size < ptr.toNat + length.toNat := by
  rcases run_bind_eq_error h with hword | ⟨ptr, c₁, hword, hstore⟩
  · cases word_error hword
  · obtain ⟨hptr, rfl⟩ := word_ok hword
    exact ⟨ptr, hptr, store_fault hm hstore⟩

/-- What was checked is delivered; then only the count can be in the way. -/
theorem deliver_fault {iovs : List IoVec} {data : Bytes} {k : Nat} (hm : c.memory = some m)
    (hfit : ∀ v ∈ iovs, v.ptr.toNat + v.length.toNat ≤ m.size)
    (h : deliver args iovs data k c = .error (.reported .fault) c') :
    ∃ ptr, args[k]? = some (.i32 ptr) ∧ m.size < ptr.toNat + (4 : UInt32).toNat := by
  rcases run_bind_eq_error h with hscatter | ⟨u, c₁, hscatter, hcount⟩
  · obtain ⟨m', hrun, -⟩ := onMemory_error hm hscatter
    exact absurd hrun (Memory.scatter_fault hfit)
  · obtain ⟨m₀, m₁, hm₀, hrun, rfl⟩ := onMemory_ok hscatter
    obtain rfl : m = m₀ := Option.some.inj (hm.symm.trans hm₀)
    have hsize : m₁.size = m.size := (Memory.keeps_scatter iovs data).ok hrun
    rw [← hsize]
    exact store_atWord_fault rfl hcount

theorem overhangs {name : String} {k width : Nat} (hm : c.memory = some m)
    (hslot : resultSlot? name = some (k, width))
    (hptr : ∃ ptr, args[k]? = some (.i32 ptr) ∧ m.size < ptr.toNat + width) :
    ∃ size, (layout c).2 = some size ∧ Overhangs name args size := by
  obtain ⟨ptr, harg, hlt⟩ := hptr
  refine ⟨m.size, ?_, k, width, ptr, hslot, harg, hlt⟩
  rw [layout, hm, Option.map_some]

/-! ### Calls that change the host -/

/-- Memory that was looked at is there. -/
theorem onMemory_memory {op : MemoryM α} {a : α} (h : onMemory op c = .ok a c') :
    ∃ m, c'.memory = some m := by
  obtain ⟨m, m', -, -, rfl⟩ := onMemory_ok h
  exact ⟨m', rfl⟩

theorem textAt_memory {ptr length : Nat} {text : String}
    (h : textAt args ptr length c = .ok text c') : ∃ m, c'.memory = some m := by
  obtain ⟨_, _, _, hrest⟩ := run_bind_eq_ok h
  obtain ⟨_, _, _, hmemory⟩ := run_bind_eq_ok hrest
  exact onMemory_memory hmemory

theorem pathOpen_faultsCleanly (args : List Value) (c : Caller) :
    FaultsCleanly (Overhangs "path_open" args) (pathOpen args) c := by
  refine .after (keeps_handle args 0) fun dirfd _ _ =>
    .after (keeps_halfWord args 4) fun flags _ _ =>
    .after (keeps_longWord args 5) fun rights _ _ =>
    .after (keeps_longWord args 6) fun inheriting _ _ =>
    .after (keeps_halfWord args 7) fun fdflags _ _ =>
    .after (keeps_word args 8) fun out _ hout =>
    .after keeps_requireMemory fun _ _ _ =>
    .after (keeps_textAt args 2 3) fun path _ hpath => ?_
  obtain ⟨m, hm⟩ := textAt_memory hpath
  refine onHost_bind_faultsCleanly (fun h' hfail => ?_) fun fd c₁ hc₁ c' hfault => ?_
  · -- An open has no fault of its own to report.
    rcases Host.openPath_error hfail with heq | ⟨herror, -⟩
    · exact heq
    · cases herror
  · exact overhangs hm rfl ⟨out, (word_ok hout).1, store_fault (hc₁.trans hm) hfault⟩

theorem fdRead_faultsCleanly (args : List Value) (c : Caller) :
    FaultsCleanly (Overhangs "fd_read" args) (fdRead args) c := by
  refine .after (keeps_handle args 0) fun fd _ _ => .after keeps_requireMemory fun _ _ _ =>
    .after (keeps_buffersAt args 1 2) fun iovs _ _ =>
    .after (keeps_onMemory (Memory.keeps_requireIovecs iovs).of_id) fun _ _ hcheck => ?_
  obtain ⟨m, m', hm, hrun, rfl⟩ := onMemory_ok hcheck
  obtain rfl : m' = m := (Memory.keeps_requireIovecs iovs).ok hrun
  refine onHost_bind_faultsCleanly (Host.atomic_read _ _ _ _) fun data c₁ hc₁ c' hfault => ?_
  exact overhangs rfl rfl (deliver_fault hc₁ (Memory.requireIovecs_ok hrun) hfault)

theorem fdWrite_faultsCleanly (args : List Value) (c : Caller) :
    FaultsCleanly (Overhangs "fd_write" args) (fdWrite args) c := by
  refine .after (keeps_handle args 0) fun fd _ _ => .after keeps_requireMemory fun _ _ _ =>
    .after (keeps_buffersAt args 1 2) fun iovs _ _ =>
    .after (keeps_onMemory (Memory.keeps_gather iovs).of_id) fun data _ hgather => ?_
  obtain ⟨m, hm⟩ := onMemory_memory hgather
  refine onHost_bind_faultsCleanly (Host.atomic_write _ _ _ _) fun n c₁ hc₁ c' hfault => ?_
  exact overhangs hm rfl (store_atWord_fault (hc₁.trans hm) hfault)

theorem fdPwrite_faultsCleanly (args : List Value) (c : Caller) :
    FaultsCleanly (Overhangs "fd_pwrite" args) (fdPwrite args) c := by
  refine .after (keeps_handle args 0) fun fd _ _ => .after (keeps_longWord args 3) fun offset _ _ =>
    .after keeps_requireMemory fun _ _ _ => .after (keeps_buffersAt args 1 2) fun iovs _ _ =>
    .after (keeps_onMemory (Memory.keeps_gather iovs).of_id) fun data _ hgather => ?_
  obtain ⟨m, hm⟩ := onMemory_memory hgather
  refine onHost_bind_faultsCleanly (Host.atomic_writeAt _ _ _ _ _) fun n c₁ hc₁ c' hfault => ?_
  exact overhangs hm rfl (store_atWord_fault (hc₁.trans hm) hfault)

theorem fdSeek_faultsCleanly (args : List Value) (c : Caller) :
    FaultsCleanly (Overhangs "fd_seek" args) (fdSeek args) c := by
  refine .after (keeps_handle args 0) fun fd _ _ => .after (keeps_longWord args 1) fun offset _ _ =>
    .after (keeps_word args 2) fun base _ _ => ?_
  split
  · exact keeps_faultsCleanly (keeps_fail _) _
  · next whence _ =>
    refine .after keeps_requireMemory fun _ _ hmemory => ?_
    obtain ⟨m, hm⟩ := onMemory_memory hmemory
    refine onHost_bind_faultsCleanly (Host.atomic_seek _ _ _ _ _) fun cursor c₁ hc₁ c' hfault => ?_
    exact overhangs hm rfl (store_atWord_fault (hc₁.trans hm) hfault)

theorem fdClose_faultsCleanly (args : List Value) (c : Caller) :
    FaultsCleanly excuse (fdClose args) c :=
  .after (keeps_handle args 0) fun _ _ _ => .after keeps_requireMemory fun _ c₁ _ =>
    onHost_faultsCleanly (Host.atomic_close _) c₁

theorem fdFdstatSetFlags_faultsCleanly (args : List Value) (c : Caller) :
    FaultsCleanly excuse (fdFdstatSetFlags args) c :=
  .after (keeps_handle args 0) fun _ _ _ => .after (keeps_halfWord args 1) fun _ _ _ =>
    .after keeps_requireMemory fun _ c₁ _ => onHost_faultsCleanly (Host.atomic_setFlags _ _) c₁

theorem pathCreateDirectory_faultsCleanly (args : List Value) (c : Caller) :
    FaultsCleanly excuse (pathCreateDirectory args) c :=
  .after (keeps_handle args 0) fun _ _ _ => .after keeps_requireMemory fun _ _ _ =>
    .after (keeps_textAt args 1 2) fun _ c₁ _ =>
    onHost_faultsCleanly (Host.atomic_makeDirectory _ _) c₁

/-! ### Calls that only look -/

theorem keeps_fdPread (args : List Value) : Keeps layout (fdPread args) :=
  keeps_bind (keeps_handle args 0) fun _ => keeps_bind (keeps_longWord args 3) fun _ =>
    keeps_bind keeps_requireMemory fun _ => keeps_bind (keeps_buffersAt args 1 2) fun iovs =>
    keeps_bind (keeps_onMemory (Memory.keeps_requireIovecs iovs).of_id) fun _ =>
    keeps_bind (keeps_onHost (Host.keeps_readAt _ _ _)) fun data => keeps_deliver args iovs data 4

theorem keeps_fdTell (args : List Value) : Keeps layout (fdTell args) :=
  keeps_bind (keeps_handle args 0) fun _ => keeps_bind keeps_requireMemory fun _ =>
    keeps_bind (keeps_onHost (Host.keeps_tell _)) fun _ =>
    keeps_atWord (fun _ => Memory.keeps_store _ _ _) args 1

theorem keeps_fdFilestatGet (args : List Value) : Keeps layout (fdFilestatGet args) :=
  keeps_bind (keeps_handle args 0) fun _ => keeps_bind keeps_requireMemory fun _ =>
    keeps_bind (keeps_onHost (Host.keeps_filestat _)) fun stat => keeps_atWord stat.writes.keeps_size args 1

theorem keeps_pathFilestatGet (args : List Value) : Keeps layout (pathFilestatGet args) :=
  keeps_bind (keeps_handle args 0) fun _ => keeps_bind keeps_requireMemory fun _ =>
    keeps_bind (keeps_textAt args 2 3) fun _ =>
    keeps_bind (keeps_onHost (Host.keeps_pathFilestat _ _)) fun stat =>
    keeps_atWord stat.writes.keeps_size args 4

theorem keeps_fdFdstatGet (args : List Value) : Keeps layout (fdFdstatGet args) :=
  keeps_bind (keeps_handle args 0) fun _ => keeps_bind keeps_requireMemory fun _ =>
    keeps_bind (keeps_onHost (Host.keeps_fdstat _)) fun stat => keeps_atWord stat.writes.keeps_size args 1

theorem keeps_fdPrestatGet (args : List Value) : Keeps layout (fdPrestatGet args) :=
  keeps_bind (keeps_handle args 0) fun _ => keeps_bind keeps_requireMemory fun _ =>
    keeps_bind (keeps_onHost (Host.keeps_prestat _)) fun _ =>
    keeps_atWord (Prestat.writes _).keeps_size args 1

theorem keeps_fdPrestatDirName (args : List Value) : Keeps layout (fdPrestatDirName args) :=
  keeps_bind (keeps_handle args 0) fun _ => keeps_bind (keeps_word args 1) fun _ =>
    keeps_bind (keeps_word args 2) fun _ => keeps_bind keeps_requireMemory fun _ =>
    keeps_bind (keeps_onHost (Host.keeps_prestat _)) fun _ =>
    keeps_ite (keeps_fail _) (keeps_onMemory (Memory.keeps_store _ _ _))

theorem keeps_fdReaddir (args : List Value) : Keeps layout (fdReaddir args) :=
  keeps_bind (keeps_handle args 0) fun _ => keeps_bind (keeps_word args 1) fun _ =>
    keeps_bind (keeps_word args 2) fun _ => keeps_bind (keeps_longWord args 3) fun _ =>
    keeps_bind keeps_requireMemory fun _ =>
    keeps_bind (keeps_onHost (Host.keeps_readDirectory _)) fun _ =>
    keeps_bind (keeps_onMemory (Memory.keeps_store _ _ _)) fun _ =>
    keeps_atWord (fun _ => Memory.keeps_store _ _ _) args 4

/-! ### All calls -/

/-- The error can be told from the answer. -/
theorem answer_injective {e e' : Errno} (h : answer e = answer e') : e = e' := by
  have hcode : UInt32.ofNat e.code = UInt32.ofNat e'.code := by
    simpa [answer] using h
  cases e <;> cases e' <;> first | rfl | exact absurd hcode (by decide)

/-- What a call leaves is what its body leaves. -/
theorem left_run (body : List Value → SyscallM Unit) (args : List Value) (c : Caller) :
    left (run body args c) = left (body args c) := by
  unfold run
  cases body args c with
  | ok u c' => rfl
  | error e c' => cases e <;> rfl

/-- A call answers with a fault if its body fails with one. -/
theorem run_fault {body : List Value → SyscallM Unit}
    (h : run body args c = .ok (answer .fault) c') : body args c = .error (.reported .fault) c' := by
  unfold run at h
  split at h
  · next hok =>
    injection h with hanswer
    cases answer_injective hanswer
  · next e c₁ herror =>
    injection h with hanswer hc
    rw [herror, answer_injective hanswer, hc]
  · cases h

/-- A call that answers with a fault leaves the host as it was, unless its slot leaves memory. -/
def HarmlessFaults (i : Import) : Prop := ∀ args c c', i.body args c = .ok (answer .fault) c' →
  c'.host = c.host ∨ ∃ m, c.memory = some m ∧ Overhangs i.id.name args m.size

theorem define_harmless {name : String} {params : List ValueType}
    {body : List Value → SyscallM Unit}
    (h : ∀ args c, FaultsCleanly (Overhangs name args) (body args) c) :
    HarmlessFaults (define name params body) := by
  intro args c c' hfault
  rcases h args c c' (run_fault hfault) with hhost | ⟨size, hsize, hover⟩
  · exact Or.inl hhost
  · obtain ⟨m, hm, rfl⟩ := Option.map_eq_some_iff.mp hsize
    exact Or.inr ⟨m, hm, hover⟩

theorem define_harmless_of_keeps {name : String} {params : List ValueType}
    {body : List Value → SyscallM Unit} (h : ∀ args, Keeps layout (body args)) :
    HarmlessFaults (define name params body) :=
  define_harmless fun args c => keeps_faultsCleanly (h args) c

/-- **A fault of a call on a handle or a path leaves no trace**, unless the call is one of the five
that write their answer when the host has changed, and the slot for the answer leaves memory. -/
theorem files_fault : ∀ i ∈ files.imports, HarmlessFaults i := by
  unfold files
  simp only [List.forall_mem_cons, List.not_mem_nil, IsEmpty.forall_iff, implies_true, and_true]
  exact ⟨define_harmless pathOpen_faultsCleanly,
    define_harmless fdRead_faultsCleanly,
    define_harmless_of_keeps keeps_fdPread,
    define_harmless fdWrite_faultsCleanly,
    define_harmless fdPwrite_faultsCleanly,
    define_harmless fdSeek_faultsCleanly,
    define_harmless_of_keeps keeps_fdTell,
    define_harmless fun args c => fdClose_faultsCleanly args c,
    define_harmless_of_keeps keeps_fdFilestatGet,
    define_harmless_of_keeps keeps_pathFilestatGet,
    define_harmless_of_keeps keeps_fdFdstatGet,
    define_harmless fun args c => fdFdstatSetFlags_faultsCleanly args c,
    define_harmless_of_keeps keeps_fdPrestatGet,
    define_harmless_of_keeps keeps_fdPrestatDirName,
    define_harmless_of_keeps keeps_fdReaddir,
    define_harmless fun args c => pathCreateDirectory_faultsCleanly args c⟩

/-- A caller with five octets on standard input and memory for a buffer of them at 16. -/
def reader : Caller :=
  ⟨some ⟨#[16, 0, 0, 0, 5, 0, 0, 0, 0, 0, 0, 0, 0, 0, 0, 0,
    0, 0, 0, 0, 0, 0, 0, 0, 0, 0, 0, 0, 0, 0, 0, 0]⟩, .bare .empty [104, 101, 108, 108, 111]⟩

/-- A read through an array of buffers that leaves memory has read nothing. -/
theorem read_outside_harmless : ∃ c',
    run fdRead [.i32 0, .i32 28, .i32 1, .i32 8] reader = .ok (answer .fault) c' ∧
      c'.host = reader.host := by
  obtain ⟨c', hc'⟩ : ∃ c', run fdRead [.i32 0, .i32 28, .i32 1, .i32 8] reader =
      .ok (answer .fault) c' := ⟨_, rfl⟩
  refine ⟨c', hc', ?_⟩
  rcases files_fault (define "fd_read" [.i32, .i32, .i32, .i32] fdRead) (by simp [files])
      [.i32 0, .i32 28, .i32 1, .i32 8] reader c' hc' with
    hhost | ⟨m, hm, k, width, ptr, hslot, harg, hlt⟩
  · exact hhost
  · cases hm
    cases hslot
    cases harg
    exact absurd hlt (by decide)

/-- A read whose count cannot be written has moved the cursor. -/
theorem read_moves_before_fault : ∃ c',
    run fdRead [.i32 0, .i32 0, .i32 1, .i32 32] reader = .ok (answer .fault) c' ∧
      (reader.host.table.get? 0).map (·.cursor) = some 0 ∧
      (c'.host.table.get? 0).map (·.cursor) = some 5 :=
  ⟨_, rfl, rfl, rfl⟩

end Syscall

end WasiSandbox
