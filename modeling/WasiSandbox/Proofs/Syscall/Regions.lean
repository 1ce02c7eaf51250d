import WasiSandbox.Proofs.Syscall.Defects

/-! # Where system calls write

The guest tells a system call in its arguments where the answer is to go: a slot at a pointer, a range of
a length, or the buffers that an array in memory describes. `HostSetup.outputs` says for every system call
which arguments these are. The host does not reach memory, and what a call decodes only reads it, so all
that a call does to memory is one or two writes at these arguments (`HostSetup.builtins_write_outputs`),
whether it comes to them or fails before. -/

namespace WasiSandbox

namespace Syscall

open Memory

variable {α β : Type} {x : SyscallM α} {f : α → SyscallM β} {c c' : Caller} {args : List Value}
  {regions : List Region} {m : Memory} {i j : Nat} {p n : UInt32}

/-! ### What the arguments describe -/

/-- The argument as a word of 32 bits, if it is one. -/
def wordAt? (args : List Value) (i : Nat) : Option UInt32 :=
  match args[i]? with
  | some (.i32 w) => some w
  | _ => none

/-- The slot of a width at the pointer that an argument gives. -/
def slot (args : List Value) (i width : Nat) : List Region :=
  (wordAt? args i).toList.map fun p => ⟨p.toNat, width⟩

/-- The range that two arguments describe by pointer and length. -/
def span (args : List Value) (ptr length : Nat) : List Region :=
  (wordAt? args ptr).toList.flatMap fun p =>
    (wordAt? args length).toList.map fun n => ⟨p.toNat, n.toNat⟩

/-- The buffers that the array in memory describes, which two arguments give by pointer and count. -/
def buffers (args : List Value) (ptr count : Nat) (m : Memory) : List Region :=
  (wordAt? args ptr).toList.flatMap fun p =>
    (wordAt? args count).toList.flatMap fun n =>
      (IoVec.decode (m.octetsAt p.toNat (8 * n.toNat))).map IoVec.region

/-- The array of pointers and the block of the table, at the pointers that the arguments give. -/
def tableAt (args : List Value) (t : StringTable) : List Region :=
  (wordAt? args 0).toList.flatMap fun ptrs =>
    (wordAt? args 1).toList.flatMap fun block => t.regions ptrs block

theorem wordAt?_ok (h : word args i c = .ok p c') : wordAt? args i = some p := by
  unfold wordAt?
  rw [(word_ok h).1]

theorem mem_slot (h : wordAt? args i = some p) (width : Nat) : ⟨p.toNat, width⟩ ∈ slot args i width := by
  unfold slot
  rw [h]
  exact List.mem_singleton_self _

theorem span_eq (hp : wordAt? args i = some p) (hn : wordAt? args j = some n) :
    span args i j = [⟨p.toNat, n.toNat⟩] := by
  unfold span
  rw [hp, hn]
  rfl

theorem tableAt_eq (hp : wordAt? args 0 = some p) (hn : wordAt? args 1 = some n) (t : StringTable) :
    tableAt args t = t.regions p n := by
  unfold tableAt
  rw [hp, hn]
  simp

theorem octetsAt_slice {length : UInt32} {m' : Memory} {data : Bytes}
    (h : slice p length m = .ok data m') : data = m.octetsAt p.toNat length.toNat := by
  have hrange : p.toNat + length.toNat ≤ m.size := by
    unfold slice at h
    cases hr : m.range p length with
    | error e =>
      rw [hr] at h
      cases h
    | ok range => exact (range_ok hr).2
  rw [slice_run hrange] at h
  cases h
  rfl

/-- The buffers that a call works on are those that are described. -/
theorem buffersAt_ok {iovs : List IoVec} (hm : c.memory = some m)
    (h : buffersAt args i j c = .ok iovs c') : buffers args i j m = iovs.map IoVec.region := by
  obtain ⟨p, c₁, hp, hrest⟩ := run_bind_eq_ok h
  obtain ⟨n, c₂, hn, hiovs⟩ := run_bind_eq_ok hrest
  obtain ⟨-, rfl⟩ := word_ok hp
  obtain ⟨-, rfl⟩ := word_ok hn
  obtain ⟨m₀, m', hm₀, hrun, -⟩ := onMemory_ok hiovs
  obtain rfl : m₀ = m := Option.some.inj (hm₀.symm.trans hm)
  unfold iovecs at hrun
  split at hrun
  · cases hrun
  · next hcount =>
    obtain ⟨data, m₁, hdata, hdecode⟩ := run_bind_eq_ok hrun
    cases hdecode
    have hlength : (n * 8).toNat = 8 * n.toNat := by
      rw [UInt32.toNat_mul, Nat.mul_comm 8]
      exact Nat.mod_eq_of_lt (Nat.lt_of_not_le hcount)
    unfold buffers
    rw [wordAt?_ok hp, wordAt?_ok hn, octetsAt_slice hdata, hlength]
    simp

/-! ### Operations -/

/-- Whatever comes of the step in this state, it writes to memory in the regions only. -/
def WritesIn (regions : List Region) (x : SyscallM α) (c : Caller) : Prop :=
  ∀ m, c.memory = some m → ∃ m', (left (x c)).memory = some m' ∧ m.SameOutside regions m'

theorem writesIn_of_keeps (hx : Keeps Caller.memory x) (c : Caller) : WritesIn regions x c :=
  fun m hm => ⟨m, (hx c).trans hm, .refl m⟩

theorem WritesIn.bind (hx : WritesIn regions x c) (hf : ∀ a c', WritesIn regions (f a) c') :
    WritesIn regions (x >>= f) c := by
  intro m hm
  refine left_bind (p := fun c' : Caller => ∃ m', c'.memory = some m' ∧ m.SameOutside regions m')
    (hx m hm) fun a c₁ ⟨m₁, hm₁, hsame⟩ => ?_
  obtain ⟨m', hm', hsame'⟩ := hf a c₁ m₁ hm₁
  exact ⟨m', hm', hsame.trans hsame'⟩

/-- What leaves memory alone comes before. -/
theorem WritesIn.after (hx : Keeps Caller.memory x)
    (hf : ∀ a c₁, x c = .ok a c₁ → c₁.memory = c.memory → WritesIn regions (f a) c₁) :
    WritesIn regions (x >>= f) c := by
  intro m hm
  cases hrun : x c with
  | ok a c₁ =>
    have hsame : c₁.memory = c.memory := hx.ok hrun
    rw [run_bind_ok hrun]
    exact hf a c₁ hrun hsame m (hsame.trans hm)
  | error e c₁ =>
    rw [run_bind_error hrun]
    exact ⟨m, (hx.error hrun).trans hm, .refl m⟩

theorem writesIn_onMemory {op : MemoryM α} (hop : Memory.WritesIn regions op) (c : Caller) :
    WritesIn regions (onMemory op) c := by
  intro m hm
  refine ⟨left (op m), ?_, hop m⟩
  unfold onMemory
  rw [hm]
  dsimp only
  split <;> next hrun => rw [hrun]; rfl

/-- The host does not reach memory. -/
theorem keeps_memory_onHost (op : HostM α) : Keeps Caller.memory (onHost op) := by
  intro c
  unfold onHost
  split <;> rfl

/-- What is written at a pointer goes to the slot there. -/
theorem writesIn_atWord {op : UInt32 → MemoryM α} {width : Nat}
    (hslot : ∀ r ∈ slot args i width, r ∈ regions)
    (hop : ∀ p : UInt32, ⟨p.toNat, width⟩ ∈ regions → Memory.WritesIn regions (op p)) (c : Caller) :
    WritesIn regions (do onMemory (op (← word args i))) c :=
  .after (keeps_word args i) fun p c₁ hp _ =>
    writesIn_onMemory (hop p (hslot _ (mem_slot (wordAt?_ok hp) width))) c₁

/-- A store at a pointer that was decoded before. -/
theorem writesIn_store {length : UInt32} {data : Bytes} (h : wordAt? args i = some p) (c : Caller) :
    WritesIn (slot args i length.toNat) (onMemory (store p length data)) c :=
  writesIn_onMemory (store_range_writesIn (mem_slot h _)) c

/-- A store of at most so many octets as there is room for. -/
theorem writesIn_span {length : UInt32} {data : Bytes} (hp : wordAt? args i = some p)
    (hn : wordAt? args j = some n) (hlength : length.toNat ≤ n.toNat)
    (hspan : ∀ r ∈ span args i j, r ∈ regions) (c : Caller) :
    WritesIn regions (onMemory (store p length data)) c := by
  rw [span_eq hp hn] at hspan
  exact writesIn_onMemory (store_writesIn (hspan _ (List.mem_singleton_self _)) (Nat.le_refl _)
    (Nat.add_le_add_left hlength _)) c

/-! ### Calls on handles and paths -/

/-- A word goes to its slot. -/
theorem writesIn_word (hslot : ∀ r ∈ slot args i 4, r ∈ regions) (n : UInt32) (c : Caller) :
    WritesIn regions (do onMemory (writeU32 (← word args i) n)) c :=
  writesIn_atWord hslot (fun _ hp => store_range_writesIn hp) c

/-- **What was read goes to the buffers**, and the count to its slot. -/
theorem deliver_writesIn {iovs : List IoVec} (hiovs : regions = iovs.map IoVec.region) (data : Bytes)
    (k : Nat) (c : Caller) : WritesIn (regions ++ slot args k 4) (deliver args iovs data k) c := by
  refine .bind (writesIn_onMemory (scatter_writesIn (fun v hv => ?_) data) c) fun _ =>
    writesIn_word (fun _ => List.mem_append_right _) _
  rw [hiovs]
  exact List.mem_append_left _ (List.mem_map_of_mem hv)

theorem pathOpen_writesIn (args : List Value) (c : Caller) :
    WritesIn (slot args 8 4) (pathOpen args) c :=
  .after (keeps_handle args 0) fun _ _ _ _ => .after (keeps_halfWord args 4) fun _ _ _ _ =>
    .after (keeps_longWord args 5) fun _ _ _ _ => .after (keeps_longWord args 6) fun _ _ _ _ =>
    .after (keeps_halfWord args 7) fun _ _ _ _ => .after (keeps_word args 8) fun _ _ hout _ =>
    .after keeps_requireMemory fun _ _ _ _ => .after (keeps_textAt args 2 3) fun _ _ _ _ =>
    .after (keeps_memory_onHost _) fun _ c₁ _ _ => writesIn_store (wordAt?_ok hout) c₁

theorem fdRead_writesIn (args : List Value) (hm : c.memory = some m) :
    WritesIn (buffers args 1 2 m ++ slot args 3 4) (fdRead args) c :=
  .after (keeps_handle args 0) fun _ _ _ h₁ => .after keeps_requireMemory fun _ _ _ h₂ =>
    .after (keeps_buffersAt args 1 2) fun _ _ hiovs _ =>
    .after (keeps_onMemory_of_id (keeps_requireIovecs _)) fun _ _ _ _ =>
    .after (keeps_memory_onHost _) fun data c₁ _ _ =>
    deliver_writesIn (buffersAt_ok (h₂.trans (h₁.trans hm)) hiovs) data 3 c₁

theorem fdPread_writesIn (args : List Value) (hm : c.memory = some m) :
    WritesIn (buffers args 1 2 m ++ slot args 4 4) (fdPread args) c :=
  .after (keeps_handle args 0) fun _ _ _ h₁ => .after (keeps_longWord args 3) fun _ _ _ h₂ =>
    .after keeps_requireMemory fun _ _ _ h₃ => .after (keeps_buffersAt args 1 2) fun _ _ hiovs _ =>
    .after (keeps_onMemory_of_id (keeps_requireIovecs _)) fun _ _ _ _ =>
    .after (keeps_memory_onHost _) fun data c₁ _ _ =>
    deliver_writesIn (buffersAt_ok (h₃.trans (h₂.trans (h₁.trans hm))) hiovs) data 4 c₁

theorem fdWrite_writesIn (args : List Value) (c : Caller) : WritesIn (slot args 3 4) (fdWrite args) c :=
  .after (keeps_handle args 0) fun _ _ _ _ => .after keeps_requireMemory fun _ _ _ _ =>
    .after (keeps_buffersAt args 1 2) fun _ _ _ _ =>
    .after (keeps_onMemory_of_id (keeps_gather _)) fun _ _ _ _ =>
    .after (keeps_memory_onHost _) fun _ c₁ _ _ => writesIn_word (fun _ => id) _ c₁

theorem fdPwrite_writesIn (args : List Value) (c : Caller) : WritesIn (slot args 4 4) (fdPwrite args) c :=
  .after (keeps_handle args 0) fun _ _ _ _ => .after (keeps_longWord args 3) fun _ _ _ _ =>
    .after keeps_requireMemory fun _ _ _ _ => .after (keeps_buffersAt args 1 2) fun _ _ _ _ =>
    .after (keeps_onMemory_of_id (keeps_gather _)) fun _ _ _ _ =>
    .after (keeps_memory_onHost _) fun _ c₁ _ _ => writesIn_word (fun _ => id) _ c₁

/-- One long word of memory is all that is written. -/
theorem writesIn_longWord (k : Nat) (n : UInt64) (c : Caller) :
    WritesIn (slot args k 8) (do onMemory (writeU64 (← word args k) n)) c :=
  writesIn_atWord (fun _ => id) (fun _ => store_range_writesIn) c

theorem fdSeek_writesIn (args : List Value) (c : Caller) : WritesIn (slot args 3 8) (fdSeek args) c := by
  refine .after (keeps_handle args 0) fun _ _ _ _ => .after (keeps_longWord args 1) fun _ _ _ _ =>
    .after (keeps_word args 2) fun _ c₁ _ _ => ?_
  split
  · exact writesIn_of_keeps (keeps_fail _) c₁
  · exact .after keeps_requireMemory fun _ _ _ _ =>
      .after (keeps_memory_onHost _) fun _ c₁ _ _ => writesIn_longWord 3 _ c₁

theorem fdTell_writesIn (args : List Value) (c : Caller) : WritesIn (slot args 1 8) (fdTell args) c :=
  .after (keeps_handle args 0) fun _ _ _ _ => .after keeps_requireMemory fun _ _ _ _ =>
    .after (keeps_memory_onHost _) fun _ c₁ _ _ => writesIn_longWord 1 _ c₁

theorem keeps_memory_fdClose (args : List Value) : Keeps Caller.memory (fdClose args) :=
  keeps_bind (keeps_handle args 0) fun _ => keeps_bind keeps_requireMemory fun _ =>
    keeps_memory_onHost _

theorem fdFilestatGet_writesIn (args : List Value) (c : Caller) :
    WritesIn (slot args 1 64) (fdFilestatGet args) c :=
  .after (keeps_handle args 0) fun _ _ _ _ => .after keeps_requireMemory fun _ _ _ _ =>
    .after (keeps_memory_onHost _) fun stat c₁ _ _ =>
    writesIn_atWord (fun _ => id) (fun _ => stat.writes.writesIn) c₁

theorem pathFilestatGet_writesIn (args : List Value) (c : Caller) :
    WritesIn (slot args 4 64) (pathFilestatGet args) c :=
  .after (keeps_handle args 0) fun _ _ _ _ => .after keeps_requireMemory fun _ _ _ _ =>
    .after (keeps_textAt args 2 3) fun _ _ _ _ => .after (keeps_memory_onHost _) fun stat c₁ _ _ =>
    writesIn_atWord (fun _ => id) (fun _ => stat.writes.writesIn) c₁

theorem fdFdstatGet_writesIn (args : List Value) (c : Caller) :
    WritesIn (slot args 1 24) (fdFdstatGet args) c :=
  .after (keeps_handle args 0) fun _ _ _ _ => .after keeps_requireMemory fun _ _ _ _ =>
    .after (keeps_memory_onHost _) fun stat c₁ _ _ =>
    writesIn_atWord (fun _ => id) (fun _ => stat.writes.writesIn) c₁

theorem keeps_memory_fdFdstatSetFlags (args : List Value) : Keeps Caller.memory (fdFdstatSetFlags args) :=
  keeps_bind (keeps_handle args 0) fun _ => keeps_bind (keeps_halfWord args 1) fun _ =>
    keeps_bind keeps_requireMemory fun _ => keeps_memory_onHost _

theorem fdPrestatGet_writesIn (args : List Value) (c : Caller) :
    WritesIn (slot args 1 8) (fdPrestatGet args) c :=
  .after (keeps_handle args 0) fun _ _ _ _ => .after keeps_requireMemory fun _ _ _ _ =>
    .after (keeps_memory_onHost _) fun _ c₁ _ _ =>
    writesIn_atWord (fun _ => id) (fun _ => (Prestat.writes _).writesIn) c₁

theorem fdPrestatDirName_writesIn (args : List Value) (c : Caller) :
    WritesIn (span args 1 2) (fdPrestatDirName args) c := by
  refine .after (keeps_handle args 0) fun _ _ _ _ => .after (keeps_word args 1) fun ptr _ hptr _ =>
    .after (keeps_word args 2) fun room _ hroom _ => .after keeps_requireMemory fun _ _ _ _ =>
    .after (keeps_memory_onHost _) fun name c₁ _ _ => ?_
  dsimp only
  split
  · exact writesIn_of_keeps (keeps_fail _) c₁
  · next hle =>
    have hlength := Nat.le_trans (toNat_ofNat_le _) (Nat.le_of_not_lt hle)
    exact writesIn_span (wordAt?_ok hptr) (wordAt?_ok hroom) hlength (fun _ => id) c₁

theorem fdReaddir_writesIn (args : List Value) (c : Caller) :
    WritesIn (span args 1 2 ++ slot args 4 4) (fdReaddir args) c := by
  refine .after (keeps_handle args 0) fun _ _ _ _ => .after (keeps_word args 1) fun ptr _ hptr _ =>
    .after (keeps_word args 2) fun room _ hroom _ => .after (keeps_longWord args 3) fun cookie _ _ _ =>
    .after keeps_requireMemory fun _ _ _ _ => .after (keeps_memory_onHost _) fun entries c₁ _ _ => ?_
  -- The page is cut off where the room for it ends.
  have hlength := Nat.le_trans (toNat_ofNat_le _)
    (List.length_take_le room.toNat (fillPage cookie.toNat room.toNat 0 [] entries))
  exact .bind (writesIn_span (wordAt?_ok hptr) (wordAt?_ok hroom) hlength
    (fun _ => List.mem_append_left _) c₁) fun _ => writesIn_word (fun _ => List.mem_append_right _) _

theorem keeps_memory_pathCreateDirectory (args : List Value) :
    Keeps Caller.memory (pathCreateDirectory args) :=
  keeps_bind (keeps_handle args 0) fun _ => keeps_bind keeps_requireMemory fun _ =>
    keeps_bind (keeps_textAt args 1 2) fun _ => keeps_memory_onHost _

/-! ### Other calls -/

theorem writeSizes_writesIn (args : List Value) (t : StringTable) (c : Caller) :
    WritesIn (slot args 0 4 ++ slot args 1 4) (do
      requireMemory
      onMemory (t.writeSizes (← word args 0) (← word args 1))) c :=
  .after keeps_requireMemory fun _ _ _ _ => .after (keeps_word args 0) fun _ _ hcount _ =>
    .after (keeps_word args 1) fun _ c₁ hsize _ =>
    writesIn_onMemory (.bind
      (store_range_writesIn (List.mem_append_left _ (mem_slot (wordAt?_ok hcount) 4))) fun _ =>
      store_range_writesIn (List.mem_append_right _ (mem_slot (wordAt?_ok hsize) 4))) c₁

theorem write_writesIn (args : List Value) (t : StringTable) (c : Caller) :
    WritesIn (tableAt args t) (do
      requireMemory
      onMemory (t.write (← word args 0) (← word args 1))) c := by
  refine .after keeps_requireMemory fun _ _ _ _ => .after (keeps_word args 0) fun ptrs _ hptrs _ =>
    .after (keeps_word args 1) fun block c₁ hblock _ => ?_
  rw [tableAt_eq (wordAt?_ok hptrs) (wordAt?_ok hblock)]
  exact writesIn_onMemory (t.write_writesIn ptrs block) c₁

theorem randomGet_writesIn (args : List Value) (c : Caller) :
    WritesIn (span args 0 1) (randomGet args) c :=
  .after (keeps_word args 0) fun _ _ hptr _ => .after (keeps_word args 1) fun _ _ hlength _ =>
    .after keeps_requireMemory fun _ _ _ _ =>
    .after (keeps_onMemory_of_id (keeps_requireRange _ _)) fun _ _ _ _ =>
    .after (keeps_memory_onHost _) fun data c₁ hdraw _ => by
      obtain ⟨h, hdrawn, -⟩ := onHost_ok hdraw
      have hle := Nat.le_trans (Memory.toNat_ofNat_le data.length) (length_draw_le hdrawn)
      exact .bind (writesIn_span (wordAt?_ok hptr) (wordAt?_ok hlength) hle (fun _ => id) c₁) fun _ c₂ =>
        writesIn_of_keeps (keeps_ite (keeps_fail .io) (keeps_pure ())) c₂

theorem clockTimeGet_writesIn (args : List Value) (c : Caller) :
    WritesIn (slot args 2 8) (clockTimeGet args) c :=
  .after (keeps_clockId args 0) fun _ _ _ _ => .after (keeps_memory_onHost _) fun _ _ _ _ =>
    .after (keeps_word args 2) fun _ _ hout _ => .after keeps_requireMemory fun _ c₁ _ _ =>
    writesIn_store (wordAt?_ok hout) c₁

theorem clockResGet_writesIn (args : List Value) (c : Caller) :
    WritesIn (slot args 1 8) (clockResGet args) c :=
  .after (keeps_clockId args 0) fun _ _ _ _ => .after (keeps_word args 1) fun _ _ hout _ =>
    .after keeps_requireMemory fun _ c₁ _ _ => writesIn_store (wordAt?_ok hout) c₁

end Syscall

/-! ### All calls -/

/-- Whatever comes of a call of the import, it writes to memory in its outputs only, as they stand when
the call is made. -/
def Import.WritesIn (i : Import) (outputs : List Value → Memory → List Region) : Prop :=
  ∀ args (c : Caller) m, c.memory = some m →
    ∃ m', (left (i.body args c)).memory = some m' ∧ m.SameOutside (outputs args m) m'

namespace HostSetup

open Syscall

/-- Where the system call of the name writes its answer. -/
def outputs (s : HostSetup) (name : String) (args : List Value) (m : Memory) : List Region :=
  match name with
  | "args_sizes_get" | "environ_sizes_get" => slot args 0 4 ++ slot args 1 4
  | "args_get" => tableAt args (.ofList s.args)
  | "environ_get" => tableAt args (.ofList (Environment.strings s.env))
  | "random_get" => span args 0 1
  | "clock_time_get" => slot args 2 8
  | "clock_res_get" => slot args 1 8
  | "path_open" => slot args 8 4
  | "fd_read" => buffers args 1 2 m ++ slot args 3 4
  | "fd_pread" => buffers args 1 2 m ++ slot args 4 4
  | "fd_write" => slot args 3 4
  | "fd_pwrite" => slot args 4 4
  | "fd_seek" => slot args 3 8
  | "fd_tell" => slot args 1 8
  | "fd_filestat_get" => slot args 1 64
  | "path_filestat_get" => slot args 4 64
  | "fd_fdstat_get" => slot args 1 24
  | "fd_prestat_get" => slot args 1 8
  | "fd_prestat_dir_name" => span args 1 2
  | "fd_readdir" => span args 1 2 ++ slot args 4 4
  | _ => []

theorem define_writesIn {name : String} {params : List ValueType} {body : List Value → SyscallM Unit}
    {outputs : List Value → Memory → List Region}
    (h : ∀ args (c : Caller) m, c.memory = some m → Syscall.WritesIn (outputs args m) (body args) c) :
    (define name params body).WritesIn outputs := by
  intro args c m hm
  show ∃ m', (left (run body args c)).memory = some m' ∧ _
  rw [left_run]
  exact h args c m hm m hm

theorem define_writesIn_of_keeps {name : String} {params : List ValueType}
    {body : List Value → SyscallM Unit} {outputs : List Value → Memory → List Region}
    (h : ∀ args, Keeps Caller.memory (body args)) : (define name params body).WritesIn outputs :=
  define_writesIn fun args c _ _ => writesIn_of_keeps (h args) c

theorem files_writeOutputs (s : HostSetup) :
    ∀ i ∈ files.imports, i.WritesIn (s.outputs i.id.name) := by
  unfold files
  simp only [List.forall_mem_cons, List.not_mem_nil, IsEmpty.forall_iff, implies_true, and_true]
  exact ⟨define_writesIn fun args c _ _ => pathOpen_writesIn args c,
    define_writesIn fun args _ _ hm => fdRead_writesIn args hm,
    define_writesIn fun args _ _ hm => fdPread_writesIn args hm,
    define_writesIn fun args c _ _ => fdWrite_writesIn args c,
    define_writesIn fun args c _ _ => fdPwrite_writesIn args c,
    define_writesIn fun args c _ _ => fdSeek_writesIn args c,
    define_writesIn fun args c _ _ => fdTell_writesIn args c,
    define_writesIn_of_keeps keeps_memory_fdClose,
    define_writesIn fun args c _ _ => fdFilestatGet_writesIn args c,
    define_writesIn fun args c _ _ => pathFilestatGet_writesIn args c,
    define_writesIn fun args c _ _ => fdFdstatGet_writesIn args c,
    define_writesIn_of_keeps keeps_memory_fdFdstatSetFlags,
    define_writesIn fun args c _ _ => fdPrestatGet_writesIn args c,
    define_writesIn fun args c _ _ => fdPrestatDirName_writesIn args c,
    define_writesIn fun args c _ _ => fdReaddir_writesIn args c,
    define_writesIn_of_keeps keeps_memory_pathCreateDirectory⟩

/-- An exit leaves memory alone. -/
theorem exit_writesIn {id : ImportId} {signature : Signature} {code : List Value → Int32}
    {outputs : List Value → Memory → List Region} :
    (Import.mk id signature fun args => throw (.exit (code args))).WritesIn outputs :=
  fun _ _ m hm => ⟨m, hm, .refl m⟩

/-- **System calls write only where the guest told them to**, whether they succeed or fail. -/
theorem builtins_write_outputs (s : HostSetup) :
    ∀ p ∈ s.builtins, ∀ i ∈ p.imports, i.WritesIn (s.outputs i.id.name) := by
  unfold builtins
  simp only [List.forall_mem_cons, List.not_mem_nil, IsEmpty.forall_iff, implies_true, and_true]
  refine ⟨?_, ?_, ?_, ?_, ?_, s.files_writeOutputs⟩
  · exact List.forall_mem_cons.mpr ⟨define_writesIn fun args c _ _ => writeSizes_writesIn args _ c,
      List.forall_mem_singleton.mpr (define_writesIn fun args c _ _ => write_writesIn args _ c)⟩
  · exact List.forall_mem_cons.mpr ⟨define_writesIn fun args c _ _ => writeSizes_writesIn args _ c,
      List.forall_mem_singleton.mpr (define_writesIn fun args c _ _ => write_writesIn args _ c)⟩
  · exact List.forall_mem_singleton.mpr (define_writesIn fun args c _ _ => randomGet_writesIn args c)
  · exact List.forall_mem_cons.mpr ⟨define_writesIn fun args c _ _ => clockTimeGet_writesIn args c,
      List.forall_mem_singleton.mpr (define_writesIn fun args c _ _ => clockResGet_writesIn args c)⟩
  · exact List.forall_mem_cons.mpr ⟨exit_writesIn, List.forall_mem_singleton.mpr
      (define_writesIn_of_keeps fun _ => keeps_pure ())⟩

/-- A read into the buffer at 16 fills it with what is on standard input, and writes to nothing besides
but the count at 8. -/
theorem read_fills_its_buffer : ∃ m m', reader.memory = some m ∧
    (left (run fdRead [.i32 0, .i32 0, .i32 1, .i32 8] reader)).memory = some m' ∧
    m.octetsAt 16 5 = [0, 0, 0, 0, 0] ∧ m'.octetsAt 16 5 = [104, 101, 108, 108, 111] ∧
    m.SameOutside [⟨16, 5⟩, ⟨8, 4⟩] m' := by
  obtain ⟨m', hm', hsame⟩ := builtins_write_outputs {} files (by simp [builtins])
    (define "fd_read" [.i32, .i32, .i32, .i32] fdRead) (by simp [files])
    [.i32 0, .i32 0, .i32 1, .i32 8] reader _ rfl
  have hdata : (left (run fdRead [.i32 0, .i32 0, .i32 1, .i32 8] reader)).memory.map
      (·.octetsAt 16 5) = some [104, 101, 108, 108, 111] := by decide +kernel
  refine ⟨_, m', rfl, hm', by decide +kernel, ?_, hsame⟩
  rw [show (left (run fdRead [.i32 0, .i32 0, .i32 1, .i32 8] reader)).memory = some m' from hm'] at hdata
  exact Option.some.inj hdata

end HostSetup

end WasiSandbox
