import WasiSandbox.Host.Setup
import WasiSandbox.Proofs.Descriptor.Bounds
import WasiSandbox.Proofs.Syscall.Fault

/-! # System calls have no defects

A system call decodes its arguments and looks at memory (`Looks`), lets the host do one thing, and
writes to memory what came of it (`Settles`). The host changes by that as by any operation on
descriptors (`Follows`), so what it counts with stays in its bounds from one call to the next; and in
these bounds no step of a call is a defect (`Serves`). So whatever a guest calls in whatever order, each
call comes back with an error number or ends the guest (`BuiltinCall.returns_or_exits`). -/

namespace WasiSandbox

namespace Syscall

open Failure

variable {α β : Type} {x : SyscallM α} {f : α → SyscallM β} {c c' : Caller} {args : List Value}

/-! ### What becomes of the host -/

/-- Whatever comes of it, the host changes as by operations on descriptors. -/
def Follows (x : SyscallM α) : Prop := ∀ c : Caller, c.host.tree.WellFormed →
  Host.Changes c.host (left (x c)).host

theorem follows_of_keeps (hx : Keeps layout x) : Follows x := fun c _ => by
  rw [show (left (x c)).host = c.host from congrArg Prod.fst (hx c)]
  exact .refl c.host

theorem follows_bind (hx : Follows x) (hf : ∀ a, Follows (f a)) : Follows (x >>= f) := by
  intro c ht
  have hc := hx c ht
  cases hrun : x c with
  | ok a c₁ =>
    rw [hrun] at hc
    rw [run_bind_ok hrun]
    exact hc.trans (hf a c₁ (hc.wellFormed ht))
  | error e c₁ =>
    rw [hrun] at hc
    rwa [run_bind_error hrun]

theorem follows_pure (a : α) : Follows (pure a) := fun c _ => .refl c.host

theorem follows_fail (e : Errno) : Follows (fail e : SyscallM α) := fun c _ => .refl c.host

theorem follows_onMemory (op : MemoryM α) : Follows (onMemory op) := by
  intro c _
  unfold onMemory
  split
  · exact .refl c.host
  · split <;> exact .refl c.host

theorem follows_onHost {op : HostM α} (hop : Host.Alters op) : Follows (onHost op) := by
  intro c ht
  have hc := hop c.host ht
  unfold onHost
  split <;> next hrun => rwa [hrun] at hc

/-! ### Steps without defects -/

/-- The memory, if there is one, can be addressed by 32 bits. -/
def Addressable (c : Caller) : Prop := ∀ m, c.memory = some m → m.size ≤ UInt32.size

/-- The host is in its bounds and has a handle to give out, and the memory can be addressed. -/
structure Ready (c : Caller) : Prop where
  host : c.host.Fits
  room : c.host.table.lowestFree < UInt32.size
  memory : Addressable c

theorem Addressable.of_size (hc : Addressable c)
    (h : c'.memory.map Memory.size = c.memory.map Memory.size) : Addressable c' := by
  intro m hm
  rw [hm, Option.map_some] at h
  obtain ⟨m₀, hm₀, hsize⟩ := Option.map_eq_some_iff.mp h.symm
  rw [← hsize]
  exact hc m₀ hm₀

theorem Ready.of_layout (hc : Ready c) (h : layout c' = layout c) : Ready c' := by
  have hhost : c'.host = c.host := congrArg Prod.fst h
  exact ⟨hhost ▸ hc.host, hhost ▸ hc.room, hc.memory.of_size (congrArg Prod.snd h)⟩

theorem onMemory_avoids {op : MemoryM α} (hop : ∀ m, c.memory = some m → Avoids IsDefect op m) :
    Avoids IsDefect (onMemory op) c := by
  intro e c' h
  cases hm : c.memory with
  | none =>
    unfold onMemory at h
    rw [hm] at h
    cases h
    exact id
  | some m =>
    obtain ⟨m', hrun, -⟩ := onMemory_error hm h
    exact hop m hm e m' hrun

theorem onHost_ok {op : HostM α} {a : α} (h : onHost op c = .ok a c') :
    ∃ h', op c.host = .ok a h' ∧ c' = { c with host := h' } := by
  unfold onHost at h
  split at h
  · next hrun =>
    cases h
    exact ⟨_, hrun, rfl⟩
  · cases h

theorem onHost_avoids {op : HostM α} (hop : Avoids IsDefect op c.host) :
    Avoids IsDefect (onHost op) c := by
  intro e c' h
  unfold onHost at h
  split at h
  · cases h
  · next hrun =>
    cases h
    exact hop _ _ hrun

theorem fail_avoids (e : Errno) (c : Caller) : Avoids IsDefect (fail e : SyscallM α) c :=
  avoids_throw id c

/-! ### Steps that only look -/

/-- The step changes neither the host nor the size of the memory, and is not a defect. -/
structure Looks (x : SyscallM α) : Prop where
  keeps : Keeps layout x
  avoids : ∀ c, Avoids IsDefect x c

theorem looks_word (args : List Value) (i : Nat) : Looks (word args i) where
  keeps := keeps_word args i
  avoids c := by
    unfold word
    split
    · exact avoids_pure _ c
    · exact fail_avoids _ c

theorem looks_longWord (args : List Value) (i : Nat) : Looks (longWord args i) where
  keeps := keeps_longWord args i
  avoids c := by
    unfold longWord
    split
    · exact avoids_pure _ c
    · exact fail_avoids _ c

theorem looks_handle (args : List Value) (i : Nat) : Looks (handle args i) where
  keeps := keeps_handle args i
  avoids c := ((looks_word args i).avoids c).bind fun _ c' _ => avoids_pure _ c'

theorem looks_halfWord (args : List Value) (i : Nat) : Looks (halfWord args i) where
  keeps := keeps_halfWord args i
  avoids c := ((looks_word args i).avoids c).bind fun _ c' _ => avoids_pure _ c'

theorem looks_onMemory {op : MemoryM α} (hk : Keeps id op) (hop : ∀ m, Avoids IsDefect op m) :
    Looks (onMemory op) where
  keeps := keeps_onMemory hk.of_id
  avoids _ := onMemory_avoids fun m _ => hop m

theorem looks_requireMemory : Looks requireMemory := looks_onMemory (keeps_pure ()) (avoids_pure ())

theorem looks_textAt (args : List Value) (ptr length : Nat) : Looks (textAt args ptr length) where
  keeps := keeps_textAt args ptr length
  avoids c := ((looks_word args ptr).avoids c).bind fun _ c₁ _ =>
    ((looks_word args length).avoids c₁).bind fun _ _ _ =>
    onMemory_avoids fun m _ => Memory.readText_avoids _ _ m

theorem looks_buffersAt (args : List Value) (ptr count : Nat) : Looks (buffersAt args ptr count) where
  keeps := keeps_buffersAt args ptr count
  avoids c := ((looks_word args ptr).avoids c).bind fun _ c₁ _ =>
    ((looks_word args count).avoids c₁).bind fun _ _ _ =>
    onMemory_avoids fun m _ => Memory.iovecs_avoids _ _ m

/-! ### Steps behind what the host does -/

/-- The host changes as by operations on descriptors, and the step is not a defect as long as the
memory can be addressed. -/
structure Settles (x : SyscallM α) : Prop where
  follows : Follows x
  avoids : ∀ c, Addressable c → Avoids IsDefect x c

theorem settles_fail (e : Errno) : Settles (fail e : SyscallM α) where
  follows := follows_fail e
  avoids c _ := fail_avoids e c

theorem settles_onMemory {op : MemoryM α}
    (hop : ∀ m, m.size ≤ UInt32.size → Avoids IsDefect op m) : Settles (onMemory op) where
  follows := follows_onMemory op
  avoids _ hc := onMemory_avoids fun m hm => hop m (hc m hm)

theorem Settles.after (hx : Looks x) (hf : ∀ a, Settles (f a)) : Settles (x >>= f) where
  follows := follows_bind (follows_of_keeps hx.keeps) fun a => (hf a).follows
  avoids c hc := (hx.avoids c).bind fun a c' hok =>
    (hf a).avoids c' (hc.of_size (congrArg Prod.snd (hx.keeps.ok hok)))

/-- An operation on memory at the pointer that an argument gives. -/
theorem settles_atWord {op : UInt32 → MemoryM α}
    (hop : ∀ ptr m, m.size ≤ UInt32.size → Avoids IsDefect (op ptr) m) (args : List Value) (i : Nat) :
    Settles (do onMemory (op (← word args i))) :=
  .after (looks_word args i) fun ptr => settles_onMemory (hop ptr)

/-- What is stored goes before a word that is written. -/
theorem settles_storeAndCount {op : MemoryM Unit} (hk : Keeps Memory.size op)
    (hop : ∀ m, Avoids IsDefect op m) (args : List Value) (count : Nat) (n : UInt32) : Settles (do
      onMemory op
      onMemory (Memory.writeU32 (← word args count) n)) :=
  .after ⟨keeps_onMemory hk, fun _ => onMemory_avoids fun m _ => hop m⟩ fun _ =>
    settles_atWord (fun ptr m _ => Memory.writeU32_avoids ptr n m) args count

theorem settles_deliver (args : List Value) (iovs : List IoVec) (data : Bytes) (count : Nat) :
    Settles (deliver args iovs data count) :=
  settles_storeAndCount (Memory.keeps_scatter iovs data) (Memory.scatter_avoids iovs data) args count _

/-! ### Whole calls -/

/-- When all is ready, no step is a defect. -/
def Serves (x : SyscallM α) : Prop := ∀ c, Ready c → Avoids IsDefect x c

/-- The host changes as by operations on descriptors, and when all is ready, no step is a defect. -/
structure FollowsAndServes (x : SyscallM α) : Prop where
  follows : Follows x
  serves : Serves x

theorem Settles.followsAndServes (hx : Settles x) : FollowsAndServes x where
  follows := hx.follows
  serves c hc := hx.avoids c hc.memory

/-- Looking comes before. -/
theorem FollowsAndServes.after (hx : Looks x) (hf : ∀ a, FollowsAndServes (f a)) :
    FollowsAndServes (x >>= f) where
  follows := follows_bind (follows_of_keeps hx.keeps) fun a => (hf a).follows
  serves c hc := (hx.avoids c).bind fun a c' hok =>
    (hf a).serves c' (hc.of_layout (hx.keeps.ok hok))

section HostPart

variable {op : HostM α} (halters : Host.Alters op)
  (hop : ∀ h : Host, h.Fits → h.table.lowestFree < UInt32.size → Avoids IsDefect op h)

include halters hop

theorem followsAndServes_onHost : FollowsAndServes (onHost op) where
  follows := follows_onHost halters
  serves c hc := onHost_avoids (hop c.host hc.host hc.room)

/-- The host does its part, and memory is written to then. -/
theorem FollowsAndServes.before (hf : ∀ a, Settles (f a)) : FollowsAndServes (onHost op >>= f) where
  follows := follows_bind (follows_onHost halters) fun a => (hf a).follows
  serves c hc := (onHost_avoids (hop c.host hc.host hc.room)).bind fun a c' hok => by
    obtain ⟨h', -, rfl⟩ := onHost_ok hok
    exact (hf a).avoids _ hc.memory

end HostPart

theorem reported_elim {p : Prop} {e : Errno} (h : IsDefect (.reported e : SysFailure)) : p := h.elim

/-! ### Calls on handles and paths -/

/-- A call that comes back with an error number, or ends the guest. -/
def Returns (r : EStateM.Result Abort Caller Outcome) : Prop :=
  (∃ e c, r = .ok (answer e) c) ∨ ∃ code c, r = .error (.exit code) c

/-- The host changes by the call as by operations on descriptors, and when all is ready, the call
comes back. -/
structure ChangesAndReturns (i : Import) : Prop where
  changes : ∀ args (c : Caller), c.host.tree.WellFormed →
    Host.Changes c.host (left (i.body args c)).host
  returns : ∀ args c, Ready c → Returns (i.body args c)

theorem define_changesAndReturns {name : String} {params : List ValueType}
    {body : List Value → SyscallM Unit} (hs : ∀ args, FollowsAndServes (body args)) :
    ChangesAndReturns (define name params body) where
  changes args c ht := by
    show Host.Changes c.host (left (run body args c)).host
    rw [left_run]
    exact (hs args).follows c ht
  returns args c hc := by
    show Returns (run body args c)
    unfold run
    cases hrun : body args c with
    | ok u c' => exact Or.inl ⟨.success, c', rfl⟩
    | error e c' =>
      cases e with
      | reported e => exact Or.inl ⟨e, c', rfl⟩
      | defect d => exact absurd trivial ((hs args).serves c hc _ _ hrun)

theorem followsAndServes_pathOpen (args : List Value) : FollowsAndServes (pathOpen args) :=
  .after (looks_handle args 0) fun dirfd => .after (looks_halfWord args 4) fun flags =>
    .after (looks_longWord args 5) fun rights => .after (looks_longWord args 6) fun inheriting =>
    .after (looks_halfWord args 7) fun descriptorFlags => .after (looks_word args 8) fun _ =>
    .after looks_requireMemory fun _ => .after (looks_textAt args 2 3) fun path =>
    .before (Host.alters_openPath dirfd path ⟨flags⟩ ⟨rights⟩ ⟨inheriting⟩ ⟨descriptorFlags⟩)
      (fun _ _ hroom => Host.avoids_openPath (fun _ => reported_elim) reported_elim
        (fun _ _ => hroom) path _ _ _ _)
      fun _ => settles_onMemory fun m _ => Memory.writeU32_avoids _ _ m

theorem followsAndServes_fdRead (args : List Value) : FollowsAndServes (fdRead args) :=
  .after (looks_handle args 0) fun fd => .after looks_requireMemory fun _ =>
    .after (looks_buffersAt args 1 2) fun iovs =>
    .after (looks_onMemory (Memory.keeps_requireIovecs iovs) (Memory.requireIovecs_avoids iovs)) fun _ =>
    .before (Host.alters_read fd _)
      (fun _ hfit _ => Host.avoids_read (fun _ => reported_elim) reported_elim (fun _ _ => hfit) _)
      fun data => settles_deliver args iovs data 3

theorem followsAndServes_fdPread (args : List Value) : FollowsAndServes (fdPread args) :=
  .after (looks_handle args 0) fun fd => .after (looks_longWord args 3) fun _ =>
    .after looks_requireMemory fun _ => .after (looks_buffersAt args 1 2) fun iovs =>
    .after (looks_onMemory (Memory.keeps_requireIovecs iovs) (Memory.requireIovecs_avoids iovs)) fun _ =>
    .before (Host.alters_of_keeps (Host.keeps_readAt fd _ _))
      (fun _ hfit _ => Host.avoids_readAt (fun _ => reported_elim) reported_elim (fun _ _ => hfit) _ _)
      fun data => settles_deliver args iovs data 4

theorem followsAndServes_fdWrite (args : List Value) : FollowsAndServes (fdWrite args) :=
  .after (looks_handle args 0) fun fd => .after looks_requireMemory fun _ =>
    .after (looks_buffersAt args 1 2) fun iovs =>
    .after (looks_onMemory (Memory.keeps_gather iovs) (Memory.gather_avoids iovs)) fun data =>
    .before (Host.alters_write fd data)
      (fun _ _ _ => Host.avoids_write (fun _ => reported_elim) reported_elim data)
      fun _ => settles_atWord (fun _ m _ => Memory.writeU32_avoids _ _ m) args 3

theorem followsAndServes_fdPwrite (args : List Value) : FollowsAndServes (fdPwrite args) :=
  .after (looks_handle args 0) fun fd => .after (looks_longWord args 3) fun _ =>
    .after looks_requireMemory fun _ => .after (looks_buffersAt args 1 2) fun iovs =>
    .after (looks_onMemory (Memory.keeps_gather iovs) (Memory.gather_avoids iovs)) fun data =>
    .before (Host.alters_writeAt fd data _)
      (fun _ _ _ => Host.avoids_writeAt (fun _ => reported_elim) reported_elim data _)
      fun _ => settles_atWord (fun _ m _ => Memory.writeU32_avoids _ _ m) args 4

theorem followsAndServes_fdSeek (args : List Value) : FollowsAndServes (fdSeek args) := by
  refine .after (looks_handle args 0) fun fd => .after (looks_longWord args 1) fun offset =>
    .after (looks_word args 2) fun base => ?_
  split
  · exact (settles_fail _).followsAndServes
  · exact .after looks_requireMemory fun _ => .before (Host.alters_seek fd _ _)
      (fun _ _ _ => Host.avoids_seek (fun _ => reported_elim) reported_elim _ _)
      fun _ => settles_atWord (fun _ m _ => Memory.writeU64_avoids _ _ m) args 3

theorem followsAndServes_fdTell (args : List Value) : FollowsAndServes (fdTell args) :=
  .after (looks_handle args 0) fun fd => .after looks_requireMemory fun _ =>
    .before (Host.alters_of_keeps (Host.keeps_tell fd))
      (fun _ _ _ => Host.avoids_tell (fun _ => reported_elim) reported_elim)
      fun _ => settles_atWord (fun _ m _ => Memory.writeU64_avoids _ _ m) args 1

theorem followsAndServes_fdClose (args : List Value) : FollowsAndServes (fdClose args) :=
  .after (looks_handle args 0) fun fd => .after looks_requireMemory fun _ =>
    followsAndServes_onHost (Host.alters_close fd) fun _ _ _ => Host.avoids_close reported_elim

theorem followsAndServes_fdFilestatGet (args : List Value) : FollowsAndServes (fdFilestatGet args) :=
  .after (looks_handle args 0) fun fd => .after looks_requireMemory fun _ =>
    .before (Host.alters_of_keeps (Host.keeps_filestat fd))
      (fun _ _ _ => Host.avoids_filestat reported_elim)
      fun stat => settles_atWord (fun ptr _ hm => stat.writes.avoids ptr hm) args 1

theorem followsAndServes_pathFilestatGet (args : List Value) : FollowsAndServes (pathFilestatGet args) :=
  .after (looks_handle args 0) fun dirfd => .after looks_requireMemory fun _ =>
    .after (looks_textAt args 2 3) fun path =>
    .before (Host.alters_of_keeps (Host.keeps_pathFilestat dirfd path))
      (fun _ _ _ => Host.avoids_pathFilestat (fun _ => reported_elim) reported_elim path)
      fun stat => settles_atWord (fun ptr _ hm => stat.writes.avoids ptr hm) args 4

theorem followsAndServes_fdFdstatGet (args : List Value) : FollowsAndServes (fdFdstatGet args) :=
  .after (looks_handle args 0) fun fd => .after looks_requireMemory fun _ =>
    .before (Host.alters_of_keeps (Host.keeps_fdstat fd))
      (fun _ _ _ => Host.avoids_fdstat reported_elim)
      fun stat => settles_atWord (fun ptr _ hm => stat.writes.avoids ptr hm) args 1

theorem followsAndServes_fdFdstatSetFlags (args : List Value) : FollowsAndServes (fdFdstatSetFlags args) :=
  .after (looks_handle args 0) fun fd => .after (looks_halfWord args 1) fun flags =>
    .after looks_requireMemory fun _ =>
    followsAndServes_onHost (Host.alters_setFlags fd ⟨flags⟩) fun _ _ _ =>
      Host.avoids_setFlags reported_elim _

theorem followsAndServes_fdPrestatGet (args : List Value) : FollowsAndServes (fdPrestatGet args) :=
  .after (looks_handle args 0) fun fd => .after looks_requireMemory fun _ =>
    .before (Host.alters_of_keeps (Host.keeps_prestat fd))
      (fun _ _ _ => Host.avoids_prestat reported_elim reported_elim)
      fun _ => settles_atWord (fun ptr _ hm => (Prestat.writes _).avoids ptr hm) args 1

theorem followsAndServes_fdPrestatDirName (args : List Value) :
    FollowsAndServes (fdPrestatDirName args) := by
  refine .after (looks_handle args 0) fun fd => .after (looks_word args 1) fun ptr =>
    .after (looks_word args 2) fun room => .after looks_requireMemory fun _ =>
    .before (Host.alters_of_keeps (Host.keeps_prestat fd))
      (fun _ _ _ => Host.avoids_prestat reported_elim reported_elim) fun name => ?_
  dsimp only
  split
  · exact settles_fail _
  · next hroom =>
    have hname := Nat.lt_of_le_of_lt (Nat.le_of_not_lt hroom) room.toNat_lt
    exact settles_onMemory fun m _ => Memory.storeAll_avoids hname ptr m

theorem followsAndServes_fdReaddir (args : List Value) : FollowsAndServes (fdReaddir args) := by
  refine .after (looks_handle args 0) fun fd => .after (looks_word args 1) fun ptr =>
    .after (looks_word args 2) fun room => .after (looks_longWord args 3) fun cookie =>
    .after looks_requireMemory fun _ =>
    .before (Host.alters_of_keeps (Host.keeps_readDirectory fd))
      (fun _ _ _ => Host.avoids_readDirectory (fun _ => reported_elim) reported_elim)
      fun entries => ?_
  -- The page is no longer than the room for it.
  have hpage : ((fillPage cookie.toNat room.toNat 0 [] entries).take room.toNat).length <
      UInt32.size :=
    Nat.lt_of_le_of_lt (List.length_take_le ..) room.toNat_lt
  exact settles_storeAndCount (Memory.keeps_store _ _ _) (Memory.storeAll_avoids hpage ptr) args 4 _

theorem followsAndServes_pathCreateDirectory (args : List Value) :
    FollowsAndServes (pathCreateDirectory args) :=
  .after (looks_handle args 0) fun dirfd => .after looks_requireMemory fun _ =>
    .after (looks_textAt args 1 2) fun path =>
    followsAndServes_onHost (Host.alters_makeDirectory dirfd path) fun _ _ _ =>
      Host.avoids_makeDirectory (fun _ => reported_elim) reported_elim path

theorem files_changeAndReturn : ∀ i ∈ files.imports, ChangesAndReturns i := by
  unfold files
  simp only [List.forall_mem_cons, List.not_mem_nil, IsEmpty.forall_iff, implies_true, and_true]
  exact ⟨define_changesAndReturns followsAndServes_pathOpen,
    define_changesAndReturns followsAndServes_fdRead, define_changesAndReturns followsAndServes_fdPread,
    define_changesAndReturns followsAndServes_fdWrite,
    define_changesAndReturns followsAndServes_fdPwrite,
    define_changesAndReturns followsAndServes_fdSeek,
    define_changesAndReturns followsAndServes_fdTell,
    define_changesAndReturns followsAndServes_fdClose,
    define_changesAndReturns followsAndServes_fdFilestatGet,
    define_changesAndReturns followsAndServes_pathFilestatGet,
    define_changesAndReturns followsAndServes_fdFdstatGet,
    define_changesAndReturns followsAndServes_fdFdstatSetFlags,
    define_changesAndReturns followsAndServes_fdPrestatGet,
    define_changesAndReturns followsAndServes_fdPrestatDirName,
    define_changesAndReturns followsAndServes_fdReaddir,
    define_changesAndReturns followsAndServes_pathCreateDirectory⟩

/-! ### Other calls -/

theorem tableCalls_changeAndReturn {t : StringTable} (ht : t.Fits) (sizesName getName : String) :
    ∀ i ∈ tableCalls sizesName getName t, ChangesAndReturns i := by
  unfold tableCalls
  simp only [List.forall_mem_cons, List.not_mem_nil, IsEmpty.forall_iff, implies_true, and_true]
  refine ⟨define_changesAndReturns fun args => ?_, define_changesAndReturns fun args => ?_⟩
  · exact .after looks_requireMemory fun _ => .after (looks_word args 0) fun _ =>
      (settles_atWord (fun _ m _ => t.writeSizes_avoids _ _ m) args 1).followsAndServes
  · exact .after looks_requireMemory fun _ => .after (looks_word args 0) fun _ =>
      (settles_atWord (fun _ m _ => StringTable.write_avoids ht _ _ m) args 1).followsAndServes

theorem alters_draw (count : Nat) : Host.Alters (draw count) := fun h _ =>
  (Host.Change.aside rfl rfl rfl rfl : Host.Change h (left (draw count h))).changes

/-- No more octets are drawn than were asked for. -/
theorem length_draw_le {count : Nat} {h h' : Host} {data : Bytes} (hd : draw count h = .ok data h') :
    data.length ≤ count := by
  cases hd
  rw [List.length_map]
  refine Nat.le_trans (List.takeWhile_sublist _).length_le (Nat.le_of_eq ?_)
  rw [List.length_map, List.length_range]

theorem followsAndServes_randomGet (args : List Value) : FollowsAndServes (randomGet args) := by
  refine .after (looks_word args 0) fun ptr => .after (looks_word args 1) fun length =>
    .after looks_requireMemory fun _ =>
    .after (looks_onMemory (Memory.keeps_requireRange ptr length)
      (Memory.requireRange_avoids ptr length)) fun _ => ⟨?_, fun c _ => ?_⟩
  · exact follows_bind (follows_onHost (alters_draw length.toNat)) fun data =>
      follows_bind (follows_onMemory _) fun _ => follows_of_keeps (keeps_ite (keeps_fail .io) (keeps_pure ()))
  · -- No more octets are drawn than there is room for.
    refine (onHost_avoids (avoids_modifyGet _ c.host)).bind fun data c' hok => ?_
    obtain ⟨h, hd, -⟩ := onHost_ok hok
    have hlt : data.length < UInt32.size := Nat.lt_of_le_of_lt (length_draw_le hd) length.toNat_lt
    exact (onMemory_avoids fun m _ => Memory.storeAll_avoids hlt ptr m).bind fun _ c'' _ =>
      avoids_ite (fun _ => fail_avoids .io c'') fun _ => avoids_pure () c''

/-- A reading of a clock is taken from the surroundings. -/
theorem alters_readClock (id : ClockId) : Host.Alters (readClock id) := fun h _ => by
  refine Host.changes_bind ?_ fun s h' _ => Host.changes_of_keeps ?_ h'
  · exact (Host.Change.aside rfl rfl rfl rfl : Host.Change h { h with surroundings :=
      { h.surroundings with readings := h.surroundings.readings + 1 } }).changes
  split
  · exact keeps_pure _
  · exact Host.keeps_fail _

theorem readClock_avoids (clock : ClockId) (h : Host) : Avoids IsDefect (readClock clock) h := by
  refine (avoids_modifyGet _ h).bind fun s h' _ => ?_
  split
  · exact avoids_pure _ h'
  · exact avoids_throw id h'

theorem looks_clockId (args : List Value) (i : Nat) : Looks (clockId args i) where
  keeps := keeps_clockId args i
  avoids c := by
    refine ((looks_word args i).avoids c).bind fun _ c' _ => ?_
    split
    · exact avoids_pure _ c'
    · exact fail_avoids _ c'

theorem followsAndServes_clockTimeGet (args : List Value) : FollowsAndServes (clockTimeGet args) :=
  .after (looks_clockId args 0) fun id =>
    .before (alters_readClock id) (fun h _ _ => readClock_avoids id h) fun _ =>
    .after (looks_word args 2) fun _ => .after looks_requireMemory fun _ =>
    settles_onMemory fun m _ => Memory.writeU64_avoids _ _ m

theorem followsAndServes_clockResGet (args : List Value) : FollowsAndServes (clockResGet args) :=
  .after (looks_clockId args 0) fun _ => .after (looks_word args 1) fun _ =>
    .after looks_requireMemory fun _ =>
    (settles_onMemory fun m _ => Memory.writeU64_avoids _ _ m).followsAndServes

/-- An exit is a call that does not come back to the guest, and changes nothing. -/
theorem exit_changesAndReturns {id : ImportId} {signature : Signature} {code : List Value → Int32} :
    ChangesAndReturns ⟨id, signature, fun args => throw (.exit (code args))⟩ where
  changes _ c _ := .refl c.host
  returns args c _ := Or.inr ⟨code args, c, rfl⟩

end Syscall

/-! ### All calls of a host -/

namespace HostSetup

open Syscall

/-- What a host is set up from is of a size that words can count: the tables of arguments and
variables, every file, and standard input. The tree has grown from the empty one. -/
structure Moderate (s : HostSetup) : Prop where
  grown : ∃ ops, s.tree = FileTree.empty.run ops
  files : ∀ q content, s.tree.pathMap q = some (.file content) →
    content.length ≤ Content.maxFileSize
  stdin : s.stdin.length < UInt64.size
  args : (StringTable.ofList s.args).Fits
  env : (StringTable.ofList (Environment.strings s.env)).Fits

/-- **Every system call changes the host as operations do, and returns.** -/
theorem builtins_changeAndReturn {s : HostSetup} (hs : s.Moderate) :
    ∀ p ∈ s.builtins, ∀ i ∈ p.imports, ChangesAndReturns i := by
  unfold builtins
  simp only [List.forall_mem_cons, List.not_mem_nil, IsEmpty.forall_iff, implies_true, and_true]
  refine ⟨tableCalls_changeAndReturn hs.args _ _, tableCalls_changeAndReturn hs.env _ _, ?_, ?_, ?_,
    files_changeAndReturn⟩
  · exact List.forall_mem_singleton.mpr (define_changesAndReturns followsAndServes_randomGet)
  · exact List.forall_mem_cons.mpr ⟨define_changesAndReturns followsAndServes_clockTimeGet,
      List.forall_mem_singleton.mpr (define_changesAndReturns followsAndServes_clockResGet)⟩
  · exact List.forall_mem_cons.mpr ⟨exit_changesAndReturns, List.forall_mem_singleton.mpr
      (define_changesAndReturns fun _ =>
      ⟨follows_pure (), fun c _ => avoids_pure () c⟩)⟩

end HostSetup

/-- A call of a system call, with arguments and a memory that the guest may have filled in any way. -/
structure BuiltinCall (s : HostSetup) where
  target : Import
  builtin : ∃ p ∈ s.builtins, target ∈ p.imports
  args : List Value
  memory : Option Memory
  addressable : ∀ m, memory = some m → m.size ≤ UInt32.size

namespace BuiltinCall

variable {s : HostSetup}

/-- What comes of the call in a host. -/
def answer (call : BuiltinCall s) (h : Host) : EStateM.Result Abort Caller Outcome :=
  call.target.body call.args ⟨call.memory, h⟩

/-- The host that the calls leave, one after the other. -/
def after (h : Host) (calls : List (BuiltinCall s)) : Host :=
  calls.foldl (fun h call => (left (call.answer h)).host) h

theorem after_fits (hs : s.Moderate) {h : Host} (hf : h.Fits) (calls : List (BuiltinCall s)) :
    (after h calls).Fits := by
  induction calls generalizing h with
  | nil => exact hf
  | cons call calls ih =>
    obtain ⟨p, hp, hi⟩ := call.builtin
    have hreturns := s.builtins_changeAndReturn hs p hp call.target hi
    exact ih ((hreturns.changes call.args ⟨call.memory, h⟩ hf.tree).fits hf)

/-- **No sequence of system calls reaches a defect.** Whatever has been called before, with whatever
arguments and contents of memory, and whatever came of it: as long as fewer handles are open than there
are to give out, the next call comes back with an error number or ends the guest. -/
theorem returns_or_exits (hs : s.Moderate) (surroundings : Surroundings) (calls : List (BuiltinCall s))
    (call : BuiltinCall s)
    (hopen : (after (.new s.tree s.stdin surroundings) calls).table.size <
      UInt32.size - DescriptorTable.firstHandle) :
    Syscall.Returns (call.answer (after (.new s.tree s.stdin surroundings) calls)) := by
  obtain ⟨ops, hgrown⟩ := hs.grown
  have ht : s.tree.Counted [s.tree.root] := hgrown ▸ FileTree.counted_empty.run ops
  obtain ⟨p, hp, hi⟩ := call.builtin
  have hreturns := s.builtins_changeAndReturn hs p hp call.target hi
  exact hreturns.returns call.args _ ⟨after_fits hs (Host.fits_new ht hs.files hs.stdin surroundings) calls,
    DescriptorTable.lowestFree_lt hopen, call.addressable⟩

/-- A guest with five octets on standard input. -/
def greeted : HostSetup := { args := ["guest"], stdin := [104, 101, 108, 108, 111] }

theorem greeted_moderate : greeted.Moderate where
  grown := ⟨[], rfl⟩
  files q content hq := by
    rw [show greeted.tree = FileTree.empty from rfl, FileTree.pathMap_empty] at hq
    dsimp only at hq
    split at hq <;> cases hq
  stdin := by decide
  args := ⟨by decide, by decide⟩
  env := ⟨by decide, by decide⟩

/-- A read of standard input into the memory of `reader`. -/
def readGreeting : BuiltinCall greeted where
  target := Syscall.define "fd_read" [.i32, .i32, .i32, .i32] Syscall.fdRead
  builtin := ⟨Syscall.files, by simp [HostSetup.builtins], by simp [Syscall.files]⟩
  args := [.i32 0, .i32 0, .i32 1, .i32 8]
  memory := Syscall.reader.memory
  addressable m hm := by
    cases hm
    decide

theorem readGreeting_returns : Syscall.Returns
    (readGreeting.answer (after Syscall.reader.host [readGreeting])) :=
  returns_or_exits greeted_moderate _ [readGreeting] readGreeting (by decide +kernel)

end BuiltinCall

end WasiSandbox
