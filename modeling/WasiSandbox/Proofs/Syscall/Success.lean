import WasiSandbox.Proofs.Syscall.Defects

/-! # What an answer of success means

A system call answers with the number of an error, and zero is the number of success. No step of the calls
that transfer data fails with success for its error, so the number is not zero if one fails (`FailsNonzero`). If
such a call answers that it has succeeded, its body has come to its end (`run_success`). -/

namespace WasiSandbox

/-- No failure of the step is reported as success. -/
def FailsNonzero {σ α : Type} (x : EStateM SysFailure σ α) : Prop :=
  ∀ s, Avoids (· = .reported .success) x s

section FailsNonzero

variable {σ α β : Type} {x : EStateM SysFailure σ α} {f : α → EStateM SysFailure σ β} {e : SysFailure}

theorem failsNonzero_pure (a : α) : FailsNonzero (pure a : EStateM SysFailure σ α) :=
  fun s => avoids_pure a s

theorem failsNonzero_throw (he : e ≠ .reported .success) :
    FailsNonzero (throw e : EStateM SysFailure σ α) := by
  intro s e' s' h
  cases h
  exact he

theorem failsNonzero_bind (hx : FailsNonzero x) (hf : ∀ a, FailsNonzero (f a)) : FailsNonzero (x >>= f) :=
  fun s => (hx s).bind fun a s' _ => hf a s'

/-- What is looked up in the state may say how the step goes on. -/
theorem failsNonzero_get_bind {f : σ → EStateM SysFailure σ α} (hf : ∀ s, FailsNonzero (f s)) :
    FailsNonzero (get >>= f) := fun s => avoids_get_bind (hf s s)

theorem failsNonzero_ite {c : Prop} [Decidable c] {y : EStateM SysFailure σ α} (hx : FailsNonzero x)
    (hy : FailsNonzero y) : FailsNonzero (if c then x else y) := by
  split
  · exact hx
  · exact hy

theorem failsNonzero_forM {f : α → EStateM SysFailure σ PUnit} (hf : ∀ a, FailsNonzero (f a))
    (as : List α) :
    FailsNonzero (as.forM f) := fun s => avoids_forM hf as s

end FailsNonzero

/-! ### Memory -/

namespace Memory

theorem failsNonzero_ofChecked {α : Type} (c : Checked α) : FailsNonzero (ofChecked c) := by
  cases c with
  | ok a => exact failsNonzero_pure a
  | error d => exact failsNonzero_throw nofun

theorem range_error_eq {m : Memory} {ptr length : UInt32} {e : SysFailure}
    (h : m.range ptr length = .error e) : e = .reported .fault := by
  unfold range at h
  split at h <;> cases h
  rfl

theorem failsNonzero_slice (ptr length : UInt32) : FailsNonzero (slice ptr length) := by
  intro m e m' h
  unfold slice at h
  cases hrange : m.range ptr length with
  | error e' =>
    rw [hrange] at h
    cases h
    rw [range_error_eq hrange]
    decide
  | ok r =>
    rw [hrange] at h
    dsimp only at h
    split at h <;> cases h
    exact nofun

theorem failsNonzero_store (ptr length : UInt32) (data : Bytes) : FailsNonzero (store ptr length data) := by
  intro m e m' h
  unfold store at h
  cases hrange : m.range ptr length with
  | error e' =>
    rw [hrange] at h
    cases h
    rw [range_error_eq hrange]
    decide
  | ok r =>
    rw [hrange] at h
    dsimp only at h
    split at h <;> cases h
    exact nofun

theorem failsNonzero_requireRange (ptr length : UInt32) : FailsNonzero (requireRange ptr length) := by
  refine failsNonzero_get_bind fun m => ?_
  cases hrange : m.range ptr length with
  | error e =>
    rw [range_error_eq hrange]
    exact failsNonzero_throw (by decide)
  | ok r => exact failsNonzero_pure ()

theorem failsNonzero_iovecs (ptr count : UInt32) : FailsNonzero (iovecs ptr count) :=
  failsNonzero_ite (failsNonzero_throw (by decide))
    (failsNonzero_bind (failsNonzero_slice _ _) fun _ => failsNonzero_pure _)

theorem failsNonzero_gather (iovs : List IoVec) : FailsNonzero (gather iovs) := by
  induction iovs with
  | nil => exact failsNonzero_pure _
  | cons v iovs ih =>
    exact failsNonzero_bind (failsNonzero_slice _ _) fun _ => failsNonzero_bind ih fun _ =>
      failsNonzero_pure _

theorem failsNonzero_requireIovecs (iovs : List IoVec) : FailsNonzero (requireIovecs iovs) :=
  failsNonzero_forM (fun v : IoVec => failsNonzero_requireRange v.ptr v.length) iovs

theorem failsNonzero_scatter (iovs : List IoVec) (data : Bytes) : FailsNonzero (scatter iovs data) := by
  induction iovs generalizing data with
  | nil => exact failsNonzero_pure ()
  | cons v iovs ih =>
    exact failsNonzero_ite (failsNonzero_pure ()) (failsNonzero_bind (failsNonzero_ofChecked _) fun _ =>
      failsNonzero_bind (failsNonzero_store _ _ _) fun _ => ih _)

end Memory

/-! ### The host -/

namespace Host

variable {α : Type}

theorem failsNonzero_ofChecked (c : Checked α) : FailsNonzero (ofChecked c : HostM α) := by
  cases c with
  | ok a => exact failsNonzero_pure a
  | error d => exact failsNonzero_throw nofun

theorem failsNonzero_modify (g : Host → Host) : FailsNonzero (modify g : HostM Unit) :=
  fun h => avoids_modify g h

/-- Every error of the tree has a number, and none has that of success. -/
theorem failsNonzero_onTree (op : TreeM α) : FailsNonzero (onTree op) := by
  intro h e h' hfail
  obtain ⟨e', t, -, rfl, -⟩ := onTree_error hfail
  cases e' with
  | defect d => exact nofun
  | reported e' => cases e' <;> exact nofun

theorem failsNonzero_descriptor (fd : Nat) : FailsNonzero (descriptor fd) := by
  refine failsNonzero_get_bind fun h => ?_
  split
  · exact failsNonzero_pure _
  · exact failsNonzero_throw (by decide)

theorem failsNonzero_requireRight (d : Descriptor) (right : Rights) : FailsNonzero (requireRight d right) :=
  failsNonzero_ite (failsNonzero_pure ()) (failsNonzero_throw (by decide))

theorem failsNonzero_requireAlive (n : NodeId) : FailsNonzero (requireAlive n) :=
  failsNonzero_get_bind fun _ => failsNonzero_ite (failsNonzero_pure ()) (failsNonzero_throw (by decide))

theorem failsNonzero_readNode (n : NodeId) (offset length : Nat) :
    FailsNonzero (readNode n offset length) := by
  refine failsNonzero_bind (failsNonzero_requireAlive n) fun _ => failsNonzero_get_bind fun h => ?_
  split
  · exact failsNonzero_ofChecked _
  · exact failsNonzero_throw (by decide)

theorem failsNonzero_onContent (n : NodeId) (op : TreeM (Option α)) : FailsNonzero (onContent n op) := by
  refine failsNonzero_bind (failsNonzero_requireAlive n) fun _ =>
    failsNonzero_bind (failsNonzero_onTree op) fun a => ?_
  split
  · exact failsNonzero_pure _
  · exact failsNonzero_throw (by decide)

theorem failsNonzero_read (fd length : Nat) : FailsNonzero (read fd length) := by
  refine failsNonzero_bind (failsNonzero_descriptor fd) fun d =>
    failsNonzero_bind (failsNonzero_requireRight d _) fun _ => ?_
  have hmove : ∀ data : Bytes, FailsNonzero (do
      let cursor ← ofChecked (Checked.add 64 d.cursor data.length)
      setDescriptor fd { d with cursor := cursor }
      return data) := fun data =>
    failsNonzero_bind (failsNonzero_ofChecked _) fun _ =>
      failsNonzero_bind (failsNonzero_modify _) fun _ => failsNonzero_pure _
  dsimp only
  split
  · exact failsNonzero_get_bind fun h => failsNonzero_bind (failsNonzero_ofChecked _) hmove
  · exact failsNonzero_bind (failsNonzero_throw (by decide)) hmove
  · exact failsNonzero_bind (failsNonzero_throw (by decide)) hmove
  · exact failsNonzero_bind (failsNonzero_throw (by decide)) hmove
  · exact failsNonzero_bind (failsNonzero_readNode _ _ _) hmove

theorem failsNonzero_readAt (fd length offset : Nat) : FailsNonzero (readAt fd length offset) := by
  refine failsNonzero_bind (failsNonzero_descriptor fd) fun d =>
    failsNonzero_bind (failsNonzero_requireRight d _) fun _ => ?_
  split
  · exact failsNonzero_readNode _ _ _
  · exact failsNonzero_throw (by decide)
  · exact failsNonzero_throw (by decide)

theorem failsNonzero_write (fd : Nat) (data : Bytes) : FailsNonzero (write fd data) := by
  refine failsNonzero_bind (failsNonzero_descriptor fd) fun d =>
    failsNonzero_bind (failsNonzero_requireRight d _) fun _ => ?_
  dsimp only
  split
  · exact failsNonzero_bind (failsNonzero_modify _) fun _ => failsNonzero_pure _
  · exact failsNonzero_bind (failsNonzero_modify _) fun _ => failsNonzero_pure _
  · exact failsNonzero_bind (failsNonzero_throw (by decide)) fun _ => failsNonzero_pure _
  · exact failsNonzero_bind (failsNonzero_throw (by decide)) fun _ => failsNonzero_pure _
  · split
    · exact failsNonzero_bind (failsNonzero_onContent _ _) fun _ =>
        failsNonzero_bind (failsNonzero_modify _) fun _ => failsNonzero_pure _
    · exact failsNonzero_bind (failsNonzero_onContent _ _) fun _ =>
      failsNonzero_bind (failsNonzero_ofChecked _) fun _ =>
        failsNonzero_bind (failsNonzero_modify _) fun _ => failsNonzero_pure _

theorem failsNonzero_writeAt (fd : Nat) (data : Bytes) (offset : Nat) :
    FailsNonzero (writeAt fd data offset) := by
  refine failsNonzero_bind (failsNonzero_descriptor fd) fun d =>
    failsNonzero_bind (failsNonzero_requireRight d _) fun _ => ?_
  split
  · exact failsNonzero_onContent _ _
  · exact failsNonzero_throw (by decide)
  · exact failsNonzero_throw (by decide)

end Host

/-! ### System calls -/

namespace Syscall

variable {α : Type} {c c' : Caller} {args : List Value}

theorem failsNonzero_onMemory {op : MemoryM α} (hop : FailsNonzero op) : FailsNonzero (onMemory op) := by
  intro c e c' h
  cases hm : c.memory with
  | none =>
    unfold onMemory at h
    rw [hm] at h
    cases h
    exact nofun
  | some m =>
    obtain ⟨m', hrun, -⟩ := onMemory_error hm h
    exact hop m e m' hrun

theorem failsNonzero_onHost {op : HostM α} (hop : FailsNonzero op) : FailsNonzero (onHost op) := by
  intro c e c' h
  unfold onHost at h
  split at h
  · cases h
  · next hrun =>
    cases h
    exact hop _ _ _ hrun

theorem failsNonzero_word (args : List Value) (i : Nat) : FailsNonzero (word args i) := by
  unfold word
  split
  · exact failsNonzero_pure _
  · exact failsNonzero_throw (by decide)

theorem failsNonzero_longWord (args : List Value) (i : Nat) : FailsNonzero (longWord args i) := by
  unfold longWord
  split
  · exact failsNonzero_pure _
  · exact failsNonzero_throw (by decide)

theorem failsNonzero_handle (args : List Value) (i : Nat) : FailsNonzero (handle args i) :=
  failsNonzero_bind (failsNonzero_word args i) fun _ => failsNonzero_pure _

theorem failsNonzero_requireMemory : FailsNonzero requireMemory :=
  failsNonzero_onMemory (failsNonzero_pure ())

theorem failsNonzero_buffersAt (args : List Value) (ptr count : Nat) :
    FailsNonzero (buffersAt args ptr count) :=
  failsNonzero_bind (failsNonzero_word args ptr) fun _ =>
    failsNonzero_bind (failsNonzero_word args count) fun _ =>
    failsNonzero_onMemory (Memory.failsNonzero_iovecs _ _)

/-- A word is written at the pointer that an argument gives. -/
theorem failsNonzero_writeWord (args : List Value) (i : Nat) (n : UInt32) :
    FailsNonzero (do onMemory (Memory.writeU32 (← word args i) n)) :=
  failsNonzero_bind (failsNonzero_word args i) fun _ =>
    failsNonzero_onMemory (Memory.failsNonzero_store _ _ _)

theorem failsNonzero_deliver (args : List Value) (iovs : List IoVec) (data : Bytes) (count : Nat) :
    FailsNonzero (deliver args iovs data count) :=
  failsNonzero_bind (failsNonzero_onMemory (Memory.failsNonzero_scatter iovs data)) fun _ =>
    failsNonzero_writeWord args count _

theorem failsNonzero_fdRead (args : List Value) : FailsNonzero (fdRead args) :=
  failsNonzero_bind (failsNonzero_handle args 0) fun _ =>
    failsNonzero_bind failsNonzero_requireMemory fun _ =>
    failsNonzero_bind (failsNonzero_buffersAt args 1 2) fun iovs =>
    failsNonzero_bind (failsNonzero_onMemory (Memory.failsNonzero_requireIovecs iovs)) fun _ =>
    failsNonzero_bind (failsNonzero_onHost (Host.failsNonzero_read _ _)) fun data =>
      failsNonzero_deliver args iovs data 3

theorem failsNonzero_fdPread (args : List Value) : FailsNonzero (fdPread args) :=
  failsNonzero_bind (failsNonzero_handle args 0) fun _ =>
    failsNonzero_bind (failsNonzero_longWord args 3) fun _ =>
    failsNonzero_bind failsNonzero_requireMemory fun _ =>
      failsNonzero_bind (failsNonzero_buffersAt args 1 2) fun iovs =>
    failsNonzero_bind (failsNonzero_onMemory (Memory.failsNonzero_requireIovecs iovs)) fun _ =>
    failsNonzero_bind (failsNonzero_onHost (Host.failsNonzero_readAt _ _ _)) fun data =>
      failsNonzero_deliver args iovs data 4

theorem failsNonzero_fdWrite (args : List Value) : FailsNonzero (fdWrite args) :=
  failsNonzero_bind (failsNonzero_handle args 0) fun _ =>
    failsNonzero_bind failsNonzero_requireMemory fun _ =>
    failsNonzero_bind (failsNonzero_buffersAt args 1 2) fun iovs =>
    failsNonzero_bind (failsNonzero_onMemory (Memory.failsNonzero_gather iovs)) fun _ =>
    failsNonzero_bind (failsNonzero_onHost (Host.failsNonzero_write _ _)) fun _ =>
      failsNonzero_writeWord args 3 _

theorem failsNonzero_fdPwrite (args : List Value) : FailsNonzero (fdPwrite args) :=
  failsNonzero_bind (failsNonzero_handle args 0) fun _ =>
    failsNonzero_bind (failsNonzero_longWord args 3) fun _ =>
    failsNonzero_bind failsNonzero_requireMemory fun _ =>
      failsNonzero_bind (failsNonzero_buffersAt args 1 2) fun iovs =>
    failsNonzero_bind (failsNonzero_onMemory (Memory.failsNonzero_gather iovs)) fun _ =>
    failsNonzero_bind (failsNonzero_onHost (Host.failsNonzero_writeAt _ _ _)) fun _ =>
      failsNonzero_writeWord args 4 _

/-- **Success is answered** by a body that has come to its end. -/
theorem run_success {body : List Value → SyscallM Unit} (hbody : FailsNonzero (body args))
    (h : run body args c = .ok (answer .success) c') : body args c = .ok () c' := by
  unfold run at h
  cases hrun : body args c with
  | ok u c₁ =>
    rw [hrun] at h
    cases h
    rfl
  | error e c₁ =>
    rw [hrun] at h
    cases e with
    | defect d => cases h
    | reported e =>
      have he : e = .success := answer_injective (EStateM.Result.ok.inj h).1
      rw [he] at hrun
      exact absurd rfl (hbody c _ _ hrun)

end Syscall

end WasiSandbox
