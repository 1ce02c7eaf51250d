import WasiSandbox.Memory.IoVec
import WasiSandbox.Proofs.Runs

/-! # The bounds of linear memory

No access changes how large the memory is, whatever comes of it. So a range that lies inside once
lies inside for good: what was checked before a call does its work can be relied on when its results
are delivered (`scatter_fault`). -/

namespace WasiSandbox

namespace Memory

variable {m m' : Memory} {ptr length : UInt32} {data : Bytes} {iovs : List IoVec}

/-! ### The size stays -/

theorem size_pasteFrom (a : Array UInt8) (start : Nat) (data : Bytes) :
    (pasteFrom a start data).size = a.size := by
  induction data generalizing a start with
  | nil => rfl
  | cons b data ih => rw [pasteFrom, ih, Array.size_setIfInBounds]

theorem size_write {start stop : Nat} (h : m.write start stop data = .ok m') : m'.size = m.size := by
  unfold write at h
  split at h
  · split at h <;> cases h
    exact size_pasteFrom ..
  · cases h

theorem keeps_slice (ptr length : UInt32) : Keeps id (slice ptr length) := by
  intro m
  unfold slice
  split
  · rfl
  · split <;> rfl

theorem keeps_store (ptr length : UInt32) (data : Bytes) : Keeps size (store ptr length data) := by
  intro m
  unfold store
  split
  · rfl
  · split
    · rfl
    · next hw => exact size_write hw

theorem keeps_fail {α : Type} (e : Errno) : Keeps id (fail e : MemoryM α) := keeps_throw _

theorem keeps_ofChecked {α : Type} (c : Checked α) : Keeps id (ofChecked c) := by
  unfold ofChecked
  split
  · exact keeps_pure _
  · exact keeps_throw _

theorem keeps_requireRange (ptr length : UInt32) : Keeps id (requireRange ptr length) := by
  refine keeps_bind keeps_get fun m => ?_
  split
  · exact keeps_pure _
  · exact keeps_throw _

theorem keeps_readText (ptr length : UInt32) : Keeps id (readText ptr length) := by
  refine keeps_bind (keeps_slice ptr length) fun b => ?_
  split
  · exact keeps_pure _
  · exact keeps_fail _

theorem keeps_iovecs (ptr count : UInt32) : Keeps id (iovecs ptr count) :=
  keeps_ite (keeps_fail _) (keeps_bind (keeps_slice _ _) fun _ => keeps_pure _)

theorem keeps_gather (iovs : List IoVec) : Keeps id (gather iovs) := by
  induction iovs with
  | nil => exact keeps_pure _
  | cons v iovs ih => exact keeps_bind (keeps_slice _ _) fun _ => keeps_bind ih fun _ => keeps_pure _

theorem keeps_requireIovecs (iovs : List IoVec) : Keeps id (requireIovecs iovs) :=
  keeps_forM (fun v : IoVec => keeps_requireRange v.ptr v.length) iovs

theorem keeps_scatter (iovs : List IoVec) (data : Bytes) : Keeps size (scatter iovs data) := by
  induction iovs generalizing data with
  | nil => exact keeps_pure _
  | cons v iovs ih =>
    refine keeps_ite (keeps_pure _) ?_
    exact keeps_bind (keeps_ofChecked _).of_id fun part =>
      keeps_bind (keeps_store _ _ _) fun _ => ih _

/-! ### Where a fault comes from -/

/-- A store faults at a range that leaves memory. -/
theorem store_fault (h : store ptr length data m = .error (.reported .fault) m') :
    m.size < ptr.toNat + length.toNat := by
  unfold store range at h
  by_cases hle : ptr.toNat + length.toNat ≤ m.size
  · rw [if_pos hle] at h
    dsimp only at h
    split at h <;> cases h
  · exact Nat.lt_of_not_le hle

theorem requireRange_ok {u : Unit} (h : requireRange ptr length m = .ok u m') :
    ptr.toNat + length.toNat ≤ m.size := by
  unfold requireRange range at h
  rw [run_get_bind] at h
  by_cases hle : ptr.toNat + length.toNat ≤ m.size
  · exact hle
  · rw [if_neg hle] at h
    cases h

theorem requireIovecs_ok {u : Unit} (h : requireIovecs iovs m = .ok u m') :
    ∀ v ∈ iovs, v.ptr.toNat + v.length.toNat ≤ m.size := by
  induction iovs generalizing m with
  | nil => simp
  | cons v iovs ih =>
    obtain ⟨a, m₁, hv, hrest⟩ := run_bind_eq_ok h
    obtain rfl : m₁ = m := (keeps_requireRange _ _).ok hv
    exact List.forall_mem_cons.mpr ⟨requireRange_ok hv, ih hrest⟩

theorem ofChecked_error {α : Type} {c : Checked α} {e : SysFailure}
    (h : ofChecked c m = .error e m') : ∃ d, e = .defect d := by
  unfold ofChecked at h
  cases c with
  | ok a => cases h
  | error d =>
    cases h
    exact ⟨d, rfl⟩

theorem toNat_ofNat_min (k : Nat) (length : UInt32) :
    (UInt32.ofNat (min k length.toNat)).toNat ≤ length.toNat := by
  rw [UInt32.toNat_ofNat_of_lt']
  · exact Nat.min_le_right ..
  · exact Nat.lt_of_le_of_lt (Nat.min_le_right ..) length.toNat_lt

/-- **What was checked can be delivered.** -/
theorem scatter_fault (hfit : ∀ v ∈ iovs, v.ptr.toNat + v.length.toNat ≤ m.size) :
    scatter iovs data m ≠ .error (.reported .fault) m' := by
  intro h
  induction iovs generalizing data m with
  | nil => cases h
  | cons v iovs ih =>
    obtain ⟨hv, hrest⟩ := List.forall_mem_cons.mp hfit
    unfold scatter at h
    split at h
    · cases h
    · dsimp only at h
      rcases run_bind_eq_error h with hpart | ⟨part, m₁, hpart, hstored⟩
      · obtain ⟨d, hd⟩ := ofChecked_error hpart
        cases hd
      · obtain rfl : m₁ = m := (keeps_ofChecked _).ok hpart
        rcases run_bind_eq_error hstored with hstore | ⟨u, m₂, hstore, hscatter⟩
        · -- The part is no longer than the buffer.
          have hlen := toNat_ofNat_min data.length v.length
          have hout := store_fault hstore
          omega
        · have hsize : m₂.size = m₁.size := (keeps_store _ _ _).ok hstore
          exact ih (by rwa [hsize]) hscatter

end Memory

end WasiSandbox
