import WasiSandbox.Abi.StringTable
import WasiSandbox.Proofs.Memory.Bounds

/-! # Accesses to memory have no defects

A range that has passed the check is cut out of memory or overwritten without fail, if the data has
its length. In a string table the multiples of four fit as long as there are less than 2 ^ 30 strings. -/

namespace WasiSandbox

open Failure

namespace Memory

variable {m m' : Memory} {ptr length : UInt32} {data : Bytes} {iovs : List IoVec}

/-! ### Ranges -/

theorem range_ok {r : Nat × Nat} (h : m.range ptr length = .ok r) :
    r = (ptr.toNat, ptr.toNat + length.toNat) ∧ ptr.toNat + length.toNat ≤ m.size := by
  unfold range at h
  split at h
  · next hle =>
    cases h
    exact ⟨rfl, hle⟩
  · cases h

theorem range_error {e : SysFailure} (h : m.range ptr length = .error e) : ¬ e.IsDefect := by
  unfold range at h
  split at h <;> cases h
  exact id

theorem slice_avoids (ptr length : UInt32) (m : Memory) : Avoids IsDefect (slice ptr length) m := by
  intro e m' h
  unfold slice at h
  cases hrange : m.range ptr length with
  | error e' =>
    rw [hrange] at h
    cases h
    exact range_error hrange
  | ok r =>
    obtain ⟨rfl, hle⟩ := range_ok hrange
    rw [hrange] at h
    dsimp only at h
    rw [read, if_pos ⟨Nat.le_add_right .., hle⟩] at h
    cases h

/-- Data of the length of the range can be stored. -/
theorem store_avoids (hdata : data.length = length.toNat) (ptr : UInt32) (m : Memory) :
    Avoids IsDefect (store ptr length data) m := by
  intro e m' h
  unfold store at h
  cases hrange : m.range ptr length with
  | error e' =>
    rw [hrange] at h
    cases h
    exact range_error hrange
  | ok r =>
    obtain ⟨rfl, hle⟩ := range_ok hrange
    rw [hrange] at h
    dsimp only at h
    rw [write, if_pos ⟨Nat.le_add_right .., hle⟩, if_pos (by omega)] at h
    cases h

/-- All of the data is stored, if its length fits a word. -/
theorem storeAll_avoids (hdata : data.length < UInt32.size) (ptr : UInt32) (m : Memory) :
    Avoids IsDefect (store ptr (.ofNat data.length) data) m :=
  store_avoids (UInt32.toNat_ofNat_of_lt' hdata).symm ptr m

theorem store_ok {u : Unit} (h : store ptr length data m = .ok u m') :
    ptr.toNat + length.toNat ≤ m.size := by
  unfold store at h
  cases hrange : m.range ptr length with
  | error e' =>
    rw [hrange] at h
    cases h
  | ok r => exact (range_ok hrange).2

theorem requireRange_avoids (ptr length : UInt32) (m : Memory) :
    Avoids IsDefect (requireRange ptr length) m := by
  refine avoids_get_bind ?_
  cases hrange : m.range ptr length with
  | error e => exact avoids_throw (range_error hrange) m
  | ok r => exact avoids_pure () m

theorem fail_avoids {α : Type} (e : Errno) (m : Memory) :
    Avoids IsDefect (fail e : MemoryM α) m := avoids_throw id m

theorem ofChecked_avoids {α : Type} {c : Checked α} {a : α} (hc : c = .ok a) (m : Memory) :
    Avoids IsDefect (ofChecked c) m := by
  rw [hc]
  exact avoids_pure a m

theorem length_littleEndian (width n : Nat) : (littleEndian width n).length = width := by
  simp [littleEndian]

theorem writeU32_avoids (ptr value : UInt32) (m : Memory) :
    Avoids IsDefect (writeU32 ptr value) m := store_avoids (length_littleEndian ..) ptr m

theorem writeU64_avoids (ptr : UInt32) (value : UInt64) (m : Memory) :
    Avoids IsDefect (writeU64 ptr value) m := store_avoids (length_littleEndian ..) ptr m

theorem readText_avoids (ptr length : UInt32) (m : Memory) :
    Avoids IsDefect (readText ptr length) m := by
  refine (slice_avoids ptr length m).bind fun b m' _ => ?_
  split
  · exact avoids_pure _ m'
  · exact fail_avoids _ m'

/-! ### Vectors of buffers -/

theorem iovecs_avoids (ptr count : UInt32) (m : Memory) : Avoids IsDefect (iovecs ptr count) m :=
  avoids_ite (fun _ => fail_avoids _ m) fun _ =>
    (slice_avoids _ _ m).bind fun _ m' _ => avoids_pure _ m'

theorem gather_avoids (iovs : List IoVec) (m : Memory) : Avoids IsDefect (gather iovs) m := by
  induction iovs generalizing m with
  | nil => exact avoids_pure _ m
  | cons v iovs ih =>
    exact (slice_avoids _ _ m).bind fun _ m' _ => (ih m').bind fun _ m'' _ => avoids_pure _ m''

theorem requireIovecs_avoids (iovs : List IoVec) (m : Memory) :
    Avoids IsDefect (requireIovecs iovs) m :=
  avoids_forM (fun v : IoVec => requireRange_avoids v.ptr v.length) iovs m

theorem scatter_avoids (iovs : List IoVec) (data : Bytes) (m : Memory) :
    Avoids IsDefect (scatter iovs data) m := by
  induction iovs generalizing data m with
  | nil => exact avoids_pure () m
  | cons v iovs ih =>
    refine avoids_ite (fun _ => avoids_pure () m) fun _ => ?_
    have hpart : Checked.slice data 0 (min data.length v.length.toNat) =
        .ok (data.take (min data.length v.length.toNat)) :=
      Checked.slice_eq (Nat.zero_le _) (Nat.min_le_left ..)
    refine (ofChecked_avoids hpart m).bind fun part m₁ hok => ?_
    rw [hpart] at hok
    cases hok
    refine (store_avoids ?_ v.ptr m).bind fun _ m₂ _ => ih _ m₂
    rw [List.length_take, UInt32.toNat_ofNat_of_lt']
    · omega
    · exact Nat.lt_of_le_of_lt (Nat.min_le_right ..) v.length.toNat_lt

end Memory

/-! ### String tables -/

namespace StringTable

variable {t : StringTable}

/-- The pointers into the table and the table itself can be addressed. -/
structure Fits (t : StringTable) : Prop where
  count : t.offsets.length < 1 <<< 30
  block : t.block.length < UInt32.size

theorem writeSizes_avoids (t : StringTable) (countPtr sizePtr : UInt32) (m : Memory) :
    Avoids IsDefect (t.writeSizes countPtr sizePtr) m :=
  (Memory.writeU32_avoids _ _ m).bind fun _ m' _ => Memory.writeU32_avoids _ _ m'

theorem guestOffset_avoids (ptr distance : UInt32) (m : Memory) :
    Avoids IsDefect (guestOffset ptr distance) m :=
  avoids_ite (fun _ => avoids_pure _ m) fun _ => Memory.fail_avoids _ m

/-- Of so few pointers, each has its place in the array. -/
theorem offset_index {i : Nat} (hcount : i < 1 <<< 30) :
    Checked.mul 32 4 (i % UInt32.size) = .ok (4 * i) := by
  rw [Nat.mod_eq_of_lt (Nat.lt_trans hcount (by decide))]
  exact if_pos (by omega)

theorem writePointers_avoids (ptrs block : UInt32) {i : Nat} {starts : List UInt32}
    (hi : i + starts.length < 1 <<< 30) (m : Memory) :
    Avoids IsDefect (writePointers ptrs block i starts) m := by
  induction starts generalizing i m with
  | nil => exact avoids_pure () m
  | cons start starts ih =>
    rw [List.length_cons] at hi
    exact (Memory.ofChecked_avoids (offset_index (by omega)) m).bind fun distance m₁ _ =>
      (guestOffset_avoids ptrs _ m₁).bind fun slot m₂ _ =>
      (guestOffset_avoids block start m₂).bind fun target m₃ _ =>
      (Memory.writeU32_avoids slot target m₃).bind fun _ m₄ _ => ih (by omega) m₄

theorem write_avoids (ht : t.Fits) (ptrs block : UInt32) (m : Memory) :
    Avoids IsDefect (t.write ptrs block) m := by
  have hcount := ht.count
  exact (writePointers_avoids ptrs block (by omega) m).bind fun _ m' _ =>
    Memory.storeAll_avoids ht.block block m'

end StringTable

end WasiSandbox
