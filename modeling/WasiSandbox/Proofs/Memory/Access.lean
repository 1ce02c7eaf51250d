import WasiSandbox.Proofs.Memory.Defects

/-! # What is read from linear memory

A store inside memory puts its octets where they belong and leaves everything else alone, so what is read
from its own range is what was stored (`octetsAt_pasted`), and what is read from a range that it does not
meet is what was there before (`octetsAt_pasted_of_apart`). A number that fits its width comes back from
its octets (`ofLittleEndian_littleEndian`). -/

namespace WasiSandbox

/-! ### Numbers as octets -/

theorem littleEndian_succ (width n : Nat) :
    littleEndian (width + 1) n = UInt8.ofNat n :: littleEndian width (n >>> 8) := by
  unfold littleEndian
  rw [List.range_succ_eq_map, List.map_cons, List.map_map]
  congr 1
  refine List.map_congr_left fun i _ => ?_
  rw [Function.comp_apply, ← Nat.shiftRight_add, Nat.mul_succ, Nat.add_comm]

/-- **A number comes back from its octets** if it fits them. -/
theorem ofLittleEndian_littleEndian {width n : Nat} (h : n < 1 <<< (8 * width)) :
    ofLittleEndian (littleEndian width n) = n := by
  induction width generalizing n with
  | zero =>
    rw [Nat.mul_zero, Nat.shiftLeft_zero, Nat.lt_one_iff] at h
    rw [h]
    rfl
  | succ width ih =>
    have hrest : n >>> 8 < 1 <<< (8 * width) := by
      rw [Nat.mul_succ, Nat.shiftLeft_add] at h
      rw [Nat.shiftLeft_eq _ 8] at h
      rw [Nat.shiftRight_eq_div_pow]
      omega
    rw [littleEndian_succ, ofLittleEndian, ih hrest, Nat.shiftRight_eq_div_pow, UInt8.toNat_ofNat']
    omega

namespace Memory

variable {m : Memory} {start start' length' : Nat} {ptr length : UInt32} {data : Bytes}

/-! ### Ranges -/

/-- The octets from `start` on, as many as there are of so many. -/
def octetsAt (m : Memory) (start length : Nat) : Bytes := (m.octets.toList.drop start).take length

/-- The memory with the data put in from `start` on. -/
def pasted (m : Memory) (start : Nat) (data : Bytes) : Memory := ⟨pasteFrom m.octets start data⟩

@[simp] theorem size_pasted : (m.pasted start data).size = m.size := size_pasteFrom ..

theorem toList_pasteFrom {a : Array UInt8} (h : start + data.length ≤ a.size) :
    (pasteFrom a start data).toList =
      a.toList.take start ++ data ++ a.toList.drop (start + data.length) := by
  induction data generalizing a start with
  | nil => simp [pasteFrom]
  | cons b data ih =>
    rw [List.length_cons] at h
    have hlt : start < a.toList.length := by
      rw [Array.length_toList]
      omega
    have hset : a.toList.set start b = a.toList.take start ++ b :: a.toList.drop (start + 1) :=
      List.set_eq_take_append_cons_drop.trans (if_pos hlt)
    have hfront : (a.toList.take start).length = start := by
      rw [List.length_take]
      omega
    rw [pasteFrom, ih (by rw [Array.size_setIfInBounds]; omega), Array.toList_setIfInBounds, hset,
      List.append_cons, List.take_left' (by rw [List.length_append, hfront]; rfl), List.append_assoc,
      List.append_assoc, List.length_cons]
    have hdrop : (a.toList.take start ++ [b] ++ a.toList.drop (start + 1)).drop
        (start + 1 + data.length) = a.toList.drop (start + (data.length + 1)) := by
      rw [← List.drop_drop, List.drop_left' (by rw [List.length_append, hfront]; rfl), List.drop_drop]
      congr 1
      omega
    rw [← List.append_assoc (a.toList.take start), hdrop]
    simp

/-- **What was stored is there.** -/
theorem octetsAt_pasted (h : start + data.length ≤ m.size) :
    (m.pasted start data).octetsAt start data.length = data := by
  have hfront : (m.octets.toList.take start).length = start := by
    rw [List.length_take, Array.length_toList]
    unfold size at h
    omega
  unfold octetsAt pasted
  rw [toList_pasteFrom h, List.append_assoc, List.drop_left' hfront, List.take_left' rfl]

/-- **What was not stored over is there still.** -/
theorem octetsAt_pasted_of_apart (h : start + data.length ≤ m.size)
    (hapart : start' + length' ≤ start ∨ start + data.length ≤ start') :
    (m.pasted start data).octetsAt start' length' = m.octetsAt start' length' := by
  have hsize : start + data.length ≤ m.octets.toList.length := by
    rw [Array.length_toList]
    exact h
  have hfront : (m.octets.toList.take start).length = start := by
    rw [List.length_take]
    omega
  unfold octetsAt pasted
  rw [toList_pasteFrom h]
  rcases hapart with hbefore | hbehind
  · -- All of the range lies in the front.
    rw [List.append_assoc, List.drop_append_of_le_length (by omega), List.take_append_of_le_length
      (by rw [List.length_drop]; omega), List.drop_take, List.take_take, Nat.min_eq_left (by omega)]
  · have hwhole : (m.octets.toList.take start ++ data).length = start + data.length := by
      rw [List.length_append, hfront]
    obtain ⟨gap, rfl⟩ := Nat.exists_eq_add_of_le hbehind
    rw [← List.drop_drop, List.drop_left' hwhole, List.drop_drop]

/-! ### Access by pointer -/

theorem range_run (h : ptr.toNat + length.toNat ≤ m.size) :
    m.range ptr length = .ok (ptr.toNat, ptr.toNat + length.toNat) := if_pos h

theorem slice_run (h : ptr.toNat + length.toNat ≤ m.size) :
    slice ptr length m = .ok (m.octetsAt ptr.toNat length.toNat) m := by
  unfold slice
  rw [range_run h]
  dsimp only
  rw [read, if_pos ⟨Nat.le_add_right .., h⟩]
  dsimp only
  rw [Array.toList_extract, List.extract_eq_take_drop, Nat.add_sub_cancel_left]
  rfl

theorem store_run (h : ptr.toNat + length.toNat ≤ m.size) (hdata : data.length = length.toNat) :
    store ptr length data m = .ok () (m.pasted ptr.toNat data) := by
  unfold store
  rw [range_run h]
  dsimp only
  rw [write, if_pos ⟨Nat.le_add_right .., h⟩, if_pos (by omega)]
  rfl

theorem readU32_run (h : ptr.toNat + 4 ≤ m.size) :
    readU32 ptr m = .ok (.ofNat (ofLittleEndian (m.octetsAt ptr.toNat 4))) m := by
  have hslice : slice ptr 4 m = .ok (m.octetsAt ptr.toNat 4) m := slice_run h
  unfold readU32
  rw [run_bind_ok hslice]
  rfl

theorem writeU32_run (h : ptr.toNat + 4 ≤ m.size) (value : UInt32) :
    writeU32 ptr value m = .ok () (m.pasted ptr.toNat (littleEndian 4 value.toNat)) :=
  store_run h (length_littleEndian ..)

end Memory

end WasiSandbox
