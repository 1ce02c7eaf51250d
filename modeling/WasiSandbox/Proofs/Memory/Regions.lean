import WasiSandbox.Proofs.Memory.Access

/-! # Where an operation writes

An operation on linear memory is given regions to fill, and it writes nowhere else, whatever comes of it
(`Memory.WritesIn`). A store either leaves memory alone or overwrites its own range. Buffers are filled up to
their ends at most, and a string table has one array of pointers and one block. So both of these write where
they are to, and what lies outside is what was there before (`Memory.SameOutside`). -/

namespace WasiSandbox

/-- So many octets of memory, from an address on. -/
structure Region where
  start : Nat
  length : Nat
  deriving DecidableEq, Repr

/-- The address lies in the region. -/
def Region.Holds (r : Region) (a : Nat) : Prop := r.start ≤ a ∧ a < r.start + r.length

/-- Where the buffer lies. -/
def IoVec.region (v : IoVec) : Region := ⟨v.ptr.toNat, v.length.toNat⟩

namespace Memory

variable {m m' m'' : Memory} {regions : List Region} {r : Region} {ptr length : UInt32}
  {start i : Nat} {data : Bytes} {α β : Type} {x : MemoryM α} {f : α → MemoryM β}

theorem toNat_ofNat_le (n : Nat) : (UInt32.ofNat n).toNat ≤ n := by
  rw [UInt32.toNat_ofNat']
  exact Nat.mod_le n _

/-- A sum that can be addressed does not wrap. -/
theorem toNat_add_of_lt (h : ptr.toNat + length.toNat < UInt32.size) :
    (ptr + length).toNat = ptr.toNat + length.toNat := by
  rw [UInt32.toNat_add, Nat.mod_eq_of_lt h]

/-! ### Memory outside of regions -/

/-- Memory has the same size, and only what lies in the regions may have changed. -/
structure SameOutside (regions : List Region) (m m' : Memory) : Prop where
  size : m'.size = m.size
  octet : ∀ a, (∀ r ∈ regions, ¬ r.Holds a) → m'.octets[a]? = m.octets[a]?

namespace SameOutside

theorem refl (m : Memory) : SameOutside regions m m := ⟨rfl, fun _ _ => rfl⟩

theorem trans (h : SameOutside regions m m') (h' : SameOutside regions m' m'') :
    SameOutside regions m m'' where
  size := h'.size.trans h.size
  octet a ha := (h'.octet a ha).trans (h.octet a ha)

end SameOutside

theorem getElem?_pasteFrom_of_apart {a : Array UInt8} (hi : i < start ∨ start + data.length ≤ i) :
    (pasteFrom a start data)[i]? = a[i]? := by
  induction data generalizing a start with
  | nil => rfl
  | cons b data ih =>
    rw [List.length_cons] at hi
    have hne : start ≠ i := by omega
    rw [pasteFrom, ih (by omega), Array.getElem?_setIfInBounds_ne hne]

theorem write_ok {stop : Nat} (h : m.write start stop data = .ok m') :
    m' = m.pasted start data ∧ start + data.length = stop := by
  unfold write at h
  split at h
  · next hrange =>
    split at h
    · next hlength =>
      cases h
      exact ⟨rfl, by omega⟩
    · cases h
  · cases h

/-- What is stored within a region changes nothing outside. -/
theorem sameOutside_pasted (hr : r ∈ regions) (hstart : r.start ≤ start)
    (hend : start + data.length ≤ r.start + r.length) : SameOutside regions m (m.pasted start data) where
  size := size_pasted
  octet a ha := by
    have hout : ¬ (r.start ≤ a ∧ a < r.start + r.length) := ha r hr
    exact getElem?_pasteFrom_of_apart (by omega)

/-! ### Operations -/

/-- The operation writes in the regions only, whatever comes of it. -/
def WritesIn (regions : List Region) (x : MemoryM α) : Prop := ∀ m, SameOutside regions m (left (x m))

theorem writesIn_of_keeps (hx : Keeps id x) : WritesIn regions x := fun m => by
  rw [show left (x m) = m from hx m]
  exact .refl m

theorem WritesIn.bind (hx : WritesIn regions x) (hf : ∀ a, WritesIn regions (f a)) :
    WritesIn regions (x >>= f) := fun m =>
  left_bind (p := SameOutside regions m) (hx m) fun a m₁ h => h.trans (hf a m₁)

/-- What was looked up tells where to write. -/
theorem WritesIn.look (hx : Keeps id x) (hf : ∀ m a, x m = .ok a m → WritesIn regions (f a)) :
    WritesIn regions (x >>= f) := by
  intro m
  cases hrun : x m with
  | ok a m₁ =>
    obtain rfl : m₁ = m := hx.ok hrun
    rw [run_bind_ok hrun]
    exact hf m₁ a hrun m₁
  | error e m₁ =>
    obtain rfl : m₁ = m := hx.error hrun
    rw [run_bind_error hrun]
    exact .refl m₁

/-- **A store writes in its range**, if it writes at all. -/
theorem store_writesIn (hr : r ∈ regions) (hstart : r.start ≤ ptr.toNat)
    (hend : ptr.toNat + length.toNat ≤ r.start + r.length) : WritesIn regions (store ptr length data) := by
  intro m
  unfold store
  cases hrange : m.range ptr length with
  | error e => exact .refl m
  | ok range =>
    obtain ⟨rfl, -⟩ := range_ok hrange
    dsimp only
    cases hwrite : m.write ptr.toNat (ptr.toNat + length.toNat) data with
    | error d => exact .refl m
    | ok m' =>
      obtain ⟨rfl, hlength⟩ := write_ok hwrite
      exact sameOutside_pasted hr hstart (by omega)

/-- A range that is a region. -/
theorem store_range_writesIn (hr : ⟨ptr.toNat, length.toNat⟩ ∈ regions) :
    WritesIn regions (store ptr length data) :=
  store_writesIn hr (Nat.le_refl _) (Nat.le_refl _)

theorem ofChecked_ok {a : α} {c : Checked α} (h : ofChecked c m = .ok a m') : c = .ok a := by
  unfold ofChecked at h
  cases c <;> cases h
  rfl

end Memory

/-! ### Buffers -/

/-- **Buffers are filled** up to their ends at most. -/
theorem Memory.scatter_writesIn {regions : List Region} {iovs : List IoVec}
    (hiovs : ∀ v ∈ iovs, v.region ∈ regions) (data : Bytes) : WritesIn regions (scatter iovs data) := by
  induction iovs generalizing data with
  | nil => exact writesIn_of_keeps (keeps_pure _)
  | cons v iovs ih =>
    obtain ⟨hv, hrest⟩ := List.forall_mem_cons.mp hiovs
    unfold scatter
    split
    · exact writesIn_of_keeps (keeps_pure _)
    · have hpart := toNat_ofNat_min data.length v.length
      exact .bind (writesIn_of_keeps (keeps_ofChecked _)) fun _ =>
        .bind (store_writesIn hv (Nat.le_refl _) (Nat.add_le_add_left hpart _)) fun _ => ih hrest _

/-! ### String tables -/

namespace StringTable

open Memory

variable {m m' : Memory} {places : List Region} {ptr distance ptrs block p : UInt32} {size i : Nat}
  {starts : List UInt32}

/-- The array of pointers and the block, where the guest wants them. -/
def regions (t : StringTable) (ptrs block : UInt32) : List Region :=
  [⟨ptrs.toNat, 4 * t.offsets.length⟩, ⟨block.toNat, t.block.length⟩]

theorem keeps_guestOffset (ptr distance : UInt32) : Keeps id (guestOffset ptr distance) :=
  keeps_ite (keeps_pure _) (keeps_fail _)

theorem guestOffset_ok (h : guestOffset ptr distance m = .ok p m') :
    p.toNat = ptr.toNat + distance.toNat := by
  unfold guestOffset at h
  split at h
  · next hlt =>
    cases h
    rw [UInt32.toNat_add]
    exact Nat.mod_eq_of_lt hlt
  · cases h

theorem mul_ok {width a b c : Nat} (h : Checked.mul width a b = .ok c) : c = a * b := by
  unfold Checked.mul at h
  split at h <;> cases h
  rfl

/-- Every pointer is written to its place in the array. -/
theorem writePointers_writesIn (hr : ⟨ptrs.toNat, size⟩ ∈ places)
    (hfit : 4 * (i + starts.length) ≤ size) : WritesIn places (writePointers ptrs block i starts) := by
  induction starts generalizing i with
  | nil => exact writesIn_of_keeps (keeps_pure _)
  | cons start starts ih =>
    rw [List.length_cons] at hfit
    refine .look (keeps_ofChecked _) fun m₁ distance hmul => ?_
    refine .look (keeps_guestOffset _ _) fun m₂ slot hslot => ?_
    refine .bind (writesIn_of_keeps (keeps_guestOffset _ _)) fun target => ?_
    refine .bind (store_writesIn hr ?_ ?_) fun _ => ih (by omega)
    all_goals
      have hslot' := guestOffset_ok hslot
      have hplace : (UInt32.ofNat distance).toNat ≤ 4 * i := by
        obtain rfl := mul_ok (ofChecked_ok hmul)
        exact Nat.le_trans (toNat_ofNat_le _) (Nat.mul_le_mul_left 4 (Nat.mod_le _ _))
      have hwidth : (4 : UInt32).toNat = 4 := rfl
      dsimp only
      omega

/-- **A table is written** to its array and its block. -/
theorem write_writesIn (t : StringTable) (ptrs block : UInt32) :
    WritesIn (t.regions ptrs block) (t.write ptrs block) := by
  have hpointers : (⟨ptrs.toNat, 4 * t.offsets.length⟩ : Region) ∈ t.regions ptrs block :=
    List.mem_cons_self
  refine .bind (writePointers_writesIn hpointers (by omega)) fun _ => ?_
  have hblock : (⟨block.toNat, t.block.length⟩ : Region) ∈ t.regions ptrs block :=
    List.mem_cons_of_mem _ (List.mem_singleton_self _)
  refine store_writesIn hblock (Nat.le_refl _) (Nat.add_le_add_left ?_ _)
  exact toNat_ofNat_le _

end StringTable

end WasiSandbox
