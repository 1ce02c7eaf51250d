import WasiSandbox.Proofs.Memory.Tables
import Mathlib.Data.List.Nodup
import Mathlib.Algebra.BigOperators.Group.List.Basic

/-! # Buffers in linear memory

What the operations on buffers do when the buffers lie inside memory. To gather is to read them one after
the other (`gather_run`). Data is scattered without fail (`scatter_run`), and buffers get what those before
them have left of it (`scatter_append`). To scatter data over buffers that do not meet is to put the data in
front of what they held, read in the same way (`gathered_scatter`), so that it comes back when they are
gathered (`scatter_then_gather`). Buffers that do not meet hold no more together than there are octets in
memory (`sum_length_le`). -/

namespace WasiSandbox

/-! ### Regions that do not meet -/

namespace Region

variable {r : Region} {regions : List Region} {size : Nat}

/-- The addresses in the region, in order. -/
def addresses (r : Region) : List Nat := List.range' r.start r.length

theorem Disjoint.symm {r' : Region} (h : r.Disjoint r') : r'.Disjoint r := fun a ha' ha => h a ha ha'

theorem mem_addresses {a : Nat} : a ∈ r.addresses ↔ r.Holds a := by
  unfold addresses Holds
  rw [List.mem_range'_1]

/-- **Regions that do not meet** have no more octets together than there are around them. -/
theorem sum_length_le (hpairwise : regions.Pairwise Disjoint)
    (hinside : ∀ r ∈ regions, r.start + r.length ≤ size) : (regions.map length).sum ≤ size := by
  have hnodup : (regions.flatMap addresses).Nodup := by
    refine List.nodup_flatMap.mpr ⟨fun r _ => List.nodup_range', hpairwise.imp fun {r r'} hapart => ?_⟩
    exact fun a ha ha' => hapart a (mem_addresses.mp ha) (mem_addresses.mp ha')
  have hbelow : regions.flatMap addresses ⊆ List.range size := fun a ha => by
    obtain ⟨r, hr, ha⟩ := List.mem_flatMap.mp ha
    have hholds := mem_addresses.mp ha
    have hend := hinside r hr
    unfold Holds at hholds
    rw [List.mem_range]
    omega
  have hlength : (regions.flatMap addresses).length = (regions.map length).sum := by
    rw [List.length_flatMap]
    simp only [addresses, List.length_range']
  have hle := (List.subperm_of_subset hnodup hbelow).length_le
  rw [List.length_range] at hle
  omega

end Region

/-! ### What buffers hold -/

namespace IoVec

/-- How much fits into the buffers together. -/
def total (iovs : List IoVec) : Nat := (iovs.map fun v => v.length.toNat).sum

@[simp] theorem total_nil : total [] = 0 := rfl

@[simp] theorem total_cons (v : IoVec) (iovs : List IoVec) :
    total (v :: iovs) = v.length.toNat + total iovs := by
  unfold total
  rw [List.map_cons, List.sum_cons]

theorem total_eq_sum_regions (iovs : List IoVec) :
    total iovs = ((iovs.map region).map Region.length).sum := by
  unfold total
  rw [List.map_map]
  rfl

/-- The capacity is what fits in, up to the largest word. -/
theorem capacity_eq (iovs : List IoVec) : capacity iovs = min (total iovs) (UInt64.size - 1) := by
  have hfold : ∀ start ≤ UInt64.size - 1,
      iovs.foldl (fun total v => min (total + v.length.toNat) (UInt64.size - 1)) start =
        min (start + total iovs) (UInt64.size - 1) := by
    induction iovs with
    | nil =>
      intro start hstart
      simp only [List.foldl_nil, total_nil]
      omega
    | cons v iovs ih =>
      intro start hstart
      rw [List.foldl_cons, ih _ (Nat.min_le_right ..), total_cons]
      omega
  have hzero := hfold 0 (Nat.zero_le _)
  rwa [Nat.zero_add] at hzero

/-- A buffer is described by eight octets. -/
theorem length_decode_le (data : Bytes) : 8 * (decode data).length ≤ data.length := by
  induction data using decode.induct with
  | case1 a b c d e f g h rest ih =>
    rw [decode]
    simp only [List.length_cons]
    omega
  | case2 data hshort =>
    rw [decode]
    · simp
    · exact hshort

theorem total_le (iovs : List IoVec) : total iovs ≤ iovs.length * (UInt32.size - 1) := by
  induction iovs with
  | nil => simp
  | cons v iovs ih =>
    have hlength := v.length.toNat_lt
    rw [total_cons, List.length_cons, Nat.succ_mul]
    unfold UInt32.size at *
    omega

end IoVec

namespace Memory

variable {m m' : Memory} {iovs : List IoVec} {v : IoVec} {regions : List Region} {data : Bytes}
  {start length : Nat} {ptr count : UInt32}

/-- Every buffer lies inside memory. -/
def Inside (m : Memory) (iovs : List IoVec) : Prop :=
  ∀ v ∈ iovs, v.ptr.toNat + v.length.toNat ≤ m.size

instance (m : Memory) (iovs : List IoVec) : Decidable (m.Inside iovs) :=
  inferInstanceAs (Decidable (∀ v ∈ iovs, _))

/-- The octets in the buffers, one after the other. -/
def gathered (m : Memory) (iovs : List IoVec) : Bytes :=
  iovs.flatMap fun v => m.octetsAt v.ptr.toNat v.length.toNat

theorem gathered_cons (m : Memory) (v : IoVec) (iovs : List IoVec) :
    m.gathered (v :: iovs) = m.octetsAt v.ptr.toNat v.length.toNat ++ m.gathered iovs := List.flatMap_cons

theorem length_octetsAt (h : start + length ≤ m.size) : (m.octetsAt start length).length = length := by
  unfold size at h
  unfold octetsAt
  rw [List.length_take, List.length_drop, Array.length_toList]
  omega

theorem length_gathered (h : m.Inside iovs) : (m.gathered iovs).length = IoVec.total iovs := by
  induction iovs with
  | nil => rfl
  | cons v iovs ih =>
    obtain ⟨hv, hrest⟩ := List.forall_mem_cons.mp h
    rw [gathered_cons, List.length_append, length_octetsAt hv, ih hrest, IoVec.total_cons]

theorem getElem?_octetsAt {i : Nat} (hi : i < length) :
    (m.octetsAt start length)[i]? = m.octets[start + i]? := by
  unfold octetsAt
  rw [List.getElem?_take_of_lt hi, List.getElem?_drop, Array.getElem?_toList]

/-- What does not meet the regions is read as before. -/
theorem SameOutside.octetsAt_eq (h : m.SameOutside regions m')
    (hapart : ∀ r ∈ regions, Region.Disjoint ⟨start, length⟩ r) :
    m'.octetsAt start length = m.octetsAt start length := by
  refine List.ext_getElem? fun i => ?_
  by_cases hi : i < length
  · have hout : ∀ r ∈ regions, ¬ r.Holds (start + i) := fun r hr =>
      hapart r hr (start + i) ⟨Nat.le_add_right .., Nat.add_lt_add_left hi start⟩
    rw [getElem?_octetsAt hi, getElem?_octetsAt hi, h.octet (start + i) hout]
  · have hbeyond : ∀ m : Memory, (m.octetsAt start length)[i]? = none := fun m => by
      unfold octetsAt
      exact List.getElem?_eq_none (by rw [List.length_take]; omega)
    rw [hbeyond, hbeyond]

theorem SameOutside.gathered_eq (h : m.SameOutside regions m')
    (hapart : ∀ v ∈ iovs, ∀ r ∈ regions, Region.Disjoint v.region r) :
    m'.gathered iovs = m.gathered iovs := by
  unfold gathered
  refine List.flatMap_congr fun v hv => ?_
  exact h.octetsAt_eq (hapart v hv)

theorem SameOutside.mono (h : m.SameOutside regions m') {regions' : List Region}
    (hregions : ∀ r ∈ regions, r ∈ regions') : m.SameOutside regions' m' where
  size := h.size
  octet a ha := h.octet a fun r hr => ha r (hregions r hr)

theorem SameOutside.inside (h : m.SameOutside regions m') (hinside : m.Inside iovs) : m'.Inside iovs := by
  intro v hv
  rw [h.size]
  exact hinside v hv

/-! ### Runs -/

theorem gather_run (h : m.Inside iovs) : gather iovs m = .ok (m.gathered iovs) m := by
  induction iovs with
  | nil => rfl
  | cons v iovs ih =>
    obtain ⟨hv, hrest⟩ := List.forall_mem_cons.mp h
    unfold gather
    rw [run_bind_ok (slice_run hv), run_bind_ok (ih hrest), gathered_cons]
    rfl

theorem requireRange_run (h : v.ptr.toNat + v.length.toNat ≤ m.size) :
    requireRange v.ptr v.length m = .ok () m := by
  unfold requireRange
  rw [run_get_bind, range_run h]
  rfl

theorem requireRange_error (h : ¬ v.ptr.toNat + v.length.toNat ≤ m.size) :
    requireRange v.ptr v.length m = .error (.reported .fault) m := by
  unfold requireRange range
  rw [run_get_bind, if_neg h]
  rfl

theorem requireIovecs_run (h : m.Inside iovs) : requireIovecs iovs m = .ok () m := by
  induction iovs with
  | nil => rfl
  | cons v iovs ih =>
    obtain ⟨hv, hrest⟩ := List.forall_mem_cons.mp h
    exact (run_bind_ok (requireRange_run hv)).trans (ih hrest)

/-- The first buffer that leaves memory is a fault. -/
theorem requireIovecs_error (h : ¬ m.Inside iovs) :
    requireIovecs iovs m = .error (.reported .fault) m := by
  induction iovs with
  | nil => exact absurd (fun v hv => absurd hv List.not_mem_nil) h
  | cons v iovs ih =>
    by_cases hv : v.ptr.toNat + v.length.toNat ≤ m.size
    · have hrest : ¬ m.Inside iovs := fun hrest => h (List.forall_mem_cons.mpr ⟨hv, hrest⟩)
      exact (run_bind_ok (requireRange_run hv)).trans (ih hrest)
    · exact run_bind_error (requireRange_error hv)

/-- An array of so few buffers that its length fits a word. -/
theorem toNat_mul_eight (hcount : count.toNat < 1 <<< 29) : (count * 8).toNat = 8 * count.toNat := by
  rw [UInt32.toNat_mul, Nat.mul_comm 8]
  exact Nat.mod_eq_of_lt (by rw [show (8 : UInt32).toNat = 8 from rfl]; omega)

theorem iovecs_run (hcount : count.toNat < 1 <<< 29) (h : ptr.toNat + 8 * count.toNat ≤ m.size) :
    iovecs ptr count m = .ok (IoVec.decode (m.octetsAt ptr.toNat (8 * count.toNat))) m := by
  have hwidth := toNat_mul_eight hcount
  have hslice : slice ptr (count * 8) m = .ok (m.octetsAt ptr.toNat (8 * count.toNat)) m := by
    rw [slice_run (by rwa [hwidth]), hwidth]
  unfold iovecs
  rw [if_neg (by unfold UInt32.size; omega), run_bind_ok hslice]
  rfl

theorem iovecs_error (hcount : count.toNat < 1 <<< 29) (h : ¬ ptr.toNat + 8 * count.toNat ≤ m.size) :
    iovecs ptr count m = .error (.reported .fault) m := by
  have hwidth := toNat_mul_eight hcount
  have hslice : slice ptr (count * 8) m = .error (.reported .fault) m := by
    unfold slice range
    rw [if_neg (by rwa [hwidth])]
  unfold iovecs
  rw [if_neg (by unfold UInt32.size; omega), run_bind_error hslice]

/-! ### What has gone through -/

theorem iovecs_ok (h : iovecs ptr count m = .ok iovs m') :
    m' = m ∧ count.toNat < 1 <<< 29 ∧ iovs = IoVec.decode (m.octetsAt ptr.toNat (8 * count.toNat)) := by
  by_cases hcount : count.toNat < 1 <<< 29
  · by_cases harray : ptr.toNat + 8 * count.toNat ≤ m.size
    · rw [iovecs_run hcount harray] at h
      cases h
      exact ⟨rfl, hcount, rfl⟩
    · rw [iovecs_error hcount harray] at h
      cases h
  · unfold iovecs at h
    rw [if_pos (by unfold UInt32.size; omega)] at h
    cases h

theorem gather_inside (h : gather iovs m = .ok data m') : m.Inside iovs := by
  induction iovs generalizing data m m' with
  | nil => exact fun v hv => absurd hv List.not_mem_nil
  | cons v iovs ih =>
    obtain ⟨front, m₁, hslice, hrest⟩ := run_bind_eq_ok h
    obtain ⟨back, m₂, hgather, -⟩ := run_bind_eq_ok hrest
    obtain rfl : m₁ = m := (keeps_slice _ _).ok hslice
    by_cases hv : v.ptr.toNat + v.length.toNat ≤ m₁.size
    · exact List.forall_mem_cons.mpr ⟨hv, ih hgather⟩
    · unfold slice range at hslice
      rw [if_neg hv] at hslice
      cases hslice

/-- Data comes from buffers that all lie inside memory. -/
theorem gather_ok (h : gather iovs m = .ok data m') : m' = m ∧ m.Inside iovs ∧ data = m.gathered iovs := by
  have hinside := gather_inside h
  rw [gather_run hinside] at h
  cases h
  exact ⟨rfl, hinside, rfl⟩

/-! ### Scattering -/

/-- One buffer is filled, and the rest of the data goes to the others. -/
theorem scatter_cons (hv : v.ptr.toNat + v.length.toNat ≤ m.size) (hdata : data ≠ []) :
    scatter (v :: iovs) data m =
      scatter iovs (data.drop v.length.toNat) (m.pasted v.ptr.toNat (data.take v.length.toNat)) := by
  have hcount : (UInt32.ofNat (min data.length v.length.toNat)).toNat =
      min data.length v.length.toNat :=
    UInt32.toNat_ofNat_of_lt' (Nat.lt_of_le_of_lt (Nat.min_le_right ..) v.length.toNat_lt)
  have hpart : ofChecked (Checked.slice data 0 (min data.length v.length.toNat)) m =
      .ok (data.take v.length.toNat) m := by
    rw [Checked.slice_eq (Nat.zero_le _) (Nat.min_le_left ..), List.drop_zero, Nat.sub_zero,
      Nat.min_comm, ← List.take_eq_take_min]
    rfl
  have hstore : store v.ptr (.ofNat (min data.length v.length.toNat)) (data.take v.length.toNat) m =
      .ok () (m.pasted v.ptr.toNat (data.take v.length.toNat)) :=
    store_run (by omega) (by rw [hcount, List.length_take, Nat.min_comm])
  have hrest : data.drop (min data.length v.length.toNat) = data.drop v.length.toNat := by
    rcases Nat.le_total data.length v.length.toNat with hle | hle
    · rw [Nat.min_eq_left hle, List.drop_length, List.drop_of_length_le hle]
    · rw [Nat.min_eq_right hle]
  conv_lhs => unfold scatter
  rw [if_neg hdata, run_bind_ok hpart, run_bind_ok hstore, hrest]

theorem scatter_nil (iovs : List IoVec) (m : Memory) : scatter iovs [] m = .ok () m := by
  cases iovs <;> rfl

/-- Data can be scattered over buffers inside memory. -/
theorem scatter_run (h : m.Inside iovs) (data : Bytes) : ∃ m', scatter iovs data m = .ok () m' := by
  induction iovs generalizing data m with
  | nil => exact ⟨m, rfl⟩
  | cons v iovs ih =>
    obtain ⟨hv, hrest⟩ := List.forall_mem_cons.mp h
    by_cases hdata : data = []
    · rw [hdata]
      exact ⟨m, scatter_nil _ m⟩
    · rw [scatter_cons hv hdata]
      exact ih (fun w hw => by rw [size_pasted]; exact hrest w hw) _

theorem scatter_outside (h : scatter iovs data m = .ok () m') :
    m.SameOutside (iovs.map IoVec.region) m' := by
  have hin : ∀ v ∈ iovs, v.region ∈ iovs.map IoVec.region := fun v hv => List.mem_map_of_mem hv
  have hwrites := scatter_writesIn hin data m
  rwa [h] at hwrites

/-- What is stored at the front of a range stands before what is left of it. -/
theorem octetsAt_pasted_front (h : start + length ≤ m.size) (hdata : data.length ≤ length) :
    (m.pasted start data).octetsAt start length =
      data ++ (m.octetsAt start length).drop data.length := by
  have hsplit : ∀ m : Memory, m.octetsAt start length =
      m.octetsAt start data.length ++ m.octetsAt (start + data.length) (length - data.length) := fun m => by
    unfold octetsAt
    rw [← List.drop_drop, ← List.take_add, Nat.add_sub_cancel' hdata]
  have hback : (m.octetsAt start length).drop data.length =
      m.octetsAt (start + data.length) (length - data.length) := by
    unfold octetsAt
    rw [List.drop_take, List.drop_drop]
  rw [hsplit, octetsAt_pasted (by omega), octetsAt_pasted_of_apart (by omega) (Or.inr (Nat.le_refl _)),
    hback]

/-- To put data in front of what two buffers hold is to put so much of it as there is room for in front of what
the first one holds, and the others in front of what the second one holds. -/
theorem overlay_append (data held behind : Bytes) :
    (data.take held.length ++ held.drop (data.take held.length).length) ++
      (data.drop held.length ++ behind.drop (data.drop held.length).length) =
    data ++ (held ++ behind).drop data.length := by
  rw [List.length_take, List.length_drop, List.drop_append]
  rcases Nat.le_total data.length held.length with hle | hle
  · rw [List.take_of_length_le hle, List.drop_of_length_le hle, Nat.min_eq_right hle]
    simp
  · have hfull : held.drop held.length = [] := List.drop_length
    have hbeyond : held.drop data.length = [] := List.drop_of_length_le hle
    rw [Nat.min_eq_left hle, hfull, hbeyond, List.append_nil, List.nil_append, ← List.append_assoc,
      List.take_append_drop]

/-- **Buffers that do not meet hold the data, and then what they held before.** -/
theorem gathered_scatter (hinside : m.Inside iovs)
    (hpairwise : (iovs.map IoVec.region).Pairwise Region.Disjoint)
    (hfits : data.length ≤ IoVec.total iovs) (h : scatter iovs data m = .ok () m') :
    m'.gathered iovs = data ++ (m.gathered iovs).drop data.length := by
  induction iovs generalizing data m with
  | nil =>
    have hdata : data = [] := List.eq_nil_of_length_eq_zero (Nat.le_zero.mp hfits)
    rw [hdata]
    rfl
  | cons v iovs ih =>
    obtain ⟨hv, hrest⟩ := List.forall_mem_cons.mp hinside
    obtain ⟨hapart, hpairwise⟩ := List.pairwise_cons.mp hpairwise
    by_cases hdata : data = []
    · subst hdata
      rw [scatter_nil] at h
      cases h
      rfl
    rw [scatter_cons hv hdata] at h
    rw [IoVec.total_cons] at hfits
    -- The first buffer is filled in a store that the others do not see, and they are filled without it.
    have hpart : (data.take v.length.toNat).length ≤ v.length.toNat := List.length_take_le ..
    have hstored : m.SameOutside [v.region] (m.pasted v.ptr.toNat (data.take v.length.toNat)) :=
      sameOutside_pasted (List.mem_singleton_self _) (Nat.le_refl _) (Nat.add_le_add_left hpart _)
    have hothers : (m.pasted v.ptr.toNat (data.take v.length.toNat)).gathered iovs = m.gathered iovs :=
      hstored.gathered_eq fun w hw r hr => by
        rw [List.mem_singleton.mp hr]
        exact (hapart w.region (List.mem_map_of_mem hw)).symm
    have hfirst : m'.octetsAt v.ptr.toNat v.length.toNat =
        (m.pasted v.ptr.toNat (data.take v.length.toNat)).octetsAt v.ptr.toNat v.length.toNat :=
      (scatter_outside h).octetsAt_eq hapart
    have hscattered := ih (hstored.inside hrest) hpairwise (by rw [List.length_drop]; omega) h
    have hoverlay := overlay_append data (m.octetsAt v.ptr.toNat v.length.toNat) (m.gathered iovs)
    rw [length_octetsAt hv] at hoverlay
    rw [gathered_cons, gathered_cons, hfirst, octetsAt_pasted_front hv hpart, hscattered, hothers, hoverlay]

/-- Buffers that come behind get what the ones before have left of the data. -/
theorem scatter_append (h : m.Inside iovs) (more : List IoVec) (data : Bytes) :
    scatter (iovs ++ more) data m =
      (do scatter iovs data; scatter more (data.drop (IoVec.total iovs))) m := by
  induction iovs generalizing data m with
  | nil => rfl
  | cons v iovs ih =>
    obtain ⟨hv, hrest⟩ := List.forall_mem_cons.mp h
    by_cases hdata : data = []
    · rw [hdata, scatter_nil, run_bind_ok (scatter_nil _ _), List.drop_nil, scatter_nil]
    · have hfilled := ih (m := m.pasted v.ptr.toNat (data.take v.length.toNat))
        (fun w hw => by rw [size_pasted]; exact hrest w hw) (data.drop v.length.toNat)
      rw [List.cons_append, scatter_cons hv hdata, hfilled, List.drop_drop, IoVec.total_cons]
      show EStateM.bind _ _ _ = EStateM.bind _ _ _
      unfold EStateM.bind
      rw [scatter_cons hv hdata]

/-- What comes of scattering data over buffers. -/
structure Scatters (m : Memory) (iovs : List IoVec) (data : Bytes) : Prop where
  /-- It succeeds, and changes nothing outside of the buffers. -/
  succeeds : ∃ m', scatter iovs data m = .ok () m' ∧ m.SameOutside (iovs.map IoVec.region) m'
  /-- All of the data goes into them: whatever buffers there are behind them get nothing. -/
  consumed : ∀ more, scatter (iovs ++ more) data m = scatter iovs data m
  /-- If the buffers do not meet, then what is gathered from them afterwards is the data, and behind it what
  was gathered from them before, but for so many octets. -/
  gathered : (iovs.map IoVec.region).Pairwise Region.Disjoint → ∀ m', scatter iovs data m = .ok () m' →
    ∃ held, gather iovs m = .ok held m ∧ gather iovs m' = .ok (data ++ held.drop data.length) m'

/-- **Data that fits is scattered**, and buffers that do not meet give it back. What is gathered from buffers
that are in memory is as much as they have room for. -/
theorem scatter_then_gather (m : Memory) (iovs : List IoVec) (hcheck : requireIovecs iovs m = .ok () m) :
    (∀ data : Bytes, data.length ≤ IoVec.capacity iovs → m.Scatters iovs data) ∧
    (IoVec.total iovs < UInt64.size →
      ∃ held, gather iovs m = .ok held m ∧ held.length = IoVec.capacity iovs) := by
  have hinside : m.Inside iovs := requireIovecs_ok hcheck
  have hcapacity := IoVec.capacity_eq iovs
  refine ⟨fun data hdata => ⟨?_, fun more => ?_, fun hpairwise m' hscatter => ?_⟩, fun htotal => ?_⟩
  · obtain ⟨m', hscatter⟩ := scatter_run hinside data
    exact ⟨m', hscatter, scatter_outside hscatter⟩
  · obtain ⟨m', hscatter⟩ := scatter_run hinside data
    rw [scatter_append hinside, List.drop_of_length_le (by omega), run_bind_ok hscatter, scatter_nil,
      hscatter]
  · refine ⟨_, gather_run hinside, ?_⟩
    rw [gather_run ((scatter_outside hscatter).inside hinside),
      gathered_scatter hinside hpairwise (by omega) hscatter]
  · refine ⟨_, gather_run hinside, ?_⟩
    rw [length_gathered hinside, hcapacity]
    unfold UInt64.size at *
    omega

/-- Four octets over buffers of two and three, with an empty one between them. -/
theorem four_octets_scattered : requireIovecs [⟨6, 2⟩, ⟨7, 0⟩, ⟨1, 3⟩] (filled 8 7) = .ok () (filled 8 7) ∧
    ∃ m', scatter [⟨6, 2⟩, ⟨7, 0⟩, ⟨1, 3⟩] [1, 2, 3, 4] (filled 8 7) = .ok () m' ∧
      gather [⟨6, 2⟩, ⟨7, 0⟩, ⟨1, 3⟩] m' = .ok [1, 2, 3, 4, 7] m' := by
  have hcheck : requireIovecs [⟨6, 2⟩, ⟨7, 0⟩, ⟨1, 3⟩] (filled 8 7) = .ok () (filled 8 7) := rfl
  have hscatters := (scatter_then_gather _ _ hcheck).1 [1, 2, 3, 4] (by decide)
  obtain ⟨m', hscatter, -⟩ := hscatters.succeeds
  obtain ⟨held, hheld, hgather⟩ := hscatters.gathered (by decide) m' hscatter
  obtain rfl : [7, 7, 7, 7, 7] = held := by
    injection hheld
  exact ⟨hcheck, m', hscatter, hgather⟩

end Memory

end WasiSandbox
