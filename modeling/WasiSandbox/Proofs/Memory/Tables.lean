import WasiSandbox.Proofs.Host.Variables
import WasiSandbox.Proofs.Memory.Regions
import Mathlib.Algebra.GroupWithZero.Nat

/-! # String tables come back as their strings

The block of a table is its strings, each with its NUL behind it, and the `i`-th pointer is to where the
`i`-th of them begins (`block_ofList`, `offsets_ofList`). If block and pointers fit into memory, writing the
table puts the one and the other there, and only then (`write_run`, `write_fits`). As long as they do not lie
over one another, the guest finds the pointers unharmed, and behind each of them its string: what stands
before the first NUL is all of it, because it has no NUL itself (`write_decodes`). -/

namespace WasiSandbox

/-- No address lies in both. -/
def Region.Disjoint (r r' : Region) : Prop := ∀ a, r.Holds a → ¬ r'.Holds a

/-- Regions do not meet if one of them is empty, or ends before the other begins. -/
theorem Region.disjoint_iff {r r' : Region} : r.Disjoint r' ↔ r.length = 0 ∨ r'.length = 0 ∨
    r.start + r.length ≤ r'.start ∨ r'.start + r'.length ≤ r.start := by
  constructor
  · intro h
    have hboth := h (max r.start r'.start)
    unfold Region.Holds at hboth
    omega
  · rintro h a ⟨hfirst, hlast⟩ ⟨hfirst', hlast'⟩
    omega

instance (r r' : Region) : Decidable (r.Disjoint r') := decidable_of_iff _ Region.disjoint_iff.symm

/-- Of two regions that are not empty, one ends before the other begins. -/
theorem Region.Disjoint.apart {r r' : Region} (h : r.Disjoint r') (hr : 0 < r.length)
    (hr' : 0 < r'.length) : r.start + r.length ≤ r'.start ∨ r'.start + r'.length ≤ r.start := by
  have hcases := Region.disjoint_iff.mp h
  omega

namespace Memory

variable {m m' : Memory} {start length k n : Nat} {data front back text : Bytes} {p q a b : UInt32}

/-! ### Parts of what is stored -/

theorem pasteFrom_append (a : Array UInt8) (start : Nat) (front back : Bytes) :
    pasteFrom a start (front ++ back) = pasteFrom (pasteFrom a start front) (start + front.length) back := by
  induction front generalizing a start with
  | nil => rfl
  | cons b front ih =>
    rw [List.cons_append, pasteFrom, pasteFrom, ih, List.length_cons, Nat.add_right_comm, Nat.add_assoc start]

theorem pasted_append (m : Memory) (start : Nat) (front back : Bytes) :
    m.pasted start (front ++ back) = (m.pasted start front).pasted (start + front.length) back :=
  congrArg Memory.mk (pasteFrom_append m.octets start front back)

/-- Octets of a range are octets of a part of it. -/
theorem octetsAt_part (h : k + n ≤ length) :
    m.octetsAt (start + k) n = ((m.octetsAt start length).drop k).take n := by
  unfold octetsAt
  rw [List.drop_take, List.take_take, List.drop_drop, Nat.min_eq_left (by omega)]

/-- What was stored is there part for part. -/
theorem octetsAt_pasted_part (h : start + data.length ≤ m.size) (hk : k + n ≤ data.length) :
    (m.pasted start data).octetsAt (start + k) n = (data.drop k).take n := by
  rw [octetsAt_part hk, octetsAt_pasted h]

/-- **A word that was written is read again.** -/
theorem readU32_of_octets {value : UInt32} (h : p.toNat + 4 ≤ m.size)
    (hoctets : m.octetsAt p.toNat 4 = littleEndian 4 value.toNat) : readU32 p m = .ok value m := by
  rw [readU32_run h, hoctets, ofLittleEndian_littleEndian value.toNat_lt, UInt32.ofNat_toNat]

theorem writeU32_ok {u : Unit} (h : writeU32 p a m = .ok u m') :
    p.toNat + 4 ≤ m.size ∧ m' = m.pasted p.toNat (littleEndian 4 a.toNat) := by
  have hfit : p.toNat + 4 ≤ m.size := store_ok h
  rw [writeU32_run hfit] at h
  injection h with _ hm
  exact ⟨hfit, hm.symm⟩

theorem octetsAt_word (h : start + 4 ≤ m.size) (n : Nat) :
    (m.pasted start (littleEndian 4 n)).octetsAt start 4 = littleEndian 4 n := by
  have hlength : (littleEndian 4 n).length = 4 := length_littleEndian ..
  have hfit : start + (littleEndian 4 n).length ≤ m.size := by rwa [hlength]
  have hoctets := octetsAt_pasted hfit
  rwa [hlength] at hoctets

/-- Of two words that were written apart from one another, both are read again. -/
theorem writeU32_twice {u : Unit} (hrun : (do writeU32 p a; writeU32 q b) m = .ok u m')
    (hapart : Region.Disjoint ⟨p.toNat, 4⟩ ⟨q.toNat, 4⟩) :
    readU32 p m' = .ok a m' ∧ readU32 q m' = .ok b m' := by
  obtain ⟨_, m₁, hfirst, hsecond⟩ := run_bind_eq_ok hrun
  obtain ⟨hp, rfl⟩ := writeU32_ok hfirst
  obtain ⟨hq, rfl⟩ := writeU32_ok hsecond
  have hwidth : (littleEndian 4 b.toNat).length = 4 := length_littleEndian ..
  refine ⟨readU32_of_octets (by rwa [size_pasted, size_pasted]) ?_,
    readU32_of_octets (by rwa [size_pasted]) (octetsAt_word hq b.toNat)⟩
  rw [octetsAt_pasted_of_apart (by rwa [hwidth]), octetsAt_word hp]
  rw [hwidth]
  exact hapart.apart (show 0 < 4 by decide) (show 0 < 4 by decide)

/-! ### Strings with a NUL -/

/-- The octets from an address on, up to the first NUL if there is one. -/
def stringAt? (m : Memory) (start : Nat) : Option Bytes :=
  let rest := m.octets.toList.drop start
  if 0 ∈ rest then some (rest.takeWhile (· ≠ 0)) else none

theorem stringAt?_of_drop (hrest : m.octets.toList.drop start = text ++ 0 :: back) (htext : 0 ∉ text) :
    m.stringAt? start = some text := by
  have hnul : ∀ b ∈ text, decide (b ≠ 0) = true := fun b hb => by
    refine decide_eq_true fun heq => htext ?_
    rwa [← heq]
  unfold stringAt?
  rw [hrest]
  dsimp only
  rw [if_pos (List.mem_append_right _ List.mem_cons_self), List.takeWhile_append_of_pos hnul,
    List.takeWhile_cons_of_neg (by decide), List.append_nil]

/-- A string in the middle of what is stored. -/
theorem stringAt?_pasted (hfit : start + (front ++ (text ++ 0 :: back)).length ≤ m.size)
    (htext : 0 ∉ text) :
    (m.pasted start (front ++ (text ++ 0 :: back))).stringAt? (start + front.length) = some text := by
  have hbefore : (m.octets.toList.take start).length = start := by
    rw [List.length_take, Array.length_toList]
    unfold size at hfit
    omega
  have hrest : (m.pasted start (front ++ (text ++ 0 :: back))).octets.toList.drop (start + front.length) =
      text ++ 0 :: (back ++ m.octets.toList.drop (start + (front ++ (text ++ 0 :: back)).length)) := by
    unfold pasted
    rw [toList_pasteFrom hfit, List.append_assoc, ← List.drop_drop, List.drop_left' hbefore,
      List.append_assoc, List.drop_left' rfl, List.append_assoc, List.cons_append]
  exact stringAt?_of_drop hrest htext

end Memory

namespace StringTable

open Memory

variable {t : StringTable} {items : List String} {item : String} {m m' : Memory} {ptrs block : UInt32}
  {starts : List UInt32} {start : UInt32} {i : Nat}

/-! ### The layout of a table -/

/-- A string with its NUL. -/
def terminated (item : String) : Bytes := Text.utf8 item ++ [0]

/-- The size of the strings together, each with its NUL. -/
def total (items : List String) : Nat := (items.map fun item => (Text.utf8 item).length + 1).sum

theorem length_block (items : List String) : (items.flatMap terminated).length = total items := by
  rw [List.length_flatMap]
  unfold total terminated
  simp

/-- Every string counts with its NUL. -/
theorem length_le_total (items : List String) : items.length ≤ total items := by
  unfold total
  induction items with
  | nil => exact Nat.le_refl 0
  | cons item items ih =>
    rw [List.map_cons, List.sum_cons, List.length_cons]
    omega

theorem ofList_concat (items : List String) (item : String) :
    ofList (items ++ [item]) = (ofList items).push item := by
  unfold ofList
  rw [List.foldl_append]
  rfl

theorem block_ofList (items : List String) : (ofList items).block = items.flatMap terminated := by
  induction items using List.reverseRecOn with
  | nil => rfl
  | append_singleton items item ih =>
    rw [ofList_concat, push, ih, List.flatMap_append, List.flatMap_singleton, terminated, List.append_assoc]

theorem size_ofList (items : List String) : (ofList items).block.length = total items := by
  rw [block_ofList, length_block]

theorem offsets_ofList (items : List String) :
    (ofList items).offsets = (List.range items.length).map fun i => .ofNat (total (items.take i)) := by
  induction items using List.reverseRecOn with
  | nil => rfl
  | append_singleton items item ih =>
    have hfront : ∀ i ∈ List.range items.length,
        UInt32.ofNat (total (items.take i)) = .ofNat (total ((items ++ [item]).take i)) := fun i hi => by
      rw [List.take_append_of_le_length (Nat.le_of_lt (List.mem_range.mp hi))]
    rw [ofList_concat]
    show (ofList items).offsets ++ [UInt32.ofNat (ofList items).block.length] = _
    rw [ih, size_ofList, List.length_append, List.length_singleton, List.range_succ,
      List.map_append, List.map_singleton, List.take_left, List.map_congr_left hfront]

theorem length_offsets (items : List String) : (ofList items).offsets.length = items.length := by
  rw [offsets_ofList, List.length_map, List.length_range]

theorem offsets_ne_nil_iff : (ofList items).offsets ≠ [] ↔ items ≠ [] := by
  rw [← List.length_pos_iff, ← List.length_pos_iff, length_offsets]

/-- What is before an item of a list, the item, and what is behind it. -/
theorem split_at {α : Type} {l : List α} {a : α} (h : l[i]? = some a) :
    l = l.take i ++ a :: l.drop (i + 1) ∧ (l.take i).length = i := by
  obtain ⟨hi, rfl⟩ := List.getElem?_eq_some_iff.mp h
  refine ⟨?_, List.length_take_of_le (Nat.le_of_lt hi)⟩
  rw [← List.drop_eq_getElem_cons hi, List.take_append_drop]

theorem total_split (h : items[i]? = some item) : total items =
    total (items.take i) + ((Text.utf8 item).length + 1) + total (items.drop (i + 1)) := by
  conv_lhs => rw [(split_at h).1]
  unfold total
  rw [List.map_append, List.sum_append, List.map_cons, List.sum_cons, ← Nat.add_assoc]

/-- The strings can be counted, and all of them together have a size, in words of 32 bits. -/
theorem fits_ofList (htotal : total items < UInt32.size) (hcount : items.length < 1 <<< 30) :
    (ofList items).Fits where
  count := by rwa [length_offsets]
  block := by rwa [size_ofList]

/-! ### Writing the pointers -/

/-- The array of pointers into the block. -/
def pointers (block : UInt32) (starts : List UInt32) : Bytes :=
  starts.flatMap fun start => littleEndian 4 (block + start).toNat

theorem length_pointers (block : UInt32) (starts : List UInt32) :
    (pointers block starts).length = 4 * starts.length := by
  induction starts with
  | nil => rfl
  | cons start starts ih =>
    unfold pointers at ih ⊢
    rw [List.flatMap_cons, List.length_append, ih, length_littleEndian, List.length_cons]
    omega

/-- The `i`-th pointer in the array. -/
theorem pointers_part (h : starts[i]? = some start) :
    ((pointers block starts).drop (4 * i)).take 4 = littleEndian 4 (block + start).toNat := by
  obtain ⟨hsplit, hi⟩ := split_at h
  have hfront : (pointers block (starts.take i)).length = 4 * i := by rw [length_pointers, hi]
  have hwhole : pointers block starts = pointers block (starts.take i) ++
      (littleEndian 4 (block + start).toNat ++ pointers block (starts.drop (i + 1))) := by
    conv_lhs => rw [hsplit]
    unfold pointers
    rw [List.flatMap_append, List.flatMap_cons]
  rw [hwhole, List.drop_left' hfront, List.take_left' (length_littleEndian ..)]

theorem guestOffset_run {ptr distance : UInt32} (h : ptr.toNat + distance.toNat < UInt32.size) :
    guestOffset ptr distance m = .ok (ptr + distance) m := by
  unfold guestOffset
  rw [if_pos h]
  rfl

theorem ofChecked_run {α : Type} {c : Checked α} {a : α} (h : c = .ok a) :
    (Memory.ofChecked c : MemoryM α) m = .ok a m := by
  rw [h]
  rfl

/-- **The pointers are written one behind the other**, if the array fits into memory. -/
theorem writePointers_run (hcount : i + starts.length < 1 <<< 30) (hm : m.size ≤ UInt32.size)
    (hfit : starts ≠ [] → ptrs.toNat + 4 * (i + starts.length) ≤ m.size)
    (htarget : ∀ start ∈ starts, block.toNat + start.toNat < UInt32.size) :
    writePointers ptrs block i starts m =
      .ok () (m.pasted (ptrs.toNat + 4 * i) (pointers block starts)) := by
  induction starts generalizing i m with
  | nil => rfl
  | cons start starts ih =>
    have hfit := hfit (List.cons_ne_nil _ _)
    obtain ⟨hstart, hstarts⟩ := List.forall_mem_cons.mp htarget
    rw [List.length_cons] at hcount hfit
    have hdistance : (UInt32.ofNat (4 * i)).toNat = 4 * i :=
      UInt32.toNat_ofNat_of_lt' (show 4 * i < 1 <<< 32 by omega)
    have hslot : ptrs.toNat + (UInt32.ofNat (4 * i)).toNat < UInt32.size := by omega
    have hplace : (ptrs + UInt32.ofNat (4 * i)).toNat = ptrs.toNat + 4 * i := by
      rw [Memory.toNat_add_of_lt hslot, hdistance]
    have hwidth : (littleEndian 4 (block + start).toNat).length = 4 := length_littleEndian ..
    unfold writePointers
    rw [run_bind_ok (ofChecked_run (offset_index (by omega))), run_bind_ok (guestOffset_run hslot),
      run_bind_ok (guestOffset_run hstart), run_bind_ok (writeU32_run (by omega) _), hplace,
      ih (by omega) (by rwa [size_pasted]) (fun _ => by rw [size_pasted]; omega) hstarts]
    have hcons : pointers block (start :: starts) =
        littleEndian 4 (block + start).toNat ++ pointers block starts := List.flatMap_cons
    rw [hcons, pasted_append, hwidth]
    rfl

/-- Pointers that have been written fit into memory. -/
theorem writePointers_fits {u : Unit} (hcount : i + starts.length < 1 <<< 30)
    (h : writePointers ptrs block i starts m = .ok u m') (hne : starts ≠ []) :
    ptrs.toNat + 4 * (i + starts.length) ≤ m.size := by
  induction starts generalizing i m with
  | nil => exact absurd rfl hne
  | cons start starts ih =>
    rw [List.length_cons] at hcount ⊢
    unfold writePointers at h
    obtain ⟨distance, m₀, hmul, h₀⟩ := run_bind_eq_ok h
    obtain rfl : m₀ = m := (keeps_ofChecked _).ok hmul
    obtain rfl : 4 * i = distance :=
      Except.ok.inj ((offset_index (by omega)).symm.trans (ofChecked_ok hmul))
    obtain ⟨slot, m₁, hslot, h₁⟩ := run_bind_eq_ok h₀
    obtain rfl : m₁ = m₀ := (keeps_guestOffset _ _).ok hslot
    obtain ⟨target, m₂, htarget, h₂⟩ := run_bind_eq_ok h₁
    obtain rfl : m₂ = m₁ := (keeps_guestOffset _ _).ok htarget
    obtain ⟨_, m₃, hstore, hrest⟩ := run_bind_eq_ok h₂
    obtain ⟨hfit, rfl⟩ := writeU32_ok hstore
    have hplace := guestOffset_ok hslot
    have hdistance : (UInt32.ofNat (4 * i)).toNat = 4 * i :=
      UInt32.toNat_ofNat_of_lt' (show 4 * i < 1 <<< 32 by omega)
    rcases starts with _ | ⟨next, starts⟩
    · rw [List.length_nil]
      omega
    · have hlast := ih (by omega) hrest (List.cons_ne_nil _ _)
      rw [size_pasted] at hlast
      omega

/-! ### Writing a table -/

/-- **A table that fits into memory is written**, the array first. -/
theorem write_run (ht : t.Fits) (hm : m.size ≤ UInt32.size)
    (hblock : block.toNat + t.block.length ≤ m.size)
    (hptrs : t.offsets ≠ [] → ptrs.toNat + 4 * t.offsets.length ≤ m.size)
    (hstarts : ∀ start ∈ t.offsets, start.toNat < t.block.length) :
    t.write ptrs block m =
      .ok () ((m.pasted ptrs.toNat (pointers block t.offsets)).pasted block.toNat t.block) := by
  have hsize : t.blockSize.toNat = t.block.length := UInt32.toNat_ofNat_of_lt' ht.block
  have hpointers : writePointers ptrs block 0 t.offsets m =
      .ok () (m.pasted ptrs.toNat (pointers block t.offsets)) :=
    writePointers_run (by rw [Nat.zero_add]; exact ht.count) hm (by rwa [Nat.zero_add])
      fun start hstart => by
        have hlt := hstarts start hstart
        omega
  unfold write
  rw [run_bind_ok hpointers]
  exact store_run (by rwa [size_pasted, hsize]) hsize.symm

/-- A table that has been written fits into memory. -/
theorem write_fits {u : Unit} (ht : t.Fits) (h : t.write ptrs block m = .ok u m') :
    block.toNat + t.block.length ≤ m.size ∧
      (t.offsets ≠ [] → ptrs.toNat + 4 * t.offsets.length ≤ m.size) := by
  obtain ⟨_, m₁, hpointers, hblock⟩ := run_bind_eq_ok h
  have hcount : 0 + t.offsets.length < 1 <<< 30 := by
    rw [Nat.zero_add]
    exact ht.count
  have hwrites : WritesIn [⟨ptrs.toNat, 4 * t.offsets.length⟩] (writePointers ptrs block 0 t.offsets) :=
    writePointers_writesIn List.mem_cons_self (Nat.mul_le_mul_left 4 (Nat.le_of_eq (Nat.zero_add _)))
  have hsame := hwrites m
  rw [hpointers] at hsame
  have hstored := store_ok hblock
  rw [show m₁.size = m.size from hsame.size,
    show t.blockSize.toNat = t.block.length from UInt32.toNat_ofNat_of_lt' ht.block] at hstored
  refine ⟨hstored, fun hne => ?_⟩
  have hfit := writePointers_fits hcount hpointers hne
  rwa [Nat.zero_add] at hfit

/-- A string begins inside the block. -/
theorem offsets_lt (items : List String) :
    ∀ start ∈ (ofList items).offsets, start.toNat < (ofList items).block.length := by
  intro start hstart
  rw [offsets_ofList] at hstart
  obtain ⟨i, hi, rfl⟩ := List.mem_map.mp hstart
  have hsplit := total_split (List.getElem?_eq_getElem (List.mem_range.mp hi))
  rw [size_ofList]
  exact Nat.lt_of_le_of_lt (toNat_ofNat_le _) (by omega)

/-- The table of strings is written to memory that has room for it. -/
theorem write_ofList_run (htotal : total items < UInt32.size) (hcount : items.length < 1 <<< 30)
    (hm : m.size ≤ UInt32.size) (hblock : block.toNat + total items ≤ m.size)
    (hptrs : items ≠ [] → ptrs.toNat + 4 * items.length ≤ m.size) :
    (ofList items).write ptrs block m =
      .ok () ((m.pasted ptrs.toNat (pointers block (ofList items).offsets)).pasted block.toNat
        (ofList items).block) := by
  have ht := fits_ofList htotal hcount
  exact write_run ht hm (by rwa [size_ofList]) (by rwa [offsets_ne_nil_iff, length_offsets])
    (offsets_lt items)

/-- There was room for a table of strings that has been written. -/
theorem write_ofList_fits {u : Unit} (htotal : total items < UInt32.size)
    (hcount : items.length < 1 <<< 30) (h : (ofList items).write ptrs block m = .ok u m') :
    block.toNat + total items ≤ m.size ∧ (items ≠ [] → ptrs.toNat + 4 * items.length ≤ m.size) := by
  have hfit := write_fits (fits_ofList htotal hcount) h
  rwa [size_ofList, offsets_ne_nil_iff, length_offsets] at hfit

/-! ### Reading it -/

/-- Behind every pointer of the array stands its string, inside the block. -/
def Decodes (items : List String) (ptrs block : UInt32) (m : Memory) : Prop :=
  ∀ i item, items[i]? = some item → ∃ p : UInt32,
    readU32 (.ofNat (ptrs.toNat + 4 * i)) m = .ok p m ∧ m.stringAt? p.toNat = some (Text.utf8 item) ∧
      block.toNat ≤ p.toNat ∧ p.toNat + (Text.utf8 item).length < block.toNat + total items

/-- **A table that lies in memory comes back as its strings.** -/
theorem decodes_pasted (hnul : ∀ item ∈ items, 0 ∉ Text.utf8 item) (hm : m.size ≤ UInt32.size)
    (htotal : total items < UInt32.size) (hblock : block.toNat + total items ≤ m.size)
    (hptrs : items ≠ [] → ptrs.toNat + 4 * items.length ≤ m.size)
    (hapart : Region.Disjoint ⟨ptrs.toNat, 4 * items.length⟩ ⟨block.toNat, total items⟩) :
    Decodes items ptrs block ((m.pasted ptrs.toNat (pointers block (ofList items).offsets)).pasted
      block.toNat (ofList items).block) := by
  intro i item hitem
  obtain ⟨hsplit, hi⟩ := split_at hitem
  have hlt : i < items.length := (List.getElem?_eq_some_iff.mp hitem).1
  have htotals := total_split hitem
  have hptrs := hptrs (List.ne_nil_of_mem (List.mem_of_getElem? hitem))
  have hlength := size_ofList items
  have hpointers : (pointers block (ofList items).offsets).length = 4 * items.length := by
    rw [length_pointers, length_offsets]
  -- The pointer to the string does not leave the words.
  have hstart : (UInt32.ofNat (total (items.take i))).toNat = total (items.take i) :=
    UInt32.toNat_ofNat_of_lt' (by omega)
  have htarget : (block + UInt32.ofNat (total (items.take i))).toNat =
      block.toNat + total (items.take i) := by
    rw [UInt32.toNat_add, hstart]
    exact Nat.mod_eq_of_lt (Nat.lt_of_lt_of_le (by omega) hm)
  have hslot : (UInt32.ofNat (ptrs.toNat + 4 * i)).toNat = ptrs.toNat + 4 * i :=
    UInt32.toNat_ofNat_of_lt' (Nat.lt_of_lt_of_le (by omega) hm)
  have hoffset : (ofList items).offsets[i]? = some (.ofNat (total (items.take i))) := by
    rw [offsets_ofList, List.getElem?_map, List.getElem?_range hlt, Option.map_some]
  refine ⟨block + .ofNat (total (items.take i)), readU32_of_octets ?_ ?_, ?_, ?_, ?_⟩
  · rw [hslot, size_pasted, size_pasted]
    omega
  · have hbefore := hapart.apart (show 0 < 4 * items.length by omega) (show 0 < total items by omega)
    dsimp only at hbefore
    rw [hslot, octetsAt_pasted_of_apart (by rw [size_pasted, hlength]; exact hblock)
      (by rw [hlength]; omega),
      octetsAt_pasted_part (by rw [hpointers]; exact hptrs) (by rw [hpointers]; omega),
      pointers_part hoffset]
  · have hfront : ((items.take i).flatMap terminated).length = total (items.take i) := length_block _
    have hlayout : (ofList items).block = (items.take i).flatMap terminated ++
        (Text.utf8 item ++ 0 :: (items.drop (i + 1)).flatMap terminated) := by
      rw [block_ofList]
      conv_lhs => rw [hsplit]
      rw [List.flatMap_append, List.flatMap_cons, terminated, List.append_assoc, List.singleton_append]
    rw [htarget, hlayout, ← hfront]
    refine stringAt?_pasted ?_ (hnul item (List.mem_of_getElem? hitem))
    rw [← hlayout, size_pasted, hlength]
    exact hblock
  · omega
  · omega

/-! ### What is told before -/

/-- What a guest is told before it makes room for a table are these two words. -/
structure Reports (t : StringTable) (count size : UInt32) : Prop where
  /-- They are written just if there is room for both of them in memory. -/
  succeeds : ∀ countPtr sizePtr m, (∃ m', t.writeSizes countPtr sizePtr m = .ok () m') ↔
    countPtr.toNat + 4 ≤ m.size ∧ sizePtr.toNat + 4 ≤ m.size
  /-- Nothing but these words is written, and both can be read where they were to go, unless they lie over
  one another. -/
  written : ∀ countPtr sizePtr m m', t.writeSizes countPtr sizePtr m = .ok () m' →
    m.SameOutside [⟨countPtr.toNat, 4⟩, ⟨sizePtr.toNat, 4⟩] m' ∧
      (Region.Disjoint ⟨countPtr.toNat, 4⟩ ⟨sizePtr.toNat, 4⟩ →
        readU32 countPtr m' = .ok count m' ∧ readU32 sizePtr m' = .ok size m')

/-- **A table reports its number of strings and the size of its block.** -/
theorem reports (t : StringTable) : t.Reports t.count t.blockSize where
  succeeds countPtr sizePtr m := by
    unfold writeSizes
    constructor
    · rintro ⟨m', hrun⟩
      obtain ⟨_, m₁, hfirst, hsecond⟩ := run_bind_eq_ok hrun
      obtain ⟨hcount, rfl⟩ := writeU32_ok hfirst
      obtain ⟨hsize, -⟩ := writeU32_ok hsecond
      exact ⟨hcount, by rwa [size_pasted] at hsize⟩
    · rintro ⟨hcount, hsize⟩
      rw [run_bind_ok (writeU32_run hcount t.count)]
      exact ⟨_, writeU32_run (by rwa [size_pasted]) t.blockSize⟩
  written countPtr sizePtr m m' hrun := by
    refine ⟨?_, fun hapart => writeU32_twice hrun hapart⟩
    have hwrites : WritesIn [⟨countPtr.toNat, 4⟩, ⟨sizePtr.toNat, 4⟩] (t.writeSizes countPtr sizePtr) :=
      .bind (store_range_writesIn List.mem_cons_self) fun _ =>
        store_range_writesIn (List.mem_cons_of_mem _ List.mem_cons_self)
    have hsame := hwrites m
    rwa [hrun] at hsame

/-- **The two steps of a string table give the strings back.** Writing succeeds if block and array fit into
memory, and then every pointer leads to its string, as long as the two are apart; nothing else in memory is
touched. What a guest is told before, if it has room for two words, are the sizes of both. For the environment,
the strings are the keys with their last values, in the order of the keys. -/
theorem write_decodes (hnul : ∀ item ∈ items, 0 ∉ Text.utf8 item) (htotal : total items < UInt32.size)
    (hcount : items.length < 1 <<< 30) (hm : m.size ≤ UInt32.size) (ptrs block : UInt32) :
    ((∃ m', (ofList items).write ptrs block m = .ok () m') ↔
      block.toNat + (ofList items).blockSize.toNat ≤ m.size ∧
        (items ≠ [] → ptrs.toNat + 4 * (ofList items).count.toNat ≤ m.size)) ∧
    (∀ m', (ofList items).write ptrs block m = .ok () m' →
      m.SameOutside [⟨ptrs.toNat, 4 * items.length⟩, ⟨block.toNat, total items⟩] m' ∧
        (Region.Disjoint ⟨ptrs.toNat, 4 * items.length⟩ ⟨block.toNat, total items⟩ →
          Decodes items ptrs block m')) ∧
    (ofList items).count.toNat = items.length ∧ (ofList items).blockSize.toNat = total items ∧
    (ofList items).Reports (ofList items).count (ofList items).blockSize ∧
    ∀ vars, items = Environment.strings vars → Environment.Renders vars items := by
  have ht := fits_ofList htotal hcount
  have hcountWord : (ofList items).count.toNat = items.length :=
    (UInt32.toNat_ofNat_of_lt' (Nat.lt_trans ht.count (by decide))).trans (length_offsets items)
  have hsizeWord : (ofList items).blockSize.toNat = total items :=
    (UInt32.toNat_ofNat_of_lt' ht.block).trans (size_ofList items)
  refine ⟨?_, fun m' h => ⟨?_, fun hapart => ?_⟩, hcountWord, hsizeWord, ?_, ?_⟩
  · rw [hcountWord, hsizeWord]
    exact ⟨fun ⟨m', h⟩ => write_ofList_fits htotal hcount h,
      fun ⟨hblock, hptrs⟩ => ⟨_, write_ofList_run htotal hcount hm hblock hptrs⟩⟩
  · have hsame := write_writesIn (ofList items) ptrs block m
    rwa [h, regions, length_offsets, size_ofList] at hsame
  · obtain ⟨hblock, hptrs⟩ := write_ofList_fits htotal hcount h
    rw [write_ofList_run htotal hcount hm hblock hptrs] at h
    cases h
    exact decodes_pasted hnul hm htotal hblock hptrs hapart
  · exact (ofList items).reports
  · rintro vars rfl
    exact Environment.rendered_strings vars

/-- Three strings, the last of them empty, in a memory of 64 octets: the guest is told that there are three of
them and nine octets, and finds them. -/
theorem three_strings_decode :
    (∃ m', (ofList ["perl", "-e", ""]).writeSizes 56 60 (Memory.filled 64 0) = .ok () m' ∧
      readU32 56 m' = .ok 3 m' ∧ readU32 60 m' = .ok 9 m') ∧
    ∃ m', (ofList ["perl", "-e", ""]).write 8 32 (Memory.filled 64 0) = .ok () m' ∧
      Decodes ["perl", "-e", ""] 8 32 m' := by
  have hnul : ∀ item ∈ ["perl", "-e", ""], 0 ∉ Text.utf8 item := by decide +kernel
  have hsize : (Memory.filled 64 0).size ≤ UInt32.size := by decide
  obtain ⟨hsucceeds, hwritten, -, -, hreports, -⟩ :=
    write_decodes hnul (by decide +kernel) (by decide) hsize 8 32
  refine ⟨?_, ?_⟩
  · obtain ⟨m', hm'⟩ := (hreports.succeeds 56 60 (Memory.filled 64 0)).mpr (by decide +kernel)
    have htold := (hreports.written 56 60 _ m' hm').2 (by decide +kernel)
    rw [show (ofList ["perl", "-e", ""]).count = 3 by decide +kernel,
      show (ofList ["perl", "-e", ""]).blockSize = 9 by decide +kernel] at htold
    exact ⟨m', hm', htold⟩
  · obtain ⟨m', hm'⟩ := hsucceeds.mpr (by decide +kernel)
    exact ⟨m', hm', (hwritten m' hm').2 (by decide +kernel)⟩

end StringTable

end WasiSandbox
