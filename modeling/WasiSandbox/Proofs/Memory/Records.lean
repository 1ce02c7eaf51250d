import WasiSandbox.Abi.Records
import WasiSandbox.Proofs.Memory.Buffers

/-! # Attribute records are written as a whole

A record is laid out by its size and by the numbers that stand in it, each in a field of its own
(`Layout`). To write it is to clear all of it and to put the fields in one after the other. As the fields
lie in what has been cleared, nothing but clearing can fail, and then memory is as it was
(`Layout.Writes.whole`). What stands there afterwards are the numbers in their fields, and zeros around them
(`Layout.Shows`). The three attribute records are written by layouts, so each of them comes back from the
octets that it was written to (`records_written_whole`). -/

namespace WasiSandbox

/-- The number in so many octets from the place on. -/
def numberAt (b : Bytes) (place width : Nat) : Nat := ofLittleEndian ((b.drop place).take width)

/-- Outside of the regions there are only zeros. -/
def BlankOutside (regions : List Region) (b : Bytes) : Prop :=
  ∀ i < b.length, (∀ r ∈ regions, ¬ r.Holds i) → b[i]? = some 0

/-! ### Layouts -/

/-- A number that stands at a place in a record. -/
structure Field where
  place : Nat
  width : Nat
  value : Nat
  width_pos : 0 < width
  value_lt : value < 1 <<< (8 * width)

namespace Field

def ofU8 (place : Nat) (value : UInt8) : Field := ⟨place, 1, value.toNat, by decide, value.toNat_lt⟩

def ofU16 (place : Nat) (value : UInt16) : Field := ⟨place, 2, value.toNat, by decide, value.toNat_lt⟩

def ofU32 (place : Nat) (value : UInt32) : Field := ⟨place, 4, value.toNat, by decide, value.toNat_lt⟩

def ofU64 (place : Nat) (value : UInt64) : Field := ⟨place, 8, value.toNat, by decide, value.toNat_lt⟩

def octets (f : Field) : Bytes := littleEndian f.width f.value

@[simp] theorem length_octets (f : Field) : f.octets.length = f.width := Memory.length_littleEndian ..

/-- Where the field lies in its record. -/
def region (f : Field) : Region := ⟨f.place, f.width⟩

/-- Where it lies in memory, if its record starts there. -/
def regionAt (start : Nat) (f : Field) : Region := ⟨start + f.place, f.width⟩

theorem holds_regionAt {f : Field} {start i : Nat} :
    (f.regionAt start).Holds (start + i) ↔ f.region.Holds i := by
  unfold regionAt region Region.Holds
  dsimp only
  omega

/-- Writes the field of the record at the pointer. -/
def put (ptr : UInt32) (f : Field) : MemoryM Unit := do
  Memory.store (← Memory.offset ptr (.ofNat f.place)) (.ofNat f.width) f.octets

/-- Writes fields one after the other. -/
def putAll (ptr : UInt32) : List Field → MemoryM Unit
  | [] => pure ()
  | f :: rest => do
    f.put ptr
    putAll ptr rest

end Field

/-- The size of a record and its fields, each of which starts where the one before has ended or behind. -/
structure Layout where
  size : UInt32
  fields : List Field
  inside : ∀ f ∈ fields, f.place + f.width ≤ size.toNat
  ordered : fields.Pairwise fun f g => f.place + f.width ≤ g.place

namespace Layout

/-- Clears the record and writes its fields. -/
def write (l : Layout) (ptr : UInt32) : MemoryM Unit := do
  Memory.clear ptr l.size
  Field.putAll ptr l.fields

/-- This is how the operation writes, whatever the pointer. -/
def Writes (l : Layout) (write : UInt32 → MemoryM Unit) : Prop := ∀ ptr, write ptr = l.write ptr

/-- These octets are the record: its numbers, and zeros around them. -/
structure Shows (l : Layout) (b : Bytes) : Prop where
  length : b.length = l.size.toNat
  number : ∀ f ∈ l.fields, numberAt b f.place f.width = f.value
  blank : BlankOutside (l.fields.map Field.region) b

end Layout

/-! ### Writing by a layout -/

namespace Memory

variable {m m' : Memory} {ptr distance size p : UInt32} {start i length place width : Nat} {f : Field}
  {fields : List Field} {data : Bytes} {regions : List Region}

theorem numberAt_octetsAt (h : place + width ≤ length) :
    numberAt (m.octetsAt start length) place width = ofLittleEndian (m.octetsAt (start + place) width) := by
  unfold numberAt
  rw [octetsAt_part h]

theorem store_error (h : m.size < ptr.toNat + size.toNat) :
    store ptr size data m = .error (.reported .fault) m := by
  unfold store range
  rw [if_neg (Nat.not_le_of_lt h)]

theorem clear_run (h : ptr.toNat + size.toNat ≤ m.size) :
    clear ptr size m = .ok () (m.pasted ptr.toNat (List.replicate size.toNat 0)) :=
  store_run h List.length_replicate

theorem getElem?_cleared (h : start + length ≤ m.size) (hi : i < length) :
    (m.pasted start (List.replicate length 0)).octets[start + i]? = some 0 := by
  have hlength : (List.replicate length (0 : UInt8)).length = length := List.length_replicate
  have hzeros : (m.pasted start (List.replicate length 0)).octetsAt start
      (List.replicate length (0 : UInt8)).length = List.replicate length 0 :=
    octetsAt_pasted (by rwa [hlength])
  rw [hlength] at hzeros
  rw [← getElem?_octetsAt hi, hzeros, List.getElem?_replicate_of_lt hi]

theorem offset_run (h : ptr.toNat + distance.toNat < UInt32.size) :
    offset ptr distance m = .ok (ptr + distance) m := by
  have hsum : UInt32.ofNat (ptr.toNat + distance.toNat) = ptr + distance := by
    rw [← UInt32.toNat_inj, UInt32.toNat_ofNat_of_lt' h, toNat_add_of_lt h]
  have hadd : Checked.add 32 ptr.toNat distance.toNat = .ok (ptr.toNat + distance.toNat) := if_pos h
  unfold offset
  rw [hadd]
  show ofChecked (.ok (UInt32.ofNat (ptr.toNat + distance.toNat))) m = _
  rw [hsum]
  rfl

theorem offset_ok (h : offset ptr distance m = .ok p m') : p.toNat = ptr.toNat + distance.toNat := by
  have hsum := ofChecked_ok h
  unfold Checked.add at hsum
  split at hsum
  · next hlt =>
    cases hsum
    exact UInt32.toNat_ofNat_of_lt' hlt
  · cases hsum

/-- Fields are written within their record, whatever comes of it. -/
theorem putAll_writesIn (hr : ⟨ptr.toNat, size.toNat⟩ ∈ regions)
    (hinside : ∀ f ∈ fields, f.place + f.width ≤ size.toNat) :
    WritesIn regions (Field.putAll ptr fields) := by
  induction fields with
  | nil => exact writesIn_of_keeps (keeps_pure _)
  | cons f fields ih =>
    obtain ⟨hf, hfields⟩ := List.forall_mem_cons.mp hinside
    have hplace := toNat_ofNat_le f.place
    have hwidth := toNat_ofNat_le f.width
    refine .bind (.look (keeps_ofChecked _) fun m p hp => ?_) fun _ => ih hfields
    have hstart := offset_ok hp
    exact store_writesIn hr (by dsimp only; omega) (by dsimp only; omega)

/-- **A field is written** to its place, if its record lies inside memory. -/
theorem put_run (hm : m.size ≤ UInt32.size) (hrecord : ptr.toNat + size.toNat ≤ m.size)
    (hinside : f.place + f.width ≤ size.toNat) :
    f.put ptr m = .ok () (m.pasted (ptr.toNat + f.place) f.octets) := by
  have hpos := f.width_pos
  have hsize : size.toNat < UInt32.size := size.toNat_lt
  have hplace : (UInt32.ofNat f.place).toNat = f.place := UInt32.toNat_ofNat_of_lt' (by omega)
  have hwidth : (UInt32.ofNat f.width).toNat = f.width := UInt32.toNat_ofNat_of_lt' (by omega)
  have hlt : ptr.toNat + (UInt32.ofNat f.place).toNat < UInt32.size := by omega
  have hsum : (ptr + UInt32.ofNat f.place).toNat = ptr.toNat + f.place := by
    rw [toNat_add_of_lt hlt, hplace]
  unfold Field.put
  rw [run_bind_ok (offset_run hlt), store_run (by omega) (by rw [hwidth, f.length_octets]), hsum]

/-- **The fields are written** one after the other, and none of them over another. -/
theorem putAll_run (hm : m.size ≤ UInt32.size) (hrecord : ptr.toNat + size.toNat ≤ m.size)
    (hinside : ∀ f ∈ fields, f.place + f.width ≤ size.toNat)
    (hordered : fields.Pairwise fun f g => f.place + f.width ≤ g.place) :
    ∃ m', Field.putAll ptr fields m = .ok () m' ∧
      m.SameOutside (fields.map (Field.regionAt ptr.toNat)) m' ∧
      ∀ f ∈ fields, m'.octetsAt (ptr.toNat + f.place) f.width = f.octets := by
  induction fields generalizing m with
  | nil => exact ⟨m, rfl, .refl m, fun f hf => absurd hf List.not_mem_nil⟩
  | cons f fields ih =>
    obtain ⟨hf, hfields⟩ := List.forall_mem_cons.mp hinside
    obtain ⟨hbehind, hordered⟩ := List.pairwise_cons.mp hordered
    obtain ⟨m', hrun, houtside, hoctets⟩ :=
      ih (m := m.pasted (ptr.toNat + f.place) f.octets) (by rwa [size_pasted]) (by rwa [size_pasted])
        hfields hordered
    have hstored : m.SameOutside (List.map (Field.regionAt ptr.toNat) (f :: fields))
        (m.pasted (ptr.toNat + f.place) f.octets) :=
      sameOutside_pasted (r := f.regionAt ptr.toNat) List.mem_cons_self (Nat.le_refl _)
        (Nat.add_le_add_left (Nat.le_of_eq f.length_octets) _)
    refine ⟨m', (run_bind_ok (put_run hm hrecord hf)).trans hrun,
      hstored.trans (houtside.mono fun r hr => List.mem_cons_of_mem _ hr),
      List.forall_mem_cons.mpr ⟨?_, hoctets⟩⟩
    -- The fields that come later do not meet this one.
    have hapart : ∀ r ∈ fields.map (Field.regionAt ptr.toNat),
        Region.Disjoint ⟨ptr.toNat + f.place, f.width⟩ r := by
      rintro r hr a ⟨-, hlast⟩ ⟨hfirst, -⟩
      obtain ⟨g, hg, rfl⟩ := List.mem_map.mp hr
      have hle := hbehind g hg
      unfold Field.regionAt at hfirst
      dsimp only at hfirst hlast
      omega
    rw [houtside.octetsAt_eq hapart]
    have hown : (m.pasted (ptr.toNat + f.place) f.octets).octetsAt (ptr.toNat + f.place) f.octets.length =
        f.octets := octetsAt_pasted (by rw [f.length_octets]; omega)
    rwa [f.length_octets] at hown

end Memory

namespace Layout

open Memory

variable {l : Layout} {m : Memory} {ptr : UInt32}

theorem write_writesIn (l : Layout) {regions : List Region} (hr : ⟨ptr.toNat, l.size.toNat⟩ ∈ regions) :
    WritesIn regions (l.write ptr) :=
  .bind (store_range_writesIn hr) fun _ => putAll_writesIn hr l.inside

/-- **A record that lies inside memory is written** to its place and nowhere else. -/
theorem write_run (l : Layout) (hm : m.size ≤ UInt32.size) (hrecord : ptr.toNat + l.size.toNat ≤ m.size) :
    ∃ m', l.write ptr m = .ok () m' ∧ l.Shows (m'.octetsAt ptr.toNat l.size.toNat) ∧
      m.SameOutside [⟨ptr.toNat, l.size.toNat⟩] m' := by
  obtain ⟨m', hrun, houtside, hoctets⟩ :=
    putAll_run (m := m.pasted ptr.toNat (List.replicate l.size.toNat 0)) (by rwa [size_pasted])
      (by rwa [size_pasted]) l.inside l.ordered
  have hwrite : l.write ptr m = .ok () m' := (run_bind_ok (clear_run hrecord)).trans hrun
  have hsame : m.SameOutside [⟨ptr.toNat, l.size.toNat⟩] m' := by
    have hwrites : WritesIn [⟨ptr.toNat, l.size.toNat⟩] (l.write ptr) :=
      l.write_writesIn (List.mem_singleton_self _)
    have hleft := hwrites m
    rwa [hwrite] at hleft
  have hlength : (m'.octetsAt ptr.toNat l.size.toNat).length = l.size.toNat :=
    length_octetsAt (by rwa [hsame.size])
  refine ⟨m', hwrite, ⟨hlength, fun f hf => ?_, fun i hi hblank => ?_⟩, hsame⟩
  · rw [numberAt_octetsAt (l.inside f hf), hoctets f hf]
    exact ofLittleEndian_littleEndian f.value_lt
  · -- What no field holds is as it was when the record had been cleared.
    rw [hlength] at hi
    have hout : ∀ r ∈ l.fields.map (Field.regionAt ptr.toNat), ¬ r.Holds (ptr.toNat + i) := by
      intro r hr hholds
      obtain ⟨f, hf, rfl⟩ := List.mem_map.mp hr
      exact hblank f.region (List.mem_map_of_mem hf) (Field.holds_regionAt.mp hholds)
    rw [getElem?_octetsAt hi, houtside.octet _ hout, getElem?_cleared hrecord hi]

/-- **A record that leaves memory is a fault**, and nothing is written. -/
theorem write_error (l : Layout) (hrecord : m.size < ptr.toNat + l.size.toNat) :
    l.write ptr m = .error (.reported .fault) m := run_bind_error (store_error hrecord)

namespace Writes

variable {write : UInt32 → MemoryM Unit} {regions : List Region}

theorem writesIn (h : l.Writes write) (hr : ⟨ptr.toNat, l.size.toNat⟩ ∈ regions) :
    WritesIn regions (write ptr) := by
  rw [h ptr]
  exact l.write_writesIn hr

theorem keeps_size (h : l.Writes write) (ptr : UInt32) : Keeps Memory.size (write ptr) := by
  have hwrites : WritesIn [⟨ptr.toNat, l.size.toNat⟩] (write ptr) := h.writesIn (List.mem_singleton_self _)
  exact fun m => (hwrites m).size

/-- The fields can be pointed to in any memory that words of 32 bits address. -/
theorem avoids (h : l.Writes write) (ptr : UInt32) (hm : m.size ≤ UInt32.size) :
    Avoids Failure.IsDefect (write ptr) m := by
  rw [h ptr]
  rcases Nat.lt_or_ge m.size (ptr.toNat + l.size.toNat) with hleaves | hinside
  · intro e m' herror
    cases (l.write_error hleaves).symm.trans herror
    exact id
  · obtain ⟨m', hrun, -⟩ := l.write_run hm hinside
    exact avoids_of_ok hrun

end Writes

end Layout

/-! ### All or nothing -/

/-- What comes of writing a record of so many octets to a pointer. -/
structure WrittenWhole (write : UInt32 → MemoryM Unit) (size : UInt32) (shows : Bytes → Prop)
    (m : Memory) (ptr : UInt32) : Prop where
  /-- If the record lies inside memory it is written, and nothing else is. -/
  inside : ptr.toNat + size.toNat ≤ m.size → ∃ m', write ptr m = .ok () m' ∧
    shows (m'.octetsAt ptr.toNat size.toNat) ∧ m.SameOutside [⟨ptr.toNat, size.toNat⟩] m'
  /-- If it does not, there is a fault, and memory is as it was. -/
  outside : m.size < ptr.toNat + size.toNat → write ptr m = .error (.reported .fault) m
  /-- Once the record has been cleared, nothing fails. -/
  cleared : ∀ m₁, Memory.clear ptr size m = .ok () m₁ → ∃ m', write ptr m = .ok () m'
  /-- The pointers into the record do not wrap. -/
  pointers : ptr.toNat + size.toNat ≤ m.size → ∀ distance < size,
    Memory.offset ptr distance m = .ok (ptr + distance) m ∧
      (ptr + distance).toNat = ptr.toNat + distance.toNat

theorem Layout.Writes.whole {l : Layout} {write : UInt32 → MemoryM Unit} {shows : Bytes → Prop} {m : Memory}
    (h : l.Writes write) (hshows : ∀ b, l.Shows b → shows b) (hm : m.size ≤ UInt32.size) (ptr : UInt32) :
    WrittenWhole write l.size shows m ptr where
  inside hrecord := by
    obtain ⟨m', hrun, hshown, houtside⟩ := l.write_run hm hrecord
    exact ⟨m', by rwa [h], hshows _ hshown, houtside⟩
  outside hrecord := by rw [h, l.write_error hrecord]
  cleared m₁ hclear := by
    obtain ⟨m', hrun, -⟩ := l.write_run hm (Memory.store_ok hclear)
    exact ⟨m', by rwa [h]⟩
  pointers hrecord distance hlt := by
    have hdistance := UInt32.lt_iff_toNat_lt.mp hlt
    have hsum : ptr.toNat + distance.toNat < UInt32.size := by omega
    exact ⟨Memory.offset_run hsum, Memory.toNat_add_of_lt hsum⟩

/-! ### Fields as they are written -/

/-- The type that the code stands for. -/
def Filetype.ofCode? (code : Nat) : Option Filetype :=
  [unknown, characterDevice, directory, regularFile].find? (·.code.toNat = code)

@[simp] theorem Filetype.ofCode?_code (type : Filetype) : ofCode? type.code.toNat = some type := by
  cases type <;> rfl

namespace Field

theorem put_ofU8 (ptr : UInt32) (place : Nat) (value : UInt8) :
    (ofU8 place value).put ptr = (do Memory.writeU8 (← Memory.offset ptr (.ofNat place)) value) := by
  have hoctets : (ofU8 place value).octets = [value] := by
    simp [octets, ofU8, littleEndian]
  unfold put
  rw [hoctets]
  rfl

theorem put_ofU16 (ptr : UInt32) (place : Nat) (value : UInt16) :
    (ofU16 place value).put ptr = (do Memory.writeU16 (← Memory.offset ptr (.ofNat place)) value) := rfl

theorem put_ofU32 (ptr : UInt32) (place : Nat) (value : UInt32) :
    (ofU32 place value).put ptr = (do Memory.writeU32 (← Memory.offset ptr (.ofNat place)) value) := rfl

theorem put_ofU64 (ptr : UInt32) (place : Nat) (value : UInt64) :
    (ofU64 place value).put ptr = (do Memory.writeU64 (← Memory.offset ptr (.ofNat place)) value) := rfl

/-- The first field is written to the pointer itself. -/
theorem put_ofU8_zero (ptr : UInt32) (value : UInt8) : (ofU8 0 value).put ptr = Memory.writeU8 ptr value := by
  have hstart : Memory.offset ptr (.ofNat 0) = pure ptr := by
    funext m
    rw [Memory.offset_run (show ptr.toNat + 0 < UInt32.size from ptr.toNat_lt),
       show UInt32.ofNat 0 = 0 from rfl, UInt32.add_zero]
    rfl
  rw [put_ofU8, hstart, pure_bind]

end Field

/-! ### The three records -/

namespace Filestat

/-- The attributes that a record of a file shows. -/
def ofOctets? (b : Bytes) : Option Filestat :=
  (Filetype.ofCode? (numberAt b 16 1)).map fun type => ⟨type, numberAt b 32 8⟩

/-- The octets are the record of these attributes: they show them and one link, and nothing else. -/
structure RecordedIn (s : Filestat) (b : Bytes) : Prop where
  shown : ofOctets? b = some s
  links : numberAt b 24 8 = 1
  blank : BlankOutside [⟨16, 1⟩, ⟨24, 8⟩, ⟨32, 8⟩] b

def layout (s : Filestat) : Layout where
  size := 64
  fields := [.ofU8 16 s.filetype.code, .ofU64 24 1, .ofU64 32 (.ofNat s.size)]
  inside := by simp [Field.ofU8, Field.ofU64]
  ordered := by simp [Field.ofU8, Field.ofU64]

theorem writes (s : Filestat) : s.layout.Writes s.write := fun ptr => by
  unfold write Layout.write layout
  simp only [Field.putAll, Field.put_ofU8, Field.put_ofU64, bind_assoc, bind_pure_unit]
  rfl

theorem recordedIn {s : Filestat} {b : Bytes} (hsize : s.size < UInt64.size) (h : s.layout.Shows b) :
    s.RecordedIn b := by
  obtain ⟨htype, hlinks, hlength⟩ : numberAt b 16 1 = s.filetype.code.toNat ∧
      numberAt b 24 8 = 1 ∧ numberAt b 32 8 = (UInt64.ofNat s.size).toNat := by
    simpa [layout, Field.ofU8, Field.ofU64] using h.number
  refine ⟨?_, hlinks, h.blank⟩
  rw [ofOctets?, htype, Filetype.ofCode?_code, hlength, UInt64.toNat_ofNat_of_lt' hsize]
  rfl

end Filestat

namespace Fdstat

/-- The attributes that a record of a descriptor shows. -/
def ofOctets? (b : Bytes) : Option Fdstat :=
  (Filetype.ofCode? (numberAt b 0 1)).map fun type =>
    ⟨type, ⟨.ofNat (numberAt b 2 2)⟩, ⟨.ofNat (numberAt b 8 8)⟩, ⟨.ofNat (numberAt b 16 8)⟩⟩

/-- The octets are the record of these attributes: they show them, and nothing else. -/
structure RecordedIn (s : Fdstat) (b : Bytes) : Prop where
  shown : ofOctets? b = some s
  blank : BlankOutside [⟨0, 1⟩, ⟨2, 2⟩, ⟨8, 8⟩, ⟨16, 8⟩] b

def layout (s : Fdstat) : Layout where
  size := 24
  fields := [.ofU8 0 s.filetype.code, .ofU16 2 s.flags.bits, .ofU64 8 s.rights.bits,
    .ofU64 16 s.inheriting.bits]
  inside := by simp [Field.ofU8, Field.ofU16, Field.ofU64]
  ordered := by simp [Field.ofU8, Field.ofU16, Field.ofU64]

theorem writes (s : Fdstat) : s.layout.Writes s.write := fun ptr => by
  unfold write Layout.write layout
  simp only [Field.putAll, Field.put_ofU8_zero, Field.put_ofU16, Field.put_ofU64, bind_assoc,
    bind_pure_unit]
  rfl

theorem recordedIn {s : Fdstat} {b : Bytes} (h : s.layout.Shows b) : s.RecordedIn b := by
  obtain ⟨htype, hflags, hrights, hinheriting⟩ : numberAt b 0 1 = s.filetype.code.toNat ∧
      numberAt b 2 2 = s.flags.bits.toNat ∧ numberAt b 8 8 = s.rights.bits.toNat ∧
      numberAt b 16 8 = s.inheriting.bits.toNat := by
    simpa [layout, Field.ofU8, Field.ofU16, Field.ofU64] using h.number
  refine ⟨?_, h.blank⟩
  rw [ofOctets?, htype, Filetype.ofCode?_code, hflags, hrights, hinheriting, UInt16.ofNat_toNat,
    UInt64.ofNat_toNat, UInt64.ofNat_toNat]
  rfl

end Fdstat

namespace Prestat

/-- The attributes that a record of a directory shows. -/
def ofOctets (b : Bytes) : Prestat := ⟨.ofNat (numberAt b 4 4)⟩

/-- The octets are the record of these attributes: they show them, and nothing else. -/
structure RecordedIn (s : Prestat) (b : Bytes) : Prop where
  shown : ofOctets b = s
  blank : BlankOutside [⟨4, 4⟩] b

def layout (s : Prestat) : Layout where
  size := 8
  fields := [.ofU32 4 s.nameLength]
  inside := by simp [Field.ofU32]
  ordered := by simp [Field.ofU32]

theorem writes (s : Prestat) : s.layout.Writes s.write := fun ptr => by
  unfold write Layout.write layout
  simp only [Field.putAll, Field.put_ofU32, bind_pure_unit]
  rfl

theorem recordedIn {s : Prestat} {b : Bytes} (h : s.layout.Shows b) : s.RecordedIn b := by
  have hlength : numberAt b 4 4 = s.nameLength.toNat := h.number (.ofU32 4 _) List.mem_cons_self
  refine ⟨?_, h.blank⟩
  rw [ofOctets, hlength, UInt32.ofNat_toNat]

end Prestat

/-- **Attribute records are written as a whole or not at all**, in every memory that words of 32 bits
address. The size of a file is a word of 64 bits. -/
theorem records_written_whole (m : Memory) (hm : m.size ≤ UInt32.size) (ptr : UInt32) :
    (∀ s : Filestat, s.size < UInt64.size → WrittenWhole s.write 64 s.RecordedIn m ptr) ∧
    (∀ s : Fdstat, WrittenWhole s.write 24 s.RecordedIn m ptr) ∧
    (∀ s : Prestat, WrittenWhole s.write 8 s.RecordedIn m ptr) :=
  ⟨fun s hsize => s.writes.whole (fun _ => Filestat.recordedIn hsize) hm ptr,
    fun s => s.writes.whole (fun _ => Fdstat.recordedIn) hm ptr,
    fun s => s.writes.whole (fun _ => Prestat.recordedIn) hm ptr⟩

/-- The attributes of a file go up to the last octet of a memory, and no further. -/
theorem last_record_written : (Memory.filled 72 255).size ≤ UInt32.size ∧
    (∃ m', (⟨.regularFile, 5⟩ : Filestat).write 8 (.filled 72 255) = .ok () m' ∧
      Filestat.ofOctets? (m'.octetsAt 8 64) = some ⟨.regularFile, 5⟩) ∧
    (⟨.regularFile, 5⟩ : Filestat).write 9 (.filled 72 255) =
      .error (.reported .fault) (.filled 72 255) := by
  have hm : (Memory.filled 72 255).size ≤ UInt32.size := by decide
  have hfits := (records_written_whole _ hm 8).1 ⟨.regularFile, 5⟩ (by decide)
  have hleaves := (records_written_whole _ hm 9).1 ⟨.regularFile, 5⟩ (by decide)
  obtain ⟨m', hrun, hrecorded, -⟩ := hfits.inside (by decide)
  exact ⟨hm, ⟨m', hrun, hrecorded.shown⟩, hleaves.outside (by decide)⟩

end WasiSandbox
