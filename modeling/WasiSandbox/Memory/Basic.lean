import WasiSandbox.Abi.Errno
import WasiSandbox.Text.Utf8

/-! # Linear memory

The guest's memory is an array of octets, addressed by words of 32 bits. Numbers stand in it with
their lowest octet first. Every access goes through one check: a range that leaves the memory is a
fault, and an empty range may lie anywhere up to the end. What passes the check is then cut out or
overwritten as a range of the array. An operation runs on the memory as on a state, so what a failing
operation has written stays written. -/

namespace WasiSandbox

/-! ### Numbers as octets -/

/-- The number in `width` octets, lowest first. -/
def littleEndian (width n : Nat) : Bytes :=
  (List.range width).map fun i => UInt8.ofNat (n >>> (8 * i))

/-- The number that the octets stand for, lowest first. -/
def ofLittleEndian : Bytes → Nat
  | [] => 0
  | b :: rest => b.toNat + 256 * ofLittleEndian rest

/-- The guest's memory. -/
structure Memory where
  octets : Array UInt8
  deriving DecidableEq, Repr

/-- An operation on linear memory. -/
abbrev MemoryM := EStateM SysFailure Memory

namespace Memory

/-! ### Ranges of the array -/

def size (m : Memory) : Nat := m.octets.size

/-- So many octets of one value. -/
def filled (size : Nat) (value : UInt8) : Memory := ⟨Array.replicate size value⟩

/-- Puts the octets into the array, one after the other from `start` on. -/
def pasteFrom (a : Array UInt8) (start : Nat) : Bytes → Array UInt8
  | [] => a
  | b :: rest => pasteFrom (a.setIfInBounds start b) (start + 1) rest

/-- The octets from `start` up to `stop`. -/
def read (m : Memory) (start stop : Nat) : Checked Bytes :=
  if start ≤ stop ∧ stop ≤ m.size then .ok (m.octets.extract start stop).toList
  else .error .outOfRange

/-- The memory with the octets from `start` up to `stop` replaced by `data`. -/
def write (m : Memory) (start stop : Nat) (data : Bytes) : Checked Memory :=
  if start ≤ stop ∧ stop ≤ m.size then
    if data.length = stop - start then .ok ⟨pasteFrom m.octets start data⟩
    else .error .lengthMismatch
  else .error .outOfRange

/-- The range of `length` octets from the pointer on, if it lies inside memory. -/
def range (m : Memory) (ptr length : UInt32) : Except SysFailure (Nat × Nat) :=
  if ptr.toNat + length.toNat ≤ m.size then .ok (ptr.toNat, ptr.toNat + length.toNat)
  else .error (.reported .fault)

/-! ### Access by pointer -/

def fail {α : Type} (e : Errno) : MemoryM α := throw (.reported e)

/-- A checked step as an operation on memory. -/
def ofChecked {α : Type} (c : Checked α) : MemoryM α :=
  match c with
  | .ok a => pure a
  | .error d => throw (.defect d)

/-- The sum of two pointers, where the surroundings rule out that it wraps. -/
def offset (ptr distance : UInt32) : MemoryM UInt32 :=
  ofChecked ((Checked.add 32 ptr.toNat distance.toNat).map UInt32.ofNat)

/-- The octets of a range. -/
def slice (ptr length : UInt32) : MemoryM Bytes := fun m =>
  match m.range ptr length with
  | .error e => .error e m
  | .ok (start, stop) =>
    match m.read start stop with
    | .error d => .error (.defect d) m
    | .ok b => .ok b m

/-- Overwrites a range. -/
def store (ptr length : UInt32) (data : Bytes) : MemoryM Unit := fun m =>
  match m.range ptr length with
  | .error e => .error e m
  | .ok (start, stop) =>
    match m.write start stop data with
    | .error d => .error (.defect d) m
    | .ok m => .ok () m

/-- Fails with a fault if the range leaves memory. -/
def requireRange (ptr length : UInt32) : MemoryM Unit := do
  match (← get).range ptr length with
  | .ok _ => pure ()
  | .error e => throw e

/-- Overwrites a range with zeros. -/
def clear (ptr length : UInt32) : MemoryM Unit :=
  store ptr length (List.replicate length.toNat 0)

/-- The text in a range, which has to be UTF-8 throughout. -/
def readText (ptr length : UInt32) : MemoryM String := do
  match Text.decode? (← slice ptr length) with
  | some s => pure s
  | none => fail .inval

def readU32 (ptr : UInt32) : MemoryM UInt32 := do
  return .ofNat (ofLittleEndian (← slice ptr 4))

def writeU8 (ptr : UInt32) (value : UInt8) : MemoryM Unit := store ptr 1 [value]

def writeU16 (ptr : UInt32) (value : UInt16) : MemoryM Unit :=
  store ptr 2 (littleEndian 2 value.toNat)

def writeU32 (ptr value : UInt32) : MemoryM Unit := store ptr 4 (littleEndian 4 value.toNat)

def writeU64 (ptr : UInt32) (value : UInt64) : MemoryM Unit :=
  store ptr 8 (littleEndian 8 value.toNat)

end Memory

end WasiSandbox
