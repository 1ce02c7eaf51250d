import WasiSandbox.Memory.Basic

/-! # String tables

Arguments and environment reach the guest in two steps. First it asks for the number of strings and
the size of all of them together, each with a NUL behind it; then it hands over an array of pointers
and a block of that size to be filled. Both answers come from one table. -/

namespace WasiSandbox

/-- The strings with their NULs in one block, and where each of them starts. -/
structure StringTable where
  offsets : List UInt32
  block : Bytes
  deriving DecidableEq, Repr

namespace StringTable

/-- The table with one more string at its end. -/
def push (t : StringTable) (item : String) : StringTable :=
  ⟨t.offsets ++ [.ofNat t.block.length], t.block ++ Text.utf8 item ++ [0]⟩

def ofList (items : List String) : StringTable := items.foldl push ⟨[], []⟩

def count (t : StringTable) : UInt32 := .ofNat t.offsets.length

def blockSize (t : StringTable) : UInt32 := .ofNat t.block.length

/-- Writes the number of strings and the size of the block. -/
def writeSizes (t : StringTable) (countPtr sizePtr : UInt32) : MemoryM Unit := do
  Memory.writeU32 countPtr t.count
  Memory.writeU32 sizePtr t.blockSize

/-- The sum of two pointers that the guest is responsible for. -/
def guestOffset (ptr distance : UInt32) : MemoryM UInt32 :=
  if ptr.toNat + distance.toNat < UInt32.size then pure (ptr + distance) else Memory.fail .fault

/-- Writes the pointers of the strings from the `i`-th on. -/
def writePointers (ptrs block : UInt32) : Nat → List UInt32 → MemoryM Unit
  | _, [] => pure ()
  | i, start :: rest => do
    let distance ← Memory.ofChecked (Checked.mul 32 4 (i % UInt32.size))
    let slot ← guestOffset ptrs (.ofNat distance)
    let target ← guestOffset block start
    Memory.writeU32 slot target
    writePointers ptrs block (i + 1) rest

/-- Writes the array of pointers, then the block. -/
def write (t : StringTable) (ptrs block : UInt32) : MemoryM Unit := do
  writePointers ptrs block 0 t.offsets
  Memory.store block t.blockSize t.block

end StringTable

end WasiSandbox
