import WasiSandbox.Memory.Basic

/-! # Vectors of buffers

A guest hands over its buffers as an array of pairs of words, a pointer and a length. Data is
*gathered* from them in order, and *scattered* over them by filling each before the next. -/

namespace WasiSandbox

/-- One buffer in linear memory. -/
structure IoVec where
  ptr : UInt32
  length : UInt32
  deriving DecidableEq, Repr

namespace IoVec

/-- The buffers that an array of pairs of words describes. -/
def decode : Bytes → List IoVec
  | a :: b :: c :: d :: e :: f :: g :: h :: rest =>
    ⟨.ofNat (ofLittleEndian [a, b, c, d]), .ofNat (ofLittleEndian [e, f, g, h])⟩ :: decode rest
  | _ => []

/-- How much fits into the buffers together, up to the largest word of 64 bits. -/
def capacity (iovs : List IoVec) : Nat :=
  iovs.foldl (fun total v => min (total + v.length.toNat) (UInt64.size - 1)) 0

end IoVec

namespace Memory

/-- The array of `count` buffers at the pointer. -/
def iovecs (ptr count : UInt32) : MemoryM (List IoVec) := do
  if UInt32.size ≤ count.toNat * 8 then fail .fault
  else return IoVec.decode (← slice ptr (count * 8))

/-- The data of all buffers, in order. -/
def gather : List IoVec → MemoryM Bytes
  | [] => pure []
  | v :: rest => do
    let data ← slice v.ptr v.length
    return data ++ (← gather rest)

/-- Fails with a fault unless every buffer lies inside memory. -/
def requireIovecs (iovs : List IoVec) : MemoryM Unit :=
  iovs.forM fun v => requireRange v.ptr v.length

/-- Spreads the data over the buffers. -/
def scatter : List IoVec → Bytes → MemoryM Unit
  | [], _ => pure ()
  | v :: rest, data => do
    if data = [] then pure ()
    else
      let n := min data.length v.length.toNat
      store v.ptr (.ofNat n) (← ofChecked (Checked.slice data 0 n))
      scatter rest (data.drop n)

end Memory

end WasiSandbox
