/-! # Checked arithmetic and checked slices

Sizes, offsets and addresses are natural numbers here, but the words that carry them have a width,
and the ranges that are cut out of a buffer have to lie inside it. The operations below carry out one
step each and answer a *defect* when the step has no meaning: a sum that does not fit its word, a
range that leaves its buffer, two ranges of different lengths where one is copied onto the other. A
defect is no error of the user: the surrounding checks are there to rule it out, and to say that
they do is to say that no defect ever comes out. -/

namespace WasiSandbox

/-- A step that has no meaning. -/
inductive Defect where
  /-- The result does not fit its word. -/
  | overflow
  /-- The range leaves the buffer it is cut from. -/
  | outOfRange
  /-- The range that is copied and the one it is copied onto differ in length. -/
  | lengthMismatch
  deriving DecidableEq, Repr

/-- A failure of an operation whose own errors are `ε`. -/
inductive Failure (ε : Type) where
  /-- An error that the operation reports. -/
  | reported (e : ε)
  /-- A defect of the operation itself. -/
  | defect (d : Defect)
  deriving DecidableEq, Repr

/-- The same failure under another name for the reported errors. -/
def Failure.map {ε δ : Type} (f : ε → δ) : Failure ε → Failure δ
  | .reported e => .reported (f e)
  | .defect d => .defect d

/-- A step that either has a result or is a defect. -/
abbrev Checked := Except Defect

/-- A string of octets. -/
abbrev Bytes := List UInt8

namespace Checked

/-- The sum in words of `width` bits. -/
def add (width a b : Nat) : Checked Nat :=
  if a + b < 1 <<< width then .ok (a + b) else .error .overflow

/-- The product in words of `width` bits. -/
def mul (width a b : Nat) : Checked Nat :=
  if a * b < 1 <<< width then .ok (a * b) else .error .overflow

/-- The difference in words without a sign. -/
def sub (a b : Nat) : Checked Nat :=
  if b ≤ a then .ok (a - b) else .error .overflow

/-- The octets of `b` from `start` up to `stop`. -/
def slice (b : Bytes) (start stop : Nat) : Checked Bytes :=
  if start ≤ stop ∧ stop ≤ b.length then .ok ((b.drop start).take (stop - start))
  else .error .outOfRange

/-- The octets of `b` with those from `start` up to `stop` replaced by `data`. -/
def paste (b : Bytes) (start stop : Nat) (data : Bytes) : Checked Bytes :=
  if start ≤ stop ∧ stop ≤ b.length then
    if data.length = stop - start then .ok (b.take start ++ data ++ b.drop stop)
    else .error .lengthMismatch
  else .error .outOfRange

end Checked

end WasiSandbox
