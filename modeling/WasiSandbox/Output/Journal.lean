import WasiSandbox.Output.Stream
import WasiSandbox.Import.Value

/-! # The journal of a host

Everything that a host lets the outside see while a guest runs, in order: texts handed on by the
standard streams, calls of imports, the settling of work that an import left behind, and the
checkpoints that a guest passes. -/

namespace WasiSandbox

/-- A stream that hands on text. -/
inductive Channel where
  | stdout
  | stderr
  deriving DecidableEq, Repr

/-- What is noted when a guest passes a checkpoint. -/
structure Checkpoint where
  /-- The function that the guest is in. -/
  function : String
  /-- The step of that function that was completed. -/
  step : Nat
  results : List Value
  /-- How many descriptors are open. -/
  handles : Nat
  /-- The octets of the ranges that the guest has asked to show; `none` outside memory. -/
  shown : Option (List (Option Bytes))
  /-- For each range that the guest has asked to test, whether it holds an octet other than zero. -/
  tested : Option (List (Option Bool))
  deriving DecidableEq, Repr

/-- An entry of the journal. -/
inductive Event where
  | output (channel : Channel) (text : String)
  | invoked (id : ImportId) (args : List Value)
  | settled (id : ImportId)
  | checkpoint (c : Checkpoint)
  deriving DecidableEq, Repr

/-- The entries in the order in which they were made. -/
abbrev Journal := List Event

/-- How often the import was called. -/
def Journal.calls (j : Journal) (id : ImportId) : Nat :=
  j.countP fun
    | .invoked other _ => other == id
    | _ => false

end WasiSandbox
