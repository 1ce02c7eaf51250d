import WasiSandbox.Import.Value

/-! # Violations of the suspension protocol

An import may answer that its work goes on outside. The guest then unwinds its stack into a buffer,
returns, and is called again to rewind to the place where it left. The register of an instance says in
which phase of this it is; the errors say how guest and host can disagree about it. -/

namespace WasiSandbox

/-- What the register of an instance says about the stack of the guest. -/
inductive Phase where
  | normal
  | unwinding
  | rewinding
  deriving DecidableEq, Repr

def Phase.text : Phase → String
  | normal => "normal"
  | unwinding => "unwinding"
  | rewinding => "rewinding"

/-- How the suspension protocol can be violated. -/
inductive SuspendError where
  /-- An import suspended a guest that has no control exports. -/
  | notInstrumented (id : ImportId)
  /-- An import was called, or suspended, while another suspension was under way. -/
  | nestedSuspend (id : ImportId)
  /-- The register is not in the phase that is needed. -/
  | unexpectedState (expected found : Phase)
  /-- The rewind came to another import than the one that suspended. -/
  | importMismatch (expected found : ImportId)
  /-- There is no work to await, or no result to hand over. -/
  | missingContinuation
  /-- An import answered with the wrong number of results. -/
  | resultArity (id : ImportId) (expected found : Nat)
  /-- A guest with control exports exports no memory. -/
  | missingMemory
  /-- The buffer for the stack lies outside memory. -/
  | dataBuffer (ptr : UInt32)
  deriving DecidableEq, Repr

/-- The wording of a violation. -/
def SuspendError.message : SuspendError → String
  | notInstrumented id =>
    "Import " ++ id.text ++ " suspended but the module is not asyncify-instrumented"
  | nestedSuspend id =>
    "Import " ++ id.text ++ " suspended while another suspension is in flight"
  | unexpectedState expected found =>
    "Asyncify state is " ++ found.text ++ ", expected " ++ expected.text
  | importMismatch expected found =>
    "Rewind reached import " ++ found.text ++ ", but " ++ expected.text ++ " suspended"
  | missingContinuation => "No pending continuation to resume"
  | resultArity id expected found =>
    "Import " ++ id.text ++ " produced " ++ toString found ++ " results, expected " ++
      toString expected
  | missingMemory => "Asyncify module exports no memory"
  | dataBuffer ptr =>
    "Asyncify data buffer at " ++ toString ptr.toNat ++ " is outside linear memory"

end WasiSandbox
