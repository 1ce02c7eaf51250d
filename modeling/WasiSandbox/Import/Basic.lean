import WasiSandbox.Host.Basic
import WasiSandbox.Import.Abort
import WasiSandbox.Memory.Basic

/-! # Imports

An import is a function of the host that a guest can call by the two names of the import. Its body
sees the arguments, the host and the memory of the caller, and either answers at once or leaves work
behind whose result comes later. It cannot call back into the guest. Imports come in groups, each
offered by a provider with a name. -/

namespace WasiSandbox

/-- What a called import can reach: the host, and the memory that the guest exports, if it does. -/
structure Caller where
  memory : Option Memory
  host : Host

/-- Work that is settled later, with the result that it settles to. -/
structure Future where
  result : Except Abort (List Value)

/-- The answer of an import. -/
inductive Outcome where
  | ready (values : List Value)
  /-- The guest is to be suspended until the work is settled. -/
  | pending (work : Future)

/-- The body of an import: an operation on what it can reach, which may stop the guest. -/
abbrev ImportM := EStateM Abort Caller

/-- A function of the host. -/
structure Import where
  id : ImportId
  signature : Signature
  body : List Value → ImportM Outcome

/-- A named group of imports. -/
structure Provider where
  name : String
  imports : List Import

end WasiSandbox
