import WasiSandbox.Suspend.Error

/-! # Why a guest stops before it returns

A call into the guest that does not return ends in an *abort*: a trap of the guest's own code, a
failing import, a violation of the suspension protocol, or an exit that the guest has asked for. An
abort can be wrapped in messages that tell where it came from; what is inside still counts. -/

namespace WasiSandbox

/-- A trap of the guest's own code. -/
inductive TrapCode where
  | unreachable
  | memoryOutOfBounds
  /-- The guest has called deeper, or longer, than it is allowed to. -/
  | exhausted
  deriving DecidableEq, Repr

def TrapCode.message : TrapCode → String
  | unreachable => "wasm trap: wasm `unreachable` instruction executed"
  | memoryOutOfBounds => "wasm trap: out of bounds memory access"
  | exhausted => "wasm trap: call stack exhausted"

/-- Why a guest stopped. -/
inductive Abort where
  | trap (code : TrapCode)
  /-- The guest has asked to end with this code. -/
  | exit (code : Int32)
  /-- An import has failed, in its own words. -/
  | failed (text : String)
  /-- The guest has called an import that nobody provides. -/
  | unknownImport (id : ImportId)
  | protocol (e : SuspendError)
  /-- Values or functions do not have the type that they are used at. -/
  | incompatible (text : String)
  /-- A defect of the host. -/
  | defect (d : Defect)
  /-- Another abort, and a message that says where it came from. -/
  | inContext (text : String) (cause : Abort)
  deriving DecidableEq, Repr

namespace Abort

/-- The code of a wanted exit, whatever it is wrapped in. -/
def exitCode? : Abort → Option Int32
  | exit code => some code
  | inContext _ cause => cause.exitCode?
  | _ => none

/-- The violation of the protocol, whatever it is wrapped in. -/
def protocol? : Abort → Option SuspendError
  | protocol e => some e
  | inContext _ cause => cause.protocol?
  | _ => none

/-- The messages, the outermost first. -/
def chain : Abort → List String
  | trap code => [code.message]
  | exit code => ["Exited with i32 exit status " ++ toString code.toInt]
  | failed text => [text]
  | unknownImport id => ["unknown import: `" ++ id.text ++ "` has not been defined"]
  | protocol e => [e.message]
  | incompatible text => [text]
  | defect _ => ["defect of the host"]
  | inContext text cause => text :: cause.chain

/-- The outermost message alone. -/
def headline (a : Abort) : String := a.chain.head?.getD ""

/-- All messages in one line. -/
def message (a : Abort) : String := ": ".intercalate a.chain

end Abort

end WasiSandbox
