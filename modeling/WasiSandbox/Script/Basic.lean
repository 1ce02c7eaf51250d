import WasiSandbox.Guest.Basic
import WasiSandbox.Script.Json

/-! # Guest scripts

A guest can be described by a script: for each function that it exports, the steps that a call goes
through. A step puts octets into memory and calls an import, or traps. A script can have control
functions too, with steps of their own as *hooks*; its functions are then made so that they save and
find again the step at which they were suspended. -/

namespace WasiSandbox

/-- A value that a step or a return uses. -/
inductive Operand where
  /-- The number, as a value of the type that is wanted. -/
  | constant (n : Int)
  /-- The parameter of the function. -/
  | param (index : Nat)
  /-- What the step of the same function got last as its result. -/
  | result (step index : Nat)
  /-- The word in memory. -/
  | load (ptr : UInt32)
  deriving Repr

/-- What a step does in the end. -/
inductive StepAction where
  | trap
  /-- Calls an import; without a signature, at the type that the host declares for it. -/
  | call (id : ImportId) (args : List Operand) (signature : Option Signature)
  deriving Repr

/-- One step of a body. -/
structure ScriptStep where
  action : StepAction
  /-- What is put into memory before the call. -/
  pokes : List (UInt32 × Bytes)
  /-- The ranges of memory to show at the checkpoint behind the call. -/
  shown : Option (List (UInt32 × UInt32))
  /-- The ranges of memory to test there for octets other than zero. -/
  tested : Option (List (UInt32 × UInt32))
  /-- The states of the guest in which the step is taken; in all if there is no list. -/
  states : Option (List UInt32)
  /-- The step is taken once in the life of the guest. -/
  once : Bool
  deriving Repr

/-- An exported function. -/
structure ScriptFunction where
  name : String
  signature : Signature
  steps : List ScriptStep
  /-- What it returns; zeros if nothing is said. -/
  returns : Option (List Operand)
  /-- It is left as it is even if the script has control functions. -/
  raw : Bool
  deriving Repr

/-- The control functions of a script. -/
structure ScriptControls where
  exports : List Control
  /-- Those that are exported at a wrong type. -/
  mistyped : List Control
  hooks : List (Control × List ScriptStep)
  deriving Repr

/-- A guest as a script describes it. -/
structure Script where
  /-- The pages of the memory that it exports, if it does. -/
  pages : Option Nat
  functions : List ScriptFunction
  /-- The steps that run before the guest is ready. -/
  init : List ScriptStep
  /-- It also imports a global that nobody provides. -/
  importsGlobal : Bool
  controls : Option ScriptControls
  deriving Repr

/-- A list of steps in a script. -/
inductive ScriptBody where
  | function (index : Nat)
  | init
  | hook (c : Control)
  deriving DecidableEq, Repr

namespace Control

/-- All control functions, in the order in which scripts list them. -/
def all : List Control := [.startUnwind, .stopUnwind, .startRewind, .stopRewind, .getState]

/-- The name of the control function in a script. -/
def scriptName : Control → String
  | startUnwind => "start_unwind"
  | stopUnwind => "stop_unwind"
  | startRewind => "start_rewind"
  | stopRewind => "stop_rewind"
  | getState => "get_state"

def ofScriptName? (name : String) : Option Control := all.find? (·.scriptName == name)

/-- The proper type of the control function. -/
def signature : Control → Signature
  | startUnwind | startRewind => ⟨[.i32], []⟩
  | stopUnwind | stopRewind => ⟨[], []⟩
  | getState => ⟨[], [.i32]⟩

end Control

namespace Script

/-- The hooks of a control function; none if nothing is said. -/
def hook (s : Script) (c : Control) : List ScriptStep :=
  match s.controls with
  | some controls => (controls.hooks.lookup c).getD []
  | none => []

def steps (s : Script) : ScriptBody → List ScriptStep
  | .function i => ((s.functions[i]?).map (·.steps)).getD []
  | .init => s.init
  | .hook c => s.hook c

/-- The name under which checkpoints in the body are reported. -/
def label (s : Script) : ScriptBody → String
  | .function i => ((s.functions[i]?).map (·.name)).getD ""
  | .init => "<init>"
  | .hook c => "<" ++ c.scriptName ++ ">"

/-- The body does not save its position. -/
def isRaw (s : Script) : ScriptBody → Bool
  | .function i => s.controls.isNone || ((s.functions[i]?).map (·.raw)).getD true
  | _ => true

/-- All bodies, in the order in which the script names them. -/
def bodies (s : Script) : List ScriptBody :=
  (List.range s.functions.length).map .function ++ [.init] ++ Control.all.map .hook

/-- The script with a change to every step. -/
def mapSteps (s : Script) (f : ScriptStep → ScriptStep) : Script :=
  { s with
    functions := s.functions.map fun g => { g with steps := g.steps.map f }
    init := s.init.map f
    controls := s.controls.map fun c => { c with hooks := c.hooks.map fun h => (h.1, h.2.map f) } }

end Script

end WasiSandbox
