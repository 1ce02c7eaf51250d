import WasiSandbox.Import.Basic

/-! # Guests

A guest is seen from outside as a machine that runs from one call of an import to the next. An
*activation* is one call into the guest that has not returned. Resumed with the results of the import
that it has called, it comes up with its next move: a return, a trap, or another call together with
the activation that waits for it. All activations share the globals and the memory of the guest.
Nothing else is assumed: a guest may call imports in any order, return early, or trap anywhere. -/

namespace WasiSandbox

/-- What all activations of a guest share. -/
structure GuestState (σ : Type) where
  globals : σ
  /-- The memory that the guest exports, if it does. -/
  memory : Option Memory

/-- The functions by which the host tells a guest to unwind and rewind its stack. -/
inductive Control where
  | startUnwind
  | stopUnwind
  | startRewind
  | stopRewind
  | getState
  deriving DecidableEq, Repr

/-- The name under which a guest exports the control function. -/
def Control.exportName : Control → String
  | startUnwind => "asyncify_start_unwind"
  | stopUnwind => "asyncify_stop_unwind"
  | startRewind => "asyncify_start_rewind"
  | stopRewind => "asyncify_stop_rewind"
  | getState => "asyncify_get_state"

/-- Where a guest can be entered. -/
inductive EntryPoint where
  /-- An exported function. -/
  | function (name : String)
  | control (c : Control)
  /-- The code that runs once, before the guest is ready. -/
  | start
  deriving DecidableEq, Repr

/-- The next move of an activation. -/
inductive Move (φ : Type) where
  | finish (results : List Value)
  | trap (cause : Abort)
  /-- The call of an import, and the activation that waits for its results. -/
  | call (id : ImportId) (args : List Value) (waiting : φ)

/-- A guest with globals `σ` and activations `φ`. -/
structure Guest (σ φ : Type) where
  /-- The functions that it imports, in order. -/
  imports : List (ImportId × Signature)
  /-- An import other than a function, which nobody provides. -/
  foreign? : Option ImportId
  /-- The functions that it exports, with their entry points. -/
  exports : List (String × EntryPoint × Signature)
  /-- The control functions that it exports at their proper types. -/
  controls : List Control
  /-- It has code that runs before it is ready. -/
  hasStart : Bool
  /-- The globals and the memory to begin with. -/
  initial : GuestState σ
  /-- The activation that a call begins with. -/
  enter : EntryPoint → List Value → φ
  /-- Runs an activation, with the results of the import that it has called, up to its next move. -/
  resume : φ → List Value → GuestState σ → Move φ × GuestState σ

/-- The exported function of that name. -/
def Guest.exported? {σ φ : Type} (g : Guest σ φ) (name : String) :
    Option (EntryPoint × Signature) :=
  g.exports.lookup name

/-- The types of values. -/
def Value.types (vs : List Value) : List ValueType := vs.map Value.type

end WasiSandbox
