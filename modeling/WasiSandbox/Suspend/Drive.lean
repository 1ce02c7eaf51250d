import WasiSandbox.Suspend.Register

/-! # Running and driving a guest

A guest runs from call to call: each call of an import is answered by the import's register, which may
call the control functions of the guest, and the activation goes on with the results. A *drive* is one
call into the guest with all its suspensions: as long as the guest comes back unwinding, the work that
it waits for is awaited, and the same function is called again with the same arguments to rewind.

Runs and drives are held to limits, so that they end. -/

namespace WasiSandbox

variable {σ φ : Type}

/-- How far runs and drives may go. -/
structure Limits where
  /-- The moves of one activation. -/
  moves : Nat
  /-- The control functions that are active at a time. -/
  depth : Nat
  /-- The suspensions of one drive. -/
  suspensions : Nat
  deriving DecidableEq, Repr

/-- Limits that are out of the way of ordinary guests. -/
def Limits.default : Limits := ⟨1000000, 500, 1000000⟩

/-- A guest and the imports that it is linked to. -/
structure Linked (σ φ : Type) where
  guest : Guest σ φ
  imports : List Import

namespace Linked

open GuestM

/-- The import that the guest calls by that name. -/
def import? (l : Linked σ φ) (id : ImportId) : Option Import := l.imports.find? (·.id == id)

/-- Lets the activation run up to its next move. -/
def advance (l : Linked σ φ) (activation : φ) (results : List Value) : GuestM σ (Move φ) := do
  record (.entered (← get).register.view)
  modifyGet fun m =>
    let (move, guest) := l.guest.resume activation results m.guest
    (move, { m with guest := guest })

/-- Lets the results of an import through to the guest if they have the declared types. -/
def requireTypes (i : Import) (vs : List Value) : GuestM σ (List Value) :=
  if Value.types vs = i.signature.results then pure vs
  else throw (.incompatible "function attempted to return an incompatible value")

/-- Runs the activation to its end, through at most so many moves: its results. The control functions
of the guest are called by `control`. -/
def runWith (l : Linked σ φ) (control : Control → List Value → GuestM σ Unit) :
    Nat → φ → List Value → GuestM σ (List Value)
  | 0, _, _ => throw (.trap .exhausted)
  | moves + 1, activation, results => do
    match ← l.advance activation results with
    | .finish vs => return vs
    | .trap cause => throw cause
    | .call id args waiting =>
      match l.import? id with
      | none => throw (.unknownImport id)
      | some i =>
        let vs ← requireTypes i (← i.answer control args)
        record (.answered id vs)
        l.runWith control moves waiting vs

/-- Calls a control function of the guest, in which others may be called to the given depth. -/
def controlAt (l : Linked σ φ) (moves : Nat) : Nat → Control → List Value → GuestM σ Unit
  | 0, _, _ => throw (.trap .exhausted)
  | depth + 1, c, args => do
    record (.control c)
    let _ ← l.runWith (l.controlAt moves depth) moves (l.guest.enter (.control c) args) []

/-- Calls a control function of the guest. -/
def control (l : Linked σ φ) (limits : Limits) : Control → List Value → GuestM σ Unit :=
  l.controlAt limits.moves limits.depth

/-- Calls the guest at an entry point, once. -/
def invoke (l : Linked σ φ) (limits : Limits) (entry : EntryPoint) (params : List Value) :
    GuestM σ (List Value) :=
  l.runWith (l.control limits) limits.moves (l.guest.enter entry params) []

/-- Ends the unwinding, awaits the pending work, and begins the rewinding. -/
def turnAround (l : Linked σ φ) (limits : Limits) : GuestM σ Unit := do
  requireInstrumented .missingContinuation
  l.control limits .stopUnwind []
  match ← takePending with
  | none => violate .missingContinuation
  | some p =>
    record (.awaited p.number p.id)
    modify fun m => { m with host := { m.host with journal := m.host.journal ++ [.settled p.id] } }
    setRegister fun r =>
      { r with settled := some ⟨p.number, p.id, p.work.result⟩, phase := .rewinding }
    l.control limits .startRewind (← dataArg)

/-- Calls the function again as long as it comes back unwinding, at most so many times: the results of
the last call. -/
def drain (l : Linked σ φ) (limits : Limits) (entry : EntryPoint) (params : List Value) :
    Nat → List Value → GuestM σ (List Value)
  | 0, results => do
    if (← phase) = .unwinding then throw (.trap .exhausted) else return results
  | suspensions + 1, results => do
    if (← phase) = .unwinding then
      l.turnAround limits
      let results ← l.invoke limits entry params
      l.drain limits entry params suspensions results
    else return results

/-- Asks the guest for its own view of the phase, if it has one; the answer is not held against it. -/
def askState (l : Linked σ φ) (limits : Limits) : GuestM σ Unit := do
  let r := (← get).register
  if r.instrumented && r.reportsState then l.control limits .getState [] else pure ()

/-- Calls a function of the guest through all its suspensions. -/
def drive (l : Linked σ φ) (limits : Limits) (entry : EntryPoint) (signature : Signature)
    (params : List Value) : GuestM σ (List Value) := do
  requirePhase .normal
  if Value.types params = signature.params then
    let results ← l.invoke limits entry params
    let results ← l.drain limits entry params limits.suspensions results
    requirePhase .normal
    l.askState limits
    return results
  else throw (.incompatible "the arguments do not have the types of the parameters")

end Linked

end WasiSandbox
