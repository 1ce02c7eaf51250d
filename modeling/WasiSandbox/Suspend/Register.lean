import WasiSandbox.Guest.Basic
import WasiSandbox.Suspend.Config

/-! # The register of an instance

Every call of an import by the guest passes here. In the normal phase the import runs. If it answers
at once its results go to the guest; if it leaves work behind, the work is kept as *pending*, the
phase turns to unwinding, the guest is told so, and it gets zeros that it will not look at. While the
guest unwinds it has no business calling imports. While it rewinds, the first import that it calls has
to be the one that left the work behind: the guest is told to stop rewinding, and the *settled* result
of the work goes to it as if the import had just answered. -/

namespace WasiSandbox

/-- Work that an import has left behind; all such work of an instance is numbered. -/
structure Pending where
  number : Nat
  id : ImportId
  work : Future

/-- The result of such work, until the rewind has come to the import. -/
structure Settled where
  number : Nat
  id : ImportId
  result : Except Abort (List Value)

/-- What an instance remembers about suspension. -/
structure Register where
  config : SuspendConfig
  phase : Phase
  pending : Option Pending
  settled : Option Settled
  /-- How much work was left behind so far; it only numbers the work. -/
  issued : Nat
  /-- The guest has the four control exports that suspension needs. -/
  instrumented : Bool
  /-- The guest also exports its own view of the phase. -/
  reportsState : Bool

/-- What can be told of a register: of the work, whether there is any, and its number. -/
structure RegisterView where
  phase : Phase
  pending : Option Nat
  settled : Option Nat
  instrumented : Bool
  deriving DecidableEq, Repr

namespace Register

/-- A register with nothing under way, for a guest without control exports. -/
def new (config : SuspendConfig) : Register := ⟨config, .normal, none, none, 0, false, false⟩

def view (r : Register) : RegisterView :=
  ⟨r.phase, r.pending.map (·.number), r.settled.map (·.number), r.instrumented⟩

end Register

/-- One thing that has passed between guest and host. -/
inductive Exchange where
  /-- Code of the guest was entered, or goes on behind the call of an import. -/
  | entered (register : RegisterView)
  /-- The guest has called an import. -/
  | called (id : ImportId) (register : RegisterView)
  /-- The body of an import was run, in this phase. -/
  | ran (id : ImportId) (args : List Value) (phase : Phase)
  /-- An import has left work behind that settles to this result. -/
  | suspended (number : Nat) (id : ImportId) (result : Except Abort (List Value))
  /-- That work was awaited. -/
  | awaited (number : Nat) (id : ImportId)
  /-- Its result was handed over to a call of this import. -/
  | resumed (number : Nat) (id : ImportId) (result : Except Abort (List Value))
  /-- These values went to the guest as the results of its call. -/
  | answered (id : ImportId) (values : List Value)
  /-- The host has called a control function. -/
  | control (c : Control)
  /-- The host has found the protocol violated, in this phase. -/
  | violated (e : SuspendError) (phase : Phase)

/-- A guest and its host, as they run. -/
structure Machine (σ : Type) where
  guest : GuestState σ
  host : Host
  register : Register
  /-- All that has passed between the two, in order; nothing that runs looks at it. -/
  exchanges : List Exchange

/-- A run of the guest, which may be stopped. -/
abbrev GuestM (σ : Type) := EStateM Abort (Machine σ)

namespace GuestM

variable {σ : Type}

def phase : GuestM σ Phase := return (← get).register.phase

/-- Changes the register. -/
def setRegister (f : Register → Register) : GuestM σ Unit :=
  modify fun m => { m with register := f m.register }

/-- Keeps a record of what has passed. -/
def record (e : Exchange) : GuestM σ Unit :=
  modify fun m => { m with exchanges := m.exchanges ++ [e] }

def violate {α : Type} (e : SuspendError) : GuestM σ α := do
  record (.violated e (← phase))
  throw (.protocol e)

/-- Fails unless the register is in the phase. -/
def requirePhase (expected : Phase) : GuestM σ Unit := do
  let found ← phase
  if found = expected then pure () else violate (.unexpectedState expected found)

/-- Fails unless the guest has the control exports. -/
def requireInstrumented (e : SuspendError) : GuestM σ Unit := do
  if (← get).register.instrumented then pure () else violate e

/-- Takes the work that an import has left behind. -/
def takePending : GuestM σ (Option Pending) := do
  let p := (← get).register.pending
  setRegister fun r => { r with pending := none }
  return p

/-- Takes the result of such work. -/
def takeSettled : GuestM σ (Option Settled) := do
  let s := (← get).register.settled
  setRegister fun r => { r with settled := none }
  return s

/-- The argument of the control functions that start something. -/
def dataArg : GuestM σ (List Value) := return [.i32 (← get).register.config.data]

/-- Hands over the results of finished work, or what stopped it. -/
def ofResult (r : Except Abort (List Value)) : GuestM σ (List Value) :=
  match r with
  | .ok vs => pure vs
  | .error a => throw a

end GuestM

namespace Import

open GuestM

variable {σ : Type}

/-- An operation of an import as one of the machine. -/
def onCaller {α : Type} (op : ImportM α) : GuestM σ α := fun m =>
  match op ⟨m.guest.memory, m.host⟩ with
  | .ok a c => .ok a { m with guest := { m.guest with memory := c.memory }, host := c.host }
  | .error e c => .error e { m with guest := { m.guest with memory := c.memory }, host := c.host }

/-- Runs the body of the import. -/
def runBody (i : Import) (args : List Value) : GuestM σ Outcome := do
  record (.ran i.id args (← phase))
  onCaller (i.body args)

/-- Hands over the results if they are as many as declared. -/
def deliver (i : Import) (vs : List Value) : GuestM σ (List Value) := do
  if vs.length = i.signature.results.length then return vs
  else violate (.resultArity i.id i.signature.results.length vs.length)

/-- The call that ends a rewind: the settled result. -/
def rewound (control : Control → List Value → GuestM σ Unit) (i : Import) :
    GuestM σ (List Value) := do
  requireInstrumented .missingContinuation
  control .stopRewind []
  setRegister fun r => { r with phase := .normal }
  match ← takeSettled with
  | none => violate .missingContinuation
  | some s =>
    if s.id = i.id then
      record (.resumed s.number i.id s.result)
      ofResult s.result
    else violate (.importMismatch s.id i.id)

/-- The call that begins a suspension: zeros. -/
def suspend (control : Control → List Value → GuestM σ Unit) (i : Import) (work : Future) :
    GuestM σ (List Value) := do
  requireInstrumented (.notInstrumented i.id)
  if (← get).register.pending.isSome then violate (.nestedSuspend i.id)
  else
    let number := (← get).register.issued
    setRegister fun r =>
      { r with pending := some ⟨number, i.id, work⟩, phase := .unwinding, issued := number + 1 }
    record (.suspended number i.id work.result)
    control .startUnwind (← dataArg)
    return i.signature.results.map ValueType.zero

/-- Answers a call of the import by the guest; `control` calls a control function of the guest. -/
def answer (control : Control → List Value → GuestM σ Unit) (i : Import) (args : List Value) :
    GuestM σ (List Value) := do
  let r := (← get).register
  record (.called i.id r.view)
  match r.phase with
  | .rewinding => i.deliver (← i.rewound control)
  | .unwinding => violate (.nestedSuspend i.id)
  | .normal =>
    match ← i.runBody args with
    | .ready vs => i.deliver vs
    | .pending work => i.suspend control work

end Import

end WasiSandbox
