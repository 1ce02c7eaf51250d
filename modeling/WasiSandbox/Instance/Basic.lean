import WasiSandbox.Host.Setup
import WasiSandbox.Suspend.Drive

/-! # Instances

An instance is a guest that is linked to a host and ready to be called. A call drives an exported
function and then flushes the two output streams, whatever came of it. A run calls the entry function
and turns an exit that the guest has asked for into an exit status. -/

namespace WasiSandbox

/-- Why a call or a run has no result. -/
inductive RunError where
  /-- The guest exports no function of that name. -/
  | missingExport (name : String)
  /-- The guest was stopped; `stderr` is all it has written to standard error. -/
  | trap (cause : Abort) (stderr : String)
  deriving DecidableEq, Repr

namespace RunError

def message : RunError → String
  | missingExport name => "Module has no exported function `" ++ name ++ "`"
  | trap cause stderr =>
    if stderr = "" then "Guest trapped: " ++ cause.message
    else "Guest trapped: " ++ cause.message ++ "\n--- stderr ---\n" ++ stderr

/-- The violation of the suspension protocol behind the error. -/
def protocol? : RunError → Option SuspendError
  | missingExport _ => none
  | trap cause _ => cause.protocol?

/-- What the guest has written to standard error before. -/
def stderr : RunError → String
  | missingExport _ => ""
  | trap _ stderr => stderr

end RunError

/-- How a run has ended that did not fail. -/
structure ExitStatus where
  code : Int32
  deriving DecidableEq, Repr

def ExitStatus.success (s : ExitStatus) : Bool := s.code == 0

/-- The exit status for the end of a run: zero for a return, the guest's own code for an exit. -/
def exitStatus {α : Type} (stderr : String) : Except Abort α → Except RunError ExitStatus
  | .ok _ => .ok ⟨0⟩
  | .error a =>
    match a.exitCode? with
    | some code => .ok ⟨code⟩
    | none => .error (.trap a stderr)

/-- A guest that is linked to a host. -/
structure Instance (σ φ : Type) where
  linked : Linked σ φ
  entry : String
  machine : Machine σ

namespace Instance

variable {σ φ : Type}

/-- The phase of the register. -/
def phase (i : Instance σ φ) : Phase := i.machine.register.phase

/-- The guest can be suspended. -/
def isInstrumented (i : Instance σ φ) : Bool := i.machine.register.instrumented

/-- Runs an operation on the host. -/
def onHost {α : Type} (i : Instance σ φ) (op : HostM α) : Except SysFailure α × Instance σ φ :=
  match op i.machine.host with
  | .ok a h => (.ok a, { i with machine := { i.machine with host := h } })
  | .error e h => (.error e, { i with machine := { i.machine with host := h } })

/-- Runs an operation on the file tree, past the guest. -/
def onTree {α : Type} (i : Instance σ φ) (op : TreeM α) :
    Except (Failure FsError) α × Instance σ φ :=
  let put (t : FileTree) : Instance σ φ :=
    { i with machine := { i.machine with host := { i.machine.host with tree := t } } }
  match op i.machine.host.tree with
  | .ok a t => (.ok a, put t)
  | .error e t => (.error e, put t)

/-- Drives a function and flushes the output streams. -/
def driveAndFlush (i : Instance σ φ) (limits : Limits) (entry : EntryPoint) (signature : Signature)
    (params : List Value) : Except Abort (List Value) × Instance σ φ :=
  let (outcome, machine) : Except Abort (List Value) × Machine σ :=
    match i.linked.drive limits entry signature params i.machine with
    | .ok vs m => (.ok vs, m)
    | .error a m => (.error a, m)
  let i := { i with machine := machine }
  (outcome, (i.onHost Host.flush).2)

/-- All that the guest has written to standard error, as far as it was handed on. -/
def transcript (i : Instance σ φ) : String := i.machine.host.table.stderr.handedOn

/-- Calls an exported function. -/
def call (i : Instance σ φ) (limits : Limits) (name : String) (params : List Value) :
    Except RunError (List Value) × Instance σ φ :=
  match i.linked.guest.exported? name with
  | none => (.error (.missingExport name), i)
  | some (entry, signature) =>
    let (outcome, i) := i.driveAndFlush limits entry signature params
    (outcome.mapError fun a => .trap a i.transcript, i)

/-- Runs the entry function. -/
def start (i : Instance σ φ) (limits : Limits) : Except RunError ExitStatus × Instance σ φ :=
  match i.linked.guest.exported? i.entry with
  | none => (.error (.missingExport i.entry), i)
  | some (entry, signature) =>
    let (outcome, i) := i.driveAndFlush limits entry signature []
    (exitStatus i.transcript outcome, i)

end Instance

end WasiSandbox
