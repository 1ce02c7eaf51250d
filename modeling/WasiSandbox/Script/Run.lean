import WasiSandbox.Script.Read
import WasiSandbox.Instance.Instantiate

/-! # Running scripts

The guest of a script has two variables besides its memory: its own view of the phase of a
suspension, and the address that it was told to keep its stack at. The control functions set them
after their hooks. A function that is not raw behaves as if its stack were saved there: when a call
leaves it unwinding it pushes the number of the step, and when it is entered while rewinding it pops
that number and goes on with the call of that step, without the steps before it.

Behind every step that leaves the guest in its normal state comes a checkpoint, if the script is run
with them: the call of an import that notes what the step got and what the host looks like. -/

namespace WasiSandbox

/-- The globals of a scripted guest. -/
structure ScriptState where
  /-- The guest's view of the phase: 0 is normal, 1 unwinding, 2 rewinding. -/
  phase : UInt32
  /-- Where it was told to keep its stack. -/
  data : UInt32
  /-- What each step got last. -/
  results : List ((ScriptBody × Nat) × List Value)
  /-- The steps to be taken once that were taken. -/
  taken : List (ScriptBody × Nat)
  /-- The memory that it uses if it exports none. -/
  hidden : Memory

/-- What an activation waits for. -/
inductive ScriptStage where
  | begin
  /-- The results of the step. -/
  | called (step : Nat)
  /-- The checkpoint behind the step. -/
  | noted (step : Nat)
  deriving DecidableEq, Repr

/-- An activation of a scripted guest. -/
structure ScriptFrame where
  body : ScriptBody
  params : List Value
  stage : ScriptStage
  deriving DecidableEq, Repr

/-- A run of a scripted guest between two calls. -/
abbrev ScriptM := EStateM Abort (GuestState ScriptState)

namespace Script

/-- The size of a page of memory. -/
def pageSize : Nat := 65536

/-! ### Memory -/

/-- An operation on the memory that the guest uses; it traps if that fails. -/
def onMemory {α : Type} (op : MemoryM α) : ScriptM α := fun g =>
  let trap : Abort := .trap .memoryOutOfBounds
  match g.memory with
  | some m =>
    match op m with
    | .ok a m => .ok a { g with memory := some m }
    | .error _ m => .error trap { g with memory := some m }
  | none =>
    match op g.globals.hidden with
    | .ok a m => .ok a { g with globals := { g.globals with hidden := m } }
    | .error _ m => .error trap { g with globals := { g.globals with hidden := m } }

/-- Puts octets into memory one by one. -/
def poke (ptr : UInt32) : Bytes → ScriptM Unit
  | [] => pure ()
  | b :: rest => do
    onMemory (Memory.writeU8 ptr b)
    poke (ptr + 1) rest

def pokeAll (s : ScriptStep) : ScriptM Unit := s.pokes.forM fun p => poke p.1 p.2

/-! ### Values -/

/-- The number as a value of the type. -/
def constantOf (type : ValueType) (n : Int) : Value :=
  match type with
  | .i64 => .i64 (.ofInt n)
  | .f32 => .f32 (.ofInt n)
  | .f64 => .f64 (.ofInt n)
  | _ => .i32 (.ofInt n)

/-- What the operand stands for where a value of the type is wanted. -/
def evaluate (f : ScriptFrame) (type : ValueType) : Operand → ScriptM Value
  | .constant n => return constantOf type n
  | .param i => return f.params[i]?.getD type.zero
  | .result step j => do
    let stored := ((← get).globals.results.lookup (f.body, step)).getD []
    return stored[j]?.getD type.zero
  | .load ptr => do return constantOf type (← onMemory (Memory.readU32 ptr)).toNat

def evaluateAll (f : ScriptFrame) (types : List ValueType) (ops : List Operand) :
    ScriptM (List Value) :=
  (types.zip ops).mapM fun (type, op) => evaluate f type op

/-- Keeps what a step has got. -/
def store (body : ScriptBody) (step : Nat) (vs : List Value) : ScriptM Unit :=
  modify fun g => { g with globals := { g.globals with
    results := ((body, step), vs) :: g.globals.results.filter (·.1 != (body, step)) } }

def setPhase (phase : UInt32) : ScriptM Unit :=
  modify fun g => { g with globals := { g.globals with phase := phase } }

def setData (params : List Value) : ScriptM Unit :=
  match params with
  | .i32 w :: _ => modify fun g => { g with globals := { g.globals with data := w } }
  | _ => pure ()

/-! ### Saved positions -/

/-- Takes the number of the step to go on with, if the guest is rewinding. -/
def popPosition : ScriptM (Option UInt32) := do
  let g := (← get).globals
  if g.phase = 2 then
    let top := (← onMemory (Memory.readU32 g.data)) - 4
    onMemory (Memory.writeU32 g.data top)
    return some (← onMemory (Memory.readU32 top))
  else return none

/-- Saves the number of the step, if there is room for it. -/
def pushPosition (step : Nat) : ScriptM Unit := do
  let g := (← get).globals
  let top ← onMemory (Memory.readU32 g.data)
  let stop ← onMemory (Memory.readU32 (g.data + 4))
  if stop < top + 4 then throw (.trap .unreachable)
  else
    onMemory (Memory.writeU32 top (.ofNat step))
    onMemory (Memory.writeU32 g.data (top + 4))

/-! ### Steps -/

/-- The import that stands for the checkpoint behind a step. -/
def checkpointId (s : Script) (body : ScriptBody) (step : Nat) : ImportId :=
  ⟨"script:checkpoint", s.label body ++ "/" ++ toString step⟩

/-- The end of a body: what it leaves behind and returns. -/
def finish (s : Script) (f : ScriptFrame) : ScriptM (Move ScriptFrame) := do
  match f.body with
  | .init => return .finish []
  | .function i =>
    match s.functions[i]? with
    | none => return .finish []
    | some g =>
      match g.returns with
      | none => return .finish (g.signature.results.map ValueType.zero)
      | some ops => return .finish (← evaluateAll f g.signature.results ops)
  | .hook .startUnwind => setData f.params; setPhase 1; return .finish []
  | .hook .stopUnwind => setPhase 0; return .finish []
  | .hook .startRewind => setData f.params; setPhase 2; return .finish []
  | .hook .stopRewind => setPhase 0; return .finish []
  | .hook .getState => return .finish [.i32 (← get).globals.phase]

/-- Takes the step: a trap or the call of an import. -/
def take (f : ScriptFrame) (index : Nat) (step : ScriptStep) : ScriptM (Move ScriptFrame) := do
  match step.action with
  | .trap => throw (.trap .unreachable)
  | .call id args signature =>
    let args ← evaluateAll f (signature.getD ⟨[], []⟩).params args
    return .call id args { f with stage := .called index }

/-- A raw body skips the step now. -/
def skips (body : ScriptBody) (index : Nat) (step : ScriptStep) : ScriptM Bool := do
  let g := (← get).globals
  match step.states with
  | some states => return !states.contains g.phase || step.once && g.taken.contains (body, index)
  | none => return step.once && g.taken.contains (body, index)

/-- Remembers that the step was taken. -/
def markTaken (body : ScriptBody) (index : Nat) : ScriptM Unit :=
  modify fun g => { g with globals := { g.globals with taken := (body, index) :: g.globals.taken } }

/-- Goes on in a raw body with the steps from the index on. -/
def continueRaw (s : Script) (f : ScriptFrame) : Nat → List ScriptStep → ScriptM (Move ScriptFrame)
  | _, [] => s.finish f
  | index, step :: rest => do
    if ← skips f.body index step then s.continueRaw f (index + 1) rest
    else
      if step.once then markTaken f.body index
      pokeAll step
      take f index step

/-- Goes on in a body that saves its position; with a saved position, at the step of that number. -/
def continueSaved (s : Script) (f : ScriptFrame) (position : Option UInt32) :
    Nat → List ScriptStep → ScriptM (Move ScriptFrame)
  | _, [] => s.finish f
  | index, step :: rest => do
    match position with
    | none =>
      pokeAll step
      take f index step
    | some p =>
      if p.toNat = index then take f index step
      else s.continueSaved f position (index + 1) rest

/-- Goes on with the steps from the index on. -/
def continueAt (s : Script) (f : ScriptFrame) (index : Nat) : ScriptM (Move ScriptFrame) :=
  let rest := (s.steps f.body).drop index
  if s.isRaw f.body then s.continueRaw f index rest else s.continueSaved f none index rest

/-- The results of a function that returns without having come to its end. -/
def zeroResults (s : Script) : ScriptBody → List Value
  | .function i => ((s.functions[i]?).map fun g => g.signature.results.map ValueType.zero).getD []
  | _ => []

/-- Goes on behind the call of a step. -/
def afterCall (s : Script) (traced : Bool) (f : ScriptFrame) (index : Nat) (vs : List Value) :
    ScriptM (Move ScriptFrame) := do
  store f.body index vs
  let phase := (← get).globals.phase
  if !s.isRaw f.body && phase == 1 then
    pushPosition index
    return .finish (s.zeroResults f.body)
  else if traced && phase == 0 then
    return .call (s.checkpointId f.body index) vs { f with stage := .noted index }
  else s.continueAt f (index + 1)

/-- The next move of the activation. -/
def move (s : Script) (traced : Bool) (f : ScriptFrame) (vs : List Value) :
    ScriptM (Move ScriptFrame) := do
  match f.stage with
  | .begin =>
    if s.isRaw f.body then s.continueAt f 0
    else s.continueSaved f (← popPosition) 0 (s.steps f.body)
  | .called index => s.afterCall traced f index vs
  | .noted index => s.continueAt f (index + 1)

/-! ### Checkpoints -/

/-- The octets of a range of the memory that the guest exports. -/
def shownRange (m : Option Memory) (range : UInt32 × UInt32) : Option Bytes := do
  match Memory.slice range.1 range.2 (← m) with
  | .ok b _ => some b
  | .error _ _ => none

/-- The import that notes the checkpoint behind a step. -/
def checkpoint (s : Script) (body : ScriptBody) (index : Nat) (step : ScriptStep) : Import where
  id := s.checkpointId body index
  signature := ⟨match step.action with
    | .call _ _ (some signature) => signature.results
    | _ => [], []⟩
  body := fun vs => do
    let c ← get
    let note : Checkpoint := {
      function := s.label body
      step := index
      results := vs
      handles := c.host.table.size
      shown := step.shown.map fun ranges => ranges.map (shownRange c.memory)
      tested := step.tested.map fun ranges =>
        ranges.map fun r => (shownRange c.memory r).map fun b => b.any (· != 0) }
    set { c with host := { c.host with journal := c.host.journal ++ [Event.checkpoint note] } }
    return .ready []

/-- The imports for all checkpoints of the script. -/
def checkpoints (s : Script) : List Import :=
  s.bodies.flatMap fun body => (s.steps body).zipIdx.map fun (step, i) => s.checkpoint body i step

/-! ### As guests -/

/-- The script with the signature of every call filled in, as the host declares it. -/
def resolve (s : Script) (imports : List Import) : Script :=
  s.mapSteps fun step =>
    match step.action with
    | .call id args none =>
      let declared := (imports.find? (·.id == id)).map (·.signature)
      { step with action := .call id args (some (declared.getD ⟨[], []⟩)) }
    | _ => step

/-- The import that the step calls, with its signature. -/
def calledImport? (step : ScriptStep) : Option (ImportId × Signature) :=
  match step.action with
  | .call id _ (some signature) => some (id, signature)
  | _ => none

/-- The imports that the script calls, in the order in which it first calls them. -/
def importList (s : Script) : List (ImportId × Signature) :=
  (s.bodies.flatMap fun body => (s.steps body).filterMap calledImport?).eraseDups

/-- The control functions that are exported at their proper types. -/
def controlList (s : Script) : List Control :=
  match s.controls with
  | none => []
  | some c => c.exports.filter fun control => !c.mistyped.contains control

/-- What the guest exports. -/
def exportList (s : Script) : List (String × EntryPoint × Signature) :=
  s.functions.map (fun f => (f.name, .function f.name, f.signature)) ++
    s.controlList.map fun c => (c.exportName, .control c, c.signature)

/-- The body that an entry point leads to. -/
def bodyAt (s : Script) : EntryPoint → ScriptBody
  | .function name => .function (s.functions.findIdx fun f => f.name == name)
  | .control c => .hook c
  | .start => .init

/-- The guest that the script describes, where all signatures are filled in; `traced` if it passes
checkpoints. -/
def toGuest (s : Script) (traced : Bool) : Guest ScriptState ScriptFrame where
  imports := s.importList
  foreign? := if s.importsGlobal then some ⟨"env", "outside"⟩ else none
  exports := s.exportList
  controls := s.controlList
  hasStart := !s.init.isEmpty
  initial := {
    globals := ⟨0, 0, [], [], .filled (if s.pages.isSome then 0 else pageSize) 0⟩
    memory := s.pages.map fun n => .filled (n * pageSize) 0 }
  enter := fun entry params => ⟨s.bodyAt entry, params, .begin⟩
  resume := fun f vs g =>
    match s.move traced f vs g with
    | .ok m g => (m, g)
    | .error a g => (.trap a, g)

/-- Reads the script in the octets. -/
def compile (content : Bytes) : Except Abort Script :=
  match Text.decode? content with
  | none => .error (.failed "the module is not text")
  | some text =>
    match parse? text with
    | none => .error (.failed "the module is not a guest script")
    | some s => .ok s

end Script

namespace ComposedHost

/-- The host with the checkpoints of the script among its imports. -/
def withCheckpoints (h : ComposedHost) (s : Script) : ComposedHost :=
  { h with imports := h.imports ++ s.checkpoints }

/-- Fetches the script at the location and makes an instance of its guest; `traced` if it passes
checkpoints. -/
def instantiateScript (h : ComposedHost) (surroundings : Surroundings) (limits : Limits) (traced : Bool)
    (source : ModuleSource) (location : String) :
    Except InstantiateError (Instance ScriptState ScriptFrame) × Host :=
  match source.fetch location with
  | .error e => (.error (.fetch e), h.initial surroundings)
  | .ok content =>
    match Script.compile content with
    | .error a => (.error (.compile a), h.initial surroundings)
    | .ok s =>
      let s := s.resolve h.imports
      let h := if traced then h.withCheckpoints s else h
      h.instantiate surroundings limits (s.toGuest traced)

end ComposedHost

end WasiSandbox
