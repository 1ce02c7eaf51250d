import WasiSandbox.Instance.Basic
import WasiSandbox.Instance.Fetch

/-! # From a module to an instance

A module is fetched, compiled to a guest, linked to the imports of a host, and run up to the point
where it is ready. A guest that exports the four control functions is then prepared for suspension:
the bounds of its stack buffer are written to its memory. -/

namespace WasiSandbox

/-- Why there is no instance. -/
inductive InstantiateError where
  | engine (cause : Abort)
  | fetch (e : FetchError)
  | compile (cause : Abort)
  /-- An import that nobody provides, where that is not allowed. -/
  | link (text : String)
  | instantiate (cause : Abort)
  | protocol (e : SuspendError)
  deriving DecidableEq, Repr

def InstantiateError.message : InstantiateError → String
  | engine cause => "Engine error: " ++ cause.headline
  | fetch e => "Fetch error: " ++ e.message
  | compile cause => "Compile error: " ++ cause.message
  | link text => "Linker error: " ++ text
  | instantiate cause => "Instantiation error: " ++ cause.message
  | protocol e => "Asyncify error: " ++ e.message

namespace Linked

variable {σ φ : Type}

/-- The first import of the guest that nobody provides. -/
def unknown? (l : Linked σ φ) : Option ImportId :=
  (l.guest.imports.find? fun i => (l.import? i.1).isNone).map (·.1)

/-- Every import of the guest has the type that the host declares for it. -/
def typesAgree (l : Linked σ φ) : Bool :=
  l.guest.imports.all fun (id, signature) =>
    match l.import? id with
    | some i => i.signature == signature
    | none => true

/-- The control functions that suspension cannot do without. -/
def neededControls : List Control := [.startUnwind, .stopUnwind, .startRewind, .stopRewind]

/-- The pair of bounds as it stands in memory. -/
def stackBounds (c : SuspendConfig) : Bytes :=
  littleEndian 4 c.stackStart.toNat ++ littleEndian 4 c.stackEnd.toNat

/-- Prepares a guest with all needed control functions for suspension. -/
def install (l : Linked σ φ) : EStateM SuspendError (Machine σ) Unit := do
  if neededControls.all l.guest.controls.contains then
    let m ← get
    let config := m.register.config
    match m.guest.memory with
    | none => throw .missingMemory
    | some memory =>
      match Memory.store config.data 8 (stackBounds config) memory with
      | .error _ _ => throw (.dataBuffer config.data)
      | .ok () memory =>
        set { m with
          guest := { m.guest with memory := some memory }
          register := { m.register with
            instrumented := true
            reportsState := l.guest.controls.contains .getState } }
  else pure ()

/-- Links the guest, runs its start code, and prepares it for suspension. -/
def instantiate (l : Linked σ φ) (limits : Limits) (trapUnknown : Bool) :
    EStateM InstantiateError (Machine σ) Unit := fun m =>
  let fail (e : InstantiateError) (m : Machine σ) : EStateM.Result InstantiateError (Machine σ) Unit :=
    .error e m
  match if trapUnknown then none else l.unknown? with
  | some id => fail (.link ("unknown import " ++ id.text)) m
  | none =>
    match l.guest.foreign? with
    | some id => fail (.instantiate (.unknownImport id)) m
    | none =>
      if !l.typesAgree then fail (.instantiate (.incompatible "incompatible import type")) m
      else
        let start : GuestM σ Unit := do
          if l.guest.hasStart then let _ ← l.invoke limits .start []
        match start m with
        | .error a m => fail (.instantiate a) m
        | .ok () m =>
          match l.install m with
          | .error e m => fail (.protocol e) m
          | .ok () m => .ok () m

end Linked

namespace ComposedHost

variable {σ φ : Type}

/-- Makes an instance of the guest; also the state of the host, which is there even if the instance is
not. -/
def instantiate (h : ComposedHost) (surroundings : Surroundings) (limits : Limits) (g : Guest σ φ) :
    Except InstantiateError (Instance σ φ) × Host :=
  let l : Linked σ φ := ⟨g, h.imports⟩
  let m : Machine σ := ⟨g.initial, h.initial surroundings, .new h.setup.suspend, []⟩
  match l.instantiate limits h.setup.trapUnknown m with
  | .ok () m => (.ok ⟨l, h.setup.entry, m⟩, m.host)
  | .error e m => (.error e, m.host)

end ComposedHost

end WasiSandbox
