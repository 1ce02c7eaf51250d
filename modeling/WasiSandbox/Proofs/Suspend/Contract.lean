import WasiSandbox.Proofs.Suspend.Conduct

/-! # The contract of an instrumented guest

A guest that can be suspended has to do its part. Told to unwind, it returns from its function
without calling an import, and all that it changes is where its position is saved; called again
with the same parameters while it rewinds, it comes to the import that it was suspended in, and to
no other before. `Linked.Honours` says so of a function and its parameters.

What the guest saves lies in its own globals and memory, so a guest that was suspended and has
come back is not in the state in which it would be otherwise. The contract is therefore about
pairs of states: `Waits id w s w' s'` is to be read as "`w` in the state `s` waits for the results
of the import `id`, and so does `w'` in `s'`, and nothing but the saved position tells them
apart".

`Guest.instrument` makes of any guest one that honours the contract (`Guest.instrument_honours`).
-/

namespace WasiSandbox

variable {σ φ : Type}

/-- The control function returns, and leads from the one state to the other. -/
def Guest.Performs (g : Guest σ φ) (c : Control) (args : List Value) (s s' : GuestState σ) : Prop :=
  ∃ vs, g.resume (g.enter (.control c) args) [] s = (.finish vs, s')

/-- The import cannot tell the two memories apart: it answers alike, does the same to the host, and
leaves memories that are related again. -/
def Import.Overlooks (i : Import) (args : List Value) (memory memory' : Option Memory)
    (Related : Option Memory → Option Memory → Prop) : Prop :=
  ∀ h : Host, match i.body args ⟨memory, h⟩, i.body args ⟨memory', h⟩ with
    | .ok o c, .ok o' c' => o = o' ∧ c.host = c'.host ∧ Related c.memory c'.memory
    | .error a c, .error a' c' => a = a' ∧ c.host = c'.host
    | _, _ => False

/-- On one memory an import does what it does. -/
theorem Import.overlooks_self (i : Import) (args : List Value) (memory : Option Memory)
    {Related : Option Memory → Option Memory → Prop} (h : ∀ m, Related m m) :
    i.Overlooks args memory memory Related := by
  intro host
  cases i.body args ⟨memory, host⟩ with
  | ok o c => exact ⟨rfl, rfl, h _⟩
  | error a c => exact ⟨rfl, rfl⟩

/-- Pairs of activations that wait for an import, each in its state. -/
abbrev Waiting (σ φ : Type) := ImportId → φ → GuestState σ → φ → GuestState σ → Prop

/-- Two activations have made the same move, up to what was saved: if it is the call of an import,
that does not look at what was saved, and afterwards both wait for its results. -/
def Linked.Follow (l : Linked σ φ) (Waits : Waiting σ φ) :
    Move φ × GuestState σ → Move φ × GuestState σ → Prop
  | (.finish vs, _), (.finish vs', _) => vs = vs'
  | (.trap cause, _), (.trap cause', _) => cause = cause'
  | (.call id args w, s), (.call id' args' w', s') => id = id' ∧ args = args' ∧
    ∀ i, l.import? id = some i → i.Overlooks args s.memory s'.memory fun memory memory' =>
      Waits id w { s with memory := memory } w' { s' with memory := memory' }
  | _, _ => False

/-- The activation is unwound and rewound: it returns when it is told to unwind, and the function,
when it is called again, calls the same import. -/
def Guest.ComesBack (g : Guest σ φ) (data : Value) (entry : EntryPoint) (params : List Value)
    (id : ImportId) (zeros : List Value) (w : φ) (s : GuestState σ) (w' : φ) (s' : GuestState σ) :
    Prop :=
  ∃ s₁ s₂ s₃ s₄ s₅ vs args, g.Performs .startUnwind [data] s s₁ ∧
    g.resume w zeros s₁ = (.finish vs, s₂) ∧
    g.Performs .stopUnwind [] s₂ s₃ ∧
    g.Performs .startRewind [data] s₃ s₄ ∧
    g.resume (g.enter entry params) [] s₄ = (.call id args w', s₅) ∧
    g.Performs .stopRewind [] s₅ s'

/-- **The contract**, for a function that is called with the parameters in the state. -/
structure Linked.Honours (l : Linked σ φ) (data : Value) (entry : EntryPoint) (params : List Value)
    (s₀ : GuestState σ) (Waits : Waiting σ φ) : Prop where
  begins : l.Follow Waits (l.guest.resume (l.guest.enter entry params) [] s₀)
    (l.guest.resume (l.guest.enter entry params) [] s₀)
  /-- The guest goes on alike whatever was saved. -/
  goes_on {id : ImportId} {w w' : φ} {s s' : GuestState σ} (h : Waits id w s w' s')
    (vs : List Value) : l.Follow Waits (l.guest.resume w vs s) (l.guest.resume w' vs s')
  /-- Unwinding and rewinding changes nothing but what was saved. -/
  comes_back {id : ImportId} {w w' : φ} {s s' : GuestState σ} {i : Import} (h : Waits id w s w' s')
    (hi : l.import? id = some i) : ∃ w₂ s₂,
      l.guest.ComesBack data entry params id i.zeros w s w₂ s₂ ∧ Waits id w₂ s₂ w' s'
  /-- Asked for its own view of the phase, the guest answers. -/
  reports (s : GuestState σ) : ∃ s', l.guest.Performs .getState [] s s'

/-! ### A pass that instruments guests -/

/-- The globals of an instrumented guest: those of the guest itself, the phase, and the call that it
was suspended in. -/
structure Instrumented (σ φ : Type) where
  globals : σ
  phase : Phase
  saved : Option (ImportId × List Value × φ)

/-- The activations of an instrumented guest. -/
inductive Frame (φ : Type) where
  | control (c : Control)
  | entered (a : φ)
  /-- The activation waits for the results of this call. -/
  | waiting (id : ImportId) (args : List Value) (a : φ)

namespace Guest

/-- The state of the guest in that of the instrumented one. -/
def bare (s : GuestState (Instrumented σ φ)) : GuestState σ := ⟨s.globals.globals, s.memory⟩

/-- Runs the activation of the guest; if it calls an import, the call is kept with it. -/
def resumeFrame (g : Guest σ φ) (a : φ) (vs : List Value) (s : GuestState (Instrumented σ φ)) :
    Move (Frame φ) × GuestState (Instrumented σ φ) :=
  let (move, s') := g.resume a vs (bare s)
  let s' := { s with globals := { s.globals with globals := s'.globals }, memory := s'.memory }
  match move with
  | .finish vs => (.finish vs, s')
  | .trap cause => (.trap cause, s')
  | .call id args w => (.call id args (.waiting id args w), s')

/-- The phase that the control function leads to. -/
def phaseAfter (current : Phase) : Control → Phase
  | .startUnwind => .unwinding
  | .startRewind => .rewinding
  | .stopUnwind | .stopRewind => .normal
  | .getState => current

/-- The guest with control functions, which saves the whole activation when it unwinds. -/
def instrument (g : Guest σ φ) : Guest (Instrumented σ φ) (Frame φ) where
  imports := g.imports
  foreign? := g.foreign?
  exports := g.exports
  controls := [.startUnwind, .stopUnwind, .startRewind, .stopRewind, .getState]
  hasStart := g.hasStart
  initial := ⟨⟨g.initial.globals, .normal, none⟩, g.initial.memory⟩
  enter
    | .control c, _ => .control c
    | entry, params => .entered (g.enter entry params)
  resume
    | .control c, _, s =>
      (.finish [], { s with globals := { s.globals with phase := phaseAfter s.globals.phase c } })
    | .entered a, vs, s =>
      match s.globals.phase, s.globals.saved with
      | .rewinding, some (id, args, w) => (.call id args (.waiting id args w), s)
      | _, _ => g.resumeFrame a vs s
    | .waiting id args w, vs, s =>
      if s.globals.phase = .unwinding then
        (.finish [], { s with globals := { s.globals with saved := some (id, args, w) } })
      else g.resumeFrame w vs s

variable {g : Guest σ φ}

theorem instrument_quiet : g.instrument.QuietControls := by
  rintro c args s id as w ⟨⟩

/-- The states agree on all but the call that was saved. -/
structure AlikeBut (s s' : GuestState (Instrumented σ φ)) : Prop where
  bare : bare s = bare s'
  normal : s.globals.phase = .normal
  normal' : s'.globals.phase = .normal

/-- The same activation waits in states that agree on all but the call that was saved. -/
def SameWait : Waiting (Instrumented σ φ) (Frame φ) := fun id w s w' s' =>
  (∃ args a, w = .waiting id args a ∧ w' = .waiting id args a) ∧ AlikeBut s s'

/-- The guest does not look at the call that was saved. -/
theorem resumeFrame_follow {imports : List Import} (a : φ) (vs : List Value)
    {s s' : GuestState (Instrumented σ φ)} (h : AlikeBut s s') :
    (⟨g.instrument, imports⟩ : Linked _ _).Follow SameWait (g.resumeFrame a vs s)
      (g.resumeFrame a vs s') := by
  unfold resumeFrame
  rw [h.bare]
  obtain ⟨move, t⟩ := g.resume a vs (Guest.bare s')
  cases move with
  | finish vs => rfl
  | trap cause => rfl
  | call id args w =>
    refine ⟨rfl, rfl, fun i _ => i.overlooks_self _ _ fun memory => ?_⟩
    exact ⟨⟨args, w, rfl, rfl⟩, rfl, h.normal, h.normal'⟩

/-- **The pass makes guests that honour the contract**, with any imports. -/
theorem instrument_honours (imports : List Import) (data : Value) {entry : EntryPoint}
    (he : ∀ c, entry ≠ .control c) (params : List Value) {s₀ : GuestState (Instrumented σ φ)}
    (h0 : s₀.globals.phase = .normal) :
    (⟨g.instrument, imports⟩ : Linked _ _).Honours data entry params s₀ SameWait := by
  have henter : g.instrument.enter entry params = .entered (g.enter entry params) := by
    cases entry with
    | control c => exact absurd rfl (he c)
    | _ => rfl
  constructor
  case begins =>
    have hself : AlikeBut s₀ s₀ := ⟨rfl, h0, h0⟩
    have hmove : g.instrument.resume (.entered (g.enter entry params)) [] s₀ =
        g.resumeFrame (g.enter entry params) [] s₀ := by
      simp only [instrument, h0]
    rw [henter, hmove]
    exact resumeFrame_follow _ _ hself
  case goes_on =>
    rintro id w w' s s' ⟨⟨args, a, rfl, rfl⟩, h⟩ vs
    have hmove : ∀ t : GuestState (Instrumented σ φ), t.globals.phase = .normal →
        g.instrument.resume (.waiting id args a) vs t = g.resumeFrame a vs t := by
      intro t ht
      simp [instrument, ht]
    rw [hmove s h.normal, hmove s' h.normal']
    exact resumeFrame_follow a vs h
  case comes_back =>
    rintro id w w' s s' i ⟨⟨args, a, rfl, rfl⟩, h⟩ -
    -- The states that the guest passes through differ from `s` in the phase and the saved call.
    let stage (p : Phase) (saved : Option (ImportId × List Value × φ)) :
        GuestState (Instrumented σ φ) := { s with globals := ⟨s.globals.globals, p, saved⟩ }
    let call := some (id, args, a)
    refine ⟨.waiting id args a, stage .normal call, ?_, ⟨args, a, rfl, rfl⟩, h.bare, rfl, h.normal'⟩
    refine ⟨stage .unwinding s.globals.saved, stage .unwinding call, stage .normal call,
      stage .rewinding call, stage .rewinding call, [], args, ⟨[], rfl⟩, rfl, ⟨[], rfl⟩,
      ⟨[], rfl⟩, ?_, ⟨[], rfl⟩⟩
    rw [henter]
    rfl
  case reports => exact fun s => ⟨_, [], rfl⟩

/-- A guest whose function calls one import so many times, first with its parameters and then each
time with the results of the call before. -/
def relay (id : ImportId) (calls : Nat) : Guest Unit (Nat × List Value) where
  imports := [(id, ⟨[.i32], [.i32]⟩)]
  foreign? := none
  exports := [("relay", .function "relay", ⟨[.i32], [.i32]⟩)]
  controls := []
  hasStart := false
  initial := ⟨(), some (.filled 32 0)⟩
  enter := fun _ params => (calls, params)
  resume
    | (0, _), vs, s => (.finish vs, s)
    | (left + 1, params), vs, s => (.call id (params ++ vs) (left, []), s)

end Guest

end WasiSandbox
