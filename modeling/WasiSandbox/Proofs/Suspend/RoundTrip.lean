import WasiSandbox.Proofs.Suspend.Contract

/-! # The way through a suspension

What becomes of a call whose import leaves work behind, if the guest honours the contract: the guest
unwinds, the work is awaited, the guest rewinds, and the run goes on as if the import had answered
with the result of the work. The steps are followed one by one as equations between runs
(`suspend_eq`, `turnAround_eq`, `rewound_eq`) and put together in `suspended_call`.

`m.Is B s h r` says of a machine what there is to say between two of these steps: the bodies of
imports that were run, the state of the guest, the host and the register. -/

namespace WasiSandbox

open GuestM

variable {σ φ α β : Type}

/-! ### Steps of a known run -/

namespace GuestM

section Steps

variable {m m' : Machine σ} {x : GuestM σ α} {f : α → GuestM σ β}

theorem bind_ok {a : α} (h : x m = .ok a m') : (x >>= f) m = f a m' := by
  show EStateM.bind x f m = _
  unfold EStateM.bind
  rw [h]

theorem bind_error {e : Abort} (h : x m = .error e m') : (x >>= f) m = .error e m' := by
  show EStateM.bind x f m = _
  unfold EStateM.bind
  rw [h]

/-- What follows does not depend on how the same result came about. -/
theorem bind_congr_run {y : GuestM σ α} (h : x m = y m') : (x >>= f) m = (y >>= f) m' := by
  show EStateM.bind x f m = EStateM.bind y f m'
  unfold EStateM.bind
  rw [h]

theorem record_bind {e : Exchange} {f : Unit → GuestM σ β} :
    (record e >>= f) m = f () (m.log e) := rfl

theorem get_bind {f : Machine σ → GuestM σ β} : (get >>= f) m = f m m := rfl

theorem phase_bind {f : Phase → GuestM σ β} : (phase >>= f) m = f m.register.phase m := rfl

theorem dataArg_bind {f : List Value → GuestM σ β} :
    (dataArg >>= f) m = f [.i32 m.register.config.data] m := rfl

theorem modify_bind {g : Machine σ → Machine σ} {f : Unit → GuestM σ β} :
    (modify g >>= f) m = f () (g m) := rfl

theorem setRegister_bind {g : Register → Register} {f : Unit → GuestM σ β} :
    (setRegister g >>= f) m = f () { m with register := g m.register } := rfl

theorem takePending_bind {f : Option Pending → GuestM σ β} : (takePending >>= f) m =
    f m.register.pending { m with register := { m.register with pending := none } } := rfl

theorem takeSettled_bind {f : Option Settled → GuestM σ β} : (takeSettled >>= f) m =
    f m.register.settled { m with register := { m.register with settled := none } } := rfl

theorem requireInstrumented_bind {e : SuspendError} {f : Unit → GuestM σ β}
    (h : m.register.instrumented = true) : (requireInstrumented e >>= f) m = f () m := by
  refine bind_ok ?_
  unfold requireInstrumented
  rw [get_bind, if_pos h]
  rfl

theorem requirePhase_bind {p : Phase} {f : Unit → GuestM σ β} (h : m.register.phase = p) :
    (requirePhase p >>= f) m = f () m := by
  refine bind_ok ?_
  unfold requirePhase
  rw [phase_bind, if_pos h]
  rfl

end Steps

end GuestM

theorem Linked.advance_bind {l : Linked σ φ} {a : φ} {vs : List Value} {m : Machine σ}
    {move : Move φ} {s : GuestState σ} {f : Move φ → GuestM σ β}
    (h : l.guest.resume a vs m.guest = (move, s)) :
    (l.advance a vs >>= f) m = f move { m.log (.entered m.register.view) with guest := s } := by
  refine bind_ok ?_
  show EStateM.Result.ok (l.guest.resume a vs m.guest).1
    { m.log (.entered m.register.view) with guest := (l.guest.resume a vs m.guest).2 } = _
  rw [h]

/-- The bodies of imports that were run, with their arguments. -/
def Machine.bodies (m : Machine σ) : List (ImportId × List Value) :=
  m.exchanges.filterMap Exchange.ran?

/-- The machine in its parts, but for the exchanges other than the bodies that were run. -/
structure Machine.Is (bodies : List (ImportId × List Value)) (s : GuestState σ) (h : Host)
    (r : Register) (m : Machine σ) : Prop where
  bodies : m.bodies = bodies
  guest : m.guest = s
  host : m.host = h
  register : m.register = r

namespace Machine.Is

variable {B : List (ImportId × List Value)} {s : GuestState σ} {h : Host} {r : Register}
  {m : Machine σ}

theorem log (hm : m.Is B s h r) {e : Exchange} (he : e.ran? = none) : (m.log e).Is B s h r := by
  refine ⟨?_, hm.guest, hm.host, hm.register⟩
  rw [Machine.bodies, Machine.log_exchanges, List.filterMap_append, List.filterMap_cons_none he,
    List.filterMap_nil, List.append_nil]
  exact hm.bodies

theorem withGuest (hm : m.Is B s h r) (s' : GuestState σ) : { m with guest := s' }.Is B s' h r :=
  ⟨hm.bodies, rfl, hm.host, hm.register⟩

theorem withHost (hm : m.Is B s h r) (h' : Host) : { m with host := h' }.Is B s h' r :=
  ⟨hm.bodies, hm.guest, rfl, hm.register⟩

theorem withRegister (hm : m.Is B s h r) (r' : Register) : { m with register := r' }.Is B s h r' :=
  ⟨hm.bodies, hm.guest, hm.host, rfl⟩

end Machine.Is

/-- Nothing is under way, in an instrumented guest. -/
structure Register.Idle (r : Register) : Prop where
  phase : r.phase = .normal
  pending : r.pending = none
  settled : r.settled = none
  instrumented : r.instrumented = true

/-- The journal of the host tells that the work of the import was settled. -/
def Host.noteSettled (h : Host) (id : ImportId) : Host :=
  { h with journal := h.journal ++ [.settled id] }

variable {l : Linked σ φ} {limits : Limits} {B : List (ImportId × List Value)} {s s' : GuestState σ}
  {h : Host} {r : Register} {m : Machine σ}

/-! ### Control functions -/

/-- The limits leave room for a control function. -/
structure Limits.Roomy (limits : Limits) : Prop where
  moves : 0 < limits.moves
  depth : 0 < limits.depth

theorem Linked.control_eq (hl : limits.Roomy) {c : Control} {args : List Value} (hm : m.Is B s h r)
    (hp : l.guest.Performs c args s s') :
    ∃ m', l.control limits c args m = .ok () m' ∧ m'.Is B s' h r := by
  obtain ⟨moves, hmoves⟩ := Nat.exists_eq_add_of_lt hl.moves
  obtain ⟨depth, hdepth⟩ := Nat.exists_eq_add_of_lt hl.depth
  obtain ⟨vs, hvs⟩ := hp
  have hm' := ((hm.log (e := .control c) rfl).log (e := .entered m.register.view) rfl).withGuest s'
  have hvs : l.guest.resume (l.guest.enter (.control c) args) [] (m.log (.control c)).guest =
      (.finish vs, s') := by
    rw [Machine.log_guest, hm.guest]
    exact hvs
  refine ⟨_, ?_, hm'⟩
  unfold Linked.control
  rw [hmoves, hdepth, Nat.zero_add, Nat.zero_add, Linked.controlAt, record_bind, Linked.runWith,
    bind_assoc, Linked.advance_bind hvs]
  rfl

/-! ### The three steps of a suspension -/

variable {i : Import} {work : Future}

/-- The register while the guest unwinds from the import. -/
def Register.unwinding (r : Register) (i : Import) (work : Future) : Register :=
  { r with pending := some ⟨r.issued, i.id, work⟩, phase := .unwinding, issued := r.issued + 1 }

/-- The register while the guest rewinds to the import. -/
def Register.rewinding (r : Register) (i : Import) (work : Future) : Register :=
  { r.unwinding i work with
    pending := none, settled := some ⟨r.issued, i.id, work.result⟩, phase := .rewinding }

/-- The register when the result was handed over. -/
def Register.counted (r : Register) : Register := { r with issued := r.issued + 1 }

theorem Register.Idle.withIssued (hr : r.Idle) (n : Nat) : { r with issued := n }.Idle :=
  ⟨hr.phase, hr.pending, hr.settled, hr.instrumented⟩

/-- A register that was idle is so again. -/
theorem Register.Idle.counted_eq (hr : r.Idle) :
    { r.rewinding i work with phase := .normal, settled := none } = r.counted := by
  show { r with pending := none, settled := none, phase := .normal, issued := r.issued + 1 } =
    r.counted
  rw [← hr.phase, ← hr.pending, ← hr.settled]
  rfl

theorem Import.suspend_eq (i : Import) (work : Future) (hl : limits.Roomy) (hr : r.Idle)
    (hm : m.Is B s h r) (hp : l.guest.Performs .startUnwind [.i32 r.config.data] s s') :
    ∃ m', i.suspend (l.control limits) work m = .ok i.zeros m' ∧
      m'.Is B s' h (r.unwinding i work) := by
  have hins : m.register.instrumented = true := by rw [hm.register]; exact hr.instrumented
  have hnone : ¬ m.register.pending.isSome := by rw [hm.register, hr.pending]; simp
  have hbegun : (({ m with register := m.register.unwinding i work } : Machine σ).log
      (.suspended m.register.issued i.id work.result)).Is B s h (r.unwinding i work) := by
    rw [← hm.register]
    exact (hm.withRegister _).log rfl
  obtain ⟨m', hrun, hm'⟩ := Linked.control_eq hl hbegun hp
  refine ⟨m', ?_, hm'⟩
  rw [← hm.register] at hrun
  unfold Import.suspend
  rw [requireInstrumented_bind hins, get_bind, if_neg hnone, get_bind, setRegister_bind, record_bind,
    dataArg_bind]
  exact bind_ok hrun

theorem Linked.turnAround_eq (hl : limits.Roomy) (hr : r.Idle)
    (hm : m.Is B s h (r.unwinding i work)) {s₁ : GuestState σ}
    (hstop : l.guest.Performs .stopUnwind [] s s₁)
    (hstart : l.guest.Performs .startRewind [.i32 r.config.data] s₁ s') :
    ∃ m', l.turnAround limits m = .ok () m' ∧
      m'.Is B s' (h.noteSettled i.id) (r.rewinding i work) := by
  have hins : m.register.instrumented = true := by rw [hm.register]; exact hr.instrumented
  obtain ⟨m₁, hrun₁, hm₁⟩ := Linked.control_eq hl hm hstop
  have hpend : m₁.register.pending = some ⟨r.issued, i.id, work⟩ := by rw [hm₁.register]; rfl
  have hnext : (({ m₁ with register := { m₁.register with pending := none } } : Machine σ).log
      (.awaited r.issued i.id)).Is B s₁ h { r.unwinding i work with pending := none } := by
    rw [← hm₁.register]
    exact (hm₁.withRegister _).log rfl
  have hset := (hnext.withHost (h.noteSettled i.id)).withRegister (r.rewinding i work)
  obtain ⟨m', hrun, hm'⟩ := Linked.control_eq hl hset hstart
  refine ⟨m', ?_, hm'⟩
  unfold Linked.turnAround
  rw [requireInstrumented_bind hins, bind_ok hrun₁, takePending_bind, hpend]
  dsimp only
  rw [record_bind, modify_bind, setRegister_bind, dataArg_bind]
  have hdata : r.config.data = m₁.register.config.data := by rw [hm₁.register]; rfl
  rw [Register.rewinding, ← hm₁.host, ← hm₁.register, hdata] at hrun
  exact hrun

theorem Import.rewound_eq (hl : limits.Roomy) (hr : r.Idle) (hm : m.Is B s h (r.rewinding i work))
    (hstop : l.guest.Performs .stopRewind [] s s') :
    ∃ m', i.rewound (l.control limits) m = ofResult work.result m' ∧ m'.Is B s' h r.counted := by
  have hins : m.register.instrumented = true := by rw [hm.register]; exact hr.instrumented
  obtain ⟨m₁, hrun₁, hm₁⟩ := Linked.control_eq hl hm hstop
  have hset : m₁.register.settled = some ⟨r.issued, i.id, work.result⟩ := by rw [hm₁.register]; rfl
  have hback : (({ m₁ with register := r.counted } : Machine σ).log
      (.resumed r.issued i.id work.result)).Is B s' h r.counted := (hm₁.withRegister _).log rfl
  have hreg : { m₁.register with phase := .normal, settled := none } = r.counted := by
    rw [hm₁.register]
    exact hr.counted_eq
  refine ⟨_, ?_, hback⟩
  unfold Import.rewound
  rw [requireInstrumented_bind hins, bind_ok hrun₁, setRegister_bind, takeSettled_bind]
  dsimp only
  rw [hset]
  dsimp only
  rw [if_pos rfl, record_bind, ← hreg]

/-! ### Rounds -/

namespace Linked

variable {entry : EntryPoint} {params : List Value} {moves suspensions : Nat} {a w : φ}
  {vs : List Value}

/-- Runs the activation to its end, and the function again as long as it comes back unwinding. -/
def rounds (l : Linked σ φ) (limits : Limits) (entry : EntryPoint) (params : List Value)
    (moves suspensions : Nat) (a : φ) (vs : List Value) : GuestM σ (List Value) := do
  let results ← l.runWith (l.control limits) moves a vs
  l.drain limits entry params suspensions results

/-- What follows when the call of an import is answered. -/
def goOn (l : Linked σ φ) (limits : Limits) (entry : EntryPoint) (params : List Value) (i : Import)
    (moves suspensions : Nat) (w : φ) (vs : List Value) : GuestM σ (List Value) := do
  let vs ← requireTypes i vs
  record (.answered i.id vs)
  l.rounds limits entry params moves suspensions w vs

/-- What follows when the results of an import are there. -/
def conclude (l : Linked σ φ) (limits : Limits) (entry : EntryPoint) (params : List Value)
    (i : Import) (moves suspensions : Nat) (w : φ) (vs : List Value) : GuestM σ (List Value) := do
  let vs ← i.deliver vs
  l.goOn limits entry params i moves suspensions w vs

end Linked

/-- The machine when code of the guest has run. -/
def Machine.enter (m : Machine σ) (s : GuestState σ) : Machine σ :=
  { m.log (.entered m.register.view) with guest := s }

theorem Machine.Is.enter (hm : m.Is B s h r) (s' : GuestState σ) : (m.enter s').Is B s' h r :=
  (hm.log rfl).withGuest s'

namespace Linked

variable {entry : EntryPoint} {params : List Value} {moves suspensions : Nat} {a w : φ}
  {vs : List Value}

theorem rounds_trap {cause : Abort} (h : l.guest.resume a vs m.guest = (.trap cause, s)) :
    l.rounds limits entry params (moves + 1) suspensions a vs m = .error cause (m.enter s) := by
  unfold rounds
  rw [runWith, bind_assoc, advance_bind h]
  rfl

theorem rounds_finish {results : List Value}
    (h : l.guest.resume a vs m.guest = (.finish results, s)) :
    l.rounds limits entry params (moves + 1) suspensions a vs m =
      l.drain limits entry params suspensions results (m.enter s) := by
  unfold rounds
  rw [runWith, bind_assoc, advance_bind h]
  rfl

theorem rounds_unknown {id : ImportId} {args : List Value}
    (h : l.guest.resume a vs m.guest = (.call id args w, s)) (hi : l.import? id = none) :
    l.rounds limits entry params (moves + 1) suspensions a vs m =
      .error (.unknownImport id) (m.enter s) := by
  unfold rounds
  rw [runWith, bind_assoc, advance_bind h]
  dsimp only
  rw [hi]
  rfl

theorem rounds_call {id : ImportId} {args : List Value}
    (h : l.guest.resume a vs m.guest = (.call id args w, s)) (hi : l.import? id = some i) :
    l.rounds limits entry params (moves + 1) suspensions a vs m =
      (i.answer (l.control limits) args >>= l.goOn limits entry params i moves suspensions w)
        (m.enter s) := by
  unfold rounds
  rw [runWith, bind_assoc, advance_bind h]
  dsimp only
  rw [hi, ← import?_id hi]
  simp only [bind_assoc]
  rfl

/-- In the normal phase there is nothing to drain. -/
theorem drain_normal (h : m.register.phase = .normal) :
    l.drain limits entry params suspensions vs m = .ok vs m := by
  cases suspensions <;>
  · unfold drain
    rw [phase_bind, if_neg (by simp [h])]
    rfl

theorem drain_unwinding (h : m.register.phase = .unwinding) :
    l.drain limits entry params (suspensions + 1) vs m =
      (l.turnAround limits >>= fun _ => l.rounds limits entry params limits.moves suspensions
        (l.guest.enter entry params) []) m := by
  unfold drain
  rw [phase_bind, if_pos h]
  rfl

end Linked

/-! ### The whole way -/

theorem Import.answer_rewinding {control : Control → List Value → GuestM σ Unit} {args : List Value}
    (hp : m.register.phase = .rewinding) : i.answer control args m =
      (i.rewound control >>= i.deliver) (m.log (.called i.id m.register.view)) := by
  unfold Import.answer
  rw [get_bind, record_bind, hp]

/-- **A call whose import leaves work behind** goes on as if the import had answered with the result
of the work. -/
theorem Linked.suspended_call (work : Future) (hl : limits.Roomy) (hr : r.Idle)
    (hz : Value.types i.zeros = i.signature.results) {entry : EntryPoint} {params : List Value}
    {w w' : φ} (hm : m.Is B s h r) (hi : l.import? i.id = some i)
    (hback : l.guest.ComesBack (.i32 r.config.data) entry params i.id i.zeros w s w' s') :
    ∃ m', m'.Is B s' (h.noteSettled i.id) r.counted ∧ ∀ moves suspensions,
      (i.suspend (l.control limits) work >>=
          l.goOn limits entry params i (moves + 1) (suspensions + 1) w) m =
        (ofResult work.result >>=
          l.conclude limits entry params i (limits.moves - 1) suspensions w') m' := by
  obtain ⟨s₁, s₂, s₃, s₄, s₅, vs, args, hstart, hfinish, hstop, hrewind, hcall, hreach⟩ := hback
  obtain ⟨most, hmost⟩ := Nat.exists_eq_add_of_lt hl.moves
  -- The import suspends the guest, which gets zeros and returns.
  obtain ⟨m₁, hrun₁, hm₁⟩ := Import.suspend_eq i work hl hr hm hstart
  have ht : (m₁.log (.answered i.id i.zeros)).Is B s₁ h (r.unwinding i work) := hm₁.log rfl
  have hm₂ := ht.enter s₂
  -- The work is awaited, and the guest is told to rewind.
  obtain ⟨m₃, hrun₃, hm₃⟩ := Linked.turnAround_eq hl hr hm₂ hstop hrewind
  have hm₄ := (hm₃.enter s₅).log (e := .called i.id (m₃.enter s₅).register.view) rfl
  -- The guest comes to the import, which hands over the result.
  obtain ⟨m', hrun, hm'⟩ := Import.rewound_eq hl hr hm₄ hreach
  refine ⟨m', hm', fun moves suspensions => ?_⟩
  have hphase₂ : ((m₁.log (.answered i.id i.zeros)).enter s₂).register.phase = .unwinding := by
    rw [hm₂.register]; rfl
  have hphase₄ : (m₃.enter s₅).register.phase = .rewinding := by
    rw [(hm₃.enter s₅).register]; rfl
  rw [bind_ok hrun₁]
  unfold Linked.goOn Linked.requireTypes
  rw [if_pos hz, pure_bind, record_bind, Linked.rounds_finish (ht.guest ▸ hfinish),
    Linked.drain_unwinding hphase₂, bind_ok hrun₃, hmost, Nat.zero_add,
    Linked.rounds_call (hm₃.guest ▸ hcall) hi,
    bind_congr_run (Import.answer_rewinding hphase₄), bind_assoc, bind_congr_run hrun]
  rfl

end WasiSandbox
