import WasiSandbox.Proofs.Suspend.RoundTrip
import WasiSandbox.Proofs.Suspend.Violation

/-! # Suspension makes no difference

`l.atOnce` is `l` with imports that leave no work behind: what they would leave behind is settled
during the call. A guest that honours the contract comes to the same end with either: `rounds_alike`
compares the two runs call by call, and goes on behind a suspension where the contract and
`Linked.suspended_call` lead the guest to. Both runs are held to limits, so what is compared is
either their ends, or the fact that neither has come to its end before so many bodies of imports
were run. -/

namespace WasiSandbox

open GuestM

variable {σ φ α : Type}

/-! ### Imports that answer at once -/

/-- The work is settled, and that is noted. -/
def Caller.settled (c : Caller) (id : ImportId) : Caller := { c with host := c.host.noteSettled id }

/-- The import, with all its work done during the call. -/
def Import.atOnce (i : Import) : Import where
  id := i.id
  signature := i.signature
  body := fun args => do
    match ← i.body args with
    | .ready vs => return .ready vs
    | .pending work =>
      modify fun c => c.settled i.id
      match work.result with
      | .ok vs => return .ready vs
      | .error a => throw a

/-- The guest with imports that answer at once. -/
def Linked.atOnce (l : Linked σ φ) : Linked σ φ := { l with imports := l.imports.map Import.atOnce }

theorem Linked.import?_atOnce (l : Linked σ φ) (id : ImportId) :
    l.atOnce.import? id = (l.import? id).map Import.atOnce :=
  List.find?_map

section Body

variable {i : Import} {args : List Value} {c c' : Caller}

theorem Import.atOnce_error {a : Abort} (h : i.body args c = .error a c') :
    i.atOnce.body args c = .error a c' := by
  show EStateM.bind (i.body args) _ c = _
  unfold EStateM.bind
  rw [h]

theorem Import.atOnce_ready {vs : List Value} (h : i.body args c = .ok (.ready vs) c') :
    i.atOnce.body args c = .ok (.ready vs) c' := by
  show EStateM.bind (i.body args) _ c = _
  unfold EStateM.bind
  rw [h]
  rfl

theorem Import.atOnce_settled {work : Future} {vs : List Value}
    (h : i.body args c = .ok (.pending work) c') (hw : work.result = .ok vs) :
    i.atOnce.body args c = .ok (.ready vs) (c'.settled i.id) := by
  show EStateM.bind (i.body args) _ c = _
  unfold EStateM.bind
  rw [h]
  dsimp only
  rw [hw]
  rfl

theorem Import.atOnce_failed {work : Future} {a : Abort}
    (h : i.body args c = .ok (.pending work) c') (hw : work.result = .error a) :
    i.atOnce.body args c = .error a (c'.settled i.id) := by
  show EStateM.bind (i.body args) _ c = _
  unfold EStateM.bind
  rw [h]
  dsimp only
  rw [hw]
  rfl

end Body

/-! ### The call of a body -/

/-- The machine when the body of the import has run. -/
def Machine.served (m : Machine σ) (i : Import) (args : List Value) (c : Caller) : Machine σ :=
  ((m.log (.called i.id m.register.view)).log (.ran i.id args .normal)).withCaller c

theorem Machine.Is.served {B : List (ImportId × List Value)} {s : GuestState σ} {h : Host}
    {r : Register} {m : Machine σ} (hm : m.Is B s h r) (i : Import) (args : List Value)
    (c : Caller) :
    (m.served i args c).Is (B ++ [(i.id, args)]) { s with memory := c.memory } c.host r := by
  have hm₁ := hm.log (e := .called i.id m.register.view) rfl
  refine ⟨?_, ?_, rfl, hm₁.register⟩
  · show List.filterMap Exchange.ran? ((m.log _).exchanges ++ [_]) = _
    rw [List.filterMap_append, ← hm₁.bodies]
    rfl
  · rw [← hm.guest]
    rfl

/-- What follows when the body of the import has given its answer. -/
def Import.takeUp (i : Import) (control : Control → List Value → GuestM σ Unit) :
    Outcome → GuestM σ (List Value)
  | .ready vs => i.deliver vs
  | .pending work => i.suspend control work

section Answer

variable {i : Import} {args : List Value} {m : Machine σ} {c : Caller}
  {control : Control → List Value → GuestM σ Unit}

/-- The body of an import is run in the normal phase. -/
theorem Import.answer_normal (hp : m.register.phase = .normal) : i.answer control args m =
    (Import.onCaller (i.body args) >>= i.takeUp control)
      ((m.log (.called i.id m.register.view)).log (.ran i.id args .normal)) := by
  unfold Import.answer
  rw [get_bind, record_bind, hp]
  dsimp only
  unfold Import.runBody
  rw [bind_assoc, phase_bind, bind_assoc, record_bind, Machine.log_register, hp]
  rfl

theorem Import.answer_error (hp : m.register.phase = .normal) {a : Abort}
    (hb : i.body args ⟨m.guest.memory, m.host⟩ = .error a c) :
    i.answer control args m = .error a (m.served i args c) := by
  rw [Import.answer_normal hp]
  refine bind_error ?_
  unfold Import.onCaller
  simp only [Machine.log_guest, Machine.log_host, hb]
  rfl

theorem Import.answer_ok (hp : m.register.phase = .normal) {o : Outcome}
    (hb : i.body args ⟨m.guest.memory, m.host⟩ = .ok o c) :
    i.answer control args m = i.takeUp control o (m.served i args c) := by
  rw [Import.answer_normal hp]
  refine bind_ok ?_
  unfold Import.onCaller
  simp only [Machine.log_guest, Machine.log_host, hb]
  rfl

end Answer

section Deliver

variable {i : Import} {vs : List Value}

theorem Import.deliver_ok (h : vs.length = i.signature.results.length) (m : Machine σ) :
    i.deliver vs m = .ok vs m := by
  unfold Import.deliver
  rw [if_pos h]
  rfl

theorem Import.deliver_error (h : vs.length ≠ i.signature.results.length) (m : Machine σ) :
    i.deliver vs m = .error (.protocol (.resultArity i.id i.signature.results.length vs.length))
      (m.log (.violated (.resultArity i.id i.signature.results.length vs.length)
        m.register.phase)) := by
  unfold Import.deliver
  rw [if_neg h]
  rfl

theorem Linked.requireTypes_ok (h : Value.types vs = i.signature.results) (m : Machine σ) :
    Linked.requireTypes i vs m = .ok vs m := by
  unfold Linked.requireTypes
  rw [if_pos h]
  rfl

theorem Linked.requireTypes_error (h : Value.types vs ≠ i.signature.results) (m : Machine σ) :
    Linked.requireTypes i vs m =
      .error (.incompatible "function attempted to return an incompatible value") m := by
  unfold Linked.requireTypes
  rw [if_neg h]
  rfl

end Deliver

/-! ### Ends of two runs -/

/-- The machine that a run has left. -/
def endMachine : EStateM.Result Abort (Machine σ) α → Machine σ
  | .ok _ m => m
  | .error _ m => m

/-- Two machines are the same but for the guest: the same bodies of imports were run, the host is
the same, and the registers are as `r` but for the number of works in the first. -/
def Tied (r : Register) (m m' : Machine σ) : Prop :=
  ∃ B s s' h n, m.Is B s h { r with issued := n } ∧ m'.Is B s' h r

/-- Two runs have ended in the same result, or were stopped by the same abort, in machines that are
the same but for the guest. -/
inductive EndAlike (r : Register) :
    EStateM.Result Abort (Machine σ) α → EStateM.Result Abort (Machine σ) α → Prop
  | ok {a : α} {m m' : Machine σ} (h : Tied r m m') : EndAlike r (.ok a m) (.ok a m')
  | error {e : Abort} {m m' : Machine σ} (h : Tied r m m') : EndAlike r (.error e m) (.error e m')

/-- Two runs have ended alike, unless in both so many bodies of imports were run. -/
def Agree (r : Register) (b : Nat) (x x' : EStateM.Result Abort (Machine σ) α) : Prop :=
  EndAlike r x x' ∨ (b ≤ (endMachine x).bodies.length ∧ b ≤ (endMachine x').bodies.length)

/-- No body that was run is forgotten. -/
theorem ViolationStops.bodies_le {x : GuestM σ α} (hx : ViolationStops x) (m : Machine σ) :
    m.bodies.length ≤ (endMachine (x m)).bodies.length := by
  have hgrow : ∃ new, (endMachine (x m)).exchanges = m.exchanges ++ new := by
    have h := hx m
    unfold Ends at h
    cases hr : x m with
    | ok a m' => rw [hr] at h; exact ⟨_, h.choose_spec.1⟩
    | error a m' => rw [hr] at h; exact ⟨_, h.choose_spec.1⟩
  obtain ⟨new, hnew⟩ := hgrow
  unfold Machine.bodies
  rw [hnew, List.filterMap_append, List.length_append]
  omega

theorem ViolationStops.bodies_le_bind {x : GuestM σ α} {f : α → GuestM σ α} (hf : ∀ a, ViolationStops (f a))
    {m : Machine σ} :
    (endMachine (x m)).bodies.length ≤ (endMachine ((x >>= f) m)).bodies.length := by
  cases hx : x m with
  | ok a m' => rw [bind_ok hx]; exact (hf a).bodies_le m'
  | error e m' => simp only [bind_error hx, Nat.le_refl]

/-- Runs that have ended alike end alike after what follows. -/
theorem EndAlike.bind {r : Register} {x x' : GuestM σ α} {f f' : α → GuestM σ α} {m m' : Machine σ}
    (h : EndAlike r (x m) (x' m'))
    (hf : ∀ {a m m'}, Tied r m m' → EndAlike r (f a m) (f' a m')) :
    EndAlike r ((x >>= f) m) ((x' >>= f') m') := by
  generalize hx : x m = y at h
  generalize hx' : x' m' = y' at h
  cases h with
  | ok h => rw [bind_ok hx, bind_ok hx']; exact hf h
  | error h => rw [bind_error hx, bind_error hx']; exact .error h

theorem agree_of_bodies {r : Register} {b : Nat} {x x' : GuestM σ α} {m m' : Machine σ}
    (hx : ViolationStops x) (hx' : ViolationStops x') (hb : b ≤ m.bodies.length)
      (hb' : b ≤ m'.bodies.length) :
    Agree r b (x m) (x' m') :=
  Or.inr ⟨Nat.le_trans hb (hx.bodies_le m), Nat.le_trans hb' (hx'.bodies_le m')⟩

section Rounds

variable {l : Linked σ φ} {limits : Limits} {entry : EntryPoint} {params : List Value}

theorem violationStops_rounds (moves suspensions : Nat) (a : φ) (vs : List Value) :
    ViolationStops (l.rounds limits entry params moves suspensions a vs) :=
  have hl := violationStops_stepwise l
  violationStops_bind (hl.runWith (hl.controlAt _ _) _ _ _) fun _ => hl.drain _ _ _ _ _

theorem violationStops_goOn (i : Import) (moves suspensions : Nat) (w : φ) (vs : List Value) :
    ViolationStops (l.goOn limits entry params i moves suspensions w vs) :=
  have hl := violationStops_stepwise l
  violationStops_bind (hl.ite (violationStops_pure _) (violationStops_throw _)) fun _ =>
    violationStops_bind (violationStops_record (by simp [Clean])) fun _ => violationStops_rounds _ _ _ _

theorem violationStops_conclude (i : Import) (moves suspensions : Nat) (w : φ) (vs : List Value) :
    ViolationStops (l.conclude limits entry params i moves suspensions w vs) :=
  violationStops_bind ((violationStops_stepwise l).deliver _ _) fun _ => violationStops_goOn _ _ _ _ _

/-! ### The comparison -/

variable {r : Register} {b n : Nat} {B : List (ImportId × List Value)} {s s' : GuestState σ}
  {h : Host} {m m' : Machine σ} {i : Import} {w w' : φ} {Waits : Waiting σ φ} {s₀ : GuestState σ}

/-- Results that an import has given at once and results that it has given later are treated alike,
if the guest goes on alike. -/
theorem conclude_alike {moves moves' suspensions suspensions' : Nat} {vs : List Value}
    (hm : m.Is B s h { r with issued := n }) (hm' : m'.Is B s' h r)
    (ih : ∀ m m', m.Is B s h { r with issued := n } → m'.Is B s' h r →
      Agree r b (l.rounds limits entry params moves suspensions w vs m)
        (l.atOnce.rounds limits entry params moves' suspensions' w' vs m')) :
    Agree r b (l.conclude limits entry params i moves suspensions w vs m)
      (l.atOnce.conclude limits entry params i.atOnce moves' suspensions' w' vs m') := by
  unfold Linked.conclude
  by_cases hlen : vs.length = i.signature.results.length
  · rw [bind_ok (Import.deliver_ok hlen m), bind_ok (Import.deliver_ok (i := i.atOnce) hlen m')]
    unfold Linked.goOn
    by_cases htypes : Value.types vs = i.signature.results
    · rw [bind_ok (Linked.requireTypes_ok htypes m),
        bind_ok (Linked.requireTypes_ok (i := i.atOnce) htypes m'), record_bind, record_bind]
      exact ih _ _ (hm.log rfl) (hm'.log rfl)
    · rw [bind_error (Linked.requireTypes_error htypes m),
        bind_error (Linked.requireTypes_error (i := i.atOnce) htypes m')]
      exact Or.inl (.error ⟨B, s, s', h, n, hm, hm'⟩)
  · rw [bind_error (Import.deliver_error hlen m),
      bind_error (Import.deliver_error (i := i.atOnce) hlen m')]
    exact Or.inl (.error ⟨B, s, s', h, n, hm.log rfl, hm'.log rfl⟩)

/-- The results of work go the same way behind a suspension as in the call itself. -/
theorem result_alike {moves moves' suspensions suspensions' : Nat}
    {result : Except Abort (List Value)} (hm : m.Is B s h { r with issued := n })
    (hm' : m'.Is B s' h r)
    (ih : ∀ vs m m', m.Is B s h { r with issued := n } → m'.Is B s' h r →
      Agree r b (l.rounds limits entry params moves suspensions w vs m)
        (l.atOnce.rounds limits entry params moves' suspensions' w' vs m')) :
    Agree r b ((ofResult result >>= l.conclude limits entry params i moves suspensions w) m)
      ((ofResult result >>=
        l.atOnce.conclude limits entry params i.atOnce moves' suspensions' w') m') := by
  cases result with
  | ok vs => exact conclude_alike hm hm' (ih vs)
  | error a => exact Or.inl (.error ⟨B, s, s', h, n, hm, hm'⟩)

/-- What an import does at once comes to the same as its answer and the result of its work. -/
theorem atOnce_call {args : List Value} {c : Caller} {work : Future} {moves' suspensions' : Nat}
    {control : Control → List Value → GuestM σ Unit} (hp : m'.register.phase = .normal)
    (hb : i.body args ⟨m'.guest.memory, m'.host⟩ = .ok (.pending work) c) :
    (i.atOnce.answer control args >>=
        l.atOnce.goOn limits entry params i.atOnce moves' suspensions' w') m' =
      (ofResult work.result >>=
        l.atOnce.conclude limits entry params i.atOnce moves' suspensions' w')
        (m'.served i args (c.settled i.id)) := by
  cases hw : work.result with
  | ok vs =>
    have hans : i.atOnce.answer control args m' =
        i.atOnce.deliver vs (m'.served i args (c.settled i.id)) :=
      Import.answer_ok hp (Import.atOnce_settled hb hw)
    rw [bind_congr_run hans]
    rfl
  | error a =>
    rw [bind_error (Import.answer_error hp (Import.atOnce_failed hb hw))]
    rfl

/-- Two runs agree that go alike, if the one without suspensions has so many moves left, and the
other as many and room for as many suspensions. -/
def RoundsAgree (l : Linked σ φ) (limits : Limits) (entry : EntryPoint) (params : List Value)
    (r : Register) (b : Nat) (Waits : Waiting σ φ) (moves' : Nat) : Prop :=
  ∀ {moves suspensions suspensions' n : Nat} {a a' : φ} {vs : List Value}
    {B : List (ImportId × List Value)} {s s' : GuestState σ} {h : Host} {m m' : Machine σ},
    moves' ≤ moves → moves ≤ limits.moves → moves' ≤ suspensions →
    m.Is B s h { r with issued := n } → m'.Is B s' h r →
    l.Follow Waits (l.guest.resume a vs s) (l.guest.resume a' vs s') → b ≤ B.length + moves' →
    Agree r b (l.rounds limits entry params moves suspensions a vs m)
      (l.atOnce.rounds limits entry params moves' suspensions' a' vs m')

/-- Work that an import has left behind comes to the same as its result. -/
theorem pending_alike {moves' moves suspensions suspensions' : Nat} (work : Future)
    (hl : limits.Roomy) (hr : r.Idle) (hh : l.Honours (.i32 r.config.data) entry params s₀ Waits)
    (hz : Value.types i.zeros = i.signature.results) (hi : l.import? i.id = some i)
    (ih : RoundsAgree l limits entry params r b Waits moves') (hle : moves' ≤ moves)
    (hmax : moves < limits.moves) (hsusp : moves' ≤ suspensions)
    (hm : m.Is B s h { r with issued := n }) (hm' : m'.Is B s' (h.noteSettled i.id) r)
    (hwaits : Waits i.id w s w' s') (hb : b ≤ B.length + moves') :
    Agree r b
      ((i.suspend (l.control limits) work >>=
        l.goOn limits entry params i moves (suspensions + 1) w) m)
      ((ofResult work.result >>=
        l.atOnce.conclude limits entry params i.atOnce moves' suspensions' w') m') := by
  cases moves with
  | zero =>
    -- No move is left to unwind with, and none is left in the other run.
    have hsteps := violationStops_stepwise l
    refine agree_of_bodies (violationStops_bind (hsteps.suspend (hsteps.controlAt _ _) i work)
      fun _ => violationStops_goOn i _ _ _ _) (violationStops_bind ?_ fun _ =>
        violationStops_conclude _ _ _ _ _) ?_ ?_
    · cases work.result with
      | ok vs => exact violationStops_pure vs
      | error a => exact violationStops_throw a
    · rw [hm.bodies]; omega
    · rw [hm'.bodies]; omega
  | succ moves =>
    obtain ⟨w₂, s₂, hback, hwaits₂⟩ := hh.comes_back hwaits hi
    obtain ⟨m₂, hm₂, hrun⟩ := Linked.suspended_call work hl (hr.withIssued n) hz hm hi hback
    rw [hrun]
    refine result_alike hm₂ hm' fun vs m₁ m₁' hm₁ hm₁' => ?_
    exact ih (by omega) (Nat.sub_le _ _) hsusp hm₁ hm₁' (hh.goes_on hwaits₂ vs) hb

/-- The call of an import, in a run with suspensions and in one without. -/
theorem call_alike {moves' moves suspensions suspensions' : Nat} {args : List Value}
    (hl : limits.Roomy) (hr : r.Idle) (hh : l.Honours (.i32 r.config.data) entry params s₀ Waits)
    (hz : Value.types i.zeros = i.signature.results) (hi : l.import? i.id = some i)
    (ih : RoundsAgree l limits entry params r b Waits moves') (hle : moves' ≤ moves)
    (hmax : moves < limits.moves) (hsusp : moves' ≤ suspensions)
    (hm : m.Is B s h { r with issued := n }) (hm' : m'.Is B s' h r)
    (ho : i.Overlooks args s.memory s'.memory fun memory memory' =>
      Waits i.id w { s with memory := memory } w' { s' with memory := memory' })
    (hb : b ≤ B.length + 1 + moves') :
    Agree r b
      ((i.answer (l.control limits) args >>=
        l.goOn limits entry params i moves (suspensions + 1) w) m)
      ((i.atOnce.answer (l.atOnce.control limits) args >>=
        l.atOnce.goOn limits entry params i.atOnce moves' suspensions' w') m') := by
  have hp : m.register.phase = .normal := by rw [hm.register]; exact hr.phase
  have hp' : m'.register.phase = .normal := by rw [hm'.register]; exact hr.phase
  have hlen : b ≤ (B ++ [(i.id, args)]).length + moves' := by
    rw [List.length_append]
    exact hb
  obtain rfl := hm.guest
  obtain rfl := hm'.guest
  obtain rfl := hm.host
  have hbody := ho m.host
  have hhost' : i.body args ⟨m'.guest.memory, m'.host⟩ = i.body args ⟨m'.guest.memory, m.host⟩ := by
    rw [hm'.host]
  split at hbody
  · next o c o' c' hc hc' =>
    obtain ⟨rfl, hhost, hwaits⟩ := hbody
    have hend := hm.served i args c
    have hend' := hm'.served i args c'
    rw [hhost] at hend
    have hc' := hhost'.trans hc'
    rw [bind_congr_run (Import.answer_ok hp hc)]
    cases o with
    | ready vs =>
      rw [bind_congr_run (Import.answer_ok hp' (Import.atOnce_ready hc'))]
      refine conclude_alike hend hend' fun m₁ m₁' hm₁ hm₁' => ?_
      exact ih hle (by omega) (by omega) hm₁ hm₁' (hh.goes_on hwaits vs) hlen
    | pending work =>
      rw [atOnce_call hp' hc']
      have hset' : (m'.served i args (c'.settled i.id)).Is (B ++ [(i.id, args)])
          { m'.guest with memory := c'.memory } (c'.host.noteSettled i.id) r :=
        hm'.served i args (c'.settled i.id)
      exact pending_alike work hl hr hh hz hi ih hle hmax hsusp hend hset' hwaits hlen
  · next e c e' c' hc hc' =>
    obtain ⟨rfl, hhost⟩ := hbody
    rw [bind_error (Import.answer_error hp hc),
      bind_error (Import.answer_error hp' (Import.atOnce_error (hhost'.trans hc')))]
    have hend := hm.served i args c
    rw [hhost] at hend
    exact Or.inl (.error ⟨_, _, _, _, _, hend, hm'.served i args c'⟩)
  · exact hbody.elim

/-- **Two runs agree**: the one goes through its suspensions, the other has none. -/
theorem rounds_agree (hl : limits.Roomy) (hr : r.Idle)
    (hh : l.Honours (.i32 r.config.data) entry params s₀ Waits)
    (hz : ∀ id i, l.import? id = some i → Value.types i.zeros = i.signature.results) (moves' : Nat) :
    RoundsAgree l limits entry params r b Waits moves' := by
  induction moves' with
  | zero =>
    intro moves suspensions suspensions' n a a' vs B s s' h m m' _ _ _ hm hm' _ hb
    refine agree_of_bodies (violationStops_rounds _ _ _ _) (violationStops_rounds _ _ _ _) ?_ ?_
    · rw [hm.bodies]; exact hb
    · rw [hm'.bodies]; exact hb
  | succ moves' ih =>
    intro moves suspensions suspensions' n a a' vs B s s' h m m' hle hmax hsusp hm hm' hf hb
    obtain ⟨moves, rfl⟩ : ∃ k, moves = k + 1 := ⟨moves - 1, by omega⟩
    obtain ⟨suspensions, rfl⟩ : ∃ k, suspensions = k + 1 := ⟨suspensions - 1, by omega⟩
    rcases hstep : l.guest.resume a vs s with ⟨move, t⟩
    rcases hstep' : l.guest.resume a' vs s' with ⟨move', t'⟩
    rw [hstep, hstep'] at hf
    rw [← hm.guest] at hstep
    rw [← hm'.guest] at hstep'
    have ht := hm.enter t
    have ht' := hm'.enter t'
    cases move with
    | finish results =>
      cases move' with
      | finish results' =>
        obtain rfl : results = results' := hf
        have hp : (m.enter t).register.phase = .normal := by rw [ht.register]; exact hr.phase
        have hp' : (m'.enter t').register.phase = .normal := by rw [ht'.register]; exact hr.phase
        rw [Linked.rounds_finish hstep, Linked.drain_normal hp,
          Linked.rounds_finish (l := l.atOnce) hstep', Linked.drain_normal hp']
        exact Or.inl (.ok ⟨B, t, t', h, n, ht, ht'⟩)
      | _ => exact hf.elim
    | trap cause =>
      cases move' with
      | trap cause' =>
        obtain rfl : cause = cause' := hf
        rw [Linked.rounds_trap hstep, Linked.rounds_trap (l := l.atOnce) hstep']
        exact Or.inl (.error ⟨B, t, t', h, n, ht, ht'⟩)
      | _ => exact hf.elim
    | call id args w =>
      cases move' with
      | call id' args' w' =>
        obtain ⟨rfl, rfl, ho⟩ := hf
        have hat := l.import?_atOnce id
        cases hi : l.import? id with
        | none =>
          rw [hi] at hat
          rw [Linked.rounds_unknown hstep hi, Linked.rounds_unknown (l := l.atOnce) hstep' hat]
          exact Or.inl (.error ⟨B, t, t', h, n, ht, ht'⟩)
        | some i =>
          rw [hi] at hat
          obtain rfl := Linked.import?_id hi
          rw [Linked.rounds_call hstep hi, Linked.rounds_call (l := l.atOnce) hstep' hat]
          exact call_alike hl hr hh (hz _ i hi) hi ih (by omega) hmax (by omega) ht ht' (ho i hi)
            (by omega)
      | _ => exact hf.elim

/-! ### Drives -/

namespace Linked

/-- What a drive ends with, when the guest has come back. -/
def close (l : Linked σ φ) (limits : Limits) (results : List Value) : GuestM σ (List Value) := do
  requirePhase .normal
  l.askState limits
  return results

theorem drive_eq {signature : Signature} (hp : m.register.phase = .normal)
    (ht : Value.types params = signature.params) : l.drive limits entry signature params m =
      (l.rounds limits entry params limits.moves limits.suspensions
        (l.guest.enter entry params) [] >>= l.close limits) m := by
  unfold drive rounds invoke
  rw [requirePhase_bind hp, if_pos ht, bind_assoc]
  rfl

theorem drive_mistyped {signature : Signature} (hp : m.register.phase = .normal)
    (ht : Value.types params ≠ signature.params) : ∃ a, l.drive limits entry signature params m =
      .error a m ∧ l.atOnce.drive limits entry signature params m = .error a m := by
  unfold drive
  rw [requirePhase_bind hp, if_neg ht, requirePhase_bind hp, if_neg ht]
  exact ⟨_, rfl, rfl⟩

end Linked

theorem violationStops_close (results : List Value) : ViolationStops (l.close limits results) :=
  violationStops_bind ((violationStops_stepwise l).requirePhase _) fun _ =>
    violationStops_bind ((violationStops_stepwise l).askState _) fun _ => violationStops_pure _

/-- A guest that is asked for its view of the phase answers, and nothing else happens. -/
theorem Linked.close_eq (results : List Value) (hl : limits.Roomy) (hr : r.Idle)
    (hreport : ∀ s, ∃ s', l.guest.Performs .getState [] s s') (hm : m.Is B s h r) :
    ∃ m' s', l.close limits results m = .ok results m' ∧ m'.Is B s' h r := by
  have hp : m.register.phase = .normal := by rw [hm.register]; exact hr.phase
  unfold Linked.close Linked.askState
  rw [requirePhase_bind hp, bind_assoc, get_bind]
  by_cases hask : (m.register.instrumented && m.register.reportsState) = true
  · obtain ⟨s', hs'⟩ := hreport s
    obtain ⟨m', hrun, hm'⟩ := Linked.control_eq hl hm hs'
    rw [if_pos hask, bind_ok hrun]
    exact ⟨m', s', rfl, hm'⟩
  · rw [if_neg hask]
    exact ⟨m, s, rfl, hm⟩

/-- **A drive with suspensions** ends as the drive without them, as long as one of them runs fewer
bodies of imports than the limits allow moves. -/
theorem drive_alike (hl : limits.Roomy) (hsusp : limits.moves ≤ limits.suspensions)
    (hr : m.register.Idle)
    (hh : l.Honours (.i32 m.register.config.data) entry params m.guest Waits)
    (hz : ∀ id i, l.import? id = some i → Value.types i.zeros = i.signature.results)
    {signature : Signature}
    (hfew : (endMachine (l.drive limits entry signature params m)).bodies.length <
        m.bodies.length + limits.moves ∨
      (endMachine (l.atOnce.drive limits entry signature params m)).bodies.length <
        m.bodies.length + limits.moves) :
    EndAlike m.register (l.drive limits entry signature params m)
      (l.atOnce.drive limits entry signature params m) := by
  have hm : m.Is m.bodies m.guest m.host m.register := ⟨rfl, rfl, rfl, rfl⟩
  by_cases ht : Value.types params = signature.params
  · have hagree : Agree m.register (m.bodies.length + limits.moves)
        (l.rounds limits entry params limits.moves limits.suspensions
          (l.guest.enter entry params) [] m)
        (l.atOnce.rounds limits entry params limits.moves limits.suspensions
          (l.guest.enter entry params) [] m) :=
      rounds_agree hl hr hh hz limits.moves (Nat.le_refl _) (Nat.le_refl _) hsusp hm hm hh.begins
        (Nat.le_refl _)
    rw [Linked.drive_eq hr.phase ht, Linked.drive_eq (l := l.atOnce) hr.phase ht] at hfew ⊢
    rcases hagree with hend | ⟨hspent, hspent'⟩
    · exact hend.bind fun {results m₁ m₁'} ⟨B, s, s', h, n, hm₁, hm₁'⟩ => by
        obtain ⟨m₂, t, hrun, hm₂⟩ := Linked.close_eq results hl (hr.withIssued n) hh.reports hm₁
        obtain ⟨m₂', t', hrun', hm₂'⟩ :=
          Linked.close_eq (l := l.atOnce) results hl hr hh.reports hm₁'
        rw [hrun, hrun']
        exact .ok ⟨B, t, t', h, n, hm₂, hm₂'⟩
    · have hle := Nat.le_trans hspent
        (ViolationStops.bodies_le_bind (f := l.close limits) violationStops_close)
      have hle' := Nat.le_trans hspent'
        (ViolationStops.bodies_le_bind (f := l.atOnce.close limits) violationStops_close)
      rcases hfew with hfew | hfew
      · exact absurd hfew (Nat.not_lt.mpr hle)
      · exact absurd hfew (Nat.not_lt.mpr hle')
  · obtain ⟨a, hrun, hrun'⟩ := Linked.drive_mistyped (l := l) hr.phase ht
    rw [hrun, hrun']
    exact .error ⟨_, _, _, _, _, hm, hm⟩

end Rounds

end WasiSandbox
