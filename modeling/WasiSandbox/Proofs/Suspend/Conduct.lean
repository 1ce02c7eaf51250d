import WasiSandbox.Proofs.Suspend.Ends
import WasiSandbox.Proofs.Suspend.History

/-! # Runs follow the protocol

`m.At l b s`: all that has passed in the machine `m` is a path of the protocol to the station `s`,
and the register is as it has to be there (`b` says whether the guest has control exports). Each
function that runs a guest leads from such a machine to such a machine, whatever the guest does, and
also where it is stopped: `controlAt_obeys`, `answer_ends`, `runWith_ends`, `turnAround_ends`,
`drain_ends` and `drive_ends`. All that is asked of the guest is that its control functions call no
imports. -/

namespace WasiSandbox

open GuestM Station

variable {σ φ : Type}

/-- The control functions of the guest call no imports. -/
def Guest.QuietControls (g : Guest σ φ) : Prop :=
  ∀ c args s id as w, (g.resume (g.enter (.control c) args) [] s).1 ≠ .call id as w

/-- What can stop the control function: it traps, or there is no room left to run it. -/
def Guest.StopsControl (g : Guest σ φ) (c : Control) (a : Abort) : Prop :=
  a = .trap .exhausted ∨ ∃ args s, (g.resume (g.enter (.control c) args) [] s).1 = .trap a

/-- The work as it was pending. -/
def Settled.pending (w : Settled) : Pending := ⟨w.number, w.id, ⟨w.result⟩⟩

/-- The register at the station. -/
def Station.Fits (r : Register) : Station → Prop
  | rest | asked _ | served _ | handed .. =>
    r.phase = .normal ∧ r.pending = none ∧ r.settled = none
  | begun w | told w | unwinding w | unwound w =>
    r.phase = .unwinding ∧ r.pending = some w.pending ∧ r.settled = none ∧ r.instrumented = true
  | awaited w | rewinding w | reached w _ | rewound w _ =>
    r.phase = .rewinding ∧ r.pending = none ∧ r.settled = some w ∧ r.instrumented = true
  | refused s => r.phase = s.phase ∧ s.phase ≠ .normal

theorem Station.Fits.phase_eq {r : Register} {s : Station} (h : s.Fits r) : r.phase = s.phase := by
  cases s <;> exact h.1

/-- Where guest code can run the register shows what it should. -/
theorem Station.Fits.view_eq {r : Register} {s : Station} (h : s.Fits r) (hg : s.RunsGuest) :
    r.view = s.view r.instrumented := by
  cases s with
  | rest =>
    obtain ⟨hp, hn, hs⟩ := h
    simp [Register.view, view, hp, hn, hs]
  | told w | unwinding w | unwound w =>
    obtain ⟨hp, hn, hs, hi⟩ := h
    simp [Register.view, view, hp, hn, hs, hi, Settled.pending]
  | rewinding w | rewound w id =>
    obtain ⟨hp, hn, hs, hi⟩ := h
    simp [Register.view, view, hp, hn, hs, hi]
  | _ => exact hg.elim

/-- What can have stopped a drive at the station. On the way from the import that a rewind has come
to back to the guest that is the function that ends the rewinding; a guest is refused when it has
come back from a function. -/
def Station.Cause (g : Guest σ φ) (a : Abort) : Station → Prop
  | reached .. | rewound .. => g.StopsControl .stopRewind a
  | refused last => last.IsOpen
  | _ => True

theorem Station.IsOpen.cause {g : Guest σ φ} {a : Abort} {s : Station} (h : s.IsOpen) :
    s.Cause g a := by
  cases s <;> trivial

/-- The machine has come to the station by the protocol. -/
structure Machine.At (l : Linked σ φ) (b : Bool) (s : Station) (m : Machine σ) : Prop where
  path : Path l 0 rest m.exchanges m.register.issued s
  fits : s.Fits m.register
  instrumented : m.register.instrumented = b

/-- The machine is where a function of the guest can run. -/
def Machine.Open (l : Linked σ φ) (b : Bool) (m : Machine σ) : Prop :=
  ∃ s, m.At l b s ∧ s.IsOpen

/-- The machine is where a run can end. -/
def Machine.Done (l : Linked σ φ) (b : Bool) (m : Machine σ) : Prop :=
  ∃ s, m.At l b s ∧ s.IsFinal

/-- The machine is where a run can be stopped by the abort. -/
def Machine.Stopped (l : Linked σ φ) (b : Bool) (a : Abort) (m : Machine σ) : Prop :=
  ∃ s, m.At l b s ∧ s.IsFinal ∧ s.Cause l.guest a

variable {l : Linked σ φ} {b : Bool} {s s' : Station} {m : Machine σ} {e : Exchange}

namespace Machine.At

/-- One more exchange. -/
theorem snoc (h : m.At l b s) (hs : Step l m.register.issued s e m.register.issued s')
    (hf : s'.Fits m.register) : (m.log e).At l b s' :=
  ⟨h.path.snoc hs, hf, h.instrumented⟩

/-- Code of the guest runs. -/
theorem enter (h : m.At l b s) (hg : s.RunsGuest) :
    (m.log (.entered m.register.view)).At l b s := by
  refine h.snoc ?_ h.fits
  rw [h.fits.view_eq hg]
  exact .enter hg

/-- An import is called at rest. -/
theorem call (h : m.At l b rest) (id : ImportId) :
    (m.log (.called id m.register.view)).At l b (asked id) := by
  refine h.snoc ?_ h.fits
  rw [h.fits.view_eq trivial]
  exact .call

/-- An import is called while the guest unwinds. -/
theorem callUnwinding {w : Settled} (h : m.At l b (unwinding w)) (id : ImportId) :
    (m.log (.called id m.register.view)).At l b (unwinding w) := by
  refine h.snoc ?_ h.fits
  rw [h.fits.view_eq trivial]
  exact .callUnwinding

/-- The rewind comes to an import. -/
theorem reach {w : Settled} (h : m.At l b (rewinding w)) (id : ImportId) :
    (m.log (.called id m.register.view)).At l b (reached w id) := by
  refine h.snoc ?_ h.fits
  rw [h.fits.view_eq trivial]
  exact .reach

/-- The body of the import runs. -/
theorem run {id : ImportId} (h : m.At l b (asked id)) (args : List Value) :
    (m.log (.ran id args m.register.phase)).At l b (served id) := by
  refine h.snoc ?_ h.fits
  rw [h.fits.1]
  exact .run

/-- The call of an import is done with. -/
theorem settle (h : m.At l b s) (hs : s.Settles) : m.At l b rest := by
  refine ⟨h.path.settle hs, ?_, h.instrumented⟩
  have hf := h.fits
  cases s with
  | served id => exact hf
  | handed id r => exact hf
  | _ => exact hs.elim

theorem withGuest (h : m.At l b s) (g : GuestState σ) : { m with guest := g }.At l b s :=
  ⟨h.path, h.fits, h.instrumented⟩

theorem withHost (h : m.At l b s) (f : Host) : { m with host := f }.At l b s :=
  ⟨h.path, h.fits, h.instrumented⟩

theorem withCaller (h : m.At l b s) (c : Caller) : (m.withCaller c).At l b s :=
  ⟨h.path, h.fits, h.instrumented⟩

theorem done (h : m.At l b s) (hf : s.IsFinal) : m.Done l b := ⟨s, h, hf⟩

theorem opened (h : m.At l b s) (ho : s.IsOpen) : m.Open l b := ⟨s, h, ho⟩

theorem stopped {a : Abort} (h : m.At l b s) (hf : s.IsFinal) (hc : s.Cause l.guest a) :
    m.Stopped l b a :=
  ⟨s, h, hf, hc⟩

end Machine.At

theorem Machine.Stopped.done {a : Abort} (h : m.Stopped l b a) : m.Done l b := by
  obtain ⟨s, hm, hf, -⟩ := h
  exact ⟨s, hm, hf⟩

theorem Machine.Open.done (h : m.Open l b) : m.Done l b := by
  obtain ⟨s, hm, ho⟩ := h
  exact ⟨s, hm, ho.isFinal⟩

theorem Machine.Open.stopped {a : Abort} (h : m.Open l b) : m.Stopped l b a := by
  obtain ⟨s, hm, ho⟩ := h
  exact ⟨s, hm, ho.isFinal, ho.cause⟩

/-! ### Control functions -/

/-- The call of a control function leads along the protocol, and leaves the register alone. -/
theorem Station.Step.control_fits {n : Nat} {c : Control} {r : Register}
    (h : Step l n s (.control c) n s') (hf : s.Fits r) : s'.Fits r ∧ s.IsFinal ∧ s'.IsFinal ∧
      s'.RunsGuest := by
  cases h <;> exact ⟨hf, trivial, trivial, trivial⟩

/-- What stops the control function stops the run, before the call and behind it. -/
theorem Station.Step.control_cause {n : Nat} {c : Control} {a : Abort}
    (h : Step l n s (.control c) n s') (ha : l.guest.StopsControl c a) :
    s.Cause l.guest a ∧ s'.Cause l.guest a := by
  cases h <;> first | exact ⟨trivial, trivial⟩ | exact ⟨ha, ha⟩

/-- A way of calling control functions that keeps to the protocol. -/
def Obeys (l : Linked σ φ) (b : Bool) (control : Control → List Value → GuestM σ Unit) : Prop :=
  ∀ c args (m : Machine σ) s s', m.At l b s →
    Step l m.register.issued s (.control c) m.register.issued s' →
    (control c args).Ends m (fun _ m => m.At l b s') (Machine.Stopped l b)

@[simp] theorem ends_advance {a : φ} {vs : List Value} {Q : Move φ → Machine σ → Prop}
    {E : Abort → Machine σ → Prop} : (l.advance a vs).Ends m Q E ↔
      Q (l.guest.resume a vs m.guest).1 { m.log (.entered m.register.view) with
        guest := (l.guest.resume a vs m.guest).2 } := Iff.rfl

theorem controlAt_obeys (hq : l.guest.QuietControls) (moves depth : Nat) :
    Obeys l b (l.controlAt moves depth) := by
  intro c args m s s' hm hs
  obtain ⟨hf, hfin, hfin', hg⟩ := hs.control_fits hm.fits
  cases depth with
  | zero => exact hm.stopped hfin (hs.control_cause (Or.inl rfl)).1
  | succ depth =>
    have hm₁ := hm.snoc hs hf
    unfold Linked.controlAt
    cases moves with
    | zero => exact hm₁.stopped hfin' (hs.control_cause (Or.inl rfl)).2
    | succ moves =>
      have hm₂ := (hm₁.enter hg).withGuest
        (l.guest.resume (l.guest.enter (.control c) args) [] m.guest).2
      have hcall := hq c args m.guest
      simp only [Linked.runWith, ends_bind, ends_record, ends_advance]
      split
      · exact hm₂
      · next htrap => exact hm₂.stopped hfin' (hs.control_cause (Or.inr ⟨args, _, htrap⟩)).2
      · exact absurd (by assumption) (hcall _ _ _)

/-! ### Calls of imports -/

/-- The machine when the call of the import is about to be answered. -/
inductive Machine.Answers (l : Linked σ φ) (b : Bool) (i : Import) (vs : List Value)
    (m : Machine σ) : Prop
  | ready (hm : m.At l b (served i.id))
  | zeros {w : Settled} (hm : m.At l b (told w)) (hw : w.id = i.id) (hv : vs = i.zeros)
  | result (hm : m.At l b (handed i.id (.ok vs)))

/-- The run can be stopped before the answer. -/
theorem Machine.Answers.stopped {i : Import} {vs : List Value} {a : Abort}
    (h : m.Answers l b i vs) : m.Stopped l b a := by
  cases h with
  | ready hm => exact (hm.settle trivial).stopped trivial trivial
  | zeros hm => exact hm.stopped trivial trivial
  | result hm => exact (hm.settle trivial).stopped trivial trivial

/-- Behind the answer a function of the guest runs. -/
theorem Machine.Answers.answered {i : Import} {vs : List Value} (h : m.Answers l b i vs)
    (hi : l.import? i.id = some i) (hv : vs.length = i.signature.results.length) :
    (m.log (.answered i.id vs)).Open l b := by
  cases h with
  | ready hm => exact (hm.snoc (.answer hi hv) hm.fits).opened trivial
  | @zeros w hm hw hz =>
    subst hz
    rw [← hw] at hi ⊢
    exact (hm.snoc (.answerZeros hi) hm.fits).opened trivial
  | result hm => exact (hm.snoc (.answerResult hi hv) hm.fits).opened trivial

section Calls

variable {i : Import} {control : Control → List Value → GuestM σ Unit}

theorem deliver_ends {vs : List Value} (hm : m.At l b s) (hs : s.Settles) :
    (i.deliver vs).Ends m (fun vs' m => vs' = vs ∧ m.At l b s) (Machine.Stopped l b) := by
  have hrest := hm.settle hs
  unfold Import.deliver
  rw [ends_ite]
  refine ⟨fun _ => ⟨rfl, hm⟩, fun _ => ?_⟩
  rw [ends_violate, hrest.fits.1]
  exact (hrest.snoc .arity hrest.fits).stopped trivial trivial

theorem rewound_ends (hc : Obeys l b control) {w : Settled} (hm : m.At l b (reached w i.id)) :
    (i.rewound control).Ends m (fun vs m => m.At l b (handed i.id (.ok vs)))
      (Machine.Stopped l b) := by
  unfold Import.rewound
  simp only [ends_bind, ends_requireInstrumented, ends_setRegister, ends_takeSettled]
  refine ⟨fun _ => ?_, fun hi => ?_⟩
  · refine (hc _ _ _ _ _ hm .stopRewind).imp fun _ m₁ hm₁ => ?_
    obtain ⟨-, hn, hs, hb⟩ := hm₁.fits
    have hpath := hm₁.path
    simp only [hs]
    rw [ends_ite]
    refine ⟨fun hid => ?_, fun hid => ?_⟩
    · have hgiven : ({ m₁ with
          register := { m₁.register with phase := .normal, settled := none } }.log
            (.resumed w.number i.id w.result)).At l b (handed i.id w.result) := by
        refine ⟨?_, ⟨rfl, hn, rfl⟩, hm₁.instrumented⟩
        rw [← hid] at hpath ⊢
        exact hpath.snoc .resume
      rw [ends_bind, ends_record]
      cases hr : w.result with
      | ok vs => rw [hr] at hgiven; exact hgiven
      | error a =>
        rw [hr] at hgiven
        exact (hgiven.settle trivial).stopped trivial trivial
    · rw [ends_violate]
      exact ⟨rest, ⟨hpath.snoc (.mismatch hid), ⟨rfl, hn, rfl⟩, hm₁.instrumented⟩, trivial, trivial⟩
  · exact absurd hi (by simp [hm.fits.2.2.2])

theorem suspend_ends (hc : Obeys l b control) {work : Future} (hm : m.At l b (served i.id)) :
    (i.suspend control work).Ends m (fun vs m => m.Answers l b i vs) (Machine.Stopped l b) := by
  obtain ⟨hp, hn, hs⟩ := hm.fits
  unfold Import.suspend
  simp only [ends_bind, ends_requireInstrumented, ends_get, ends_ite, ends_setRegister, ends_record,
    ends_dataArg, ends_violate, ends_pure]
  refine ⟨fun hi => ⟨fun h => absurd h (by simp [hn]), fun _ => ?_⟩, fun _ => ?_⟩
  · refine (hc _ _ _ (begun ⟨m.register.issued, i.id, work.result⟩) _ ?_ .startUnwind).imp
      fun _ m₁ hm₁ => .zeros hm₁ rfl rfl
    exact ⟨hm.path.snoc .suspend, ⟨rfl, rfl, hs, hi⟩, hm.instrumented⟩
  · rw [hp]
    exact ((hm.settle trivial).snoc .uninstrumented hm.fits).stopped trivial trivial

/-- **The call of an import** keeps to the protocol, in whatever phase it comes. -/
theorem answer_ends (hc : Obeys l b control) {args : List Value} (hm : m.Open l b) :
    (i.answer control args).Ends m (fun vs m => m.Answers l b i vs) (Machine.Stopped l b) := by
  obtain ⟨s, hm, ho⟩ := hm
  unfold Import.answer
  simp only [ends_bind, ends_get, ends_record]
  cases s with
  | rest =>
    rw [hm.fits.1]
    have hran := (hm.call i.id).run args
    simp only [Import.runBody, ends_bind, ends_phase, ends_record]
    refine onCaller_ends (fun o c => ?_) fun _ c =>
      ((hran.withCaller c).settle trivial).stopped trivial trivial
    have hserved := hran.withCaller c
    cases o with
    | ready vs => exact (deliver_ends hserved trivial).imp fun _ _ h => .ready h.2
    | pending work => exact suspend_ends hc hserved
  | unwinding w =>
    rw [hm.fits.1, ends_violate]
    refine ((hm.callUnwinding i.id).snoc ?_ hm.fits).stopped trivial trivial
    rw [Machine.log_register, hm.fits.1]
    exact .nested
  | rewinding w =>
    rw [hm.fits.1, ends_bind]
    refine (rewound_ends hc (hm.reach i.id)).imp fun vs _ hm => ?_
    refine (deliver_ends hm trivial).imp fun vs' _ h => ?_
    obtain ⟨rfl, hm⟩ := h
    exact .result hm
  | _ => exact ho.elim

end Calls

/-! ### Runs and drives -/

section Runs

variable {control : Control → List Value → GuestM σ Unit}

/-- **A run of guest code** keeps to the protocol, whatever the code does. -/
theorem runWith_ends (hc : Obeys l b control) :
    ∀ (moves : Nat) (a : φ) (vs : List Value) (m : Machine σ), m.Open l b →
      (l.runWith control moves a vs).Ends m (fun _ m => m.Open l b) (Machine.Stopped l b)
  | 0, _, _, _, hm => hm.stopped
  | moves + 1, a, vs, m, hm => by
    obtain ⟨s, hs, ho⟩ := hm
    have hm := (hs.enter ho.runsGuest).withGuest (l.guest.resume a vs m.guest).2
    rw [Linked.runWith, ends_bind, ends_advance]
    split
    · exact hm.opened ho
    · exact (hm.opened ho).stopped
    · next id args waiting _ =>
      split
      · exact (hm.opened ho).stopped
      · next i hi =>
        simp only [ends_bind]
        refine (answer_ends hc (hm.opened ho)).imp fun vs m hm => ?_
        unfold Linked.requireTypes
        rw [ends_ite]
        refine ⟨fun ht => ?_, fun _ => hm.stopped⟩
        rw [ends_pure, ends_record]
        have hlen : vs.length = i.signature.results.length := by
          rw [← ht, Value.types, List.length_map]
        obtain rfl := Linked.import?_id hi
        exact runWith_ends hc moves waiting vs _ (hm.answered hi hlen)

theorem invoke_ends (hq : l.guest.QuietControls) {limits : Limits} {entry : EntryPoint}
    {params : List Value} (hm : m.Open l b) :
    (l.invoke limits entry params).Ends m (fun _ m => m.Open l b) (Machine.Stopped l b) :=
  runWith_ends (controlAt_obeys hq _ _) _ _ _ _ hm

/-- **A turn from unwinding to rewinding** leads to a guest that rewinds. -/
theorem turnAround_ends (hq : l.guest.QuietControls) {limits : Limits} {w : Settled}
    (hm : m.At l b (unwinding w)) :
    (l.turnAround limits).Ends m (fun _ m => m.Open l b) (Machine.Stopped l b) := by
  have hc : Obeys l b (l.control limits) := controlAt_obeys hq _ _
  unfold Linked.turnAround
  simp only [ends_bind, ends_requireInstrumented, ends_takePending]
  refine ⟨fun _ => ?_, fun hi => absurd hi (by simp [hm.fits.2.2.2])⟩
  refine (hc _ _ _ _ _ hm .stopUnwind).imp fun _ m₁ hm₁ => ?_
  obtain ⟨-, hn, hs, hi⟩ := hm₁.fits
  simp only [hn, ends_bind, ends_record, ends_modify, ends_setRegister, ends_dataArg]
  refine (hc _ _ _ (awaited w) (rewinding w) ?_ .startRewind).imp fun _ _ hm₂ => hm₂.opened trivial
  exact ⟨hm₁.path.snoc .await, ⟨rfl, rfl, rfl, hi⟩, hm₁.instrumented⟩

/-- **The rounds of a drive** keep to the protocol, and end with a guest that does not unwind. -/
theorem drain_ends (hq : l.guest.QuietControls) {limits : Limits} {entry : EntryPoint}
    {params : List Value} : ∀ (suspensions : Nat) (vs : List Value) (m : Machine σ), m.Open l b →
      (l.drain limits entry params suspensions vs).Ends m (fun _ m => m.Open l b)
        (Machine.Stopped l b)
  | 0, vs, m, hm => by
    unfold Linked.drain
    rw [ends_bind, ends_phase, ends_ite]
    exact ⟨fun _ => hm.stopped, fun _ => hm⟩
  | suspensions + 1, vs, m, hm => by
    unfold Linked.drain
    rw [ends_bind, ends_phase, ends_ite]
    refine ⟨fun hp => ?_, fun _ => hm⟩
    obtain ⟨s, hs, ho⟩ := hm
    rw [hs.fits.phase_eq] at hp
    cases s with
    | unwinding w =>
      rw [ends_bind]
      refine (turnAround_ends hq hs).imp fun _ m hm => ?_
      rw [ends_bind]
      exact (invoke_ends hq hm).imp fun vs m hm => drain_ends hq suspensions vs m hm
    | _ => first | exact ho.elim | cases hp

/-- Outside the normal phase nothing is done but to refuse. -/
theorem Machine.At.refuse (hm : m.At l b s) (hp : m.register.phase ≠ .normal) :
    (m.log (.violated (.unexpectedState .normal m.register.phase) m.register.phase)).At l b
      (refused s) := by
  have hs := hm.fits.phase_eq
  refine hm.snoc ?_ ⟨hs, hs ▸ hp⟩
  rw [hs] at hp ⊢
  exact .refuse hp

/-- In the normal phase a run ends at rest. -/
theorem Machine.Done.rest (hm : m.Done l b) (hp : m.register.phase = .normal) : m.At l b rest := by
  obtain ⟨s, hs, hf⟩ := hm
  have hn := hs.fits.phase_eq
  rw [hp] at hn
  cases s with
  | rest => exact hs
  | asked => exact hf.elim
  | served => exact hf.elim
  | handed => exact hf.elim
  | refused s => exact absurd hn.symm hs.fits.2
  | _ => cases hn

/-- A drive is refused at once outside the normal phase. -/
theorem drive_refused {limits : Limits} {entry : EntryPoint} {signature : Signature}
    {params : List Value} (hp : m.register.phase ≠ .normal) :
    (l.drive limits entry signature params).Ends m (fun _ _ => False) fun a m' =>
      a = .protocol (.unexpectedState .normal m.register.phase) ∧
        m' = m.log (.violated (.unexpectedState .normal m.register.phase) m.register.phase) := by
  unfold Linked.drive
  rw [ends_bind, ends_requirePhase]
  exact ⟨fun h => absurd h hp, fun _ => ⟨rfl, rfl⟩⟩

/-- **A drive from rest** that has a result ends at rest; wherever else it ends, it has kept to the
protocol. -/
theorem drive_ends (hq : l.guest.QuietControls) {limits : Limits} {entry : EntryPoint}
    {signature : Signature} {params : List Value} (hrest : m.At l b rest) :
    (l.drive limits entry signature params).Ends m (fun _ m => m.At l b rest)
      (Machine.Stopped l b) := by
  unfold Linked.drive
  rw [ends_bind, ends_requirePhase]
  refine ⟨fun _ => ?_, fun hp => absurd hrest.fits.1 hp⟩
  rw [ends_ite]
  refine ⟨fun _ => ?_, fun _ => hrest.stopped trivial trivial⟩
  rw [ends_bind]
  refine (invoke_ends hq (hrest.opened trivial)).imp fun vs m hm => ?_
  rw [ends_bind]
  refine (drain_ends hq _ vs m hm).imp fun vs m hm => ?_
  rw [ends_bind, ends_requirePhase]
  refine ⟨fun hp => ?_, fun hp => ?_⟩
  · have hrest := hm.done.rest hp
    rw [ends_bind, Linked.askState, ends_bind, ends_get, ends_ite]
    refine ⟨fun _ => ?_, fun _ => hrest⟩
    exact controlAt_obeys hq _ _ _ _ _ _ _ hrest .report
  · obtain ⟨s, hs, ho⟩ := hm
    exact (hs.refuse hp).stopped trivial ho

end Runs

end WasiSandbox
