import WasiSandbox.Proofs.Instance.Life

/-! # The register over the life of an instance

Whatever the guest does, and however the operations on the instance end: the register is consistent
whenever code of the guest or an import is entered (`register_consistent`), and the control
functions are called in the order of a suspension (`controls_in_rounds`). Between two operations the
instance is either at rest, or no code of its guest is ever run again. -/

namespace WasiSandbox

open GuestM Station

variable {σ φ : Type}

namespace Instance

variable {i : Instance σ φ} {op : Operation}

/-- **The register is consistent** whenever code of the guest or an import is entered, over the
whole life of an instance, from its start code on. Neither is a continuation ever missing, nor does
an import find work pending in the normal phase. -/
theorem register_consistent {h : ComposedHost} {surroundings : Surroundings} {limits : Limits}
    {g : Guest σ φ} (hq : g.QuietControls) {i : Instance σ φ}
    (hi : (h.instantiate surroundings limits g).1 = .ok i) (ops : List Operation) :
    let t := (i.run ops).machine.exchanges
    (∀ r, .entered r ∈ t → r.Consistent) ∧ (∀ id r, .called id r ∈ t → r.Consistent) ∧
      (∀ p, .violated .missingContinuation p ∉ t) ∧
      ∀ id p, .violated (.nestedSuspend id) p ∈ t → p = .unwinding := by
  obtain ⟨hlaw, -, -⟩ := ComposedHost.instantiate_lawful hq hi
  obtain ⟨s, hpath⟩ := (hlaw.run ops).path
  refine ⟨fun r hr => ?_, fun id r hr => ?_, fun p => ?_, fun id p hp => ?_⟩
  · exact hpath.entered_consistent hr
  · exact hpath.called_consistent hr
  · exact hpath.not_missing p
  · exact hpath.nested_phase hp

/-- A relay that is called twice, with two suspensions each time. -/
theorem relay_register_consistent : ∃ i,
    (askHost.instantiate .silent .default (Guest.relay ⟨"env", "ask"⟩ 2).instrument).1 = .ok i ∧
      (i.run relayedTwice).machine.suspensions = 4 ∧
      let t := (i.run relayedTwice).machine.exchanges
      (∀ r, .entered r ∈ t → r.Consistent) ∧ (∀ id r, .called id r ∈ t → r.Consistent) ∧
        (∀ p, .violated .missingContinuation p ∉ t) ∧
        ∀ id p, .violated (.nestedSuspend id) p ∈ t → p = .unwinding := by
  obtain ⟨i, hi, hsuspended⟩ := askHost_relay
  exact ⟨i, hi, hsuspended, register_consistent Guest.instrument_quiet hi _⟩

/-! ### Between two operations -/

/-- Nothing is under way. -/
def AtRest (i : Instance σ φ) : Prop :=
  i.phase = .normal ∧ i.machine.register.pending = none ∧ i.machine.register.settled = none

/-- Every call of an export is refused at once: no code of the guest is run, no import and no
control function is called, and the register stays as it is. -/
structure Refuses (i : Instance σ φ) (op : Operation) : Prop where
  outcome : i.outcome? op = some (.error (.protocol (.unexpectedState .normal i.phase)))
  reply : ∃ text, i.reply op = op.answer (.error (.protocol (.unexpectedState .normal i.phase))) text
  guest : (i.perform op).machine.guest = i.machine.guest
  register : (i.perform op).machine.register = i.machine.register
  exchanges : (i.perform op).machine.exchanges =
    i.machine.exchanges ++ [.violated (.unexpectedState .normal i.phase) i.phase]

/-- Outside the normal phase every call of an export is refused. -/
theorem refuses {e : Errand} (he : i.errand? op = some e) (hp : i.phase ≠ .normal) :
    i.Refuses op := by
  obtain ⟨m, hi, ⟨vs, -, hm⟩ | ⟨a, hout, rfl, rfl⟩⟩ := perform_ends he (drive_refused hp)
  · exact hm.elim
  · refine ⟨hout, ⟨(i.perform op).transcript, ?_⟩, by rw [hi]; rfl, by rw [hi]; rfl, by rw [hi]; rfl⟩
    rw [outcome?_eq he] at hout
    rw [reply_eq he, Option.some.inj hout]
    rfl

/-- Outside the normal phase the phase does not change any more. -/
theorem perform_phase (hp : i.phase ≠ .normal) (op : Operation) :
    (i.perform op).phase = i.phase := by
  rcases perform_cases i op with ⟨-, f, hf⟩ | ⟨e, he, -⟩
  · rw [hf]; rfl
  · exact congrArg Register.phase (refuses he hp).register

theorem run_phase (hp : i.phase ≠ .normal) (ops : List Operation) : (i.run ops).phase = i.phase := by
  induction ops generalizing i with
  | nil => rfl
  | cons op ops ih =>
    have hop := perform_phase hp op
    exact (ih (i := i.perform op) (hop ▸ hp)).trans hop

/-- An operation with a result leaves the instance at rest. -/
theorem Lawful.rest_of_ok (h : i.Lawful) {vs : List Value} (hout : i.outcome? op = some (.ok vs)) :
    (i.perform op).phase = .normal := by
  cases he : i.errand? op with
  | none => simp [outcome?, he] at hout
  | some e =>
    by_cases hp : i.phase = .normal
    · obtain ⟨m, hi, ⟨ws, -, hm⟩ | ⟨a, ha, -⟩⟩ := perform_ends he (drive_ends h.quiet (h.at_rest hp))
      · rw [hi]; exact hm.fits.1
      · rw [ha] at hout; cases hout
    · rw [(refuses he hp).outcome] at hout; cases hout

/-- Outside the normal phase the last drive was stopped. -/
theorem Lawful.last_error (h : i.Lawful) {outs : List (Except Abort (List Value))}
    (hlast : i.phase ≠ .normal → ∃ a, outs.getLast? = some (.error a)) (ops : List Operation)
    (hp : (i.run ops).phase ≠ .normal) :
    ∃ a, (outs ++ i.outcomes ops).getLast? = some (.error a) := by
  induction ops generalizing i outs with
  | nil => simpa [outcomes] using hlast hp
  | cons op ops ih =>
    rw [outcomes, ← List.append_assoc]
    refine ih (h.perform op) (fun hp' => ?_) hp
    cases hout : i.outcome? op with
    | none =>
      have hphase : (i.perform op).phase = i.phase := by
        rcases perform_cases i op with ⟨-, f, hf⟩ | ⟨e, he, -⟩
        · rw [hf]; rfl
        · rw [outcome?_eq he] at hout; cases hout
      simpa using hlast (hphase ▸ hp')
    | some out =>
      cases out with
      | ok vs => exact absurd (h.rest_of_ok hout) hp'
      | error a => exact ⟨a, by simp⟩

/-- **The control functions are called in rounds**, and an instance is clean or never run again. -/
theorem controls_in_rounds {h : ComposedHost} {surroundings : Surroundings} {limits : Limits}
    {g : Guest σ φ} (hq : g.QuietControls) {i : Instance σ φ}
    (hi : (h.instantiate surroundings limits g).1 = .ok i) (ops : List Operation) :
    let j := i.run ops
    (∃ c, j.machine.exchanges.filterMap Exchange.turn? <+:
      (List.replicate c Control.cycle).flatten) ∧
      (∀ pre post, j.machine.exchanges = pre ++ .control .getState :: post →
        ∃ c, pre.filterMap Exchange.turn? = (List.replicate c Control.cycle).flatten) ∧
      (j.AtRest ∨ j.phase ≠ .normal ∧ ∀ more op e, (j.run more).errand? op = some e →
        (j.run more).phase = j.phase ∧ (j.run more).Refuses op) ∧
      (j.phase ≠ .normal → ∃ a, (i.outcomes ops).getLast? = some (.error a)) ∧
      ∀ op vs, j.outcome? op = some (.ok vs) → (j.perform op).AtRest := by
  obtain ⟨hlaw, hnormal, -⟩ := ComposedHost.instantiate_lawful hq hi
  have hj := hlaw.run ops
  obtain ⟨s, hpath⟩ := hj.path
  refine ⟨?_, fun pre post ht => hpath.reports ht, ?_, fun hp => ?_, fun op vs hout => ?_⟩
  · obtain ⟨c, hc⟩ := hpath.turns
    refine ⟨c + 1, ?_⟩
    rw [hc, List.replicate_succ', List.flatten_append]
    exact (List.prefix_append_right_inj _).mpr (by simpa using List.take_prefix _ _)
  · by_cases hp : (i.run ops).phase = .normal
    · exact Or.inl (hj.at_rest hp).fits
    · refine Or.inr ⟨hp, fun more op e he => ?_⟩
      have hmore := run_phase hp more
      exact ⟨hmore, refuses he (hmore ▸ hp)⟩
  · rw [← List.nil_append (i.outcomes ops)]
    exact hlaw.last_error (fun hp => absurd hnormal hp) ops hp
  · exact ((hj.perform op).at_rest (hj.rest_of_ok hout)).fits

/-- A relay that is called twice, with two suspensions each time. -/
theorem relay_controls_in_rounds : ∃ i,
    (askHost.instantiate .silent .default (Guest.relay ⟨"env", "ask"⟩ 2).instrument).1 = .ok i ∧
      (i.run relayedTwice).machine.suspensions = 4 ∧
      let j := i.run relayedTwice
      (∃ c, j.machine.exchanges.filterMap Exchange.turn? <+:
        (List.replicate c Control.cycle).flatten) ∧
      (∀ pre post, j.machine.exchanges = pre ++ .control .getState :: post →
        ∃ c, pre.filterMap Exchange.turn? = (List.replicate c Control.cycle).flatten) ∧
      (j.AtRest ∨ j.phase ≠ .normal ∧ ∀ more op e, (j.run more).errand? op = some e →
        (j.run more).phase = j.phase ∧ (j.run more).Refuses op) ∧
      (j.phase ≠ .normal → ∃ a, (i.outcomes relayedTwice).getLast? = some (.error a)) ∧
      ∀ op vs, j.outcome? op = some (.ok vs) → (j.perform op).AtRest := by
  obtain ⟨i, hi, hsuspended⟩ := askHost_relay
  exact ⟨i, hi, hsuspended, controls_in_rounds Guest.instrument_quiet hi _⟩

end Instance

end WasiSandbox
