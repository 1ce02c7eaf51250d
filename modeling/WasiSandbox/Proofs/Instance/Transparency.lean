import Mathlib
import WasiSandbox.Proofs.Host.Namespace
import WasiSandbox.Proofs.Instance.Life
import WasiSandbox.Proofs.Suspend.AtOnce

/-! # Suspension is transparent

An instance whose guest honours the contract can be operated without knowing which imports answer at
once and which leave work behind: the answer, the host and the bodies that were run are those of the
same instance with imports that do all their work during the call. -/

namespace WasiSandbox

open GuestM

variable {σ φ : Type}

/-! ### Numeric signatures -/

/-- The zeros of a numeric signature have the types that it declares. -/
theorem Import.zeros_types {i : Import} (h : i.signature.unsupported? = none) :
    Value.types i.zeros = i.signature.results := by
  have hnum : ∀ t ∈ i.signature.results, t.isNumeric = true := by
    intro t ht
    have := List.find?_eq_none.mp h t (List.mem_append_right _ ht)
    simpa using this
  have hzero : ∀ t : ValueType, t.isNumeric = true → t.zero.type = t := by
    intro t ht
    cases t <;> first | rfl | cases ht
  unfold Value.types Import.zeros
  rw [List.map_map]
  exact (List.map_congr_left fun t ht => hzero t (hnum t ht)).trans (List.map_id _)

/-! ### The instance without suspensions -/

namespace Instance

/-- The instance with imports that answer at once. -/
def atOnce (i : Instance σ φ) : Instance σ φ := { i with linked := i.linked.atOnce }

variable {i : Instance σ φ} {op : Operation}

theorem errand?_atOnce (i : Instance σ φ) (op : Operation) : i.atOnce.errand? op = i.errand? op := by
  cases op <;> rfl

/-- Both instances end alike: with the same outcome, the same host and the same bodies run, and with
nothing under way. -/
structure Matches (i j : Instance σ φ) : Prop where
  host : i.machine.host = j.machine.host
  bodies : i.machine.bodies = j.machine.bodies
  idle : i.machine.register.Idle
  idle' : j.machine.register.Idle

/-- What is flushed at the end is the same for both. -/
theorem Tied.settle {m m' : Machine σ} (hr : i.machine.register.Idle)
    (h : Tied i.machine.register m m') : (i.settle m).Matches (i.atOnce.settle m') := by
  obtain ⟨B, s, s', h, n, hm, hm'⟩ := h
  have hidle := hr.withIssued n
  refine ⟨?_, hm.bodies.trans hm'.bodies.symm, ?_, ?_⟩
  · show m.host.after Host.flush = m'.host.after Host.flush
    rw [hm.host, hm'.host]
  · show m.register.Idle
    rw [hm.register]
    exact hidle
  · show m'.register.Idle
    rw [hm'.register]
    exact hr

theorem driveAndFlush_matches {e : Errand} (hr : i.machine.register.Idle)
    (h : EndAlike i.machine.register (i.linked.drive e.limits e.entry e.signature e.params i.machine)
      (i.linked.atOnce.drive e.limits e.entry e.signature e.params i.machine)) :
    (i.driveAndFlush e.limits e.entry e.signature e.params).1 =
        (i.atOnce.driveAndFlush e.limits e.entry e.signature e.params).1 ∧
      (i.driveAndFlush e.limits e.entry e.signature e.params).2.Matches
        (i.atOnce.driveAndFlush e.limits e.entry e.signature e.params).2 := by
  generalize hx : i.linked.drive e.limits e.entry e.signature e.params i.machine = x at h
  generalize hx' : i.linked.atOnce.drive e.limits e.entry e.signature e.params i.machine = x' at h
  cases h with
  | ok h =>
    rw [driveAndFlush_ok hx, driveAndFlush_ok (i := i.atOnce) hx']
    exact ⟨rfl, Tied.settle hr h⟩
  | error h =>
    rw [driveAndFlush_error hx, driveAndFlush_error (i := i.atOnce) hx']
    exact ⟨rfl, Tied.settle hr h⟩

/-- The bodies run by an operation are those of its drive. -/
theorem perform_bodies {e : Errand} (he : i.errand? op = some e) : (i.perform op).machine.bodies =
    (endMachine (i.linked.drive e.limits e.entry e.signature e.params i.machine)).bodies := by
  rw [perform_eq he]
  cases hd : i.linked.drive e.limits e.entry e.signature e.params i.machine with
  | ok vs m => rw [driveAndFlush_ok hd]; rfl
  | error a m => rw [driveAndFlush_error hd]; rfl

/-- **Suspension is transparent.** An operation on an instance at rest, whose guest honours the
contract for it, ends as it does with imports that answer at once: with the same outcome and the
same answer, with the same host (so with the same tree, table and texts handed on), with the same
bodies run on the same arguments in the same order, and with nothing under way. This holds for runs
that are not cut short: one of the two runs fewer bodies of imports than the limits allow moves. -/
theorem suspension_transparent {i : Instance σ φ} {op : Operation} {e : Errand}
    {providers : List Provider} {Waits : Waiting σ φ}
    (hc : compose providers = .ok i.linked.imports) (hr : i.machine.register.Idle)
    (he : i.errand? op = some e) (hl : e.limits.Roomy) (hs : e.limits.moves ≤ e.limits.suspensions)
    (hh : i.linked.Honours (.i32 i.machine.register.config.data) e.entry e.params i.machine.guest
      Waits)
    (hfew : (i.perform op).machine.bodies.length < i.machine.bodies.length + e.limits.moves ∨
      (i.atOnce.perform op).machine.bodies.length < i.machine.bodies.length + e.limits.moves) :
    i.outcome? op = i.atOnce.outcome? op ∧ i.reply op = i.atOnce.reply op ∧
      (i.perform op).Matches (i.atOnce.perform op) := by
  have hz : ∀ id imp, i.linked.import? id = some imp →
      Value.types imp.zeros = imp.signature.results := fun id imp hi =>
    Import.zeros_types (composeFrom_numeric hc imp (List.mem_of_find?_eq_some hi))
  have he' : i.atOnce.errand? op = some e := (errand?_atOnce i op).trans he
  rw [perform_bodies he, perform_bodies he'] at hfew
  obtain ⟨hout, hmatch⟩ := driveAndFlush_matches hr (drive_alike hl hs hr hh hz hfew)
  rw [← perform_eq he, ← perform_eq he'] at hmatch
  have htext : (i.perform op).transcript = (i.atOnce.perform op).transcript := by
    unfold transcript
    rw [hmatch.host]
  refine ⟨?_, ?_, hmatch⟩
  · rw [outcome?_eq he, outcome?_eq he', hout]
  · rw [reply_eq he, reply_eq he', hout, htext]

/-- An instance of a relay whose import always leaves work behind. -/
def relayInstance : Instance (Instrumented Unit (Nat × List Value)) (Frame (Nat × List Value)) where
  linked := ⟨(Guest.relay ⟨"env", "ask"⟩ 2).instrument,
    [.canned ⟨"env", "ask"⟩ ⟨[.i32], [.i32]⟩ true []]⟩
  entry := "relay"
  machine := {
    guest := (Guest.relay ⟨"env", "ask"⟩ 2).instrument.initial
    host := .new .empty [] .silent
    register := { Register.new .default with instrumented := true, reportsState := true }
    exchanges := [] }

/-- The relay asks twice, is suspended twice, and ends with what it was given, as if it had been answered at
once. -/
theorem relay_transparent :
    let op : Operation := .call ⟨10, 1, 10⟩ "relay" [.i32 7]
    relayInstance.outcome? op = some (.ok [.i32 7]) ∧
      (relayInstance.perform op).machine.bodies =
        [(⟨"env", "ask"⟩, [.i32 7]), (⟨"env", "ask"⟩, [.i32 7])] ∧
      (relayInstance.perform op).machine.suspensions = 2 ∧
      (relayInstance.atOnce.perform op).machine.suspensions = 0 ∧
      relayInstance.outcome? op = relayInstance.atOnce.outcome? op ∧
      relayInstance.reply op = relayInstance.atOnce.reply op ∧
      (relayInstance.perform op).Matches (relayInstance.atOnce.perform op) := by
  have hc : compose [⟨"custom", relayInstance.linked.imports⟩] =
      .ok relayInstance.linked.imports := rfl
  have he : relayInstance.errand? (.call ⟨10, 1, 10⟩ "relay" [.i32 7]) =
      some ⟨⟨10, 1, 10⟩, .function "relay", ⟨[.i32], [.i32]⟩, [.i32 7]⟩ := rfl
  have hh : relayInstance.linked.Honours (.i32 relayInstance.machine.register.config.data)
      (.function "relay") [.i32 7] relayInstance.machine.guest Guest.SameWait := by
    refine Guest.instrument_honours _ _ (fun c => ?_) _ rfl
    exact EntryPoint.noConfusion
  refine ⟨by cbv, by decide +kernel, by decide +kernel, by decide +kernel, ?_⟩
  exact suspension_transparent hc ⟨rfl, rfl, rfl, rfl⟩ he ⟨by decide, by decide⟩ (by decide) hh
    (Or.inl (by decide +kernel))

end Instance

end WasiSandbox
