import Mathlib
import WasiSandbox.Proofs.Instance.Register

/-! # Exactly-once resumption

What becomes of the works that imports leave behind, over the life of an instance and whatever its
guest does: each is awaited at most once, and its result goes to one call at most, the first behind
the rewind that belongs to it (`ResumedOnce`). A guest that comes to another import there is
stopped, as a rule by a mismatch; if the function that ends the rewinding traps, by that trap. -/

namespace WasiSandbox

open GuestM Station

variable {σ φ : Type}

/-- What the exchanges of an instance tell of the works that were left behind. -/
structure ResumedOnce (l : Linked σ φ) (t : List Exchange) : Prop where
  /-- Works have different numbers. -/
  begun : (t.filterMap Exchange.begun?).Nodup
  awaited : (t.filterMap Exchange.awaited?).Nodup
  resumed : (t.filterMap Exchange.resumed?).Nodup
  awaited_begun {pre post : List Exchange} {k : Nat} {id : ImportId}
    (ht : t = pre ++ .awaited k id :: post) : ∃ r, .suspended k id r ∈ pre
  /-- A result goes to the first call behind its rewind, a call of the import that has left the work
  behind; between the call and the result the guest is only told that the rewinding is over. -/
  resumed_first {pre post : List Exchange} {k : Nat} {id : ImportId} {r : Except Abort (List Value)}
    (ht : t = pre ++ .resumed k id r :: post) : ∃ before mid v late,
      pre = before ++ .awaited k id :: .control .startRewind :: (mid ++ .called id v :: late) ∧
        .suspended k id r ∈ before ∧ Uncalled mid ∧ Ending late
  /-- If the first call is one of another import, nobody is given the result. -/
  mismatched {pre mid post : List Exchange} {k : Nat} {id id' : ImportId} {v : RegisterView}
    (ht : t = pre ++ .awaited k id :: .control .startRewind :: (mid ++ .called id' v :: post))
    (hm : Uncalled mid) (hne : id ≠ id') : k ∉ t.filterMap Exchange.resumed?
  /-- A body is run for the call just before it, in the normal phase. -/
  ran {pre post : List Exchange} {id : ImportId} {args : List Value} {p : Phase}
    (ht : t = pre ++ .ran id args p :: post) :
      p = .normal ∧ ∃ pre' b, pre = pre' ++ [.called id ⟨.normal, none, none, b⟩]
  /-- Work is left behind by the body that has run just before. -/
  suspended {pre post : List Exchange} {k : Nat} {id : ImportId} {r : Except Abort (List Value)}
    (ht : t = pre ++ .suspended k id r :: post) :
      ∃ pre' b args, pre = pre' ++ [.called id ⟨.normal, none, none, b⟩, .ran id args .normal]
  /-- The guest is given as many values as the import declares: those of the body that has just run,
  the result that was just handed over, or zeros while it is told to unwind. -/
  answered {pre post : List Exchange} {id : ImportId} {vs : List Value}
    (ht : t = pre ++ .answered id vs :: post) :
      ∃ i, l.import? id = some i ∧ vs.length = i.signature.results.length ∧ Supplied i id vs pre

theorem Path.resumedOnce {l : Linked σ φ} {n : Nat} {s : Station} {t : List Exchange}
    (h : Path l 0 rest t n s) : ResumedOnce l t where
  begun := h.numbered.begun.2
  awaited := h.numbered.awaited.2
  resumed := h.numbered.resumed.2
  awaited_begun := h.awaited_suspended
  resumed_first := h.resumed_after
  mismatched ht hm hne hk := by
    obtain ⟨r, -, -, hgiven⟩ := h.first_call hm ht
    exact hne (hgiven hk).1
  ran := h.ran_called
  suspended := h.suspended_ran
  answered := h.answered_supplied

namespace Instance

variable {i : Instance σ φ} {op : Operation}

/-- An operation in which an import is called drives the guest from rest. -/
theorem drives_of_called {new post : List Exchange} {id : ImportId} {v : RegisterView}
    (hcall : (i.perform op).machine.exchanges =
      i.machine.exchanges ++ (new ++ .called id v :: post)) :
    ∃ e, i.errand? op = some e ∧ i.phase = .normal := by
  rcases perform_cases i op with ⟨-, f, hf⟩ | ⟨e, he, -⟩
  · rw [hf] at hcall
    have hlen : i.machine.exchanges.length = _ := congrArg List.length hcall
    simp at hlen
  · refine ⟨e, he, ?_⟩
    by_cases hp : i.phase = .normal
    · exact hp
    · -- Otherwise the operation is refused, and nothing else happens.
      rw [(refuses he hp).exchanges] at hcall
      have hnew := List.append_cancel_left hcall
      cases new with
      | nil => simp at hnew
      | cons x new => simp at hnew

/-- The call of an import at the end of the rewind for the work of another stops the operation. -/
theorem Lawful.mismatch_stops (h : i.Lawful) {pre mid new post : List Exchange} {k : Nat}
    {id id' : ImportId} {v : RegisterView}
    (hpre : i.machine.exchanges ++ new = pre ++ .awaited k id :: .control .startRewind :: mid)
    (hcall : (i.perform op).machine.exchanges =
      i.machine.exchanges ++ (new ++ .called id' v :: post)) (hm : Uncalled mid) (hne : id ≠ id') :
    ∃ a, i.outcome? op = some (.error a) ∧ (a = .protocol (.importMismatch id id') ∨
      i.linked.guest.StopsControl .stopRewind a ∧ Ending post) := by
  have ht : (i.perform op).machine.exchanges =
      pre ++ .awaited k id :: .control .startRewind :: (mid ++ .called id' v :: post) := by
    rw [hcall, ← List.append_assoc, hpre]
    simp
  obtain ⟨e, he, hp⟩ := drives_of_called hcall
  obtain ⟨m, hi, hend⟩ := perform_ends he
    ((drive_ends h.quiet (h.at_rest hp)).and (violationStops_drive i.machine))
  have hexch : (i.perform op).machine.exchanges = m.exchanges := by rw [hi]; rfl
  rw [hexch] at ht hcall
  have hnew : ∀ {added : List Exchange}, m.exchanges = i.machine.exchanges ++ added →
      ∀ x ∈ post, x ∈ added := by
    intro added hadd x hx
    rw [hcall] at hadd
    rw [← List.append_cancel_left hadd]
    simp [hx]
  rcases hend with ⟨vs, -, hm', added, hadd, hclean⟩ |
    ⟨a, hout, ⟨s, hs, -, hcause⟩, added, hadd, hviol⟩
  · -- A drive with a result ends at rest, so the result of the work was handed over.
    obtain ⟨r, -, hover, -⟩ := hm'.path.first_call hm ht
    cases hover with
    | undecided _ hst => rcases hst with hst | hst <;> cases hst
    | resumed _ hid => exact absurd hid hne
    | mismatch =>
      exact absurd (hnew hadd _ (List.mem_append_right _ List.mem_cons_self)) (hclean _ _)
  · refine ⟨a, hout, ?_⟩
    obtain ⟨r, -, hover, -⟩ := hs.path.first_call hm ht
    cases hover with
    | undecided he hst =>
      rcases hst with rfl | rfl
      · exact Or.inr ⟨hcause, he⟩
      · exact Or.inr ⟨hcause, he⟩
    | refused _ _ ho => exact absurd hcause ho
    | resumed _ hid => exact absurd hid hne
    | mismatch =>
      exact Or.inl (hviol _ _ (hnew hadd _ (List.mem_append_right _ List.mem_cons_self)))

/-- **Every result is handed over once at most, and where it belongs.** If the first call behind the
rewind for a work is one of another import, that call stops the operation, as a mismatch or because
the end of the rewinding has trapped. -/
theorem resumed_exactly_once {h : ComposedHost} {surroundings : Surroundings} {limits : Limits}
    {g : Guest σ φ} (hq : g.QuietControls) {i : Instance σ φ}
    (hi : (h.instantiate surroundings limits g).1 = .ok i) (ops : List Operation) :
    let j := i.run ops
    ResumedOnce i.linked j.machine.exchanges ∧
      ∀ op pre mid new post k id id' v,
        j.machine.exchanges ++ new = pre ++ .awaited k id :: .control .startRewind :: mid →
        (j.perform op).machine.exchanges = j.machine.exchanges ++ (new ++ .called id' v :: post) →
        Uncalled mid → id ≠ id' →
        ∃ a, j.outcome? op = some (.error a) ∧ (a = .protocol (.importMismatch id id') ∨
          g.StopsControl .stopRewind a ∧ Ending post) := by
  obtain ⟨hlaw, -, hlinked⟩ := ComposedHost.instantiate_lawful hq hi
  have hj := hlaw.run ops
  have hl : (i.run ops).linked = i.linked := run_linked i ops
  obtain ⟨s, hpath⟩ := hj.path
  have honce := hpath.resumedOnce
  rw [hl] at honce
  refine ⟨honce, fun op pre mid new post k id id' v hpre hcall hm hne => ?_⟩
  have hstop := hj.mismatch_stops hpre hcall hm hne
  rw [hl, hlinked] at hstop
  exact hstop

/-- A relay that is called twice, with two suspensions each time. -/
theorem relay_resumed_exactly_once : ∃ i,
    (askHost.instantiate .silent .default (Guest.relay ⟨"env", "ask"⟩ 2).instrument).1 = .ok i ∧
      (i.run relayedTwice).machine.suspensions = 4 ∧
      let j := i.run relayedTwice
      ResumedOnce i.linked j.machine.exchanges ∧
        ∀ op pre mid new post k id id' v,
          j.machine.exchanges ++ new = pre ++ .awaited k id :: .control .startRewind :: mid →
          (j.perform op).machine.exchanges = j.machine.exchanges ++ (new ++ .called id' v :: post) →
          Uncalled mid → id ≠ id' →
          ∃ a, j.outcome? op = some (.error a) ∧ (a = .protocol (.importMismatch id id') ∨
            (Guest.relay ⟨"env", "ask"⟩ 2).instrument.StopsControl .stopRewind a ∧ Ending post) := by
  obtain ⟨i, hi, hsuspended⟩ := askHost_relay
  exact ⟨i, hi, hsuspended, resumed_exactly_once Guest.instrument_quiet hi _⟩

/-- A guest that comes to another import when it rewinds, and traps when the rewinding is to end. -/
def stray : Guest Phase (Option Control) where
  imports := [(⟨"env", "ask"⟩, ⟨[], []⟩), (⟨"env", "other"⟩, ⟨[], []⟩)]
  foreign? := none
  exports := [("run", .function "run", ⟨[], []⟩)]
  controls := [.startUnwind, .stopUnwind, .startRewind, .stopRewind]
  hasStart := false
  initial := ⟨.normal, some (.filled 32 0)⟩
  enter
    | .control c, _ => some c
    | _, _ => none
  resume
    | some .stopRewind, _, s => (.trap (.trap .unreachable), s)
    | some c, _, s => (.finish [], { s with globals := Guest.phaseAfter s.globals c })
    | none, _, s =>
      match s.globals with
      | .normal => (.call ⟨"env", "ask"⟩ [] none, s)
      | .unwinding => (.finish [], s)
      | .rewinding => (.call ⟨"env", "other"⟩ [] none, s)

/-- The imports of the guest; the first leaves work behind. -/
def strayHost : ComposedHost := ⟨{},
  [.canned ⟨"env", "ask"⟩ ⟨[], []⟩ true [], .canned ⟨"env", "other"⟩ ⟨[], []⟩ false []]⟩

theorem stray_quiet : stray.QuietControls := by
  rintro c args s id as w h
  cases c <;> cases h

/-- The instance that the host makes of the guest. -/
def strayInstance : Instance Phase (Option Control) where
  linked := ⟨stray, strayHost.imports⟩
  entry := "_start"
  machine := {
    guest := ⟨.normal,
      some ⟨Memory.pasteFrom (Memory.filled 32 0).octets 16 (Linked.stackBounds .default)⟩⟩
    host := strayHost.initial .silent
    register := { Register.new .default with instrumented := true }
    exchanges := [] }

/-- A guest that comes to another import is not always told of the mismatch: the end of the
rewinding may trap before. -/
theorem mismatch_not_always_reported : ¬ ∀ {σ φ : Type} {h : ComposedHost}
    {surroundings : Surroundings} {limits : Limits} {g : Guest σ φ} {i : Instance σ φ},
    g.QuietControls → (h.instantiate surroundings limits g).1 = .ok i →
    ∀ op pre mid post k id id' v, (i.perform op).machine.exchanges =
        pre ++ .awaited k id :: .control .startRewind :: (mid ++ .called id' v :: post) →
      Uncalled mid → id ≠ id' →
      i.outcome? op = some (.error (.protocol (.importMismatch id id'))) := by
  intro hall
  let op : Operation := .call ⟨10, 1, 10⟩ "run" []
  have hnew : (strayHost.instantiate .silent .default stray).1 = .ok strayInstance := rfl
  have hout : strayInstance.outcome? op = some (.error (.trap .unreachable)) := by cbv
  let normal : RegisterView := ⟨.normal, none, none, true⟩
  let unwinding : RegisterView := ⟨.unwinding, some 0, none, true⟩
  let rewinding : RegisterView := ⟨.rewinding, none, some 0, true⟩
  let before : List Exchange := [.entered normal, .called ⟨"env", "ask"⟩ normal,
    .ran ⟨"env", "ask"⟩ [] .normal, .suspended 0 ⟨"env", "ask"⟩ (.ok []), .control .startUnwind,
    .entered unwinding, .answered ⟨"env", "ask"⟩ [], .entered unwinding, .control .stopUnwind,
    .entered unwinding]
  let between : List Exchange := [.entered rewinding, .entered rewinding]
  let after : List Exchange := [.control .stopRewind, .entered rewinding]
  have hrun : (strayInstance.perform op).machine.exchanges = before ++ .awaited 0 ⟨"env", "ask"⟩ ::
      .control .startRewind :: (between ++ .called ⟨"env", "other"⟩ rewinding :: after) := by
    cbv
  have h := hall stray_quiet hnew op _ _ _ _ _ _ _ hrun rfl (by decide)
  rw [hout] at h
  cases h

end Instance

end WasiSandbox
