import WasiSandbox.Proofs.Suspend.Protocol

/-! # What a path through the protocol tells

Facts about all that has passed between a guest and its host, read off the path that it follows.

* `Path.entered_consistent`, `Path.called_consistent`: whenever code of the guest or an import is
  entered, phase and works of the register fit together; `Path.not_missing`, `Path.nested_phase`:
  two of the violations do not occur.
* `Path.turns`: the calls of the four control functions are rounds of one cycle and a part of
  another.
* `Path.numbered`: no work is awaited twice, and no result is handed over twice.
* `Path.answered_supplied`: what goes to the guest comes from its own call.
* `Path.resumed_after`: a result is handed over to the first call behind the rewind that belongs to
  it, if that is a call of the import that has left the work behind; `Path.first_call` says what
  comes of that call in either case. -/

namespace WasiSandbox

open Station

/-- Phase and works fit together: nothing is under way in the normal phase, there is work to await
while the guest unwinds, and a result to hand over while it rewinds. -/
def RegisterView.Consistent (r : RegisterView) : Prop :=
  match r.phase with
  | .normal => r.pending = none ∧ r.settled = none
  | .unwinding => r.pending.isSome ∧ r.settled = none ∧ r.instrumented = true
  | .rewinding => r.settled.isSome ∧ r.pending = none ∧ r.instrumented = true

namespace Exchange

/-- The number of the work that is left behind. -/
def begun? : Exchange → Option Nat
  | suspended k _ _ => some k
  | _ => none

/-- The number of the work that is awaited. -/
def awaited? : Exchange → Option Nat
  | awaited k _ => some k
  | _ => none

/-- The number of the work whose result is handed over. -/
def resumed? : Exchange → Option Nat
  | resumed k _ _ => some k
  | _ => none

/-- The import that is called. -/
def called? : Exchange → Option ImportId
  | called id _ => some id
  | _ => none

/-- The import whose body is run, and its arguments. -/
def ran? : Exchange → Option (ImportId × List Value)
  | ran id args _ => some (id, args)
  | _ => none

/-- The call of a control function by which something begins or ends. -/
def turn? : Exchange → Option Control
  | control .getState => none
  | control c => some c
  | _ => none

end Exchange

/-- The control functions in the order of a suspension. -/
def Control.cycle : List Control := [.startUnwind, .stopUnwind, .startRewind, .stopRewind]

/-- No import is called. -/
def Uncalled (t : List Exchange) : Prop := t.filterMap Exchange.called? = []

variable {σ φ : Type} {l : Linked σ φ} {n n' : Nat} {s s' : Station} {t : List Exchange}
  {e : Exchange}

/-! ### The register -/

theorem Station.view_consistent (s : Station) (b : Bool) : (s.view b).Consistent := by
  cases s <;> simp [view, RegisterView.Consistent]

theorem Path.entered_consistent (h : Path l n s t n' s') {r : RegisterView}
    (hr : .entered r ∈ t) : r.Consistent := by
  obtain ⟨_, _, _, _, hs⟩ := h.step_of_mem hr
  cases hs
  exact view_consistent _ _

theorem Path.called_consistent (h : Path l n s t n' s') {id : ImportId} {r : RegisterView}
    (hr : .called id r ∈ t) : r.Consistent := by
  obtain ⟨_, _, _, _, hs⟩ := h.step_of_mem hr
  cases hs <;> exact view_consistent _ _

theorem Path.not_missing (h : Path l n s t n' s') (p : Phase) :
    .violated .missingContinuation p ∉ t := by
  intro hp
  obtain ⟨_, _, _, _, hs⟩ := h.step_of_mem hp
  cases hs

/-- An import that is called while another suspension is under way is called by a guest that
unwinds. -/
theorem Path.nested_phase (h : Path l n s t n' s') {id : ImportId} {p : Phase}
    (hp : .violated (.nestedSuspend id) p ∈ t) : p = .unwinding := by
  obtain ⟨_, _, _, _, hs⟩ := h.step_of_mem hp
  cases hs
  rfl

/-! ### What has passed last -/

/-- The call of an import in which a rewind ends goes on: the guest is told that the rewinding is
over. -/
def Ending (t : List Exchange) : Prop := ∀ e ∈ t, e = .control .stopRewind ∨ ∃ v, e = .entered v

theorem Ending.snoc (h : Ending t) (he : e = .control .stopRewind ∨ ∃ v, e = .entered v) :
    Ending (t ++ [e]) := by
  intro x hx
  rcases List.mem_append.mp hx with hx | hx
  · exact h x hx
  · rw [List.mem_singleton.mp hx]; exact he

theorem Ending.not_resumed (h : Ending t) : t.filterMap Exchange.resumed? = [] := by
  refine List.filterMap_eq_nil_iff.mpr fun e he => ?_
  rcases h e he with rfl | ⟨v, rfl⟩ <;> rfl

/-- Code of the guest is entered, and nothing else happens. -/
def OnlyEntered (t : List Exchange) : Prop := ∀ e ∈ t, ∃ v, e = .entered v

theorem OnlyEntered.snoc (h : OnlyEntered t) (v : RegisterView) :
    OnlyEntered (t ++ [.entered v]) := by
  intro x hx
  rcases List.mem_append.mp hx with hx | hx
  · exact h x hx
  · exact ⟨v, List.mem_singleton.mp hx⟩

theorem Uncalled.snoc (h : Uncalled t) (he : e.called? = none) : Uncalled (t ++ [e]) := by
  rw [Uncalled, List.filterMap_append, h]
  simp [he]

/-- What has passed last, as far as it belongs to the suspension that is on its way. -/
def Station.Trail (t : List Exchange) : Station → Prop
  | rest | refused _ => True
  | asked id => ∃ pre b, t = pre ++ [.called id ⟨.normal, none, none, b⟩]
  | served id => ∃ pre b args,
      t = pre ++ [.called id ⟨.normal, none, none, b⟩, .ran id args .normal]
  | begun w => ∃ pre, t = pre ++ [.suspended w.number w.id w.result]
  | told w => ∃ pre late, OnlyEntered late ∧
      t = pre ++ .suspended w.number w.id w.result :: .control .startUnwind :: late
  | unwinding w | unwound w => .suspended w.number w.id w.result ∈ t
  | awaited w => ∃ pre, t = pre ++ [.awaited w.number w.id] ∧
      .suspended w.number w.id w.result ∈ pre
  | rewinding w => ∃ pre mid, t = pre ++ .awaited w.number w.id :: .control .startRewind :: mid ∧
      .suspended w.number w.id w.result ∈ pre ∧ Uncalled mid
  | reached w id => ∃ pre mid r,
      t = pre ++ .awaited w.number w.id :: .control .startRewind :: (mid ++ [.called id r]) ∧
      .suspended w.number w.id w.result ∈ pre ∧ Uncalled mid
  | rewound w id => ∃ pre mid r late,
      t = pre ++ .awaited w.number w.id :: .control .startRewind :: (mid ++ .called id r :: late) ∧
      .suspended w.number w.id w.result ∈ pre ∧ Uncalled mid ∧ Ending late
  | handed id r => ∃ pre k, t = pre ++ [.resumed k id r]

/-- Code of the guest that is entered leaves the trail as it is. -/
theorem Station.Trail.enter (h : s.Trail t) (hg : s.RunsGuest) (v : RegisterView) :
    s.Trail (t ++ [.entered v]) := by
  cases s with
  | rest => trivial
  | unwinding w | unwound w => exact List.mem_append_left _ h
  | told w =>
    obtain ⟨pre, late, hl, rfl⟩ := h
    exact ⟨pre, late ++ [.entered v], hl.snoc v, by simp⟩
  | rewinding w =>
    obtain ⟨pre, mid, rfl, hw, hm⟩ := h
    exact ⟨pre, mid ++ [.entered v], by simp, hw, hm.snoc rfl⟩
  | rewound w id =>
    obtain ⟨pre, mid, r, late, rfl, hw, hm, hl⟩ := h
    exact ⟨pre, mid, r, late ++ [.entered v], by simp, hw, hm, hl.snoc (Or.inr ⟨v, rfl⟩)⟩
  | _ => exact hg.elim

theorem Station.Trail.step (h : s.Trail t) (hs : Step l n s e n' s') : s'.Trail (t ++ [e]) := by
  cases hs with
  | enter hg => exact h.enter hg _
  | call => exact ⟨t, _, rfl⟩
  | @run _ args =>
    obtain ⟨pre, b, rfl⟩ := h
    exact ⟨pre, b, args, by simp⟩
  | suspend => exact ⟨t, rfl⟩
  | startUnwind =>
    obtain ⟨pre, rfl⟩ := h
    exact ⟨pre, [], by simp [OnlyEntered], by simp⟩
  | answerZeros =>
    obtain ⟨pre, late, -, rfl⟩ := h
    simp [Trail]
  | callUnwinding | nested | stopUnwind => exact List.mem_append_left _ h
  | await => exact ⟨t, rfl, h⟩
  | startRewind =>
    obtain ⟨pre, rfl, hw⟩ := h
    exact ⟨pre, [], by simp, hw, rfl⟩
  | @reach w _ b =>
    obtain ⟨pre, mid, rfl, hw, hm⟩ := h
    exact ⟨pre, mid, (rewinding w).view b, by simp, hw, hm⟩
  | stopRewind =>
    obtain ⟨pre, mid, r, rfl, hw, hm⟩ := h
    exact ⟨pre, mid, r, [.control .stopRewind], by simp, hw, hm, by simp [Ending]⟩
  | resume => exact ⟨t, _, rfl⟩
  | _ => trivial

/-- Along a path from the beginning the trail is there at every station. -/
theorem Path.trail (h : Path l 0 rest t n s) : s.Trail t := by
  induction h with
  | nil => trivial
  | snoc _ hs ih => exact ih.step hs
  | settle => trivial

/-- A body is run for the call before it, in the normal phase. -/
theorem Path.ran_called (h : Path l 0 rest t n s) {pre post : List Exchange} {id : ImportId}
    {args : List Value} {p : Phase} (ht : t = pre ++ .ran id args p :: post) :
    p = .normal ∧ ∃ pre' b, pre = pre' ++ [.called id ⟨.normal, none, none, b⟩] := by
  obtain ⟨_, _, _, _, hp, hs, -⟩ := h.split ht
  cases hs
  exact ⟨rfl, hp.trail⟩

/-- Work is left behind by the body that has run before. -/
theorem Path.suspended_ran (h : Path l 0 rest t n s) {pre post : List Exchange} {k : Nat}
    {id : ImportId} {r : Except Abort (List Value)} (ht : t = pre ++ .suspended k id r :: post) :
    ∃ pre' b args, pre = pre' ++ [.called id ⟨.normal, none, none, b⟩, .ran id args .normal] := by
  obtain ⟨_, _, _, _, hp, hs, -⟩ := h.split ht
  cases hs
  exact hp.trail

/-- **A result is handed over to the first call behind its rewind**, which is a call of the import
that has left the work behind. -/
theorem Path.resumed_after (h : Path l 0 rest t n s) {pre post : List Exchange} {k : Nat}
    {id : ImportId} {r : Except Abort (List Value)} (ht : t = pre ++ .resumed k id r :: post) :
    ∃ before mid v late, pre = before ++ .awaited k id :: .control .startRewind ::
        (mid ++ .called id v :: late) ∧
      .suspended k id r ∈ before ∧ Uncalled mid ∧ Ending late := by
  obtain ⟨_, _, _, _, hp, hs, -⟩ := h.split ht
  cases hs
  exact hp.trail

/-- Where the values come from that go to the guest as the results of a call. -/
inductive Supplied (i : Import) (id : ImportId) (vs : List Value) : List Exchange → Prop
  /-- The body has run, and has answered at once. -/
  | body {pre : List Exchange} {b : Bool} {args : List Value} :
      Supplied i id vs (pre ++ [.called id ⟨.normal, none, none, b⟩, .ran id args .normal])
  /-- They are the result of work that was just handed over to the call. -/
  | result {pre : List Exchange} {k : Nat} : Supplied i id vs (pre ++ [.resumed k id (.ok vs)])
  /-- The body has left work behind, and the guest was told to unwind. -/
  | zeros {pre late : List Exchange} {k : Nat} {r : Except Abort (List Value)} (hv : vs = i.zeros)
      (hl : OnlyEntered late) :
      Supplied i id vs (pre ++ .suspended k id r :: .control .startUnwind :: late)

/-- **What goes to the guest** is as much as the import declares, and comes from its own call. -/
theorem Path.answered_supplied (h : Path l 0 rest t n s) {pre post : List Exchange} {id : ImportId}
    {vs : List Value} (ht : t = pre ++ .answered id vs :: post) :
    ∃ i, l.import? id = some i ∧ vs.length = i.signature.results.length ∧ Supplied i id vs pre := by
  obtain ⟨_, _, _, _, hp, hs, -⟩ := h.split ht
  have htrail := hp.trail
  cases hs with
  | answer hi hv =>
    obtain ⟨_, _, _, rfl⟩ := htrail
    exact ⟨_, hi, hv, .body⟩
  | answerZeros hi =>
    obtain ⟨_, _, hl, rfl⟩ := htrail
    exact ⟨_, hi, by simp [Import.zeros], .zeros rfl hl⟩
  | answerResult hi hv =>
    obtain ⟨_, _, rfl⟩ := htrail
    exact ⟨_, hi, hv, .result⟩

theorem Path.awaited_suspended (h : Path l 0 rest t n s) {pre post : List Exchange} {k : Nat}
    {id : ImportId} (ht : t = pre ++ .awaited k id :: post) : ∃ r, .suspended k id r ∈ pre := by
  obtain ⟨_, _, _, _, hp, hs, -⟩ := h.split ht
  cases hs
  exact ⟨_, hp.trail⟩

/-! ### The cycle of control functions -/

/-- How many functions of the cycle were called. -/
def Station.progress : Station → Nat
  | rest | asked _ | served _ | begun _ | handed .. => 0
  | told _ | unwinding _ => 1
  | unwound _ | awaited _ => 2
  | rewinding _ | reached .. => 3
  | rewound .. => 4
  | refused s => s.progress

/-- An exchange goes on in the cycle, or closes it. -/
theorem Station.Step.turn (h : Step l n s e n' s') :
    Control.cycle.take s.progress ++ e.turn?.toList = Control.cycle.take s'.progress ∨
      Control.cycle.take s.progress ++ e.turn?.toList = Control.cycle ∧ s'.progress = 0 := by
  cases h <;> simp [progress, Exchange.turn?, Control.cycle]

/-- **The control functions are called in rounds.** -/
theorem Path.turns (h : Path l 0 rest t n s) : ∃ c, t.filterMap Exchange.turn? =
    (List.replicate c Control.cycle).flatten ++ Control.cycle.take s.progress := by
  induction h with
  | nil => exact ⟨0, rfl⟩
  | @snoc t e _ _ s₁ s₂ _ hs ih =>
    obtain ⟨c, hc⟩ := ih
    have he : (t ++ [e]).filterMap Exchange.turn? =
        (List.replicate c Control.cycle).flatten ++
          (Control.cycle.take s₁.progress ++ e.turn?.toList) := by
      rw [List.filterMap_append, hc, List.append_assoc]
      cases h : e.turn? <;> simp [h]
    rcases hs.turn with h | ⟨h, h0⟩
    · exact ⟨c, by rw [he, h]⟩
    · exact ⟨c + 1, by rw [he, h, h0, List.replicate_succ']; simp⟩
  | @settle _ _ s₁ _ hs ih =>
    have h0 : s₁.progress = 0 := by cases s₁ <;> first | rfl | exact hs.elim
    rw [h0] at ih
    exact ih

/-- The guest is asked for its own view of the phase only between two rounds. -/
theorem Path.reports (h : Path l 0 rest t n s) {pre post : List Exchange}
    (ht : t = pre ++ .control .getState :: post) :
    ∃ c, pre.filterMap Exchange.turn? = (List.replicate c Control.cycle).flatten := by
  obtain ⟨_, _, _, _, hp, hs, -⟩ := h.split ht
  cases hs
  obtain ⟨c, hc⟩ := hp.turns
  exact ⟨c, by simpa [progress] using hc⟩

/-! ### Each work is awaited once and handed over once -/

/-- What an exchange has to do with the works: one is left behind, or awaited, or its result is
handed over, or none is concerned. -/
inductive Station.Works (n : Nat) (s : Station) : Exchange → Nat → Station → Prop
  | begin {id : ImportId} {r : Except Abort (List Value)} {s' : Station}
      (hw : s'.work? = some ⟨n, id, r⟩) : Works n s (.suspended n id r) (n + 1) s'
  | await {w : Settled} {s' : Station} (hw : s.work? = some w) (hp : s.phase = .unwinding)
      (hw' : s'.work? = some w) (hp' : s'.phase = .rewinding) :
      Works n s (.awaited w.number w.id) n s'
  | resume {w : Settled} {s' : Station} (hw : s.work? = some w) (hw' : s'.work? = none) :
      Works n s (.resumed w.number w.id w.result) n s'
  | keep {e : Exchange} {s' : Station} (hb : e.begun? = none) (ha : e.awaited? = none)
      (hr : e.resumed? = none)
      (hw : ∀ w, s'.work? = some w → s.work? = some w ∧ s.phase = s'.phase) : Works n s e n s'

theorem Station.Step.works (h : Step l n s e n' s') : Works n s e n' s' := by
  cases h with
  | suspend => exact .begin rfl
  | await => exact .await rfl rfl rfl rfl
  | resume => exact .resume rfl rfl
  | _ => exact .keep rfl rfl rfl fun w hw => by first | exact ⟨hw, rfl⟩ | cases hw

/-- Different numbers below `n`. -/
def Issued (n : Nat) (ks : List Nat) : Prop := (∀ k ∈ ks, k < n) ∧ ks.Nodup

theorem Issued.fresh {ks : List Nat} (h : Issued n ks) : n ∉ ks :=
  fun hn => Nat.lt_irrefl n (h.1 n hn)

theorem Issued.succ {ks : List Nat} (h : Issued n ks) : Issued (n + 1) ks :=
  ⟨fun k hk => Nat.lt_succ_of_lt (h.1 k hk), h.2⟩

theorem Issued.concat {ks : List Nat} {k : Nat} (h : Issued n ks) (hk : k < n) (hn : k ∉ ks) :
    Issued n (ks ++ [k]) := by
  refine ⟨fun j hj => ?_, ?_⟩
  · rcases List.mem_append.mp hj with hj | hj
    · exact h.1 j hj
    · rw [List.mem_singleton.mp hj]; exact hk
  · refine List.nodup_append.mpr ⟨h.2, by simp, ?_⟩
    rintro j hj _ hk rfl
    exact hn (List.mem_singleton.mp hk ▸ hj)

/-- The numbers of the works that were begun, awaited and handed over up to the station. -/
structure Station.Numbered (n : Nat) (s : Station) (t : List Exchange) : Prop where
  begun : Issued n (t.filterMap Exchange.begun?)
  awaited : Issued n (t.filterMap Exchange.awaited?)
  resumed : Issued n (t.filterMap Exchange.resumed?)
  work_lt : ∀ w, s.work? = some w → w.number < n
  not_resumed : ∀ w, s.work? = some w → w.number ∉ t.filterMap Exchange.resumed?
  not_awaited : s.phase = .unwinding → ∀ w, s.work? = some w →
    w.number ∉ t.filterMap Exchange.awaited?

section FilterMap

variable {f : Exchange → Option Nat}

theorem filterMap_snoc_none (he : f e = none) : (t ++ [e]).filterMap f = t.filterMap f := by
  rw [List.filterMap_append, List.filterMap_cons_none he, List.filterMap_nil, List.append_nil]

theorem filterMap_snoc_some {k : Nat} (he : f e = some k) :
    (t ++ [e]).filterMap f = t.filterMap f ++ [k] := by
  rw [List.filterMap_append, List.filterMap_cons_some he, List.filterMap_nil]

end FilterMap

theorem Station.Numbered.step (h : s.Numbered n t) (hs : Step l n s e n' s') :
    s'.Numbered n' (t ++ [e]) := by
  cases hs.works with
  | begin hw =>
    constructor
    case begun =>
      rw [filterMap_snoc_some rfl]
      exact h.begun.succ.concat (Nat.lt_succ_self n) h.begun.fresh
    case awaited => rw [filterMap_snoc_none rfl]; exact h.awaited.succ
    case resumed => rw [filterMap_snoc_none rfl]; exact h.resumed.succ
    case work_lt => rw [hw]; rintro _ ⟨⟩; exact Nat.lt_succ_self n
    case not_resumed => rw [hw, filterMap_snoc_none rfl]; rintro _ ⟨⟩; exact h.resumed.fresh
    case not_awaited => rw [hw, filterMap_snoc_none rfl]; rintro - _ ⟨⟩; exact h.awaited.fresh
  | await hw hp hw' hp' =>
    constructor
    case begun => rw [filterMap_snoc_none rfl]; exact h.begun
    case awaited =>
      rw [filterMap_snoc_some rfl]
      exact h.awaited.concat (h.work_lt _ hw) (h.not_awaited hp _ hw)
    case resumed => rw [filterMap_snoc_none rfl]; exact h.resumed
    case work_lt => rw [hw']; rintro _ ⟨⟩; exact h.work_lt _ hw
    case not_resumed => rw [hw', filterMap_snoc_none rfl]; rintro _ ⟨⟩; exact h.not_resumed _ hw
    case not_awaited => rw [hp']; rintro ⟨⟩
  | resume hw hw' =>
    constructor
    case begun => rw [filterMap_snoc_none rfl]; exact h.begun
    case awaited => rw [filterMap_snoc_none rfl]; exact h.awaited
    case resumed =>
      rw [filterMap_snoc_some rfl]
      exact h.resumed.concat (h.work_lt _ hw) (h.not_resumed _ hw)
    case work_lt => rw [hw']; rintro _ ⟨⟩
    case not_resumed => rw [hw']; rintro _ ⟨⟩
    case not_awaited => rw [hw']; rintro - _ ⟨⟩
  | keep hb ha hr hw =>
    constructor
    case begun => rw [filterMap_snoc_none hb]; exact h.begun
    case awaited => rw [filterMap_snoc_none ha]; exact h.awaited
    case resumed => rw [filterMap_snoc_none hr]; exact h.resumed
    case work_lt => exact fun w h' => h.work_lt w (hw w h').1
    case not_resumed => rw [filterMap_snoc_none hr]; exact fun w h' => h.not_resumed w (hw w h').1
    case not_awaited =>
      rw [filterMap_snoc_none ha]
      exact fun hu w h' => h.not_awaited ((hw w h').2.trans hu) w (hw w h').1

/-- **No work is awaited twice, and no result is handed over twice.** -/
theorem Path.numbered (h : Path l 0 rest t n s) : s.Numbered n t := by
  induction h with
  | nil => constructor <;> simp [work?, Issued]
  | snoc _ hs ih => exact ih.step hs
  | settle _ _ ih => exact { ih with work_lt := nofun, not_resumed := nofun, not_awaited := nofun }

/-! ### The first call behind a rewind -/

theorem Station.Step.of_awaited {k : Nat} {id : ImportId} (h : Step l n s (.awaited k id) n' s') :
    ∃ w : Settled, s = unwound w ∧ s' = awaited w ∧ k = w.number ∧ id = w.id := by
  cases h
  exact ⟨_, rfl, rfl, rfl, rfl⟩

theorem Station.Step.of_startRewind {w : Settled}
    (h : Step l n (awaited w) (.control .startRewind) n' s') : s' = rewinding w := by
  cases h
  rfl

theorem Station.Step.of_called {w : Settled} {id : ImportId} {r : RegisterView}
    (h : Step l n (rewinding w) (.called id r) n' s') : s' = reached w id ∧ n' = n := by
  cases h
  exact ⟨rfl, rfl⟩

/-- While the guest rewinds it stays with its work until it calls an import or is refused. -/
theorem Path.uncalled_of_rewinding {w : Settled} (h : Path l n (rewinding w) t n' s')
    (ht : Uncalled t) : n' = n ∧ (s' = rewinding w ∨ ∃ last, s' = refused last) := by
  induction h with
  | nil => exact ⟨rfl, Or.inl rfl⟩
  | @snoc t e _ _ s₁ s₂ _ hs ih =>
    obtain ⟨h1, h2⟩ : Uncalled t ∧ e.called? = none := by
      simpa [Uncalled, List.filterMap_append] using ht
    obtain ⟨rfl, rfl | ⟨last, rfl⟩⟩ := ih h1
    · cases hs with
      | reach => cases h2
      | refuse => exact ⟨rfl, Or.inr ⟨_, rfl⟩⟩
      | _ => exact ⟨rfl, Or.inl rfl⟩
    · cases hs with
      | enter hg => exact hg.elim
      | refuse => exact ⟨rfl, Or.inr ⟨_, rfl⟩⟩
  | settle _ hs ih =>
    obtain ⟨-, rfl | ⟨_, rfl⟩⟩ := ih ht
    · exact hs.elim
    · exact hs.elim

/-- What has come of the call of the import in which the rewind for the work has ended: nothing yet,
or the guest was stopped and is refused since, or it was given the result, or it was refused because
it has called another import. -/
inductive Handover (w : Settled) (id : ImportId) : List Exchange → Station → Prop
  | undecided {t : List Exchange} {s : Station} (ht : Ending t)
      (hs : s = reached w id ∨ s = rewound w id) : Handover w id t s
  | refused {early late : List Exchange} {last : Station} (ht : Ending early)
      (hl : late.filterMap Exchange.resumed? = []) (ho : ¬ last.IsOpen) :
      Handover w id (early ++ .violated (.unexpectedState .normal .rewinding) .rewinding :: late)
        (refused last)
  | resumed {early late : List Exchange} {s : Station} (ht : Ending early) (hid : w.id = id) :
      Handover w id (early ++ .resumed w.number w.id w.result :: late) s
  | mismatch {early late : List Exchange} {s : Station} (ht : Ending early) (hid : w.id ≠ id) :
      Handover w id (early ++ .violated (.importMismatch w.id id) .normal :: late) s

theorem Handover.step {w : Settled} {id : ImportId} (h : Handover w id t s)
    (hs : Step l n s e n' s') : Handover w id (t ++ [e]) s' := by
  cases h with
  | undecided ht hst =>
    rcases hst with rfl | rfl
    · cases hs with
      | enter hg => exact hg.elim
      | stopRewind => exact .undecided (ht.snoc (Or.inl rfl)) (Or.inr rfl)
      | refuse => exact .refused ht rfl (fun h => h)
    · cases hs with
      | enter hg => exact .undecided (ht.snoc (Or.inr ⟨_, rfl⟩)) (Or.inr rfl)
      | resume => exact .resumed ht rfl
      | mismatch hid => exact .mismatch ht hid
      | refuse => exact .refused ht rfl (fun h => h)
  | @refused early late last ht hl ho =>
    rw [List.append_assoc, List.cons_append]
    cases hs with
    | enter hg => exact hg.elim
    | refuse => exact .refused ht (by simpa [Exchange.resumed?] using hl) fun h => h
  | resumed ht hid =>
    rw [List.append_assoc, List.cons_append]
    exact .resumed ht hid
  | mismatch ht hid =>
    rw [List.append_assoc, List.cons_append]
    exact .mismatch ht hid

/-- **What comes of a rewind** that has come to an import. -/
theorem Path.handover {w : Settled} {id : ImportId} (h : Path l n (reached w id) t n' s') :
    Handover w id t s' := by
  induction h with
  | nil => exact .undecided (by simp [Ending]) (Or.inl rfl)
  | snoc _ hs ih => exact ih.step hs
  | settle _ hs ih =>
    cases ih with
    | undecided _ h => rcases h with rfl | rfl <;> exact hs.elim
    | refused => exact hs.elim
    | resumed ht hid => exact .resumed ht hid
    | mismatch ht hid => exact .mismatch ht hid

/-- Where the rewind has come to another import than the one that has left the work behind, or what
lies behind: the works are later ones. -/
def Station.Past (w : Settled) (id : ImportId) (n : Nat) (s : Station) : Prop :=
  s = reached w id ∨ s = rewound w id ∨ ∀ x, s.work? = some x → n ≤ x.number

/-- After the rewind has come to another import than the one that has left the work behind, results
are handed over only of works that are begun later. -/
theorem Path.resumed_after_mismatch {w : Settled} {id : ImportId} (hne : w.id ≠ id)
    (h : Path l n (reached w id) t n' s') :
    n ≤ n' ∧ (∀ k ∈ t.filterMap Exchange.resumed?, n ≤ k) ∧ s'.Past w id n := by
  induction h with
  | nil => exact ⟨Nat.le_refl n, by simp, Or.inl rfl⟩
  | @snoc t e _ _ s₁ s₂ _ hs ih =>
    obtain ⟨hn, ht, rfl | rfl | hpast⟩ := ih
    · have hkeep : e.resumed? = none := by cases hs <;> rfl
      rw [filterMap_snoc_none hkeep]
      cases hs with
      | enter hg => exact hg.elim
      | stopRewind => exact ⟨hn, ht, Or.inr (Or.inl rfl)⟩
      | refuse => exact ⟨hn, ht, Or.inr (Or.inr nofun)⟩
    · have hkeep : e.resumed? = none := by
        cases hs with
        | resume => exact absurd rfl hne
        | _ => rfl
      rw [filterMap_snoc_none hkeep]
      cases hs with
      | enter => exact ⟨hn, ht, Or.inr (Or.inl rfl)⟩
      | resume => exact absurd rfl hne
      | mismatch => exact ⟨hn, ht, Or.inr (Or.inr nofun)⟩
      | refuse => exact ⟨hn, ht, Or.inr (Or.inr nofun)⟩
    · cases hs.works with
      | begin hw =>
        rw [filterMap_snoc_none rfl]
        refine ⟨Nat.le_succ_of_le hn, ht, Or.inr (Or.inr ?_)⟩
        rw [hw]
        rintro _ ⟨⟩
        exact hn
      | await hw _ hw' =>
        rw [filterMap_snoc_none rfl]
        exact ⟨hn, ht, Or.inr (Or.inr fun x hx => hpast x (by rw [hw, ← hw', hx]))⟩
      | resume hw hw' =>
        rw [filterMap_snoc_some rfl]
        refine ⟨hn, fun k hk => ?_, Or.inr (Or.inr (by rw [hw']; rintro _ ⟨⟩))⟩
        rcases List.mem_append.mp hk with hk | hk
        · exact ht k hk
        · rw [List.mem_singleton.mp hk]; exact hpast _ hw
      | keep _ _ hr hw =>
        rw [filterMap_snoc_none hr]
        exact ⟨hn, ht, Or.inr (Or.inr fun x hx => hpast x (hw x hx).1)⟩
  | settle _ _ ih =>
    obtain ⟨hn, ht, -⟩ := ih
    exact ⟨hn, ht, Or.inr (Or.inr nofun)⟩

/-- **The first call behind a rewind** is given the result of the work, or nobody is. -/
theorem Path.first_call (h : Path l 0 rest t n s) {pre mid post : List Exchange} {k : Nat}
    {id id' : ImportId} {v : RegisterView} (hm : Uncalled mid)
    (ht : t = pre ++ .awaited k id :: .control .startRewind :: (mid ++ .called id' v :: post)) :
    ∃ r, .suspended k id r ∈ pre ∧ Handover ⟨k, id, r⟩ id' post s ∧
      (k ∈ t.filterMap Exchange.resumed? →
        id = id' ∧ ∃ early late, post = early ++ .resumed k id r :: late ∧ Ending early) := by
  have ht' : t =
      (pre ++ .awaited k id :: .control .startRewind :: mid) ++ .called id' v :: post := by
    simpa using ht
  obtain ⟨n₁, s₁, _, _, hcall, hreach, hpost⟩ := h.split ht'
  -- The station before the call, from the awaiting on.
  obtain ⟨_, _, _, _, hpre, hs, hrest⟩ := hcall.split rfl
  obtain ⟨w, rfl, rfl, rfl, rfl⟩ := hs.of_awaited
  obtain ⟨_, _, _, _, hnil, hs, hmid⟩ := hrest.split (List.nil_append _).symm
  obtain ⟨-, rfl | ⟨⟨⟩⟩⟩ := hnil.eq_of_nil
  obtain rfl := hs.of_startRewind
  obtain rfl : s₁ = rewinding w := by
    rcases hmid.uncalled_of_rewinding hm with ⟨-, h | ⟨_, rfl⟩⟩
    · exact h
    · cases hreach
  obtain ⟨rfl, rfl⟩ := hreach.of_called
  have hover := hpost.handover
  refine ⟨w.result, hpre.trail, hover, fun hk => ?_⟩
  rw [ht', List.filterMap_append] at hk
  -- The result was not handed over before the call, so it is behind it.
  have hk : w.number ∈ post.filterMap Exchange.resumed? := by
    rcases List.mem_append.mp hk with hk | hk
    · exact absurd hk (hcall.numbered.not_resumed w rfl)
    · simpa [Exchange.resumed?] using hk
  have hnew : w.id ≠ id' → False := fun hne => by
    have hlt := hcall.numbered.work_lt w rfl
    have hle := (hpost.resumed_after_mismatch hne).2.1 w.number hk
    omega
  cases hover with
  | undecided he => rw [he.not_resumed] at hk; cases hk
  | refused he hl =>
    rw [List.filterMap_append, he.not_resumed, List.filterMap_cons_none rfl, hl] at hk
    cases hk
  | resumed he hid => exact ⟨hid, _, _, rfl, he⟩
  | mismatch he hid => exact (hnew hid).elim

end WasiSandbox
