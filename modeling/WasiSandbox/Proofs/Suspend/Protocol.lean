import WasiSandbox.Suspend.Drive

/-! # The protocol of suspension

What passes between a guest and its host follows a path through the stations of a suspension. One of
the imports is asked and its body runs. Either the guest is answered at once, or work is left behind
(`begun`): the guest is told to unwind, and that the unwinding is over; the work is awaited; the
guest is told to rewind; the rewind reaches an import; the guest is told that the rewinding is over,
and the result is handed over. `Station.Step` says which exchange leads from which station to which,
and `Path` which exchanges a whole run may consist of. Along with the station goes the number of
works that were left behind so far.

A run may end at a station outside the normal phase. A guest that has come to a stop there is not
entered again: it is refused (`refused`), each time anew. -/

namespace WasiSandbox

/-- The zeros that a call returns with while the guest unwinds. -/
def Import.zeros (i : Import) : List Value := i.signature.results.map ValueType.zero

theorem Linked.import?_id {σ φ : Type} {l : Linked σ φ} {id : ImportId} {i : Import}
    (hi : l.import? id = some i) : i.id = id := by
  simpa using List.find?_some hi

/-- How far a suspension has come, and with which work. -/
inductive Station where
  | rest
  /-- The import was called. -/
  | asked (id : ImportId)
  /-- Its body has run. -/
  | served (id : ImportId)
  /-- It has left work behind. -/
  | begun (w : Settled)
  /-- The guest was told to unwind. -/
  | told (w : Settled)
  | unwinding (w : Settled)
  | unwound (w : Settled)
  | awaited (w : Settled)
  | rewinding (w : Settled)
  /-- The rewind has come to this import. -/
  | reached (w : Settled) (id : ImportId)
  /-- The guest was told that the rewinding is over. -/
  | rewound (w : Settled) (id : ImportId)
  /-- The call of this import was given the result of the work. -/
  | handed (id : ImportId) (result : Except Abort (List Value))
  /-- The guest has stopped outside the normal phase, at this station. -/
  | refused (last : Station)

namespace Station

/-- The phase of the register while guest code can run. -/
def phase : Station → Phase
  | rest | asked _ | served _ | handed .. => .normal
  | begun _ | told _ | unwinding _ | unwound _ => .unwinding
  | awaited _ | rewinding _ | reached .. | rewound .. => .rewinding
  | refused s => s.phase

/-- The work that is waited for, or whose result is still to be handed over. -/
def work? : Station → Option Settled
  | rest | asked _ | served _ | handed .. | refused _ => none
  | begun w | told w | unwinding w | unwound w => some w
  | awaited w | rewinding w | reached w _ | rewound w _ => some w

/-- What the register shows at the station, if the guest can run there; in the normal phase the
guest may have control exports or not. -/
def view (instrumented : Bool) : Station → RegisterView
  | rest | asked _ | served _ | handed .. | refused _ => ⟨.normal, none, none, instrumented⟩
  | begun w | told w | unwinding w | unwound w => ⟨.unwinding, some w.number, none, true⟩
  | awaited w | rewinding w | reached w _ | rewound w _ => ⟨.rewinding, none, some w.number, true⟩

/-- Code of the guest can run at the station. -/
def RunsGuest : Station → Prop
  | rest | told _ | unwinding _ | unwound _ | rewinding _ | rewound .. => True
  | _ => False

/-- A function that the guest exports can run at the station. -/
def IsOpen : Station → Prop
  | rest | unwinding _ | rewinding _ => True
  | _ => False

/-- The call of an import is done with, so the machine may as well be taken to be at rest. -/
def Settles : Station → Prop
  | served _ | handed .. => True
  | _ => False

/-- A run can end at the station. -/
def IsFinal : Station → Prop
  | asked _ | served _ | handed .. => False
  | _ => True

theorem IsOpen.runsGuest {s : Station} (h : s.IsOpen) : s.RunsGuest := by
  cases s <;> simp_all [IsOpen, RunsGuest]

theorem IsOpen.isFinal {s : Station} (h : s.IsOpen) : s.IsFinal := by
  cases s <;> simp_all [IsOpen, IsFinal]

variable {σ φ : Type}

/-- The exchange leads from one station to the next, with so many works begun before and after. -/
inductive Step (l : Linked σ φ) : Nat → Station → Exchange → Nat → Station → Prop
  | enter {n : Nat} {s : Station} {b : Bool} (h : s.RunsGuest) : Step l n s (.entered (s.view b)) n s
  | call {n : Nat} {id : ImportId} {b : Bool} :
      Step l n rest (.called id (rest.view b)) n (asked id)
  | run {n : Nat} {id : ImportId} {args : List Value} :
      Step l n (asked id) (.ran id args .normal) n (served id)
  | answer {n : Nat} {id : ImportId} {i : Import} {vs : List Value} (hi : l.import? id = some i)
      (hv : vs.length = i.signature.results.length) : Step l n (served id) (.answered id vs) n rest
  | uninstrumented {n : Nat} {id : ImportId} :
      Step l n rest (.violated (.notInstrumented id) .normal) n rest
  | arity {n : Nat} {id : ImportId} {expected found : Nat} :
      Step l n rest (.violated (.resultArity id expected found) .normal) n rest
  | suspend {n : Nat} {id : ImportId} {r : Except Abort (List Value)} :
      Step l n (served id) (.suspended n id r) (n + 1) (begun ⟨n, id, r⟩)
  | startUnwind {n : Nat} {w : Settled} : Step l n (begun w) (.control .startUnwind) n (told w)
  | answerZeros {n : Nat} {w : Settled} {i : Import} (hi : l.import? w.id = some i) :
      Step l n (told w) (.answered w.id i.zeros) n (unwinding w)
  | callUnwinding {n : Nat} {w : Settled} {id : ImportId} {b : Bool} :
      Step l n (unwinding w) (.called id ((unwinding w).view b)) n (unwinding w)
  | nested {n : Nat} {w : Settled} {id : ImportId} :
      Step l n (unwinding w) (.violated (.nestedSuspend id) .unwinding) n (unwinding w)
  | stopUnwind {n : Nat} {w : Settled} :
      Step l n (unwinding w) (.control .stopUnwind) n (unwound w)
  | await {n : Nat} {w : Settled} : Step l n (unwound w) (.awaited w.number w.id) n (awaited w)
  | startRewind {n : Nat} {w : Settled} :
      Step l n (awaited w) (.control .startRewind) n (rewinding w)
  | reach {n : Nat} {w : Settled} {id : ImportId} {b : Bool} :
      Step l n (rewinding w) (.called id ((rewinding w).view b)) n (reached w id)
  | stopRewind {n : Nat} {w : Settled} {id : ImportId} :
      Step l n (reached w id) (.control .stopRewind) n (rewound w id)
  | resume {n : Nat} {w : Settled} : Step l n (rewound w w.id)
      (.resumed w.number w.id w.result) n (handed w.id w.result)
  | answerResult {n : Nat} {id : ImportId} {i : Import} {vs : List Value}
      (hi : l.import? id = some i) (hv : vs.length = i.signature.results.length) :
      Step l n (handed id (.ok vs)) (.answered id vs) n rest
  | mismatch {n : Nat} {w : Settled} {id : ImportId} (h : w.id ≠ id) :
      Step l n (rewound w id) (.violated (.importMismatch w.id id) .normal) n rest
  | report {n : Nat} : Step l n rest (.control .getState) n rest
  | refuse {n : Nat} {s : Station} (h : s.phase ≠ .normal) :
      Step l n s (.violated (.unexpectedState .normal s.phase) s.phase) n (refused s)

end Station

open Station

variable {σ φ : Type} {l : Linked σ φ}

/-- The exchanges lead from one station to the other. A call that has come to its end without an
answer is done with. -/
inductive Path (l : Linked σ φ) (n : Nat) (s : Station) : List Exchange → Nat → Station → Prop
  | nil : Path l n s [] n s
  | snoc {t : List Exchange} {e : Exchange} {n₁ n₂ : Nat} {s₁ s₂ : Station} (h : Path l n s t n₁ s₁)
      (hs : Step l n₁ s₁ e n₂ s₂) : Path l n s (t ++ [e]) n₂ s₂
  | settle {t : List Exchange} {n₁ : Nat} {s₁ : Station} (h : Path l n s t n₁ s₁)
      (hs : s₁.Settles) : Path l n s t n₁ rest

namespace Path

variable {n n' : Nat} {s s' : Station} {t : List Exchange}

/-- **A path through an exchange** is a path up to it, the step, and a path from there. -/
theorem split {e : Exchange} {pre post : List Exchange} (h : Path l n s t n' s')
    (ht : t = pre ++ e :: post) :
    ∃ n₁ s₁ n₂ s₂, Path l n s pre n₁ s₁ ∧ Step l n₁ s₁ e n₂ s₂ ∧ Path l n₂ s₂ post n' s' := by
  induction h generalizing post with
  | nil => simp at ht
  | @snoc t x n₁ n₂ s₁ s₂ h hs ih =>
    rcases List.eq_nil_or_concat post with rfl | ⟨post, y, rfl⟩
    · obtain ⟨rfl, he⟩ := List.append_inj' ht rfl
      obtain rfl : x = e := by simpa using he
      exact ⟨n₁, s₁, n₂, s₂, h, hs, nil⟩
    · rw [List.concat_eq_append, ← List.cons_append, ← List.append_assoc] at ht
      obtain ⟨hpost, hx⟩ := List.append_inj' ht rfl
      obtain rfl : x = y := by simpa using hx
      obtain ⟨m₁, r₁, m₂, r₂, h₁, he, h₂⟩ := ih hpost
      exact ⟨m₁, r₁, m₂, r₂, h₁, he, by simpa using h₂.snoc hs⟩
  | settle _ hs ih =>
    obtain ⟨m₁, r₁, m₂, r₂, h₁, he, h₂⟩ := ih ht
    exact ⟨m₁, r₁, m₂, r₂, h₁, he, h₂.settle hs⟩

/-- Every exchange of a path is a step of it. -/
theorem step_of_mem {e : Exchange} (h : Path l n s t n' s') (he : e ∈ t) :
    ∃ n₁ s₁ n₂ s₂, Step l n₁ s₁ e n₂ s₂ := by
  obtain ⟨pre, post, ht⟩ := List.append_of_mem he
  obtain ⟨n₁, s₁, n₂, s₂, -, hs, -⟩ := h.split ht
  exact ⟨n₁, s₁, n₂, s₂, hs⟩

/-- Without an exchange only a call can be done with. -/
theorem eq_of_nil (h : Path l n s [] n' s') : n' = n ∧ (s' = s ∨ s.Settles) := by
  generalize ht : ([] : List Exchange) = t at h
  induction h with
  | nil => exact ⟨rfl, Or.inl rfl⟩
  | snoc => simp at ht
  | settle _ hs ih =>
    obtain ⟨hn, rfl | h⟩ := ih ht
    · exact ⟨hn, Or.inr hs⟩
    · exact ⟨hn, Or.inr h⟩

end Path

end WasiSandbox
