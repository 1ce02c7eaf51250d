import WasiSandbox.Checked

/-! # What a run leaves behind

A run on a state ends in a result or in a failure, and leaves a state either way. A run *keeps* what
`view` shows of the state if the state that it leaves shows the same, however it ends (`Keeps`); with
`id` for the view it only reads. It *maintains* what holds of the state it leaves whenever it held of
the state before (`Maintains`). A run is *atomic* if a failure leaves the state as it was
(`Atomic`): what looks first and changes last is atomic (`Atomic.after`, `Atomic.before`). A run
*avoids* some failures in a state if it does not end in one of them there (`Avoids`). Before all that
stands what the checked steps come to when there is nothing wrong with them. -/

namespace WasiSandbox

/-! ### Checked steps -/

namespace Checked

variable {a b start stop : Nat} {buffer data : Bytes}

/-- A result comes from both steps. -/
theorem bind_eq_ok {ε α β : Type} {x : Except ε α} {f : α → Except ε β} {r : β}
    (h : (x >>= f) = .ok r) : ∃ a, x = .ok a ∧ f a = .ok r := by
  cases x with
  | ok a => exact ⟨a, rfl, h⟩
  | error d => cases h

theorem add_eq (h : a + b < UInt64.size) : add 64 a b = .ok (a + b) := if_pos h

theorem add_ok {width c : Nat} (h : add width a b = .ok c) : c = a + b := by
  unfold add at h
  split at h <;> cases h
  rfl

theorem add_lt {c : Nat} (h : add 64 a b = .ok c) : a + b < UInt64.size := by
  unfold add at h
  split at h
  · assumption
  · cases h

theorem sub_eq (h : b ≤ a) : sub a b = .ok (a - b) := if_pos h

theorem slice_eq (hstart : start ≤ stop) (hstop : stop ≤ buffer.length) :
    slice buffer start stop = .ok ((buffer.drop start).take (stop - start)) :=
  if_pos ⟨hstart, hstop⟩

theorem paste_eq (hstart : start ≤ stop) (hstop : stop ≤ buffer.length)
    (hdata : data.length = stop - start) :
    paste buffer start stop data = .ok (buffer.take start ++ data ++ buffer.drop stop) := by
  unfold paste
  rw [if_pos ⟨hstart, hstop⟩, if_pos hdata]

end Checked

variable {ε σ τ α β : Type} {x : EStateM ε σ α} {f : α → EStateM ε σ β} {s s' : σ}

/-! ### One run after another -/

theorem run_bind_ok {a : α} (h : x s = .ok a s') : (x >>= f) s = f a s' := by
  show EStateM.bind x f s = _
  unfold EStateM.bind
  rw [h]

theorem run_bind_error {e : ε} (h : x s = .error e s') : (x >>= f) s = .error e s' := by
  show EStateM.bind x f s = _
  unfold EStateM.bind
  rw [h]

theorem run_get_bind (f : σ → EStateM ε σ β) (s : σ) : (get >>= f) s = f s s := rfl

/-- A failure comes from the one or from the other. -/
theorem run_bind_eq_error {e : ε} (h : (x >>= f) s = .error e s') :
    x s = .error e s' ∨ ∃ a s₁, x s = .ok a s₁ ∧ f a s₁ = .error e s' := by
  cases hx : x s with
  | ok a s₁ => exact Or.inr ⟨a, s₁, rfl, by rw [← h, run_bind_ok hx]⟩
  | error e₁ s₁ =>
    rw [run_bind_error hx] at h
    cases h
    exact Or.inl rfl

/-- A result comes from both. -/
theorem run_bind_eq_ok {b : β} (h : (x >>= f) s = .ok b s') :
    ∃ a s₁, x s = .ok a s₁ ∧ f a s₁ = .ok b s' := by
  cases hx : x s with
  | ok a s₁ => exact ⟨a, s₁, rfl, by rw [← h, run_bind_ok hx]⟩
  | error e₁ s₁ =>
    rw [run_bind_error hx] at h
    cases h

/-- What is run at the end in any case leaves a result as it is. -/
theorem run_finally_ok {a : α} {b : β} {y : EStateM ε σ β} {s₁ s₂ : σ} (hx : x s = .ok a s₁)
    (hy : y s₁ = .ok b s₂) : (tryFinally x y) s = .ok a s₂ := by
  have hboth : tryFinally' x (fun _ => y) s = .ok (a, b) s₂ := by
    simp only [tryFinally', hx, hy]
  exact run_bind_ok hboth

/-- It leaves a failure as it is, too. -/
theorem run_finally_error {e : ε} {b : β} {y : EStateM ε σ β} {s₁ s₂ : σ} (hx : x s = .error e s₁)
    (hy : y s₁ = .ok b s₂) : (tryFinally x y) s = .error e s₂ := by
  have hboth : tryFinally' x (fun _ => y) s = .error e s₂ := by
    simp only [tryFinally', hx, hy]
  exact run_bind_error hboth

/-! ### Keeping -/

/-- The run has ended in a result. -/
def succeeds : EStateM.Result ε σ α → Bool
  | .ok _ _ => true
  | .error _ _ => false

/-- The state that is left. -/
def left : EStateM.Result ε σ α → σ
  | .ok _ s => s
  | .error _ s => s

/-- What each of two runs keeps up, both of them do. -/
theorem left_bind {p : σ → Prop} (hx : p (left (x s))) (hf : ∀ a s₁, p s₁ → p (left (f a s₁))) :
    p (left ((x >>= f) s)) := by
  cases h : x s with
  | ok a s₁ =>
    rw [h] at hx
    rw [run_bind_ok h]
    exact hf a s₁ hx
  | error e s₁ =>
    rw [h] at hx
    rwa [run_bind_error h]

theorem left_map (g : α → β) : left ((g <$> x) s) = left (x s) := by
  show left (EStateM.map g x s) = _
  unfold EStateM.map
  cases x s <;> rfl

theorem left_discard (x : EStateM ε σ α) (s : σ) : left ((discard x : EStateM ε σ PUnit) s) = left (x s) :=
  left_map _

/-- The view of the state is the same before and after. -/
def Keeps (view : σ → τ) (x : EStateM ε σ α) : Prop := ∀ s, view (left (x s)) = view s

section Keeps

variable {view : σ → τ}

theorem Keeps.ok (h : Keeps view x) {a : α} (hx : x s = .ok a s') : view s' = view s := by
  have hs := h s
  rwa [hx] at hs

theorem Keeps.error (h : Keeps view x) {e : ε} (hx : x s = .error e s') : view s' = view s := by
  have hs := h s
  rwa [hx] at hs

theorem keeps_pure (a : α) : Keeps view (pure a : EStateM ε σ α) := fun _ => rfl

theorem keeps_throw (e : ε) : Keeps view (throw e : EStateM ε σ α) := fun _ => rfl

theorem keeps_get : Keeps view (get : EStateM ε σ σ) := fun _ => rfl

theorem keeps_bind (hx : Keeps view x) (hf : ∀ a, Keeps view (f a)) : Keeps view (x >>= f) := by
  intro s
  cases h : x s with
  | ok a s₁ => rw [run_bind_ok h, hf a s₁, hx.ok h]
  | error e s₁ => rw [run_bind_error h]; exact hx.error h

theorem keeps_ite {c : Prop} [Decidable c] {y : EStateM ε σ α} (hx : Keeps view x)
    (hy : Keeps view y) : Keeps view (if c then x else y) := by
  split
  · exact hx
  · exact hy

theorem Keeps.discard (hx : Keeps view x) : Keeps view (discard x) := fun s =>
  (congrArg view (left_discard x s)).trans (hx s)

theorem keeps_foldlM {f : α → β → EStateM ε σ α} (hf : ∀ a b, Keeps view (f a b)) (bs : List β)
    (a : α) : Keeps view (bs.foldlM f a) := by
  induction bs generalizing a with
  | nil => exact keeps_pure a
  | cons b bs ih => exact keeps_bind (hf a b) ih

theorem keeps_forM {f : α → EStateM ε σ PUnit} (hf : ∀ a, Keeps view (f a)) (as : List α) :
    Keeps view (as.forM f) := by
  induction as with
  | nil => exact keeps_pure _
  | cons a as ih => exact keeps_bind (hf a) fun _ => ih

/-- What only reads keeps whatever there is to see. -/
theorem Keeps.of_id (h : Keeps id x) : Keeps view x := fun s => congrArg view (h s)

end Keeps

/-! ### Maintaining -/

/-- What holds before the run holds after it, however it ends. -/
def Maintains (p : σ → Prop) (x : EStateM ε σ α) : Prop := ∀ s, p s → p (left (x s))

section Maintains

variable {p : σ → Prop}

theorem Keeps.maintains {p : τ → Prop} {view : σ → τ} (h : Keeps view x) :
    Maintains (fun s => p (view s)) x := by
  intro s hs
  rw [h s]
  exact hs

theorem maintains_bind (hx : Maintains p x) (hf : ∀ a, Maintains p (f a)) : Maintains p (x >>= f) :=
  fun s hs => left_bind (hx s hs) fun a s₁ hs₁ => hf a s₁ hs₁

theorem maintains_foldlM {f : α → β → EStateM ε σ α} (hf : ∀ a b, Maintains p (f a b)) (bs : List β)
    (a : α) : Maintains p (bs.foldlM f a) := by
  induction bs generalizing a with
  | nil => exact fun s hs => hs
  | cons b bs ih => exact maintains_bind (hf a b) ih

theorem maintains_forM {f : α → EStateM ε σ PUnit} (hf : ∀ a, Maintains p (f a)) (as : List α) :
    Maintains p (as.forM f) := by
  induction as with
  | nil => exact fun s hs => hs
  | cons a as ih => exact maintains_bind (hf a) fun _ => ih

theorem Maintains.discard (hx : Maintains p x) : Maintains p (discard x) := fun s hs => by
  rw [left_discard]
  exact hx s hs

end Maintains

/-! ### Failing without a trace -/

/-- If the run fails in this state, it leaves it as it was. -/
def FailsCleanly (x : EStateM ε σ α) (s : σ) : Prop := ∀ e s', x s = .error e s' → s' = s

/-- A failure leaves the state as it was. -/
def Atomic (x : EStateM ε σ α) : Prop := ∀ s, FailsCleanly x s

theorem Keeps.atomic (h : Keeps id x) : Atomic x := fun _ _ _ hx => h.error hx

/-- What leaves no trace when it fails keeps what it keeps when it succeeds. -/
theorem Atomic.keeps {view : σ → τ} (hx : Atomic x)
    (hok : ∀ s a s', x s = .ok a s' → view s' = view s) : Keeps view x := by
  intro s
  cases h : x s with
  | ok a s' => exact hok s a s' h
  | error e s' => exact congrArg view (hx s e s' h)

/-- A run that always has a result. -/
theorem atomic_of_ok (h : ∀ s, ∃ a s', x s = .ok a s') : Atomic x := by
  intro s e s' hx
  obtain ⟨a, s₁, ha⟩ := h s
  rw [ha] at hx
  cases hx

/-- A failure at once. -/
theorem atomic_throw_bind (e : ε) (f : α → EStateM ε σ β) : Atomic (throw e >>= f) := by
  intro s e' s' h
  cases h
  rfl

/-- Looking comes before. -/
theorem Atomic.after (hx : Keeps id x) (hf : ∀ a, Atomic (f a)) : Atomic (x >>= f) := by
  intro s e s' h
  rcases run_bind_eq_error h with hfail | ⟨a, s₁, ha, hfail⟩
  · exact hx.error hfail
  · obtain rfl : s₁ = s := hx.ok ha
    exact hf a s₁ e s' hfail

/-- What has a result whenever it is come to may follow. -/
theorem Atomic.before (hx : Atomic x)
    (hf : ∀ s a s₁, x s = .ok a s₁ → ∃ b s₂, f a s₁ = .ok b s₂) : Atomic (x >>= f) := by
  intro s e s' h
  rcases run_bind_eq_error h with hfail | ⟨a, s₁, ha, hfail⟩
  · exact hx s e s' hfail
  · obtain ⟨b, s₂, hb⟩ := hf s a s₁ ha
    rw [hb] at hfail
    cases hfail

theorem atomic_ite {c : Prop} [Decidable c] {y : EStateM ε σ α} (hx : Atomic x) (hy : Atomic y) :
    Atomic (if c then x else y) := by
  split
  · exact hx
  · exact hy

/-! ### Failures that do not happen -/

/-- The failure is a defect. -/
def Failure.IsDefect {δ : Type} : Failure δ → Prop
  | .reported _ => False
  | .defect _ => True

/-- In this state the run does not end in a bad failure. -/
def Avoids (bad : ε → Prop) (x : EStateM ε σ α) (s : σ) : Prop := ∀ e s', x s = .error e s' → ¬ bad e

section Avoids

variable {bad : ε → Prop}

theorem Avoids.bind (hx : Avoids bad x s) (hf : ∀ a s', x s = .ok a s' → Avoids bad (f a) s') :
    Avoids bad (x >>= f) s := by
  intro e s' h
  rcases run_bind_eq_error h with hfail | ⟨a, s₁, ha, hfail⟩
  · exact hx e s' hfail
  · exact hf a s₁ ha e s' hfail

theorem avoids_of_ok {a : α} (h : x s = .ok a s') : Avoids bad x s := by
  intro e s₁ hfail
  rw [h] at hfail
  cases hfail

theorem avoids_pure (a : α) (s : σ) : Avoids bad (pure a : EStateM ε σ α) s := by
  intro e s' h
  cases h

theorem avoids_throw {e : ε} (he : ¬ bad e) (s : σ) : Avoids bad (throw e : EStateM ε σ α) s := by
  intro e' s' h
  cases h
  exact he

theorem avoids_throw_bind {e : ε} (he : ¬ bad e) (f : α → EStateM ε σ β) (s : σ) :
    Avoids bad (throw e >>= f) s := by
  intro e' s' h
  cases h
  exact he

theorem avoids_get_bind {f : σ → EStateM ε σ β} (hf : Avoids bad (f s) s) :
    Avoids bad (get >>= f) s := hf

theorem avoids_modify (g : σ → σ) (s : σ) : Avoids bad (modify g : EStateM ε σ PUnit) s := by
  intro e s' h
  cases h

theorem avoids_modifyGet (g : σ → α × σ) (s : σ) :
    Avoids bad (modifyGet g : EStateM ε σ α) s := by
  intro e s' h
  cases h

theorem avoids_ite {c : Prop} [Decidable c] {y : EStateM ε σ α} (hx : c → Avoids bad x s)
    (hy : ¬ c → Avoids bad y s) : Avoids bad (if c then x else y) s := by
  split
  · next hc => exact hx hc
  · next hc => exact hy hc

/-- What is only looked at leaves the state for what comes then. -/
theorem Avoids.look (hx : Avoids bad x s) (hk : Keeps id x)
    (hf : ∀ a, x s = .ok a s → Avoids bad (f a) s) : Avoids bad (x >>= f) s := by
  refine hx.bind fun a s' hok => ?_
  obtain rfl : s' = s := hk.ok hok
  exact hf a hok

theorem avoids_foldlM {f : α → β → EStateM ε σ α} (hf : ∀ a b s, Avoids bad (f a b) s) (bs : List β)
    (a : α) (s : σ) : Avoids bad (bs.foldlM f a) s := by
  induction bs generalizing a s with
  | nil => exact avoids_pure a s
  | cons b bs ih => exact (hf a b s).bind fun a' s' _ => ih a' s'

theorem avoids_forM {f : α → EStateM ε σ PUnit} (hf : ∀ a s, Avoids bad (f a) s) (as : List α)
    (s : σ) : Avoids bad (as.forM f) s := by
  induction as generalizing s with
  | nil => exact avoids_pure _ s
  | cons a as ih => exact (hf a s).bind fun _ s' _ => ih s'

theorem Avoids.discard (hx : Avoids bad x s) : Avoids bad (discard x) s := by
  intro e s' h
  cases hrun : x s with
  | ok a s₁ =>
    rw [show Functor.discard x s = EStateM.map _ x s from rfl, EStateM.map, hrun] at h
    cases h
  | error e₁ s₁ =>
    rw [show Functor.discard x s = EStateM.map _ x s from rfl, EStateM.map, hrun] at h
    cases h
    exact hx _ _ hrun

end Avoids

end WasiSandbox
