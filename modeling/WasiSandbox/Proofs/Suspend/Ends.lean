import WasiSandbox.Suspend.Drive

/-! # What a run ends in

`x.Ends m Q E` says of a run `x` that starts in the machine `m`: if it has a result, then result and
machine satisfy `Q`; if it is stopped, then the cause and the machine satisfy `E`. The lemmas push
this through the steps that runs are made of, so that a run is taken apart by `simp` in the order in
which it happens, and put together again by the lemmas about the functions that it calls. -/

namespace WasiSandbox

/-- The machine after one more exchange. -/
def Machine.log {σ : Type} (m : Machine σ) (e : Exchange) : Machine σ :=
  { m with exchanges := m.exchanges ++ [e] }

/-- The machine with the memory and the host as an import has left them. -/
def Machine.withCaller {σ : Type} (m : Machine σ) (c : Caller) : Machine σ :=
  { m with guest := { m.guest with memory := c.memory }, host := c.host }

section log

variable {σ : Type} (m : Machine σ) (e : Exchange)

@[simp] theorem Machine.log_guest : (m.log e).guest = m.guest := rfl

@[simp] theorem Machine.log_host : (m.log e).host = m.host := rfl

@[simp] theorem Machine.log_register : (m.log e).register = m.register := rfl

@[simp] theorem Machine.log_exchanges : (m.log e).exchanges = m.exchanges ++ [e] := rfl

end log

namespace GuestM

variable {σ α β : Type} {m : Machine σ} {E : Abort → Machine σ → Prop}

/-- The run ends in a result as `Q` has it, or is stopped as `E` has it. -/
def Ends (x : GuestM σ α) (m : Machine σ) (Q : α → Machine σ → Prop) (E : Abort → Machine σ → Prop) :
    Prop :=
  match x m with
  | .ok a m => Q a m
  | .error e m => E e m

theorem Ends.mono {x : GuestM σ α} {Q Q' : α → Machine σ → Prop} {E' : Abort → Machine σ → Prop}
    (h : x.Ends m Q E) (hQ : ∀ a m, Q a m → Q' a m) (hE : ∀ e m, E e m → E' e m) :
    x.Ends m Q' E' := by
  unfold Ends at h ⊢
  split at h
  · exact hQ _ _ h
  · exact hE _ _ h

/-- Only what the result is used for may change. -/
theorem Ends.imp {x : GuestM σ α} {Q Q' : α → Machine σ → Prop} (h : x.Ends m Q E)
    (hQ : ∀ a m, Q a m → Q' a m) : x.Ends m Q' E :=
  h.mono hQ fun _ _ h => h

theorem Ends.and {x : GuestM σ α} {Q Q' : α → Machine σ → Prop} {E' : Abort → Machine σ → Prop}
    (h : x.Ends m Q E) (h' : x.Ends m Q' E') :
    x.Ends m (fun a m => Q a m ∧ Q' a m) fun e m => E e m ∧ E' e m := by
  unfold Ends at h h' ⊢
  cases hx : x m with
  | ok a m' => rw [hx] at h h'; exact ⟨h, h'⟩
  | error e m' => rw [hx] at h h'; exact ⟨h, h'⟩

/-! ### Steps of a run -/

@[simp] theorem ends_pure {a : α} {Q : α → Machine σ → Prop} :
    (pure a : GuestM σ α).Ends m Q E ↔ Q a m := Iff.rfl

@[simp] theorem ends_bind {x : GuestM σ α} {f : α → GuestM σ β} {Q : β → Machine σ → Prop} :
    (x >>= f).Ends m Q E ↔ x.Ends m (fun a m => (f a).Ends m Q E) E := by
  show (match EStateM.bind x f m with
    | .ok a m => Q a m
    | .error e m => E e m) ↔ _
  unfold Ends EStateM.bind
  cases x m <;> rfl

@[simp] theorem ends_get {Q : Machine σ → Machine σ → Prop} :
    (get : GuestM σ (Machine σ)).Ends m Q E ↔ Q m m := Iff.rfl

@[simp] theorem ends_modify {f : Machine σ → Machine σ} {Q : Unit → Machine σ → Prop} :
    (modify f : GuestM σ Unit).Ends m Q E ↔ Q () (f m) := Iff.rfl

@[simp] theorem ends_ite {c : Prop} [Decidable c] {x y : GuestM σ α} {Q : α → Machine σ → Prop} :
    (if c then x else y).Ends m Q E ↔ (c → x.Ends m Q E) ∧ (¬c → y.Ends m Q E) := by
  by_cases h : c <;> simp [h]

@[simp] theorem ends_phase {Q : Phase → Machine σ → Prop} :
    (phase : GuestM σ Phase).Ends m Q E ↔ Q m.register.phase m := Iff.rfl

@[simp] theorem ends_setRegister {f : Register → Register} {Q : Unit → Machine σ → Prop} :
    (setRegister f : GuestM σ Unit).Ends m Q E ↔ Q () { m with register := f m.register } := Iff.rfl

@[simp] theorem ends_record {e : Exchange} {Q : Unit → Machine σ → Prop} :
    (record e : GuestM σ Unit).Ends m Q E ↔ Q () (m.log e) := Iff.rfl

@[simp] theorem ends_violate {e : SuspendError} {Q : α → Machine σ → Prop} :
    (violate e : GuestM σ α).Ends m Q E ↔
      E (.protocol e) (m.log (.violated e m.register.phase)) := Iff.rfl

@[simp] theorem ends_dataArg {Q : List Value → Machine σ → Prop} :
    (dataArg : GuestM σ (List Value)).Ends m Q E ↔ Q [.i32 m.register.config.data] m := Iff.rfl

@[simp] theorem ends_takePending {Q : Option Pending → Machine σ → Prop} :
    (takePending : GuestM σ (Option Pending)).Ends m Q E ↔
      Q m.register.pending { m with register := { m.register with pending := none } } := Iff.rfl

@[simp] theorem ends_takeSettled {Q : Option Settled → Machine σ → Prop} :
    (takeSettled : GuestM σ (Option Settled)).Ends m Q E ↔
      Q m.register.settled { m with register := { m.register with settled := none } } := Iff.rfl

theorem ends_requirePhase {p : Phase} {Q : Unit → Machine σ → Prop} :
    (requirePhase p : GuestM σ Unit).Ends m Q E ↔
      (m.register.phase = p → Q () m) ∧ (m.register.phase ≠ p →
        E (.protocol (.unexpectedState p m.register.phase))
          (m.log (.violated (.unexpectedState p m.register.phase) m.register.phase))) := by
  unfold requirePhase
  simp

theorem ends_requireInstrumented {e : SuspendError} {Q : Unit → Machine σ → Prop} :
    (requireInstrumented e : GuestM σ Unit).Ends m Q E ↔
      (m.register.instrumented = true → Q () m) ∧ (m.register.instrumented = false →
        E (.protocol e) (m.log (.violated e m.register.phase))) := by
  unfold requireInstrumented
  simp

/-- The body of an import changes the memory and the host, and nothing else. -/
theorem onCaller_ends {op : ImportM α} {Q : α → Machine σ → Prop}
    (hQ : ∀ a c, Q a (m.withCaller c)) (hE : ∀ e c, E e (m.withCaller c)) :
    (Import.onCaller op).Ends m Q E := by
  unfold Import.onCaller Ends
  dsimp only
  cases op ⟨m.guest.memory, m.host⟩ with
  | ok a c => exact hQ a c
  | error e c => exact hE e c

end GuestM

end WasiSandbox
