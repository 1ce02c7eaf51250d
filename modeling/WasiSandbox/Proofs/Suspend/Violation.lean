import WasiSandbox.Proofs.Suspend.Ends
import WasiSandbox.Proofs.Suspend.Stepwise

/-! # A violation ends the drive

What has passed between guest and host is only added to, and once the host has found the protocol
violated nothing more is added: the run that is under way is stopped, with the violation as its
cause (`ViolationStops`). A guest cannot go on behind the call that was refused. -/

namespace WasiSandbox

open GuestM

variable {σ φ α β : Type}

/-- No violation is among the exchanges. -/
def Clean (t : List Exchange) : Prop := ∀ e p, .violated e p ∉ t

theorem Clean.append {t u : List Exchange} (ht : Clean t) (hu : Clean u) : Clean (t ++ u) := by
  intro e p h
  rcases List.mem_append.mp h with h | h
  · exact ht e p h
  · exact hu e p h

/-- The run adds exchanges, without a violation if it has a result; a violation is the cause by
which it is stopped. -/
def ViolationStops (x : GuestM σ α) : Prop := ∀ m,
  x.Ends m (fun _ m' => ∃ new, m'.exchanges = m.exchanges ++ new ∧ Clean new) fun a m' =>
    ∃ new, m'.exchanges = m.exchanges ++ new ∧ ∀ e p, .violated e p ∈ new → a = .protocol e

/-- A step that leaves the exchanges alone. -/
theorem violationStops_silent {x : GuestM σ α} (h : ∀ m, x.Ends m (fun _ m' => m'.exchanges = m.exchanges)
    fun _ m' => m'.exchanges = m.exchanges) : ViolationStops x := fun m =>
  (h m).mono (fun _ _ h => ⟨[], by rw [h, List.append_nil], by simp [Clean]⟩)
    fun _ _ h => ⟨[], by rw [h, List.append_nil], by simp⟩

theorem violationStops_pure (a : α) : ViolationStops (pure a : GuestM σ α) :=
  violationStops_silent fun _ => rfl

theorem violationStops_throw (a : Abort) : ViolationStops (throw a : GuestM σ α) :=
  violationStops_silent fun _ => rfl

theorem violationStops_get : ViolationStops (get : GuestM σ (Machine σ)) :=
  violationStops_silent fun _ => rfl

theorem violationStops_phase : ViolationStops (phase : GuestM σ Phase) := violationStops_silent fun _ => rfl

theorem violationStops_setRegister (f : Register → Register) :
    ViolationStops (setRegister f : GuestM σ Unit) :=
  violationStops_silent fun _ => rfl

theorem violationStops_record {e : Exchange} (h : Clean [e]) : ViolationStops (record e : GuestM σ Unit) :=
  fun _ => ⟨[e], rfl, h⟩

theorem violationStops_violate (e : SuspendError) : ViolationStops (violate e : GuestM σ α) := by
  refine fun m => ⟨[.violated e m.register.phase], rfl, fun e' p h => ?_⟩
  cases List.mem_singleton.mp h
  rfl

theorem violationStops_bind {x : GuestM σ α} {f : α → GuestM σ β} (hx : ViolationStops x)
    (hf : ∀ a, ViolationStops (f a)) :
    ViolationStops (x >>= f) := by
  intro m
  rw [ends_bind]
  refine (hx m).imp fun a m₁ ⟨new, hnew, hclean⟩ => (hf a m₁).mono ?_ ?_
  · rintro _ m₂ ⟨new₂, hnew₂, hclean₂⟩
    exact ⟨new ++ new₂, by rw [hnew₂, hnew, List.append_assoc], hclean.append hclean₂⟩
  · rintro _ m₂ ⟨new₂, hnew₂, hv⟩
    refine ⟨new ++ new₂, by rw [hnew₂, hnew, List.append_assoc], fun e p h => ?_⟩
    rcases List.mem_append.mp h with h | h
    · exact absurd h (hclean e p)
    · exact hv e p h

theorem violationStops_runBody (i : Import) (args : List Value) :
    ViolationStops (i.runBody args : GuestM σ _) := by
  refine violationStops_bind violationStops_phase fun _ =>
    violationStops_bind (violationStops_record (by simp [Clean])) fun _ => ?_
  exact violationStops_silent fun _ => onCaller_ends (fun _ _ => rfl) fun _ _ => rfl

theorem clean_note {e : Exchange} (h : e.isNote = true) : Clean [e] := by
  intro e' p hmem
  rw [← List.mem_singleton.mp hmem] at h
  cases h

/-- All steps are of that kind. -/
theorem violationStops_stepwise (l : Linked σ φ) : l.Stepwise (@ViolationStops σ) where
  done := violationStops_pure
  stop := violationStops_throw
  bind := violationStops_bind
  look := violationStops_get
  setRegister := violationStops_setRegister
  note he := violationStops_record (clean_note he)
  violate := violationStops_violate
  advance _ _ := violationStops_bind violationStops_get fun _ =>
    violationStops_bind (violationStops_record (by simp [Clean])) fun _ =>
    violationStops_silent fun _ => rfl
  runBody _ := violationStops_runBody _
  settle _ := violationStops_silent fun _ => rfl

/-- **A violation ends the drive** that it is found in, as the cause by which it is stopped. -/
theorem violationStops_drive {l : Linked σ φ} {limits : Limits} {entry : EntryPoint} {signature : Signature}
    {params : List Value} : ViolationStops (l.drive limits entry signature params) :=
  (violationStops_stepwise l).drive limits entry params signature

end WasiSandbox
