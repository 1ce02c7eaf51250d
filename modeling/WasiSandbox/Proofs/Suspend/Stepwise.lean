import WasiSandbox.Suspend.Drive

/-! # What drives are made of

A run of the guest is made of few kinds of steps: an activation goes on, the body of an import is run, an
exchange is noted, the register is changed. A property of runs that these steps have and that passes from
two runs to the one behind the other is a property of everything that is put together from them, up to a
whole drive (`Linked.Stepwise.drive`). -/

namespace WasiSandbox

/-- Exchanges that only keep record: nothing of the guest was run, and nothing was refused. -/
def Exchange.isNote : Exchange → Bool
  | .entered .. | .ran .. | .violated .. => false
  | _ => true

variable {σ φ : Type}

/-- A property of runs that single steps have, and a run behind another if both have it. -/
structure GuestM.Stepwise (P : ∀ ⦃α : Type⦄, GuestM σ α → Prop) : Prop where
  done {α : Type} (a : α) : P (pure a : GuestM σ α)
  stop {α : Type} (a : Abort) : P (throw a : GuestM σ α)
  bind {α β : Type} {x : GuestM σ α} {f : α → GuestM σ β} (hx : P x) (hf : ∀ a, P (f a)) : P (x >>= f)
  look : P (get : GuestM σ (Machine σ))
  setRegister (f : Register → Register) : P (GuestM.setRegister f)
  note {e : Exchange} (he : e.isNote = true) : P (GuestM.record e)
  violate {α : Type} (e : SuspendError) : P (GuestM.violate e : GuestM σ α)

/-- Such a property, for the runs of a guest with its imports. -/
structure Linked.Stepwise (l : Linked σ φ) (P : ∀ ⦃α : Type⦄, GuestM σ α → Prop) : Prop
    extends GuestM.Stepwise P where
  advance (activation : φ) (results : List Value) : P (l.advance activation results)
  runBody {i : Import} (hi : i ∈ l.imports) (args : List Value) : P (i.runBody args)
  settle (id : ImportId) : P (modify fun m : Machine σ =>
    { m with host := { m.host with journal := m.host.journal ++ [.settled id] } })

theorem Linked.mem_of_import? {l : Linked σ φ} {id : ImportId} {i : Import} (h : l.import? id = some i) :
    i ∈ l.imports :=
  List.mem_of_find?_eq_some h

variable {P : ∀ ⦃α : Type⦄, GuestM σ α → Prop}

namespace GuestM.Stepwise

variable {α : Type}

theorem ite (_ : Stepwise P) {c : Prop} [Decidable c] {x y : GuestM σ α} (hx : P x) (hy : P y) :
    P (if c then x else y) := by
  split
  · exact hx
  · exact hy

variable (h : Stepwise P)

include h

theorem phase : P (GuestM.phase : GuestM σ Phase) := h.bind h.look fun _ => h.done _

theorem requirePhase (p : Phase) : P (GuestM.requirePhase p : GuestM σ Unit) :=
  h.bind h.phase fun _ => h.ite (h.done _) (h.violate _)

theorem requireInstrumented (e : SuspendError) : P (GuestM.requireInstrumented e : GuestM σ Unit) :=
  h.bind h.look fun _ => h.ite (h.done _) (h.violate _)

theorem takePending : P (GuestM.takePending : GuestM σ (Option Pending)) :=
  h.bind h.look fun _ => h.bind (h.setRegister _) fun _ => h.done _

theorem takeSettled : P (GuestM.takeSettled : GuestM σ (Option Settled)) :=
  h.bind h.look fun _ => h.bind (h.setRegister _) fun _ => h.done _

theorem dataArg : P (GuestM.dataArg : GuestM σ (List Value)) := h.bind h.look fun _ => h.done _

theorem ofResult (r : Except Abort (List Value)) : P (GuestM.ofResult r : GuestM σ (List Value)) := by
  unfold GuestM.ofResult
  split
  · exact h.done _
  · exact h.stop _

theorem deliver (i : Import) (vs : List Value) : P (i.deliver vs : GuestM σ (List Value)) :=
  h.ite (h.done _) (h.violate _)

variable {control : Control → List Value → GuestM σ Unit} (hc : ∀ c args, P (control c args))

include hc

theorem rewound (i : Import) : P (i.rewound control) := by
  refine h.bind (h.requireInstrumented _) fun _ => h.bind (hc _ _) fun _ =>
    h.bind (h.setRegister _) fun _ => h.bind h.takeSettled fun s => ?_
  split
  · exact h.violate _
  · exact h.ite (h.bind (h.note rfl) fun _ => h.ofResult _) (h.violate _)

theorem suspend (i : Import) (work : Future) : P (i.suspend control work) :=
  h.bind (h.requireInstrumented _) fun _ => h.bind h.look fun _ => h.ite (h.violate _)
    (h.bind h.look fun _ => h.bind (h.setRegister _) fun _ => h.bind (h.note rfl) fun _ =>
      h.bind h.dataArg fun _ => h.bind (hc _ _) fun _ => h.done _)

end GuestM.Stepwise

namespace Linked.Stepwise

variable {l : Linked σ φ} (h : l.Stepwise P)

include h

section Calls

variable {control : Control → List Value → GuestM σ Unit} (hc : ∀ c args, P (control c args))

include hc

theorem answer {i : Import} (hi : i ∈ l.imports) (args : List Value) : P (i.answer control args) := by
  refine h.bind h.look fun m => h.bind (h.note rfl) fun _ => ?_
  split
  · exact h.bind (h.rewound hc i) fun _ => h.deliver i _
  · exact h.violate _
  · refine h.bind (h.runBody hi args) fun o => ?_
    cases o with
    | ready vs => exact h.deliver i vs
    | pending work => exact h.suspend hc i work

theorem runWith : ∀ (moves : Nat) (a : φ) (vs : List Value), P (l.runWith control moves a vs)
  | 0, _, _ => h.stop _
  | moves + 1, a, vs => by
    refine h.bind (h.advance a vs) fun move => ?_
    cases move with
    | finish vs => exact h.done vs
    | trap cause => exact h.stop cause
    | call id args waiting =>
      dsimp only
      split
      · exact h.stop _
      · next hi =>
        refine h.bind (h.answer hc (mem_of_import? hi) args) fun vs => ?_
        refine h.bind (h.ite (h.done _) (h.stop _)) fun vs => ?_
        exact h.bind (h.note rfl) fun _ => runWith moves waiting vs

end Calls

theorem controlAt (moves : Nat) :
    ∀ (depth : Nat) (c : Control) (args : List Value), P (l.controlAt moves depth c args)
  | 0, _, _ => h.stop _
  | depth + 1, _, _ => h.bind (h.note rfl) fun _ =>
    h.bind (h.runWith (controlAt moves depth) moves _ _) fun _ => h.done _

variable (limits : Limits) (entry : EntryPoint) (params : List Value)

theorem invoke : P (l.invoke limits entry params) := h.runWith (h.controlAt _ _) _ _ _

theorem turnAround : P (l.turnAround limits) := by
  refine h.bind (h.requireInstrumented _) fun _ => h.bind (h.controlAt _ _ _ _) fun _ =>
    h.bind h.takePending fun p => ?_
  cases p with
  | none => exact h.violate _
  | some p =>
    exact h.bind (h.note rfl) fun _ => h.bind (h.settle _) fun _ => h.bind (h.setRegister _) fun _ =>
      h.bind h.dataArg fun _ => h.controlAt _ _ _ _

theorem drain : ∀ (suspensions : Nat) (vs : List Value), P (l.drain limits entry params suspensions vs)
  | 0, _ => h.bind h.phase fun _ => h.ite (h.stop _) (h.done _)
  | suspensions + 1, _ => h.bind h.phase fun _ => h.ite
    (h.bind (h.turnAround limits) fun _ => h.bind (h.invoke limits entry params) fun vs =>
      drain suspensions vs) (h.done _)

theorem askState : P (l.askState limits) :=
  h.bind h.look fun _ => h.ite (h.controlAt _ _ _ _) (h.done _)

/-- **A whole drive** has every property that the steps have. -/
theorem drive (signature : Signature) : P (l.drive limits entry signature params) :=
  h.bind (h.requirePhase _) fun _ => h.ite
    (h.bind (h.invoke limits entry params) fun vs => h.bind (h.drain limits entry params _ vs) fun vs =>
      h.bind (h.requirePhase _) fun _ => h.bind (h.askState limits) fun _ => h.done vs) (h.stop _)

end Linked.Stepwise

end WasiSandbox
