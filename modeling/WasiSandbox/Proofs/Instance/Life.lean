import WasiSandbox.Import.Canned
import WasiSandbox.Instance.Instantiate
import WasiSandbox.Proofs.Suspend.Contract
import WasiSandbox.Proofs.Suspend.Violation

/-! # The life of an instance

An instance is made and then operated: its functions are called, its entry function is run, and its
host is tended past the guest, in any order and whatever comes of it. All of that keeps to the
protocol of suspension (`Lawful.run`): an operation that drives the guest either finds it at rest,
or is refused and leaves it as it is. -/

namespace WasiSandbox

open GuestM Station

variable {σ φ : Type}

/-- What can be done with an instance. -/
inductive Operation where
  | call (limits : Limits) (name : String) (params : List Value)
  | start (limits : Limits)
  /-- The host is changed past the guest. -/
  | tend (change : Host → Host)

/-- What the guest is driven for. -/
structure Errand where
  limits : Limits
  entry : EntryPoint
  signature : Signature
  params : List Value

/-- What an operation answers. -/
inductive Reply where
  | results (r : Except RunError (List Value))
  | status (r : Except RunError ExitStatus)
  | none

/-- The answer when the drive has ended so. -/
def Operation.answer (outcome : Except Abort (List Value)) (stderr : String) : Operation → Reply
  | .call .. => .results (outcome.mapError fun a => .trap a stderr)
  | .start _ => .status (exitStatus stderr outcome)
  | .tend _ => .none

/-- The host after the operation, whatever has come of it. -/
def Host.after {α : Type} (h : Host) (op : HostM α) : Host :=
  match op h with
  | .ok _ h | .error _ h => h

namespace Instance

/-- The answer to the operation. -/
def reply (i : Instance σ φ) : Operation → Reply
  | .call limits name params => .results (i.call limits name params).1
  | .start limits => .status (i.start limits).1
  | .tend _ => .none

/-- The instance after the operation, whatever has come of it. -/
def perform (i : Instance σ φ) : Operation → Instance σ φ
  | .call limits name params => (i.call limits name params).2
  | .start limits => (i.start limits).2
  | .tend change => { i with machine := { i.machine with host := change i.machine.host } }

/-- The instance after the operations. -/
def run (i : Instance σ φ) (ops : List Operation) : Instance σ φ := ops.foldl perform i

/-- What the operation drives the guest for; nothing if it calls no export. -/
def errand? (i : Instance σ φ) : Operation → Option Errand
  | .call limits name params =>
    (i.linked.guest.exported? name).map fun (entry, s) => ⟨limits, entry, s, params⟩
  | .start limits => (i.linked.guest.exported? i.entry).map fun (entry, s) => ⟨limits, entry, s, []⟩
  | .tend _ => none

/-- How the drive ends that the operation comes to. -/
def outcome? (i : Instance σ φ) (op : Operation) : Option (Except Abort (List Value)) :=
  (i.errand? op).map fun e => (i.driveAndFlush e.limits e.entry e.signature e.params).1

/-- How the drives end that the operations come to. -/
def outcomes (i : Instance σ φ) : List Operation → List (Except Abort (List Value))
  | [] => []
  | op :: ops => (i.outcome? op).toList ++ (i.perform op).outcomes ops

variable {i : Instance σ φ} {op : Operation}

/-! ### One operation -/

/-- The instance on another host. -/
def withHost (i : Instance σ φ) (f : Host) : Instance σ φ :=
  { i with machine := { i.machine with host := f } }

/-- The instance with another machine. -/
def withMachine (i : Instance σ φ) (m : Machine σ) : Instance σ φ := { i with machine := m }

/-- The instance when its guest was driven and its output streams were flushed. -/
def settle (i : Instance σ φ) (m : Machine σ) : Instance σ φ :=
  (i.withMachine m).withHost (m.host.after Host.flush)

theorem onHost_eq {α : Type} (i : Instance σ φ) (op : HostM α) :
    (i.onHost op).2 = i.withHost (i.machine.host.after op) := by
  unfold onHost Host.after
  cases op i.machine.host <;> rfl

theorem driveAndFlush_ok {e : Errand} {vs : List Value} {m : Machine σ}
    (h : i.linked.drive e.limits e.entry e.signature e.params i.machine = .ok vs m) :
    i.driveAndFlush e.limits e.entry e.signature e.params = (.ok vs, i.settle m) := by
  unfold driveAndFlush
  rw [h]
  dsimp only
  rw [onHost_eq]
  rfl

theorem driveAndFlush_error {e : Errand} {a : Abort} {m : Machine σ}
    (h : i.linked.drive e.limits e.entry e.signature e.params i.machine = .error a m) :
    i.driveAndFlush e.limits e.entry e.signature e.params = (.error a, i.settle m) := by
  unfold driveAndFlush
  rw [h]
  dsimp only
  rw [onHost_eq]
  rfl

/-- An operation drives the guest, or only the host can have changed. -/
theorem perform_cases (i : Instance σ φ) (op : Operation) :
    (i.errand? op = none ∧ ∃ f, i.perform op = i.withHost f) ∨
      ∃ e, i.errand? op = some e ∧
        i.perform op = (i.driveAndFlush e.limits e.entry e.signature e.params).2 := by
  cases op with
  | call limits name params =>
    dsimp only [errand?, perform, call]
    cases i.linked.guest.exported? name with
    | none => exact Or.inl ⟨rfl, i.machine.host, rfl⟩
    | some target => exact Or.inr ⟨⟨limits, target.1, target.2, params⟩, rfl, rfl⟩
  | start limits =>
    dsimp only [errand?, perform, start]
    cases i.linked.guest.exported? i.entry with
    | none => exact Or.inl ⟨rfl, i.machine.host, rfl⟩
    | some target => exact Or.inr ⟨⟨limits, target.1, target.2, []⟩, rfl, rfl⟩
  | tend change => exact Or.inl ⟨rfl, _, rfl⟩

theorem perform_eq {e : Errand} (he : i.errand? op = some e) :
    i.perform op = (i.driveAndFlush e.limits e.entry e.signature e.params).2 := by
  rcases perform_cases i op with ⟨hn, -⟩ | ⟨e', he', hp⟩
  · rw [he] at hn; cases hn
  · obtain rfl : e = e' := Option.some.inj (he.symm.trans he')
    exact hp

theorem outcome?_eq {e : Errand} (he : i.errand? op = some e) :
    i.outcome? op = some (i.driveAndFlush e.limits e.entry e.signature e.params).1 := by
  unfold outcome?
  rw [he]
  rfl

/-- **An operation that drives the guest** ends as the drive does. -/
theorem perform_ends {e : Errand} (he : i.errand? op = some e) {Q : List Value → Machine σ → Prop}
    {E : Abort → Machine σ → Prop}
    (h : (i.linked.drive e.limits e.entry e.signature e.params).Ends i.machine Q E) :
    ∃ m, i.perform op = i.settle m ∧ ((∃ vs, i.outcome? op = some (.ok vs) ∧ Q vs m) ∨
      ∃ a, i.outcome? op = some (.error a) ∧ E a m) := by
  have hp := perform_eq he
  have hout := outcome?_eq he
  unfold Ends at h
  cases hd : i.linked.drive e.limits e.entry e.signature e.params i.machine with
  | ok vs m =>
    rw [hd] at h
    rw [driveAndFlush_ok hd] at hp hout
    exact ⟨m, hp, Or.inl ⟨vs, hout, h⟩⟩
  | error a m =>
    rw [hd] at h
    rw [driveAndFlush_error hd] at hp hout
    exact ⟨m, hp, Or.inr ⟨a, hout, h⟩⟩

/-- The answer to an operation tells how its drive has ended, and what the guest has written to
standard error. -/
theorem reply_eq {e : Errand} (he : i.errand? op = some e) :
    i.reply op = op.answer (i.driveAndFlush e.limits e.entry e.signature e.params).1
      (i.perform op).transcript := by
  cases op with
  | call limits name params =>
    dsimp only [errand?, reply, perform, call] at he ⊢
    cases hx : i.linked.guest.exported? name with
    | none => rw [hx] at he; cases he
    | some target => rw [hx] at he; cases he; rfl
  | start limits =>
    dsimp only [errand?, reply, perform, start] at he ⊢
    cases hx : i.linked.guest.exported? i.entry with
    | none => rw [hx] at he; cases he
    | some target => rw [hx] at he; cases he; rfl
  | tend change => rfl

theorem perform_linked (i : Instance σ φ) (op : Operation) : (i.perform op).linked = i.linked := by
  rcases perform_cases i op with ⟨-, f, hf⟩ | ⟨e, he, -⟩
  · rw [hf]; rfl
  · have htrue : (i.linked.drive e.limits e.entry e.signature e.params).Ends i.machine
        (fun _ _ => True) fun _ _ => True := by
      unfold Ends
      split <;> trivial
    obtain ⟨m, hm, -⟩ := perform_ends he htrue
    rw [hm]; rfl

/-! ### Living by the protocol -/

/-- The instance has lived by the protocol, and its control functions call no imports. -/
structure Lawful (i : Instance σ φ) : Prop where
  quiet : i.linked.guest.QuietControls
  done : i.machine.Done i.linked i.isInstrumented

theorem Lawful.at_rest (h : i.Lawful) (hp : i.phase = .normal) :
    i.machine.At i.linked i.isInstrumented rest :=
  h.done.rest hp

/-- All that has passed in the life of the instance is a path of the protocol. -/
theorem Lawful.path (h : i.Lawful) :
    ∃ s, Path i.linked 0 rest i.machine.exchanges i.machine.register.issued s := by
  obtain ⟨s, hs, -⟩ := h.done
  exact ⟨s, hs.path⟩

theorem Lawful.withHost (h : i.Lawful) (f : Host) : (i.withHost f).Lawful := by
  obtain ⟨s, hs, hf⟩ := h.done
  exact ⟨h.quiet, s, hs.withHost f, hf⟩

theorem Lawful.withMachine (h : i.Lawful) {m : Machine σ} (hm : m.Done i.linked i.isInstrumented) :
    (i.withMachine m).Lawful := by
  obtain ⟨s, hs, hf⟩ := hm
  have hb : (i.withMachine m).isInstrumented = i.isInstrumented := hs.instrumented
  exact ⟨h.quiet, s, hb ▸ hs, hf⟩

/-- **An operation** keeps to the protocol. -/
theorem Lawful.perform (h : i.Lawful) (op : Operation) : (i.perform op).Lawful := by
  rcases perform_cases i op with ⟨-, f, hf⟩ | ⟨e, he, -⟩
  · rw [hf]
    exact h.withHost f
  · obtain ⟨m, hi, hm⟩ : ∃ m, i.perform op = i.settle m ∧ m.Done i.linked i.isInstrumented := by
      by_cases hp : i.phase = .normal
      · obtain ⟨m, hi, ⟨vs, -, hm⟩ | ⟨a, -, hm⟩⟩ :=
          perform_ends he (drive_ends h.quiet (h.at_rest hp))
        · exact ⟨m, hi, hm.done trivial⟩
        · exact ⟨m, hi, hm.done⟩
      · obtain ⟨m, hi, ⟨vs, -, hm⟩ | ⟨a, -, -, rfl⟩⟩ := perform_ends he (drive_refused hp)
        · exact hm.elim
        · obtain ⟨s, hs, -⟩ := h.done
          exact ⟨_, hi, (hs.refuse hp).done trivial⟩
    rw [hi]
    exact (h.withMachine hm).withHost _

/-- **A life** keeps to the protocol. -/
theorem Lawful.run (h : i.Lawful) (ops : List Operation) : (i.run ops).Lawful := by
  induction ops generalizing i with
  | nil => exact h
  | cons op ops ih => exact ih (h.perform op)

theorem run_linked (i : Instance σ φ) (ops : List Operation) : (i.run ops).linked = i.linked := by
  induction ops generalizing i with
  | nil => rfl
  | cons op ops ih => exact (ih (i.perform op)).trans (i.perform_linked op)

end Instance

/-! ### A new instance -/

variable {l : Linked σ φ} {m m' : Machine σ}

/-- A guest that is not prepared for suspension can only end at rest. -/
theorem Machine.Open.at_rest (h : m.Open l false) : m.At l false rest := by
  obtain ⟨s, hs, ho⟩ := h
  cases s with
  | rest => exact hs
  | unwinding w => exact absurd hs.fits.2.2.2 (by simp [hs.instrumented])
  | rewinding w => exact absurd hs.fits.2.2.2 (by simp [hs.instrumented])
  | _ => exact ho.elim

/-- The preparation writes to memory and to the register, if there is one. -/
theorem install_ok (h : l.install m = .ok () m') : m' = m ∨ ∃ memory, m' = { m with
    guest := { m.guest with memory := some memory }
    register := { m.register with
      instrumented := true
      reportsState := l.guest.controls.contains .getState } } := by
  unfold Linked.install at h
  by_cases hc : Linked.neededControls.all l.guest.controls.contains = true
  · rw [if_pos hc] at h
    dsimp only [bind, EStateM.bind, get, getThe, MonadStateOf.get, EStateM.get] at h
    cases hmem : m.guest.memory with
    | none => rw [hmem] at h; cases h
    | some memory =>
      rw [hmem] at h
      dsimp only at h
      cases hs : Memory.store m.register.config.data 8 (Linked.stackBounds m.register.config)
        memory with
      | error => rw [hs] at h; cases h
      | ok _ memory =>
        rw [hs] at h
        cases h
        exact Or.inr ⟨memory, rfl⟩
  · rw [if_neg hc] at h
    cases h
    exact Or.inl rfl

/-- The preparation leaves the machine at rest. -/
theorem install_at (hm : m.At l false rest) (h : l.install m = .ok () m') :
    m'.At l m'.register.instrumented rest := by
  obtain rfl | ⟨memory, rfl⟩ := install_ok h
  · exact hm.instrumented.symm ▸ hm
  · exact ⟨hm.path, hm.fits, rfl⟩

/-- The start code and the preparation leave the machine at rest. -/
theorem instantiate_at (hq : l.guest.QuietControls) {limits : Limits} {strict : Bool}
    (hm : m.At l false rest) (h : l.instantiate limits strict m = .ok () m') :
    m'.At l m'.register.instrumented rest := by
  unfold Linked.instantiate at h
  dsimp only at h
  split at h
  · cases h
  · split at h
    · cases h
    · split at h
      · cases h
      · -- The start code runs while the guest is not prepared, so it ends at rest.
        have hstart : (if l.guest.hasStart = true then do
            let _ ← l.invoke limits EntryPoint.start []
            pure () else pure () : GuestM σ Unit).Ends m (fun _ m => m.At l false rest)
            fun _ _ => True := by
          rw [ends_ite]
          refine ⟨fun _ => ?_, fun _ => hm⟩
          rw [ends_bind]
          exact (invoke_ends hq (hm.opened trivial)).mono (fun _ _ hm => hm.at_rest)
            fun _ _ _ => trivial
        unfold Ends at hstart
        split at h
        · cases h
        · next hrun =>
          rw [hrun] at hstart
          split at h
          · cases h
          · next hinst =>
            cases h
            exact install_at hstart hinst

/-- **A new instance** is at rest, and has lived by the protocol. -/
theorem ComposedHost.instantiate_lawful {h : ComposedHost} {surroundings : Surroundings}
    {limits : Limits} {g : Guest σ φ} (hq : g.QuietControls) {i : Instance σ φ}
    (hi : (h.instantiate surroundings limits g).1 = .ok i) :
    i.Lawful ∧ i.phase = .normal ∧ i.linked = ⟨g, h.imports⟩ := by
  unfold ComposedHost.instantiate at hi
  dsimp only at hi
  split at hi
  · next m hm =>
    cases hi
    have hnew : (⟨g.initial, h.initial surroundings, .new h.setup.suspend, []⟩ : Machine σ).At
        ⟨g, h.imports⟩ false rest := ⟨.nil, ⟨rfl, rfl, rfl⟩, rfl⟩
    have hrest := instantiate_at (l := ⟨g, h.imports⟩) hq hnew hm
    exact ⟨⟨hq, hrest.done trivial⟩, hrest.fits.1, rfl⟩
  · cases hi

/-- A host with one import, which leaves work behind each time. -/
def askHost : ComposedHost :=
  ⟨{ entry := "relay" }, [.canned ⟨"env", "ask"⟩ ⟨[.i32], [.i32]⟩ true []]⟩

/-- Calls of a relay, one after the other. -/
def relayedTwice : List Operation :=
  [.call ⟨10, 1, 10⟩ "relay" [.i32 7], .call ⟨10, 1, 10⟩ "relay" [.i32 8]]

/-- How often an import has left work behind. -/
def Machine.suspensions (m : Machine σ) : Nat :=
  m.exchanges.countP fun | .suspended .. => true | _ => false

/-- A relay that can be suspended, linked to the host, and suspended twice by each of two calls. -/
theorem askHost_relay : ∃ i,
    (askHost.instantiate .silent .default (Guest.relay ⟨"env", "ask"⟩ 2).instrument).1 = .ok i ∧
      (i.run relayedTwice).machine.suspensions = 4 :=
  ⟨_, rfl, by decide +kernel⟩

end WasiSandbox
