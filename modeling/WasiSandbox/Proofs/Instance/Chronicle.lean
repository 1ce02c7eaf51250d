import WasiSandbox.Proofs.Instance.Life
import WasiSandbox.Proofs.Suspend.RoundTrip
import WasiSandbox.Proofs.Suspend.Stepwise
import WasiSandbox.Proofs.Syscall.Output

/-! # The life of an instance, step by step

The life of an instance is a chronicle of single steps, from the moment at which its guest is met
(`Linked.Does`, `Linked.Chronicle`). The steps that bear on the output streams are its deeds: bodies of imports
that are run, with what they find, and flushes. Every drive adds to the chronicle, whichever way it ends
(`told_stepwise`), and so does every operation (`Instance.run_chronicle`) and the making of the instance
(`ComposedHost.instantiate_chronicle`). The deeds name the bodies that were run, all of them and in order
(`Linked.Chronicle.bodies`). -/

namespace WasiSandbox

open GuestM

variable {σ φ α β : Type}

/-! ### Chronicles -/

/-- What bears on the output streams. -/
inductive Deed where
  /-- The body of an import was run on the arguments, and has found this caller. -/
  | ran (id : ImportId) (args : List Value) (caller : Caller)
  /-- Both streams were flushed. -/
  | flushed

/-- The body that was run. -/
def Deed.body? : Deed → Option (ImportId × List Value)
  | ran id args _ => some (id, args)
  | flushed => none

/-- What the body of an import finds. -/
def Machine.caller (m : Machine σ) : Caller := ⟨m.guest.memory, m.host⟩

/-- **One step** in the life of an instance. -/
inductive Linked.Does (l : Linked σ φ) : Machine σ → Option Deed → Machine σ → Prop
  /-- An activation goes on. -/
  | advance {m : Machine σ} (activation : φ) (results : List Value) :
      Does l m none (left (l.advance activation results m))
  | runBody {m : Machine σ} {i : Import} (hi : i ∈ l.imports) (args : List Value) :
      Does l m (some (.ran i.id args m.caller)) (left (i.runBody args m))
  | note {m : Machine σ} {e : Exchange} (he : e.isNote = true) : Does l m none (m.log e)
  | violate {m : Machine σ} (e : SuspendError) : Does l m none (m.log (.violated e m.register.phase))
  | setRegister {m : Machine σ} (f : Register → Register) :
      Does l m none { m with register := f m.register }
  | settle {m : Machine σ} (id : ImportId) :
      Does l m none { m with host := { m.host with journal := m.host.journal ++ [.settled id] } }
  /-- The guest is prepared for suspension. -/
  | install {m m' : Machine σ} (h : l.install m = .ok () m') : Does l m none m'
  | flush {m : Machine σ} : Does l m (some .flushed) { m with host := m.host.after Host.flush }
  /-- The host is changed past the guest, which does not reach its output streams. -/
  | tend {m : Machine σ} {change : Host → Host} (h : ∀ host, (change host).outputs = host.outputs) :
      Does l m none { m with host := change m.host }

/-- The machine has gone from the one state to the other, with these deeds on the way. -/
inductive Linked.Chronicle (l : Linked σ φ) (m : Machine σ) : List Deed → Machine σ → Prop
  | nil : Chronicle l m [] m
  | snoc {deeds : List Deed} {d : Option Deed} {m₁ m₂ : Machine σ} (h : Chronicle l m deeds m₁)
      (hd : l.Does m₁ d m₂) : Chronicle l m (deeds ++ d.toList) m₂

variable {l : Linked σ φ} {m m' m'' : Machine σ} {deeds more : List Deed} {d : Option Deed}

theorem Linked.Does.chronicle (hd : l.Does m d m') : l.Chronicle m d.toList m' :=
  Linked.Chronicle.nil.snoc hd

theorem Linked.Chronicle.trans (h : l.Chronicle m deeds m') (hmore : l.Chronicle m' more m'') :
    l.Chronicle m (deeds ++ more) m'' := by
  induction hmore with
  | nil => rwa [List.append_nil]
  | snoc _ hd ih =>
    rw [← List.append_assoc]
    exact ih.snoc hd

/-! ### Drives -/

/-- However the run ends, a chronicle tells of it. -/
def Linked.Told (l : Linked σ φ) (x : GuestM σ α) : Prop :=
  ∀ m, ∃ deeds, l.Chronicle m deeds (left (x m))

/-- A run of one step. -/
theorem Linked.Does.told {x : GuestM σ α} (hx : ∀ m, ∃ d, l.Does m d (left (x m))) : l.Told x := by
  intro m
  obtain ⟨d, hd⟩ := hx m
  exact ⟨d.toList, hd.chronicle⟩

theorem told_bind {x : GuestM σ α} {f : α → GuestM σ β} (hx : l.Told x) (hf : ∀ a, l.Told (f a)) :
    l.Told (x >>= f) := by
  intro m
  obtain ⟨deeds, hdeeds⟩ := hx m
  cases hrun : x m with
  | ok a m₁ =>
    rw [hrun] at hdeeds
    rw [run_bind_ok hrun]
    obtain ⟨more, hmore⟩ := hf a m₁
    exact ⟨deeds ++ more, hdeeds.trans hmore⟩
  | error e m₁ =>
    rw [hrun] at hdeeds
    rw [run_bind_error hrun]
    exact ⟨deeds, hdeeds⟩

/-- Chronicles tell of whatever is made of the steps. -/
theorem told_stepwise (l : Linked σ φ) : l.Stepwise (@Linked.Told σ φ · l) where
  done _ _ := ⟨[], .nil⟩
  stop _ _ := ⟨[], .nil⟩
  bind := told_bind
  look _ := ⟨[], .nil⟩
  setRegister f := Linked.Does.told fun _ => ⟨none, .setRegister f⟩
  note he := Linked.Does.told fun _ => ⟨none, .note he⟩
  violate e := Linked.Does.told fun _ => ⟨none, .violate e⟩
  advance a vs := Linked.Does.told fun _ => ⟨none, .advance a vs⟩
  runBody hi args := Linked.Does.told fun m => ⟨some (.ran _ args m.caller), .runBody hi args⟩
  settle id := Linked.Does.told fun _ => ⟨none, .settle id⟩

/-! ### Operations -/

/-- The host is not changed in its output streams past the guest. -/
def Operation.Spares : Operation → Prop
  | .tend change => ∀ host, (change host).outputs = host.outputs
  | _ => True

namespace Instance

variable {i : Instance σ φ} {op : Operation} {ops : List Operation}

theorem driveAndFlush_machine (i : Instance σ φ) (limits : Limits) (entry : EntryPoint)
    (signature : Signature) (params : List Value) :
    (i.driveAndFlush limits entry signature params).2 =
      i.settle (left (i.linked.drive limits entry signature params i.machine)) := by
  cases hdrive : i.linked.drive limits entry signature params i.machine with
  | ok vs m => rw [driveAndFlush_ok (e := ⟨limits, entry, signature, params⟩) hdrive]; rfl
  | error a m => rw [driveAndFlush_error (e := ⟨limits, entry, signature, params⟩) hdrive]; rfl

/-- **A drive is followed by a flush**, whichever way it ends. -/
theorem driveAndFlush_chronicle (i : Instance σ φ) (limits : Limits) (entry : EntryPoint)
    (signature : Signature) (params : List Value) : ∃ deeds, i.linked.Chronicle i.machine
      (deeds ++ [.flushed]) (i.driveAndFlush limits entry signature params).2.machine := by
  obtain ⟨deeds, hdrive⟩ := (told_stepwise i.linked).drive limits entry params signature i.machine
  rw [driveAndFlush_machine]
  exact ⟨deeds, hdrive.snoc .flush⟩

/-- An operation adds to the chronicle. -/
theorem perform_chronicle (i : Instance σ φ) (hop : op.Spares) :
    ∃ deeds, i.linked.Chronicle i.machine deeds (i.perform op).machine := by
  cases op with
  | call limits name params =>
    dsimp only [perform, call]
    cases i.linked.guest.exported? name with
    | none => exact ⟨[], .nil⟩
    | some target =>
      obtain ⟨deeds, hdeeds⟩ := i.driveAndFlush_chronicle limits target.1 target.2 params
      exact ⟨_, hdeeds⟩
  | start limits =>
    dsimp only [perform, start]
    cases i.linked.guest.exported? i.entry with
    | none => exact ⟨[], .nil⟩
    | some target =>
      obtain ⟨deeds, hdeeds⟩ := i.driveAndFlush_chronicle limits target.1 target.2 []
      exact ⟨_, hdeeds⟩
  | tend change => exact ⟨[], (Linked.Does.tend hop).chronicle⟩

/-- So do many. -/
theorem run_chronicle (i : Instance σ φ) (hops : ∀ op ∈ ops, op.Spares) :
    ∃ deeds, i.linked.Chronicle i.machine deeds (i.run ops).machine := by
  induction ops generalizing i with
  | nil => exact ⟨[], .nil⟩
  | cons op ops ih =>
    obtain ⟨hop, hops⟩ := List.forall_mem_cons.mp hops
    obtain ⟨deeds, hdeeds⟩ := i.perform_chronicle hop
    obtain ⟨more, hmore⟩ := ih (i.perform op) hops
    rw [perform_linked] at hmore
    exact ⟨deeds ++ more, hdeeds.trans hmore⟩

theorem perform_entry (i : Instance σ φ) (op : Operation) : (i.perform op).entry = i.entry := by
  rcases perform_cases i op with ⟨-, f, hf⟩ | ⟨e, -, hp⟩
  · rw [hf]; rfl
  · rw [hp, driveAndFlush_machine]; rfl

theorem run_entry (i : Instance σ φ) (ops : List Operation) : (i.run ops).entry = i.entry := by
  induction ops generalizing i with
  | nil => rfl
  | cons op ops ih => exact (ih (i.perform op)).trans (i.perform_entry op)

end Instance

/-! ### From the beginning -/

/-- The machine as the guest is met. -/
def ComposedHost.newMachine (h : ComposedHost) (surroundings : Surroundings) (g : Guest σ φ) :
    Machine σ := ⟨g.initial, h.initial surroundings, .new h.setup.suspend, []⟩

/-- Making an instance adds to the chronicle: there may be code that runs first. -/
theorem Linked.instantiate_chronicle {limits : Limits} {strict : Bool}
    (h : l.instantiate limits strict m = .ok () m') : ∃ deeds, l.Chronicle m deeds m' := by
  have hsteps := told_stepwise l
  have hstart : l.Told (do if l.guest.hasStart then let _ ← l.invoke limits .start [] : GuestM σ Unit) :=
    hsteps.ite (hsteps.bind (hsteps.invoke limits .start []) fun _ => hsteps.done ()) (hsteps.done ())
  obtain ⟨deeds, hdeeds⟩ := hstart m
  unfold instantiate at h
  dsimp only at h
  split at h
  · cases h
  · split at h
    · cases h
    · split at h
      · cases h
      · split at h
        · cases h
        · next m₁ hrun =>
          rw [hrun] at hdeeds
          split at h
          · cases h
          · next m₂ hinst =>
            cases h
            exact ⟨deeds, List.append_nil deeds ▸ hdeeds.snoc (.install hinst)⟩

theorem ComposedHost.instantiate_chronicle {h : ComposedHost} {surroundings : Surroundings}
    {limits : Limits} {g : Guest σ φ} {i : Instance σ φ}
    (hi : (h.instantiate surroundings limits g).1 = .ok i) :
    i.linked = ⟨g, h.imports⟩ ∧ i.entry = h.setup.entry ∧
      ∃ deeds, i.linked.Chronicle (h.newMachine surroundings g) deeds i.machine := by
  unfold ComposedHost.instantiate at hi
  dsimp only at hi
  split at hi
  · next m hm =>
    cases hi
    exact ⟨rfl, rfl, Linked.instantiate_chronicle hm⟩
  · cases hi

/-! ### The bodies that were run -/

theorem left_onCaller (op : ImportM α) (m : Machine σ) :
    left (Import.onCaller op m) = m.withCaller (left (op m.caller)) := by
  unfold Import.onCaller Machine.caller
  cases op ⟨m.guest.memory, m.host⟩ <;> rfl

theorem left_runBody (i : Import) (args : List Value) (m : Machine σ) : left (i.runBody args m) =
    (m.log (.ran i.id args m.register.phase)).withCaller (left (i.body args m.caller)) :=
  left_onCaller (i.body args) (m.log (.ran i.id args m.register.phase))

theorem Machine.bodies_log (m : Machine σ) (e : Exchange) :
    (m.log e).bodies = m.bodies ++ e.ran?.toList := by
  unfold Machine.bodies
  rw [Machine.log_exchanges, List.filterMap_append]
  cases h : e.ran? with
  | none => rw [List.filterMap_cons_none h]; rfl
  | some body => rw [List.filterMap_cons_some h]; rfl

theorem ran?_of_isNote {e : Exchange} (he : e.isNote = true) : e.ran? = none := by
  cases e <;> first | rfl | cases he

/-- The step runs the body that its deed names, and no other. -/
theorem Linked.Does.bodies (h : l.Does m d m') :
    m'.bodies = m.bodies ++ d.toList.filterMap Deed.body? := by
  cases h with
  | runBody hi args =>
    rw [left_runBody]
    exact m.bodies_log _
  | advance a vs => exact m.bodies_log _
  | note he =>
    rw [m.bodies_log, ran?_of_isNote he]
    rfl
  | violate e => exact m.bodies_log _
  | install h =>
    obtain rfl | ⟨memory, rfl⟩ := install_ok h
    · exact (List.append_nil _).symm
    · exact (List.append_nil _).symm
  | setRegister f => exact (List.append_nil _).symm
  | settle id => exact (List.append_nil _).symm
  | flush => exact (List.append_nil _).symm
  | tend h => exact (List.append_nil _).symm

/-- **The deeds name all bodies** that were run, in order. -/
theorem Linked.Chronicle.bodies (h : l.Chronicle m deeds m') :
    m'.bodies = m.bodies ++ deeds.filterMap Deed.body? := by
  induction h with
  | nil => exact (List.append_nil _).symm
  | snoc _ hd ih => rw [hd.bodies, ih, List.filterMap_append, List.append_assoc]

end WasiSandbox
