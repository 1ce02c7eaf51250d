import WasiSandbox.Proofs.Host.Namespace
import WasiSandbox.Proofs.Instance.Chronicle

/-! # Nothing that is written gets lost

What the output streams have handed on by the end of a chronicle is what its deeds have fed to them, from
the moment at which the guest is met (`Linked.Chronicle.fed`). What the body of an import feeds to them is in
its account: for system calls it is what the guest writes, and for imports that were added it is whatever
writes and flushes they come down to (`HostSetup.Accounted`).

A run ends with a flush, so nothing waits then and everything is out (`Instance.start_delivers`). The one
exception is a run whose entry function is missing: it ends before the flush (`Instance.murmur_lost`). -/

namespace WasiSandbox

variable {σ φ : Type} {l : Linked σ φ} {m m' : Machine σ} {deeds : List Deed} {d : Option Deed}

/-! ### What is fed to the streams -/

/-- What the body of an import feeds to a channel. -/
abbrev Account := List Value → Caller → Channel → List Feed

/-- What the deed feeds to the channel, if the imports do as the accounts say. -/
def Deed.feeds (accounts : ImportId → Account) (channel : Channel) : Deed → List Feed
  | ran id args caller => accounts id args caller channel
  | flushed => [.flush]

/-- What all these deeds feed to the channel. -/
def Deed.fed (accounts : ImportId → Account) (deeds : List Deed) (channel : Channel) : List Feed :=
  deeds.flatMap (Deed.feeds accounts channel)

variable {accounts : ImportId → Account}

theorem Deed.fed_append (accounts : ImportId → Account) (deeds more : List Deed) :
    Deed.fed accounts (deeds ++ more) =
      fun channel => Deed.fed accounts deeds channel ++ Deed.fed accounts more channel :=
  funext fun _ => List.flatMap_append

/-- **A step feeds to the streams** what its deed says, and nothing without one. -/
theorem Linked.Does.fed (haccounts : ∀ i ∈ l.imports, i.Heeds (accounts i.id)) (h : l.Does m d m') :
    m.host.Fed (Deed.fed accounts d.toList) m'.host := by
  cases h with
  | runBody hi args =>
    rw [left_runBody]
    have hfed := haccounts _ hi args m.caller
    intro channel
    rw [Deed.fed, Option.toList_some, List.flatMap_singleton]
    exact hfed channel
  | flush => exact m.host.fed_flush
  | advance a vs => exact Host.fed_of_outputs rfl
  | note he => exact Host.fed_of_outputs rfl
  | violate e => exact Host.fed_of_outputs rfl
  | setRegister f => exact Host.fed_of_outputs rfl
  | settle id => exact Host.fed_of_outputs (m.host.outputs_note fun _ => rfl)
  | install h =>
    obtain rfl | ⟨memory, rfl⟩ := install_ok h
    · exact Host.fed_of_outputs rfl
    · exact Host.fed_of_outputs rfl
  | tend h => exact Host.fed_of_outputs (h _)

/-- **The streams have been fed** what the deeds of the chronicle say, in order. -/
theorem Linked.Chronicle.fed (haccounts : ∀ i ∈ l.imports, i.Heeds (accounts i.id))
    (h : l.Chronicle m deeds m') : m.host.Fed (Deed.fed accounts deeds) m'.host := by
  induction h with
  | nil => exact Host.fed_of_outputs rfl
  | snoc _ hd ih =>
    rw [Deed.fed_append]
    exact ih.trans (hd.fed haccounts)

/-! ### Imports and their accounts -/

/-- The accounts of the system calls are theirs, and the other imports do to the streams what their
accounts say: writes and flushes. -/
structure HostSetup.Accounted (s : HostSetup) (accounts : ImportId → Account) : Prop where
  builtins : ∀ p ∈ s.builtins, ∀ i ∈ p.imports, accounts i.id = Syscall.feeds i.id
  providers : ∀ p ∈ s.providers, ∀ i ∈ p.imports, i.Heeds (accounts i.id)
  custom : ∀ i ∈ s.custom, i.Heeds (accounts i.id)

/-- All imports of the host do what their accounts say. -/
theorem HostSetup.Accounted.heeds {s : HostSetup} {h : ComposedHost} (hs : s.Accounted accounts)
    (hbuild : s.build = .ok h) : ∀ i ∈ h.imports, i.Heeds (accounts i.id) := by
  intro i hi
  rcases mem_imports hbuild hi with ⟨p, hp, hip⟩ | ⟨p, hp, hip⟩ | hcustom
  · rw [hs.builtins p hp i hip]
    exact s.builtins_heed p hp i hip
  · exact hs.providers p hp i hip
  · exact hs.custom i hcustom

/-- An import with prepared answers writes nothing. -/
theorem Import.canned_heeds {id : ImportId} (hid : id ≠ Syscall.fdWriteId) (signature : Signature)
    (later : Bool) (answers : List CannedAnswer) :
    (Import.canned id signature later answers).Heeds (Syscall.feeds id) := by
  intro args c
  have hfeeds : Syscall.feeds id args c = fun _ => [] := funext fun _ => if_neg hid
  have hquiet : Keeps (fun c : Caller => c.host.outputs)
      ((Import.canned id signature later answers).body args) := by
    refine keeps_bind keeps_get fun _ => keeps_bind (fun c => c.host.outputs_note fun _ => rfl) fun _ =>
      keeps_ite (keeps_pure _) ?_
    split
    · exact keeps_pure _
    · exact keeps_throw _
  rw [hfeeds]
  exact Host.fed_of_outputs (hquiet c)

/-! ### The end of a run -/

theorem Host.Fed.delivered {h₀ h : Host} {feeds : Channel → List Feed}
    (hfed : h₀.Fed (fun channel => feeds channel ++ [.flush]) h) {channel : Channel}
    (hpending : (h₀.stream channel).pending = []) (hreceived : h₀.received channel = []) :
    (h.stream channel).pending = [] ∧
      String.join (h.received channel) = Feed.decoded [] (feeds channel) := by
  obtain ⟨hstream, hall⟩ := Prod.mk.inj (hfed channel)
  obtain ⟨hnone, hjoin⟩ := (h₀.stream channel).feedAll_flush (feeds channel)
  rw [hstream, hall, hreceived, List.nil_append, hjoin, hpending]
  exact ⟨hnone, rfl⟩

/-- What is kept of standard error is what was handed on. -/
theorem Host.Fed.transcript {h₀ h : Host} {feeds : Channel → List Feed} (hfed : h₀.Fed feeds h)
    (hempty : h₀.table.stderr.transcript = some "") (hreceived : h₀.received .stderr = []) :
    h.table.stderr.handedOn = String.join (h.received .stderr) := by
  obtain ⟨hstream, hall⟩ := Prod.mk.inj (hfed .stderr)
  have htranscript := (h₀.stream .stderr).feedAll_transcript (feeds .stderr)
  rw [← hstream] at htranscript
  show (h.stream .stderr).transcript.getD "" = _
  rw [htranscript, hall, hreceived, List.nil_append]
  show (OutputStream.extended h₀.table.stderr.transcript _).getD "" = _
  rw [hempty]
  simp [OutputStream.extended]

namespace Instance

/-- Nothing that was fed to the streams by the end of the run is lost. -/
structure Delivers (outcome : Except RunError ExitStatus) (i : Instance σ φ)
    (feeds : Channel → List Feed) : Prop where
  /-- Nothing waits. -/
  pending : ∀ channel, (i.machine.host.stream channel).pending = []
  /-- What each channel was handed are all octets, decoded piece by piece, from flush to flush. -/
  received : ∀ channel,
    String.join (i.machine.host.received channel) = Feed.decoded [] (feeds channel)
  /-- So it is the decoding of all of them, unless an earlier flush has cut a character. -/
  whole : ∀ channel, (∀ piece ∈ (Feed.pieces [] (feeds channel)).dropLast, Text.IsWhole piece) →
    String.join (i.machine.host.received channel) = Text.decodeLossy (Feed.written (feeds channel))
  /-- A run that fails tells all that went to standard error. -/
  told : ∀ a text, outcome = .error (.trap a text) →
    text = String.join (i.machine.host.received .stderr)

variable {i : Instance σ φ} {limits : Limits}

/-- A run that fails tells what the transcript holds when it has ended. -/
theorem start_trap {a : Abort} {text : String} (h : (i.start limits).1 = .error (.trap a text)) :
    text = (i.start limits).2.transcript := by
  unfold start at h ⊢
  split
  · next hmissing => rw [hmissing] at h; cases h
  · next entry signature hentry =>
    rw [hentry] at h
    dsimp only at h ⊢
    unfold exitStatus at h
    split at h
    · cases h
    · split at h
      · cases h
      · cases h
        rfl

/-- A run of a guest with the entry function ends with a flush. -/
theorem start_chronicle (i : Instance σ φ) (limits : Limits)
    (hentry : i.linked.guest.exported? i.entry ≠ none) :
    ∃ deeds, i.linked.Chronicle i.machine (deeds ++ [.flushed]) (i.start limits).2.machine := by
  obtain ⟨target, htarget⟩ := Option.ne_none_iff_exists'.mp hentry
  obtain ⟨deeds, hdeeds⟩ := i.driveAndFlush_chronicle limits target.1 target.2 []
  refine ⟨deeds, ?_⟩
  unfold start
  rw [htarget]
  exact hdeeds

/-- An instance that was flushed last has delivered everything. -/
theorem delivers_of_chronicle {h : ComposedHost} {surroundings : Surroundings} {g : Guest σ φ}
    {accounts : ImportId → Account} (hheeds : ∀ i ∈ h.imports, i.Heeds (accounts i.id)) {deeds : List Deed}
    (hi : (⟨g, h.imports⟩ : Linked σ φ).Chronicle (h.newMachine surroundings g) (deeds ++ [.flushed])
      i.machine) {outcome : Except RunError ExitStatus}
    (htrap : ∀ a text, outcome = .error (.trap a text) → text = i.transcript) :
    Delivers outcome i (Deed.fed accounts deeds) := by
  have hfed : (h.initial surroundings).Fed (fun channel => Deed.fed accounts deeds channel ++ [.flush])
      i.machine.host := by
    have hall := hi.fed hheeds
    rwa [Deed.fed_append] at hall
  have hdone : ∀ channel, (i.machine.host.stream channel).pending = [] ∧
      String.join (i.machine.host.received channel) = Feed.decoded [] (Deed.fed accounts deeds channel) :=
    fun channel => hfed.delivered (by cases channel <;> rfl) rfl
  refine ⟨fun channel => (hdone channel).1, fun channel => (hdone channel).2, ?_, ?_⟩
  · intro channel hwhole
    rw [(hdone channel).2, Feed.decoded_eq hwhole, List.nil_append]
  · intro a text htext
    rw [htrap a text htext]
    exact hfed.transcript rfl rfl

/-- **A run delivers everything.** Whatever was done with the instance before, and whichever way the run
ends: if the guest exports the entry function, then by the end nothing waits, and both channels have
been handed all that was ever fed to them, from the beginning of the life of the instance, and so does
the text tell that comes with a failure. If the guest does not, then the run ends at once and leaves all
as it is, and what waits goes on waiting. -/
theorem start_delivers {s : HostSetup} {h : ComposedHost} (hbuild : s.build = .ok h)
    {accounts : ImportId → Account} (haccounts : s.Accounted accounts) {surroundings : Surroundings}
    {first : Limits} {g : Guest σ φ} {i : Instance σ φ}
    (hi : (h.instantiate surroundings first g).1 = .ok i) {ops : List Operation}
    (hops : ∀ op ∈ ops, op.Spares) (limits : Limits) :
    (g.exported? s.entry = none →
      (i.run ops).start limits = (.error (.missingExport s.entry), i.run ops)) ∧
    (g.exported? s.entry ≠ none → ∃ deeds,
      (⟨g, h.imports⟩ : Linked σ φ).Chronicle (h.newMachine surroundings g) (deeds ++ [.flushed])
        ((i.run ops).start limits).2.machine ∧
      ((i.run ops).start limits).2.machine.bodies = deeds.filterMap Deed.body? ∧
      Delivers ((i.run ops).start limits).1 ((i.run ops).start limits).2 (Deed.fed accounts deeds)) := by
  obtain ⟨hlinked, hname, made, hmade⟩ := ComposedHost.instantiate_chronicle hi
  obtain ⟨done, hdone⟩ := i.run_chronicle hops
  have hsetup : h.setup = s := by rw [HostSetup.build_ok hbuild]
  have hrunEntry : (i.run ops).entry = s.entry := by rw [run_entry, hname, hsetup]
  have hrunLinked : (i.run ops).linked = ⟨g, h.imports⟩ := (run_linked i ops).trans hlinked
  refine ⟨fun hmissing => ?_, fun hentry => ?_⟩
  · unfold start
    rw [hrunLinked, hrunEntry, hmissing]
  · obtain ⟨driven, hdriven⟩ := (i.run ops).start_chronicle limits (by rwa [hrunLinked, hrunEntry])
    rw [hrunLinked] at hdriven
    rw [hlinked] at hmade hdone
    have hchronicle := hmade.trans (hdone.trans hdriven)
    rw [← List.append_assoc, ← List.append_assoc] at hchronicle
    have hbodies := hchronicle.bodies
    rw [List.filterMap_append] at hbodies
    exact ⟨made ++ done ++ driven, hchronicle, hbodies.trans (List.append_nil _),
      delivers_of_chronicle (haccounts.heeds hbuild) hchronicle fun _ _ => start_trap⟩

/-- A setup in which every question fails. -/
def unanswered : HostSetup := { custom := [.canned ⟨"env", "ask"⟩ ⟨[], []⟩ false [.failure "no answer"]] }

/-- The host that is built from it. -/
def unansweredHost : ComposedHost := ⟨unanswered, (Provider.offers unanswered.allProviders).map Prod.snd⟩

theorem unanswered_accounted : unanswered.Accounted Syscall.feeds where
  builtins _ _ _ _ := rfl
  providers _ hp := absurd hp List.not_mem_nil
  custom i hi := by
    obtain rfl := List.mem_singleton.mp hi
    exact Import.canned_heeds (by decide) _ _ _

end Instance

/-- A guest whose start code writes three octets to standard output, and whose functions write them to
standard error and ask for something then. -/
def Guest.murmur (exports : List (String × EntryPoint × Signature)) :
    Guest Unit (List (ImportId × List Value)) where
  imports := [(Syscall.fdWriteId, ⟨[.i32, .i32, .i32, .i32], [.i32]⟩), (⟨"env", "ask"⟩, ⟨[], []⟩)]
  foreign? := none
  exports := exports
  controls := []
  hasStart := true
  initial := ⟨(), some ⟨#[16, 0, 0, 0, 3, 0, 0, 0, 0, 0, 0, 0, 0, 0, 0, 0, 97, 98, 99]⟩⟩
  enter
    | .start, _ => [(Syscall.fdWriteId, [.i32 1, .i32 0, .i32 1, .i32 8])]
    | _, _ => [(Syscall.fdWriteId, [.i32 2, .i32 0, .i32 1, .i32 8]), (⟨"env", "ask"⟩, [])]
  resume
    | [], _, s => (.finish [], s)
    | (id, args) :: calls, _, s => (.call id args calls, s)

namespace Instance

/-- A run that fails tells what was written to standard error, and brings out what start code has written
to standard output. -/
theorem murmur_delivers : ∃ i,
    (unansweredHost.instantiate .silent .default
      (.murmur [("_start", .function "_start", ⟨[], []⟩)])).1 = .ok i ∧
    (i.start ⟨10, 1, 1⟩).1 = .error (.trap (.failed "no answer") "abc") ∧
    (i.start ⟨10, 1, 1⟩).2.machine.host.received .stdout = ["abc"] ∧
    ∃ deeds, (i.start ⟨10, 1, 1⟩).2.machine.bodies = deeds.filterMap Deed.body? ∧
      Delivers (i.start ⟨10, 1, 1⟩).1 (i.start ⟨10, 1, 1⟩).2 (Deed.fed Syscall.feeds deeds) := by
  obtain ⟨i, hi, htrap, hstdout⟩ : ∃ i, (unansweredHost.instantiate .silent .default
      (.murmur [("_start", .function "_start", ⟨[], []⟩)])).1 = .ok i ∧
      (i.start ⟨10, 1, 1⟩).1 = .error (.trap (.failed "no answer") "abc") ∧
      (i.start ⟨10, 1, 1⟩).2.machine.host.received .stdout = ["abc"] :=
    ⟨_, rfl, by decide +kernel, by decide +kernel⟩
  obtain ⟨deeds, -, hbodies, hdelivers⟩ := (start_delivers (s := unanswered) rfl unanswered_accounted hi
    (List.forall_mem_nil Operation.Spares) ⟨10, 1, 1⟩).2 (by decide)
  exact ⟨i, hi, htrap, hstdout, deeds, hbodies, hdelivers⟩

/-- **What waits when the entry function is missing gets lost**: start code has written `abc` without a
line feed, and the run that finds no entry function leaves it waiting. -/
theorem murmur_lost : ∃ i,
    (unansweredHost.instantiate .silent .default (.murmur [])).1 = .ok i ∧
    (i.start .default).1 = .error (.missingExport "_start") ∧
    ((i.start .default).2.machine.host.stream .stdout).pending = [97, 98, 99] ∧
    (i.start .default).2.machine.host.received .stdout = [] :=
  ⟨_, rfl, rfl, rfl, rfl⟩

end Instance

end WasiSandbox
