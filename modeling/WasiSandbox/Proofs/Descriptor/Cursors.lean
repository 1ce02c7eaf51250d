import WasiSandbox.Proofs.Descriptor.Bounds
import WasiSandbox.Proofs.Descriptor.Relative

/-! # Sizes and cursors over whole runs

Whatever the guest and the owner of the tree do in turn, no file is over the largest size and no cursor
is beyond the offsets that can be expressed or, on standard input, beyond its end, as long as no file
comes in that is too large (`Bounded`). So no read and no write meets a number that does not fit its word,
and a seek fails only where the place that is asked for cannot be expressed (`runShared_inBounds`). -/

namespace WasiSandbox

/-- The contents that come with the step to be those of files. -/
def HostStep.brings : HostStep → List Bytes
  | .guest _ | .other _ => []
  | .owner change => change.val.brings

namespace FileTree

variable {t : FileTree} {q : List String} {content : Bytes}

theorem Moderate.pathMap (h : t.Moderate) (hq : t.pathMap q = some (.file content)) :
    content.length ≤ Content.maxFileSize := by
  obtain ⟨n, -, hbody⟩ := Option.bind_eq_some_iff.mp hq
  exact h n content (content?_eq_some_iff.mpr hbody)

end FileTree

namespace Host

variable {h h' : Host} {fd : Nat} {d : Descriptor} {path : String} {n : NodeId} {offset : Int}
  {whence : Whence}

/-! ### Where a seek goes -/

/-- The place in the file from which a seek counts. -/
def seekBase (h : Host) (d : Descriptor) (n : NodeId) : Whence → Nat
  | .set => 0
  | .cur => d.cursor
  | .endOfFile => h.tree.size n

/-- It can be expressed if the cursor and the size of the file can. -/
theorem seekBase_le (hcursor : d.cursor ≤ maxOffset) (hsize : h.tree.size n ≤ maxOffset)
    (whence : Whence) : h.seekBase d n whence ≤ maxOffset := by
  cases whence with
  | set => exact Nat.zero_le _
  | cur => exact hcursor
  | endOfFile => exact hsize

/-- Whether a place can be expressed depends on the place alone, if what it is counted from can be. -/
theorem seekTarget_eq {base : Nat} (hbase : base ≤ maxOffset) (offset : Int) :
    seekTarget base offset =
      if 0 ≤ base + offset ∧ base + offset ≤ maxOffset then some (base + offset).toNat else none := by
  unfold seekTarget
  rw [if_neg (Nat.not_lt.mpr hbase)]
  split
  · rw [if_neg (by omega)]
  · split
    · rw [if_neg (by omega)]
    · rw [if_pos (by omega)]

/-- **A seek on a file that is there**, when what it counts from can be expressed. -/
theorem seek_run (hget : h.table.get? fd = some d) (htarget : d.target = .file path n)
    (hn : h.tree.alive n = true) (hbase : h.seekBase d n whence ≤ maxOffset) :
    seek fd offset whence h =
      if 0 ≤ h.seekBase d n whence + offset ∧ h.seekBase d n whence + offset ≤ maxOffset then
        .ok (h.seekBase d n whence + offset).toNat { h with
          table := h.table.put fd { d with cursor := (h.seekBase d n whence + offset).toNat } }
      else .error (.reported .inval) h := by
  obtain ⟨target, cursor, rights, inheriting, flags⟩ := d
  cases htarget
  unfold seek
  rw [run_bind_ok (descriptor_run hget)]
  dsimp only
  rw [run_bind_ok (requireAlive_run hn), run_get_bind]
  cases whence
  all_goals
    have htarget := seekTarget_eq hbase offset
    unfold seekBase at htarget ⊢
    dsimp only at htarget ⊢
    rw [pure_bind, htarget]
    split <;> rfl

/-! ### The bounds -/

/-- Behind the descriptor is what it was opened on, and its cursor has not moved unless it is one of the
input or of a file. -/
structure Backed (h : Host) (d : Descriptor) : Prop where
  kind : ∀ path n kind, d.target.node? = some (path, n, kind) → h.tree.kind? n = some kind
  still : d.target ≠ .stdin → (∀ path n, d.target ≠ .file path n) → d.cursor = 0

/-- The host is in its bounds, with the files that are in the tree no more and with the descriptors that
nothing is read through. -/
structure Bounded (h : Host) : Prop extends Fits h where
  counted : h.Counted
  moderate : h.tree.Moderate
  short : h.table.stdin.length ≤ maxOffset
  backed : ∀ fd d, h.table.get? fd = some d → h.Backed d

/-- Behind a descriptor on a file is a file. -/
theorem Backed.file (hd : h.Backed d) (htarget : d.target = .file path n) :
    ∃ content, h.tree.content? n = some content :=
  FileTree.kind?_file_iff.mp (hd.kind path n .file (by rw [htarget]; rfl))

theorem backed_new {t : FileTree} (ht : t.WellFormed) {stdin : Bytes} {surroundings : Surroundings}
    (hget : (Host.new t stdin surroundings).table.get? fd = some d) :
    (Host.new t stdin surroundings).Backed d := by
  obtain ⟨hcursor, hroot⟩ := DescriptorTable.get?_new hget
  refine ⟨fun path n kind hnode => ?_, fun _ _ => hcursor⟩
  cases hroot _ hnode
  exact FileTree.isDirectory_iff_kind?.mp ht.root_isDirectory

theorem bounded_new {t : FileTree} (ht : t.Counted [t.root]) (hfiles : t.Moderate) {stdin : Bytes}
    (hstdin : stdin.length ≤ maxOffset) (surroundings : Surroundings) :
    Bounded (.new t stdin surroundings) where
  toFits := fits_new ht (fun _ _ hq => hfiles.pathMap hq) (Nat.lt_of_le_of_lt hstdin (by decide))
    surroundings
  counted := ht
  moderate := hfiles
  short := hstdin
  backed _ _ := backed_new ht.toWellFormed

/-- A cursor moves only where something is read or written. -/
theorem Backed.lands (hd : h.Backed d) {d' : Descriptor} (htarget : d'.target = d.target)
    (hlands : h.Lands d d'.cursor) : h.Backed d' where
  kind path n kind hnode := hd.kind path n kind (by rwa [← htarget])
  still hin hfile := by
    rw [htarget] at hin hfile
    rcases hlands with hsame | hend
    · rw [hsame]
      exact hd.still hin hfile
    · cases hmoves : d.target with
      | stdin => exact absurd hmoves hin
      | file path n => exact absurd hmoves (hfile path n)
      | stdout | stderr | directory =>
        rw [hmoves] at hend
        cases hend

/-- What is behind a descriptor stays so where nodes stay of their kinds. -/
theorem Backed.withTree (hd : h.Backed d)
    (hkinds : ∀ {n kind}, h.tree.kind? n = some kind → h'.tree.kind? n = some kind) : h'.Backed d where
  kind path n kind hnode := hkinds (hd.kind path n kind hnode)
  still := hd.still

/-- It stays so whatever is done to the tree in place. -/
theorem Backed.edits (hd : h.Backed d) {brought : List Bytes}
    (hedits : FileTree.Edits brought h.tree h'.tree) : h'.Backed d := hd.withTree hedits.kind?

theorem Change.stdin_eq (hc : Change h h') : h'.table.stdin = h.table.stdin := by
  cases hc with
  | aside _ _ _ hstdin => exact hstdin
  | made | filled | opened | updated | closed => rfl

/-- A descriptor after a change was there before, or something is behind it now. -/
theorem Change.backed (hc : Change h h') (hb : ∀ fd d, h.table.get? fd = some d → h.Backed d)
    (hget : h'.table.get? fd = some d) : h'.Backed d := by
  have hedits := hc.edits
  cases hc with
  | aside htree _ hslots =>
    rw [DescriptorTable.get?, hslots] at hget
    exact (hb fd d hget).edits hedits
  | made | filled => exact (hb fd d hget).edits hedits
  | @opened dirfd path full n kind d' _ _ hkind hnode hcursor =>
    rw [DescriptorTable.get?_put] at hget
    split at hget
    · cases hget
      refine ⟨fun path n kind hnode' => ?_, fun _ _ => hcursor⟩
      cases hnode.symm.trans hnode'
      exact hkind
    · exact (hb fd d hget).edits hedits
  | updated hget' htarget hlands =>
    rw [DescriptorTable.get?_put] at hget
    split at hget
    · cases hget
      exact ((hb _ _ hget').lands htarget hlands).edits hedits
    · exact (hb fd d hget).edits hedits
  | closed =>
    rw [DescriptorTable.get?_clear] at hget
    split at hget
    · cases hget
    · exact (hb fd d hget).edits hedits

/-- **No change leaves the bounds.** -/
theorem Change.bounded (hc : Change h h') (hb : h.Bounded) : h'.Bounded where
  toFits := hc.fits hb.toFits
  counted := hc.counted_after hb.counted
  moderate := hc.edits.moderate (List.forall_mem_nil _) hb.moderate
  short := by
    rw [hc.stdin_eq]
    exact hb.short
  backed _ _ hget := hc.backed hb.backed hget

/-- Neither does the owner of the tree, who brings nothing that is too large, or anybody else. -/
theorem Bounded.withTree (hb : h.Bounded) {t : FileTree} {kept : List NodeId} {brought : List Bytes}
    (hc : Counted { h with tree := t, kept := kept }) (hedits : FileTree.Edits brought h.tree t)
    (hbrought : ∀ content ∈ brought, content.length ≤ Content.maxFileSize) :
    Bounded { h with tree := t, kept := kept } := by
  have hmoderate := hedits.moderate hbrought hb.moderate
  exact
    { hb.toFits.withTree hc.wellFormed hc.length fun _ hcontent => hmoderate _ _ hcontent with
      counted := hc
      moderate := hmoderate
      short := hb.short
      backed := fun fd d hget => (hb.backed fd d hget).edits hedits }

theorem Bounded.take (hb : h.Bounded) {step : HostStep}
    (hstep : ∀ content ∈ step.brings, content.length ≤ Content.maxFileSize) : (h.take step).Bounded := by
  have hc := hb.counted.take step
  cases step with
  | guest op => exact (perform_changes hb.tree op).keeps (fun _ _ hc hb => hc.bounded hb) hb
  | owner change => exact hb.withTree hc (FileTree.perform_edits h.tree change) hstep
  | other act =>
    obtain ⟨strong, kept, heq⟩ := h.take_hold act
    rw [heq] at hc ⊢
    exact hb.withTree hc (FileTree.Edit.recounted strong).edits hstep

theorem Bounded.runShared (hb : h.Bounded) {steps : List HostStep}
    (hsteps : ∀ step ∈ steps, ∀ content ∈ step.brings, content.length ≤ Content.maxFileSize) :
    (h.runShared steps).Bounded := by
  induction steps generalizing h with
  | nil => exact hb
  | cons step steps ih =>
    exact ih (hb.take (hsteps step List.mem_cons_self)) fun step' hmem =>
      hsteps step' (List.mem_cons_of_mem step hmem)

/-! ### What follows from the bounds -/

theorem Bounded.cursor_le (hb : h.Bounded) (hget : h.table.get? fd = some d) : d.cursor ≤ maxOffset := by
  cases htarget : d.target with
  | stdin => exact (hb.inInput fd d hget htarget).trans hb.short
  | file path n => exact hb.inFile fd d path n hget htarget
  | stdout | stderr | directory =>
    rw [(hb.backed fd d hget).still (by simp [htarget]) (by simp [htarget])]
    exact Nat.zero_le _

/-- What a seek counts from can be expressed. -/
theorem Bounded.seekBase_le (hb : h.Bounded) (hget : h.table.get? fd = some d)
    (htarget : d.target = .file path n) (whence : Whence) : h.seekBase d n whence ≤ maxOffset := by
  obtain ⟨content, hcontent⟩ := (hb.backed fd d hget).file htarget
  refine Host.seekBase_le (hb.cursor_le hget) ?_ whence
  rw [FileTree.size_eq_length hcontent]
  exact (hb.moderate n content hcontent).trans (by decide)

/-- Files and cursors are in their bounds, and what counts with them does not go wrong. -/
structure InBounds (h : Host) : Prop where
  files : ∀ n content, h.tree.content? n = some content → content.length ≤ Content.maxFileSize
  cursors : ∀ fd d, h.table.get? fd = some d → d.cursor ≤ maxOffset
  inInput : ∀ fd d, h.table.get? fd = some d → d.target = .stdin → d.cursor ≤ h.table.stdin.length
  /-- No sum that a read forms is too large for its word. -/
  read : ∀ fd length, Avoids Failure.IsDefect (read fd length) h
  /-- No sum that a write forms is too large for its word. -/
  write : ∀ fd data, Avoids Failure.IsDefect (write fd data) h
  /-- A seek on a file that is there succeeds just if the place that is asked for can be expressed. -/
  seek : ∀ fd d path n offset whence, h.table.get? fd = some d → d.target = .file path n →
    h.tree.alive n = true → ((∃ k h', seek fd offset whence h = .ok k h') ↔
      0 ≤ h.seekBase d n whence + offset ∧ h.seekBase d n whence + offset ≤ maxOffset)

theorem Bounded.inBounds (hb : h.Bounded) : h.InBounds where
  files := hb.moderate
  cursors _ _ hget := hb.cursor_le hget
  inInput := hb.inInput
  read fd length := avoids_read (fun e he => absurd he id) (fun hbadf => absurd hbadf id)
    (fun _ _ => hb.toFits) length
  write fd data := avoids_write (fun e he => absurd he id) (fun hbadf => absurd hbadf id) data
  seek fd d path n offset whence hget htarget hn := by
    rw [seek_run hget htarget hn (hb.seekBase_le hget htarget whence)]
    split
    · next hplace => exact ⟨fun _ => hplace, fun _ => ⟨_, _, rfl⟩⟩
    · next hplace => exact ⟨fun ⟨_, _, hok⟩ => (nomatch hok), fun h => absurd h hplace⟩

/-- **Sizes and cursors stay in their bounds** in every run that the guest and the owner of the tree share,
if no file comes in that is over the largest size. The input is one that memory can hold, which is never
longer than the largest offset. -/
theorem runShared_inBounds (treeOps : List TreeOperation) (stdin : Bytes)
    (surroundings : Surroundings) (steps : List HostStep)
    (htree : ∀ op ∈ treeOps, ∀ content ∈ op.brings, content.length ≤ Content.maxFileSize)
    (hstdin : stdin.length ≤ maxOffset)
    (hsteps : ∀ step ∈ steps, ∀ content ∈ step.brings, content.length ≤ Content.maxFileSize) :
    ((Host.new (FileTree.empty.run treeOps) stdin surroundings).runShared steps).InBounds := by
  have hstart := bounded_new (FileTree.counted_empty.run treeOps)
    (FileTree.moderate_empty.run htree) hstdin surroundings
  exact (hstart.runShared hsteps).inBounds

/-- A guest that has moved its cursor as far as it goes in a file that its owner has put there. -/
def farOut : Host :=
  (Host.new (FileTree.empty.run [.addFile "a" [1]]) [2, 3] .silent).runShared
    [.owner ⟨.addFile "b" [4, 5], rfl⟩, .guest (.openPath 3 "b" ⟨0⟩ .all .all ⟨0⟩), .guest (.read 0 1),
      .guest (.seek 4 9223372036854775807 .set), .guest (.write 4 [6]), .guest (.read 4 1)]

theorem farOut_inBounds : farOut.InBounds ∧
    (farOut.table.get? 4).map (·.cursor) = some maxOffset ∧
    (farOut.table.get? 0).map (·.cursor) = some 1 := by
  refine ⟨runShared_inBounds _ _ _ _ (by decide +kernel) (by decide) ?_, by decide +kernel,
    by decide +kernel⟩
  decide +kernel

end Host

end WasiSandbox
