import WasiSandbox.Proofs.Descriptor.Places
import WasiSandbox.Proofs.Descriptor.Rights

/-! # Handles on files that have been replaced

A handle goes with the file that was at the path when it was opened. When the owner of the tree adds another
file there, the old one is in no directory any more, and nothing brings it back. As long as somebody keeps
it, it goes on being served through the handle (`serves_of_kept`); but if nobody does, nobody ever will, as
there is no path to it (`Counted.not_alive_runShared`). From then on the handle is stale: whatever needs its
file fails and leaves the host as it is, so nothing of the new file comes through it (`Stale`). A handle that
is opened on the path from then on goes with the new file, and with no other (`LeadsTo`). All this holds in
every run that guest and owner share, however many files are added at the path in it (`runShared_stale`). -/

namespace WasiSandbox

theorem DescriptorTarget.eq_file {target : DescriptorTarget} {path : String} {n : NodeId}
    (hnode : target.node? = some (path, n, .file)) : target = .file path n := by
  cases target with
  | stdin | stdout | stderr | directory => cases hnode
  | file =>
    cases hnode
    rfl

namespace Host

variable {h h' : Host} {fd k length offset : Nat} {d : Descriptor} {path : String} {n : NodeId}
  {names : List String} {rights right : Rights} {whence : Whence} {α : Type} {f : Descriptor → HostM α}

/-! ### Handles that are stale -/

/-- What a transfer through a handle with nothing behind it answers. The right is looked at first. -/
def refusal (rights right : Rights) : SysFailure :=
  .reported (if rights.contains right then .badf else .notcapable)

/-- What needs the file behind the handle fails, and leaves the host as it is. -/
structure Stale (h : Host) (fd : Nat) (rights : Rights) : Prop where
  read : ∀ length, read fd length h = .error (refusal rights .fdRead) h
  readAt : ∀ length offset, readAt fd length offset h = .error (refusal rights .fdRead) h
  write : ∀ data, write fd data h = .error (refusal rights .fdWrite) h
  writeAt : ∀ data offset, writeAt fd data offset h = .error (refusal rights .fdWrite) h
  seek : ∀ offset whence, seek fd offset whence h = .error (.reported .badf) h
  filestat : filestat fd h = .error (.reported .badf) h

theorem permitted_refusal (hget : h.table.get? fd = some d)
    (hbadf : f d h = .error (.reported .badf) h) :
    (descriptor fd >>= fun d => requireRight d right >>= fun _ => f d) h =
      .error (refusal d.rights right) h := by
  unfold refusal
  by_cases hright : d.rights.contains right = true
  · rw [permitted_run hget hright, if_pos hright]
    exact hbadf
  · have hmissing : d.rights.contains right = false := Bool.eq_false_iff.mpr hright
    rw [permitted_error hget hmissing, if_neg hright]

/-- A handle on a file that is not alive any more is stale. -/
theorem stale_of_not_alive (hget : h.table.get? fd = some d) (htarget : d.target = .file path n)
    (hn : h.tree.alive n = false) : h.Stale fd d.rights := by
  have hgone : requireAlive n h = .error (.reported .badf) h := requireAlive_error hn
  obtain ⟨target, cursor, rights, inheriting, flags⟩ := d
  cases htarget
  refine ⟨fun length => ?_, fun length offset => ?_, fun data => ?_, fun data offset => ?_,
    fun offset whence => ?_, ?_⟩
  · have hread : readNode n cursor length h = .error (.reported .badf) h := run_bind_error hgone
    exact permitted_refusal hget (run_bind_error hread)
  · have hread : readNode n offset length h = .error (.reported .badf) h := run_bind_error hgone
    exact permitted_refusal hget hread
  · refine permitted_refusal hget ?_
    dsimp only
    -- It fails whether it would write at the end or at the cursor.
    split
    · exact run_bind_error (run_bind_error hgone)
    · exact run_bind_error (run_bind_error hgone)
  · exact permitted_refusal hget (run_bind_error hgone)
  · exact (run_bind_ok (descriptor_run hget)).trans (run_bind_error hgone)
  · exact (run_bind_ok (descriptor_run hget)).trans (run_bind_error hgone)

/-! ### Handles on one file -/

/-- What comes through the handle comes from the file, and what goes through it goes there. -/
structure ReachesOnly (h : Host) (fd : Nat) (n : NodeId) : Prop where
  read : ∀ {length data h'}, read fd length h = .ok data h' → h'.tree = h.tree ∧
    ∃ content cursor, h.tree.content? n = some content ∧ data = (content.drop cursor).take length
  readAt : ∀ {length offset data h'}, readAt fd length offset h = .ok data h' → h' = h ∧
    ∃ content, h.tree.content? n = some content ∧ data = (content.drop offset).take length
  write : ∀ {data k h'}, write fd data h = .ok k h' →
    ∃ content, h'.tree = h.tree.withContent n content
  writeAt : ∀ {data offset k h'}, writeAt fd data offset h = .ok k h' →
    ∃ content, h'.tree = h.tree.withContent n content
  seek : ∀ {offset k h'}, seek fd offset .endOfFile h = .ok k h' →
    h'.tree = h.tree ∧ (k : Int) = h.tree.size n + offset
  filestat : ∀ {s h'}, filestat fd h = .ok s h' → h' = h ∧ s = ⟨.regularFile, h.tree.size n⟩

theorem filestat_ok {s : Filestat} (hget : h.table.get? fd = some d) (htarget : d.target = .file path n)
    (hs : filestat fd h = .ok s h') : h' = h ∧ s = ⟨.regularFile, h.tree.size n⟩ := by
  obtain ⟨target, cursor, rights, inheriting, flags⟩ := d
  cases htarget
  unfold filestat at hs
  rw [run_bind_ok (descriptor_run hget)] at hs
  dsimp only at hs
  obtain ⟨u, h₁, hu, hlook⟩ := run_bind_eq_ok hs
  obtain ⟨-, rfl⟩ := requireAlive_ok hu
  rw [run_get_bind] at hlook
  cases hlook
  exact ⟨rfl, rfl⟩

theorem reachesOnly_of_target (hget : h.table.get? fd = some d) (htarget : d.target = .file path n) :
    h.ReachesOnly fd n := by
  -- The handle that an operation has worked on is this one.
  have hsame : ∀ {d' path' n'}, h.table.get? fd = some d' → d'.target = .file path' n' → n' = n := by
    intro d' path' n' hget' htarget'
    cases hget.symm.trans hget'
    cases htarget.symm.trans htarget'
    rfl
  refine ⟨?_, ?_, ?_, ?_, ?_, filestat_ok hget htarget⟩
  · intro length data h' hok
    obtain ⟨d', ahead, hget', -, hahead, -, rfl, rfl⟩ := read_ok hok
    cases hahead with
    | input hin =>
      cases hget.symm.trans hget'
      cases htarget.symm.trans hin
    | file htarget' hn hcontent =>
      obtain rfl := hsame hget' htarget'
      exact ⟨rfl, _, _, hcontent, rfl⟩
  · intro length offset data h' hok
    obtain ⟨rfl, d', path', n', content, hget', htarget', hcontent, hdata⟩ := readAt_ok hok
    obtain rfl := hsame hget' htarget'
    exact ⟨rfl, content, hcontent, hdata⟩
  · intro data k h' hok
    obtain ⟨-, -, old, -, -, rfl⟩ := write_file_ok hget htarget hok
    exact ⟨_, rfl⟩
  · intro data offset k h' hok
    obtain ⟨d', path', n', old, hget', htarget', -, -, rfl⟩ := writeAt_ok hok
    obtain rfl := hsame hget' htarget'
    exact ⟨_, rfl⟩
  · intro offset k h' hok
    obtain ⟨d', path', n', hget', htarget', -, hplace, rfl⟩ := seek_ok hok
    obtain rfl := hsame hget' htarget'
    exact ⟨rfl, hplace rfl⟩

/-! ### Opening what is at a path -/

theorem changes_openPath {dirfd : Nat} {flags : OpenFlags} {inheriting : Rights}
    {descriptorFlags : DescriptorFlags} (ht : h.tree.WellFormed)
    (hopen : openPath dirfd path flags rights inheriting descriptorFlags h = .ok k h') : Changes h h' := by
  have halters := alters_openPath dirfd path flags rights inheriting descriptorFlags h ht
  rwa [hopen] at halters

/-- A handle that is opened on a path with these names goes with the file as long as it is open, and serves
it until another file is added there. -/
def LeadsTo (h : Host) (names : List String) (n : NodeId) : Prop :=
  ∀ {dirfd path full flags rights inheriting descriptorFlags k h'},
    resolve dirfd path h = .ok full h → Path.segments full = .ok names →
    openPath dirfd path flags rights inheriting descriptorFlags h = .ok k h' →
    ∀ future, .guest (.close k) ∉ future → (h'.runShared future).ReachesOnly k n ∧
      (¬ h'.PutsAmong future names → ∃ d content, (h'.runShared future).table.get? k = some d ∧
        d.rights = rights ∧ (h'.runShared future).tree.content? n = some content ∧
        (h'.runShared future).Serves k d n content)

theorem leadsTo_of_walk (hcounted : h.Counted) (hn : h.tree.walk h.tree.root names = some n)
    (hfile : h.tree.kind? n = some .file) : h.LeadsTo names n := by
  intro dirfd path full flags rights inheriting descriptorFlags k h' hresolve hnames hopen future hfuture
  have ht := hcounted.wellFormed
  have hc : Changes h h' := changes_openPath ht hopen
  have ht' : h'.tree.WellFormed := hc.wellFormed ht
  obtain ⟨full', target, n', kind, hresolve', hget, hnode, hfound, hkind, hbefore⟩ := openPath_ok ht hopen
  cases hresolve.symm.trans hresolve'
  rw [FileTree.lookup_eq hnames] at hfound hbefore
  -- What was there has been opened, and it still is what it was.
  obtain rfl : n' = n := by
    rcases hbefore with hbefore | ⟨hnone, -⟩
    · exact Option.some.inj (hbefore.symm.trans hn)
    · cases hnone.symm.trans hn
  have hfile' : h'.tree.kind? n' = some .file :=
    hc.keeps (p := fun h' => h'.tree.kind? n' = some .file) (fun _ _ hc hk => hc.edits.kind? hk) hfile
  cases hkind.symm.trans hfile'
  have htarget : target = .file full n' := DescriptorTarget.eq_file hnode
  obtain ⟨cursor, flags', hget'⟩ := runShared_open hget hfuture
  refine ⟨reachesOnly_of_target hget' htarget, fun hput => ?_⟩
  obtain ⟨ht'', hr⟩ := runShared_replaces ht' future
  have halive : (h'.runShared future).tree.alive n' = true :=
    FileTree.Counted.alive_of_attached ((hc.counted_after hcounted).runShared future)
      (ht''.attached_iff.mpr ⟨names, hr.stays hfound hput⟩)
  obtain ⟨content, hcontent⟩ := FileTree.kind?_file_iff.mp (hr.kind hfile')
  exact ⟨_, content, hget', rfl, hcontent, serves_of_alive hget' htarget halive hcontent⟩

/-! ### Files that are replaced -/

/-- A file that another one has been added over is in no directory any more, and a younger one is found at
its path. -/
theorem replaced_of_putsAmong {steps : List HostStep} (ht : h.tree.WellFormed)
    (hn : h.tree.walk h.tree.root names = some n) (hfile : h.tree.kind? n = some .file)
    (hput : h.PutsAmong steps names) :
    (h.runShared steps).tree.Loose n ∧ (h.runShared steps).tree.kind? n = some .file ∧
      ∃ m, (h.runShared steps).tree.walk (h.runShared steps).tree.root names = some m ∧
        (h.runShared steps).tree.kind? m = some .file ∧ n < m := by
  obtain ⟨-, hr⟩ := runShared_replaces ht steps
  obtain ⟨hloose, m, hm, hfile', hle⟩ := hr.put hn hfile hput
  exact ⟨hloose, hr.kind hfile, m, hm, hfile', Nat.lt_of_lt_of_le (ht.walk_lt hn) hle⟩

/-- A file in no directory is alive only as long as somebody keeps it. -/
theorem Counted.not_alive (hc : h.Counted) (hloose : h.tree.Loose n) (hfile : h.tree.kind? n = some .file)
    (hkept : n ∉ h.kept) : h.tree.alive n = false := by
  rw [Bool.eq_false_iff]
  intro halive
  obtain ⟨k, hk, q, hq⟩ := FileTree.Counted.alive_iff hc |>.mp halive
  rcases List.mem_cons.mp hk with rfl | hk
  · exact hc.wellFormed.walk_ne_loose hloose hfile q hq
  · exact hkept (hloose.walk_eq hq ▸ hk)

/-- A file that somebody keeps is served, whether it is in the tree or not. -/
theorem serves_of_kept {content : Bytes} (hc : h.Counted) (hget : h.table.get? fd = some d)
    (htarget : d.target = .file path n) (hkept : n ∈ h.kept) (hcontent : h.tree.content? n = some content) :
    h.Serves fd d n content :=
  serves_of_alive hget htarget (FileTree.Counted.alive_of_mem hc (List.mem_cons_of_mem _ hkept)) hcontent

/-- Nobody comes to keep a file in no directory, since there is no path to it. -/
theorem not_mem_kept_take (hc : h.Counted) (hloose : h.tree.Loose n) (hfile : h.tree.kind? n = some .file)
    (hkept : n ∉ h.kept) (step : HostStep) : n ∉ (h.take step).kept := by
  cases step with
  | guest op =>
    rwa [show h.take (.guest op) = h.perform op from rfl, (perform_changes hc.wellFormed op).kept_eq]
  | owner change => exact hkept
  | other act =>
    cases act with
    | keep path =>
      show n ∉ (h.keep path).kept
      unfold keep
      split
      · next k hk =>
        obtain ⟨names, -, hq⟩ := FileTree.lookup_eq_some_iff.mp hk
        have hne : n ≠ k := fun heq => hc.wellFormed.walk_ne_loose hloose hfile names (heq ▸ hq)
        exact List.not_mem_cons_of_ne_of_not_mem hne hkept
      · exact hkept
    | letGo k =>
      show n ∉ (h.letGo k).kept
      unfold letGo
      split
      · exact fun hmem => hkept (List.mem_of_mem_erase hmem)
      · exact hkept

/-- **A file that is in no directory and kept by nobody** is gone for good. -/
theorem Counted.not_alive_runShared (hc : h.Counted) (hloose : h.tree.Loose n)
    (hfile : h.tree.kind? n = some .file) (hkept : n ∉ h.kept) (steps : List HostStep) :
    (h.runShared steps).tree.alive n = false := by
  induction steps generalizing h with
  | nil => exact hc.not_alive hloose hfile hkept
  | cons step steps ih =>
    have hr := take_replaces hc.wellFormed step
    exact ih (hc.take step) (hr.loose hloose) (hr.kind hfile) (not_mem_kept_take hc hloose hfile hkept step)

/-- A file that is added is found at its path until the next one is. -/
theorem added_found_iff {content : Bytes} {new m : NodeId} {t : FileTree} (ht : h.tree.WellFormed)
    (hnames : Path.segments path = .ok names)
    (hnew : FileTree.addFile path content h.tree = .ok new t) (after : List HostStep)
    (hm : (({ h with tree := t } : Host).runShared after).tree.lookup path = some m) :
    m = new ↔ ¬ ({ h with tree := t } : Host).PutsAmong after names := by
  obtain ⟨ht', hfound, hcontent⟩ := ht.addFile_found hnames hnew
  have hfile : t.isFile new = true :=
    FileTree.isFile_iff_kind?.mpr (FileTree.kind?_file_iff.mpr ⟨content, hcontent⟩)
  have hlookup : t.lookup path = some new := by rw [FileTree.lookup_eq hnames, hfound]
  have hsteady : ({ h with tree := t } : Host).Steadfast after := steadfast ht' after
  obtain ⟨m', hm', -, hiff⟩ := hsteady.file hnames hlookup hfile
  cases hm.symm.trans hm'
  exact hiff

section Replaced

variable {full path' : String} {dirfd : Nat} {flags : OpenFlags} {inheriting : Rights}
  {descriptorFlags : DescriptorFlags} {content : Bytes} {new : NodeId} {t : FileTree}

/-- **A stale handle never touches the file that has replaced its own.** Whatever guest, owner and others have
done before a file is opened, and whatever they do then: once another file is added at the path while nobody
keeps the old one, all that needs the old one through the handle fails until the handle is closed, and
changes nothing. What is opened on the path then is the new file, unless others have been added since, and
never the old one. -/
theorem runShared_stale (treeOps : List TreeOperation) (stdin : Bytes) (surroundings : Surroundings)
    (past between after : List HostStep)
    (hopen : openPath dirfd path flags rights inheriting descriptorFlags
      ((Host.new (FileTree.empty.run treeOps) stdin surroundings).runShared past) = .ok fd h)
    (htarget : h.Opens fd (.file full n)) (hnames : Path.segments full = .ok names)
    (hnames' : Path.segments path' = .ok names)
    (hnew : FileTree.addFile path' content (h.runShared between).tree = .ok new t)
    (hkept : n ∉ (h.runShared between).kept) (hclose : .guest (.close fd) ∉ between ++ after) :
    let replaced := (h.runShared between).take (.owner ⟨.addFile path' content, rfl⟩)
    (replaced.runShared after).Stale fd rights ∧
      ∃ m, (replaced.runShared after).LeadsTo names m ∧ n < m ∧
        (m = new ↔ ¬ replaced.PutsAmong after names) := by
  intro replaced
  have hstart := counted_new treeOps stdin surroundings
  have hc₀ := hstart.runShared past
  have hc : h.Counted := (changes_openPath hc₀.wellFormed hopen).counted_after hc₀
  have hc₁ := hc.runShared between
  -- The handle is open on the file that is at the path.
  obtain ⟨full', target, n', kind, -, hget, hnode, hfound, hkind, -⟩ := openPath_ok hc₀.wellFormed hopen
  obtain ⟨d, hget', htarget'⟩ := htarget
  cases hget.symm.trans hget'
  obtain rfl : target = .file full n := htarget'
  cases hnode
  rw [FileTree.lookup_eq hnames] at hfound
  -- It is still open on that file when others have been added.
  have hopened : .guest (.close fd) ∉ between ++ .owner ⟨.addFile path' content, rfl⟩ :: after := by
    simpa using hclose
  obtain ⟨cursor, flags', hget''⟩ := runShared_open hget hopened
  have hputs : ∀ after, h.PutsAmong (between ++ .owner ⟨.addFile path' content, rfl⟩ :: after) names :=
    fun after => ⟨between, _, after, rfl, path', content, new, t, rfl, hnames', hnew⟩
  have hrun : ∀ after, h.runShared (between ++ .owner ⟨.addFile path' content, rfl⟩ :: after) =
      replaced.runShared after := fun after => runShared_append h between _
  -- But the file is gone as soon as the first of them has been added.
  obtain ⟨hloose, hfile', -⟩ := replaced_of_putsAmong hc.wellFormed hfound hkind (hputs [])
  rw [hrun] at hloose hfile'
  have hgone := (hc₁.take (.owner ⟨.addFile path' content, rfl⟩)).not_alive_runShared hloose hfile' hkept after
  obtain ⟨-, -, m, hm, hfile, hlt⟩ := replaced_of_putsAmong hc.wellFormed hfound hkind (hputs after)
  rw [hrun] at hget'' hm hfile
  have hlater : (replaced.runShared after).Counted := (hc₁.take _).runShared after
  refine ⟨stale_of_not_alive hget'' rfl hgone, m, leadsTo_of_walk hlater hm hfile, hlt, ?_⟩
  have hreplaced : replaced = { h.runShared between with tree := t } := by
    show ({ h.runShared between with
      tree := left (FileTree.addFile path' content (h.runShared between).tree) } : Host) = _
    rw [hnew]
    rfl
  rw [← FileTree.lookup_eq hnames', hreplaced] at hm
  rw [hreplaced]
  exact added_found_iff hc₁.wellFormed hnames' hnew after hm

/-- Two handles are opened on a file, somebody keeps the root, another file is added at the path, and a third
handle is opened. -/
theorem replaced_stale :
    let start := Host.new (FileTree.empty.run [.addFile "a" [1]]) [] .silent
    let opened := left (openPath 3 "a" ⟨0⟩ .fdRead .all ⟨0⟩ start)
    let between : List HostStep := [.guest (.openPath 3 "a" ⟨0⟩ .all .all ⟨0⟩), .other (.keep "/")]
    let replaced := (opened.runShared between).take (.owner ⟨.addFile "/a" [2], rfl⟩)
    let after : List HostStep := [.guest (.openPath 3 "/a" ⟨0⟩ .all .all ⟨0⟩)]
    (replaced.runShared after).Stale 4 .fdRead ∧ ∃ m, (replaced.runShared after).LeadsTo ["a"] m ∧ 1 < m ∧
      (m = 2 ↔ ¬ replaced.PutsAmong after ["a"]) := by
  intro start opened between replaced after
  have hopen : openPath 3 "a" ⟨0⟩ .fdRead .all ⟨0⟩ (start.runShared []) = .ok 4 opened := by rfl
  have htarget : opened.Opens 4 (.file "/a" 1) := ⟨⟨.file "/a" 1, 0, .fdRead, .all, ⟨0⟩⟩, by rfl, rfl⟩
  have hnew : FileTree.addFile "/a" [2] (opened.runShared between).tree = .ok 2 replaced.tree := by rfl
  have hkept : 1 ∉ (opened.runShared between).kept := by decide +kernel
  exact runShared_stale [.addFile "a" [1]] [] _ [] between after hopen htarget (by rfl) (by rfl) hnew hkept
    (by simp [between, after])

/-- As long as somebody keeps the old file, it is read through the handle. -/
example :
    let h := (Host.new (FileTree.empty.run [.addFile "a" [1]]) [] .silent).runShared
      [.guest (.openPath 3 "a" ⟨0⟩ .all .all ⟨0⟩), .other (.keep "a"), .owner ⟨.addFile "a" [2], rfl⟩]
    h.tree.alive 1 = true ∧ h.tree.attached 1 = false ∧ h.tree.contentAt "a" = some [2] ∧
      (h.take (.other (.letGo 1))).tree.alive 1 = false := by
  decide +kernel

end Replaced

end Host

end WasiSandbox
