import WasiSandbox.Proofs.Descriptor.Slots
import WasiSandbox.Proofs.Tree.Octets

/-! # What becomes of opening a path

Whether a path can be opened is read off the tree and the flags by one table (`PathMap.openError?`), in
which the errors stand in the order of their precedence. On the way to a file that is to be made, the first
thing that is no directory decides: a file answers `notdir`, and where nothing is `noent`
(`Closed.errno?_createAt`). When nothing is wrong, the path is opened, the tree has what was asked for and is
otherwise the same, and the table has one entry more (`openPath_byTable`). -/

namespace WasiSandbox

/-! ### The table -/

/-- What stands in the way of opening a thing that is there, or that would be made. -/
def NodeBody.openError? (flags : OpenFlags) : NodeBody → Option Errno
  | .directory => if flags.truncates then some .isdir else none
  | .file _ => if flags.wantsDirectory then some .notdir else none

namespace PathMap

/-- The first part of the way along the names that does not lead to a directory. -/
def obstacle? (m : PathMap) (names : List String) : Option (List String) :=
  names.inits.find? fun q => m q ≠ some .directory

/-- Why nothing can be made at a path at which nothing is. -/
def makeError? (m : PathMap) (full : String) : Option Errno :=
  match Path.segments full with
  | .error _ => some .inval
  | .ok names => (m.obstacle? names.dropLast).map fun q => if m.isFile q then .notdir else .noent

/-- Why the path cannot be opened: the first reason that there is. -/
def openError? (m : PathMap) (full : String) (flags : OpenFlags) : Option Errno :=
  match m.at? full with
  | some body => if flags.creates && flags.exclusive then some .exist else body.openError? flags
  | none =>
    if flags.creates then m.makeError? full <|> (NodeBody.file []).openError? flags
    else some .noent

end PathMap

/-- Why the path cannot be opened at the handle. -/
def Host.openError? (h : Host) (dirfd : Nat) (path : String) (flags : OpenFlags) : Option Errno :=
  match h.table.get? dirfd with
  | none => some .badf
  | some d =>
    match d.target with
    | .directory base _ _ =>
      if path = "" then some .noent else h.tree.pathMap.openError? (Path.under base path) flags
    | _ => some .notdir

/-! ### Where a file can be made -/

namespace PathMap

variable {m : PathMap} {names q : List String} {full : String}

/-- The obstacle is no directory, and everything on the way to it is one. -/
theorem obstacle?_eq_some (h : m.obstacle? names = some q) : q <+: names ∧ m q ≠ some .directory ∧
    ∀ r, r <+: names → r.length < q.length → m r = some .directory := by
  obtain ⟨hq, i, hi, rfl, hbefore⟩ := List.find?_eq_some_iff_getElem.mp h
  have hlen : i ≤ names.length := by
    rw [List.length_inits] at hi
    omega
  rw [List.getElem_inits] at hq ⊢
  refine ⟨List.take_prefix i names, by simpa using hq, fun r hr hlt => ?_⟩
  rw [List.length_take_of_le hlen] at hlt
  have hr' := hbefore r.length hlt
  rw [List.getElem_inits, ← List.prefix_iff_eq_take.mp hr] at hr'
  simpa using hr'

theorem obstacle?_eq_none (h : m.obstacle? names = none) (hq : q <+: names) :
    m q = some .directory := by
  have hdir := List.find?_eq_none.mp h q ((List.mem_inits ..).mpr hq)
  simpa using hdir

/-- There is nothing beyond the obstacle, so no file there is in the way. -/
theorem Closed.isBlocked_iff_obstacle (h : m.Closed) (hq : m.obstacle? names = some q) :
    m.isBlocked names = true ↔ m.isFile q = true := by
  obtain ⟨hon, hdir, hbefore⟩ := obstacle?_eq_some hq
  refine ⟨fun hblocked => ?_, fun hfile => isBlocked_iff.mpr ⟨q, hon, hfile⟩⟩
  obtain ⟨r, hr, hfile⟩ := isBlocked_iff.mp hblocked
  obtain ⟨content, hcontent⟩ := isFile_iff.mp hfile
  rcases Nat.lt_trichotomy r.length q.length with hlt | heq | hgt
  · rw [hbefore r hr hlt] at hcontent
    cases hcontent
  · rwa [(List.prefix_of_prefix_length_le hr hon heq.le).eq_of_length heq] at hfile
  · have hbeyond := List.prefix_of_prefix_length_le hon hr hgt.le
    refine absurd (h.above hbeyond ?_ ?_) hdir
    · rintro rfl
      exact Nat.lt_irrefl _ hgt
    · rw [hcontent]
      simp

/-- The error number of a failed change. -/
def errno? : Except FsError PathMap → Option Errno
  | .error e => some e.errno
  | .ok _ => none

/-- **Why nothing can be made**, where nothing is yet. -/
theorem Closed.errno?_createAt (h : m.Closed) (hnone : m.at? full = none) (body : NodeBody) :
    errno? (m.createAt full body) = m.makeError? full := by
  unfold at? at hnone
  unfold createAt makeError?
  cases hp : Path.segments full with
  | error e => rfl
  | ok names =>
    rw [hp] at hnone
    dsimp only at hnone ⊢
    have hroot : names ≠ [] := by
      rintro rfl
      rw [h.root] at hnone
      cases hnone
    rw [if_neg hroot]
    cases hq : m.obstacle? names.dropLast with
    | none =>
      have hway : ¬ m.isBlocked names.dropLast = true := fun hblocked => by
        obtain ⟨r, hr, hfile⟩ := isBlocked_iff.mp hblocked
        rw [isFile, obstacle?_eq_none hq hr] at hfile
        cases hfile
      have hdir : m names.dropLast ≠ none := by
        rw [obstacle?_eq_none hq List.prefix_rfl]
        simp
      rw [if_neg hway, if_neg hdir, if_neg (not_not.mpr hnone)]
      rfl
    | some q =>
      rw [Option.map_some]
      by_cases hfile : m.isFile q = true
      · rw [if_pos ((h.isBlocked_iff_obstacle hq).mpr hfile), if_pos hfile]
        rfl
      · have hmissing : m names.dropLast = none := by
          by_contra hsome
          obtain ⟨hon, hdir, -⟩ := obstacle?_eq_some hq
          have hfree : m q ≠ none := by
            by_cases heq : q = names.dropLast
            · rwa [heq]
            · rw [h.above hon heq hsome]
              simp
          exact hdir (eq_directory (Bool.eq_false_iff.mpr hfile) hfree)
        rw [if_neg (mt (h.isBlocked_iff_obstacle hq).mp hfile), if_pos hmissing, if_neg hfile]
        rfl

end PathMap

/-! ### What is opened -/

/-- What a descriptor refers to that is opened on a node of the kind. -/
def DescriptorTarget.ofNode (full : String) (n : NodeId) : NodeKind → DescriptorTarget
  | .directory => .directory full n false
  | .file => .file full n

namespace FileTree

variable {t t' : FileTree} {full : String} {flags : OpenFlags} {n : NodeId} {content : Bytes}

theorem at?_pathMap (t : FileTree) (full : String) :
    t.pathMap.at? full = (t.lookup full).bind t.bodyAt? := by
  unfold PathMap.at? lookup
  cases Path.segments full <;> rfl

theorem kind?_of_bodyAt? {body : NodeBody} (h : t.bodyAt? n = some body) :
    t.kind? n = some body.kind := by
  obtain ⟨m, hm, rfl⟩ := Option.map_eq_some_iff.mp h
  exact kind?_eq_some_iff.mpr ⟨m, hm, rfl⟩

/-- The content that a file has already. -/
theorem withContent_self (h : t.content? n = some content) : t.withContent n content = t := by
  have hnode : ∀ k, (t.withContent n content).node? k = t.node? k := fun k => by
    rw [node?_withContent]
    by_cases hk : n = k
    · subst hk
      obtain ⟨m, hm, hbody⟩ := Option.map_eq_some_iff.mp (content?_eq_some_iff.mp h)
      rw [hm, Option.map_some, if_pos rfl, ← hbody]
    · cases t.node? k with
      | none => rfl
      | some m => rw [Option.map_some, if_neg hk]
  have hnodes : (t.withContent n content).nodes = t.nodes := List.ext_getElem? hnode
  obtain ⟨nodes, root, strong⟩ := t
  exact congrArg (FileTree.mk · root strong) hnodes

/-- How the tree changes when the path is opened on the node `n`. -/
inductive OpensAt (full : String) (flags : OpenFlags) (n : NodeId) (t : FileTree) : FileTree → Prop where
  /-- What is there is left as it is. -/
  | found : t.lookup full = some n → flags.truncates = false → OpensAt full flags n t t
  /-- The file that is there is emptied. -/
  | emptied : t.lookup full = some n → t.kind? n = some .file → flags.truncates = true →
      OpensAt full flags n t (t.withContent n [])
  /-- Where nothing was, an empty file is made, behind all other nodes. -/
  | made {dir : NodeId} {x : String} : t.lookup full = none → flags.creates = true →
      n = t.nodes.length → OpensAt full flags n t (t.add dir x (.file []))

/-- The tree `t'` after the path has been opened in the tree `t`, on a node of the kind. -/
structure Opens (full : String) (flags : OpenFlags) (n : NodeId) (kind : NodeKind) (t t' : FileTree) :
    Prop where
  /-- The path leads to the node, which is of the kind. -/
  leads : t'.lookup full = some n
  kind : t'.kind? n = some kind
  /-- At most one node has changed, or come in. -/
  nodes : OpensAt full flags n t t'
  /-- At the path there is an empty file if there was none or if it was emptied, and every other path
  leads to what it led to before. -/
  paths : ∀ names, Path.segments full = .ok names →
    t'.pathMap = if t.lookup full = none ∨ flags.truncates = true then
      Function.update t.pathMap names (some (.file [])) else t.pathMap

/-- A node that is there and is left as it is. -/
theorem opens_found (hfound : t.lookup full = some n) (hkeeps : flags.truncates = false) {body : NodeBody}
    (hbody : t.bodyAt? n = some body) : Opens full flags n body.kind t t := by
  have hneither : ¬ (t.lookup full = none ∨ flags.truncates = true) := by
    rw [hfound, hkeeps]
    simp
  exact ⟨hfound, kind?_of_bodyAt? hbody, .found hfound hkeeps, fun names _ => (if_neg hneither).symm⟩

/-- A file that is there and is emptied. -/
theorem opens_emptied (ht : t.WellFormed) (hfound : t.lookup full = some n)
    (hcontent : t.content? n = some content) (htruncates : flags.truncates = true) :
    Opens full flags n .file t (t.withContent n []) := by
  have hdir := content?_not_directory hcontent
  have hkind := kind?_of_bodyAt? (content?_eq_some_iff.mp hcontent)
  have hkind' := kind?_of_bodyAt? (content?_eq_some_iff.mp (content?_withContent hcontent []))
  refine ⟨(ht.lookup_withContent hdir [] full).trans hfound, hkind', .emptied hfound hkind htruncates,
    fun names hp => ?_⟩
  rw [if_pos (Or.inr htruncates)]
  rw [lookup_eq hp] at hfound
  funext q
  rw [ht.pathMap_withContent hdir, Function.update_apply]
  by_cases hq : q = names
  · rw [if_pos (hq ▸ hfound), if_pos hq]
  · rw [if_neg fun hw => hq (ht.walk_root_injective hw hfound), if_neg hq]

/-- The tree in which the node is to be opened: it was at the path before, or is a new empty file there. -/
inductive Reaches (full : String) (flags : OpenFlags) (n : NodeId) (t : FileTree) : FileTree → Prop where
  | found : t.lookup full = some n → Reaches full flags n t t
  | made {dir : NodeId} {x : String} {names : List String} : t.lookup full = none →
      flags.creates = true → n = t.nodes.length → (t.add dir x (.file [])).lookup full = some n →
      Path.segments full = .ok names →
      (t.add dir x (.file [])).pathMap = Function.update t.pathMap names (some (.file [])) →
      Reaches full flags n t (t.add dir x (.file []))

/-- **What is opened on the node** is what was asked for. -/
theorem Reaches.opens (h : Reaches full flags n t t') (ht : t.WellFormed) {body : NodeBody}
    (hbody : t'.bodyAt? n = some body) (hnone : body.openError? flags = none) :
    Opens full flags n body.kind t (if flags.truncates then t'.withContent n [] else t') := by
  cases h with
  | found hfound =>
    by_cases htruncates : flags.truncates = true
    · rw [if_pos htruncates]
      cases body with
      | file old => exact opens_emptied ht hfound (content?_eq_some_iff.mpr hbody) htruncates
      | directory =>
        -- A directory would have been refused.
        have hrefused : NodeBody.directory.openError? flags = some .isdir := if_pos htruncates
        rw [hrefused] at hnone
        cases hnone
    · rw [if_neg htruncates]
      exact opens_found hfound (Bool.eq_false_iff.mpr htruncates) hbody
  | @made dir x names hlookup hcreates hn hleads hp hmap =>
    -- To empty a file that has just been made changes nothing.
    have hempty : (t.add dir x (.file [])).withContent n [] = t.add dir x (.file []) :=
      withContent_self (content?_eq_some_iff.mpr (by rw [bodyAt?_add, if_pos hn]))
    rw [hempty, ite_self]
    refine ⟨hleads, kind?_of_bodyAt? hbody, .made hlookup hcreates hn, fun names' hp' => ?_⟩
    obtain rfl : names = names' := Except.ok.inj (hp.symm.trans hp')
    rw [if_pos (Or.inl hlookup), hmap]

end FileTree

namespace Host

variable {h h' : Host} {dirfd : Nat} {path full : String} {flags : OpenFlags} {n : NodeId}
  {body : NodeBody} {rights inheriting : Rights} {descriptorFlags : DescriptorFlags} {e : Errno}

/-! ### One part after the other -/

/-- What the handle and the path alone decide, and what is left to the tree. -/
theorem resolve_byTable (h : Host) (dirfd : Nat) (path : String) (flags : OpenFlags) :
    (∃ e, resolve dirfd path h = .error (.reported e) h ∧
      h.openError? dirfd path flags = some e) ∨
    ∃ full, resolve dirfd path h = .ok full h ∧
      h.openError? dirfd path flags = h.tree.pathMap.openError? full flags := by
  unfold openError?
  cases hget : h.table.get? dirfd with
  | none => exact Or.inl ⟨.badf, resolve_closed hget path, rfl⟩
  | some d =>
    obtain ⟨target, cursor, rights, inheriting, descriptorFlags⟩ := d
    cases target with
    | directory base n preopen =>
      dsimp only
      by_cases hpath : path = ""
      · subst hpath
        exact Or.inl ⟨.noent, run_bind_ok (descriptor_run hget), rfl⟩
      · exact Or.inr ⟨_, resolve_eq hget rfl hpath, if_neg hpath⟩
    | stdin | stdout | stderr | file =>
      exact Or.inl ⟨.notdir, run_bind_ok (descriptor_run hget), rfl⟩

theorem targetToOpen_refused (full : String) (hbody : h.tree.bodyAt? n = some body)
    (he : body.openError? flags = some e) :
    targetToOpen full n flags h = .error (.reported e) h := by
  unfold targetToOpen
  rw [run_get_bind]
  cases body with
  | directory =>
    have hdir := FileTree.isDirectory_iff_bodyAt?.mpr hbody
    unfold NodeBody.openError? at he
    dsimp only at he
    split at he
    · next htruncates =>
      cases he
      rw [if_pos hdir, if_pos htruncates]
      rfl
    · cases he
  | file content =>
    have hdir : h.tree.isDirectory n = false :=
      FileTree.content?_not_directory (FileTree.content?_eq_some_iff.mpr hbody)
    unfold NodeBody.openError? at he
    dsimp only at he
    split at he
    · next hwants =>
      cases he
      rw [if_neg (by rw [hdir]; exact Bool.false_ne_true), if_pos hwants]
      rfl
    · cases he

/-- What is not refused is opened, and emptied if the flags say so. -/
theorem targetToOpen_run (full : String) (hbody : h.tree.bodyAt? n = some body)
    (hnone : body.openError? flags = none) :
    targetToOpen full n flags h = .ok (.ofNode full n body.kind)
      { h with tree := if flags.truncates then h.tree.withContent n [] else h.tree } := by
  unfold targetToOpen
  rw [run_get_bind]
  cases body with
  | directory =>
    have hdir := FileTree.isDirectory_iff_bodyAt?.mpr hbody
    unfold NodeBody.openError? at hnone
    dsimp only at hnone
    split at hnone
    · cases hnone
    · next hkeeps =>
      rw [if_pos hdir, if_neg hkeeps, if_neg hkeeps]
      rfl
  | file content =>
    have hcontent := FileTree.content?_eq_some_iff.mpr hbody
    have hdir := FileTree.content?_not_directory hcontent
    unfold NodeBody.openError? at hnone
    dsimp only at hnone
    split at hnone
    · cases hnone
    · next hwants =>
      rw [if_neg (by rw [hdir]; exact Bool.false_ne_true), if_neg hwants]
      by_cases htruncates : flags.truncates = true
      · obtain ⟨⟨name, old⟩, hfile, -⟩ := Option.map_eq_some_iff.mp hcontent
        have hempty : FileTree.setLength n 0 h.tree = .ok (some ()) (h.tree.withContent n []) := by
          rw [FileTree.setLength_run hfile, if_pos (Nat.zero_le _), Content.resize, List.take_zero,
            Nat.zero_sub, List.replicate_zero, List.nil_append]
        have hrun : onTree (FileTree.setLength n 0) h =
            .ok (some ()) { h with tree := h.tree.withContent n [] } := by
          rw [onTree, hempty]
        rw [if_pos htruncates, if_pos htruncates, run_bind_ok hrun]
        rfl
      · rw [if_neg htruncates, if_neg htruncates]
        rfl

theorem insert_run (hroom : h.table.lowestFree < UInt32.size) (d : Descriptor) :
    insert d h = .ok h.table.lowestFree { h with table := h.table.put h.table.lowestFree d } := by
  unfold insert
  rw [run_get_bind, if_neg (Nat.not_le.mpr hroom), run_bind_ok (setDescriptor_run ..)]
  rfl

theorem insert_full (hfull : UInt32.size ≤ h.table.lowestFree) (d : Descriptor) :
    insert d h = .error (.defect .overflow) h := by
  unfold insert
  rw [run_get_bind, if_pos hfull]
  rfl

/-- **The node at the path**, which is there or is made, unless the table has a reason against it that does
not lie in the node. -/
theorem nodeToOpen_byTable (ht : h.tree.WellFormed) (full : String) (flags : OpenFlags) :
    (∃ e, nodeToOpen full flags h = .error (.reported e) h ∧
      h.tree.pathMap.openError? full flags = some e) ∨
    ∃ n t body, nodeToOpen full flags h = .ok n { h with tree := t } ∧
      FileTree.Reaches full flags n h.tree t ∧ t.bodyAt? n = some body ∧
      h.tree.pathMap.openError? full flags = body.openError? flags := by
  have hat := h.tree.at?_pathMap full
  unfold nodeToOpen PathMap.openError?
  rw [run_get_bind]
  cases hlookup : h.tree.lookup full with
  | some n =>
    obtain ⟨body, hbody⟩ := Option.ne_none_iff_exists'.mp
      (FileTree.bodyAt?_ne_none (ht.lookup_lt hlookup))
    rw [hlookup, Option.bind_some, hbody] at hat
    rw [hat]
    dsimp only
    by_cases hexist : (flags.creates && flags.exclusive) = true
    · rw [if_pos hexist, if_pos hexist]
      exact Or.inl ⟨.exist, rfl, rfl⟩
    · rw [if_neg hexist, if_neg hexist]
      exact Or.inr ⟨n, h.tree, body, rfl, .found hlookup, hbody, rfl⟩
  | none =>
    rw [hlookup, Option.bind_none] at hat
    rw [hat]
    dsimp only
    by_cases hcreates : flags.creates = true
    · rw [if_pos hcreates, if_pos hcreates, ← ht.pathMap_closed.errno?_createAt hat (.file [])]
      have hrefines := ht.createAt_refines full (.file [])
      cases hspec : h.tree.pathMap.createAt full (.file []) with
      | error e =>
        rw [hspec] at hrefines
        have hrun : onTree (FileTree.createFile full) h = .error (.reported e.errno) h := by
          unfold onTree FileTree.createFile
          rw [show FileTree.createAt full (.file []) h.tree = _ from hrefines]
          rfl
        exact Or.inl ⟨e.errno, hrun, rfl⟩
      | ok m =>
        rw [hspec] at hrefines
        obtain ⟨n, t, hcreate, -, hleads, rfl⟩ := hrefines
        obtain ⟨rfl, dir, x, rfl⟩ := FileTree.createAt_ok hcreate
        obtain ⟨names, hp, -, hmap⟩ := PathMap.createAt_ok hspec
        have hrun : onTree (FileTree.createFile full) h =
            .ok h.tree.nodes.length { h with tree := h.tree.add dir x (.file []) } := by
          unfold onTree FileTree.createFile
          rw [hcreate]
        refine Or.inr ⟨_, _, .file [], hrun, .made hlookup hcreates rfl hleads hp hmap, ?_, rfl⟩
        rw [FileTree.bodyAt?_add, if_pos rfl]
    · rw [if_neg hcreates, if_neg hcreates]
      exact Or.inl ⟨.noent, rfl, rfl⟩

/-! ### All together -/

/-- What opening the path at the handle comes to. -/
structure OpensByTable (h : Host) (dirfd : Nat) (path : String) (flags : OpenFlags)
    (rights inheriting : Rights) (descriptorFlags : DescriptorFlags) : Prop where
  /-- What the table has a reason against is refused for that reason. -/
  refused : ∀ e, h.openError? dirfd path flags = some e → ∃ h',
    openPath dirfd path flags rights inheriting descriptorFlags h = .error (.reported e) h'
  /-- Everything else is opened under the lowest free handle: the tree changes as it was asked for, the table
  has one entry more, for what the path leads to then, and nothing else has changed. -/
  opened : h.openError? dirfd path flags = none → h.table.lowestFree < UInt32.size →
    ∃ full n kind t, resolve dirfd path h = .ok full h ∧ FileTree.Opens full flags n kind h.tree t ∧
      h.table.get? h.table.lowestFree = none ∧
      openPath dirfd path flags rights inheriting descriptorFlags h = .ok h.table.lowestFree
        { h with
          tree := t
          table := h.table.put h.table.lowestFree
            ⟨.ofNode full n kind, 0, rights, inheriting, descriptorFlags⟩ }
  /-- If every handle is taken, the search for a free one runs out of its word. -/
  exhausted : h.openError? dirfd path flags = none → UInt32.size ≤ h.table.lowestFree → ∃ h',
    openPath dirfd path flags rights inheriting descriptorFlags h = .error (.defect .overflow) h'

theorem opensByTable_of_refused (hspec : h.openError? dirfd path flags = some e)
    (hrun : openPath dirfd path flags rights inheriting descriptorFlags h = .error (.reported e) h') :
    h.OpensByTable dirfd path flags rights inheriting descriptorFlags := by
  refine ⟨fun e' he' => ?_, fun hnone _ => ?_, fun hnone _ => ?_⟩
  · obtain rfl : e = e' := Option.some.inj (hspec.symm.trans he')
    exact ⟨h', hrun⟩
  · rw [hspec] at hnone
    cases hnone
  · rw [hspec] at hnone
    cases hnone

/-- What has come as far as the table of descriptors. -/
theorem opensByTable_of_insert {kind : NodeKind} {t : FileTree}
    (hspec : h.openError? dirfd path flags = none) (hresolve : resolve dirfd path h = .ok full h)
    (hopens : FileTree.Opens full flags n kind h.tree t)
    (hrun : openPath dirfd path flags rights inheriting descriptorFlags h =
      insert ⟨.ofNode full n kind, 0, rights, inheriting, descriptorFlags⟩ { h with tree := t }) :
    h.OpensByTable dirfd path flags rights inheriting descriptorFlags := by
  let opened : Host := { h with tree := t }
  refine ⟨fun e he => ?_, fun _ hroom => ?_, fun _ hfull => ?_⟩
  · rw [hspec] at he
    cases he
  · have hroom' : opened.table.lowestFree < UInt32.size := hroom
    exact ⟨full, n, kind, t, hresolve, hopens, h.table.get?_lowestFree,
      hrun.trans (insert_run hroom' _)⟩
  · have hfull' : UInt32.size ≤ opened.table.lowestFree := hfull
    exact ⟨opened, hrun.trans (insert_full hfull' _)⟩

theorem opensByTable_of_wellFormed (ht : h.tree.WellFormed) (dirfd : Nat) (path : String)
    (flags : OpenFlags) (rights inheriting : Rights) (descriptorFlags : DescriptorFlags) :
    h.OpensByTable dirfd path flags rights inheriting descriptorFlags := by
  rcases h.resolve_byTable dirfd path flags with ⟨e, hresolve, hspec⟩ | ⟨full, hresolve, hspec⟩
  · exact opensByTable_of_refused hspec (run_bind_error hresolve)
  rcases nodeToOpen_byTable ht full flags with
    ⟨e, hnode, hnone⟩ | ⟨n, t, body, hnode, hreaches, hbody, htable⟩
  · have hrun : openPath dirfd path flags rights inheriting descriptorFlags h = .error (.reported e) h := by
      unfold openPath
      rw [run_bind_ok hresolve, run_bind_error hnode]
    exact opensByTable_of_refused (hspec.trans hnone) hrun
  -- There is a node, and its kind decides.
  let reached : Host := { h with tree := t }
  have hbody' : reached.tree.bodyAt? n = some body := hbody
  cases hkind : body.openError? flags with
  | some e =>
    have htarget := targetToOpen_refused full hbody' hkind
    have hrun : openPath dirfd path flags rights inheriting descriptorFlags h =
        .error (.reported e) reached := by
      unfold openPath
      rw [run_bind_ok hresolve, run_bind_ok hnode, run_bind_error htarget]
    exact opensByTable_of_refused ((hspec.trans htable).trans hkind) hrun
  | none =>
    have htarget := targetToOpen_run full hbody' hkind
    refine opensByTable_of_insert ((hspec.trans htable).trans hkind) hresolve
      (hreaches.opens ht hbody hkind) ?_
    unfold openPath
    rw [run_bind_ok hresolve, run_bind_ok hnode, run_bind_ok htarget]

/-- **Opening a path is decided by one table**, for every tree that has grown from the empty one, whatever
handles there are on its nodes and whatever descriptors are open. -/
theorem openPath_byTable (ops : List TreeOperation) (strong : List Nat) (table : DescriptorTable)
    (journal : Journal) (surroundings : Surroundings) (kept : List NodeId) (dirfd : Nat) (path : String)
    (flags : OpenFlags) (rights inheriting : Rights) (descriptorFlags : DescriptorFlags) :
    OpensByTable ⟨(FileTree.empty.run ops).withCounts strong, table, journal, surroundings, kept⟩ dirfd path
      flags rights inheriting descriptorFlags :=
  opensByTable_of_wellFormed ((FileTree.WellFormed.empty.run ops).withCounts strong) dirfd path flags rights
    inheriting descriptorFlags

end Host

end WasiSandbox
