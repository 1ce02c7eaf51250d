import WasiSandbox.Proofs.Runs
import WasiSandbox.Proofs.Tree.PathMap

/-! # Operations on trees, seen as operations on maps

Each operation that makes nodes does to the map of a well-formed tree what the operation of the same
name does to a map, and is refused with the same error; a refused one leaves the tree as it was
(`Refines`). What keeps `addFile` and `createDirectories` from leaving half of their work behind is
that nothing lies below a missing directory: once one of them has made a directory, no later name on
the path can be in its way. -/

namespace WasiSandbox

namespace FileTree

variable {t : FileTree} {n dir : NodeId} {path x : String} {ds ns : List String}

/-! ### A directory and a name -/

/-- The names lead to the directory. -/
def HasDirectory (t : FileTree) (ds : List String) (dir : NodeId) : Prop :=
  t.walk t.root ds = some dir ∧ t.isDirectory dir = true

theorem WellFormed.hasDirectory_root (h : t.WellFormed) : t.HasDirectory [] t.root :=
  ⟨rfl, h.root_isDirectory⟩

namespace HasDirectory

theorem pathMap_eq (h : t.HasDirectory ds dir) : t.pathMap ds = some .directory :=
  pathMap_eq_directory_iff.mpr ⟨dir, h⟩

theorem pathMap_of_prefix (h : t.HasDirectory ds dir) {q : List String} (hq : q <+: ds) :
    t.pathMap q = some .directory := by
  obtain ⟨r, rfl⟩ := hq
  by_cases hr : r = []
  · subst hr
    rw [← h.pathMap_eq, List.append_nil]
  · exact pathMap_above hr (by simp [h.pathMap_eq])

theorem walk_child (h : t.HasDirectory ds dir) (x : String) :
    t.walk t.root (ds ++ [x]) = t.child? dir x := by
  rw [walk_snoc, h.1, Option.bind_some, if_pos h.2]

/-- **What a name can stand for in a directory**: nothing, a directory, or a file. -/
theorem child_cases (h : t.HasDirectory ds dir) (x : String) :
    (t.child? dir x = none ∧ t.pathMap (ds ++ [x]) = none) ∨
    (∃ n, t.child? dir x = some n ∧ t.HasDirectory (ds ++ [x]) n) ∨
    ∃ n content, t.child? dir x = some n ∧ t.isDirectory n = false ∧
      t.pathMap (ds ++ [x]) = some (.file content) := by
  have hw := h.walk_child x
  cases hc : t.child? dir x with
  | none => exact Or.inl ⟨rfl, pathMap_of_none (hw.trans hc)⟩
  | some n =>
    rw [hc] at hw
    cases hd : t.isDirectory n with
    | true => exact Or.inr (Or.inl ⟨n, rfl, hw, hd⟩)
    | false =>
      obtain ⟨m, hm, -⟩ := lists_of_child? hc
      have hb : t.pathMap (ds ++ [x]) = some m.body := by
        rw [pathMap_of_walk hw, bodyAt?, hm, Option.map_some]
      cases hbody : m.body with
      | directory =>
        rw [isDirectory_iff.mpr ⟨m, hm, hbody⟩] at hd
        cases hd
      | file content => exact Or.inr (Or.inr ⟨n, content, rfl, hd, hb.trans (by rw [hbody])⟩)

end HasDirectory

/-! ### The way to the parent -/

/-- A step of a way that takes each directory it comes to and fails at each file. -/
structure Descends (path : String) (f : NodeId → String → TreeM NodeId) : Prop where
  directory : ∀ {t : FileTree} {dir x n}, t.child? dir x = some n → t.isDirectory n = true →
    f dir x t = .ok n t
  file : ∀ {t : FileTree} {dir x n}, t.child? dir x = some n → t.isDirectory n = false →
    f dir x t = .error (.reported (.notADirectory path)) t

theorem ensureDirectory_eq (path : String) (dir : NodeId) (x : String) (t : FileTree) :
    ensureDirectory path dir x t = match t.child? dir x with
      | some n => if t.isDirectory n then .ok n t else .error (.reported (.notADirectory path)) t
      | none => .ok t.nodes.length (t.add dir x .directory) := by
  unfold ensureDirectory
  rw [run_get_bind]
  cases t.child? dir x with
  | none => rfl
  | some n =>
    dsimp only
    split <;> rfl

theorem requireDirectory_eq (path : String) (dir : NodeId) (x : String) (t : FileTree) :
    requireDirectory path dir x t = match t.child? dir x with
      | some n => if t.isDirectory n then .ok n t else .error (.reported (.notADirectory path)) t
      | none => .error (.reported (.notFound path)) t := by
  unfold requireDirectory
  rw [run_get_bind]
  cases t.child? dir x with
  | none => rfl
  | some n =>
    dsimp only
    split <;> rfl

theorem ensureDirectory_descends (path : String) : Descends path (ensureDirectory path) where
  directory hc hd := by simp [ensureDirectory_eq, hc, hd]
  file hc hd := by simp [ensureDirectory_eq, hc, hd]

theorem requireDirectory_descends (path : String) : Descends path (requireDirectory path) where
  directory hc hd := by simp [requireDirectory_eq, hc, hd]
  file hc hd := by simp [requireDirectory_eq, hc, hd]

namespace Descends

variable {f : NodeId → String → TreeM NodeId}

/-- A way through directories is gone to its end. -/
theorem present (hf : Descends path f) (hds : t.HasDirectory ds dir)
    (hns : t.pathMap (ds ++ ns) = some .directory) :
    ∃ n, ns.foldlM f dir t = .ok n t ∧ t.HasDirectory (ds ++ ns) n := by
  induction ns generalizing ds dir with
  | nil => exact ⟨dir, rfl, by rwa [List.append_nil]⟩
  | cons x ns ih =>
    rw [List.append_cons] at hns ⊢
    obtain ⟨k, hk⟩ := pathMap_eq_directory_iff.mp hns
    have hx : t.pathMap (ds ++ [x]) = some .directory :=
      HasDirectory.pathMap_of_prefix hk (List.prefix_append _ _)
    rcases hds.child_cases x with ⟨-, hnone⟩ | ⟨n, hc, hn⟩ | ⟨n, content, -, -, hfile⟩
    · rw [hnone] at hx
      cases hx
    · rw [List.foldlM_cons, run_bind_ok (hf.directory hc hn.2)]
      exact ih hn hns
    · rw [hfile] at hx
      cases hx

/-- A file ends the way. -/
theorem blocked (hf : Descends path f) (hds : t.HasDirectory ds dir)
    {r : List String} (hr : r <+: ns) (hfile : t.pathMap.isFile (ds ++ r) = true) :
    ns.foldlM f dir t = .error (.reported (.notADirectory path)) t := by
  obtain ⟨content, hcontent⟩ := PathMap.isFile_iff.mp hfile
  induction ns generalizing ds dir r with
  | nil =>
    rw [List.prefix_nil.mp hr, List.append_nil, hds.pathMap_eq] at hcontent
    cases hcontent
  | cons x ns ih =>
    rcases List.prefix_cons_iff.mp hr with rfl | ⟨r', rfl, hns⟩
    · rw [List.append_nil, hds.pathMap_eq] at hcontent
      cases hcontent
    · rw [List.append_cons] at hcontent hfile
      rw [List.foldlM_cons]
      rcases hds.child_cases x with ⟨-, hnone⟩ | ⟨n, hc, hn⟩ | ⟨n, content', hc, hn, -⟩
      · -- Nothing lies below what is missing.
        by_cases hr' : r' = []
        · subst hr'
          rw [List.append_nil, hnone] at hcontent
          cases hcontent
        · rw [pathMap_above hr' (by rw [hcontent]; simp)] at hnone
          cases hnone
      · rw [run_bind_ok (hf.directory hc hn.2)]
        exact ih hn hns hfile hcontent
      · exact run_bind_error (hf.file hc hn)

end Descends

/-- A missing directory ends the way, if no file does. -/
theorem require_missing (path : String) (hds : t.HasDirectory ds dir)
    (hfree : t.pathMap.IsFree ds ns) (hnone : t.pathMap (ds ++ ns) = none) :
    ns.foldlM (requireDirectory path) dir t = .error (.reported (.notFound path)) t := by
  induction ns generalizing ds dir with
  | nil =>
    rw [List.append_nil, hds.pathMap_eq] at hnone
    cases hnone
  | cons x ns ih =>
    rw [List.foldlM_cons]
    rcases hds.child_cases x with ⟨hc, -⟩ | ⟨n, hc, hn⟩ | ⟨n, content, -, -, hfile⟩
    · exact run_bind_error (by rw [requireDirectory_eq, hc])
    · rw [run_bind_ok ((requireDirectory_descends path).directory hc hn.2)]
      exact ih hn hfree.tail (by rwa [← List.append_cons])
    · exact absurd hfile hfree.ne_file

/-! ### What is added -/

/-- The tree is well formed, the names lead to the node in it, and it has the map. -/
structure Grown (t : FileTree) (names : List String) (n : NodeId) (m : PathMap) : Prop where
  wellFormed : t.WellFormed
  leads : t.walk t.root names = some n
  pathMap_eq : t.pathMap = m

namespace WellFormed

theorem grown_add (h : t.WellFormed) (hds : t.HasDirectory ds dir) (hfree : t.child? dir x = none)
    (body : NodeBody) :
    (t.add dir x body).Grown (ds ++ [x]) t.nodes.length
      (Function.update t.pathMap (ds ++ [x]) (some body)) where
  wellFormed := h.add hds.2 hfree
  leads := by rw [root_add, h.walk_add hds.1 hds.2 hfree, if_pos rfl]
  pathMap_eq := h.pathMap_add hds.1 hds.2 hfree

/-- **The missing directories are made** if no file is in the way. -/
theorem ensure_ok (h : t.WellFormed) (path : String) (hds : t.HasDirectory ds dir)
    (hfree : t.pathMap.IsFree ds ns) :
    ∃ n t', ns.foldlM (ensureDirectory path) dir t = .ok n t' ∧ t'.isDirectory n = true ∧
      t'.Grown (ds ++ ns) n (t.pathMap.withDirectories (ds ++ ns)) := by
  induction ns generalizing t ds dir with
  | nil =>
    refine ⟨dir, t, rfl, hds.2, h, ?_, ?_⟩
    · rw [List.append_nil, hds.1]
    · rw [List.append_nil, PathMap.withDirectories_of_some]
      intro q hq hnone
      rw [hds.pathMap_of_prefix hq] at hnone
      cases hnone
  | cons x ns ih =>
    rw [List.foldlM_cons, List.append_cons]
    rcases hds.child_cases x with ⟨hc, hnone⟩ | ⟨n, hc, hn⟩ | ⟨n, content, -, -, hfile⟩
    · -- A new directory: it is in nobody's way further down.
      have hmade := h.grown_add hds hc .directory
      have hdir : (t.add dir x .directory).isDirectory t.nodes.length = true := by
        rw [isDirectory_iff_bodyAt?, bodyAt?_add, if_pos rfl]
      have hfree' : (t.add dir x .directory).pathMap.IsFree (ds ++ [x]) ns := by
        rw [hmade.pathMap_eq]
        exact hfree.tail.update
      obtain ⟨k, t', hrun, hk, hgrown⟩ := ih hmade.wellFormed ⟨hmade.leads, hdir⟩ hfree'
      refine ⟨k, t', ?_, hk, ?_⟩
      · rw [run_bind_ok (by rw [ensureDirectory_eq, hc]), hrun]
      · rwa [hmade.pathMap_eq,
          PathMap.withDirectories_update (List.prefix_append _ _) hnone] at hgrown
    · rw [run_bind_ok ((ensureDirectory_descends path).directory hc hn.2)]
      exact ih h hn hfree.tail
    · exact absurd hfile hfree.ne_file

/-- **A file is put** where no directory is. -/
theorem putFile_ok (h : t.WellFormed) (path : String) (hds : t.HasDirectory ds dir)
    (content : Bytes) (hx : t.pathMap (ds ++ [x]) ≠ some .directory) :
    ∃ n t', putFile path dir x content t = .ok n t' ∧
      t'.Grown (ds ++ [x]) n (Function.update t.pathMap (ds ++ [x]) (some (.file content))) := by
  unfold putFile
  rw [run_get_bind]
  rcases hds.child_cases x with ⟨hc, -⟩ | ⟨n, -, hn⟩ | ⟨n, content', hc, hn, -⟩
  · rw [hc]
    exact ⟨_, _, create_run .., h.grown_add hds hc _⟩
  · exact absurd hn.pathMap_eq hx
  · -- The file that was there goes first, and the name is free.
    have hw : t.walk t.root (ds ++ [x]) = some n := (hds.walk_child x).trans hc
    have hds' : (t.unlist n).HasDirectory ds dir := by
      refine ⟨?_, by rw [isDirectory_unlist, hds.2]⟩
      rw [root_unlist, h.walk_unlist hw hn, if_neg (by simp), hds.1]
    have hfree : (t.unlist n).child? dir x = none := by
      rw [h.child?_unlist (lists_of_child? hc), if_pos ⟨rfl, rfl⟩]
    have hgrown := h.unlist.grown_add hds' hfree (.file content)
    rw [h.pathMap_unlist hw hn, Function.update_idem] at hgrown
    rw [hc]
    refine ⟨_, _, ?_, hgrown⟩
    dsimp only
    rw [if_neg (by simp [hn]), run_bind_ok (detach_run n t), create_run]

/-- **A new thing is inserted** where nothing is. -/
theorem insertNew_ok (h : t.WellFormed) (path : String) (hds : t.HasDirectory ds dir)
    (body : NodeBody) (hx : t.pathMap (ds ++ [x]) = none) :
    ∃ n t', insertNew path dir x body t = .ok n t' ∧
      t'.Grown (ds ++ [x]) n (Function.update t.pathMap (ds ++ [x]) (some body)) := by
  have hfree : t.child? dir x = none := by
    rw [← hds.walk_child, ← h.pathMap_eq_none_iff, hx]
  refine ⟨_, _, ?_, h.grown_add hds hfree body⟩
  unfold insertNew
  rw [run_get_bind, hfree]
  exact create_run ..

end WellFormed

namespace HasDirectory

theorem putFile_error (hds : t.HasDirectory ds dir) (content : Bytes)
    (hx : t.pathMap (ds ++ [x]) = some .directory) :
    putFile path dir x content t = .error (.reported (.isADirectory path)) t := by
  obtain ⟨n, hw, hn⟩ := pathMap_eq_directory_iff.mp hx
  have hc : t.child? dir x = some n := (hds.walk_child x).symm.trans hw
  unfold putFile
  rw [run_get_bind, hc]
  dsimp only
  rw [if_pos hn]
  rfl

theorem insertNew_error (hds : t.HasDirectory ds dir) (body : NodeBody)
    (hx : t.pathMap (ds ++ [x]) ≠ none) :
    insertNew path dir x body t = .error (.reported (.alreadyExists path)) t := by
  have hc : (t.child? dir x).isSome = true := by
    rw [← hds.walk_child]
    exact Option.isSome_iff_ne_none.mpr fun hw => hx (pathMap_of_none hw)
  unfold insertNew
  rw [run_get_bind, if_pos hc]
  rfl

end HasDirectory

/-! ### By path -/

/-- The operation does to the tree what is said about its map. -/
def Refines (op : TreeM NodeId) (path : String) (t : FileTree) : Except FsError PathMap → Prop
  | .ok m => ∃ n t', op t = .ok n t' ∧ t'.WellFormed ∧ t'.lookup path = some n ∧ t'.pathMap = m
  | .error e => op t = .error (.reported e) t

theorem Refines.failsCleanly {op : TreeM NodeId} {spec : Except FsError PathMap}
    (h : Refines op path t spec) : FailsCleanly op t := by
  intro e s' hop
  cases spec with
  | ok m =>
    obtain ⟨n, t', hok, -⟩ := h
    rw [hok] at hop
    cases hop
  | error e' =>
    rw [show op t = _ from h] at hop
    cases hop
    rfl

theorem Refines.ok {op : TreeM NodeId} {spec : Except FsError PathMap} {n : NodeId} {t' : FileTree}
    (h : Refines op path t spec) (hop : op t = .ok n t') :
    t'.WellFormed ∧ t'.lookup path = some n ∧ spec = .ok t'.pathMap := by
  cases spec with
  | ok m =>
    obtain ⟨n₁, t₁, hok, hwell, hlookup, hmap⟩ := h
    rw [hok] at hop
    cases hop
    exact ⟨hwell, hlookup, by rw [hmap]⟩
  | error e =>
    rw [show op t = _ from h] at hop
    cases hop

section Parsed

variable {names : List String} (hp : Path.segments path = .ok names)

include hp

theorem lookup_eq (t : FileTree) : t.lookup path = t.walk t.root names := by
  unfold lookup
  rw [hp]

theorem parse_ok (t : FileTree) : parse path t = .ok names t := by
  unfold parse
  rw [hp]
  rfl

theorem Grown.refines {op : TreeM NodeId} {t' : FileTree} {m : PathMap} (h : t'.Grown names n m)
    (hop : op t = .ok n t') : Refines op path t (.ok m) :=
  ⟨n, t', hop, h.wellFormed, (lookup_eq hp t').trans h.leads, h.pathMap_eq⟩

end Parsed

theorem segments_error {e : FsError} (hp : Path.segments path = .error e) :
    e = .malformedPath path := by
  unfold Path.segments at hp
  split at hp
  · cases hp
    rfl
  · split at hp
    · cases hp
    · unfold Path.names at hp
      dsimp only at hp
      split at hp
      · cases hp
        rfl
      · cases hp

theorem parse_error {e : FsError} (hp : Path.segments path = .error e) (t : FileTree) :
    parse path t = .error (.reported (.malformedPath path)) t := by
  rw [← segments_error hp]
  unfold parse
  rw [hp]
  rfl

section Run

variable (hp : Path.segments path = .ok (ds ++ [x]))

include hp

theorem addFile_run (content : Bytes) (t : FileTree) : addFile path content t =
    (ds.foldlM (ensureDirectory path) t.root >>= fun dir => putFile path dir x content) t := by
  unfold addFile
  rw [run_bind_ok (parse_ok hp t), List.getLast?_concat, List.dropLast_concat]
  exact run_get_bind ..

theorem createAt_run (body : NodeBody) (t : FileTree) : createAt path body t =
    (ds.foldlM (requireDirectory path) t.root >>= fun dir => insertNew path dir x body) t := by
  unfold createAt
  rw [run_bind_ok (parse_ok hp t), List.getLast?_concat, List.dropLast_concat]
  exact run_get_bind ..

end Run

namespace WellFormed

/-- The way from the root through directories that are made where they are missing. -/
theorem ensure_root (h : t.WellFormed) (path : String) (ns : List String) :
    if t.pathMap.isBlocked ns then
      ns.foldlM (ensureDirectory path) t.root t = .error (.reported (.notADirectory path)) t
    else ∃ n t', ns.foldlM (ensureDirectory path) t.root t = .ok n t' ∧ t'.isDirectory n = true ∧
      t'.Grown ns n (t.pathMap.withDirectories ns) := by
  split
  · next hb =>
    obtain ⟨r, hr, hfile⟩ := PathMap.isBlocked_iff.mp hb
    exact (ensureDirectory_descends path).blocked h.hasDirectory_root hr hfile
  · next hb =>
    exact h.ensure_ok path h.hasDirectory_root (.of_not_isBlocked hb)

theorem createDirectories_refines (h : t.WellFormed) (path : String) :
    Refines (createDirectories path) path t (t.pathMap.createDirectories path) := by
  unfold createDirectories PathMap.createDirectories
  cases hp : Path.segments path with
  | error e => exact run_bind_error (parse_error hp t)
  | ok names =>
    have hway := h.ensure_root path names
    dsimp only
    split
    · next hb =>
      rw [if_pos hb] at hway
      exact (run_bind_ok (parse_ok hp t)).trans hway
    · next hb =>
      rw [if_neg hb] at hway
      obtain ⟨n, t', hrun, -, hgrown⟩ := hway
      exact hgrown.refines hp ((run_bind_ok (parse_ok hp t)).trans hrun)

theorem addFile_refines (h : t.WellFormed) (path : String) (content : Bytes) :
    Refines (addFile path content) path t (t.pathMap.addFile path content) := by
  unfold PathMap.addFile
  cases hp : Path.segments path with
  | error e => exact run_bind_error (parse_error hp t)
  | ok names =>
    rcases List.eq_nil_or_concat names with rfl | ⟨ds, x, rfl⟩
    · exact run_bind_ok (parse_ok hp t)
    rw [List.concat_eq_append] at hp ⊢
    have hway := h.ensure_root path ds
    dsimp only
    rw [if_neg (by simp), List.dropLast_concat]
    split
    · next hb =>
      rw [if_pos hb] at hway
      exact (addFile_run hp content t).trans (run_bind_error hway)
    · next hb =>
      split
      · next hdir =>
        -- Whatever leads to a directory is there already, and nothing has been made.
        have hds : t.pathMap ds = some .directory :=
          pathMap_above (List.cons_ne_nil x []) (by rw [hdir]; simp)
        obtain ⟨n, hrun, hn⟩ :=
          (ensureDirectory_descends path).present h.hasDirectory_root hds
        exact (addFile_run hp content t).trans
          ((run_bind_ok hrun).trans (hn.putFile_error content hdir))
      · next hdir =>
        rw [if_neg hb] at hway
        obtain ⟨n, t', hrun, hn, hgrown⟩ := hway
        obtain ⟨k, t'', hput, hgrown'⟩ := hgrown.wellFormed.putFile_ok path ⟨hgrown.leads, hn⟩ content
          (x := x) (by rwa [hgrown.pathMap_eq, PathMap.withDirectories_snoc])
        rw [hgrown.pathMap_eq] at hgrown'
        exact hgrown'.refines hp ((addFile_run hp content t).trans ((run_bind_ok hrun).trans hput))

theorem createAt_refines (h : t.WellFormed) (path : String) (body : NodeBody) :
    Refines (createAt path body) path t (t.pathMap.createAt path body) := by
  unfold PathMap.createAt
  cases hp : Path.segments path with
  | error e => exact run_bind_error (parse_error hp t)
  | ok names =>
    rcases List.eq_nil_or_concat names with rfl | ⟨ds, x, rfl⟩
    · exact run_bind_ok (parse_ok hp t)
    rw [List.concat_eq_append] at hp ⊢
    have hroot := h.hasDirectory_root
    dsimp only
    rw [if_neg (by simp), List.dropLast_concat]
    split
    · next hb =>
      obtain ⟨r, hr, hfile⟩ := PathMap.isBlocked_iff.mp hb
      exact (createAt_run hp body t).trans
        (run_bind_error ((requireDirectory_descends path).blocked hroot hr hfile))
    · next hb =>
      have hfree := PathMap.IsFree.of_not_isBlocked hb
      split
      · next hnone =>
        exact (createAt_run hp body t).trans (run_bind_error (require_missing path hroot hfree hnone))
      · next hsome =>
        obtain ⟨n, hrun, hn⟩ := (requireDirectory_descends path).present hroot
          (PathMap.eq_directory (hfree ds List.prefix_rfl) hsome)
        split
        · next htaken =>
          exact (createAt_run hp body t).trans ((run_bind_ok hrun).trans
            (hn.insertNew_error body htaken))
        · next hx =>
          obtain ⟨k, t', hput, hgrown⟩ := h.insertNew_ok path hn body (not_not.mp hx)
          exact hgrown.refines hp ((createAt_run hp body t).trans ((run_bind_ok hrun).trans hput))

end WellFormed

end FileTree

end WasiSandbox
