import WasiSandbox.Proofs.Tree.Shape
import Mathlib.Data.Set.Finite.Basic
import Mathlib.Data.List.Infix

/-! # Trees as maps from paths

Seen from outside, a tree is a map: each list of names leads to a directory, to a file with its
content, or to nothing. `PathMap` has the four operations that make nodes, each with the errors in
the order in which they are found, and `FileTree.pathMap` is the map of a tree. -/

namespace WasiSandbox

/-- What the lists of names lead to. -/
abbrev PathMap := List String → Option NodeBody

namespace PathMap

/-- The names lead to a file. -/
def isFile (m : PathMap) (names : List String) : Bool :=
  match m names with
  | some (.file _) => true
  | _ => false

/-- A file stands at the names or on the way to them. -/
def isBlocked (m : PathMap) (names : List String) : Bool := names.inits.any m.isFile

/-- There is a directory at the root and above whatever is there, and there are finitely many
things. -/
structure Closed (m : PathMap) : Prop where
  root : m [] = some .directory
  above : ∀ {q q'}, q <+: q' → q ≠ q' → m q' ≠ none → m q = some .directory
  finite : {q | m q ≠ none}.Finite

/-! ### Operations -/

/-- A directory wherever something is missing at the names or on the way to them. -/
def withDirectories (m : PathMap) (names : List String) : PathMap := fun q =>
  if q <+: names ∧ m q = none then some .directory else m q

/-- Adds or replaces a file, with the missing directories above it. -/
def addFile (m : PathMap) (path : String) (content : Bytes) : Except FsError PathMap :=
  match Path.segments path with
  | .error _ => .error (.malformedPath path)
  | .ok names =>
    if names = [] then .error (.isADirectory path)
    else if m.isBlocked names.dropLast then .error (.notADirectory path)
    else if m names = some .directory then .error (.isADirectory path)
    else .ok (Function.update (m.withDirectories names.dropLast) names (some (.file content)))

/-- Adds the missing directories. -/
def createDirectories (m : PathMap) (path : String) : Except FsError PathMap :=
  match Path.segments path with
  | .error _ => .error (.malformedPath path)
  | .ok names =>
    if m.isBlocked names then .error (.notADirectory path) else .ok (m.withDirectories names)

/-- Adds one thing in a directory that is there. -/
def createAt (m : PathMap) (path : String) (body : NodeBody) : Except FsError PathMap :=
  match Path.segments path with
  | .error _ => .error (.malformedPath path)
  | .ok names =>
    if names = [] then .error (.alreadyExists path)
    else if m.isBlocked names.dropLast then .error (.notADirectory path)
    else if m names.dropLast = none then .error (.notFound path)
    else if m names ≠ none then .error (.alreadyExists path)
    else .ok (Function.update m names (some body))

/-- What the path leads to. -/
def at? (m : PathMap) (path : String) : Option NodeBody :=
  match Path.segments path with
  | .error _ => none
  | .ok names => m names

/-! ### Small facts -/

variable {m : PathMap} {names q : List String}

theorem isFile_iff : m.isFile names = true ↔ ∃ content, m names = some (.file content) := by
  unfold isFile
  split <;> simp_all

theorem isBlocked_iff : m.isBlocked names = true ↔ ∃ q, q <+: names ∧ m.isFile q = true := by
  simp [isBlocked]

/-- One thing is added where nothing was. -/
theorem createAt_ok {m' : PathMap} {path : String} {body : NodeBody}
    (h : m.createAt path body = .ok m') : ∃ names, Path.segments path = .ok names ∧
      m names = none ∧ m' = Function.update m names (some body) := by
  unfold createAt at h
  cases hp : Path.segments path with
  | error e =>
    rw [hp] at h
    cases h
  | ok names =>
    rw [hp] at h
    dsimp only at h
    split at h
    · cases h
    · split at h
      · cases h
      · split at h
        · cases h
        · split at h
          · cases h
          · next hfree =>
            cases h
            exact ⟨names, rfl, not_not.mp hfree, rfl⟩

theorem withDirectories_of_some (h : ∀ q, q <+: names → m q ≠ none) :
    m.withDirectories names = m := by
  funext q
  unfold withDirectories
  rw [if_neg fun hq => h q hq.1 hq.2]

theorem withDirectories_snoc {x : String} :
    m.withDirectories names (names ++ [x]) = m (names ++ [x]) := by
  unfold withDirectories
  rw [if_neg]
  rintro ⟨h, -⟩
  have hlen := h.length_le
  rw [List.length_append, List.length_singleton] at hlen
  omega

theorem eq_directory (hfile : m.isFile names = false) (hm : m names ≠ none) :
    m names = some .directory := by
  unfold isFile at hfile
  split at hfile
  · cases hfile
  · next hne =>
    cases hbody : m names with
    | none => exact absurd hbody hm
    | some body =>
      cases body with
      | directory => rfl
      | file content => exact absurd hbody (hne content)

/-- A directory on the way may as well be added before. -/
theorem withDirectories_update (hq : q <+: names) (hm : m q = none) :
    withDirectories (Function.update m q (some .directory)) names = m.withDirectories names := by
  funext r
  unfold withDirectories
  by_cases hr : r = q
  · subst hr
    simp [hq, hm]
  · simp [Function.update_of_ne hr]

theorem isFile_update_directory (h : m.isFile names = false) :
    PathMap.isFile (Function.update m q (some .directory)) names = false := by
  by_cases hn : names = q
  · simp [isFile, hn]
  · unfold isFile
    rw [Function.update_of_ne hn]
    exact h

/-- No file stands at the names behind `ds` or on the way to them. -/
def IsFree (m : PathMap) (ds ns : List String) : Prop := ∀ r, r <+: ns → m.isFile (ds ++ r) = false

namespace IsFree

variable {ds ns : List String} {x : String}

theorem tail (h : m.IsFree ds (x :: ns)) : m.IsFree (ds ++ [x]) ns := by
  intro r hr
  rw [← List.append_cons]
  exact h (x :: r) ((List.prefix_cons_inj x).mpr hr)

theorem ne_file (h : m.IsFree ds (x :: ns)) {content : Bytes} :
    m (ds ++ [x]) ≠ some (.file content) := by
  intro hfile
  have hx := h [x] (List.cons_prefix_cons.mpr ⟨rfl, List.nil_prefix⟩)
  rw [isFile_iff.mpr ⟨content, hfile⟩] at hx
  cases hx

/-- One more directory is in nobody's way. -/
theorem update (h : m.IsFree ds ns) :
    IsFree (Function.update m q (some .directory)) ds ns :=
  fun r hr => isFile_update_directory (h r hr)

theorem of_not_isBlocked (h : ¬ m.isBlocked ns = true) : m.IsFree [] ns := fun r hr =>
  Bool.eq_false_iff.mpr fun hfile => h (isBlocked_iff.mpr ⟨r, hr, hfile⟩)

end IsFree

end PathMap

namespace FileTree

variable {t : FileTree} {n dir : NodeId} {x : String} {q ds : List String} {body : NodeBody}

/-- What a node is. -/
def bodyAt? (t : FileTree) (n : NodeId) : Option NodeBody := (t.node? n).map (·.body)

/-- What the names lead to in the tree. -/
def pathMap (t : FileTree) : PathMap := fun names => (t.walk t.root names).bind t.bodyAt?

theorem isDirectory_iff_bodyAt? : t.isDirectory n = true ↔ t.bodyAt? n = some .directory := by
  simp [isDirectory_iff, bodyAt?]

theorem pathMap_of_walk (hq : t.walk t.root q = some n) : t.pathMap q = t.bodyAt? n := by
  simp [pathMap, hq]

theorem pathMap_of_none (hq : t.walk t.root q = none) : t.pathMap q = none := by
  simp [pathMap, hq]

theorem pathMap_eq_directory_iff :
    t.pathMap q = some .directory ↔ ∃ n, t.walk t.root q = some n ∧ t.isDirectory n = true := by
  simp [pathMap, Option.bind_eq_some_iff, isDirectory_iff_bodyAt?]

theorem bodyAt?_ne_none (hn : n < t.nodes.length) : t.bodyAt? n ≠ none := by
  simp [bodyAt?, node?, hn]

theorem bodyAt?_add : (t.add dir x body).bodyAt? n =
    if n = t.nodes.length then some body else t.bodyAt? n := by
  unfold bodyAt?
  rw [node?_add]
  split <;> rfl

theorem bodyAt?_unlist {k : NodeId} : (t.unlist n).bodyAt? k = t.bodyAt? k := by
  unfold bodyAt?
  rw [node?_unlist]
  cases t.node? k with
  | none => rfl
  | some m => by_cases h : n = k <;> simp [h]

/-- Above whatever is there is a directory. -/
theorem pathMap_above {r : List String} (hr : r ≠ []) (h : t.pathMap (q ++ r) ≠ none) :
    t.pathMap q = some .directory := by
  cases hq : t.walk t.root q with
  | none => exact absurd (pathMap_of_none (by rw [walk_append, hq]; rfl)) h
  | some n =>
    refine pathMap_eq_directory_iff.mpr ⟨n, hq, ?_⟩
    by_contra hn
    obtain ⟨x, r, rfl⟩ := List.exists_cons_of_ne_nil hr
    exact h (pathMap_of_none (by rw [walk_append, hq, Option.bind_some, walk_cons, if_neg hn]))

namespace WellFormed

theorem pathMap_eq_none_iff (h : t.WellFormed) : t.pathMap q = none ↔ t.walk t.root q = none := by
  refine ⟨fun hq => ?_, pathMap_of_none⟩
  cases hw : t.walk t.root q with
  | none => rfl
  | some n => exact absurd (pathMap_of_walk hw ▸ hq) (bodyAt?_ne_none (h.walk_lt hw))

/-- **The map of a tree** is closed. -/
theorem pathMap_closed (h : t.WellFormed) : t.pathMap.Closed where
  root := pathMap_eq_directory_iff.mpr ⟨t.root, rfl, h.root_isDirectory⟩
  above {q q'} hq hne hq' := by
    obtain ⟨r, rfl⟩ := hq
    exact pathMap_above (by rintro rfl; simp at hne) hq'
  finite := by
    -- The node at the end of a way determines the way, and there are finitely many nodes.
    refine Set.Finite.of_injOn (f := fun q => (t.walk t.root q).getD 0)
      (t := {n | n < t.nodes.length}) (fun q hq => ?_) (fun q hq q' hq' heq => ?_) (Set.finite_lt_nat _)
    · obtain ⟨n, hn⟩ := Option.ne_none_iff_exists'.mp fun hw => hq (pathMap_of_none hw)
      simpa [hn] using h.walk_lt hn
    · obtain ⟨n, hn⟩ := Option.ne_none_iff_exists'.mp fun hw => hq (pathMap_of_none hw)
      obtain ⟨n', hn'⟩ := Option.ne_none_iff_exists'.mp fun hw => hq' (pathMap_of_none hw)
      obtain rfl : n = n' := by simpa [hn, hn'] using heq
      exact h.walk_root_injective hn hn'

/-! ### After a change -/

theorem child?_add (h : t.WellFormed) (hdir : t.isDirectory dir = true)
    (hfree : t.child? dir x = none) (k : NodeId) (y : String) :
    (t.add dir x body).child? k y =
      if k = dir ∧ y = x then some t.nodes.length else t.child? k y := by
  ext n
  rw [(h.add hdir hfree).child?_eq_some_iff, lists_add]
  split
  · next heq =>
    obtain ⟨rfl, rfl⟩ := heq
    simp [child?_eq_none_iff.mp hfree n, eq_comm]
  · next hne => simp [h.child?_eq_some_iff, hne]

theorem child?_unlist (h : t.WellFormed) (hn : t.Lists dir x n) (k : NodeId) (y : String) :
    (t.unlist n).child? k y = if k = dir ∧ y = x then none else t.child? k y := by
  ext j
  rw [h.unlist.child?_eq_some_iff, lists_unlist]
  split
  · next heq =>
    obtain ⟨rfl, rfl⟩ := heq
    simpa using fun hj => h.distinct hj hn
  · next hne =>
    rw [h.child?_eq_some_iff, and_iff_left_iff_imp]
    rintro ⟨m, hm, hp, hx⟩ rfl
    obtain ⟨m', hm', hp', hx'⟩ := hn
    rw [hm] at hm'
    cases hm'
    rw [hp] at hp'
    cases hp'
    exact hne ⟨rfl, hx.symm.trans hx'⟩

/-- **A change of one child** changes where one way leads, if nothing lies below the child before the
change or after it. -/
theorem walk_rebind (h : t.WellFormed) {t' : FileTree} {new : Option NodeId}
    (hds : t.walk t.root ds = some dir) (hdir : t.isDirectory dir = true)
    (hkind : ∀ k < t.nodes.length, t'.isDirectory k = t.isDirectory k)
    (hchild : ∀ k y, t'.child? k y = if k = dir ∧ y = x then new else t.child? k y)
    (hold : ∀ n, t.child? dir x = some n → t.isDirectory n = false)
    (hnew : ∀ n, new = some n → ∀ y, t'.child? n y = none) (q : List String) :
    t'.walk t.root q = if q = ds ++ [x] then new else t.walk t.root q := by
  induction q using List.reverseRecOn with
  | nil => simp
  | append_singleton q y ih =>
    rw [walk_snoc, walk_snoc, ih]
    by_cases hq : q = ds ++ [x]
    · -- Below the child there is nothing, neither before nor after.
      have hbelow : (t.walk t.root q).bind (fun n => if t.isDirectory n then t.child? n y else none)
          = none := by
        rw [hq, walk_snoc, hds, Option.bind_some, if_pos hdir]
        cases hc : t.child? dir x with
        | none => rfl
        | some n => simp [hold n hc]
      rw [if_pos hq, if_neg (by simp [hq]), hbelow]
      cases hn : new with
      | none => rfl
      | some n => simp [hnew n hn]
    · rw [if_neg hq]
      cases hw : t.walk t.root q with
      | none =>
        have hne : q ++ [y] ≠ ds ++ [x] := by
          intro heq
          rw [(List.append_inj' heq rfl).1, hds] at hw
          cases hw
        rw [if_neg hne]
        rfl
      | some n =>
        rw [Option.bind_some, Option.bind_some, hkind n (h.walk_lt hw), hchild]
        by_cases hn : n = dir
        · obtain rfl : q = ds := h.walk_root_injective (hn ▸ hw) hds
          simp [hn, hdir]
        · have hne : q ++ [y] ≠ ds ++ [x] := by
            intro heq
            rw [(List.append_inj' heq rfl).1, hds] at hw
            exact hn (Option.some.inj hw).symm
          simp [hn, hne]

/-- **One more node** is reached by its own way, and all others are reached as before. -/
theorem walk_add (h : t.WellFormed) (hds : t.walk t.root ds = some dir)
    (hdir : t.isDirectory dir = true) (hfree : t.child? dir x = none) (q : List String) :
    (t.add dir x body).walk t.root q =
      if q = ds ++ [x] then some t.nodes.length else t.walk t.root q := by
  refine h.walk_rebind hds hdir (fun k hk => isDirectory_add hk) (child?_add h hdir hfree)
    (fun n hn => ?_) (fun n hn y => ?_) q
  · rw [hfree] at hn
    cases hn
  · -- What is listed in a node is younger than it.
    cases hn
    refine child?_eq_none_iff.mpr fun k hk => ?_
    have hlt := ((h.add hdir hfree).dir_lt hk).1
    obtain ⟨m, hm, -⟩ := hk
    have hk' := node?_lt hm
    simp only [FileTree.add, List.length_append, List.length_singleton] at hk'
    exact Nat.not_lt.mpr (Nat.le_of_lt_succ hk') hlt

/-- **A file that is taken out** is reached no more, and all others are reached as before. -/
theorem walk_unlist (h : t.WellFormed) (hw : t.walk t.root (ds ++ [x]) = some n)
    (hfile : t.isDirectory n = false) (q : List String) :
    (t.unlist n).walk t.root q = if q = ds ++ [x] then none else t.walk t.root q := by
  obtain ⟨dir, hds, hdir, hc⟩ := walk_snoc_eq_some_iff.mp hw
  refine h.walk_rebind hds hdir (fun k _ => isDirectory_unlist)
    (child?_unlist h (lists_of_child? hc)) (fun k hk => ?_) (fun k hk => ?_) q
  · rw [hc] at hk
    cases hk
    exact hfile
  · cases hk

/-- The map with one more node. -/
theorem pathMap_add (h : t.WellFormed) (hds : t.walk t.root ds = some dir)
    (hdir : t.isDirectory dir = true) (hfree : t.child? dir x = none) :
    (t.add dir x body).pathMap = Function.update t.pathMap (ds ++ [x]) (some body) := by
  funext q
  unfold pathMap
  rw [root_add, walk_add h hds hdir hfree, Function.update_apply]
  split
  · simp [bodyAt?_add]
  · refine Option.bind_congr fun n hn => ?_
    rw [bodyAt?_add, if_neg (Nat.ne_of_lt (h.walk_lt hn))]

/-- The map with a file less. -/
theorem pathMap_unlist (h : t.WellFormed) (hw : t.walk t.root (ds ++ [x]) = some n)
    (hfile : t.isDirectory n = false) :
    (t.unlist n).pathMap = Function.update t.pathMap (ds ++ [x]) none := by
  funext q
  unfold pathMap
  rw [root_unlist, walk_unlist h hw hfile, Function.update_apply]
  split
  · rfl
  · exact Option.bind_congr fun n _ => bodyAt?_unlist

end WellFormed

end FileTree

end WasiSandbox
