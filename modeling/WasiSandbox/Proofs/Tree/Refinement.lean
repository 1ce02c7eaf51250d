import WasiSandbox.Proofs.Text.Decoding
import WasiSandbox.Proofs.Tree.Operations

/-! # Every tree is its map

A tree grows from the empty one by operations, some of which may fail (`FileTree.run`). Whatever they
were, it is well formed, so its map says all there is to say about it: what each of the operations on
paths makes of it or why it is refused, and what each reader finds (`Mirrors`). -/

namespace WasiSandbox

/-- What can be done to a tree. -/
inductive TreeOperation where
  | addFile (path : String) (content : Bytes)
  | createDirectories (path : String)
  | createDirectory (path : String)
  | createFile (path : String)
  | writeAt (n : NodeId) (offset : Nat) (data : Bytes)
  | append (n : NodeId) (data : Bytes)
  | setLength (n : NodeId) (length : Nat)
  | replaceWith (files : List (String × Bytes))

/-- The content of a file; a directory has none. -/
def NodeBody.content? : NodeBody → Option Bytes
  | .file content => some content
  | .directory => none

namespace FileTree

variable {t : FileTree} {n : NodeId} {path x : String} {names : List String}

/-- The tree after the operation, whatever has come of it. -/
def perform (t : FileTree) : TreeOperation → FileTree
  | .addFile path content => left (addFile path content t)
  | .createDirectories path => left (createDirectories path t)
  | .createDirectory path => left (createDirectory path t)
  | .createFile path => left (createFile path t)
  | .writeAt n offset data => left (writeAt n offset data t)
  | .append n data => left (append n data t)
  | .setLength n length => left (setLength n length t)
  | .replaceWith files => left (replaceWith files t)

/-- The tree after the operations. -/
def run (t : FileTree) (ops : List TreeOperation) : FileTree := ops.foldl perform t

/-! ### The shape is kept -/

theorem Refines.wellFormed {op : TreeM NodeId} {spec : Except FsError PathMap}
    (h : Refines op path t spec) (ht : t.WellFormed) : (left (op t)).WellFormed := by
  cases spec with
  | ok m =>
    obtain ⟨n, t', hok, ht', -⟩ := h
    rw [hok]
    exact ht'
  | error e =>
    rw [show op t = _ from h]
    exact ht

theorem file?_not_directory {f : String × Bytes} (h : t.file? n = some f) :
    t.isDirectory n = false := by
  unfold file? at h
  unfold isDirectory kind?
  split at h
  · next hn => simp [hn, NodeBody.kind]
  · cases h

theorem updateContent_run {α : Type} (n : NodeId)
    (f : String → Bytes → Except (Failure FsError) (α × Bytes)) (t : FileTree) :
    updateContent n f t = match t.file? n with
      | none => .ok none t
      | some (name, content) => match f name content with
        | .error e => .error e t
        | .ok (a, content) => .ok (some a) (t.withContent n content) := by
  unfold updateContent
  rw [run_get_bind]
  cases t.file? n with
  | none => rfl
  | some p =>
    dsimp only
    cases f p.1 p.2 <;> rfl

/-- What is left when a tree has been built to take the place of the old one: the one, and then the old root
has lost a handle, or the other. -/
theorem left_replaceWith (files : List (String × Bytes)) (t : FileTree) :
    left (replaceWith files t) = (left (addFiles files t.replant)).drop t.root ∨
      left (replaceWith files t) = t := by
  unfold replaceWith
  cases addFiles files t.replant with
  | ok u t' => exact Or.inl rfl
  | error e t' => exact Or.inr rfl

namespace WellFormed

theorem updateContent (h : t.WellFormed) {α : Type} (n : NodeId)
    (f : String → Bytes → Except (Failure FsError) (α × Bytes)) :
    (left (FileTree.updateContent n f t)).WellFormed := by
  rw [updateContent_run]
  split
  · exact h
  · next hfile =>
    split
    · exact h
    · exact h.withContent (file?_not_directory hfile)

theorem addFiles (h : t.WellFormed) (files : List (String × Bytes)) :
    (left (FileTree.addFiles files t)).WellFormed := by
  have hadd : ∀ f : String × Bytes, Maintains WellFormed (addFile f.1 f.2) := fun f _ h =>
    (h.addFile_refines f.1 f.2).wellFormed h
  exact maintains_forM (fun f => (hadd f).discard) files t h

/-- A tree that takes the place of the old one is well formed, and the old one still is. -/
theorem replaceWith (h : t.WellFormed) (files : List (String × Bytes)) :
    (left (FileTree.replaceWith files t)).WellFormed := by
  rcases left_replaceWith files t with heq | heq
  · rw [heq]
    exact (h.replant.addFiles files).withCounts _
  · rwa [heq]

theorem perform (h : t.WellFormed) (op : TreeOperation) : (t.perform op).WellFormed := by
  cases op with
  | addFile path content => exact (h.addFile_refines path content).wellFormed h
  | createDirectories path => exact (h.createDirectories_refines path).wellFormed h
  | createDirectory path => exact (h.createAt_refines path _).wellFormed h
  | createFile path => exact (h.createAt_refines path _).wellFormed h
  | writeAt n offset data => exact h.updateContent n _
  | append n data => exact h.updateContent n _
  | setLength n length => exact h.updateContent n _
  | replaceWith files => exact h.replaceWith files

/-- **Operations keep the shape.** -/
theorem run (h : t.WellFormed) (ops : List TreeOperation) : (t.run ops).WellFormed := by
  induction ops generalizing t with
  | nil => exact h
  | cons op ops ih => exact ih (h.perform op)

end WellFormed

/-! ### Readers -/

theorem bodyAt?_content : (t.bodyAt? n).bind NodeBody.content? = t.content? n := by
  unfold bodyAt? content? file?
  cases t.node? n with
  | none => rfl
  | some m =>
    obtain ⟨name, parent, body⟩ := m
    cases body <;> rfl

theorem lookup_bodyAt? (t : FileTree) (path : String) :
    (t.lookup path).bind t.bodyAt? = t.pathMap.at? path := by
  unfold lookup PathMap.at?
  cases Path.segments path <;> rfl

theorem contentAt_eq (t : FileTree) (path : String) :
    t.contentAt path = (t.pathMap.at? path).bind NodeBody.content? := by
  unfold contentAt
  rw [← lookup_bodyAt?, Option.bind_assoc]
  exact Option.bind_congr fun n _ => bodyAt?_content.symm

theorem mem_entries_iff_lists {kind : NodeKind} :
    (x, kind) ∈ t.entries n ↔ ∃ k, t.Lists n x k ∧ t.kind? k = some kind := by
  unfold entries
  simp only [List.mem_mergeSort, List.mem_map, List.mem_filter, beq_iff_eq, Prod.mk.injEq]
  constructor
  · rintro ⟨m, ⟨hm, hp⟩, hx, hkind⟩
    obtain ⟨k, hk⟩ := List.mem_iff_getElem?.mp hm
    exact ⟨k, ⟨m, hk, hp, hx⟩, kind?_eq_some_iff.mpr ⟨m, hk, hkind⟩⟩
  · rintro ⟨k, ⟨m, hm, hp, hx⟩, hkind⟩
    obtain ⟨m', hm', hkind'⟩ := kind?_eq_some_iff.mp hkind
    cases hm.symm.trans hm'
    exact ⟨m, ⟨List.mem_of_getElem? hm, hp⟩, hx, hkind'⟩

namespace WellFormed

theorem lookup_isSome (h : t.WellFormed) (path : String) :
    (t.lookup path).isSome = (t.pathMap.at? path).isSome := by
  unfold lookup PathMap.at?
  cases Path.segments path with
  | error e => rfl
  | ok names =>
    dsimp only
    rw [← Option.not_isNone, ← Option.not_isNone]
    congr 1
    rw [Bool.eq_iff_iff, Option.isNone_iff_eq_none, Option.isNone_iff_eq_none, h.pathMap_eq_none_iff]

/-- **What a directory lists** is what stands one name below it. -/
theorem mem_entries_iff (h : t.WellFormed) (hn : t.HasDirectory names n) {kind : NodeKind} :
    (x, kind) ∈ t.entries n ↔ (t.pathMap (names ++ [x])).map NodeBody.kind = some kind := by
  rw [mem_entries_iff_lists, pathMap, hn.walk_child, Option.map_eq_some_iff]
  constructor
  · rintro ⟨k, hk, hkind⟩
    obtain ⟨m, hm, rfl⟩ := kind?_eq_some_iff.mp hkind
    refine ⟨m.body, ?_, rfl⟩
    rw [h.child?_eq_some_iff.mpr hk, Option.bind_some, bodyAt?, hm, Option.map_some]
  · rintro ⟨body, hbody, hkind⟩
    obtain ⟨k, hc, hk⟩ := Option.bind_eq_some_iff.mp hbody
    obtain ⟨m, hm, hp⟩ := lists_of_child? hc
    rw [bodyAt?, hm, Option.map_some] at hk
    exact ⟨k, ⟨m, hm, hp⟩, kind?_eq_some_iff.mpr ⟨m, hm, by rw [Option.some.inj hk, hkind]⟩⟩

/-- A directory lists each name once, in the order of the names. -/
theorem entries_sorted (h : t.WellFormed) (n : NodeId) :
    ((t.entries n).map (·.1)).Pairwise fun a b => Text.nameLe a b = true ∧ a ≠ b := by
  have hsorted : (t.entries n).Pairwise fun a b => Text.nameLe a.1 b.1 = true := by
    unfold entries
    apply List.pairwise_mergeSort
    · exact fun a b c hab hbc => Text.nameLe_trans hab hbc
    · exact fun a b => Text.nameLe_total a.1 b.1
  have hnodup : ((t.entries n).map (·.1)).Nodup := by
    unfold entries
    refine ((List.mergeSort_perm _ _).map _).nodup_iff.mpr ?_
    rw [List.map_map, List.Nodup, List.pairwise_map, List.pairwise_filter,
      List.pairwise_iff_getElem]
    intro i j hi hj hij hp hp' heq
    have hi' : t.Lists n t.nodes[i].name i :=
      ⟨t.nodes[i], List.getElem?_eq_getElem hi, by simpa using hp, rfl⟩
    have hj' : t.Lists n t.nodes[i].name j :=
      ⟨t.nodes[j], List.getElem?_eq_getElem hj, by simpa using hp', heq.symm⟩
    exact absurd (h.distinct hi' hj') (Nat.ne_of_lt hij)
  exact (List.pairwise_map.mpr hsorted).and hnodup

end WellFormed

/-! ### All at once -/

theorem pathMap_empty :
    FileTree.empty.pathMap = fun q => if q = [] then some .directory else none := by
  funext q
  cases q with
  | nil => rfl
  | cons x q => rfl

/-- The map of the tree says what becomes of it and what is read from it. -/
structure Mirrors (t : FileTree) : Prop where
  closed : t.pathMap.Closed
  addFile : ∀ path content, Refines (addFile path content) path t (t.pathMap.addFile path content)
  createDirectories : ∀ path,
    Refines (createDirectories path) path t (t.pathMap.createDirectories path)
  createDirectory : ∀ path, Refines (createDirectory path) path t (t.pathMap.createAt path .directory)
  createFile : ∀ path, Refines (createFile path) path t (t.pathMap.createAt path (.file []))
  lookup : ∀ path, (t.lookup path).bind t.bodyAt? = t.pathMap.at? path
  lookup_isSome : ∀ path, (t.lookup path).isSome = (t.pathMap.at? path).isSome
  contentAt : ∀ path, t.contentAt path = (t.pathMap.at? path).bind NodeBody.content?
  entries : ∀ path names n, Path.segments path = .ok names → t.lookup path = some n →
    t.isDirectory n = true →
    (∀ x kind, (x, kind) ∈ t.entries n ↔
      (t.pathMap (names ++ [x])).map NodeBody.kind = some kind) ∧
    ((t.entries n).map (·.1)).Pairwise fun a b => Text.nameLe a b = true ∧ a ≠ b

theorem WellFormed.mirrors (h : t.WellFormed) : t.Mirrors where
  closed := h.pathMap_closed
  addFile := h.addFile_refines
  createDirectories := h.createDirectories_refines
  createDirectory path := h.createAt_refines path .directory
  createFile path := h.createAt_refines path (.file [])
  lookup := t.lookup_bodyAt?
  lookup_isSome := h.lookup_isSome
  contentAt := t.contentAt_eq
  entries _ _ n hp hn hd :=
    ⟨fun _ _ => h.mem_entries_iff ⟨(lookup_eq hp t).symm.trans hn, hd⟩, h.entries_sorted n⟩

/-- **A tree that has grown from the empty one is its map**: every operation on it and every reader
of it does what the same does on the map. -/
theorem run_mirrors (ops : List TreeOperation) : (FileTree.empty.run ops).Mirrors :=
  (WellFormed.empty.run ops).mirrors

end FileTree

end WasiSandbox
