import WasiSandbox.Proofs.Tree.Ownership

/-! # Files that nobody writes to

The content of a file changes only where something is written through its node. Nodes that are made are new
ones, and a file that is taken out of its directory keeps what is in it, so whatever else is done to a tree
leaves the content as it is (`Spares`, `perform_spares`). -/

namespace WasiSandbox

namespace FileTree

variable {t : FileTree} {n k dir : NodeId} {x path : String} {content : Bytes} {body : NodeBody}
  {α β : Type}

/-! ### Contents -/

theorem content?_lt (h : t.content? n = some content) : n < t.nodes.length := by
  obtain ⟨m, hm, -⟩ := Option.map_eq_some_iff.mp (content?_eq_some_iff.mp h)
  exact node?_lt hm

theorem content?_add (h : t.content? n = some content) (dir : NodeId) (x : String) (body : NodeBody) :
    (t.add dir x body).content? n = some content := by
  have hne : n ≠ t.nodes.length := Nat.ne_of_lt (content?_lt h)
  rw [content?_eq_some_iff, bodyAt?_add, if_neg hne]
  exact content?_eq_some_iff.mp h

theorem content?_unlist (t : FileTree) (k n : NodeId) : (t.unlist k).content? n = t.content? n := by
  rw [← bodyAt?_content, bodyAt?_unlist, bodyAt?_content]

/-! ### Operations -/

/-- The operation leaves the content of the file as it is, whatever comes of it. -/
def Spares (n : NodeId) (op : TreeM α) : Prop :=
  ∀ content, Maintains (fun t : FileTree => t.content? n = some content) op

theorem spares_of_keeps {op : TreeM α} (hop : Keeps id op) : Spares n op := fun content =>
  hop.maintains (p := fun t => t.content? n = some content)

theorem spares_bind {op : TreeM α} {f : α → TreeM β} (hop : Spares n op) (hf : ∀ a, Spares n (f a)) :
    Spares n (op >>= f) := fun content => maintains_bind (hop content) fun a => hf a content

theorem spares_create (dir : NodeId) (x : String) (body : NodeBody) : Spares n (create dir x body) :=
  fun _ _ h => content?_add h dir x body

theorem spares_detach (k : NodeId) : Spares n (detach k) := fun _ t h => by
  show (t.unlist k).content? n = _
  rw [content?_unlist, h]

theorem spares_updateContent (hk : k ≠ n)
    (f : String → Bytes → Except (Failure FsError) (α × Bytes)) : Spares n (updateContent k f) := by
  intro content t h
  rw [updateContent_run]
  split
  · exact h
  · split
    · exact h
    · exact (content?_withContent_of_ne hk t _).trans h

theorem spares_ensureDirectory (path : String) (dir : NodeId) (x : String) :
    Spares n (ensureDirectory path dir x) := by
  refine spares_bind (spares_of_keeps keeps_get) fun t => ?_
  cases t.child? dir x with
  | none => exact spares_create dir x .directory
  | some k => exact spares_of_keeps (keeps_ite (keeps_pure k) (keeps_throw _))

theorem spares_ensure (path : String) (ns : List String) (dir : NodeId) :
    Spares n (ns.foldlM (ensureDirectory path) dir) := fun content =>
  maintains_foldlM (fun dir x => spares_ensureDirectory path dir x content) ns dir

theorem spares_putFile (path : String) (dir : NodeId) (x : String) (content : Bytes) :
    Spares n (putFile path dir x content) := by
  refine spares_bind (spares_of_keeps keeps_get) fun t => ?_
  cases t.child? dir x with
  | none => exact spares_create dir x (.file content)
  | some k =>
    dsimp only
    split
    · exact spares_of_keeps (keeps_throw _)
    · exact spares_bind (spares_detach k) fun _ => spares_create dir x (.file content)

theorem spares_insertNew (path : String) (dir : NodeId) (x : String) (body : NodeBody) :
    Spares n (insertNew path dir x body) := by
  refine spares_bind (spares_of_keeps keeps_get) fun t => ?_
  split
  · exact spares_of_keeps (keeps_throw _)
  · exact spares_create dir x body

theorem spares_addFile (path : String) (content : Bytes) : Spares n (addFile path content) := by
  refine spares_bind (spares_of_keeps (keeps_parse path)) fun names => ?_
  cases names.getLast? with
  | none => exact spares_of_keeps (keeps_throw _)
  | some x =>
    refine spares_bind (spares_of_keeps keeps_get) fun t => ?_
    exact spares_bind (spares_ensure path _ t.root) fun dir => spares_putFile path dir x content

theorem spares_createDirectories (path : String) : Spares n (createDirectories path) := by
  refine spares_bind (spares_of_keeps (keeps_parse path)) fun names => ?_
  exact spares_bind (spares_of_keeps keeps_get) fun t => spares_ensure path names t.root

theorem spares_createAt (path : String) (body : NodeBody) : Spares n (createAt path body) := by
  refine spares_bind (spares_of_keeps (keeps_parse path)) fun names => ?_
  cases names.getLast? with
  | none => exact spares_of_keeps (keeps_throw _)
  | some x =>
    refine spares_bind (spares_of_keeps keeps_get) fun t => ?_
    have hway : Keeps id (names.dropLast.foldlM (requireDirectory path) t.root) :=
      keeps_foldlM (keeps_requireDirectory path) _ _
    exact spares_bind (spares_of_keeps hway) fun dir => spares_insertNew path dir x body

theorem spares_addFiles (files : List (String × Bytes)) : Spares n (addFiles files) := by
  intro content
  have hadd : ∀ f : String × Bytes, Maintains (fun t : FileTree => t.content? n = some content)
      (discard (addFile f.1 f.2)) := fun f => (spares_addFile f.1 f.2 content).discard
  exact maintains_forM hadd files

theorem content?_replant (h : t.content? n = some content) : t.replant.content? n = some content := by
  rw [content?_eq_some_iff, bodyAt?, node?_replant, if_neg (Nat.ne_of_lt (content?_lt h))]
  exact content?_eq_some_iff.mp h

/-- **What does not write to a file** leaves its content as it is. -/
theorem perform_spares (h : t.content? n = some content) {op : TreeOperation}
    (hop : ¬ op.WritesTo n) : (t.perform op).content? n = some content := by
  cases op with
  | addFile path added => exact spares_addFile path added content t h
  | createDirectories path => exact spares_createDirectories path content t h
  | createDirectory path => exact spares_createAt path .directory content t h
  | createFile path => exact spares_createAt path (.file []) content t h
  | writeAt k offset data => exact spares_updateContent hop _ content t h
  | append k data => exact spares_updateContent hop _ content t h
  | setLength k length => exact spares_updateContent hop _ content t h
  | replaceWith files =>
    show (left (replaceWith files t)).content? n = some content
    rcases left_replaceWith files t with heq | heq
    · rw [heq]
      exact spares_addFiles files content _ (content?_replant h)
    · rwa [heq]

end FileTree

end WasiSandbox
