import WasiSandbox.Proofs.Tree.Growth
import Mathlib.Logic.Relation

/-! # What an operation does to the nodes of a tree

There are four ways in which an operation changes a tree that stays in place: it adds a node under a
name that is free, it puts a file in the place of another, it gives a file another content, which is
longer than before only within the largest size, and it takes or drops handles (`Edit`). Every operation
is a chain of those, whatever comes of it (`perform_edits`). So what each of the four keeps up, every
operation does: directories stay (`perform_retains`), nodes stay of their kinds (`Edits.kind?`), a directory
goes on listing what it has listed (`Edits.mem_entries`), and no file outgrows a limit that the largest size
keeps within (`Edits.within`) if none was over it and none came in so. Where another tree takes the place of
the old one, it has grown in the same ways behind the nodes that there were (`perform_grows`), so nodes stay
of their kinds and files within their limit there as well (`kind?_perform`, `Within.run`). -/

namespace WasiSandbox

/-- The tree stays the one that it is: it may change in all ways but that another takes its place. -/
def TreeOperation.isInPlace : TreeOperation → Bool
  | .replaceWith _ => false
  | _ => true

/-- An operation on a tree that stays in place. -/
abbrev TreeChange := { op : TreeOperation // op.isInPlace = true }

/-- The contents that come with the operation to be those of files. -/
def TreeOperation.brings : TreeOperation → List Bytes
  | .addFile _ content => [content]
  | .replaceWith files => files.map (·.2)
  | _ => []

namespace FileTree

variable {t t' t'' : FileTree} {n k dir : NodeId} {x : String} {path : String} {kind : NodeKind}
  {kinds : NodeKind → Prop} {brought : List Bytes} {content : Bytes} {body : NodeBody}

/-- One thing that an operation does to the nodes of a tree; `brought` are the contents that come with
it. -/
inductive Edit (brought : List Bytes) : FileTree → FileTree → Prop where
  /-- A node is added where the name is free. -/
  | added {t : FileTree} {dir : NodeId} {x : String} {body : NodeBody} : t.child? dir x = none →
      (∀ content, body = .file content → content = [] ∨ content ∈ brought) →
      Edit brought t (t.add dir x body)
  /-- A file takes the place of another. -/
  | replaced {t : FileTree} {dir n : NodeId} {x : String} {content : Bytes} :
      t.child? dir x = some n → t.isDirectory n = false → content ∈ brought →
      Edit brought t ((t.unlist n).add dir x (.file content))
  /-- A file gets another content, which is longer than before only within the largest size. -/
  | filled {t : FileTree} {n : NodeId} {old content : Bytes} : t.content? n = some old →
      content.length ≤ max old.length Content.maxFileSize →
      Edit brought t (t.withContent n content)
  /-- Handles come or go. -/
  | recounted {t : FileTree} (strong : List Nat) : Edit brought t (t.withCounts strong)

theorem directory_brings_nothing (content : Bytes) (h : NodeBody.directory = .file content) :
    content = [] ∨ content ∈ brought := by
  cases h

/-- The one tree comes from the other by edits. -/
def Edits (brought : List Bytes) : FileTree → FileTree → Prop := Relation.ReflTransGen (Edit brought)

namespace Edits

theorem refl (t : FileTree) : Edits brought t t := Relation.ReflTransGen.refl

theorem trans (h : Edits brought t t') (h' : Edits brought t' t'') : Edits brought t t'' :=
  Relation.ReflTransGen.trans h h'

/-- **What each edit keeps up**, all of them do. -/
theorem keeps {p : FileTree → Prop} (hp : ∀ t t', Edit brought t t' → p t → p t')
    (h : Edits brought t t') (ht : p t) : p t' := by
  induction h with
  | refl => exact ht
  | tail _ hedit ih => exact hp _ _ hedit ih

end Edits

theorem Edit.edits (h : Edit brought t t') : Edits brought t t' := Relation.ReflTransGen.single h

/-! ### Operations -/

section Operations

variable {α β : Type}

theorem edits_bind {x : TreeM α} {f : α → TreeM β} (hx : Edits brought t (left (x t)))
    (hf : ∀ a t', Edits brought t' (left (f a t'))) : Edits brought t (left ((x >>= f) t)) :=
  left_bind hx fun a t' h => h.trans (hf a t')

theorem edits_of_keeps {x : TreeM α} (hx : Keeps id x) (t : FileTree) :
    Edits brought t (left (x t)) := by
  rw [show left (x t) = t from hx t]
  exact .refl t

theorem updateContent_edits {f : String → Bytes → Except (Failure FsError) (α × Bytes)}
    (hf : ∀ name old a content, f name old = .ok (a, content) →
      content.length ≤ max old.length Content.maxFileSize) (n : NodeId) (t : FileTree) :
    Edits brought t (left (updateContent n f t)) := by
  rw [updateContent_run]
  split
  · exact .refl t
  · next name old hfile =>
    split
    · exact .refl t
    · next hok =>
      have hold : t.content? n = some old := by rw [content?, hfile, Option.map_some]
      exact (Edit.filled hold (hf _ _ _ _ hok)).edits

theorem writeAt_edits (n : NodeId) (offset : Nat) (data : Bytes) (t : FileTree) :
    Edits brought t (left (writeAt n offset data t)) := by
  refine updateContent_edits (fun name old a content hok => ?_) n t
  rw [Content.overwrite_eq] at hok
  split at hok <;> cases hok
  rw [Content.length_overwritten]
  omega

theorem append_edits (n : NodeId) (data : Bytes) (t : FileTree) :
    Edits brought t (left (append n data t)) := by
  refine updateContent_edits (fun name old a content hok => ?_) n t
  rw [Content.append_eq] at hok
  split at hok <;> cases hok
  rw [List.length_append]
  omega

theorem setLength_edits (n : NodeId) (length : Nat) (t : FileTree) :
    Edits brought t (left (setLength n length t)) := by
  refine updateContent_edits (fun name old a content hok => ?_) n t
  rw [Content.setLength_eq] at hok
  split at hok <;> cases hok
  rw [Content.length_resize]
  omega

theorem insertNew_edits (path : String) (dir : NodeId) (x : String)
    (hbody : ∀ content, body = .file content → content = [] ∨ content ∈ brought) (t : FileTree) :
    Edits brought t (left (insertNew path dir x body t)) := by
  unfold insertNew
  rw [run_get_bind]
  split
  · exact .refl t
  · next hfree => exact (Edit.added (Option.not_isSome_iff_eq_none.mp hfree) hbody).edits

theorem ensureDirectory_edits (path : String) (dir : NodeId) (x : String) (t : FileTree) :
    Edits brought t (left (ensureDirectory path dir x t)) := by
  rw [ensureDirectory_eq]
  split
  · split <;> exact .refl t
  · next hfree => exact (Edit.added hfree directory_brings_nothing).edits

theorem ensure_edits (path : String) (ns : List String) (dir : NodeId) (t : FileTree) :
    Edits brought t (left (ns.foldlM (ensureDirectory path) dir t)) := by
  induction ns generalizing dir t with
  | nil => exact .refl t
  | cons x ns ih =>
    rw [List.foldlM_cons]
    exact edits_bind (ensureDirectory_edits path dir x t) ih

theorem putFile_edits (path : String) (dir : NodeId) (x : String) (hcontent : content ∈ brought)
    (t : FileTree) : Edits brought t (left (putFile path dir x content t)) := by
  unfold putFile
  rw [run_get_bind]
  cases hc : t.child? dir x with
  | none => exact (Edit.added hc fun _ hbody => Or.inr (NodeBody.file.inj hbody ▸ hcontent)).edits
  | some n =>
    dsimp only
    split
    · exact .refl t
    · next hfile =>
      rw [run_bind_ok (detach_run n t), create_run]
      exact (Edit.replaced hc (Bool.eq_false_iff.mpr hfile) hcontent).edits

theorem addFile_edits (path : String) (hcontent : content ∈ brought) (t : FileTree) :
    Edits brought t (left (addFile path content t)) := by
  refine edits_bind (edits_of_keeps (keeps_parse path) t) fun names t' => ?_
  cases names.getLast? with
  | none => exact .refl t'
  | some name =>
    dsimp only
    rw [run_get_bind]
    exact edits_bind (ensure_edits path _ t'.root t') fun dir t'' =>
      putFile_edits path dir name hcontent t''

theorem createDirectories_edits (path : String) (t : FileTree) :
    Edits brought t (left (createDirectories path t)) :=
  edits_bind (edits_of_keeps (keeps_parse path) t) fun names t' => ensure_edits path names t'.root t'

theorem createAt_edits (path : String)
    (hbody : ∀ content, body = .file content → content = [] ∨ content ∈ brought) (t : FileTree) :
    Edits brought t (left (createAt path body t)) := by
  refine edits_bind (edits_of_keeps (keeps_parse path) t) fun names t' => ?_
  cases names.getLast? with
  | none => exact .refl t'
  | some name =>
    dsimp only
    rw [run_get_bind]
    exact edits_bind (edits_of_keeps (keeps_foldlM (keeps_requireDirectory path) _ _) t') fun dir t'' =>
      insertNew_edits path dir name hbody t''

theorem addFiles_edits {files : List (String × Bytes)} (hfiles : ∀ f ∈ files, f.2 ∈ brought)
    (t : FileTree) : Edits brought t (left (addFiles files t)) := by
  unfold addFiles
  induction files generalizing t with
  | nil => exact .refl t
  | cons f files ih =>
    rw [List.forM_eq_forM, List.forM_cons]
    refine edits_bind ?_ fun _ t' => ih (fun g hg => hfiles g (List.mem_cons_of_mem f hg)) t'
    rw [left_discard]
    exact addFile_edits f.1 (hfiles f List.mem_cons_self) t

/-- **An operation changes a tree** in these ways only, whatever comes of it. -/
theorem perform_edits (t : FileTree) (change : TreeChange) :
    Edits change.val.brings t (t.perform change.val) := by
  obtain ⟨op, hop⟩ := change
  cases op with
  | addFile path content => exact addFile_edits path List.mem_cons_self t
  | createDirectories path => exact createDirectories_edits path t
  | createDirectory path => exact createAt_edits path directory_brings_nothing t
  | createFile path =>
    exact createAt_edits path (fun _ hbody => Or.inl (NodeBody.file.inj hbody).symm) t
  | writeAt n offset data => exact writeAt_edits n offset data t
  | append n data => exact append_edits n data t
  | setLength n length => exact setLength_edits n length t
  | replaceWith files => cases hop

/-- **An operation edits the tree**, or the one with a fresh root that is to take its place. -/
theorem perform_grows (t : FileTree) (op : TreeOperation) :
    Edits op.brings t (t.perform op) ∨ Edits op.brings t.replant (t.perform op) := by
  cases hplace : op.isInPlace with
  | true => exact Or.inl (perform_edits t ⟨op, hplace⟩)
  | false =>
    cases op with
    | replaceWith files =>
      show Edits _ t (left (replaceWith files t)) ∨ Edits _ t.replant (left (replaceWith files t))
      rcases left_replaceWith files t with heq | heq
      · rw [heq]
        have hadded : Edits (files.map (·.2)) t.replant (left (addFiles files t.replant)) :=
          addFiles_edits (fun f hf => List.mem_map_of_mem hf) t.replant
        exact Or.inr (hadded.trans (Edit.recounted _).edits)
      · rw [heq]
        exact Or.inl (.refl t)
    | _ => cases hplace

end Operations

/-! ### Nodes that stay -/

theorem Edit.retains_directories (h : Edit brought t t') : Retains (· = .directory) t t' := by
  cases h with
  | added => exact .add t _ _ _
  | replaced _ hfile => exact (Retains.unlist hfile).trans (.add _ _ _ _)
  | filled hold => exact .withContent (content?_not_directory hold) _
  | recounted strong => exact .withCounts t strong

/-- Files stay as well if none is brought that could take the place of another. -/
theorem Edit.retains (h : Edit [] t t') : Retains kinds t t' := by
  cases h with
  | added => exact .add t _ _ _
  | replaced _ _ hnone => cases hnone
  | filled hold => exact .withContent (content?_not_directory hold) _
  | recounted strong => exact .withCounts t strong

theorem Edits.retains (h : Edits [] t t') : Retains kinds t t' :=
  h.keeps (p := Retains kinds t) (fun _ _ hedit hr => hr.trans hedit.retains) (.refl t)

theorem Edits.retains_directories (h : Edits brought t t') : Retains (· = .directory) t t' :=
  h.keeps (p := Retains (· = .directory) t) (fun _ _ hedit hr => hr.trans hedit.retains_directories)
    (.refl t)

/-- **Directories stay**, whatever is done to a tree in place. -/
theorem perform_retains (t : FileTree) (change : TreeChange) :
    Retains (· = .directory) t (t.perform change.val) := (perform_edits t change).retains_directories

theorem kind?_add (hn : t.kind? n = some kind) : (t.add dir x body).kind? n = some kind := by
  obtain ⟨m, hm, hkind⟩ := kind?_eq_some_iff.mp hn
  exact kind?_eq_some_iff.mpr ⟨m, node?_add_of_some hm, hkind⟩

theorem kind?_unlist : (t.unlist n).kind? k = t.kind? k := by
  unfold kind?
  rw [node?_unlist]
  cases t.node? k with
  | none => rfl
  | some m => by_cases h : n = k <;> simp [h]

/-- Every node stays of its kind, in its directory or out of it. -/
theorem Edit.kind? (h : Edit brought t t') (hn : t.kind? n = some kind) : t'.kind? n = some kind := by
  cases h with
  | added => exact kind?_add hn
  | replaced => exact kind?_add (kind?_unlist.trans hn)
  | @filled k old content hold =>
    have hr : Retains (fun _ => True) t (t.withContent k content) :=
      .withContent (content?_not_directory hold) content
    exact hr.kind? hn trivial
  | recounted => exact hn

theorem Edits.kind? (h : Edits brought t t') (hn : t.kind? n = some kind) : t'.kind? n = some kind :=
  h.keeps (p := fun t => t.kind? n = some kind) (fun _ _ hedit hn => hedit.kind? hn) hn

theorem kind?_replant (hn : t.kind? n = some kind) : t.replant.kind? n = some kind := by
  obtain ⟨m, hm, hkind⟩ := kind?_eq_some_iff.mp hn
  refine kind?_eq_some_iff.mpr ⟨m, ?_, hkind⟩
  rw [node?_replant, if_neg (Nat.ne_of_lt (node?_lt hm)), hm]

theorem kind?_perform (hn : t.kind? n = some kind) (op : TreeOperation) :
    (t.perform op).kind? n = some kind := by
  rcases perform_grows t op with hedits | hedits
  · exact hedits.kind? hn
  · exact hedits.kind? (kind?_replant hn)

/-! ### What is listed -/

/-- **A directory goes on listing** a name with its kind, if not with its node. -/
theorem Edit.mem_entries (h : Edit brought t t') (hx : (x, kind) ∈ t.entries dir) :
    (x, kind) ∈ t'.entries dir := by
  rw [mem_entries_iff_lists] at hx ⊢
  obtain ⟨k, hk, hkind⟩ := hx
  have hkind' := h.kind? hkind
  cases h with
  | added => exact ⟨k, lists_add.mpr (Or.inl hk), hkind'⟩
  | @replaced dir' n y content hc hfile =>
    by_cases hkn : k = n
    · -- The file that comes in is listed where the other one was.
      subst hkn
      obtain ⟨m, hm, hp, rfl⟩ := lists_of_child? hc
      obtain ⟨m', hm', hp', rfl⟩ := hk
      cases hm.symm.trans hm'
      cases hp.symm.trans hp'
      refine ⟨_, lists_add.mpr (Or.inr ⟨rfl, rfl, rfl⟩), ?_⟩
      cases kind with
      | directory =>
        rw [isDirectory_iff_kind?.mpr hkind] at hfile
        cases hfile
      | file =>
        refine kind?_eq_some_iff.mpr ⟨⟨m.name, some dir, .file content⟩, ?_, rfl⟩
        rw [node?_add, if_pos rfl]
    · exact ⟨k, lists_add.mpr (Or.inl (lists_unlist.mpr ⟨hk, hkn⟩)), hkind'⟩
  | filled => exact ⟨k, lists_withContent.mpr hk, hkind'⟩
  | recounted => exact ⟨k, hk, hkind'⟩

theorem Edits.mem_entries (h : Edits brought t t') (hx : (x, kind) ∈ t.entries dir) :
    (x, kind) ∈ t'.entries dir :=
  h.keeps (p := fun t => (x, kind) ∈ t.entries dir) (fun _ _ hedit hx => hedit.mem_entries hx) hx

/-! ### Sizes -/

/-- No file is over the largest size, whether it is in the tree or has been taken out of it. -/
def Moderate (t : FileTree) : Prop :=
  ∀ n content, t.content? n = some content → content.length ≤ Content.maxFileSize

theorem content?_eq_some_iff : t.content? n = some content ↔ t.bodyAt? n = some (.file content) := by
  rw [← bodyAt?_content, Option.bind_eq_some_iff]
  constructor
  · rintro ⟨body, hbody, hfile⟩
    cases body <;> cases hfile
    exact hbody
  · exact fun hbody => ⟨_, hbody, rfl⟩

/-- A file has a content. -/
theorem kind?_file_iff : t.kind? n = some .file ↔ ∃ content, t.content? n = some content := by
  simp only [content?_eq_some_iff]
  rw [kind?_eq_some_iff]
  constructor
  · rintro ⟨m, hm, hkind⟩
    cases hbody : m.body with
    | directory =>
      rw [hbody] at hkind
      cases hkind
    | file content => exact ⟨content, by rw [bodyAt?, hm, Option.map_some, hbody]⟩
  · rintro ⟨content, hbody⟩
    obtain ⟨m, hm, hfile⟩ := Option.map_eq_some_iff.mp hbody
    exact ⟨m, hm, by rw [hfile]; rfl⟩

theorem size_eq_length (hcontent : t.content? n = some content) : t.size n = content.length := by
  unfold size
  rw [hcontent]

/-- No file is over the limit, whether it is in the tree or has been taken out of it. -/
def Within (limit : Nat) (t : FileTree) : Prop :=
  ∀ n content, t.content? n = some content → content.length ≤ limit

section

variable {limit : Nat}

theorem within_empty (limit : Nat) : empty.Within limit := by
  intro n content hcontent
  obtain ⟨m, hm, hbody⟩ := Option.map_eq_some_iff.mp (content?_eq_some_iff.mp hcontent)
  cases n with
  | zero =>
    cases hm
    cases hbody
  | succ n => cases hm

theorem Within.add (h : t.Within limit)
    (hbody : ∀ content, body = .file content → content.length ≤ limit) : (t.add dir x body).Within limit := by
  intro n content hcontent
  rw [content?_eq_some_iff, bodyAt?_add] at hcontent
  split at hcontent
  · exact hbody content (Option.some.inj hcontent)
  · exact h n content (content?_eq_some_iff.mpr hcontent)

theorem Within.unlist (h : t.Within limit) : (t.unlist n).Within limit := by
  intro k content hcontent
  rw [content?_eq_some_iff, bodyAt?_unlist] at hcontent
  exact h k content (content?_eq_some_iff.mpr hcontent)

theorem Within.withContent (h : t.Within limit) (hle : content.length ≤ limit) :
    (t.withContent n content).Within limit := by
  intro k c hc
  rw [content?_eq_some_iff, bodyAt?, node?_withContent, Option.map_map] at hc
  obtain ⟨m, hm, hbody⟩ := Option.map_eq_some_iff.mp hc
  by_cases hk : n = k
  · rw [Function.comp_apply, if_pos hk] at hbody
    cases hbody
    exact hle
  · rw [Function.comp_apply, if_neg hk] at hbody
    refine h k c (content?_eq_some_iff.mpr ?_)
    rw [bodyAt?, hm, Option.map_some, hbody]

theorem Within.replant (h : t.Within limit) : t.replant.Within limit := by
  intro n content hcontent
  rw [content?_eq_some_iff, bodyAt?, node?_replant] at hcontent
  split at hcontent
  · cases hcontent
  · exact h n content (content?_eq_some_iff.mpr hcontent)

variable (hlimit : Content.maxFileSize ≤ limit)

include hlimit

theorem Edit.within (h : Edit brought t t') (hbrought : ∀ content ∈ brought, content.length ≤ limit)
    (ht : t.Within limit) : t'.Within limit := by
  cases h with
  | added _ hbody =>
    refine Within.add ht fun content hfile => ?_
    rcases hbody content hfile with rfl | hmem
    · exact Nat.zero_le _
    · exact hbrought content hmem
  | replaced _ _ hmem =>
    refine Within.add (Within.unlist ht) fun content hfile => ?_
    cases hfile
    exact hbrought _ hmem
  | filled hold hle =>
    refine ht.withContent ?_
    have hold' := ht _ _ hold
    omega
  | recounted => exact ht

/-- **No file outgrows the limit**, if the largest size keeps within it. -/
theorem Edits.within (h : Edits brought t t') (hbrought : ∀ content ∈ brought, content.length ≤ limit)
    (ht : t.Within limit) : t'.Within limit :=
  h.keeps (fun _ _ hedit ht => hedit.within hlimit hbrought ht) ht

/-- Whatever is done to a tree, in place or not. -/
theorem Within.perform (h : t.Within limit) {op : TreeOperation}
    (hop : ∀ content ∈ op.brings, content.length ≤ limit) : (t.perform op).Within limit := by
  rcases perform_grows t op with hedits | hedits
  · exact hedits.within hlimit hop h
  · exact hedits.within hlimit hop h.replant

theorem Within.run (h : t.Within limit) {ops : List TreeOperation}
    (hops : ∀ op ∈ ops, ∀ content ∈ op.brings, content.length ≤ limit) : (t.run ops).Within limit := by
  induction ops generalizing t with
  | nil => exact h
  | cons op ops ih =>
    exact ih (h.perform hlimit (hops op List.mem_cons_self)) fun op' hop' =>
      hops op' (List.mem_cons_of_mem op hop')

end

/-! The largest size is such a limit. -/

theorem moderate_empty : Moderate empty := within_empty Content.maxFileSize

theorem Edits.moderate (hbrought : ∀ content ∈ brought, content.length ≤ Content.maxFileSize)
    (h : Edits brought t t') (ht : t.Moderate) : t'.Moderate := h.within le_rfl hbrought ht

theorem Moderate.run (h : t.Moderate) {ops : List TreeOperation}
    (hops : ∀ op ∈ ops, ∀ content ∈ op.brings, content.length ≤ Content.maxFileSize) :
    (t.run ops).Moderate := Within.run le_rfl h hops

end FileTree

end WasiSandbox
