import WasiSandbox.Proofs.Tree.Edits

/-! # Which node is found where

In a tree that stays in place, whatever is found at a path is found there ever after, with one exception: a
file that is added at the path of another is found there in its stead (`Replaces`). The new file is younger
than all nodes there were, and the old one is in no directory any more. What is said of single operations
(`WellFormed.perform_replaces`) holds of one operation after the other (`Replaces.trans`). -/

namespace WasiSandbox

/-! ### Steps of a run -/

section Steps

variable {σ ι : Type} {take : σ → ι → σ} {happens : σ → ι → Prop} {s : σ} {step : ι} {steps : List ι}

/-- One of the steps is such a one when its turn comes. -/
def Among (take : σ → ι → σ) (happens : σ → ι → Prop) (s : σ) (steps : List ι) : Prop :=
  ∃ front step back, steps = front ++ step :: back ∧ happens (front.foldl take s) step

theorem not_among_nil : ¬ Among take happens s [] := by
  rintro ⟨front, step, back, h, -⟩
  exact List.append_ne_nil_of_right_ne_nil front (List.cons_ne_nil step back) h.symm

theorem among_cons :
    Among take happens s (step :: steps) ↔ happens s step ∨ Among take happens (take s step) steps := by
  constructor
  · rintro ⟨front, step', back, h, hstep⟩
    cases front with
    | nil =>
      cases h
      exact Or.inl hstep
    | cons first front =>
      cases h
      exact Or.inr ⟨front, step', back, rfl, hstep⟩
  · rintro (h | ⟨front, step', back, rfl, hstep⟩)
    · exact ⟨[], step, steps, rfl, h⟩
    · exact ⟨step :: front, step', back, rfl, hstep⟩

end Steps

namespace FileTree

variable {t t' t'' : FileTree} {n k dir : NodeId} {x path : String} {q ds ns : List String}
  {brought : List Bytes} {content : Bytes} {put put' : List String → Prop} {kind : NodeKind}

theorem isFile_iff_kind? : t.isFile n = true ↔ t.kind? n = some .file := by
  simp [isFile]

/-! ### What edits keep up -/

theorem Edit.length_le (h : Edit brought t t') : t.nodes.length ≤ t'.nodes.length := by
  cases h <;> simp [add, unlist, cutOff, withContent]

theorem Edits.length_le (h : Edits brought t t') : t.nodes.length ≤ t'.nodes.length :=
  h.keeps (p := fun t' => t.nodes.length ≤ t'.nodes.length)
    (fun _ _ hedit hle => hle.trans hedit.length_le) (Nat.le_refl _)

/-- The node is there, and no directory lists it. -/
def Loose (t : FileTree) (n : NodeId) : Prop := ∃ m, t.node? n = some m ∧ m.parent = none

theorem Loose.add (h : t.Loose n) (dir : NodeId) (x : String) (body : NodeBody) :
    (t.add dir x body).Loose n := by
  obtain ⟨m, hm, hp⟩ := h
  exact ⟨m, node?_add_of_some hm, hp⟩

theorem Loose.unlist (h : t.Loose n) (k : NodeId) : (t.unlist k).Loose n := by
  obtain ⟨m, hm, hp⟩ := h
  rw [Loose, node?_unlist, hm, Option.map_some]
  by_cases hk : k = n
  · exact ⟨_, rfl, by rw [if_pos hk]⟩
  · exact ⟨_, rfl, by rw [if_neg hk, hp]⟩

theorem Edit.loose (h : Edit brought t t') (hn : t.Loose n) : t'.Loose n := by
  cases h with
  | added => exact hn.add _ _ _
  | replaced => exact (hn.unlist _).add _ _ _
  | @filled k old content hold =>
    obtain ⟨m, hm, hp⟩ := hn
    rw [Loose, node?_withContent, hm, Option.map_some]
    by_cases hk : k = n
    · exact ⟨_, rfl, by rw [if_pos hk, hp]⟩
    · exact ⟨_, rfl, by rw [if_neg hk, hp]⟩
  | recounted => exact hn

theorem Edits.loose (h : Edits brought t t') (hn : t.Loose n) : t'.Loose n :=
  h.keeps (p := fun t => t.Loose n) (fun _ _ hedit hn => hedit.loose hn) hn

/-- There is no way to a node that no directory lists, but from itself. -/
theorem Loose.walk_eq (h : t.Loose n) (hq : t.walk k q = some n) : k = n := by
  obtain ⟨m, hm, hp⟩ := h
  rcases List.eq_nil_or_concat q with rfl | ⟨q, x, rfl⟩
  · exact Option.some.inj hq
  · rw [List.concat_eq_append] at hq
    obtain ⟨dir, -, -, hc⟩ := walk_snoc_eq_some_iff.mp hq
    obtain ⟨m', hm', hp', -⟩ := lists_of_child? hc
    cases hm.symm.trans hm'
    cases hp.symm.trans hp'

/-- A file that no directory lists is nowhere in the tree. -/
theorem WellFormed.walk_ne_loose (h : t.WellFormed) (hloose : t.Loose n) (hfile : t.kind? n = some .file)
    (q : List String) : t.walk t.root q ≠ some n := by
  intro hq
  have hroot := isDirectory_iff_kind?.mp h.root_isDirectory
  rw [hloose.walk_eq hq, hfile] at hroot
  cases hroot

/-! ### Replacing -/

/-- All that is found at a path is found there still, but for the files at the names that `put` holds of:
in their stead others are found, younger than all that there was, and they themselves are in no directory
any more. -/
structure Replaces (put : List String → Prop) (t t' : FileTree) : Prop where
  length : t.nodes.length ≤ t'.nodes.length
  kind : ∀ {n kind}, t.kind? n = some kind → t'.kind? n = some kind
  loose : ∀ {n}, t.Loose n → t'.Loose n
  directory : ∀ {q n}, t.walk t.root q = some n → t.kind? n = some .directory →
    t'.walk t'.root q = some n
  stays : ∀ {q n}, t.walk t.root q = some n → ¬ put q → t'.walk t'.root q = some n
  put : ∀ {q n}, t.walk t.root q = some n → t.kind? n = some .file → put q →
    t'.Loose n ∧ ∃ n', t'.walk t'.root q = some n' ∧ t'.kind? n' = some .file ∧ t.nodes.length ≤ n'

namespace Replaces

theorem refl (hput : ∀ q, ¬ put q) (t : FileTree) : Replaces put t t where
  length := Nat.le_refl _
  kind := id
  loose := id
  directory hq _ := hq
  stays hq _ := hq
  put _ _ h := absurd h (hput _)

/-- Handles come and go, and nothing is replaced. -/
theorem withCounts (hput : ∀ q, ¬ put q) (t : FileTree) (strong : List Nat) :
    Replaces put t (t.withCounts strong) where
  length := Nat.le_refl _
  kind := id
  loose := id
  directory hq _ := (walk_withCounts strong _).trans hq
  stays hq _ := (walk_withCounts strong _).trans hq
  put _ _ h := absurd h (hput _)

/-- **One after the other**, both replace what each of them does. -/
theorem trans (h : Replaces put t t') (h' : Replaces put' t' t'') :
    Replaces (fun q => put q ∨ put' q) t t'' where
  length := h.length.trans h'.length
  kind hn := h'.kind (h.kind hn)
  loose hn := h'.loose (h.loose hn)
  directory hq hn := h'.directory (h.directory hq hn) (h.kind hn)
  stays hq hput := h'.stays (h.stays hq fun hq' => hput (Or.inl hq')) fun hq' => hput (Or.inr hq')
  put {q n} hq hn hput := by
    by_cases hfirst : put q
    · obtain ⟨hloose, n', hq', hn', hlt⟩ := h.put hq hn hfirst
      refine ⟨h'.loose hloose, ?_⟩
      by_cases hsecond : put' q
      · obtain ⟨-, n'', hq'', hn'', hlt'⟩ := h'.put hq' hn' hsecond
        exact ⟨n'', hq'', hn'', h.length.trans hlt'⟩
      · exact ⟨n', h'.stays hq' hsecond, h'.kind hn', hlt⟩
    · obtain ⟨hloose, n', hq', hn', hlt⟩ :=
        h'.put (h.stays hq hfirst) (h.kind hn) (hput.resolve_left hfirst)
      exact ⟨hloose, n', hq', hn', h.length.trans hlt⟩

theorem congr (h : Replaces put t t') (hput : ∀ q, put' q ↔ put q) : Replaces put' t t' := by
  rwa [show put' = put from funext fun q => propext (hput q)]

/-- What brings no file in replaces nothing. -/
theorem of_edits (ht : t.WellFormed) (ht' : t'.WellFormed) (h : Edits [] t t') (hput : ∀ q, ¬ put q) :
    Replaces put t t' := by
  have hstays : ∀ {q n}, t.walk t.root q = some n → t'.walk t'.root q = some n := fun {q n} hq => by
    obtain ⟨m, hm⟩ : ∃ m, t.node? n = some m := ⟨_, List.getElem?_eq_getElem (ht.walk_lt hq)⟩
    have hretains : Retains (fun _ => True) t t' := h.retains
    exact ht'.walk_retained hretains trivial hq (kind?_eq_some_iff.mpr ⟨m, hm, rfl⟩) trivial
  exact ⟨h.length_le, h.kind?, h.loose, fun hq _ => hstays hq, fun hq _ => hstays hq,
    fun _ _ hq => absurd hq (hput _)⟩

end Replaces

/-! ### Files that are put -/

theorem length_unlist (t : FileTree) (n : NodeId) : (t.unlist n).nodes.length = t.nodes.length :=
  List.length_modify ..

theorem loose_unlist (h : n < t.nodes.length) : (t.unlist n).Loose n :=
  ⟨{ t.nodes[n] with parent := none }, by
    rw [node?_unlist, show t.node? n = some t.nodes[n] from List.getElem?_eq_getElem h, Option.map_some,
      if_pos rfl], rfl⟩

theorem kind?_add_new (t : FileTree) (dir : NodeId) (x : String) (body : NodeBody) :
    (t.add dir x body).kind? t.nodes.length = some body.kind :=
  kind?_eq_some_iff.mpr ⟨⟨x, some dir, body⟩, by rw [node?_add, if_pos rfl], rfl⟩

/-- A file that is put comes in behind all nodes, after the file of its name is taken out. -/
theorem putFile_cases (hok : putFile path dir x content t = .ok n t') :
    (t.child? dir x = none ∧ t' = t.add dir x (.file content)) ∨
    ∃ k, t.child? dir x = some k ∧ t.isDirectory k = false ∧
      t' = (t.unlist k).add dir x (.file content) := by
  unfold putFile at hok
  rw [run_get_bind] at hok
  cases hc : t.child? dir x with
  | none =>
    rw [hc] at hok
    cases hok
    exact Or.inl ⟨rfl, rfl⟩
  | some k =>
    rw [hc] at hok
    dsimp only at hok
    split at hok
    · cases hok
    · next hfile =>
      rw [run_bind_ok (detach_run k t), create_run] at hok
      cases hok
      exact Or.inr ⟨k, rfl, Bool.eq_false_iff.mpr hfile, rfl⟩

/-- Ways lead where they led, but for the one to the file that was put. -/
theorem WellFormed.walk_putFile (h : t.WellFormed) (hds : t.HasDirectory ds dir)
    (hok : putFile path dir x content t = .ok n t') (q : List String) :
    t'.walk t'.root q = if q = ds ++ [x] then some t.nodes.length else t.walk t.root q := by
  rcases putFile_cases hok with ⟨hc, rfl⟩ | ⟨k, hc, hfile, rfl⟩
  · exact h.walk_add hds.1 hds.2 hc q
  · have hw : t.walk t.root (ds ++ [x]) = some k := (hds.walk_child x).trans hc
    have hwalk : (t.unlist k).walk t.root ds = some dir := by
      rw [h.walk_unlist hw hfile, if_neg (by simp), hds.1]
    have hfree : (t.unlist k).child? dir x = none := by
      rw [h.child?_unlist (lists_of_child? hc), if_pos ⟨rfl, rfl⟩]
    rw [root_add, h.unlist.walk_add hwalk (by rw [isDirectory_unlist, hds.2]) hfree, length_unlist,
      root_unlist, h.walk_unlist hw hfile]
    split <;> rfl

/-- **A file that is put** takes the place of the file of its name. -/
theorem WellFormed.putFile_replaces (h : t.WellFormed) (hds : t.HasDirectory ds dir)
    (hok : putFile path dir x content t = .ok n t') : Replaces (· = ds ++ [x]) t t' := by
  have hedits : Edits [content] t (left (putFile path dir x content t)) :=
    putFile_edits path dir x List.mem_cons_self t
  rw [hok] at hedits
  have hwalk := h.walk_putFile hds hok
  have hcases := putFile_cases hok
  refine ⟨hedits.length_le, hedits.kind?, hedits.loose, ?_, ?_, ?_⟩
  · intro q k hq hk
    rw [hwalk, if_neg, hq]
    -- There is no directory at the name.
    rintro rfl
    rw [hds.walk_child] at hq
    rcases hcases with ⟨hc, -⟩ | ⟨k', hc, hfile, -⟩
    · rw [hc] at hq
      cases hq
    · rw [hc] at hq
      cases hq
      rw [isDirectory_iff_kind?.mpr hk] at hfile
      cases hfile
  · intro q k hq hne
    rw [hwalk, if_neg hne, hq]
  · rintro q k hq hk rfl
    have hlt := h.walk_lt hq
    rw [hds.walk_child] at hq
    rcases hcases with ⟨hc, -⟩ | ⟨k', hc, hfile, rfl⟩
    · rw [hc] at hq
      cases hq
    · rw [hc] at hq
      cases hq
      refine ⟨(loose_unlist hlt).add _ _ _, _, (hwalk _).trans (if_pos rfl), ?_, Nat.le_refl _⟩
      rw [← length_unlist t k]
      exact kind?_add_new _ _ _ _

/-- **A file that is added** takes the place of the file at its path. -/
theorem WellFormed.addFile_replaces (h : t.WellFormed) (hp : Path.segments path = .ok q)
    (hok : addFile path content t = .ok n t') : Replaces (· = q) t t' := by
  rcases List.eq_nil_or_concat q with rfl | ⟨ds, x, rfl⟩
  · rw [show addFile path content t = _ from run_bind_ok (parse_ok hp t)] at hok
    cases hok
  rw [List.concat_eq_append] at hp ⊢
  rw [addFile_run hp] at hok
  obtain ⟨dir, t₁, hway, hput⟩ := run_bind_eq_ok hok
  have hedits : Edits [] t (left (ds.foldlM (ensureDirectory path) t.root t)) :=
    ensure_edits path ds t.root t
  have hroot := h.ensure_root path ds
  rw [hway] at hedits hroot
  split at hroot
  · cases hroot
  · obtain ⟨dir', t₁', hrun, hdir, hgrown⟩ := hroot
    cases hrun
    -- Directories come in first, and they replace nothing.
    have hfirst : Replaces (fun _ => False) t t₁ :=
      .of_edits h hgrown.wellFormed hedits fun _ => id
    exact (hfirst.trans (hgrown.wellFormed.putFile_replaces ⟨hgrown.leads, hdir⟩ hput)).congr fun q' => by
      rw [false_or]

/-- **A file that is added** is found at its path, with the content that was given. -/
theorem WellFormed.addFile_found (h : t.WellFormed) (hp : Path.segments path = .ok q)
    (hok : addFile path content t = .ok n t') :
    t'.WellFormed ∧ t'.walk t'.root q = some n ∧ t'.content? n = some content := by
  obtain ⟨ht', hlookup, hmap⟩ := (h.addFile_refines path content).ok hok
  rw [lookup_eq hp] at hlookup
  refine ⟨ht', hlookup, content?_eq_some_iff.mpr ?_⟩
  rw [← pathMap_of_walk hlookup]
  unfold PathMap.addFile at hmap
  rw [hp] at hmap
  dsimp only at hmap
  split at hmap
  · cases hmap
  split at hmap
  · cases hmap
  split at hmap
  · cases hmap
  · have hupdate := Except.ok.inj hmap
    rw [← hupdate, Function.update_self]

/-! ### Single operations -/

/-- The operation puts a file at the names, and succeeds. -/
def Puts (t : FileTree) (op : TreeOperation) (names : List String) : Prop :=
  ∃ path content n t', op = .addFile path content ∧ Path.segments path = .ok names ∧
    addFile path content t = .ok n t'

/-- **An operation replaces** the file at the path where it has added one, and no other. -/
theorem WellFormed.perform_replaces (h : t.WellFormed) (change : TreeChange) :
    Replaces (t.Puts change.val) t (t.perform change.val) := by
  have hedits := perform_edits t change
  have ht' := h.perform change.val
  obtain ⟨op, hop⟩ := change
  have hother : (∀ path content, op ≠ .addFile path content) → ∀ names, ¬ t.Puts op names := by
    rintro hne names ⟨path, content, n, t', rfl, -⟩
    exact hne path content rfl
  cases op with
  | addFile path content =>
    have hrefines := h.addFile_refines path content
    show Replaces _ t (left (addFile path content t))
    cases hrun : addFile path content t with
    | error e t' =>
      obtain rfl : t' = t := hrefines.failsCleanly e t' hrun
      refine .refl (fun names => ?_) _
      rintro ⟨path', content', n, t'', heq, -, hok⟩
      cases heq
      rw [hrun] at hok
      cases hok
    | ok n t' =>
      cases hp : Path.segments path with
      | error e =>
        rw [show addFile path content t = _ from run_bind_error (parse_error hp t)] at hrun
        cases hrun
      | ok names =>
        refine (h.addFile_replaces hp hrun).congr fun names' => ⟨?_, ?_⟩
        · rintro ⟨path', content', n', t'', heq, hp', -⟩
          cases heq
          exact Except.ok.inj (hp'.symm.trans hp)
        · rintro rfl
          exact ⟨path, content, n, t', rfl, hp, hrun⟩
  | createDirectories path => exact .of_edits h ht' hedits (hother (by simp))
  | createDirectory path => exact .of_edits h ht' hedits (hother (by simp))
  | createFile path => exact .of_edits h ht' hedits (hother (by simp))
  | writeAt n offset data => exact .of_edits h ht' hedits (hother (by simp))
  | append n data => exact .of_edits h ht' hedits (hother (by simp))
  | setLength n length => exact .of_edits h ht' hedits (hother (by simp))
  | replaceWith files => cases hop

end FileTree

end WasiSandbox
