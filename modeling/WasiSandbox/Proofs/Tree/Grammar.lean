import WasiSandbox.Proofs.Tree.Operations

/-! # The grammar of paths

A path is spelled by the names on the way to a node, with one `/` between each two and perhaps one in
front; the root, on the way to which there are no names, is spelled `/` (`Spells`). What is accepted as a
path is just what spells some names, and it is taken for those names; every other text is malformed
(`segments_eq_ok_iff`). A list of names has no more spellings than these two, so two paths for the same
names are the same but for a `/` in front, and no tree tells them apart (`segments_grammar`). -/

namespace WasiSandbox

namespace Path

variable {path full p q : String} {r : List Char} {ns ps qs : List String}

/-- The text can be the name of a node: there is something in it, and no `/` that would part it. -/
def IsName (x : String) : Prop := x ≠ "" ∧ '/' ∉ x.toList

/-- The names with one `/` between each two. -/
def joined (names : List String) : String := "/".intercalate names

/-- The text is a path for the names. -/
inductive Spells : String → List String → Prop where
  /-- The root has a path of its own. -/
  | root : Spells "/" []
  /-- The names alone. -/
  | bare {names : List String} : names ≠ [] → (∀ x ∈ names, IsName x) → Spells (joined names) names
  /-- The names behind a `/`. -/
  | slashed {names : List String} : names ≠ [] → (∀ x ∈ names, IsName x) →
      Spells ("/" ++ joined names) names

/-- The texts are the same, or one of them has a `/` in front that the other has not. -/
def SameButSlash (p q : String) : Prop := p = q ∨ p = "/" ++ q ∨ q = "/" ++ p

/-! ### Names between slashes -/

theorem notMem_of_mem_splitOn {part : List Char} (hpart : part ∈ r.splitOn '/') : '/' ∉ part := by
  induction r generalizing part with
  | nil =>
    rw [List.splitOn_nil, List.mem_singleton] at hpart
    simp [hpart]
  | cons c r ih =>
    rw [List.splitOn_cons_eq_if_modifyHead] at hpart
    split at hpart
    · rcases List.mem_cons.mp hpart with rfl | hpart
      · simp
      · exact ih hpart
    · next hc =>
      -- The character goes to the front of the first part.
      obtain ⟨first, rest, hsplit⟩ := List.exists_cons_of_ne_nil (List.splitOn_ne_nil '/' r)
      rw [hsplit] at ih hpart
      rcases List.mem_cons.mp hpart with rfl | hpart
      · have hfirst : '/' ∉ first := ih List.mem_cons_self
        have hne : '/' ≠ c := fun heq => hc (by rw [heq, beq_self_eq_true])
        simp [hfirst, hne]
      · exact ih (List.mem_cons_of_mem first hpart)

theorem names_eq_ok_iff : names full r = .ok ns ↔
    (∀ part ∈ r.splitOn '/', part ≠ []) ∧ ns = (r.splitOn '/').map String.ofList := by
  unfold names
  dsimp only
  split
  · next hany =>
    obtain ⟨part, hpart, hempty⟩ := List.any_eq_true.mp hany
    refine ⟨fun h => (nomatch h), fun h => absurd ?_ (h.1 part hpart)⟩
    rwa [List.isEmpty_iff] at hempty
  · next hany =>
    rw [Except.ok.injEq]
    refine ⟨fun h => ⟨fun part hpart hempty => hany ?_, h.symm⟩, fun h => h.2.symm⟩
    exact List.any_eq_true.mpr ⟨part, hpart, by rw [hempty]; rfl⟩

theorem toList_joined (ns : List String) :
    (joined ns).toList = ['/'].intercalate (ns.map String.toList) := String.toList_intercalate

theorem splitOn_joined (hne : ns ≠ []) (hns : ∀ x ∈ ns, IsName x) :
    (joined ns).toList.splitOn '/' = ns.map String.toList := by
  have hparts : ∀ part ∈ ns.map String.toList, '/' ∉ part := by
    intro part hpart
    obtain ⟨x, hx, rfl⟩ := List.mem_map.mp hpart
    exact (hns x hx).2
  rw [toList_joined]
  exact List.splitOn_intercalate '/' hparts (by simpa using hne)

theorem joined_splitOn (r : List Char) : (joined ((r.splitOn '/').map String.ofList)).toList = r := by
  have hparts : ((r.splitOn '/').map String.ofList).map String.toList = r.splitOn '/' := by
    simp [Function.comp_def]
  rw [toList_joined, hparts, List.intercalate_splitOn]

/-- **The names between slashes** are those that give the text when they are joined. -/
theorem names_eq_ok_iff_joined : names full r = .ok ns ↔
    ns ≠ [] ∧ (∀ x ∈ ns, IsName x) ∧ r = (joined ns).toList := by
  rw [names_eq_ok_iff]
  constructor
  · rintro ⟨hparts, rfl⟩
    refine ⟨by simp, fun x hx => ?_, (joined_splitOn r).symm⟩
    obtain ⟨part, hpart, rfl⟩ := List.mem_map.mp hx
    have hpart' : part ≠ [] := hparts part hpart
    have hslash : '/' ∉ part := notMem_of_mem_splitOn hpart
    exact ⟨by simpa using hpart', by rwa [String.toList_ofList]⟩
  · rintro ⟨hne, hns, rfl⟩
    rw [splitOn_joined hne hns]
    refine ⟨fun part hpart => ?_, by simp [Function.comp_def]⟩
    obtain ⟨x, hx, rfl⟩ := List.mem_map.mp hpart
    simpa using (hns x hx).1

/-- Nothing is empty between the slashes of joined names. -/
theorem nil_notMem_splitOn_joined (hne : ns ≠ []) (hns : ∀ x ∈ ns, IsName x) :
    [] ∉ (joined ns).toList.splitOn '/' := by
  rw [splitOn_joined hne hns]
  intro hempty
  obtain ⟨x, hx, hnil⟩ := List.mem_map.mp hempty
  exact (hns x hx).1 (by simpa using hnil)

theorem toList_joined_ne_nil (hne : ns ≠ []) (hns : ∀ x ∈ ns, IsName x) : (joined ns).toList ≠ [] := by
  intro hnil
  refine nil_notMem_splitOn_joined hne hns ?_
  rw [hnil, List.splitOn_nil]
  exact List.mem_singleton_self []

/-- No `/` stands in front of joined names. -/
theorem toList_joined_ne_slash (hns : ∀ x ∈ ns, IsName x) : (joined ns).toList ≠ '/' :: r := by
  intro hslash
  by_cases hne : ns = []
  · subst hne
    cases hslash
  · refine nil_notMem_splitOn_joined hne hns ?_
    rw [hslash, ← List.nil_append ('/' :: r), List.splitOn_append_cons_self, List.splitOn_nil]
    exact List.mem_append_left _ (List.mem_singleton_self [])

/-! ### Paths -/

theorem segments_slashed (h : path.toList = '/' :: r) :
    segments path = if r = [] then .ok [] else names path r := by
  unfold segments
  rw [if_neg (by simp [h]), h, withoutLeadingSlash]
  cases r <;> rfl

theorem segments_bare (hne : path.toList ≠ []) (h : ∀ r, path.toList ≠ '/' :: r) :
    segments path = names path path.toList := by
  obtain ⟨c, r, hlist⟩ := List.exists_cons_of_ne_nil hne
  have hc : c ≠ '/' := by
    rintro rfl
    exact h r hlist
  have hwhole : withoutLeadingSlash (c :: r) = c :: r := by
    unfold withoutLeadingSlash
    split
    · next heq => exact absurd (List.head_eq_of_cons_eq heq) hc
    · rfl
  unfold segments
  rw [if_neg hne, hlist, hwhole]

theorem toList_slashed (s : String) : ("/" ++ s).toList = '/' :: s.toList := by
  rw [String.toList_append]
  rfl

/-- **What is accepted** as a path for some names is what spells them. -/
theorem segments_eq_ok_iff : segments path = .ok ns ↔ Spells path ns := by
  constructor
  · intro h
    have hne : path.toList ≠ [] := by
      intro hnil
      rw [segments, if_pos hnil] at h
      cases h
    by_cases hslash : ∃ r, path.toList = '/' :: r
    · obtain ⟨r, hr⟩ := hslash
      rw [segments_slashed hr] at h
      split at h
      · next hroot =>
        cases h
        have hpath : path = "/" := String.toList_inj.mp (by rw [hr, hroot]; rfl)
        rw [hpath]
        exact .root
      · obtain ⟨hnames, hns, rfl⟩ := names_eq_ok_iff_joined.mp h
        rw [← toList_slashed, String.toList_inj] at hr
        rw [hr]
        exact .slashed hnames hns
    · rw [segments_bare hne fun r hr => hslash ⟨r, hr⟩] at h
      obtain ⟨hnames, hns, hjoined⟩ := names_eq_ok_iff_joined.mp h
      rw [String.toList_inj] at hjoined
      rw [hjoined]
      exact .bare hnames hns
  · intro h
    cases h with
    | root => rfl
    | bare hne hns =>
      rw [segments_bare (toList_joined_ne_nil hne hns) fun r => toList_joined_ne_slash hns,
        names_eq_ok_iff_joined]
      exact ⟨hne, hns, rfl⟩
    | slashed hne hns =>
      rw [segments_slashed (toList_slashed _), if_neg (toList_joined_ne_nil hne hns),
        names_eq_ok_iff_joined]
      exact ⟨hne, hns, rfl⟩

/-! ### Paths for the same names -/

/-- A path is for one list of names. -/
theorem Spells.unique (h : Spells p ps) (h' : Spells p qs) : ps = qs :=
  Except.ok.inj ((segments_eq_ok_iff.mpr h).symm.trans (segments_eq_ok_iff.mpr h'))

/-- A path is the joined names, or has them behind a `/`. -/
theorem Spells.eq_or (h : Spells p ps) : p = joined ps ∨ p = "/" ++ joined ps := by
  cases h with
  | root => exact Or.inr rfl
  | bare => exact Or.inl rfl
  | slashed => exact Or.inr rfl

/-- There is one `/` in front at most. -/
theorem Spells.not_slashed (h : Spells ("/" ++ q) ps) : q.toList ≠ '/' :: r := by
  intro hslash
  have hsegments := segments_eq_ok_iff.mpr h
  rw [segments_slashed (toList_slashed q), if_neg (by simp [hslash])] at hsegments
  obtain ⟨-, hns, hq⟩ := names_eq_ok_iff_joined.mp hsegments
  exact toList_joined_ne_slash hns (hq.symm.trans hslash)

/-- Where a `/` can be put in front of a path, it makes no difference. -/
theorem Spells.slash (hp : Spells ("/" ++ q) ps) (hq : Spells q qs) : ps = qs := by
  cases hq with
  | root => exact absurd rfl (hp.not_slashed (r := []))
  | bare hne hns => exact hp.unique (.slashed hne hns)
  | slashed => exact absurd (toList_slashed _) hp.not_slashed

/-- **Two paths are for the same names** just if they are the same but for a `/` in front. -/
theorem Spells.eq_iff (hp : Spells p ps) (hq : Spells q qs) : ps = qs ↔ SameButSlash p q := by
  constructor
  · rintro rfl
    rcases hp.eq_or with rfl | rfl <;> rcases hq.eq_or with rfl | rfl
    · exact Or.inl rfl
    · exact Or.inr (Or.inr rfl)
    · exact Or.inr (Or.inl rfl)
    · exact Or.inl rfl
  · rintro (rfl | rfl | rfl)
    · exact hp.unique hq
    · exact hp.slash hq
    · exact (hq.slash hp).symm

/-- Which texts are accepted as paths, and which paths are told apart. -/
structure SegmentsByGrammar : Prop where
  /-- A text that spells names is accepted for those names, and no other is. -/
  accepted : ∀ path names, segments path = .ok names ↔ Spells path names
  /-- Every other text is malformed. -/
  refused : ∀ path, (∀ names, ¬ Spells path names) → segments path = .error (.malformedPath path)
  /-- So is the empty one. -/
  empty : segments "" = .error (.malformedPath "")
  /-- Names that have been joined come back, with a `/` in front and without. -/
  joined : ∀ names, names ≠ [] → (∀ x ∈ names, IsName x) →
    segments (joined names) = .ok names ∧ segments ("/" ++ joined names) = .ok names
  /-- Two paths are for the same names just if they are the same but for a `/` in front. -/
  names : ∀ p q ps qs, segments p = .ok ps → segments q = .ok qs → (ps = qs ↔ SameButSlash p q)
  /-- If a tree has different things at two paths, they differ in more than that. -/
  lookup : ∀ (t : FileTree) p q ps qs, segments p = .ok ps → segments q = .ok qs →
    t.lookup p ≠ t.lookup q → ¬ SameButSlash p q

/-- **Paths are what the grammar says**, and no tree tells two spellings of one path apart. -/
theorem segments_grammar : SegmentsByGrammar where
  accepted path names := segments_eq_ok_iff
  refused path hnone := by
    cases hp : segments path with
    | ok names => exact absurd (segments_eq_ok_iff.mp hp) (hnone names)
    | error e => rw [FileTree.segments_error hp]
  empty := rfl
  joined names hne hns :=
    ⟨segments_eq_ok_iff.mpr (.bare hne hns), segments_eq_ok_iff.mpr (.slashed hne hns)⟩
  names p q ps qs hp hq := (segments_eq_ok_iff.mp hp).eq_iff (segments_eq_ok_iff.mp hq)
  lookup t p q ps qs hp hq hdiffer hsame := by
    have hnames : ps = qs := ((segments_eq_ok_iff.mp hp).eq_iff (segments_eq_ok_iff.mp hq)).mpr hsame
    exact hdiffer (by rw [FileTree.lookup_eq hp, FileTree.lookup_eq hq, hnames])

end Path

end WasiSandbox
