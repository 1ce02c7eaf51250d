import WasiSandbox.Proofs.Host.Namespace
import WasiSandbox.Suspend.Drive
import Mathlib.Data.List.Induction

/-! # When a host can be built

All that is offered to a guest is composed in one order: the system calls, the imports of the providers, and
the single imports. An offer is at fault if its names are those of an offer before it, or else if its
signature has a type that is not numeric (`Faulty`). Either no offer is at fault, and then every one of them is
in the namespace (`composeFrom_faultless`), or there is a first one, and then it is reported
(`composeFrom_faulty`). So whether a host can be built, what it consists of, and why it cannot be built are
read off the list of the offers (`HostSetup.build_byOffers`). -/

namespace WasiSandbox

/-! ### Offers and their faults -/

/-- All types in the signature are numeric. -/
def Signature.IsNumeric (s : Signature) : Prop := ∀ type ∈ s.params ++ s.results, type.isNumeric = true

/-- No two offers have the same names, and all signatures are numeric. -/
structure Faultless (offers : List (String × Import)) : Prop where
  distinct : (offers.map (·.2.id)).Nodup
  numeric : ∀ offer ∈ offers, offer.2.signature.IsNumeric

/-- The offer is at fault behind the offers that come before it. -/
inductive Faulty (before : List (String × Import)) : String × Import → HostError → Prop where
  /-- An offer with the same names was there already, of the same provider or of another. -/
  | repeated {first owner : String} {i j : Import} : (first, j) ∈ before → j.id = i.id →
      Faulty before (owner, i) (.duplicateImport i.id first owner)
  /-- The names are new, and this type is the first in the signature that is not numeric. -/
  | unsupported {owner : String} {i : Import} {numeric rest : List ValueType} {type : ValueType} :
      (∀ offer ∈ before, offer.2.id ≠ i.id) →
      i.signature.params ++ i.signature.results = numeric ++ type :: rest →
      (∀ t ∈ numeric, t.isNumeric = true) → type.isNumeric = false →
      Faulty before (owner, i) (.unsupportedType i.id type.text)

/-- The imports that are offered, with their providers. -/
def Provider.owners (offers : List (String × Import)) : List (ImportId × String) :=
  offers.map fun offer => (offer.2.id, offer.1)

variable {before done rest offers : List (String × Import)} {offer : String × Import} {e : HostError}
  {s : Signature} {type : ValueType} {id : ImportId}

theorem Signature.unsupported?_eq_none_iff : s.unsupported? = none ↔ s.IsNumeric := by
  unfold unsupported? IsNumeric
  rw [List.find?_eq_none]
  simp

theorem Signature.unsupported?_eq_some_iff : s.unsupported? = some type ↔ type.isNumeric = false ∧
    ∃ numeric rest, s.params ++ s.results = numeric ++ type :: rest ∧
      ∀ t ∈ numeric, t.isNumeric = true := by
  unfold unsupported?
  rw [List.find?_eq_some_iff_append]
  simp

theorem Provider.owners_concat (before : List (String × Import)) (offer : String × Import) :
    owners (before ++ [offer]) = owners before ++ [(offer.2.id, offer.1)] := by
  simp [owners]

theorem Provider.lookup_owners_eq_none_iff :
    (owners before).lookup id = none ↔ ∀ offer ∈ before, offer.2.id ≠ id := by
  rw [List.lookup_eq_none_iff]
  constructor
  · intro h offer hoffer heq
    have hne := h _ (List.mem_map_of_mem (f := fun o : String × Import => (o.2.id, o.1)) hoffer)
    simp [heq] at hne
  · intro h entry hentry
    obtain ⟨offer, hoffer, rfl⟩ := List.mem_map.mp hentry
    exact bne_iff_ne.mpr fun heq => h offer hoffer heq.symm

/-- If no two of them have the same names, each offer is found. -/
theorem Provider.lookup_owners_of_mem (hdistinct : (before.map (·.2.id)).Nodup)
    (hoffer : offer ∈ before) : (owners before).lookup offer.2.id = some offer.1 := by
  induction before with
  | nil => cases hoffer
  | cons first before ih =>
    rw [List.map_cons, List.nodup_cons] at hdistinct
    obtain ⟨hfirst, hdistinct⟩ := hdistinct
    show List.lookup offer.2.id ((first.2.id, first.1) :: owners before) = some offer.1
    rw [List.lookup_cons]
    rcases List.mem_cons.mp hoffer with rfl | hoffer
    · rw [beq_self_eq_true]
    · have hne : offer.2.id ≠ first.2.id := fun heq =>
        hfirst (heq ▸ List.mem_map_of_mem (f := fun o : String × Import => o.2.id) hoffer)
      rw [beq_eq_false_iff_ne.mpr hne]
      exact ih hdistinct hoffer

/-! ### What is at fault first -/

theorem faultless_nil : Faultless [] := ⟨List.nodup_nil, by simp⟩

theorem faultless_concat_iff : Faultless (before ++ [offer]) ↔
    Faultless before ∧ (∀ o ∈ before, o.2.id ≠ offer.2.id) ∧ offer.2.signature.IsNumeric := by
  constructor
  · rintro ⟨hdistinct, hnumeric⟩
    rw [List.map_append, List.nodup_append] at hdistinct
    obtain ⟨hbefore, -, hnew⟩ := hdistinct
    refine ⟨⟨hbefore, fun o ho => hnumeric o (List.mem_append_left _ ho)⟩, fun o ho => ?_,
      hnumeric offer (by simp)⟩
    exact hnew _ (List.mem_map_of_mem ho) _ (by simp)
  · rintro ⟨⟨hdistinct, hnumeric⟩, hnew, hoffer⟩
    constructor
    · rw [List.map_append, List.nodup_append]
      refine ⟨hdistinct, by simp, fun a ha b hb => ?_⟩
      obtain ⟨o, ho, rfl⟩ := List.mem_map.mp ha
      have hb' : b = offer.2.id := by simpa using hb
      rw [hb']
      exact hnew o ho
    · intro o ho
      rcases List.mem_append.mp ho with ho | ho
      · exact hnumeric o ho
      · obtain rfl := List.mem_singleton.mp ho
        exact hoffer

theorem Faultless.of_append (h : Faultless (before ++ offers)) : Faultless before where
  distinct := by
    have hdistinct := h.distinct
    rw [List.map_append] at hdistinct
    exact (List.nodup_append.mp hdistinct).1
  numeric o ho := h.numeric o (List.mem_append_left _ ho)

/-- Behind offers that are not at fault, the next one is at fault or it is not. -/
theorem Faultless.next (h : Faultless before) (offer : String × Import) :
    Faultless (before ++ [offer]) ∨ ∃ e, Faulty before offer e := by
  obtain ⟨owner, i⟩ := offer
  by_cases hrepeated : ∃ o ∈ before, o.2.id = i.id
  · obtain ⟨⟨first, j⟩, hj, hid⟩ := hrepeated
    exact Or.inr ⟨_, .repeated hj hid⟩
  have hnew : ∀ o ∈ before, o.2.id ≠ i.id := fun o ho hid => hrepeated ⟨o, ho, hid⟩
  cases htype : i.signature.unsupported? with
  | none =>
    exact Or.inl (faultless_concat_iff.mpr ⟨h, hnew, Signature.unsupported?_eq_none_iff.mp htype⟩)
  | some type =>
    obtain ⟨hunsupported, numeric, rest, hsplit, hnumeric⟩ := Signature.unsupported?_eq_some_iff.mp htype
    exact Or.inr ⟨_, .unsupported hnew hsplit hnumeric hunsupported⟩

/-- **No offer is at fault, or there is a first one that is.** -/
theorem faultless_or_faulty (offers : List (String × Import)) : Faultless offers ∨
    ∃ before offer rest e, offers = before ++ offer :: rest ∧ Faultless before ∧ Faulty before offer e := by
  induction offers using List.reverseRecOn with
  | nil => exact Or.inl faultless_nil
  | append_singleton offers offer ih =>
    rcases ih with hfaultless | ⟨before, first, rest, e, rfl, hbefore, hfaulty⟩
    · rcases hfaultless.next offer with hnext | ⟨e, hfaulty⟩
      · exact Or.inl hnext
      · exact Or.inr ⟨offers, offer, [], e, rfl, hfaultless, hfaulty⟩
    · exact Or.inr ⟨before, first, rest ++ [offer], e, by simp, hbefore, hfaulty⟩

/-! ### Composing -/

/-- An offer that is not at fault goes into the namespace. -/
theorem composeFrom_cons (hnext : Faultless (before ++ [offer])) :
    composeFrom (Provider.owners before) (offer :: rest) =
      (composeFrom (Provider.owners (before ++ [offer])) rest).map (offer.2 :: ·) := by
  obtain ⟨-, hnew, hnumeric⟩ := faultless_concat_iff.mp hnext
  rw [composeFrom, Provider.lookup_owners_eq_none_iff.mpr hnew,
    Signature.unsupported?_eq_none_iff.mpr hnumeric, Provider.owners_concat]

/-- **Offers that are not at fault** are all in the namespace, in order. -/
theorem composeFrom_faultless (h : Faultless (before ++ offers)) :
    composeFrom (Provider.owners before) offers = .ok (offers.map Prod.snd) := by
  induction offers generalizing before with
  | nil => rfl
  | cons offer offers ih =>
    rw [List.append_cons] at h
    rw [composeFrom_cons h.of_append, ih h]
    rfl

/-- **The first offer that is at fault** is reported. -/
theorem composeFrom_faulty (h : Faultless (before ++ done)) (hfaulty : Faulty (before ++ done) offer e) :
    composeFrom (Provider.owners before) (done ++ offer :: rest) = .error e := by
  induction done generalizing before with
  | nil =>
    rw [List.append_nil] at h hfaulty
    rw [List.nil_append, composeFrom]
    cases hfaulty with
    | repeated hj hid => rw [← hid, Provider.lookup_owners_of_mem h.distinct hj]
    | unsupported hnew hsplit hnumeric htype =>
      rw [Provider.lookup_owners_eq_none_iff.mpr hnew,
        Signature.unsupported?_eq_some_iff.mpr ⟨htype, _, _, hsplit, hnumeric⟩]
  | cons next done ih =>
    rw [List.append_cons] at h hfaulty
    rw [List.cons_append, composeFrom_cons h.of_append, ih h hfaulty]
    rfl

/-! ### Building -/

variable {providers : List Provider} {imports : List Import}

theorem compose_faulty (hoffers : Provider.offers providers = before ++ offer :: rest)
    (h : Faultless before) (hfaulty : Faulty before offer e) : compose providers = .error e := by
  have hstart : Faultless ([] ++ before) := h
  rw [compose, hoffers]
  exact composeFrom_faulty hstart hfaulty

/-- Composing succeeds just if no offer is at fault. -/
theorem compose_ok_iff : compose providers = .ok imports ↔
    Faultless (Provider.offers providers) ∧ imports = (Provider.offers providers).map Prod.snd := by
  constructor
  · intro hok
    rcases faultless_or_faulty (Provider.offers providers) with
      h | ⟨before, offer, rest, e, hoffers, h, hfaulty⟩
    · exact ⟨h, composeFrom_eq hok⟩
    · rw [compose_faulty hoffers h hfaulty] at hok
      cases hok
  · rintro ⟨h, rfl⟩
    have hstart : Faultless ([] ++ Provider.offers providers) := h
    exact composeFrom_faultless hstart

/-- It fails just if there is a first offer that is at fault, and with that fault. -/
theorem compose_error_iff : compose providers = .error e ↔
    ∃ before offer rest, Provider.offers providers = before ++ offer :: rest ∧ Faultless before ∧
      Faulty before offer e := by
  constructor
  · intro herror
    rcases faultless_or_faulty (Provider.offers providers) with
      h | ⟨before, offer, rest, e', hoffers, h, hfaulty⟩
    · rw [compose_ok_iff.mpr ⟨h, rfl⟩] at herror
      cases herror
    · cases herror.symm.trans (compose_faulty hoffers h hfaulty)
      exact ⟨before, offer, rest, hoffers, h, hfaulty⟩
  · rintro ⟨before, offer, rest, hoffers, h, hfaulty⟩
    exact compose_faulty hoffers h hfaulty

namespace HostSetup

variable {s : HostSetup} {h : ComposedHost}

/-- All imports that are offered, with the names of their providers, in the order in which they are
composed. -/
def offered (s : HostSetup) : List (String × Import) :=
  Provider.offers s.builtins ++ Provider.offers s.providers ++ s.custom.map ("custom", ·)

/-- The imports themselves. -/
def definitions (s : HostSetup) : List Import :=
  s.builtins.flatMap (·.imports) ++ s.providers.flatMap (·.imports) ++ s.custom

theorem offers_allProviders (s : HostSetup) : Provider.offers s.allProviders = s.offered := by
  unfold allProviders offered Provider.offers
  rw [List.flatMap_append, List.flatMap_append]
  cases hcustom : s.custom <;> simp

theorem map_offers (providers : List Provider) :
    (Provider.offers providers).map Prod.snd = providers.flatMap (·.imports) := by
  unfold Provider.offers
  rw [List.map_flatMap]
  simp [Function.comp_def]

theorem map_offered (s : HostSetup) : s.offered.map Prod.snd = s.definitions := by
  unfold offered definitions
  rw [List.map_append, List.map_append, map_offers, map_offers]
  simp [Function.comp_def]

theorem faultless_offered_iff : Faultless s.offered ↔
    (s.definitions.map (·.id)).Nodup ∧ ∀ i ∈ s.definitions, i.signature.IsNumeric := by
  rw [← map_offered, List.map_map]
  constructor
  · rintro ⟨hdistinct, hnumeric⟩
    refine ⟨hdistinct, fun i hi => ?_⟩
    obtain ⟨offer, hoffer, rfl⟩ := List.mem_map.mp hi
    exact hnumeric offer hoffer
  · rintro ⟨hdistinct, hnumeric⟩
    exact ⟨hdistinct, fun offer hoffer => hnumeric _ (List.mem_map_of_mem hoffer)⟩

/-- Where no two imports have the same names, each is the one that is found by its names. -/
theorem import?_of_nodup {imports : List Import} (hdistinct : (imports.map (·.id)).Nodup) {i : Import}
    (hi : i ∈ imports) {σ φ : Type} (g : Guest σ φ) :
    (⟨g, imports⟩ : Linked σ φ).import? i.id = some i := by
  unfold Linked.import?
  dsimp only
  induction imports with
  | nil => cases hi
  | cons first imports ih =>
    rw [List.map_cons, List.nodup_cons] at hdistinct
    obtain ⟨hfirst, hdistinct⟩ := hdistinct
    rw [List.find?_cons]
    rcases List.mem_cons.mp hi with rfl | hi
    · rw [beq_self_eq_true]
    · have hne : first.id ≠ i.id := fun heq => hfirst (heq ▸ List.mem_map_of_mem (f := (·.id)) hi)
      rw [beq_eq_false_iff_ne.mpr hne]
      exact ih hdistinct hi

/-- What comes of building the host is read off the imports that are offered. -/
structure BuildsByOffers (s : HostSetup) : Prop where
  /-- It can be built just if all names are different and all types numeric. -/
  succeeds : (∃ h, s.build = .ok h) ↔
    (s.definitions.map (·.id)).Nodup ∧ ∀ i ∈ s.definitions, i.signature.IsNumeric
  /-- Then it has all the imports in order, and everything else from its setup. -/
  composed : ∀ h, s.build = .ok h → h = ⟨s, s.definitions⟩
  /-- The names of each import lead to that import, whatever guest is linked to them. -/
  resolves : ∀ h, s.build = .ok h → ∀ i ∈ h.imports, ∀ (σ φ : Type) (g : Guest σ φ),
    (⟨g, h.imports⟩ : Linked σ φ).import? i.id = some i
  /-- Otherwise the error is about the first offer that is at fault. -/
  fails : ∀ e, s.build = .error e ↔ ∃ before offer rest, s.offered = before ++ offer :: rest ∧
    Faultless before ∧ Faulty before offer e

theorem build_ok_iff : s.build = .ok h ↔ Faultless s.offered ∧ h = ⟨s, s.definitions⟩ := by
  rw [← offers_allProviders, ← map_offered, ← offers_allProviders]
  constructor
  · intro hbuild
    refine ⟨?_, build_ok hbuild⟩
    unfold build at hbuild
    cases hcompose : compose s.allProviders with
    | error e =>
      rw [hcompose] at hbuild
      cases hbuild
    | ok imports => exact (compose_ok_iff.mp hcompose).1
  · rintro ⟨hfaultless, rfl⟩
    rw [build, compose_ok_iff.mpr ⟨hfaultless, rfl⟩]
    rfl

theorem build_error_iff : s.build = .error e ↔ compose s.allProviders = .error e := by
  unfold build
  cases compose s.allProviders <;> simp [Except.map]

/-- **A host can be built from offers that are not at fault**, and otherwise the first fault is told, for every
list of providers and of single imports. -/
theorem build_byOffers (s : HostSetup) : s.BuildsByOffers where
  succeeds := by
    rw [← faultless_offered_iff]
    constructor
    · rintro ⟨h, hbuild⟩
      exact (build_ok_iff.mp hbuild).1
    · intro hfaultless
      exact ⟨_, build_ok_iff.mpr ⟨hfaultless, rfl⟩⟩
  composed h hbuild := (build_ok_iff.mp hbuild).2
  resolves h hbuild i hi σ φ g := by
    obtain ⟨hfaultless, rfl⟩ := build_ok_iff.mp hbuild
    exact import?_of_nodup (faultless_offered_iff.mp hfaultless).1 hi g
  fails e := by
    rw [build_error_iff, compose_error_iff, offers_allProviders]

end HostSetup

end WasiSandbox
