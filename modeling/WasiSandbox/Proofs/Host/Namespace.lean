import WasiSandbox.Host.Setup

/-! # The namespace of a host

Composing goes through the offers of the providers one by one (`composeFrom_cons_ok`). If none is at fault,
the namespace is made of all their imports in order (`composeFrom_eq`), so every import of a host that was
built comes from one of its providers (`HostSetup.mem_imports`), and the signatures are numeric
(`composeFrom_numeric`). -/

namespace WasiSandbox

variable {owners : List (ImportId × String)} {offers : List (String × Import)} {imports : List Import}

/-- The first offer is not at fault, and the others are composed behind it. -/
theorem composeFrom_cons_ok {offer : String × Import}
    (h : composeFrom owners (offer :: offers) = .ok imports) :
    owners.lookup offer.2.id = none ∧ offer.2.signature.unsupported? = none ∧
      ∃ rest, composeFrom (owners ++ [(offer.2.id, offer.1)]) offers = .ok rest ∧
        imports = offer.2 :: rest := by
  unfold composeFrom at h
  cases hown : owners.lookup offer.2.id with
  | some first => rw [hown] at h; cases h
  | none =>
    rw [hown] at h
    cases hun : offer.2.signature.unsupported? with
    | some type => rw [hun] at h; cases h
    | none =>
      rw [hun] at h
      cases hrest : composeFrom (owners ++ [(offer.2.id, offer.1)]) offers with
      | error e => rw [hrest] at h; cases h
      | ok rest =>
        rw [hrest] at h
        cases h
        exact ⟨rfl, rfl, rest, rfl, rfl⟩

/-- **The namespace is all that is offered**, in order. -/
theorem composeFrom_eq (h : composeFrom owners offers = .ok imports) : imports = offers.map Prod.snd := by
  induction offers generalizing owners imports with
  | nil => cases h; rfl
  | cons offer offers ih =>
    obtain ⟨-, -, rest, hrest, rfl⟩ := composeFrom_cons_ok h
    rw [ih hrest, List.map_cons]

/-- No import of a namespace has a type that is not numeric. -/
theorem composeFrom_numeric (h : composeFrom owners offers = .ok imports) :
    ∀ i ∈ imports, i.signature.unsupported? = none := by
  induction offers generalizing owners imports with
  | nil => cases h; simp
  | cons offer offers ih =>
    obtain ⟨-, hnumeric, rest, hrest, rfl⟩ := composeFrom_cons_ok h
    exact List.forall_mem_cons.mpr ⟨hnumeric, ih hrest⟩

namespace HostSetup

variable {s : HostSetup} {h : ComposedHost}

theorem build_ok (hbuild : s.build = .ok h) :
    h = ⟨s, (Provider.offers s.allProviders).map Prod.snd⟩ := by
  unfold build at hbuild
  cases hcompose : compose s.allProviders with
  | error e => rw [hcompose] at hbuild; cases hbuild
  | ok imports =>
    rw [hcompose] at hbuild
    cases hbuild
    rw [composeFrom_eq hcompose]

/-- **Every import of the host** is a system call, or was added by a provider or by itself. -/
theorem mem_imports (hbuild : s.build = .ok h) {i : Import} (hi : i ∈ h.imports) :
    (∃ p ∈ s.builtins, i ∈ p.imports) ∨ (∃ p ∈ s.providers, i ∈ p.imports) ∨ i ∈ s.custom := by
  obtain rfl := build_ok hbuild
  obtain ⟨offer, hoffer, rfl⟩ := List.mem_map.mp hi
  obtain ⟨p, hp, hoffer⟩ := List.mem_flatMap.mp hoffer
  obtain ⟨i, hip, rfl⟩ := List.mem_map.mp hoffer
  unfold allProviders at hp
  rcases List.mem_append.mp hp with hp | hp
  · exact (List.mem_append.mp hp).imp (fun hp => ⟨p, hp, hip⟩) fun hp => Or.inl ⟨p, hp, hip⟩
  · split at hp
    · cases hp
    · obtain rfl := List.mem_singleton.mp hp
      exact Or.inr (Or.inr hip)

end HostSetup

end WasiSandbox
