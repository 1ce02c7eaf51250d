import WasiSandbox.Host.Environment
import WasiSandbox.Proofs.Text.Decoding
import Mathlib.Data.List.Induction

/-! # The variables that a guest sees

Setting a variable keeps the keys in increasing order, each once (`Sorted.insert`), and changes the value
of no other key (`lookup_insert`). So after setting any number of variables, each key that was set has the
value that it was given last, and the keys stand in order (`rendered_strings`). -/

namespace WasiSandbox.Environment

variable {env vars : List (String × String)} {key value k : String} {items : List String}

/-- The keys stand in increasing order, each once. -/
def Sorted (env : List (String × String)) : Prop :=
  (env.map (·.1)).Pairwise fun a b => Text.nameLe a b = true ∧ a ≠ b

/-! ### Setting a variable -/

theorem mem_keys_insert (h : k ∈ (insert key value env).map (·.1)) : k = key ∨ k ∈ env.map (·.1) := by
  induction env with
  | nil => exact Or.inl (List.mem_singleton.mp h)
  | cons var rest ih =>
    obtain ⟨k₀, v₀⟩ := var
    unfold insert at h
    split at h
    · exact (List.mem_cons.mp h).imp_right fun hrest => List.mem_cons_of_mem _ hrest
    · split at h
      · exact List.mem_cons.mp h
      · rcases List.mem_cons.mp h with rfl | hrest
        · exact Or.inr List.mem_cons_self
        · exact (ih hrest).imp_right fun hrest => List.mem_cons_of_mem _ hrest

theorem Sorted.insert (h : Sorted env) (key value : String) : Sorted (insert key value env) := by
  unfold Sorted at h ⊢
  induction env with
  | nil => exact List.pairwise_singleton _ _
  | cons var rest ih =>
    obtain ⟨k₀, v₀⟩ := var
    obtain ⟨hfirst, hrest⟩ := List.pairwise_cons.mp h
    unfold Environment.insert
    split
    · next heq =>
      cases heq
      exact h
    · next hne =>
      split
      · next hle =>
        -- The new key stands before the first one, and so before all.
        refine List.pairwise_cons.mpr ⟨fun k hk => ?_, h⟩
        rcases List.mem_cons.mp hk with rfl | hk
        · exact ⟨hle, Ne.symm hne⟩
        · obtain ⟨hle', hne'⟩ := hfirst k hk
          refine ⟨Text.nameLe_trans hle hle', fun heq => hne ?_⟩
          rw [← show key = k from heq] at hle'
          exact Text.nameLe_antisymm hle' hle
      · next hle =>
        refine List.pairwise_cons.mpr ⟨fun k hk => ?_, ih hrest⟩
        rcases mem_keys_insert hk with rfl | hk
        · have htotal := Text.nameLe_total k₀ k
          rw [Bool.or_eq_true] at htotal
          exact ⟨htotal.resolve_right hle, hne⟩
        · exact hfirst k hk

theorem lookup_cons (key value k : String) (env : List (String × String)) :
    List.lookup k ((key, value) :: env) = if k = key then some value else env.lookup k := by
  rw [List.lookup_cons]
  by_cases hk : k = key
  · rw [if_pos hk, beq_iff_eq.mpr hk]
  · rw [if_neg hk, beq_false_of_ne hk]

theorem lookup_insert (key value k : String) (env : List (String × String)) :
    (insert key value env).lookup k = if k = key then some value else env.lookup k := by
  induction env with
  | nil => exact lookup_cons key value k []
  | cons var rest ih =>
    obtain ⟨k₀, v₀⟩ := var
    unfold insert
    split
    · next heq =>
      rw [heq, lookup_cons, lookup_cons]
      split <;> rfl
    · next hne =>
      split
      · exact lookup_cons key value k _
      · rw [lookup_cons, lookup_cons, ih]
        split
        · next hk => rw [hk, if_neg hne]
        · rfl

/-! ### Setting many -/

theorem ofList_concat (vars : List (String × String)) (var : String × String) :
    ofList (vars ++ [var]) = insert var.1 var.2 (ofList vars) := by
  unfold ofList
  rw [List.foldl_append]
  rfl

theorem sorted_ofList (vars : List (String × String)) : Sorted (ofList vars) := by
  induction vars using List.reverseRecOn with
  | nil => exact List.Pairwise.nil
  | append_singleton vars var ih =>
    rw [ofList_concat]
    exact ih.insert var.1 var.2

/-- **A variable has the value that it was given last.** -/
theorem lookup_ofList (vars : List (String × String)) (k : String) :
    (ofList vars).lookup k = vars.reverse.lookup k := by
  induction vars using List.reverseRecOn with
  | nil => rfl
  | append_singleton vars var ih =>
    rw [ofList_concat, lookup_insert, ih, List.reverse_append, List.reverse_singleton,
      List.singleton_append]
    exact (lookup_cons var.1 var.2 k vars.reverse).symm

/-! ### Keys and values -/

theorem mem_keys_iff : k ∈ env.map (·.1) ↔ (env.lookup k).isSome = true := by
  induction env with
  | nil => simp
  | cons var env ih =>
    obtain ⟨key, value⟩ := var
    rw [List.map_cons, List.mem_cons, ih, lookup_cons]
    split
    · next heq => simp [heq]
    · next hne => simp [hne]

/-- Where each key stands once, it has the value that it stands with. -/
theorem Sorted.lookup_of_mem (h : Sorted env) {var : String × String} (hvar : var ∈ env) :
    env.lookup var.1 = some var.2 := by
  unfold Sorted at h
  induction env with
  | nil => cases hvar
  | cons first env ih =>
    obtain ⟨key, value⟩ := first
    obtain ⟨hfirst, hrest⟩ := List.pairwise_cons.mp h
    rw [lookup_cons]
    rcases List.mem_cons.mp hvar with rfl | hvar
    · rw [if_pos rfl]
    · have hne : var.1 ≠ key := fun heq => (hfirst var.1 (List.mem_map_of_mem hvar)).2 heq.symm
      rw [if_neg hne, ih hrest hvar]

/-! ### As strings -/

/-- The strings are the keys and the last values of the variables, in increasing order of the keys. -/
def Renders (vars : List (String × String)) (items : List String) : Prop :=
  ∃ env : List (String × String), items = env.map (fun var => var.1 ++ "=" ++ var.2) ∧ Sorted env ∧
    ∀ key, env.lookup key = vars.reverse.lookup key

/-- **The guest sees every variable once**, in the order of the keys, with the value that was given last. -/
theorem rendered_strings (vars : List (String × String)) : Renders vars (strings vars) :=
  ⟨ofList vars, rfl, sorted_ofList vars, lookup_ofList vars⟩

end WasiSandbox.Environment
