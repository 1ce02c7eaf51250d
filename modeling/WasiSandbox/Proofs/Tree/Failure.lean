import WasiSandbox.Proofs.Tree.Content
import WasiSandbox.Proofs.Tree.Refinement

/-! # What an operation on the tree has done when it fails

Operations on the content of a file, and those that make a node where its directory already exists,
leave any list of nodes as it was when they fail (`atomic_updateContent`, `atomic_createAt`), and they
fail with errors of the tree only, never with a defect. When the latter succeed, the new node stands
behind all others (`createAt_ok`). -/

namespace WasiSandbox

namespace FileTree

variable {t : FileTree} {n : NodeId} {path : String}

/-! ### On the content of a file -/

theorem atomic_updateContent {α : Type} (n : NodeId)
    (f : String → Bytes → Except (Failure FsError) (α × Bytes)) : Atomic (updateContent n f) := by
  intro t e t' h
  rw [updateContent_run] at h
  split at h
  · cases h
  · split at h <;> cases h
    rfl

/-- What is no file is left alone. -/
theorem updateContent_none {α : Type} {f : String → Bytes → Except (Failure FsError) (α × Bytes)}
    {t' : FileTree} (h : updateContent n f t = .ok none t') : t' = t := by
  rw [updateContent_run] at h
  split at h
  · cases h
    rfl
  · split at h <;> cases h

theorem updateContent_some {α : Type} {f : String → Bytes → Except (Failure FsError) (α × Bytes)}
    {t' : FileTree} {a : α} (h : updateContent n f t = .ok (some a) t') :
    ∃ name content content', t.file? n = some (name, content) ∧
      f name content = .ok (a, content') ∧ t' = t.withContent n content' := by
  rw [updateContent_run] at h
  split at h
  · cases h
  · next name content hfile =>
    split at h
    · cases h
    · next hf =>
      cases h
      exact ⟨name, content, _, hfile, hf, rfl⟩

/-! ### By path -/

theorem keeps_parse (path : String) : Keeps id (parse path) := by
  unfold parse
  split
  · exact keeps_pure _
  · exact keeps_throw _

theorem keeps_requireDirectory (path : String) (dir : NodeId) (x : String) :
    Keeps id (requireDirectory path dir x) := by
  intro t
  rw [requireDirectory_eq]
  split
  · split <;> rfl
  · rfl

theorem atomic_insertNew (path : String) (dir : NodeId) (x : String) (body : NodeBody) :
    Atomic (insertNew path dir x body) :=
  Atomic.after keeps_get fun _ =>
    atomic_ite (keeps_throw _).atomic (atomic_of_ok fun t => ⟨_, _, create_run dir x body t⟩)

/-- What does not make directories on its way is atomic on every list of nodes. -/
theorem atomic_createAt (path : String) (body : NodeBody) : Atomic (createAt path body) := by
  refine Atomic.after (keeps_parse path) fun names => ?_
  split
  · exact (keeps_throw _).atomic
  · next name _ =>
    refine Atomic.after keeps_get fun t => Atomic.after ?_ fun dir =>
      atomic_insertNew path dir name body
    exact keeps_foldlM (keeps_requireDirectory path) _ _

/-- What `createAt` makes is the youngest node. -/
theorem createAt_ok {body : NodeBody} {t' : FileTree} (h : createAt path body t = .ok n t') :
    n = t.nodes.length ∧ ∃ dir x, t' = t.add dir x body := by
  obtain ⟨names, t₁, hparse, hrest⟩ := run_bind_eq_ok h
  obtain rfl : t₁ = t := (keeps_parse path).ok hparse
  cases hlast : names.getLast? with
  | none =>
    rw [hlast] at hrest
    cases hrest
  | some x =>
    rw [hlast] at hrest
    dsimp only at hrest
    rw [run_get_bind] at hrest
    obtain ⟨dir, t₂, hway, hinsert⟩ := run_bind_eq_ok hrest
    obtain rfl : t₂ = t₁ := (keeps_foldlM (keeps_requireDirectory path) _ _).ok hway
    unfold insertNew at hinsert
    rw [run_get_bind] at hinsert
    split at hinsert
    · cases hinsert
    · cases hinsert
      exact ⟨rfl, dir, x, rfl⟩

theorem isDirectory_add_file (t : FileTree) (dir : NodeId) (x : String) (content : Bytes) :
    (t.add dir x (.file content)).isDirectory t.nodes.length = false := by
  rw [Bool.eq_false_iff, Ne, isDirectory_iff_bodyAt?, bodyAt?_add, if_pos rfl]
  simp

/-- A file can always be emptied. -/
theorem setLength_zero (n : NodeId) (t : FileTree) : ∃ a t', setLength n 0 t = .ok a t' := by
  rw [setLength, updateContent_run]
  cases t.file? n with
  | none => exact ⟨_, _, rfl⟩
  | some f => exact ⟨_, _, rfl⟩

/-! ### No defects -/

section Avoids

open Failure

theorem updateContent_avoids {α : Type}
    {f : String → Bytes → Except (Failure FsError) (α × Bytes)}
    (hf : ∀ name content e, f name content = .error e → ¬ e.IsDefect) (n : NodeId) (t : FileTree) :
    Avoids IsDefect (updateContent n f) t := by
  intro e t' h
  rw [updateContent_run] at h
  split at h
  · cases h
  · split at h
    · next he =>
      cases h
      exact hf _ _ _ he
    · cases h

theorem writeAt_avoids (n : NodeId) (offset : Nat) (data : Bytes) (t : FileTree) :
    Avoids IsDefect (writeAt n offset data) t := by
  refine updateContent_avoids (fun name content e he => ?_) n t
  rw [Content.overwrite_eq] at he
  split at he <;> cases he
  exact id

theorem append_avoids (n : NodeId) (data : Bytes) (t : FileTree) :
    Avoids IsDefect (append n data) t := by
  refine updateContent_avoids (fun name content e he => ?_) n t
  rw [Content.append_eq] at he
  split at he <;> cases he
  exact id

theorem setLength_avoids (n : NodeId) (length : Nat) (t : FileTree) :
    Avoids IsDefect (setLength n length) t := by
  refine updateContent_avoids (fun name content e he => ?_) n t
  rw [Content.setLength_eq] at he
  split at he <;> cases he
  exact id

theorem parse_avoids (path : String) (t : FileTree) : Avoids IsDefect (parse path) t := by
  unfold parse
  split
  · exact avoids_pure _ t
  · exact avoids_throw id t

theorem requireDirectory_avoids (path : String) (dir : NodeId) (x : String) (t : FileTree) :
    Avoids IsDefect (requireDirectory path dir x) t := by
  refine avoids_get_bind ?_
  split
  · exact avoids_ite (fun _ => avoids_pure _ t) fun _ => avoids_throw id t
  · exact avoids_throw id t

theorem createAt_avoids (path : String) (body : NodeBody) (t : FileTree) :
    Avoids IsDefect (createAt path body) t := by
  refine (parse_avoids path t).bind fun names t' _ => ?_
  split
  · exact avoids_throw id t'
  · refine avoids_get_bind ((avoids_foldlM (requireDirectory_avoids path) _ _ t').bind
      fun dir t'' _ => avoids_get_bind ?_)
    exact avoids_ite (fun _ => avoids_throw id t'') fun _ => avoids_modifyGet _ t''

end Avoids

end FileTree

end WasiSandbox
