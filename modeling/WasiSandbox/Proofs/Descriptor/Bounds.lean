import WasiSandbox.Proofs.Descriptor.Answers

/-! # Sizes and cursors stay in their bounds

No file grows beyond the largest size, no cursor beyond the offsets that can be expressed or, on
standard input, beyond its end: what each change of a host keeps so (`Change.fits`), every chain of
changes does. A handle is left to give out as long as fewer are open than there are
(`lowestFree_lt`). -/

namespace WasiSandbox

/-! ### The lowest free handle -/

theorem findIdx_isNone_le {α : Type} (l : List (Option α)) :
    l.findIdx (·.isNone) ≤ l.countP (·.isSome) := by
  induction l with
  | nil => simp
  | cons a l ih =>
    cases a with
    | none => simp [List.findIdx_cons]
    | some a =>
      simp only [List.findIdx_cons, List.countP_cons, Option.isNone_some, Option.isSome_some,
        cond_false, if_pos]
      omega

/-- All handles below the lowest free one are open. -/
theorem DescriptorTable.lowestFree_lt {t : DescriptorTable}
    (hsize : t.size < UInt32.size - firstHandle) : t.lowestFree < UInt32.size := by
  have hfree := findIdx_isNone_le (t.slots.drop firstHandle)
  have hopen := (List.drop_sublist firstHandle t.slots).countP_le (p := (·.isSome))
  have hfirst : firstHandle < UInt32.size := by decide
  unfold lowestFree
  unfold size at hsize
  omega

namespace Host

variable {h h' : Host} {fd : Nat} {d : Descriptor} {n : NodeId}

/-! ### Changes -/

/-- As long as nobody else has a handle on a node, those that are alive are those that are found at paths. -/
theorem fits_new {t : FileTree} (ht : t.Counted [t.root])
    (hfiles : ∀ q content, t.pathMap q = some (.file content) → content.length ≤ Content.maxFileSize)
    {stdin : Bytes} (hstdin : stdin.length < UInt64.size) (surroundings : Surroundings) :
    Fits (.new t stdin surroundings) where
  tree := ht.toWellFormed
  counts := ht.length
  files {n content} hn hcontent := by
    obtain ⟨k, hk, q, hq⟩ := ht.alive_iff.mp hn
    obtain rfl := List.mem_singleton.mp hk
    exact hfiles q content ((FileTree.pathMap_of_walk hq).trans (FileTree.content?_eq_some_iff.mp hcontent))
  stdin := hstdin
  inInput fd d hget _ := by
    rw [(DescriptorTable.get?_new hget).1]
    exact Nat.zero_le _
  inFile fd d path n hget _ := by
    rw [(DescriptorTable.get?_new hget).1]
    exact Nat.zero_le _

/-- A descriptor comes in whose cursor is in its bounds. -/
theorem Fits.put (hf : h.Fits) (hin : d.target = .stdin → d.cursor ≤ h.table.stdin.length)
    (hfile : ∀ path n, d.target = .file path n → d.cursor ≤ maxOffset) :
    Fits { h with table := h.table.put fd d } where
  tree := hf.tree
  counts := hf.counts
  files := hf.files
  stdin := hf.stdin
  inInput k d' hget htarget := by
    rw [DescriptorTable.get?_put] at hget
    split at hget
    · cases hget
      exact hin htarget
    · exact hf.inInput k d' hget htarget
  inFile k d' path n hget htarget := by
    rw [DescriptorTable.get?_put] at hget
    split at hget
    · cases hget
      exact hfile path n htarget
    · exact hf.inFile k d' path n hget htarget

theorem Fits.clear (hf : h.Fits) (fd : Nat) : Fits { h with table := h.table.clear fd } where
  tree := hf.tree
  counts := hf.counts
  files := hf.files
  stdin := hf.stdin
  inInput k d hget htarget := by
    rw [DescriptorTable.get?_clear] at hget
    split at hget
    · cases hget
    · exact hf.inInput k d hget htarget
  inFile k d path n hget htarget := by
    rw [DescriptorTable.get?_clear] at hget
    split at hget
    · cases hget
    · exact hf.inFile k d path n hget htarget

/-- Where a cursor may land it is in its bounds. -/
theorem Fits.lands_inInput (hf : h.Fits) {k : Nat} (hget : h.table.get? fd = some d)
    (hlands : h.Lands d k) (htarget : d.target = .stdin) : k ≤ h.table.stdin.length := by
  rcases hlands with rfl | hend
  · exact hf.inInput fd d hget htarget
  · rwa [htarget] at hend

theorem Fits.lands_inFile (hf : h.Fits) {k : Nat} {path : String} (hget : h.table.get? fd = some d)
    (hlands : h.Lands d k) (htarget : d.target = .file path n) : k ≤ maxOffset := by
  rcases hlands with rfl | hend
  · exact hf.inFile fd d path n hget htarget
  · rw [htarget] at hend
    rcases hend with hle | ⟨hn, content, hcontent, hle⟩
    · exact hle
    · have hsize := hf.files hn hcontent
      exact hle.trans (hsize.trans (by decide))

/-- The tree changes, and its files keep within the largest size. -/
theorem Fits.withTree (hf : h.Fits) {t : FileTree} (ht : t.WellFormed)
    (hcounts : t.strong.length = t.nodes.length)
    (hfiles : ∀ {n content}, t.alive n = true → t.content? n = some content →
      content.length ≤ Content.maxFileSize) : Fits { h with tree := t } where
  tree := ht
  counts := hcounts
  files := hfiles
  stdin := hf.stdin
  inInput := hf.inInput
  inFile := hf.inFile

/-- **No change leaves the bounds.** -/
theorem Change.fits (hc : Change h h') (hf : h.Fits) : h'.Fits := by
  have ht' := hc.wellFormed hf.tree
  cases hc with
  | aside htree _ hslots hstdin =>
    have hget : ∀ k, h'.table.get? k = h.table.get? k := fun k => by
      rw [DescriptorTable.get?, hslots, DescriptorTable.get?]
    refine ⟨ht', ?_, ?_, ?_, fun k d => ?_, fun k d => ?_⟩
    · rw [htree]
      exact hf.counts
    · rw [htree]
      exact hf.files
    · rw [hstdin]
      exact hf.stdin
    · rw [hget, hstdin]
      exact hf.inInput k d
    · rw [hget]
      exact hf.inFile k d
  | @made full body n t hbody hcreate =>
    obtain ⟨rfl, dir, x, rfl⟩ := FileTree.createAt_ok hcreate
    refine hf.withTree ht' (FileTree.length_add hf.counts) fun {n content} hn hcontent => ?_
    rw [FileTree.content?_eq_some_iff, FileTree.bodyAt?_add] at hcontent
    split at hcontent
    · -- The new node is empty.
      rcases hbody with rfl | rfl <;> cases hcontent
      exact Nat.zero_le _
    · next hold =>
      exact hf.files (FileTree.alive_of_add hf.counts hold hn) (FileTree.content?_eq_some_iff.mpr hcontent)
  | @filled n old content hold hgrown =>
    refine hf.withTree ht' (hf.counts.trans (List.length_modify ..).symm) fun {k c} hk hc => ?_
    by_cases hn : n = k
    · subst hn
      cases (FileTree.content?_withContent hold content).symm.trans hc
      have hle := hf.files hk hold
      omega
    · exact hf.files hk ((FileTree.content?_withContent_of_ne hn h.tree content).symm.trans hc)
  | opened _ _ _ _ hcursor =>
    refine hf.put (fun _ => ?_) fun _ _ _ => ?_
    · rw [hcursor]
      exact Nat.zero_le _
    · rw [hcursor]
      exact Nat.zero_le _
  | updated hget htarget hlands =>
    refine hf.put (fun hin => ?_) fun path n hfile => ?_
    · exact hf.lands_inInput hget hlands (htarget ▸ hin)
    · exact hf.lands_inFile hget hlands (htarget ▸ hfile)
  | closed fd => exact hf.clear fd

theorem Changes.fits (hc : Changes h h') (hf : h.Fits) : h'.Fits :=
  hc.keeps (fun _ _ hc hf => hc.fits hf) hf

end Host

end WasiSandbox
