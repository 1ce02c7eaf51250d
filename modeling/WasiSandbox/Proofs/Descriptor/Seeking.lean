import WasiSandbox.Proofs.Descriptor.Expressible
import WasiSandbox.Proofs.Descriptor.Reached
import WasiSandbox.Proofs.Descriptor.Sizes

/-! # Seeking is exact

The places in a file are counted in whole numbers without a bound: from the start, from the cursor or from
the end, a seek goes to the sum if it lies between zero and the largest offset that can be expressed, and is
refused otherwise (`ReachedWithin.seeksExactly`). Nothing in between can go wrong, since cursors and sizes
can be expressed themselves. The end is where the file has been left by whoever has written to it or cut it
last, through this handle or through another one. -/

namespace WasiSandbox

namespace Host

variable {h : Host} {fd : Nat} {d : Descriptor} {path : String} {n : NodeId}

/-- What seeking comes to on a handle that is open on the file `n`. -/
structure SeeksExactly (h : Host) (fd : Nat) (d : Descriptor) (n : NodeId) : Prop where
  /-- A place that can be expressed is gone to: it is the answer, the cursor and what is told next, and
  nothing else has changed. -/
  moves : ∀ (offset : Int) (whence : Whence), 0 ≤ h.seekBase d n whence + offset →
    h.seekBase d n whence + offset ≤ maxOffset → ∃ (place : Nat) (h' : Host),
      (place : Int) = h.seekBase d n whence + offset ∧ seek fd offset whence h = .ok place h' ∧
      h'.table.get? fd = some { d with cursor := place } ∧ tell fd h' = .ok place h' ∧
      (∀ k, k ≠ fd → h'.table.get? k = h.table.get? k) ∧
      h' = { h with table := { h.table with slots := h'.table.slots } }
  /-- Any other place is refused, and nothing has changed. -/
  refuses : ∀ (offset : Int) (whence : Whence), ¬ (0 ≤ h.seekBase d n whence + offset ∧
    h.seekBase d n whence + offset ≤ maxOffset) →
      seek fd offset whence h = .error (.reported .inval) h
  /-- The end of the file is where it was left last, whenever since there is the file one begins to look. -/
  fromEnd : ∀ (start : Host) (sizes : List Nat), start.Reached → start.tree.kind? n = some .file →
    Resizes n start sizes h →
    h.seekBase d n .endOfFile = sizes.getLastD (start.tree.size n)

theorem tell_run (hget : h.table.get? fd = some d) (htarget : d.target = .file path n) :
    tell fd h = .ok d.cursor h := by
  unfold tell
  rw [run_bind_ok (descriptor_run hget), htarget]
  rfl

/-- **Seeking is exact** on every handle that is open on a file that is alive, for every offset. -/
theorem ReachedWithin.seeksExactly (hr : h.ReachedWithin maxOffset) (hget : h.table.get? fd = some d)
    (htarget : d.target = .file path n) (hn : h.tree.alive n = true) : h.SeeksExactly fd d n where
  moves offset whence hlow hhigh := by
    have hbase := hr.expressible.seekBase_le hget htarget whence
    obtain ⟨place, hplace⟩ := Int.eq_ofNat_of_zero_le hlow
    have hrun : seek fd offset whence h = .ok place (h.withCursor fd d place) := by
      rw [seek_run hget htarget hn hbase, if_pos ⟨hlow, hhigh⟩, hplace, Int.toNat_natCast]
      rfl
    have hget' := h.get?_withCursor fd d place
    exact ⟨place, h.withCursor fd d place, hplace.symm, hrun, hget', tell_run hget' htarget,
      fun k hk => get?_withCursor_of_ne hk h d place, rfl⟩
  refuses offset whence hout := by
    have hbase := hr.expressible.seekBase_le hget htarget whence
    rw [seek_run hget htarget hn hbase, if_neg hout]
  fromEnd start sizes hstart hfile hsizes :=
    (hsizes.hasSize hstart.wellFormed hfile).2.size_eq

/-- Two handles on one file, one of which has extended it, cut it by opening it again, and appended to it,
while the other has been moved as far as it goes. -/
theorem shared_file_seeksExactly :
    let start := Host.new (FileTree.empty.run [.addFile "a" [1, 2]]) [] .silent
    let steps : List HostStep := [.guest (.openPath 3 "a" ⟨0⟩ .all .all ⟨0⟩),
      .guest (.openPath 3 "a" ⟨0⟩ .all .all ⟨1⟩), .guest (.seek 4 9223372036854775807 .set),
      .guest (.writeAt 5 [3] 6), .guest (.openPath 3 "a" ⟨8⟩ .all .all ⟨0⟩), .guest (.write 5 [4, 5, 6])]
    let d : Descriptor := ⟨.file "/a" 1, maxOffset, .all, .all, ⟨0⟩⟩
    (start.runShared steps).SeeksExactly 4 d 1 ∧ (start.runShared steps).seekBase d 1 .endOfFile = 3 := by
  intro start steps d
  have hr : (start.runShared steps).ReachedWithin maxOffset :=
    (ReachedWithin.start _ _ _ (by decide)).runShared (by decide)
  have hget : (start.runShared steps).table.get? 4 = some d := by decide +kernel
  exact ⟨hr.seeksExactly hget rfl (by decide +kernel), by decide +kernel⟩

end Host

end WasiSandbox
