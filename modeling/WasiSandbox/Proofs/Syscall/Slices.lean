import WasiSandbox.Proofs.Descriptor.Reached
import WasiSandbox.Proofs.Syscall.Paging

/-! # A page is a slice of the listing

The listing of a directory from a cookie on is made of the records of all entries that stand there or behind,
one after the other (`listing`). A page is built record by record until there is enough for it, and then cut
to the room that the guest has given. So it is the front of the listing (`Pager.octets_eq`), and a call
delivers these octets and no others (`Pager.delivers_iff`): a page with more room goes on where one with less
was cut, and a page that is not full is the whole listing. A directory that is no longer alive is not listed
at all (`page_is_slice`). -/

namespace WasiSandbox

namespace Syscall

variable {index : Nat} {es : List (String × NodeKind)} {cookie : UInt64}

/-! ### The whole listing -/

/-- The records of the entries that stand at the cookie or behind it, each with the number behind its own as
cookie and as inode. -/
def listing (es : List (String × NodeKind)) (cookie : UInt64) : Bytes :=
  (es.zipIdx.filter fun e => cookie.toNat ≤ e.2).flatMap fun e =>
    Dirent.encode ⟨.ofNat (e.2 + 1), .ofNat (e.2 + 1), e.1.1, e.1.2.filetype⟩

theorem recordsFrom_eq (index : Nat) (es : List (String × NodeKind)) :
    recordsFrom index es = (es.zipIdx index).flatMap fun e => entryRecord e.2 e.1 := by
  induction es generalizing index with
  | nil => rfl
  | cons e es ih => rw [recordsFrom, ih, List.zipIdx_cons, List.flatMap_cons]

/-- What stands behind a place are the entries that are left when those before it are dropped. -/
theorem filter_zipIdx (place index : Nat) (es : List (String × NodeKind)) :
    (es.zipIdx index).filter (fun e => place ≤ e.2) =
      (es.drop (place - index)).zipIdx (max index place) := by
  induction es generalizing index with
  | nil => rw [List.drop_nil]; rfl
  | cons e es ih =>
    rw [List.zipIdx_cons, List.filter_cons, ih]
    split
    · next hbehind =>
      have hle : place ≤ index := of_decide_eq_true hbehind
      rw [Nat.sub_eq_zero_of_le hle, Nat.sub_eq_zero_of_le (Nat.le_succ_of_le hle), List.drop_zero,
        List.drop_zero, Nat.max_eq_left hle, Nat.max_eq_left (Nat.le_succ_of_le hle), List.zipIdx_cons]
    · next hbefore =>
      have hlt : index < place := Nat.lt_of_not_le fun hle => hbefore (decide_eq_true hle)
      rw [show place - index = place - (index + 1) + 1 by omega, List.drop_succ_cons,
        Nat.max_eq_right hlt, Nat.max_eq_right (Nat.le_of_lt hlt)]

theorem listing_eq (es : List (String × NodeKind)) (cookie : UInt64) :
    listing es cookie = recordsFrom cookie.toNat (es.drop cookie.toNat) := by
  rw [recordsFrom_eq]
  unfold listing
  rw [filter_zipIdx, Nat.sub_zero, Nat.zero_max]
  rfl

namespace Pager

variable {p : Pager} {c : Caller} {m m' : Memory} {n : NodeId} {octets : Bytes}

/-- **A page is the front of the listing.** -/
theorem octets_eq (p : Pager) (es : List (String × NodeKind)) (cookie : UInt64) :
    p.octets es cookie = (listing es cookie).take p.room.toNat := by
  rw [listing_eq]
  rfl

/-! ### What a call delivers -/

/-- Memory after a call: these octets stand on the page, their number in its word, and all else is as it was. -/
structure Holds (p : Pager) (m m' : Memory) (octets : Bytes) : Prop where
  page : m'.octetsAt p.page.toNat octets.length = octets
  used : ∃ used, Memory.readU32 p.used m' = .ok used m' ∧ used.toNat = octets.length
  others : m.SameOutside [⟨p.page.toNat, octets.length⟩, ⟨p.used.toNat, 4⟩] m'

/-- A call from the cookie succeeds, puts the octets on the page and their number into its word, and changes
nothing else. -/
def Delivers (p : Pager) (cookie : UInt64) (c : Caller) (m : Memory) (octets : Bytes) : Prop :=
  ∃ m', run fdReaddir (p.args cookie) c = .ok (answer .success) { c with memory := some m' } ∧
    p.Holds m m' octets

theorem after_holds (hw : p.Within m) (hapart : p.Apart) (hroom : octets.length ≤ p.room.toNat) :
    p.Holds m (p.after octets m) octets where
  page := octetsAt_after hapart hw hroom
  used := ⟨_, readU32_after hw octets,
    UInt32.toNat_ofNat_of_lt' (Nat.lt_of_le_of_lt hroom p.room.toNat_lt)⟩
  others := by
    have hpage : m.SameOutside [⟨p.page.toNat, octets.length⟩, ⟨p.used.toNat, 4⟩]
        (m.pasted p.page.toNat octets) :=
      Memory.sameOutside_pasted List.mem_cons_self (Nat.le_refl _) (Nat.le_refl _)
    refine hpage.trans (Memory.sameOutside_pasted (List.mem_cons_of_mem _ (List.mem_singleton_self _))
      (Nat.le_refl _) ?_)
    rw [Memory.length_littleEndian]

/-- Memory holds one page only. -/
theorem Holds.unique {octets' : Bytes} (h : p.Holds m m' octets) (h' : p.Holds m m' octets') :
    octets = octets' := by
  obtain ⟨used, hused, hlength⟩ := h.used
  obtain ⟨used', hused', hlength'⟩ := h'.used
  obtain ⟨rfl, -⟩ := EStateM.Result.ok.inj (hused.symm.trans hused')
  rw [← h.page, ← h'.page, ← hlength, ← hlength']

/-- **A call delivers the front of the listing** and nothing else. -/
theorem delivers_iff (hb : c.host.Browses p.fd.toNat n) (hm : c.memory = some m) (hw : p.Within m)
    (hapart : p.Apart) (cookie : UInt64) (octets : Bytes) : p.Delivers cookie c m octets ↔
      octets = (listing (c.host.tree.entries n) cookie).take p.room.toNat := by
  have hrun : run fdReaddir (p.args cookie) c = .ok (answer .success)
      { c with memory := some (p.after (p.octets (c.host.tree.entries n) cookie) m) } :=
    readdir_run hb hm hw
  have hholds : p.Holds m (p.after (p.octets (c.host.tree.entries n) cookie) m)
      (p.octets (c.host.tree.entries n) cookie) := after_holds hw hapart length_octets_le
  rw [← octets_eq]
  constructor
  · rintro ⟨m', hrun', hholds'⟩
    have hcaller := (EStateM.Result.ok.inj (hrun'.symm.trans hrun)).2
    obtain rfl : m' = _ := Option.some.inj (congrArg Caller.memory hcaller)
    exact hholds'.unique hholds
  · rintro rfl
    exact ⟨_, hrun, hholds⟩

/-- A directory that has gone is not listed. -/
theorem readdir_gone {path : String} {preopen : Bool}
    (hopen : c.host.Opens p.fd.toNat (.directory path n preopen)) (hn : c.host.tree.alive n = false)
    (hm : c.memory = some m) (cookie : UInt64) :
    run fdReaddir (p.args cookie) c = .ok (answer .badf) c := by
  obtain ⟨d, hget, htarget⟩ := hopen
  have hread : Host.readDirectory p.fd.toNat c.host = .error (.reported .badf) c.host := by
    unfold Host.readDirectory
    rw [run_bind_ok (Host.descriptor_run hget), htarget]
    exact run_bind_error (Host.requireAlive_error hn)
  have honHost : onHost (Host.readDirectory p.fd.toNat) c = .error (.reported .badf) c := by
    unfold onHost
    rw [hread]
  have hbody : fdReaddir (p.args cookie) c = .error (.reported .badf) c :=
    (run_bind_ok (requireMemory_run hm)).trans (run_bind_error honHost)
  unfold run
  rw [hbody]

/-! ### Slices -/

/-- What is delivered from a cookie on is a slice of the listing of the directory. -/
structure Slices (p : Pager) (n : NodeId) (cookie : UInt64) (c : Caller) (m : Memory) : Prop where
  /-- The entries of the listing are the children of the directory by name and kind. -/
  children : ∀ x kind, (x, kind) ∈ c.host.tree.entries n ↔
    ∃ k, c.host.tree.child? n x = some k ∧ c.host.tree.kind? k = some kind
  /-- They stand in the order of their names, each of which there is once. -/
  ordered : ((c.host.tree.entries n).map (·.1)).Pairwise fun a b => Text.nameLe a b = true ∧ a ≠ b
  /-- A call delivers as much of the listing from the cookie on as there is room for, and nothing else. -/
  front : ∀ octets, p.Delivers cookie c m octets ↔
    octets = (listing (c.host.tree.entries n) cookie).take p.room.toNat
  /-- A page with more room, of the same host, goes on where this one ends. -/
  longer : ∀ (q : Pager) (c' : Caller) (m' : Memory) (octets octets' : Bytes), q.fd = p.fd →
    c'.host = c.host → c'.memory = some m' → q.Within m' → q.Apart → p.room ≤ q.room →
    p.Delivers cookie c m octets → q.Delivers cookie c' m' octets' → octets <+: octets'
  /-- A page is not full just if every entry that is left was delivered as a whole, with room to spare. -/
  last : ∀ octets, p.Delivers cookie c m octets → (octets.length < p.room.toNat ↔
    octets = listing (c.host.tree.entries n) cookie ∧
      (listing (c.host.tree.entries n) cookie).length < p.room.toNat)

end Pager

/-- **A page is a slice of the whole listing**, for every open directory and every cookie, whatever room there
is, as long as the page and the word for its length lie in memory apart from one another. A directory in the
tree is alive. Only where the owner has put another tree in the place of the one that the handle was opened
in, and nobody else has a handle on the directory or on one above it, it may have gone: then the handle is a
bad one. -/
theorem page_is_slice (p : Pager) (c : Caller) (m : Memory) (cookie : UInt64) (hhost : c.host.Reached)
    {path : String} {n : NodeId} {preopen : Bool}
    (hopen : c.host.Opens p.fd.toNat (.directory path n preopen)) (hm : c.memory = some m)
    (hwithin : p.Within m) (hapart : p.Apart) :
    (c.host.tree.alive n = true → p.Slices n cookie c m) ∧
    (c.host.tree.attached n = true → c.host.tree.alive n = true) ∧
    (c.host.InTurn → c.host.tree.attached n = true) ∧
    (c.host.tree.alive n = false → run fdReaddir (p.args cookie) c = .ok (answer .badf) c) := by
  refine ⟨fun hn => ?_, FileTree.Counted.alive_of_attached hhost.handles_counted, fun hi => hi.attached hopen,
    fun hn => Pager.readdir_gone hopen hn hm cookie⟩
  have hb := hhost.browses hopen hn
  have ht := hhost.wellFormed
  have hfront := Pager.delivers_iff hb hm hwithin hapart cookie
  refine ⟨fun x kind => ?_, ht.entries_sorted n, hfront, ?_, fun octets hdelivers => ?_⟩
  · simp only [FileTree.mem_entries_iff_lists, ht.child?_eq_some_iff]
  · intro q c' m' octets octets' hfd hhost' hm' hwithin' hapart' hroom hdelivers hdelivers'
    have hb' : c'.host.Browses q.fd.toNat n := by rwa [hhost', hfd]
    have hpage := (hfront octets).mp hdelivers
    have hpage' := (Pager.delivers_iff hb' hm' hwithin' hapart' cookie octets').mp hdelivers'
    rw [hhost'] at hpage'
    rw [hpage, hpage']
    exact List.take_prefix_take_left (UInt32.le_iff_toNat_le.mp hroom)
  · have hpage := (hfront octets).mp hdelivers
    have hlength := congrArg List.length hpage
    rw [List.length_take] at hlength
    constructor
    · intro hlt
      have hshort : (listing (c.host.tree.entries n) cookie).length < p.room.toNat := by omega
      exact ⟨by rw [hpage, List.take_of_length_le (Nat.le_of_lt hshort)], hshort⟩
    · rintro ⟨rfl, hshort⟩
      exact hshort

/-- A page with room for thirty octets is cut in the number behind the second entry. -/
theorem cut_page_delivered : browsing.host.InTurn ∧ Pager.Delivers ⟨4, 0, 30, 40⟩ 0 browsing (.filled 64 0)
    [1, 0, 0, 0, 0, 0, 0, 0, 1, 0, 0, 0, 0, 0, 0, 0, 1, 0, 0, 0, 4, 0, 0, 0, 97, 2, 0, 0, 0, 0] := by
  have hhost : browsing.host.InTurn := (Host.InTurn.start _ _ _).runShared _
  have hopen : browsing.host.Opens 4 (.directory "/d" 1 false) :=
    ⟨⟨.directory "/d" 1 false, 0, .all, .all, ⟨0⟩⟩, by decide +kernel, rfl⟩
  obtain ⟨hslices, halive, hthere, -⟩ := page_is_slice ⟨4, 0, 30, 40⟩ browsing (.filled 64 0) 0 hhost.reached
    hopen rfl ⟨by decide, by decide⟩ (Or.inl (by decide))
  refine ⟨hhost, ((hslices (halive (hthere hhost))).front _).mpr ?_⟩
  rw [entries_browsing]
  decide +kernel

end Syscall

end WasiSandbox
