import WasiSandbox.Proofs.Descriptor.Handles
import WasiSandbox.Proofs.Memory.Tables
import WasiSandbox.Proofs.Syscall.Fault
import WasiSandbox.Proofs.Syscall.Listing

/-! # Listing a directory page by page

A guest lists a directory by reading pages, each from the cookie of the last record that it has got, until
one is not full (`Pager.Run`). A call delivers the front of the records that come next
(`Pager.Ready.turned`), and a page with room for the longest record brings at least one of them, so the
cookie counts the entries that have been read. As long as the directory stays as it is, the pages together
are its list and the reading comes to an end. If entries come in meanwhile, they move the ones that have not
been read away from the front and never towards it, because nothing is taken out of the list, which is in
order: what is behind the cookie stays behind it (`Pager.Ready.drop_subset`). So what was there from the
start is read (`pages_complete`). -/

namespace WasiSandbox

namespace Syscall

variable {c c' c'' : Caller} {m m' : Memory} {n : NodeId} {cookie : UInt64} {listed : List Listed}

/-! ### Calls that succeed -/

theorem onMemory_run {α : Type} {op : MemoryM α} {a : α} (hm : c.memory = some m)
    (hop : op m = .ok a m') : onMemory op c = .ok a { c with memory := some m' } := by
  unfold onMemory
  rw [hm]
  dsimp only
  rw [hop]

theorem onHost_look {α : Type} {op : HostM α} {a : α} (hop : op c.host = .ok a c.host) :
    onHost op c = .ok a c := by
  unfold onHost
  rw [hop]

theorem requireMemory_run (hm : c.memory = some m) : requireMemory c = .ok () c := by
  obtain ⟨memory, host⟩ := c
  cases hm
  exact onMemory_run rfl rfl

/-! ### One page -/

/-- What a guest gives with every call: the handle of the directory, where the page goes and how much room
there is for it, and where the length of the page goes. -/
structure Pager where
  fd : UInt32
  page : UInt32
  room : UInt32
  used : UInt32

/-- A page as the guest sees it: its length and the records that are whole. -/
structure Page where
  used : UInt32
  records : List Listed

/-- The cookie to go on with, which stays if there is no record. -/
def Page.next (page : Page) (cookie : UInt64) : UInt64 :=
  (page.records.getLast?.map Listed.next).getD cookie

namespace Pager

/-- The arguments of a call. -/
def args (p : Pager) (cookie : UInt64) : List Value :=
  [.i32 p.fd, .i32 p.page, .i32 p.room, .i64 cookie, .i32 p.used]

/-- What the guest reads when the call has returned. -/
def look (p : Pager) : MemoryM Page := do
  let used ← Memory.readU32 p.used
  return ⟨used, Listed.decodeAll (← Memory.slice p.page used)⟩

/-- The page and the word for its length are in memory. -/
structure Within (p : Pager) (m : Memory) : Prop where
  page : p.page.toNat + p.room.toNat ≤ m.size
  used : p.used.toNat + 4 ≤ m.size

/-- The page and the word for its length do not meet. -/
def Apart (p : Pager) : Prop :=
  p.page.toNat + p.room.toNat ≤ p.used.toNat ∨ p.used.toNat + 4 ≤ p.page.toNat

/-- A call from the cookie succeeds, and the guest finds this page. -/
structure Turns (p : Pager) (cookie : UInt64) (c : Caller) (page : Page) (c' : Caller) : Prop where
  call : run fdReaddir (p.args cookie) c = .ok (answer .success) c'
  look : ∃ m, c'.memory = some m ∧ p.look m = .ok page m

/-- The octets of the page from the cookie on. -/
def octets (p : Pager) (es : List (String × NodeKind)) (cookie : UInt64) : Bytes :=
  (recordsFrom cookie.toNat (es.drop cookie.toNat)).take p.room.toNat

/-- How many entries there are on the page from the cookie on. -/
def count (p : Pager) (es : List (String × NodeKind)) (cookie : UInt64) : Nat :=
  fitting p.room.toNat (es.drop cookie.toNat)

/-- The page from the cookie on. -/
def pageOf (p : Pager) (es : List (String × NodeKind)) (cookie : UInt64) : Page where
  used := .ofNat (p.octets es cookie).length
  records := Listed.ofEntries cookie.toNat ((es.drop cookie.toNat).take (p.count es cookie))

/-- The memory after the call. -/
def after (p : Pager) (octets : Bytes) (m : Memory) : Memory :=
  (m.pasted p.page.toNat octets).pasted p.used.toNat
    (littleEndian 4 (UInt32.ofNat octets.length).toNat)

variable {p : Pager} {es : List (String × NodeKind)} {page : Page}

theorem length_octets_le : (p.octets es cookie).length ≤ p.room.toNat := by
  unfold octets
  rw [List.length_take]
  exact Nat.min_le_left _ _

theorem toNat_length_octets (p : Pager) (es : List (String × NodeKind)) (cookie : UInt64) :
    (UInt32.ofNat (p.octets es cookie).length).toNat = (p.octets es cookie).length :=
  UInt32.toNat_ofNat_of_lt' (Nat.lt_of_le_of_lt length_octets_le p.room.toNat_lt)

theorem size_after {octets : Bytes} : (p.after octets m).size = m.size := by
  unfold after
  rw [Memory.size_pasted, Memory.size_pasted]

theorem page_eq_octets (p : Pager) (es : List (String × NodeKind)) (cookie : UInt64) :
    (fillPage cookie.toNat p.room.toNat 0 [] es).take p.room.toNat = p.octets es cookie := by
  rw [fillPage_take, Nat.zero_max, List.nil_append, Nat.sub_zero]
  rfl

/-- **A call delivers a page.** -/
theorem readdir_run (hb : c.host.Browses p.fd.toNat n) (hm : c.memory = some m) (hw : p.Within m) :
    run fdReaddir (p.args cookie) c = .ok (answer .success)
      { c with memory := some (p.after (p.octets (c.host.tree.entries n) cookie) m) } := by
  have hroom : (p.octets (c.host.tree.entries n) cookie).length ≤ p.room.toNat := length_octets_le
  have hlength := toNat_length_octets p (c.host.tree.entries n) cookie
  have hpage := page_eq_octets p (c.host.tree.entries n) cookie
  generalize p.octets (c.host.tree.entries n) cookie = octets at hroom hlength hpage ⊢
  have hstore : Memory.store p.page (.ofNat octets.length) octets m =
      .ok () (m.pasted p.page.toNat octets) :=
    Memory.store_run (by have := hw.page; omega) hlength.symm
  have hwrite : Memory.writeU32 p.used (.ofNat octets.length) (m.pasted p.page.toNat octets) =
      .ok () (p.after octets m) :=
    Memory.writeU32_run (by rw [Memory.size_pasted]; exact hw.used) _
  have hbody : fdReaddir (p.args cookie) c = .ok ()
      { c with memory := some (p.after octets m) } := by
    show (requireMemory >>= fun _ => onHost (Host.readDirectory p.fd.toNat) >>= fun es =>
      onMemory (Memory.store p.page
        (.ofNat ((fillPage cookie.toNat p.room.toNat 0 [] es).take p.room.toNat).length)
        ((fillPage cookie.toNat p.room.toNat 0 [] es).take p.room.toNat)) >>= fun _ =>
      onMemory (Memory.writeU32 p.used
        (.ofNat ((fillPage cookie.toNat p.room.toNat 0 [] es).take p.room.toNat).length))) c = _
    rw [run_bind_ok (requireMemory_run hm), run_bind_ok (onHost_look hb.readDirectory_run), hpage,
      run_bind_ok (onMemory_run hm hstore), onMemory_run rfl hwrite]
  unfold run
  rw [hbody]

/-- The guest finds the length of the page, which was written last. -/
theorem readU32_after (hw : p.Within m) (octets : Bytes) :
    Memory.readU32 p.used (p.after octets m) = .ok (.ofNat octets.length) (p.after octets m) := by
  have hused : p.used.toNat + 4 ≤ (m.pasted p.page.toNat octets).size := by
    rw [Memory.size_pasted]
    exact hw.used
  exact Memory.readU32_of_octets (by rw [size_after]; exact hw.used) (Memory.octetsAt_word hused _)

/-- It finds the page itself, which the word for the length is apart from. -/
theorem octetsAt_after (hapart : p.Apart) (hw : p.Within m) {octets : Bytes}
    (hroom : octets.length ≤ p.room.toNat) :
    (p.after octets m).octetsAt p.page.toNat octets.length = octets := by
  have hpage := hw.page
  have hused := hw.used
  unfold after
  unfold Apart at hapart
  rw [Memory.octetsAt_pasted_of_apart, Memory.octetsAt_pasted]
  · omega
  · rwa [Memory.length_littleEndian, Memory.size_pasted]
  · rw [Memory.length_littleEndian]
    omega

/-- What the guest reads is what was delivered. -/
theorem look_after (hapart : p.Apart) (hw : p.Within m) {octets : Bytes}
    (hroom : octets.length ≤ p.room.toNat) :
    p.look (p.after octets m) = .ok ⟨.ofNat octets.length, Listed.decodeAll octets⟩ (p.after octets m) := by
  have hlength : (UInt32.ofNat octets.length).toNat = octets.length :=
    UInt32.toNat_ofNat_of_lt' (Nat.lt_of_le_of_lt hroom p.room.toNat_lt)
  have hslice : Memory.slice p.page (.ofNat octets.length) (p.after octets m) =
      .ok octets (p.after octets m) := by
    rw [Memory.slice_run, hlength, octetsAt_after hapart hw hroom]
    rw [hlength, size_after]
    have hpage := hw.page
    omega
  unfold look
  rw [run_bind_ok (readU32_after hw octets), run_bind_ok hslice]
  rfl

theorem decodeAll_octets (hes : ∀ e ∈ es, (Text.utf8 e.1).length < UInt32.size) (cookie : UInt64) :
    Listed.decodeAll (p.octets es cookie) = (p.pageOf es cookie).records :=
  decodeAll_page (fun e he => hes e (List.mem_of_mem_drop he)) _ _

/-! ### Where a page ends -/

theorem toNat_used_pageOf : (p.pageOf es cookie).used.toNat = (p.octets es cookie).length :=
  toNat_length_octets p es cookie

theorem count_le : p.count es cookie ≤ (es.drop cookie.toNat).length := fitting_le

/-- A page that is not full holds all that is left. -/
theorem count_eq_of_used_lt (h : (p.pageOf es cookie).used < p.room) :
    p.count es cookie = (es.drop cookie.toNat).length := by
  rw [UInt32.lt_iff_toNat_lt, toNat_used_pageOf, octets, List.length_take] at h
  have hall : (recordsFrom cookie.toNat (es.drop cookie.toNat)).length ≤ p.room.toNat := by omega
  exact fitting_eq_length hall

/-- A page that is full holds something, if there is room for one record. -/
theorem count_pos_of_room_le (hroom : ∀ e ∈ es, recordLength e ≤ p.room.toNat) (hmin : 0 < p.room.toNat)
    (h : p.room ≤ (p.pageOf es cookie).used) : 0 < p.count es cookie := by
  rw [UInt32.le_iff_toNat_le, toNat_used_pageOf, octets] at h
  unfold count
  cases hrest : es.drop cookie.toNat with
  | nil =>
    rw [hrest, recordsFrom, List.take_nil, List.length_nil] at h
    omega
  | cons e rest =>
    have he : e ∈ es.drop cookie.toNat := by rw [hrest]; exact List.mem_cons_self
    exact fitting_pos (hroom e (List.mem_of_mem_drop he))

/-- **The cookie counts the entries that have been read.** -/
theorem toNat_next (hcount : es.length < UInt64.size) :
    ((p.pageOf es cookie).next cookie).toNat = cookie.toNat + p.count es cookie := by
  have hcookie : cookie.toNat < UInt64.size := cookie.toNat_lt
  have hle : p.count es cookie ≤ (es.drop cookie.toNat).length := count_le
  have hnext := Listed.next_ofEntries cookie.toNat ((es.drop cookie.toNat).take (p.count es cookie))
  rw [List.length_drop] at hle
  unfold Page.next pageOf
  rw [UInt64.ofNat_toNat, List.length_take, List.length_drop, Nat.min_eq_left hle] at hnext
  rw [hnext, UInt64.toNat_ofNat_of_lt' (by omega)]

/-! ### What happens between pages -/

/-- The names and the number of the entries can be expressed in records: the length of a name is a word of
32 bits, a cookie one of 64. -/
structure Listable (es : List (String × NodeKind)) : Prop where
  names : ∀ e ∈ es, (Text.utf8 e.1).length < UInt32.size
  count : es.length < UInt64.size

/-- Between two pages guest and owner have done what they like but for closing the handle of the
directory, and the memory of the guest has not become smaller. -/
structure Meanwhile (p : Pager) (n : NodeId) (c c' : Caller) : Prop where
  host : ∃ steps, (∀ step ∈ steps, step ≠ .guest (.close p.fd.toNat)) ∧
    c'.host = c.host.runShared steps
  memory : ∀ m, c.memory = some m → ∃ m', c'.memory = some m' ∧ m.size ≤ m'.size
  listable : Listable (c'.host.tree.entries n)

/-- And the directory has stayed as it was. -/
structure Unchanged (p : Pager) (n : NodeId) (c c' : Caller) : Prop extends Meanwhile p n c c' where
  same : c'.host.tree.entries n = c.host.tree.entries n

/-- The guest can read a page. -/
structure Ready (p : Pager) (n : NodeId) (c : Caller) : Prop where
  counted : c.host.Counted
  handle : c.host.OpenOn p.fd.toNat n
  memory : ∃ m, c.memory = some m ∧ p.Within m
  listable : Listable (c.host.tree.entries n)

namespace Ready

/-- **Every call succeeds.** -/
theorem turns (hr : p.Ready n c) (hapart : p.Apart) (cookie : UInt64) :
    ∃ c', p.Turns cookie c (p.pageOf (c.host.tree.entries n) cookie) c' ∧ c'.host = c.host ∧
      p.Ready n c' := by
  obtain ⟨m, hm, hw⟩ := hr.memory
  refine ⟨_, ⟨readdir_run (hr.handle.browses hr.counted) hm hw, _, rfl, ?_⟩, rfl, hr.counted, hr.handle,
    ⟨_, rfl, ?_⟩, hr.listable⟩
  · rw [look_after hapart hw length_octets_le, decodeAll_octets hr.listable.names]
    rfl
  · exact ⟨by rw [size_after]; exact hw.page, by rw [size_after]; exact hw.used⟩

/-- **There is one page that a call delivers**, and it leaves the host alone. -/
theorem turned (hr : p.Ready n c) (hapart : p.Apart) (hturn : p.Turns cookie c page c') :
    page = p.pageOf (c.host.tree.entries n) cookie ∧ c'.host = c.host ∧ p.Ready n c' := by
  obtain ⟨c₁, hturn₁, hhost, hr₁⟩ := hr.turns hapart cookie
  obtain rfl : c₁ = c' := by
    have hcall := hturn₁.call.symm.trans hturn.call
    rw [EStateM.Result.ok.injEq] at hcall
    exact hcall.2
  obtain ⟨m, hm, hlook⟩ := hturn.look
  obtain ⟨m₁, hm₁, hlook₁⟩ := hturn₁.look
  obtain rfl : m₁ = m := Option.some.inj (hm₁.symm.trans hm)
  have hpage := hlook.symm.trans hlook₁
  rw [EStateM.Result.ok.injEq] at hpage
  exact ⟨hpage.1, hhost, hr₁⟩

theorem meanwhile (hr : p.Ready n c) (hbetween : Meanwhile p n c c') :
    p.Ready n c' ∧ c.host.tree.entries n ⊆ c'.host.tree.entries n := by
  obtain ⟨steps, hsteps, hhost⟩ := hbetween.host
  obtain ⟨ho, hc, hmore⟩ := hr.handle.runShared hr.counted hsteps
  rw [← hhost] at ho hc hmore
  obtain ⟨m, hm, hw⟩ := hr.memory
  obtain ⟨m', hm', hle⟩ := hbetween.memory m hm
  exact ⟨⟨hc, ho, ⟨m', hm', hw.page.trans hle, hw.used.trans hle⟩, hbetween.listable⟩, hmore⟩

/-- **What is behind a cookie stays behind it**: entries come in, none goes, and they are in order. -/
theorem drop_subset (hr : p.Ready n c) (hr' : p.Ready n c')
    (hmore : c.host.tree.entries n ⊆ c'.host.tree.entries n) (k : Nat) :
    (c.host.tree.entries n).drop k ⊆ (c'.host.tree.entries n).drop k := by
  have hsorted := List.pairwise_map.mp (hr.counted.wellFormed.entries_sorted n)
  have hsorted' := List.pairwise_map.mp (hr'.counted.wellFormed.entries_sorted n)
  have : Std.Antisymm fun a b : String × NodeKind => Text.nameLe a.1 b.1 = true ∧ a.1 ≠ b.1 :=
    ⟨fun _ _ hab hba => absurd (Text.nameLe_antisymm hab.1 hba.1) hab.2⟩
  have hnodup : (c.host.tree.entries n).Nodup :=
    hsorted.imp fun {a b} hlt heq => hlt.2 (congrArg Prod.fst heq)
  have hsub : (c.host.tree.entries n).Sublist (c'.host.tree.entries n) :=
    List.sublist_of_subperm_of_pairwise (List.subperm_of_subset hnodup hmore) hsorted hsorted'
  exact (hsub.drop k).subset

end Ready

/-! ### The whole listing -/

/-- The guest reads from the cookie on until a page is not full, and these are the records that it has got;
`between` says what may happen between two pages. -/
inductive Run (p : Pager) (between : Caller → Caller → Prop) :
    UInt64 → Caller → List Listed → Prop where
  | last {cookie : UInt64} {c c' : Caller} {page : Page} :
      p.Turns cookie c page c' → page.used < p.room → Run p between cookie c page.records
  | more {cookie : UInt64} {c c' c'' : Caller} {page : Page} {listed : List Listed} :
      p.Turns cookie c page c' → p.room ≤ page.used → between c' c'' →
      Run p between (page.next cookie) c'' listed → Run p between cookie c (page.records ++ listed)

/-- Every call succeeds, and after some more of them a page is not full, whatever happens between them. -/
inductive Stops (p : Pager) (between : Caller → Caller → Prop) : UInt64 → Caller → Prop where
  | intro {cookie : UInt64} {c : Caller} : (∃ page c', p.Turns cookie c page c') →
      (∀ page c' c'', p.Turns cookie c page c' → p.room ≤ page.used → between c' c'' →
        Stops p between (page.next cookie) c'') → Stops p between cookie c

/-- **What is behind the cookie is read**, whatever comes in meanwhile. -/
theorem Run.covers (hrun : p.Run (Meanwhile p n) cookie c listed) (hapart : p.Apart)
    (hr : p.Ready n c) {e : String × NodeKind}
    (he : e ∈ (c.host.tree.entries n).drop cookie.toNat) : ∃ r ∈ listed, r.Shows e := by
  induction hrun with
  | last hturn hlast =>
    obtain ⟨rfl, -, -⟩ := hr.turned hapart hturn
    refine Listed.exists_shows ?_ _
    rwa [count_eq_of_used_lt hlast, List.take_length]
  | @more cookie c c' c'' page listed hturn hfull hbetween hrest ih =>
    obtain ⟨rfl, hhost, hr'⟩ := hr.turned hapart hturn
    obtain ⟨hr'', hmore⟩ := hr'.meanwhile hbetween
    rw [hhost] at hmore
    rw [← List.take_append_drop (p.count (c.host.tree.entries n) cookie)
      ((c.host.tree.entries n).drop cookie.toNat), List.mem_append] at he
    rcases he with hpage | hbehind
    · obtain ⟨r, hmem, hshows⟩ := Listed.exists_shows hpage cookie.toNat
      exact ⟨r, List.mem_append_left _ hmem, hshows⟩
    · rw [List.drop_drop, ← toNat_next hr.listable.count] at hbehind
      obtain ⟨r, hmem, hshows⟩ := ih hr'' (hr.drop_subset hr'' hmore _ hbehind)
      exact ⟨r, List.mem_append_right _ hmem, hshows⟩

/-- **The pages are the list** as long as the directory stays as it is. -/
theorem Run.lists (hrun : p.Run (Unchanged p n) cookie c listed) (hapart : p.Apart) (hr : p.Ready n c) :
    listed.map (fun r => (r.name, r.filetype)) =
      ((c.host.tree.entries n).drop cookie.toNat).map fun e => (Text.utf8 e.1, e.2.filetype.code) := by
  induction hrun with
  | last hturn hlast =>
    obtain ⟨rfl, -, -⟩ := hr.turned hapart hturn
    unfold pageOf
    rw [Listed.map_ofEntries, count_eq_of_used_lt hlast, List.take_length]
  | @more cookie c c' c'' page listed hturn hfull hbetween hrest ih =>
    obtain ⟨rfl, hhost, hr'⟩ := hr.turned hapart hturn
    obtain ⟨hr'', -⟩ := hr'.meanwhile hbetween.toMeanwhile
    rw [List.map_append, ih hr'', hbetween.same, hhost, toNat_next hr.listable.count, ← List.drop_drop]
    unfold pageOf
    rw [Listed.map_ofEntries, ← List.map_append, List.take_append_drop]

/-- **The reading comes to an end** if there is room for the longest record and the directory stays as it
is: every page that is full moves the cookie. -/
theorem Ready.stops (hr : p.Ready n c) (hapart : p.Apart)
    (hroom : ∀ e ∈ c.host.tree.entries n, recordLength e ≤ p.room.toNat) (hmin : 0 < p.room.toNat)
    (cookie : UInt64) : p.Stops (Unchanged p n) cookie c := by
  induction hleft : (c.host.tree.entries n).length - cookie.toNat using Nat.strongRecOn
    generalizing c cookie with
  | _ left ih =>
    obtain ⟨c₁, hturn₁, -, -⟩ := hr.turns hapart cookie
    refine .intro ⟨_, c₁, hturn₁⟩ fun page c' c'' hturn hfull hbetween => ?_
    obtain ⟨rfl, hhost, hr'⟩ := hr.turned hapart hturn
    obtain ⟨hr'', -⟩ := hr'.meanwhile hbetween.toMeanwhile
    have hsame : c''.host.tree.entries n = c.host.tree.entries n := by rw [hbetween.same, hhost]
    have hpos := count_pos_of_room_le hroom hmin hfull
    have hle : p.count (c.host.tree.entries n) cookie ≤ _ := count_le
    rw [List.length_drop] at hle
    refine ih _ ?_ hr'' (by rwa [hsame]) _ rfl
    rw [hsame, toNat_next hr.listable.count]
    omega

/-- It may be that nothing at all happens between two pages. -/
theorem Ready.unchanged (hr : p.Ready n c) : Unchanged p n c c where
  host := ⟨[], List.forall_mem_nil _, rfl⟩
  memory m hm := ⟨m, hm, Nat.le_refl _⟩
  listable := hr.listable
  same := rfl

theorem Stops.run (hstops : p.Stops (Unchanged p n) cookie c) (hapart : p.Apart) (hr : p.Ready n c) :
    ∃ listed, p.Run (Unchanged p n) cookie c listed := by
  induction hstops with
  | @intro cookie c hturns hrest ih =>
    obtain ⟨page, c', hturn⟩ := hturns
    obtain ⟨-, -, hr'⟩ := hr.turned hapart hturn
    rcases UInt32.lt_or_le page.used p.room with hlast | hfull
    · exact ⟨_, .last hturn hlast⟩
    · obtain ⟨listed, hrun⟩ := ih page c' c' hturn hfull hr'.unchanged hr'
      exact ⟨_, .more hturn hfull hr'.unchanged hrun⟩

/-- What comes of reading a directory page by page from the start. -/
structure Complete (p : Pager) (n : NodeId) (c : Caller) : Prop where
  /-- If the directory stays as it is, the reading comes to an end. -/
  stops : p.Stops (Unchanged p n) 0 c ∧ ∃ listed, p.Run (Unchanged p n) 0 c listed
  /-- Then the records that the guest has got show the entries of the directory and nothing else. -/
  lists : ∀ listed, p.Run (Unchanged p n) 0 c listed →
    listed.map (fun r => (r.name, r.filetype)) =
      (c.host.tree.entries n).map fun e => (Text.utf8 e.1, e.2.filetype.code)
  /-- The entries are the children of the directory by name and kind. -/
  children : ∀ x kind, (x, kind) ∈ c.host.tree.entries n ↔
    ∃ k, c.host.tree.child? n x = some k ∧ c.host.tree.kind? k = some kind
  /-- They stand in the order of their names, each of which there is once. -/
  ordered : ((c.host.tree.entries n).map (·.1)).Pairwise fun a b => Text.nameLe a b = true ∧ a ≠ b
  /-- Whatever comes in meanwhile, what was there from the start is read once the reading has ended. -/
  covers : ∀ listed, p.Run (Meanwhile p n) 0 c listed →
    ∀ e ∈ c.host.tree.entries n, ∃ r ∈ listed, r.Shows e

theorem Ready.complete (hr : p.Ready n c) (hapart : p.Apart)
    (hroom : ∀ e ∈ c.host.tree.entries n, recordLength e ≤ p.room.toNat) (hmin : 0 < p.room.toNat) :
    p.Complete n c where
  stops :=
    have hstops := hr.stops hapart hroom hmin 0
    ⟨hstops, hstops.run hapart hr⟩
  lists _ hrun := hrun.lists hapart hr
  children x kind := by
    simp only [FileTree.mem_entries_iff_lists, hr.counted.wellFormed.child?_eq_some_iff]
  ordered := hr.counted.wellFormed.entries_sorted n
  covers _ hrun _ he := hrun.covers hapart hr he

end Pager

/-- **A directory is listed completely** page by page, if a page has room for the record of its longest name.
The host may have been used in any way before: whatever guest, owner and others do, all handles on nodes of
the tree are counted (`Host.InTurn.anchored`). A name that fits a page is never too long for a record, and
memory never holds too many entries for a cookie. -/
theorem pages_complete (p : Pager) (n : NodeId) (c : Caller) (m : Memory) (hhost : c.host.Counted)
    (hopen : c.host.OpenOn p.fd.toNat n) (hm : c.memory = some m) (hwithin : p.Within m) (hapart : p.Apart)
    (hmin : 24 ≤ p.room.toNat)
    (hroom : ∀ e ∈ c.host.tree.entries n, 24 + (Text.utf8 e.1).length ≤ p.room.toNat)
    (hcount : (c.host.tree.entries n).length < UInt64.size) : p.Complete n c := by
  have hnames : ∀ e ∈ c.host.tree.entries n, (Text.utf8 e.1).length < UInt32.size := fun e he => by
    have hle := hroom e he
    have hlt : p.room.toNat < UInt32.size := p.room.toNat_lt
    omega
  have hr : p.Ready n c := ⟨hhost, hopen, ⟨m, hm, hwithin⟩, hnames, hcount⟩
  exact hr.complete hapart hroom (by omega)

/-- A guest that has opened a directory with a file and a directory in it. -/
def browsing : Caller where
  memory := some (.filled 64 0)
  host := (Host.new (FileTree.empty.run [.addFile "d/a" [1], .createDirectories "d/bc"]) []
    .silent).runShared [.guest (.openPath 3 "d" ⟨2⟩ .all .all ⟨0⟩)]

theorem entries_browsing : browsing.host.tree.entries 1 = [("a", .file), ("bc", .directory)] := by
  unfold FileTree.entries
  rw [List.mergeSort_of_pairwise]
  all_goals decide +kernel

/-- With room for one record at a time it finds both. -/
theorem browsing_complete : Pager.Complete ⟨4, 0, 26, 32⟩ 1 browsing ∧
    browsing.host.tree.entries 1 = [("a", .file), ("bc", .directory)] := by
  refine ⟨pages_complete ⟨4, 0, 26, 32⟩ 1 browsing (.filled 64 0) ((Host.counted_new _ _ _).runShared _)
    ⟨⟨"/d", false, ?_⟩, by decide +kernel, by decide +kernel⟩ rfl ⟨by decide, by decide⟩
    (Or.inl (by decide)) (by decide) ?_ ?_, entries_browsing⟩
  · exact ⟨⟨.directory "/d" 1 false, 0, .all, .all, ⟨0⟩⟩, by decide +kernel, rfl⟩
  · rw [entries_browsing]
    decide
  · rw [entries_browsing]
    decide

end Syscall

end WasiSandbox
