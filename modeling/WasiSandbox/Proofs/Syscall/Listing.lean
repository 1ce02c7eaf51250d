import WasiSandbox.Proofs.Memory.Access
import WasiSandbox.Syscall.Files

/-! # Pages of a listing

A page is the front of the records of the entries from the cookie on (`fillPage_take`). A guest that
reads the records off a page one after the other, and leaves the last one out if it is cut off, finds
the entries whose records fit the page, each with the octets of its name, the type of its file and the
cookie that a listing goes on with behind it (`decodeAll_page`). -/

namespace WasiSandbox

/-! ### Reading records -/

/-- A record of a page as a guest reads it. -/
structure Listed where
  /-- Where a listing that stops behind this entry goes on. -/
  next : UInt64
  name : Bytes
  filetype : UInt8
  deriving DecidableEq, Repr

namespace Listed

/-- How long the name is by the header that the octets begin with. -/
def nameLength (b : Bytes) : Nat := ofLittleEndian ((b.drop 16).take 4)

/-- The record that the octets begin with. -/
def ofBytes (b : Bytes) : Listed :=
  ⟨.ofNat (ofLittleEndian (b.take 8)), (b.drop 24).take (nameLength b), b.getD 20 0⟩

/-- All records in the octets; what is left behind them is part of one that is cut off. -/
def decodeAll (b : Bytes) : List Listed :=
  if 24 + nameLength b ≤ b.length then ofBytes b :: decodeAll (b.drop (24 + nameLength b)) else []
termination_by b.length
decreasing_by
  rw [List.length_drop]
  omega

/-- What a guest is to read of the entry at the index. -/
def ofEntry (index : Nat) (entry : String × NodeKind) : Listed :=
  ⟨.ofNat (index + 1), Text.utf8 entry.1, entry.2.filetype.code⟩

/-- What a guest is to read of the entries from the index on. -/
def ofEntries : Nat → List (String × NodeKind) → List Listed
  | _, [] => []
  | index, entry :: rest => ofEntry index entry :: ofEntries (index + 1) rest

/-- The record shows the name and the type of this entry. -/
def Shows (r : Listed) (entry : String × NodeKind) : Prop :=
  r.name = Text.utf8 entry.1 ∧ r.filetype = entry.2.filetype.code

section Entries

variable {index : Nat} {entry : String × NodeKind} {es : List (String × NodeKind)}

/-- The cookie behind the entries counts them, from the index on. -/
theorem next_ofEntries (index : Nat) (es : List (String × NodeKind)) :
    ((ofEntries index es).getLast?.map next).getD (.ofNat index) = .ofNat (index + es.length) := by
  induction es generalizing index with
  | nil => rfl
  | cons e es ih =>
    have hlast := ih (index + 1)
    rw [show UInt64.ofNat (index + 1) = (ofEntry index e).next from rfl, Option.getD_map] at hlast
    rw [ofEntries, List.getLast?_cons, Option.map_some, Option.getD_some, hlast, List.length_cons]
    congr 1
    omega

/-- Names and types do not depend on where the entries stand. -/
theorem map_ofEntries (index : Nat) (es : List (String × NodeKind)) :
    (ofEntries index es).map (fun r => (r.name, r.filetype)) =
      es.map fun e => (Text.utf8 e.1, e.2.filetype.code) := by
  induction es generalizing index with
  | nil => rfl
  | cons e es ih => rw [ofEntries, List.map_cons, ih, List.map_cons, ofEntry]

theorem exists_shows (h : entry ∈ es) (index : Nat) : ∃ r ∈ ofEntries index es, r.Shows entry := by
  induction es generalizing index with
  | nil => cases h
  | cons e es ih =>
    rcases List.mem_cons.mp h with rfl | htail
    · exact ⟨_, List.mem_cons_self, rfl, rfl⟩
    · obtain ⟨r, hr, hshows⟩ := ih htail (index + 1)
      exact ⟨r, List.mem_cons_of_mem _ hr, hshows⟩

end Entries

end Listed

/-! ### One record -/

section Record

variable {d : Dirent} {rest : Bytes}

theorem Dirent.length_encode : d.encode.length = 24 + (Text.utf8 d.name).length := by
  unfold Dirent.encode
  simp only [List.length_append, Memory.length_littleEndian, List.length_cons, List.length_nil]

/-- The record, parted into its fields. -/
theorem Dirent.encode_append (d : Dirent) (rest : Bytes) : d.encode ++ rest =
    littleEndian 8 d.next.toNat ++ (littleEndian 8 d.inode.toNat ++
      (littleEndian 4 (Text.utf8 d.name).length ++
        (d.filetype.code :: 0 :: 0 :: 0 :: (Text.utf8 d.name ++ rest)))) := by
  unfold Dirent.encode
  simp only [List.append_assoc, List.cons_append, List.nil_append]

theorem Dirent.drop_encode (d : Dirent) (rest : Bytes) : (d.encode ++ rest).drop 16 =
    littleEndian 4 (Text.utf8 d.name).length ++
      (d.filetype.code :: 0 :: 0 :: 0 :: (Text.utf8 d.name ++ rest)) := by
  rw [d.encode_append, ← List.append_assoc, List.drop_left']
  rw [List.length_append, Memory.length_littleEndian, Memory.length_littleEndian]

namespace Listed

theorem nameLength_encode (hname : (Text.utf8 d.name).length < UInt32.size) :
    nameLength (d.encode ++ rest) = (Text.utf8 d.name).length := by
  unfold nameLength
  rw [d.drop_encode, List.take_left' (Memory.length_littleEndian ..), ofLittleEndian_littleEndian hname]

/-- **A record is read as it was written.** -/
theorem ofBytes_encode (hname : (Text.utf8 d.name).length < UInt32.size) :
    ofBytes (d.encode ++ rest) = ⟨d.next, Text.utf8 d.name, d.filetype.code⟩ := by
  have hbehind : (d.encode ++ rest).drop 20 =
      d.filetype.code :: 0 :: 0 :: 0 :: (Text.utf8 d.name ++ rest) := by
    rw [show 20 = 16 + 4 from rfl, ← List.drop_drop, d.drop_encode,
      List.drop_left' (Memory.length_littleEndian ..)]
  have hnext : UInt64.ofNat (ofLittleEndian ((d.encode ++ rest).take 8)) = d.next := by
    rw [d.encode_append, List.take_left' (Memory.length_littleEndian ..),
      ofLittleEndian_littleEndian d.next.toNat_lt, UInt64.ofNat_toNat]
  have hbody : (d.encode ++ rest).drop 24 = Text.utf8 d.name ++ rest := by
    rw [show 24 = 20 + 4 from rfl, ← List.drop_drop, hbehind]
    rfl
  have htype : (d.encode ++ rest).getD 20 0 = d.filetype.code := by
    rw [List.getD_eq_getElem?_getD, ← Nat.add_zero 20, ← List.getElem?_drop, hbehind]
    rfl
  unfold ofBytes
  rw [hnext, nameLength_encode hname, hbody, List.take_left' rfl, htype]

theorem decodeAll_encode (hname : (Text.utf8 d.name).length < UInt32.size) :
    decodeAll (d.encode ++ rest) =
      ⟨d.next, Text.utf8 d.name, d.filetype.code⟩ :: decodeAll rest := by
  have hlength : 24 + nameLength (d.encode ++ rest) = d.encode.length := by
    rw [nameLength_encode hname, Dirent.length_encode]
  rw [decodeAll, hlength, if_pos (by rw [List.length_append]; omega), ofBytes_encode hname,
    List.drop_left]

/-- **Of a record that is cut off** nothing is read. -/
theorem decodeAll_take_encode (hname : (Text.utf8 d.name).length < UInt32.size) {room : Nat}
    (hcut : room < d.encode.length) : decodeAll (d.encode.take room) = [] := by
  have hroom : (d.encode.take room).length = room := by
    rw [List.length_take]
    omega
  rw [decodeAll, if_neg]
  rw [hroom]
  intro hle
  -- A header that is there says how long the whole record is.
  have hheader : nameLength (d.encode.take room) = nameLength (d.encode ++ []) := by
    unfold nameLength
    rw [List.append_nil, List.drop_take, List.take_take, Nat.min_eq_left (by omega)]
  rw [hheader, nameLength_encode hname] at hle
  rw [Dirent.length_encode] at hcut
  omega

end Listed

end Record

namespace Syscall

variable {index cookie room : Nat} {page : Bytes} {entry : String × NodeKind}
  {es : List (String × NodeKind)}

/-! ### Pages -/

/-- The records of the entries from the index on, one behind the other. -/
def recordsFrom : Nat → List (String × NodeKind) → Bytes
  | _, [] => []
  | index, entry :: rest => entryRecord index entry ++ recordsFrom (index + 1) rest

/-- How many octets the record of an entry takes. -/
def recordLength (entry : String × NodeKind) : Nat := 24 + (Text.utf8 entry.1).length

theorem length_entryRecord : (entryRecord index entry).length = recordLength entry :=
  Dirent.length_encode

theorem decodeAll_entryRecord (hname : (Text.utf8 entry.1).length < UInt32.size) (rest : Bytes) :
    Listed.decodeAll (entryRecord index entry ++ rest) =
      Listed.ofEntry index entry :: Listed.decodeAll rest :=
  Listed.decodeAll_encode (d := ⟨_, _, entry.1, entry.2.filetype⟩) hname

theorem decodeAll_take_entryRecord (hname : (Text.utf8 entry.1).length < UInt32.size)
    (hcut : room < recordLength entry) : Listed.decodeAll ((entryRecord index entry).take room) = [] :=
  Listed.decodeAll_take_encode (d := ⟨_, _, entry.1, entry.2.filetype⟩) hname
    (by rwa [← length_entryRecord] at hcut)

/-- **A page is the front of the records** from the cookie on, behind what it held already. -/
theorem fillPage_take (cookie room index : Nat) (page : Bytes) (es : List (String × NodeKind)) :
    (fillPage cookie room index page es).take room =
      (page ++ recordsFrom (max index cookie) (es.drop (cookie - index))).take room := by
  induction es generalizing index page with
  | nil => rw [fillPage, List.drop_nil, recordsFrom, List.append_nil]
  | cons e es ih =>
    rw [fillPage]
    split
    · next hbefore =>
      rw [ih, show cookie - index = cookie - (index + 1) + 1 by omega, List.drop_succ_cons,
        show max (index + 1) cookie = max index cookie by omega]
    · next hbehind =>
      have hindex : max index cookie = index := by omega
      have hgone : cookie - index = 0 := by omega
      dsimp only
      rw [hindex, hgone, List.drop_zero, recordsFrom, ← List.append_assoc]
      split
      · next hfull => rw [List.take_append_of_le_length hfull]
      · rw [ih, show max (index + 1) cookie = index + 1 by omega,
          show cookie - (index + 1) = 0 by omega, List.drop_zero]

/-- How many of the entries have their records in a page with so much room. -/
def fitting : Nat → List (String × NodeKind) → Nat
  | _, [] => 0
  | room, entry :: rest =>
    if recordLength entry ≤ room then fitting (room - recordLength entry) rest + 1 else 0

theorem fitting_pos (h : recordLength entry ≤ room) : 0 < fitting room (entry :: es) := by
  rw [fitting, if_pos h]
  exact Nat.succ_pos _

theorem fitting_le : fitting room es ≤ es.length := by
  induction es generalizing room with
  | nil => exact Nat.le_refl 0
  | cons e es ih =>
    rw [fitting]
    split
    · exact Nat.succ_le_succ ih
    · exact Nat.zero_le _

/-- A page that has room for all of the records holds them all. -/
theorem fitting_eq_length (h : (recordsFrom index es).length ≤ room) : fitting room es = es.length := by
  induction es generalizing index room with
  | nil => rfl
  | cons e es ih =>
    rw [recordsFrom, List.length_append, length_entryRecord] at h
    have hrest : (recordsFrom (index + 1) es).length ≤ room - recordLength e := by omega
    rw [fitting, if_pos (by omega), ih hrest, List.length_cons]

/-- **What a guest reads off a page** are the entries that fit it. -/
theorem decodeAll_page (hnames : ∀ e ∈ es, (Text.utf8 e.1).length < UInt32.size) (index room : Nat) :
    Listed.decodeAll ((recordsFrom index es).take room) =
      Listed.ofEntries index (es.take (fitting room es)) := by
  induction es generalizing index room with
  | nil =>
    rw [recordsFrom, List.take_nil, List.take_nil, Listed.decodeAll]
    rfl
  | cons e es ih =>
    have hname := hnames e List.mem_cons_self
    rw [recordsFrom, fitting]
    split
    · next hfits =>
      rw [List.take_append, length_entryRecord,
        List.take_of_length_le (Nat.le_trans (Nat.le_of_eq length_entryRecord) hfits),
        decodeAll_entryRecord hname, ih fun e' he' => hnames e' (List.mem_cons_of_mem e he')]
      rfl
    · next hcut =>
      have hroom : room < recordLength e := Nat.lt_of_not_le hcut
      rw [List.take_append_of_le_length (by rw [length_entryRecord]; exact Nat.le_of_lt hroom),
        decodeAll_take_entryRecord hname hroom]
      rfl

end Syscall

end WasiSandbox
