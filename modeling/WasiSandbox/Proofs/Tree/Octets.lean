import WasiSandbox.Proofs.Tree.Growth

/-! # A file is a string of octets

What the operations on a content come to, octet by octet. Where a write has gone, the data stand; in the
gap that it has left are zeros; everywhere else the octets are the old ones (`IsOverwritten`), and no other
string has these three properties (`IsOverwritten.eq`). A file in a tree is then nothing but its string:
each operation through its node is refused for the size alone, and otherwise does to the string what its
name says (`file_actsAsOctets`). -/

namespace WasiSandbox

namespace Content

variable {content content' data buffer : Bytes} {offset length i : Nat}

/-! ### Octet by octet -/

theorem getElem?_resize_of_lt (h : i < length) (hold : i < content.length) :
    (resize content length)[i]? = content[i]? := by
  have htake : i < (content.take length).length := by
    rw [List.length_take]
    omega
  rw [resize, List.getElem?_append_left htake, List.getElem?_take_of_lt h]

theorem getElem?_resize_of_padded (hold : content.length ≤ i) (h : i < length) :
    (resize content length)[i]? = some 0 := by
  have htake : (content.take length).length = content.length := by
    rw [List.length_take]
    omega
  rw [resize, List.getElem?_append_right (by omega), htake,
    List.getElem?_replicate_of_lt (by omega)]

/-- **What a write leaves**, octet by octet: `content'` is `content` with `data` from `offset` on. -/
structure IsOverwritten (content : Bytes) (offset : Nat) (data content' : Bytes) : Prop where
  length : content'.length = max content.length (offset + data.length)
  inside : ∀ i < data.length, content'[offset + i]? = data[i]?
  outside : ∀ i < content.length, i < offset ∨ offset + data.length ≤ i → content'[i]? = content[i]?
  gap : ∀ i, content.length ≤ i → i < offset → content'[i]? = some 0

theorem isOverwritten_overwritten (content : Bytes) (offset : Nat) (data : Bytes) :
    IsOverwritten content offset data (overwritten content offset data) := by
  have hfront := length_resize content offset
  -- Three parts stand one behind another, and every octet is sought in its own.
  have hparts := overwritten_eq content offset data
  rw [List.append_assoc] at hparts
  refine ⟨length_overwritten .., fun i hi => ?_, fun i hi hout => ?_, fun i hend hi => ?_⟩
  · rw [hparts, List.getElem?_append_right (by omega), hfront, Nat.add_sub_cancel_left,
      List.getElem?_append_left hi]
  · rcases hout with hbefore | hbehind
    · rw [hparts, List.getElem?_append_left (by omega), getElem?_resize_of_lt hbefore hi]
    · rw [hparts, List.getElem?_append_right (by omega), hfront,
        List.getElem?_append_right (by omega), List.getElem?_drop]
      congr 1
      omega
  · rw [hparts, List.getElem?_append_left (by omega), getElem?_resize_of_padded hend hi]

/-- The octets say it all. -/
theorem IsOverwritten.eq (h : IsOverwritten content offset data content') :
    content' = overwritten content offset data := by
  have hspec := isOverwritten_overwritten content offset data
  refine List.ext_getElem? fun i => ?_
  by_cases hin : offset ≤ i ∧ i < offset + data.length
  · obtain ⟨j, rfl⟩ := Nat.exists_eq_add_of_le hin.1
    have hj : j < data.length := by omega
    rw [h.inside j hj, hspec.inside j hj]
  · by_cases hold : i < content.length
    · have hout : i < offset ∨ offset + data.length ≤ i := by omega
      rw [h.outside i hold hout, hspec.outside i hold hout]
    · by_cases hgap : i < offset
      · rw [h.gap i (by omega) hgap, hspec.gap i (by omega) hgap]
      · have hlen := h.length
        have hlen' := hspec.length
        rw [List.getElem?_eq_none (by omega), List.getElem?_eq_none (by omega)]

/-! ### Reading -/

/-- What a read puts into the buffer. -/
theorem readInto_eq (hsize : content.length < UInt64.size) (offset : Nat) (buffer : Bytes) :
    readInto content offset buffer = .ok (min buffer.length (content.length - offset),
      (content.drop offset).take (min buffer.length (content.length - offset)) ++
        buffer.drop (min buffer.length (content.length - offset))) := by
  obtain ⟨⟨k, buffer'⟩, hread⟩ := readInto_succeeds hsize offset buffer
  obtain ⟨rfl, rfl⟩ := readInto_ok hread
  exact hread

/-- **What was written is read**, by a buffer of its length. -/
theorem readInto_overwritten (hsize : (overwritten content offset data).length < UInt64.size)
    (hbuffer : buffer.length = data.length) :
    readInto (overwritten content offset data) offset buffer = .ok (data.length, data) := by
  have hcount : min buffer.length ((overwritten content offset data).length - offset) =
      data.length := by
    rw [length_overwritten]
    omega
  have hdata : ((overwritten content offset data).drop offset).take data.length = data := by
    rw [overwritten_eq, List.append_assoc, List.drop_left' (length_resize ..), List.take_left' rfl]
  rw [readInto_eq hsize, hcount, hdata, List.drop_of_length_le (Nat.le_of_eq hbuffer),
    List.append_nil]

end Content

namespace FileTree

open Content

variable {t : FileTree} {n : NodeId} {name : String} {content : Bytes}

/-- **The file behind a node is the string `content`**: what every operation through the node does to it,
and that each is refused for the size alone and then changes nothing. -/
structure ActsAsOctets (t : FileTree) (n : NodeId) (name : String) (content : Bytes) : Prop where
  write_refused : ∀ offset data, maxFileSize < offset + data.length →
    writeAt n offset data t = .error (.reported (.fileTooLarge name)) t
  write : ∀ offset data, offset + data.length ≤ maxFileSize → ∃ content',
    IsOverwritten content offset data content' ∧
      writeAt n offset data t = .ok (some data.length) (t.withContent n content')
  append_refused : ∀ data, maxFileSize < content.length + data.length →
    append n data t = .error (.reported (.fileTooLarge name)) t
  append : ∀ data, content.length + data.length ≤ maxFileSize →
    append n data t = .ok (some (content ++ data).length) (t.withContent n (content ++ data))
  cut_refused : ∀ length, maxFileSize < length →
    setLength n length t = .error (.reported (.fileTooLarge name)) t
  cut : ∀ length ≤ maxFileSize, setLength n length t = .ok (some ())
    (t.withContent n (content.take length ++ List.replicate (length - content.length) 0))
  read : ∀ offset buffer, ∃ k, k = min buffer.length (content.length - offset) ∧
    readInto content offset buffer = .ok (k, (content.drop offset).take k ++ buffer.drop k)
  /-- What has been written is read back. -/
  read_back : ∀ offset data t' k, writeAt n offset data t = .ok k t' → ∃ content',
    t'.file? n = some (name, content') ∧ ∀ buffer : Bytes, buffer.length = data.length →
      readInto content' offset buffer = .ok (data.length, data)
  /-- What has been cut off does not come back with a greater length. -/
  cut_lengthened : ∀ short long t₁ t₂ u v, setLength n short t = .ok u t₁ →
    setLength n long t₁ = .ok v t₂ → ∃ content', t₂.file? n = some (name, content') ∧
      content'.length = long ∧ ∀ i, short ≤ i → i < long → content'[i]? = some 0
  /-- Nor does it come back with a write that starts further on. -/
  cut_written : ∀ short offset data t₁ t₂ u v, setLength n short t = .ok u t₁ →
    writeAt n offset data t₁ = .ok v t₂ → ∃ content', t₂.file? n = some (name, content') ∧
      ∀ i, short ≤ i → i < offset → content'[i]? = some 0

theorem file?_withContent (hfile : t.file? n = some (name, content)) (content' : Bytes) :
    (t.withContent n content').file? n = some (name, content') := by
  unfold file? at hfile ⊢
  rw [node?_withContent]
  cases hn : t.node? n with
  | none =>
    rw [hn] at hfile
    cases hfile
  | some m =>
    obtain ⟨name', parent, body⟩ := m
    rw [hn] at hfile
    cases body with
    | directory => cases hfile
    | file old =>
      cases hfile
      simp

section File

variable (hfile : t.file? n = some (name, content))

include hfile

/-- What is refused under a condition, and otherwise has a result and a new content. -/
theorem updateContent_ite {α : Type} {f : String → Bytes → Except (Failure FsError) (α × Bytes)}
    {fits : Prop} [Decidable fits] {a : α} {content' : Bytes} {e : Failure FsError}
    (hf : f name content = if fits then .ok (a, content') else .error e) : updateContent n f t =
      if fits then .ok (some a) (t.withContent n content') else .error e t := by
  rw [updateContent_run, hfile]
  dsimp only
  rw [hf]
  by_cases h : fits
  · rw [if_pos h, if_pos h]
  · rw [if_neg h, if_neg h]

theorem writeAt_run (offset : Nat) (data : Bytes) : writeAt n offset data t =
    if offset + data.length ≤ maxFileSize then
      .ok (some data.length) (t.withContent n (overwritten content offset data))
    else .error (.reported (.fileTooLarge name)) t :=
  updateContent_ite hfile (by rw [overwrite_eq]; split <;> rfl)

theorem append_run (data : Bytes) : append n data t =
    if content.length + data.length ≤ maxFileSize then
      .ok (some (content.length + data.length)) (t.withContent n (content ++ data))
    else .error (.reported (.fileTooLarge name)) t :=
  updateContent_ite hfile (append_eq name content data)

theorem setLength_run (length : Nat) : setLength n length t =
    if length ≤ maxFileSize then .ok (some ()) (t.withContent n (resize content length))
    else .error (.reported (.fileTooLarge name)) t :=
  updateContent_ite hfile (by rw [setLength_eq]; split <;> rfl)

/-- A write that has gone through has left its octets. -/
theorem writeAt_ok {offset : Nat} {data : Bytes} {k : Option Nat} {t' : FileTree}
    (h : writeAt n offset data t = .ok k t') : offset + data.length ≤ maxFileSize ∧
      t'.file? n = some (name, overwritten content offset data) := by
  rw [writeAt_run hfile] at h
  split at h
  · next hfits =>
    cases h
    exact ⟨hfits, file?_withContent hfile _⟩
  · cases h

theorem setLength_ok {length : Nat} {u : Option Unit} {t' : FileTree}
    (h : setLength n length t = .ok u t') : t'.file? n = some (name, resize content length) := by
  rw [setLength_run hfile] at h
  split at h
  · cases h
    exact file?_withContent hfile _
  · cases h

end File

/-- **Every file acts as its string of octets**, if its length fits a word. -/
theorem file_actsAsOctets (hfile : t.file? n = some (name, content))
    (hsize : content.length < UInt64.size) : t.ActsAsOctets n name content where
  write_refused offset data hlarge := by
    rw [writeAt_run hfile, if_neg (Nat.not_le.mpr hlarge)]
  write offset data hfits :=
    ⟨_, isOverwritten_overwritten content offset data, by rw [writeAt_run hfile, if_pos hfits]⟩
  append_refused data hlarge := by
    rw [append_run hfile, if_neg (Nat.not_le.mpr hlarge)]
  append data hfits := by
    rw [append_run hfile, if_pos hfits, List.length_append]
  cut_refused length hlarge := by
    rw [setLength_run hfile, if_neg (Nat.not_le.mpr hlarge)]
  cut length hfits := by
    rw [setLength_run hfile, if_pos hfits, resize]
  read offset buffer := ⟨_, rfl, readInto_eq hsize offset buffer⟩
  read_back offset data t' k hwrite := by
    obtain ⟨hfits, hfile'⟩ := writeAt_ok hfile hwrite
    have hmax : maxFileSize < UInt64.size := by decide
    have hsize' : (overwritten content offset data).length < UInt64.size := by
      rw [length_overwritten]
      omega
    exact ⟨_, hfile', fun buffer hbuffer => readInto_overwritten hsize' hbuffer⟩
  cut_lengthened short long t₁ t₂ u v hcut hgrow := by
    have hfile₂ := setLength_ok (setLength_ok hfile hcut) hgrow
    have hlength := length_resize content short
    refine ⟨_, hfile₂, length_resize .., fun i hshort hlong => ?_⟩
    exact getElem?_resize_of_padded (by omega) hlong
  cut_written short offset data t₁ t₂ u v hcut hwrite := by
    obtain ⟨-, hfile₂⟩ := writeAt_ok (setLength_ok hfile hcut) hwrite
    have hlength := length_resize content short
    have hspec := isOverwritten_overwritten (resize content short) offset data
    exact ⟨_, hfile₂, fun i hshort hi => hspec.gap i (by omega) hi⟩

/-- A root with one file of three octets. -/
def threeOctets : FileTree := ⟨[⟨"", none, .directory⟩, ⟨"a", some 0, .file [1, 2, 3]⟩], 0, [1, 1]⟩

theorem threeOctets_actsAsOctets : threeOctets.file? 1 = some ("a", [1, 2, 3]) ∧
    [1, 2, 3].length < UInt64.size ∧ threeOctets.ActsAsOctets 1 "a" [1, 2, 3] :=
  ⟨rfl, by decide, file_actsAsOctets rfl (by decide)⟩

end FileTree

end WasiSandbox
