import WasiSandbox.Proofs.Runs
import WasiSandbox.Tree.Content

/-! # What becomes of a content

The operations on the content of a file check every step that they take. Here is what they come to:
reading cuts a part out of the content (`readInto_ok`), and the three that change it are refused just
if its new end lies beyond the largest size (`overwrite_eq`, `append_eq`, `setLength_eq`). So no
content grows beyond that size, and none of the checked steps is ever a defect. -/

namespace WasiSandbox

namespace Content

variable {name : String} {content content' data buffer : Bytes} {offset length : Nat}

/-! ### Reading -/

/-- Only the end of the part that is read has to be checked. -/
theorem readInto_run (content : Bytes) (offset : Nat) (buffer : Bytes) :
    readInto content offset buffer =
      if content.length ≤ offset then .ok (0, buffer)
      else (Checked.add 64 offset (min buffer.length (content.length - offset))).map fun _ =>
        (min buffer.length (content.length - offset),
          (content.drop offset).take (min buffer.length (content.length - offset)) ++
            buffer.drop (min buffer.length (content.length - offset))) := by
  unfold readInto
  split
  · rfl
  · next hend =>
    have hn : min buffer.length (content.length - offset) ≤ content.length - offset :=
      Nat.min_le_right ..
    have hbuffer : min buffer.length (content.length - offset) ≤ buffer.length := Nat.min_le_left ..
    rw [Checked.sub_eq (Nat.le_of_not_le hend)]
    show (Checked.add 64 offset (min buffer.length (content.length - offset)) >>= fun stop =>
      Checked.slice content offset stop >>= fun data =>
        return (_, ← Checked.paste buffer 0 _ data)) = _
    generalize min buffer.length (content.length - offset) = n at hn hbuffer
    cases hstop : Checked.add 64 offset n with
    | error d => rfl
    | ok stop =>
      obtain rfl := Checked.add_ok hstop
      show (Checked.slice content offset (offset + n) >>= fun data =>
        return (n, ← Checked.paste buffer 0 n data)) = _
      rw [Checked.slice_eq (Nat.le_add_right ..) (by omega), Nat.add_sub_cancel_left]
      show (do return (n, ← Checked.paste buffer 0 n ((content.drop offset).take n))) = _
      rw [Checked.paste_eq (Nat.zero_le n) hbuffer (by simp; omega), List.take_zero, List.nil_append]
      rfl

/-- The part of the content that a buffer takes is read to its front. -/
theorem readInto_ok {n : Nat} {buffer' : Bytes}
    (h : readInto content offset buffer = .ok (n, buffer')) :
    n = min buffer.length (content.length - offset) ∧
      buffer' = (content.drop offset).take n ++ buffer.drop n := by
  rw [readInto_run] at h
  split at h
  · next hend =>
    cases h
    rw [Nat.sub_eq_zero_of_le hend]
    exact ⟨(Nat.min_zero _).symm, rfl⟩
  · cases hstop : Checked.add 64 offset (min buffer.length (content.length - offset)) with
    | error d =>
      rw [hstop] at h
      cases h
    | ok stop =>
      rw [hstop] at h
      cases h
      exact ⟨rfl, rfl⟩

/-- A content whose length fits a word can be read. -/
theorem readInto_succeeds (hsize : content.length < UInt64.size) (offset : Nat) (buffer : Bytes) :
    ∃ r, readInto content offset buffer = .ok r := by
  rw [readInto_run]
  split
  · exact ⟨_, rfl⟩
  · rw [Checked.add_eq (by omega)]
    exact ⟨_, rfl⟩

/-! ### Changing -/

theorem checkedEnd_eq (name : String) (offset length : Nat) : checkedEnd name offset length =
    if offset + length ≤ maxFileSize then .ok (offset + length)
    else .error (.reported (.fileTooLarge name)) := by
  have hmax : maxFileSize < UInt64.size := by decide
  unfold checkedEnd
  split
  · rw [if_neg (by omega)]
  · split
    · rw [if_neg (by omega)]
    · rw [if_pos (by omega)]

theorem length_resize (content : Bytes) (length : Nat) : (resize content length).length = length := by
  simp [resize]
  omega

/-- The content, padded with zeros if it ends before that. -/
def padded (content : Bytes) (length : Nat) : Bytes :=
  if content.length < length then resize content length else content

theorem length_padded (content : Bytes) (length : Nat) :
    (padded content length).length = max content.length length := by
  unfold padded
  split
  · rw [length_resize]
    omega
  · omega

/-- The content with the data written over it. -/
def overwritten (content : Bytes) (offset : Nat) (data : Bytes) : Bytes :=
  let grown := padded content (offset + data.length)
  grown.take offset ++ data ++ grown.drop (offset + data.length)

theorem length_overwritten (content : Bytes) (offset : Nat) (data : Bytes) :
    (overwritten content offset data).length = max content.length (offset + data.length) := by
  unfold overwritten
  simp only [List.length_append, List.length_take, List.length_drop, length_padded]
  omega

/-- What is written over stands between the front, padded up to there, and what lies behind it. -/
theorem overwritten_eq (content : Bytes) (offset : Nat) (data : Bytes) :
    overwritten content offset data =
      resize content offset ++ data ++ content.drop (offset + data.length) := by
  unfold overwritten padded
  dsimp only
  split
  · next hshort =>
    have htake : (resize content (offset + data.length)).take offset = resize content offset := by
      unfold resize
      rw [List.take_append, List.take_take, List.take_replicate, List.length_take]
      congr 2 <;> omega
    rw [htake, List.drop_of_length_le (Nat.le_of_eq (length_resize ..)),
      List.drop_of_length_le (Nat.le_of_lt hshort)]
  · next hlong =>
    have hfront : offset - content.length = 0 := by omega
    rw [resize, hfront, List.replicate_zero, List.append_nil]

/-- **Writing over in two pieces** is writing over in one. -/
theorem overwritten_append (content : Bytes) (offset : Nat) (a b : Bytes) :
    overwritten (overwritten content offset a) (offset + a.length) b =
      overwritten content offset (a ++ b) := by
  have hfront : (resize content offset ++ a).length = offset + a.length := by
    rw [List.length_append, length_resize]
  have hresize : resize (overwritten content offset a) (offset + a.length) =
      resize content offset ++ a := by
    have hfull : offset + a.length - (overwritten content offset a).length = 0 := by
      rw [length_overwritten]
      omega
    rw [resize, hfull, List.replicate_zero, List.append_nil, overwritten_eq, List.take_left' hfront]
  have hdrop : (overwritten content offset a).drop (offset + a.length + b.length) =
      content.drop (offset + (a ++ b).length) := by
    rw [overwritten_eq, ← List.drop_drop, List.drop_left' hfront, List.drop_drop, List.length_append,
      Nat.add_assoc]
  rw [overwritten_eq _ _ b, hresize, hdrop, overwritten_eq content, List.append_assoc]
  simp only [List.append_assoc]

theorem overwrite_eq (name : String) (content : Bytes) (offset : Nat) (data : Bytes) :
    overwrite name content offset data =
      if offset + data.length ≤ maxFileSize then .ok (overwritten content offset data)
      else .error (.reported (.fileTooLarge name)) := by
  unfold overwrite
  rw [checkedEnd_eq]
  split
  · have hgrown := length_padded content (offset + data.length)
    show Except.mapError Failure.defect (do
      let start ← Checked.sub (offset + data.length) data.length
      Checked.paste (padded content (offset + data.length)) start (offset + data.length) data) = _
    rw [Checked.sub_eq (Nat.le_add_left ..), Nat.add_sub_cancel]
    show Except.mapError Failure.defect
      (Checked.paste (padded content (offset + data.length)) offset (offset + data.length) data) = _
    rw [Checked.paste_eq (Nat.le_add_right ..) (by omega) (Nat.add_sub_cancel_left ..).symm]
    rfl
  · rfl

theorem append_eq (name : String) (content data : Bytes) : append name content data =
    if content.length + data.length ≤ maxFileSize then
      .ok (content.length + data.length, content ++ data)
    else .error (.reported (.fileTooLarge name)) := by
  unfold append
  rw [checkedEnd_eq]
  split <;> rfl

theorem setLength_eq (name : String) (content : Bytes) (length : Nat) :
    setLength name content length =
      if length ≤ maxFileSize then .ok (resize content length)
      else .error (.reported (.fileTooLarge name)) := by
  unfold setLength
  rw [checkedEnd_eq, Nat.add_zero]
  split <;> rfl

theorem overwrite_ok (h : overwrite name content offset data = .ok content') :
    offset + data.length ≤ maxFileSize := by
  rw [overwrite_eq] at h
  split at h
  · assumption
  · cases h

end Content

end WasiSandbox
