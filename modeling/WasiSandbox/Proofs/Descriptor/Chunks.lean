import Mathlib.Algebra.GroupWithZero.Nat
import WasiSandbox.Proofs.Descriptor.Answers
import WasiSandbox.Proofs.Output.Delivery

/-! # Transfers in pieces

It makes no difference how the data of a write is cut into chunks, or the length of a read into parts: the
pieces transfer what the whole does and leave the same host (`uncut`). Both come down to two pieces
(`write_append`, `read_append`): the second goes on where the first has left the cursor, the content and
the stream. -/

namespace WasiSandbox

/-- What two pieces make of a content and a cursor. -/
theorem Descriptor.written_append (d : Descriptor) (old a b : Bytes) :
    { d with cursor := (d.written old a).2 }.written (d.written old a).1 b = d.written old (a ++ b) := by
  unfold written
  dsimp only
  by_cases happends : d.flags.appends = true
  · rw [if_pos happends, if_pos happends, if_pos happends, List.append_assoc, List.length_append,
      List.length_append, Nat.add_assoc]
  · rw [if_neg happends, if_neg happends, if_neg happends, Content.overwritten_append,
      List.length_append, Nat.add_assoc]

namespace Host

variable {h h' : Host} {fd m n : Nat} {d : Descriptor} {a b data ahead : Bytes}

/-! ### Writing -/

theorem handOn_handOn (h : Host) (channel : Channel) (texts more : List String)
    (table table' : DescriptorTable) :
    (h.handOn channel texts table).handOn channel more table' =
      h.handOn channel (texts ++ more) table' := by
  unfold handOn
  dsimp only
  rw [List.map_append, List.append_assoc]

theorem write_output_run (hget : h.table.get? fd = some d) (hright : d.rights.contains .fdWrite = true)
    (htarget : d.target = .stdout) (data : Bytes) :
    write fd data h = .ok data.length (h.handOn .stdout (h.table.stdout.write data).1
      { h.table with stdout := (h.table.stdout.write data).2 }) := by
  unfold write
  rw [permitted_run hget hright]
  dsimp only
  rw [htarget]
  rfl

theorem write_error_run (hget : h.table.get? fd = some d) (hright : d.rights.contains .fdWrite = true)
    (htarget : d.target = .stderr) (data : Bytes) :
    write fd data h = .ok data.length (h.handOn .stderr (h.table.stderr.write data).1
      { h.table with stderr := (h.table.stderr.write data).2 }) := by
  unfold write
  rw [permitted_run hget hright]
  dsimp only
  rw [htarget]
  rfl

/-- **A write in two pieces** leaves what the whole write leaves. -/
theorem write_append {k : Nat} (hw : write fd (a ++ b) h = .ok k h') :
    ∃ h₁, write fd a h = .ok a.length h₁ ∧ write fd b h₁ = .ok b.length h' := by
  obtain ⟨d, hget, hright, hwrite⟩ := permitted_ok hw
  cases htarget : d.target with
  | stdin | directory =>
    rw [htarget] at hwrite
    cases hwrite
  | stdout =>
    rw [write_output_run hget hright htarget, OutputStream.write_append] at hw
    cases hw
    refine ⟨_, write_output_run hget hright htarget a, ?_⟩
    rw [write_output_run (by exact hget) hright htarget b, handOn_handOn]
    rfl
  | stderr =>
    rw [write_error_run hget hright htarget, OutputStream.write_append] at hw
    cases hw
    refine ⟨_, write_error_run hget hright htarget a, ?_⟩
    rw [write_error_run (by exact hget) hright htarget b, handOn_handOn]
    rfl
  | file path n =>
    obtain ⟨-, hn, old, hold, hfit, rfl⟩ := write_file_ok hget htarget hw
    -- The cursor comes to lie no further than behind the whole.
    have hfirst : (d.written old a).2 ≤ Content.maxFileSize := by
      refine Nat.le_trans ?_ hfit
      unfold Descriptor.written
      split <;> simp
    refine ⟨_, write_file_run hget hright htarget hn hold hfirst, ?_⟩
    have hn' : (h.tree.withContent n (d.written old a).1).alive n = true := hn
    rw [write_file_run (h := { h with
        tree := h.tree.withContent n (d.written old a).1
        table := h.table.put fd { d with cursor := (d.written old a).2 } })
      (DescriptorTable.get?_put.trans (if_pos rfl)) hright htarget hn'
      (FileTree.content?_withContent hold _) (by rwa [Descriptor.written_append]),
      Descriptor.written_append, DescriptorTable.put_put,
      FileTree.withContent_withContent]

/-- What can be written through the descriptor: to an output stream whatever there is, to a file that is
alive what keeps it within the largest size. -/
inductive Writable (h : Host) (d : Descriptor) (data : Bytes) : Prop where
  | stream : d.target = .stdout ∨ d.target = .stderr → Writable h d data
  | file {path : String} {n : NodeId} {old : Bytes} : d.target = .file path n → h.tree.alive n = true →
      h.tree.content? n = some old → (d.written old data).2 ≤ Content.maxFileSize → Writable h d data

/-- **What can be written is written.** -/
theorem write_run (hget : h.table.get? fd = some d) (hright : d.rights.contains .fdWrite = true)
    (hdata : Writable h d data) : ∃ h', write fd data h = .ok data.length h' := by
  cases hdata with
  | stream hout =>
    rcases hout with htarget | htarget
    · exact ⟨_, write_output_run hget hright htarget data⟩
    · exact ⟨_, write_error_run hget hright htarget data⟩
  | file htarget hn hold hfit => exact ⟨_, write_file_run hget hright htarget hn hold hfit⟩

/-- **Writing chunk by chunk.** -/
theorem write_flatten {chunks : List Bytes} {k : Nat} (hne : chunks ≠ [])
    (hw : write fd chunks.flatten h = .ok k h') :
    chunks.mapM (write fd) h = .ok (chunks.map List.length) h' := by
  induction chunks generalizing h k with
  | nil => exact absurd rfl hne
  | cons chunk chunks ih =>
    rw [List.flatten_cons] at hw
    rw [List.mapM_cons, List.map_cons]
    by_cases hlast : chunks = []
    · subst hlast
      rw [List.flatten_nil, List.append_nil] at hw
      obtain ⟨rfl, -⟩ := write_ok hw
      rw [run_bind_ok hw]
      rfl
    · obtain ⟨h₁, hfirst, hrest⟩ := write_append hw
      rw [run_bind_ok hfirst, run_bind_ok (ih hlast hrest)]
      rfl

/-! ### Reading -/

theorem drop_advanced (content : Bytes) (cursor m : Nat) :
    content.drop (cursor + min m (content.drop cursor).length) = (content.drop cursor).drop m := by
  rw [← List.drop_drop]
  rcases Nat.le_total m (content.drop cursor).length with hle | hle
  · rw [Nat.min_eq_left hle]
  · rw [Nat.min_eq_right hle, List.drop_length, List.drop_of_length_le hle]

/-- When the cursor has moved, the rest can be read. -/
theorem Readable.advanced (hr : Readable h d ahead) (fd m : Nat) :
    Readable { h with table := h.table.put fd { d with cursor := d.cursor + min m ahead.length } }
      { d with cursor := d.cursor + min m ahead.length } (ahead.drop m) := by
  cases hr with
  | input htarget => exact drop_advanced _ _ m ▸ .input htarget
  | file htarget hn hcontent => exact drop_advanced _ _ m ▸ .file htarget hn hcontent

/-- **A read in two parts** finds what the whole read finds. -/
theorem read_append (hr : read fd (m + n) h = .ok data h') :
    ∃ h₁, read fd m h = .ok (data.take m) h₁ ∧ read fd n h₁ = .ok (data.drop m) h' := by
  obtain ⟨d, ahead, hget, hright, hahead, hend, rfl, rfl⟩ := read_ok hr
  have hlength : (ahead.drop m).length = ahead.length - m := List.length_drop
  have hcursor : d.cursor + min m ahead.length + min n (ahead.drop m).length =
      d.cursor + (ahead.take (m + n)).length := by
    rw [List.length_take, hlength]
    omega
  have hfits : d.cursor + min m ahead.length + min n (ahead.drop m).length < UInt64.size := by
    rw [hcursor, List.length_take]
    exact hend
  have hfirst : read fd m h = _ := read_run hget hright hahead (by omega)
  have hsecond : read fd n _ = _ := read_run (d := { d with cursor := d.cursor + min m ahead.length })
    (DescriptorTable.get?_put.trans (if_pos rfl)) hright (hahead.advanced fd m) hfits
  rw [DescriptorTable.put_put] at hsecond
  dsimp only at hsecond
  rw [hcursor] at hsecond
  rw [List.take_take, Nat.min_eq_left (Nat.le_add_right m n), List.drop_take, Nat.add_sub_cancel_left]
  exact ⟨_, hfirst, hsecond⟩

/-- **Reading part by part.** -/
theorem read_sum {lengths : List Nat} (hr : read fd lengths.sum h = .ok data h') :
    ∃ pieces, lengths.mapM (read fd) h = .ok pieces h' ∧ pieces.flatten = data := by
  induction lengths generalizing h data with
  | nil =>
    -- Nothing is read, and the descriptor is put back as it was.
    obtain ⟨d, ahead, hget, -, -, -, rfl, rfl⟩ := read_ok hr
    refine ⟨[], ?_, rfl⟩
    rw [List.sum_nil, List.take_zero, List.length_nil, Nat.add_zero, DescriptorTable.put_get hget]
    rfl
  | cons length lengths ih =>
    rw [List.sum_cons] at hr
    obtain ⟨h₁, hfirst, hrest⟩ := read_append hr
    obtain ⟨pieces, hpieces, hflatten⟩ := ih hrest
    refine ⟨data.take length :: pieces, ?_, ?_⟩
    · rw [List.mapM_cons, run_bind_ok hfirst, run_bind_ok hpieces]
      rfl
    · rw [List.flatten_cons, hflatten, List.take_append_drop]

/-- The cursor behind what can be read fits its word. -/
theorem Fits.readable_end (hf : h.Fits) (hget : h.table.get? fd = some d) (hahead : Readable h d ahead) :
    d.cursor + ahead.length < UInt64.size := by
  cases hahead with
  | input htarget =>
    have hcursor := hf.inInput fd d hget htarget
    have hstdin := hf.stdin
    rw [List.length_drop]
    omega
  | file htarget hn hcontent =>
    have hcursor := hf.inFile fd d _ _ hget htarget
    have hsize := hf.files hn hcontent
    have hmax : maxOffset + Content.maxFileSize < UInt64.size := by decide
    rw [List.length_drop]
    omega

/-! ### Both -/

/-- It makes no difference how transfers through the handle are cut. -/
structure Uncut (h : Host) (fd : Nat) : Prop where
  /-- Data that can be written at once can be written in chunks, and they leave the same host. -/
  writes : ∀ (chunks : List Bytes) k h', chunks ≠ [] → write fd chunks.flatten h = .ok k h' →
    chunks.mapM (write fd) h = .ok (chunks.map List.length) h'
  /-- What can be read at once can be read in parts, and they leave the same host. -/
  reads : ∀ (lengths : List Nat) data h', read fd lengths.sum h = .ok data h' →
    ∃ pieces, lengths.mapM (read fd) h = .ok pieces h' ∧ pieces.flatten = data
  /-- Whatever can be written through the handle is written, at once and in chunks. -/
  writesSucceed : ∀ d (chunks : List Bytes), h.table.get? fd = some d → d.rights.contains .fdWrite = true →
    Writable h d chunks.flatten → chunks ≠ [] → ∃ h',
      write fd chunks.flatten h = .ok chunks.flatten.length h' ∧
      chunks.mapM (write fd) h = .ok (chunks.map List.length) h'
  /-- On a host that is in its bounds, whatever can be read through the handle is read. -/
  readsSucceed : h.Fits → ∀ d ahead, h.table.get? fd = some d → d.rights.contains .fdRead = true →
    Readable h d ahead → ∀ lengths : List Nat, ∃ pieces, lengths.mapM (read fd) h = .ok pieces { h with
      table := h.table.put fd { d with cursor := d.cursor + min lengths.sum ahead.length } } ∧
    pieces.flatten = ahead.take lengths.sum

/-- **Transfers do not depend on how they are cut**, on any host and any handle. -/
theorem uncut (h : Host) (fd : Nat) : h.Uncut fd where
  writes _ _ _ hne hw := write_flatten hne hw
  reads _ _ _ hr := read_sum hr
  writesSucceed d chunks hget hright hdata hne := by
    obtain ⟨h', hw⟩ := write_run hget hright hdata
    exact ⟨h', hw, write_flatten hne hw⟩
  readsSucceed hf d ahead hget hright hahead lengths := by
    have hend := hf.readable_end hget hahead
    exact read_sum (read_run hget hright hahead (by omega))

/-- A guest whose cursor is behind the end of a file. -/
def beyondEnd : Host :=
  (Host.new (FileTree.empty.run [.addFile "a" [1]]) [] .silent).run
    [.openPath 3 "a" ⟨0⟩ .all .all ⟨0⟩, .seek 4 3 .set]

/-- An empty chunk is written first, and it fills the gap; then all is read, in two parts. -/
theorem beyondEnd_uncut : ∃ h₁ h₂,
    write 4 [7, 8, 9] beyondEnd = .ok 3 h₁ ∧ [[], [7], [8, 9]].mapM (write 4) beyondEnd = .ok [0, 1, 2] h₁ ∧
    readAt 4 9 0 h₁ = .ok [1, 0, 0, 7, 8, 9] h₁ ∧
    ∃ pieces, [4, 3].mapM (read 4) (left (seek 4 0 .set h₁)) = .ok pieces h₂ ∧
      pieces.flatten = [1, 0, 0, 7, 8, 9] := by
  have hget : beyondEnd.table.get? 4 = some ⟨.file "/a" 1, 3, .all, .all, ⟨0⟩⟩ := by decide +kernel
  have hdata : Writable beyondEnd ⟨.file "/a" 1, 3, .all, .all, ⟨0⟩⟩ [[], [7], [8, 9]].flatten :=
    .file rfl (by decide +kernel) (show beyondEnd.tree.content? 1 = some [1] by decide +kernel) (by decide)
  obtain ⟨h₁, hw, hchunks⟩ := (uncut beyondEnd 4).writesSucceed _ [[], [7], [8, 9]] hget (by decide) hdata
    (by simp)
  have hleft : h₁ = left (write 4 [7, 8, 9] beyondEnd) := by
    rw [show write 4 [7, 8, 9] beyondEnd = _ from hw]
    rfl
  subst hleft
  refine ⟨_, left (read 4 7 (left (seek 4 0 .set (left (write 4 [7, 8, 9] beyondEnd))))), hw, hchunks,
    by rfl, ?_⟩
  exact (uncut _ 4).reads [4, 3] _ _ (by rfl)

end Host

end WasiSandbox
