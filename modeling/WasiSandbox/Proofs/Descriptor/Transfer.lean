import WasiSandbox.Proofs.Descriptor.Failure

/-! # What a transfer has done when it succeeds

A read answers with the octets from the cursor on and moves the cursor behind them (`read_ok`); a
write changes the content of one file, or hands on text (`write_ok`); a seek moves the cursor alone
(`seek_ok`). -/

namespace WasiSandbox

/-- What the content becomes when the data is written through the descriptor, and where the cursor
is then. -/
def Descriptor.written (d : Descriptor) (old data : Bytes) : Bytes × Nat :=
  if d.flags.appends then (old ++ data, old.length + data.length)
  else (Content.overwritten old d.cursor data, d.cursor + data.length)

namespace Host

variable {h h' : Host} {fd length offset : Nat} {d : Descriptor} {n : NodeId} {data content : Bytes}

/-! ### Single steps -/

theorem descriptor_ok (hd : descriptor fd h = .ok d h') : h.table.get? fd = some d ∧ h' = h := by
  unfold descriptor at hd
  rw [run_get_bind] at hd
  cases hget : h.table.get? fd with
  | none =>
    rw [hget] at hd
    cases hd
  | some d' =>
    rw [hget] at hd
    cases hd
    exact ⟨rfl, rfl⟩

theorem descriptor_run (hget : h.table.get? fd = some d) : descriptor fd h = .ok d h := by
  unfold descriptor
  rw [run_get_bind, hget]
  rfl

theorem descriptor_error (hget : h.table.get? fd = none) :
    descriptor fd h = .error (.reported .badf) h := by
  unfold descriptor
  rw [run_get_bind, hget]
  rfl

theorem requireAlive_run (hn : h.tree.alive n = true) : requireAlive n h = .ok () h := by
  unfold requireAlive
  rw [run_get_bind, if_pos hn]
  rfl

theorem requireAlive_ok {u : Unit} (hu : requireAlive n h = .ok u h') :
    h.tree.alive n = true ∧ h' = h := by
  unfold requireAlive at hu
  rw [run_get_bind] at hu
  split at hu
  · next hn =>
    cases hu
    exact ⟨hn, rfl⟩
  · cases hu

theorem requireAlive_error (hn : h.tree.alive n = false) :
    requireAlive n h = .error (.reported .badf) h := by
  unfold requireAlive
  rw [run_get_bind, hn]
  rfl

theorem ofChecked_ok {α : Type} {c : Checked α} {a : α} (hc : ofChecked c h = .ok a h') :
    c = .ok a ∧ h' = h := by
  unfold ofChecked at hc
  cases c <;> cases hc
  exact ⟨rfl, rfl⟩

theorem requireRight_ok {right : Rights} {u : Unit} (hu : requireRight d right h = .ok u h') :
    d.rights.contains right = true ∧ h' = h := by
  unfold requireRight at hu
  split at hu
  · next hright =>
    cases hu
    exact ⟨hright, rfl⟩
  · cases hu

section Permitted

variable {α : Type} {right : Rights} {f : Descriptor → HostM α} {a : α}

/-- The descriptor and its rights come first. -/
theorem permitted_ok
    (hf : (descriptor fd >>= fun d => requireRight d right >>= fun _ => f d) h = .ok a h') :
    ∃ d, h.table.get? fd = some d ∧ d.rights.contains right = true ∧ f d h = .ok a h' := by
  obtain ⟨d, h₁, hd, hpermit⟩ := run_bind_eq_ok hf
  obtain ⟨hget, rfl⟩ := descriptor_ok hd
  obtain ⟨u, h₂, hu, hrest⟩ := run_bind_eq_ok hpermit
  obtain ⟨hright, rfl⟩ := requireRight_ok hu
  exact ⟨d, hget, hright, hrest⟩

theorem permitted_run (hget : h.table.get? fd = some d) (hright : d.rights.contains right = true) :
    (descriptor fd >>= fun d => requireRight d right >>= fun _ => f d) h = f d h := by
  have hu : requireRight d right h = .ok () h := by
    unfold requireRight
    rw [if_pos hright]
    rfl
  rw [run_bind_ok (descriptor_run hget), run_bind_ok hu]

/-- Without the right nothing else happens. -/
theorem permitted_error (hget : h.table.get? fd = some d) (hright : d.rights.contains right = false) :
    (descriptor fd >>= fun d => requireRight d right >>= fun _ => f d) h =
      .error (.reported .notcapable) h := by
  have hu : requireRight d right h = .error (.reported .notcapable) h := by
    unfold requireRight
    rw [hright]
    rfl
  rw [run_bind_ok (descriptor_run hget), run_bind_error hu]

end Permitted

/-! ### Reading -/

theorem readContent_ok (hr : readContent content offset length = .ok data) :
    data = (content.drop offset).take length := by
  unfold readContent at hr
  dsimp only at hr
  obtain ⟨⟨k, buffer⟩, hread, hdata⟩ := Checked.bind_eq_ok hr
  obtain ⟨hk, rfl⟩ := Content.readInto_ok hread
  rw [List.length_replicate, Nat.min_assoc, Nat.min_self] at hk
  cases hdata
  rw [List.take_left' (by rw [hk, List.length_take, List.length_drop]; omega), hk,
    ← List.length_drop, ← List.take_eq_take_min]

theorem readContent_run (hend : offset + min length (content.length - offset) < UInt64.size) :
    readContent content offset length = .ok ((content.drop offset).take length) := by
  have hok : ∃ data, readContent content offset length = .ok data := by
    unfold readContent
    dsimp only
    rw [Content.readInto_run]
    split
    · exact ⟨_, rfl⟩
    · rw [List.length_replicate, Nat.min_assoc, Nat.min_self, Checked.add_eq hend]
      exact ⟨_, rfl⟩
  obtain ⟨data, hdata⟩ := hok
  rw [hdata, readContent_ok hdata]

theorem readInput_run (input : Bytes) (cursor length : Nat) : readInput input cursor length =
    (Checked.add 64 (min cursor input.length)
      (min length (input.length - min cursor input.length))).map fun _ =>
        (input.drop cursor).take length := by
  have hstart : min cursor input.length ≤ input.length := Nat.min_le_right ..
  have hdrop : input.drop (min cursor input.length) = input.drop cursor := by
    rcases Nat.le_total cursor input.length with hle | hle
    · rw [Nat.min_eq_left hle]
    · rw [Nat.min_eq_right hle, List.drop_length, List.drop_of_length_le hle]
  unfold readInput
  dsimp only
  rw [Checked.sub_eq hstart]
  show (Checked.add 64 (min cursor input.length) _ >>= Checked.slice input _) = _
  cases hstop : Checked.add 64 (min cursor input.length)
      (min length (input.length - min cursor input.length)) with
  | error e => rfl
  | ok stop =>
    obtain rfl := Checked.add_ok hstop
    show Checked.slice input _ _ = _
    rw [Checked.slice_eq (Nat.le_add_right ..) (by omega), Nat.add_sub_cancel_left,
      ← List.length_drop, ← List.take_eq_take_min, hdrop]
    rfl

theorem readInput_ok {cursor : Nat} (hr : readInput content cursor length = .ok data) :
    data = (content.drop cursor).take length := by
  rw [readInput_run] at hr
  cases hstop : Checked.add 64 (min cursor content.length)
      (min length (content.length - min cursor content.length)) with
  | error e =>
    rw [hstop] at hr
    cases hr
  | ok stop =>
    rw [hstop] at hr
    cases hr
    rfl

theorem readNode_ok (hr : readNode n offset length h = .ok data h') :
    h' = h ∧ h.tree.alive n = true ∧ ∃ content, h.tree.content? n = some content ∧
      data = (content.drop offset).take length := by
  obtain ⟨u, h₁, hu, hrest⟩ := run_bind_eq_ok hr
  obtain ⟨hn, rfl⟩ := requireAlive_ok hu
  rw [run_get_bind] at hrest
  cases hcontent : h₁.tree.content? n with
  | none =>
    rw [hcontent] at hrest
    cases hrest
  | some content =>
    rw [hcontent] at hrest
    obtain ⟨hread, rfl⟩ := ofChecked_ok hrest
    exact ⟨rfl, hn, content, rfl, readContent_ok hread⟩

theorem readNode_run (hn : h.tree.alive n = true) (hcontent : h.tree.content? n = some content)
    (hend : offset + min length (content.length - offset) < UInt64.size) :
    readNode n offset length h = .ok ((content.drop offset).take length) h := by
  unfold readNode
  rw [run_bind_ok (requireAlive_run hn), run_get_bind, hcontent]
  dsimp only
  rw [readContent_run hend]
  rfl

/-- What can be read through the descriptor from its cursor on. -/
inductive Readable (h : Host) (d : Descriptor) : Bytes → Prop where
  | input : d.target = .stdin → Readable h d (h.table.stdin.drop d.cursor)
  | file {path : String} {n : NodeId} {content : Bytes} : d.target = .file path n →
      h.tree.alive n = true → h.tree.content? n = some content →
      Readable h d (content.drop d.cursor)

/-- **A read** answers with the front of what can be read, and the cursor moves behind it. -/
theorem read_ok (hr : read fd length h = .ok data h') :
    ∃ d ahead, h.table.get? fd = some d ∧ d.rights.contains .fdRead = true ∧ Readable h d ahead ∧
      d.cursor + min length ahead.length < UInt64.size ∧ data = ahead.take length ∧
      h' = { h with table := h.table.put fd { d with cursor := d.cursor + data.length } } := by
  obtain ⟨d, hget, hright, hread⟩ := permitted_ok hr
  dsimp only at hread
  have hmove : ∀ {data' : Bytes} {h₁ : Host}, (do
      let cursor ← ofChecked (Checked.add 64 d.cursor data'.length)
      setDescriptor fd { d with cursor := cursor }
      return data') h₁ = .ok data h' → data = data' ∧ d.cursor + data'.length < UInt64.size ∧
        h' = { h₁ with table := h₁.table.put fd { d with cursor := d.cursor + data'.length } } := by
    intro data' h₁ hm
    obtain ⟨cursor, h₂, hc, hrest⟩ := run_bind_eq_ok hm
    obtain ⟨hadd, rfl⟩ := ofChecked_ok hc
    have hlt := Checked.add_lt hadd
    obtain rfl := Checked.add_ok hadd
    rw [run_bind_ok (setDescriptor_run ..)] at hrest
    cases hrest
    exact ⟨rfl, hlt, rfl⟩
  obtain ⟨target, cursor, rights, inheriting, flags⟩ := d
  refine ⟨⟨target, cursor, rights, inheriting, flags⟩, ?_⟩
  cases target with
  | stdin =>
    dsimp only at hread
    rw [run_get_bind] at hread
    obtain ⟨data', h₁, hd, hm⟩ := run_bind_eq_ok hread
    obtain ⟨hin, rfl⟩ := ofChecked_ok hd
    obtain ⟨rfl, hlt, rfl⟩ := hmove hm
    have hdata := readInput_ok hin
    rw [hdata, List.length_take] at hlt
    exact ⟨_, hget, hright, .input rfl, hlt, hdata, rfl⟩
  | stdout | stderr | directory => cases hread
  | file path n =>
    obtain ⟨data', h₁, hd, hm⟩ := run_bind_eq_ok hread
    obtain ⟨rfl, hn, content, hcontent, hdata⟩ := readNode_ok hd
    obtain ⟨rfl, hlt, rfl⟩ := hmove hm
    rw [hdata, List.length_take] at hlt
    exact ⟨_, hget, hright, .file rfl hn hcontent, hlt, hdata, rfl⟩

/-- A read at an offset answers with the octets from there on, and changes nothing. -/
theorem readAt_ok (hr : readAt fd length offset h = .ok data h') :
    h' = h ∧ ∃ d path n content, h.table.get? fd = some d ∧ d.target = .file path n ∧
      h.tree.content? n = some content ∧ data = (content.drop offset).take length := by
  obtain ⟨⟨target, cursor, rights, inheriting, flags⟩, hget, -, hread⟩ := permitted_ok hr
  cases target with
  | stdin | stdout | stderr | directory => cases hread
  | file path n =>
    obtain ⟨rfl, -, content, hcontent, hdata⟩ := readNode_ok hread
    exact ⟨rfl, _, path, n, content, hget, rfl, hcontent, hdata⟩

theorem read_run {ahead : Bytes} (hget : h.table.get? fd = some d)
    (hright : d.rights.contains .fdRead = true) (hahead : Readable h d ahead)
    (hend : d.cursor + min length ahead.length < UInt64.size) :
    read fd length h = .ok (ahead.take length) { h with
      table := h.table.put fd { d with cursor := d.cursor + min length ahead.length } } := by
  have hmove : (do
      let cursor ← ofChecked (Checked.add 64 d.cursor (ahead.take length).length)
      setDescriptor fd { d with cursor := cursor }
      return ahead.take length) h = .ok (ahead.take length) { h with
        table := h.table.put fd { d with cursor := d.cursor + min length ahead.length } } := by
    rw [List.length_take, Checked.add_eq hend]
    rfl
  unfold read
  rw [permitted_run hget hright]
  obtain ⟨target, cursor, rights, inheriting, flags⟩ := d
  cases hahead with
  | input htarget =>
    cases htarget
    rw [List.length_drop] at hend
    have hdata : ofChecked (readInput h.table.stdin cursor length) h =
        .ok ((h.table.stdin.drop cursor).take length) h := by
      rw [readInput_run, Checked.add_eq (by dsimp only at hend; omega)]
      rfl
    dsimp only
    rw [run_get_bind, run_bind_ok hdata]
    exact hmove
  | file htarget hn hcontent =>
    cases htarget
    rw [List.length_drop] at hend
    dsimp only
    rw [run_bind_ok (readNode_run hn hcontent hend)]
    exact hmove

/-! ### Writing -/

theorem onContent_ok {α : Type} {f : String → Bytes → Except (Failure FsError) (α × Bytes)} {a : α}
    (hf : onContent n (FileTree.updateContent n f) h = .ok a h') :
    h.tree.alive n = true ∧ ∃ name old content, h.tree.content? n = some old ∧
      f name old = .ok (a, content) ∧ h' = { h with tree := h.tree.withContent n content } := by
  obtain ⟨u, h₁, hu, hrest⟩ := run_bind_eq_ok hf
  obtain ⟨hn, rfl⟩ := requireAlive_ok hu
  obtain ⟨r, h₂, htree, hrest⟩ := run_bind_eq_ok hrest
  obtain ⟨t, ht, rfl⟩ := onTree_ok htree
  cases r with
  | none => cases hrest
  | some b =>
    cases hrest
    obtain ⟨name, old, content, hfile, hnew, rfl⟩ := FileTree.updateContent_some ht
    exact ⟨hn, name, old, content, by rw [FileTree.content?, hfile, Option.map_some], hnew, rfl⟩

/-- What a successful write has done. -/
inductive Written (h : Host) (fd : Nat) (data : Bytes) : Host → Prop where
  /-- It has handed on text. -/
  | stream {h' : Host} : h'.tree = h.tree → h'.kept = h.kept → h'.table.slots = h.table.slots →
      h'.table.stdin = h.table.stdin → Written h fd data h'
  /-- It has changed a file. -/
  | file {d : Descriptor} {path : String} {n : NodeId} {old content : Bytes} {cursor : Nat} :
      h.table.get? fd = some d → d.target = .file path n → h.tree.alive n = true →
      h.tree.content? n = some old → d.written old data = (content, cursor) →
      cursor ≤ Content.maxFileSize →
      Written h fd data { h with
        tree := h.tree.withContent n content
        table := h.table.put fd { d with cursor := cursor } }

theorem writeAt_content_ok {k : Nat}
    (hw : onContent n (FileTree.writeAt n offset data) h = .ok k h') :
    k = data.length ∧ h.tree.alive n = true ∧ offset + data.length ≤ Content.maxFileSize ∧
      ∃ old, h.tree.content? n = some old ∧
        h' = { h with tree := h.tree.withContent n (Content.overwritten old offset data) } := by
  obtain ⟨hn, name, old, content, hold, hnew, rfl⟩ := onContent_ok hw
  rw [Content.overwrite_eq] at hnew
  split at hnew
  · next hfit =>
    cases hnew
    exact ⟨rfl, hn, hfit, old, hold, rfl⟩
  · cases hnew

theorem append_content_ok {length : Nat} (hw : onContent n (FileTree.append n data) h = .ok length h') :
    h.tree.alive n = true ∧ ∃ old, h.tree.content? n = some old ∧
      length = old.length + data.length ∧ length ≤ Content.maxFileSize ∧
        h' = { h with tree := h.tree.withContent n (old ++ data) } := by
  obtain ⟨hn, name, old, content, hold, hnew, rfl⟩ := onContent_ok hw
  rw [Content.append_eq] at hnew
  split at hnew
  · next hfit =>
    cases hnew
    exact ⟨hn, old, hold, rfl, hfit, rfl⟩
  · cases hnew

/-- A write to a file has changed it, within the largest size. -/
theorem write_file_ok {k : Nat} {path : String} (hget : h.table.get? fd = some d)
    (htarget : d.target = .file path n) (hw : write fd data h = .ok k h') :
    k = data.length ∧ h.tree.alive n = true ∧ ∃ old, h.tree.content? n = some old ∧
      (d.written old data).2 ≤ Content.maxFileSize ∧
      h' = { h with
        tree := h.tree.withContent n (d.written old data).1
        table := h.table.put fd { d with cursor := (d.written old data).2 } } := by
  obtain ⟨d', hget', -, hwrite⟩ := permitted_ok hw
  cases hget.symm.trans hget'
  obtain ⟨target, cursor, rights, inheriting, flags⟩ := d
  cases htarget
  unfold Descriptor.written
  dsimp only at hwrite ⊢
  split at hwrite
  · next happends =>
    obtain ⟨length, h₁, hcontent, hmove⟩ := run_bind_eq_ok hwrite
    obtain ⟨hn, old, hold, rfl, hfit, rfl⟩ := append_content_ok hcontent
    rw [run_bind_ok (setDescriptor_run ..)] at hmove
    cases hmove
    refine ⟨rfl, hn, old, hold, ?_⟩
    rw [if_pos happends]
    exact ⟨hfit, rfl⟩
  · next happends =>
    obtain ⟨k', h₁, hcontent, hmove⟩ := run_bind_eq_ok hwrite
    obtain ⟨-, hn, hfit, old, hold, rfl⟩ := writeAt_content_ok hcontent
    obtain ⟨stop, h₂, hadd, hset⟩ := run_bind_eq_ok hmove
    obtain ⟨hstop, rfl⟩ := ofChecked_ok hadd
    obtain rfl := Checked.add_ok hstop
    rw [run_bind_ok (setDescriptor_run ..)] at hset
    cases hset
    refine ⟨rfl, hn, old, hold, ?_⟩
    rw [if_neg happends]
    exact ⟨hfit, rfl⟩

/-- **A write** has changed the file or handed on text. -/
theorem write_ok {k : Nat} (hw : write fd data h = .ok k h') :
    k = data.length ∧ Written h fd data h' := by
  obtain ⟨d, hget, -, hwrite⟩ := permitted_ok hw
  cases htarget : d.target with
  | stdin | directory =>
    rw [htarget] at hwrite
    cases hwrite
  | stdout | stderr =>
    rw [htarget] at hwrite
    cases hwrite
    exact ⟨rfl, .stream rfl rfl rfl rfl⟩
  | file path n =>
    obtain ⟨hk, hn, old, hold, hfit, rfl⟩ := write_file_ok hget htarget hw
    exact ⟨hk, .file hget htarget hn hold rfl hfit⟩

theorem onContent_run {α : Type} {f : String → Bytes → Except (Failure FsError) (α × Bytes)}
    {old : Bytes} {a : α} (hn : h.tree.alive n = true) (hold : h.tree.content? n = some old)
    (hf : ∀ name, f name old = .ok (a, content)) :
    onContent n (FileTree.updateContent n f) h =
      .ok a { h with tree := h.tree.withContent n content } := by
  obtain ⟨⟨name, _⟩, hfile, rfl⟩ := Option.map_eq_some_iff.mp hold
  have htree : onTree (FileTree.updateContent n f) h =
      .ok (some a) { h with tree := h.tree.withContent n content } := by
    unfold onTree
    rw [FileTree.updateContent_run, hfile]
    dsimp only
    rw [hf]
  unfold onContent
  rw [run_bind_ok (requireAlive_run hn), run_bind_ok htree]
  rfl

/-- A write to a file goes through within the largest size. -/
theorem write_file_run {path : String} {old : Bytes} (hget : h.table.get? fd = some d)
    (hright : d.rights.contains .fdWrite = true) (htarget : d.target = .file path n)
    (hn : h.tree.alive n = true) (hold : h.tree.content? n = some old)
    (hfit : (d.written old data).2 ≤ Content.maxFileSize) :
    write fd data h = .ok data.length { h with
      tree := h.tree.withContent n (d.written old data).1
      table := h.table.put fd { d with cursor := (d.written old data).2 } } := by
  obtain ⟨target, cursor, rights, inheriting, flags⟩ := d
  cases htarget
  unfold Descriptor.written at hfit ⊢
  unfold write
  rw [permitted_run hget hright]
  dsimp only at hfit ⊢
  by_cases happends : flags.appends = true
  · rw [if_pos happends] at hfit
    rw [if_pos happends, if_pos happends]
    have hcontent : onContent n (FileTree.append n data) h = .ok (old.length + data.length)
        { h with tree := h.tree.withContent n (old ++ data) } :=
      onContent_run hn hold fun name => by rw [Content.append_eq, if_pos hfit]
    rw [run_bind_ok hcontent]
    rfl
  · rw [if_neg happends] at hfit
    rw [if_neg happends, if_neg happends]
    have hcontent : onContent n (FileTree.writeAt n cursor data) h = .ok data.length
        { h with tree := h.tree.withContent n (Content.overwritten old cursor data) } :=
      onContent_run hn hold fun name => by
        rw [Content.overwrite_eq, if_pos hfit]
        rfl
    rw [run_bind_ok hcontent, Checked.add_eq (Nat.lt_of_le_of_lt hfit (by decide))]
    rfl

/-- **A write at an offset** has changed the file behind the handle, within the largest size. -/
theorem writeAt_ok {k : Nat} (hw : writeAt fd data offset h = .ok k h') :
    ∃ d path n old, h.table.get? fd = some d ∧ d.target = .file path n ∧
      h.tree.content? n = some old ∧ offset + data.length ≤ Content.maxFileSize ∧
      h' = { h with tree := h.tree.withContent n (Content.overwritten old offset data) } := by
  obtain ⟨⟨target, cursor, rights, inheriting, flags⟩, hget, -, hwrite⟩ := permitted_ok hw
  cases target with
  | stdin | stdout | stderr | directory => cases hwrite
  | file path n =>
    obtain ⟨-, -, hfit, old, hold, rfl⟩ := writeAt_content_ok hwrite
    exact ⟨_, path, n, old, hget, rfl, hold, hfit, rfl⟩

/-! ### Seeking -/

theorem seekTarget_ok {base cursor : Nat} {offset : Int}
    (hs : seekTarget base offset = some cursor) :
    cursor ≤ maxOffset ∧ (cursor : Int) = base + offset := by
  unfold seekTarget at hs
  repeat' split at hs
  all_goals cases hs
  omega

/-- The cursor moves where it can, whatever it starts from. -/
theorem moveTo_ok {base : Nat} {offset : Int} {k : Nat}
    (hm : (match seekTarget base offset with
      | none => (fail .inval : HostM Nat)
      | some cursor => do
        setDescriptor fd { d with cursor := cursor }
        return cursor) h = .ok k h') :
    k ≤ maxOffset ∧ (k : Int) = base + offset ∧
      h' = { h with table := h.table.put fd { d with cursor := k } } := by
  cases htarget : seekTarget base offset with
  | none =>
    rw [htarget] at hm
    cases hm
  | some cursor =>
    rw [htarget] at hm
    dsimp only at hm
    rw [run_bind_ok (setDescriptor_run ..)] at hm
    cases hm
    obtain ⟨hle, hplace⟩ := seekTarget_ok htarget
    exact ⟨hle, hplace, rfl⟩

/-- **A seek** has moved the cursor of a file, perhaps to a place that counts from its end. -/
theorem seek_ok {offset : Int} {whence : Whence} {k : Nat}
    (hs : seek fd offset whence h = .ok k h') :
    ∃ d path n, h.table.get? fd = some d ∧ d.target = .file path n ∧ k ≤ maxOffset ∧
      (whence = .endOfFile → (k : Int) = h.tree.size n + offset) ∧
      h' = { h with table := h.table.put fd { d with cursor := k } } := by
  obtain ⟨⟨target, cursor, rights, inheriting, flags⟩, h₁, hd, hseek⟩ := run_bind_eq_ok hs
  obtain ⟨hget, rfl⟩ := descriptor_ok hd
  dsimp only at hseek
  cases target with
  | stdin | stdout | stderr | directory => cases hseek
  | file path n =>
    dsimp only at hseek
    obtain ⟨u, h₂, hu, hsize⟩ := run_bind_eq_ok hseek
    obtain ⟨-, rfl⟩ := requireAlive_ok hu
    rw [run_get_bind] at hsize
    obtain ⟨size, h₃, hpure, hmove⟩ := run_bind_eq_ok hsize
    cases hpure
    obtain ⟨hk, hplace, rfl⟩ := moveTo_ok (d := ⟨.file path n, cursor, rights, inheriting, flags⟩) hmove
    refine ⟨_, path, n, hget, rfl, hk, ?_, rfl⟩
    rintro rfl
    exact hplace

end Host

end WasiSandbox
