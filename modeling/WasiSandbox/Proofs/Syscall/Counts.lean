import WasiSandbox.Proofs.Syscall.Output
import WasiSandbox.Proofs.Syscall.Reading
import WasiSandbox.Proofs.Syscall.Success

/-! # How much was transferred

Four system calls transfer data between the buffers of the guest and the host, and write down in a slot of
four octets how much it was (`TransferCall`). Buffers may overlap and may stand in the array more than once,
so there can be more to transfer than memory holds. If such a call succeeds, and the number of the octets
that it has moved fits the slot, then this is the number in the slot (`TransferCall.counted`). It always fits
for what is written to a file. A read at the cursor moves the cursor by the same number, and a read at an
offset does not move it. What passes the streams may be more than the slot can hold, and is counted wrong then
(`TransferCall.count_astray`). -/

namespace WasiSandbox

/-! ### The host -/

namespace Host

variable {h h' : Host} {fd offset k : Nat} {data : Bytes}

/-- A file is open under the handle. -/
def OpenOnFile (h : Host) (fd : Nat) : Prop :=
  ∃ d path n, h.table.get? fd = some d ∧ d.target = .file path n

theorem writeAt_count (hw : writeAt fd data offset h = .ok k h') : k = data.length := by
  obtain ⟨⟨target, cursor, rights, inheriting, flags⟩, -, -, hwrite⟩ := permitted_ok hw
  cases target with
  | stdin | stdout | stderr | directory => cases hwrite
  | file path n => exact (writeAt_content_ok hwrite).1

end Host

namespace Syscall

open Memory

variable {c c' : Caller} {m m' : Memory} {args : List Value} {i j : Nat} {out ptr count : UInt32}
  {α : Type}

/-! ### Single steps -/

/-- Behind the buffers, the call goes on with those that the array describes. -/
theorem buffersIn_ok {rest : List IoVec → SyscallM α} {a : α} (hp : wordAt? args i = some ptr)
    (hn : wordAt? args j = some count)
    (h : (requireMemory >>= fun _ => buffersAt args i j >>= rest) c = .ok a c') :
    ∃ m, c.memory = some m ∧ count.toNat < 1 <<< 29 ∧ rest (buffersIn m ptr count) c = .ok a c' := by
  obtain ⟨u, c₁, hmemory, hrest⟩ := run_bind_eq_ok h
  obtain ⟨m, -, hm, -, -⟩ := onMemory_ok hmemory
  rw [requireMemory_run hm] at hmemory
  cases hmemory
  obtain ⟨iovs, c₂, hiovs, hrest⟩ := run_bind_eq_ok hrest
  unfold buffersAt at hiovs
  rw [run_bind_ok (word_run hp), run_bind_ok (word_run hn)] at hiovs
  obtain ⟨m₁, m₂, hm₁, hop, rfl⟩ := onMemory_ok hiovs
  obtain rfl : m₁ = m := Option.some.inj (hm₁.symm.trans hm)
  obtain ⟨rfl, hcount, rfl⟩ := iovecs_ok hop
  refine ⟨m₂, hm, hcount, ?_⟩
  rwa [← hm] at hrest

/-- The slot holds the number up to the size of its word. -/
theorem writeCount_ok {n : Nat} {u : Unit} (h : onMemory (writeU32 out (.ofNat n)) c = .ok u c') :
    ∃ m', c'.memory = some m' ∧ c'.host = c.host ∧
      ofLittleEndian (m'.octetsAt out.toNat 4) = n % UInt32.size := by
  obtain ⟨m, m', -, hop, rfl⟩ := onMemory_ok h
  obtain ⟨hslot, rfl⟩ := writeU32_ok hop
  refine ⟨_, rfl, rfl, ?_⟩
  have hword : (UInt32.ofNat n).toNat = n % UInt32.size := UInt32.toNat_ofNat'
  have hlt : n % UInt32.size < 1 <<< (8 * 4) := Nat.mod_lt n (by decide)
  rw [octetsAt_word hslot, hword, ofLittleEndian_littleEndian hlt]

/-- As the array has so few buffers, all that fits into them can be counted. -/
theorem capacity_buffersIn (m : Memory) (ptr : UInt32) (hcount : count.toNat < 1 <<< 29) :
    IoVec.capacity (buffersIn m ptr count) = IoVec.total (buffersIn m ptr count) := by
  have hlength : 8 * (buffersIn m ptr count).length ≤ (m.octetsAt ptr.toNat (8 * count.toNat)).length :=
    IoVec.length_decode_le _
  have hoctets : (m.octetsAt ptr.toNat (8 * count.toNat)).length ≤ 8 * count.toNat := by
    unfold octetsAt
    exact List.length_take_le ..
  have htotal := IoVec.total_le (buffersIn m ptr count)
  have hfew : (buffersIn m ptr count).length * (UInt32.size - 1) ≤ (1 <<< 29) * (UInt32.size - 1) :=
    Nat.mul_le_mul_right _ (by omega)
  rw [IoVec.capacity_eq]
  exact Nat.min_eq_left (Nat.le_trans htotal (Nat.le_trans hfew (by decide)))

/-- What a call that takes from the host has done. -/
theorem takes_ok (look : Nat → HostM Bytes) (out : UInt32) {u : Unit} (hp : wordAt? args i = some ptr)
    (hn : wordAt? args j = some count) (h : (do
      requireMemory
      let iovs ← buffersAt args i j
      onMemory (requireIovecs iovs)
      let data ← onHost (look (IoVec.capacity iovs))
      onMemory (scatter iovs data)
      onMemory (writeU32 out (.ofNat data.length))) c = .ok u c') :
    ∃ m m' data, c.memory = some m ∧ c'.memory = some m' ∧ m.Inside (buffersIn m ptr count) ∧
      look (IoVec.total (buffersIn m ptr count)) c.host = .ok data c'.host ∧
      ofLittleEndian (m'.octetsAt out.toNat 4) = data.length % UInt32.size := by
  obtain ⟨m, hm, hcount, hrest⟩ := buffersIn_ok hp hn h
  obtain ⟨u₁, c₁, hinside, hrest⟩ := run_bind_eq_ok hrest
  obtain ⟨m₁, m₂, hm₁, hop, rfl⟩ := onMemory_ok hinside
  obtain rfl : m₁ = m := Option.some.inj (hm₁.symm.trans hm)
  obtain ⟨data, c₂, hlook, hrest⟩ := run_bind_eq_ok hrest
  obtain ⟨h', hread, rfl⟩ := onHost_ok hlook
  obtain ⟨u₂, c₃, hscatter, hwrite⟩ := run_bind_eq_ok hrest
  obtain ⟨-, m₃, -, -, rfl⟩ := onMemory_ok hscatter
  obtain ⟨m', hm', hhost, hslot⟩ := writeCount_ok hwrite
  rw [capacity_buffersIn m₁ ptr hcount] at hread
  rw [hhost]
  exact ⟨m₁, m', data, hm, hm', requireIovecs_ok hop, hread, hslot⟩

/-- What a call that gives to the host has done. -/
theorem gives_ok (give : Bytes → HostM Nat) (out : UInt32) {u : Unit} (hp : wordAt? args i = some ptr)
    (hn : wordAt? args j = some count) (h : (do
      requireMemory
      let iovs ← buffersAt args i j
      let data ← onMemory (gather iovs)
      let k ← onHost (give data)
      onMemory (writeU32 out (.ofNat k))) c = .ok u c') :
    ∃ m m' k, c.memory = some m ∧ c'.memory = some m' ∧ m.Inside (buffersIn m ptr count) ∧
      give (m.gathered (buffersIn m ptr count)) c.host = .ok k c'.host ∧
      ofLittleEndian (m'.octetsAt out.toNat 4) = k % UInt32.size := by
  obtain ⟨m, hm, -, hrest⟩ := buffersIn_ok hp hn h
  obtain ⟨data, c₁, hgather, hrest⟩ := run_bind_eq_ok hrest
  obtain ⟨m₁, m₂, hm₁, hop, rfl⟩ := onMemory_ok hgather
  obtain rfl : m₁ = m := Option.some.inj (hm₁.symm.trans hm)
  obtain ⟨rfl, hinside, rfl⟩ := gather_ok hop
  obtain ⟨k, c₂, hgive, hwrite⟩ := run_bind_eq_ok hrest
  obtain ⟨h', hgiven, rfl⟩ := onHost_ok hgive
  obtain ⟨m', hm', hhost, hslot⟩ := writeCount_ok hwrite
  rw [hhost]
  exact ⟨m₂, m', k, hm, hm', hinside, hgiven, hslot⟩

/-! ### The calls -/

/-- A system call that transfers data: from the host or to it, at the cursor or at an offset. -/
inductive TransferCall where
  | read
  | readAt (offset : UInt64)
  | write
  | writeAt (offset : UInt64)

namespace TransferCall

/-- What the call does with its arguments. -/
def body : TransferCall → List Value → SyscallM Unit
  | .read => fdRead
  | .readAt _ => fdPread
  | .write => fdWrite
  | .writeAt _ => fdPwrite

/-- The handle, the array of buffers and the slot for the count, and the offset if there is one. -/
def arguments (fd ptr count out : UInt32) : TransferCall → List Value
  | .read | .write => [.i32 fd, .i32 ptr, .i32 count, .i32 out]
  | .readAt offset | .writeAt offset => [.i32 fd, .i32 ptr, .i32 count, .i64 offset, .i32 out]

/-- The call with its arguments. -/
def invoke (call : TransferCall) (fd ptr count out : UInt32) : ImportM Outcome :=
  run call.body (call.arguments fd ptr count out)

/-- The call writes to a file. -/
def ToFile (h : Host) (fd : Nat) : TransferCall → Prop
  | .read | .readAt _ => False
  | .write | .writeAt _ => h.OpenOnFile fd

/-- What the call moves, and the host behind it. A read takes as much as there is and as there is room for,
and a write gives all that the buffers hold. -/
inductive Moves (h : Host) (fd room : Nat) (held : Bytes) : TransferCall → Bytes → Host → Prop where
  /-- From a file or the standard input; the cursor goes as far. -/
  | taken {d : Descriptor} {ahead data : Bytes} : h.table.get? fd = some d → h.Readable d ahead →
      data = ahead.take room → Moves h fd room held .read data
        { h with table := h.table.put fd { d with cursor := d.cursor + data.length } }
  /-- From a file; the cursor stays. -/
  | takenAt {d : Descriptor} {path : String} {n : NodeId} {content data : Bytes} {offset : UInt64} :
      h.table.get? fd = some d → d.target = .file path n → h.tree.content? n = some content →
      data = (content.drop offset.toNat).take room → Moves h fd room held (.readAt offset) data h
  /-- To a file; the cursor goes behind what was written. -/
  | given {d : Descriptor} {path : String} {n : NodeId} {old : Bytes} : h.table.get? fd = some d →
      d.target = .file path n → h.tree.content? n = some old → Moves h fd room held .write held
        { h with
          tree := h.tree.withContent n (d.written old held).1
          table := h.table.put fd { d with cursor := (d.written old held).2 } }
  /-- To an output stream. -/
  | handed {channel : Channel} {h' : Host} : h.table.writesTo fd channel = true →
      h.Fed (h.feedsOf fd held) h' → Moves h fd room held .write held h'
  /-- To a file; the cursor stays. -/
  | givenAt {d : Descriptor} {path : String} {n : NodeId} {old : Bytes} {offset : UInt64} :
      h.table.get? fd = some d → d.target = .file path n → h.tree.content? n = some old →
      Moves h fd room held (.writeAt offset) held
        { h with tree := h.tree.withContent n (Content.overwritten old offset.toNat held) }

/-- The call has moved the data, and has counted it. -/
structure Counts (call : TransferCall) (fd : Nat) (iovs : List IoVec) (out : UInt32) (c c' : Caller)
    (m m' : Memory) (data : Bytes) : Prop where
  inside : m.Inside iovs
  moves : call.Moves c.host fd (IoVec.total iovs) (m.gathered iovs) data c'.host
  /-- The slot holds how much that was, as far as a word can say it. -/
  word : ofLittleEndian (m'.octetsAt out.toNat 4) = data.length % UInt32.size
  /-- That is all of it if it fits, and it does if the data went to a file. -/
  exact : data.length < UInt32.size ∨ call.ToFile c.host fd →
    ofLittleEndian (m'.octetsAt out.toNat 4) = data.length

variable {call : TransferCall} {h h' : Host} {fd room k : Nat} {held data : Bytes}

theorem failsNonzero_body (call : TransferCall) (args : List Value) : FailsNonzero (call.body args) := by
  cases call with
  | read => exact failsNonzero_fdRead args
  | readAt offset => exact failsNonzero_fdPread args
  | write => exact failsNonzero_fdWrite args
  | writeAt offset => exact failsNonzero_fdPwrite args

/-- What is written is given to a file or handed to a stream, as a whole. -/
theorem write_moves (hw : Host.write fd held h = .ok k h') :
    k = held.length ∧ Moves h fd room held .write held h' := by
  have hcount := (Host.write_ok hw).1
  have hfed := Host.fed_write h fd held
  rw [hw] at hfed
  obtain ⟨d, hget, hright, hwrite⟩ := Host.permitted_ok hw
  cases htarget : d.target with
  | stdin | directory =>
    rw [htarget] at hwrite
    cases hwrite
  | stdout =>
    have hstream : h.table.writesTo fd .stdout = true :=
      DescriptorTable.writesTo_iff.mpr ⟨d, hget, hright, htarget⟩
    exact ⟨hcount, .handed hstream hfed⟩
  | stderr =>
    have hstream : h.table.writesTo fd .stderr = true :=
      DescriptorTable.writesTo_iff.mpr ⟨d, hget, hright, htarget⟩
    exact ⟨hcount, .handed hstream hfed⟩
  | file path n =>
    obtain ⟨-, -, old, hold, -, rfl⟩ := Host.write_file_ok hget htarget hw
    exact ⟨hcount, .given hget htarget hold⟩

/-- The data of a write to a file fits the file, and so its length fits a word. -/
theorem length_lt_of_written {d : Descriptor} {old : Bytes}
    (hfit : (d.written old data).2 ≤ Content.maxFileSize) : data.length < UInt32.size := by
  have hle : data.length ≤ (d.written old data).2 := by
    unfold Descriptor.written
    split <;> exact Nat.le_add_left ..
  exact Nat.lt_of_le_of_lt (Nat.le_trans hle hfit) (by decide)

theorem write_file_lt (hfile : h.OpenOnFile fd) (hw : Host.write fd data h = .ok k h') :
    data.length < UInt32.size := by
  obtain ⟨d, path, n, hget, htarget⟩ := hfile
  obtain ⟨-, -, old, -, hfit, -⟩ := Host.write_file_ok hget htarget hw
  exact length_lt_of_written hfit

/-- **The count is exact** if it fits its slot: whenever a call succeeds, it has moved as much as it says. What
is stored is always the number of the octets that were moved, cut to a word; so it says too little when 4 GiB
or more come from the standard input or go to an output stream. -/
theorem counted (call : TransferCall) (fd ptr count out : UInt32)
    (hrun : call.invoke fd ptr count out c = .ok (answer .success) c') :
    ∃ m m' data, c.memory = some m ∧ c'.memory = some m' ∧
      call.Counts fd.toNat (buffersIn m ptr count) out c c' m m' data := by
  have hbody := run_success (call.failsNonzero_body _) hrun
  cases call with
  | read =>
    obtain ⟨m, m', data, hm, hm', hinside, hread, hslot⟩ :=
      takes_ok (Host.read fd.toNat) out rfl rfl hbody
    obtain ⟨d, ahead, hget, -, hahead, -, hdata, hh'⟩ := Host.read_ok hread
    refine ⟨m, m', data, hm, hm', hinside, ?_, hslot, fun hfits => ?_⟩
    · rw [hh']
      exact .taken hget hahead hdata
    · rw [hslot, Nat.mod_eq_of_lt (hfits.resolve_right id)]
  | readAt offset =>
    obtain ⟨m, m', data, hm, hm', hinside, hread, hslot⟩ :=
      takes_ok (fun length => Host.readAt fd.toNat length offset.toNat) out rfl rfl hbody
    obtain ⟨hh', d, path, n, content, hget, htarget, hcontent, hdata⟩ := Host.readAt_ok hread
    refine ⟨m, m', data, hm, hm', hinside, ?_, hslot, fun hfits => ?_⟩
    · rw [hh']
      exact .takenAt hget htarget hcontent hdata
    · rw [hslot, Nat.mod_eq_of_lt (hfits.resolve_right id)]
  | write =>
    obtain ⟨m, m', k, hm, hm', hinside, hwrite, hslot⟩ :=
      gives_ok (Host.write fd.toNat) out rfl rfl hbody
    obtain ⟨rfl, hmoves⟩ := write_moves hwrite
    refine ⟨m, m', m.gathered (buffersIn m ptr count), hm, hm', hinside, hmoves, hslot,
      fun hfits => ?_⟩
    rw [hslot, Nat.mod_eq_of_lt (hfits.elim id fun hfile => write_file_lt hfile hwrite)]
  | writeAt offset =>
    obtain ⟨m, m', k, hm, hm', hinside, hwrite, hslot⟩ :=
      gives_ok (fun data => Host.writeAt fd.toNat data offset.toNat) out rfl rfl hbody
    obtain rfl := Host.writeAt_count hwrite
    obtain ⟨d, path, n, old, hget, htarget, hcontent, hfit, hh'⟩ := Host.writeAt_ok hwrite
    have hlt : (m.gathered (buffersIn m ptr count)).length < UInt32.size :=
      Nat.lt_of_le_of_lt (Nat.le_trans (Nat.le_add_left ..) hfit) (by decide)
    refine ⟨m, m', m.gathered (buffersIn m ptr count), hm, hm', hinside, ?_, hslot, fun _ => ?_⟩
    · rw [hh']
      exact .givenAt hget htarget hcontent
    · rw [hslot, Nat.mod_eq_of_lt hlt]

/-- A memory whose array describes the same three octets twice. -/
def twofold : Memory :=
  ⟨#[24, 0, 0, 0, 3, 0, 0, 0, 24, 0, 0, 0, 3, 0, 0, 0, 0, 0, 0, 0, 0, 0, 0, 0, 97, 98, 99]⟩

/-- A caller with that memory. -/
def repeating : Caller := ⟨some twofold, .bare .empty []⟩

/-- The octets are written twice, and counted twice. -/
theorem repeating_counted : ∃ c' m', write.invoke 1 0 2 16 repeating = .ok (answer .success) c' ∧
    c'.memory = some m' ∧ ofLittleEndian (m'.octetsAt 16 4) = 6 ∧
    repeating.host.Fed (repeating.host.feedsOf 1 [97, 98, 99, 97, 98, 99]) c'.host := by
  have hrun : ∃ c', write.invoke 1 0 2 16 repeating = .ok (answer .success) c' := ⟨_, rfl⟩
  obtain ⟨c', hrun⟩ := hrun
  obtain ⟨m, m', data, hm, hm', -, hmoves, -, hexact⟩ := counted write 1 0 2 16 hrun
  cases hm
  have hheld : twofold.gathered (buffersIn twofold 0 2) = [97, 98, 99, 97, 98, 99] := by decide
  rw [hheld] at hmoves
  generalize hleft : c'.host = h' at hmoves
  cases hmoves with
  | given hget htarget =>
    cases hget
    cases htarget
  | handed _ hfed =>
    rw [← hleft] at hfed
    exact ⟨c', m', hrun, hm', hexact (Or.inl (by decide)), hfed⟩

/-! ### Where the count goes astray -/

/-- A write goes through if the host takes what the buffers hold, and the slot gets the number as far as a word
can say it. -/
theorem write_run (fd ptr count out : UInt32) {h' : Host} (hm : c.memory = some m)
    (hcount : count.toNat < 1 <<< 29) (harray : ptr.toNat + 8 * count.toNat ≤ m.size)
    (hinside : m.Inside (buffersIn m ptr count)) (hslot : out.toNat + 4 ≤ m.size)
    (hwrite : Host.write fd.toNat (m.gathered (buffersIn m ptr count)) c.host = .ok k h') :
    write.invoke fd ptr count out c = .ok (answer .success)
      ⟨some (m.pasted out.toNat (littleEndian 4 (k % UInt32.size))), h'⟩ := by
  have hword : (UInt32.ofNat k).toNat = k % UInt32.size := UInt32.toNat_ofNat'
  have hstore := writeU32_run hslot (.ofNat k)
  rw [hword] at hstore
  have hbody : fdWrite [.i32 fd, .i32 ptr, .i32 count, .i32 out] = (do
      requireMemory
      let iovs ← buffersAt [.i32 fd, .i32 ptr, .i32 count, .i32 out] 1 2
      let data ← onMemory (gather iovs)
      let k ← onHost (Host.write fd.toNat data)
      onMemory (writeU32 out (.ofNat k))) := rfl
  have hrun : fdWrite [.i32 fd, .i32 ptr, .i32 count, .i32 out] c =
      .ok () ⟨some (m.pasted out.toNat (littleEndian 4 (k % UInt32.size))), h'⟩ := by
    rw [hbody, run_bind_ok (requireMemory_run hm), run_bind_ok (buffersAt_run rfl rfl hm hcount harray),
      run_bind_ok (onMemory_look hm (gather_run hinside)), run_bind_ok (onHost_run hwrite)]
    exact onMemory_run hm hstore
  show run fdWrite [.i32 fd, .i32 ptr, .i32 count, .i32 out] c = _
  unfold run
  rw [hrun]

/-- A memory of 2 GiB whose array describes all of it twice. -/
def vast : Memory :=
  (Memory.filled (1 <<< 31) 0).pasted 0 [0, 0, 0, 0, 0, 0, 0, 128, 0, 0, 0, 0, 0, 0, 0, 128]

theorem size_vast : vast.size = 1 <<< 31 := by
  unfold vast
  rw [size_pasted]
  exact Array.size_replicate

theorem buffersIn_vast : buffersIn vast 0 2 = [⟨0, 0x80000000⟩, ⟨0, 0x80000000⟩] := by
  have hfit : 0 + [0, 0, 0, 0, 0, 0, 0, 128, 0, 0, 0, 0, 0, 0, 0, (128 : UInt8)].length ≤
      (Memory.filled (1 <<< 31) 0).size := by
    rw [show (Memory.filled (1 <<< 31) 0).size = 1 <<< 31 from Array.size_replicate]
    decide
  have hoctets : vast.octetsAt 0 16 = _ := octetsAt_pasted hfit
  show IoVec.decode (vast.octetsAt 0 16) = _
  rw [hoctets]
  decide

theorem inside_vast : vast.Inside (buffersIn vast 0 2) := by
  rw [buffersIn_vast]
  intro v hv
  have hv : v = ⟨0, 0x80000000⟩ := by simpa using hv
  rw [hv, size_vast]
  decide

theorem length_gathered_vast : (vast.gathered (buffersIn vast 0 2)).length = 4294967296 := by
  rw [length_gathered inside_vast, buffersIn_vast]
  rfl

/-- A guest with that memory. -/
def pouring : Caller := ⟨some vast, .bare .empty []⟩

/-- 4 GiB go to the standard output, the call answers that it has succeeded, and the slot says that nothing was
written. -/
theorem count_astray : ∃ c' m' data, write.invoke 1 0 2 16 pouring = .ok (answer .success) c' ∧
    c'.memory = some m' ∧ pouring.host.table.writesTo 1 .stdout = true ∧
    pouring.host.Fed (pouring.host.feedsOf 1 data) c'.host ∧
    data.length = 4294967296 ∧ ofLittleEndian (m'.octetsAt 16 4) = 0 := by
  have hget : pouring.host.table.get? 1 =
      some (.ofStream .stdout (Rights.fdWrite.union .pollFdReadwrite)) := rfl
  have hwrite := Host.write_output_run hget rfl rfl (vast.gathered (buffersIn vast 0 2))
  have hfed := Host.fed_write pouring.host 1 (vast.gathered (buffersIn vast 0 2))
  rw [hwrite] at hfed
  rw [length_gathered_vast] at hwrite
  have harray : (0 : UInt32).toNat + 8 * (2 : UInt32).toNat ≤ vast.size := by
    rw [size_vast]
    decide
  have hslot : (16 : UInt32).toNat + 4 ≤ vast.size := by
    rw [size_vast]
    decide
  have hrun := write_run 1 0 2 16 rfl (by decide) harray inside_vast hslot hwrite
  -- The number is that of all words, so the word in the slot is the first of them again.
  have hcount : ofLittleEndian ((vast.pasted 16 (littleEndian 4 0)).octetsAt 16 4) = 0 :=
    congrArg ofLittleEndian (octetsAt_word hslot 0)
  exact ⟨_, _, _, hrun, rfl, by decide, hfed, length_gathered_vast, hcount⟩

end TransferCall

end Syscall

end WasiSandbox
