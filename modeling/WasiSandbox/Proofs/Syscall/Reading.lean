import WasiSandbox.Proofs.Descriptor.Reached
import WasiSandbox.Proofs.Memory.Buffers
import WasiSandbox.Proofs.Syscall.Paging
import WasiSandbox.Proofs.Syscall.Regions

/-! # Reading into buffers

Two system calls read into the buffers of the guest, one at the cursor and one at an offset (`ReadCall`).
The array of buffers and every buffer have to lie inside memory, or nothing happens but a fault. After that
the array is no longer looked at, so what is read may go over the array itself. If the buffers do not meet,
and the slot for the count does not meet them, the buffers hold what was read and then what they held before,
and the slot holds how much that was (`ReadCall.reads`). -/

namespace WasiSandbox

namespace Syscall

open Memory

variable {c : Caller} {m m' : Memory} {args : List Value} {i j : Nat} {p n out ptr count : UInt32}
  {α : Type} {e : SysFailure}

/-! ### Single steps -/

theorem onMemory_look {op : MemoryM α} {a : α} (hm : c.memory = some m) (hop : op m = .ok a m) :
    onMemory op c = .ok a c := by
  obtain ⟨memory, host⟩ := c
  cases hm
  exact onMemory_run rfl hop

theorem onMemory_refused {op : MemoryM α} (hm : c.memory = some m) (hop : op m = .error e m) :
    onMemory op c = .error e c := by
  obtain ⟨memory, host⟩ := c
  cases hm
  unfold onMemory
  dsimp only
  rw [hop]

theorem onHost_run {op : HostM α} {a : α} {h : Host} (hop : op c.host = .ok a h) :
    onHost op c = .ok a { c with host := h } := by
  unfold onHost
  rw [hop]

theorem word_run (h : wordAt? args i = some p) : word args i c = .ok p c := by
  unfold wordAt? at h
  unfold word
  cases hw : args[i]? with
  | none =>
    rw [hw] at h
    cases h
  | some v =>
    rw [hw] at h
    cases v <;> cases h
    rfl

/-- The buffers that the array at the pointer describes. -/
def buffersIn (m : Memory) (ptr count : UInt32) : List IoVec :=
  IoVec.decode (m.octetsAt ptr.toNat (8 * count.toNat))

theorem buffersAt_run (hp : wordAt? args i = some ptr) (hn : wordAt? args j = some count)
    (hm : c.memory = some m) (hcount : count.toNat < 1 <<< 29)
    (h : ptr.toNat + 8 * count.toNat ≤ m.size) :
    buffersAt args i j c = .ok (buffersIn m ptr count) c := by
  unfold buffersAt
  rw [run_bind_ok (word_run hp), run_bind_ok (word_run hn)]
  exact onMemory_look hm (iovecs_run hcount h)

theorem buffersAt_refused (hp : wordAt? args i = some ptr) (hn : wordAt? args j = some count)
    (hm : c.memory = some m) (hcount : count.toNat < 1 <<< 29)
    (h : ¬ ptr.toNat + 8 * count.toNat ≤ m.size) :
    buffersAt args i j c = .error (.reported .fault) c := by
  unfold buffersAt
  rw [run_bind_ok (word_run hp), run_bind_ok (word_run hn)]
  exact onMemory_refused hm (iovecs_error hcount h)

/-! ### The calls -/

/-- A system call that reads: at the cursor, or at an offset. -/
inductive ReadCall where
  | atCursor
  | atOffset (offset : UInt64)

namespace ReadCall

/-- The call with the handle, the array of buffers and the slot for the count. -/
def invoke (fd ptr count out : UInt32) : ReadCall → ImportM Outcome
  | .atCursor => run fdRead [.i32 fd, .i32 ptr, .i32 count, .i32 out]
  | .atOffset offset => run fdPread [.i32 fd, .i32 ptr, .i32 count, .i64 offset, .i32 out]

/-- Where the call starts to read through the descriptor. -/
def start (d : Descriptor) : ReadCall → Nat
  | .atCursor => d.cursor
  | .atOffset offset => offset.toNat

/-- The host when the call has read so many octets: only a read at the cursor moves it. -/
def after (h : Host) (fd : Nat) (d : Descriptor) (k : Nat) : ReadCall → Host
  | .atCursor => { h with table := h.table.put fd { d with cursor := d.cursor + k } }
  | .atOffset _ => h

/-- What the call reads through the descriptor: a file that is alive and may be read, or the standard
input from its cursor. -/
inductive Source (h : Host) (d : Descriptor) : ReadCall → Bytes → Prop where
  | file {call : ReadCall} {path : String} {n : NodeId} {content : Bytes} : d.target = .file path n →
      d.rights.contains .fdRead = true → h.tree.alive n = true → h.tree.content? n = some content →
      Source h d call content
  | input : d.target = .stdin → Source h d .atCursor h.table.stdin

/-- The array of buffers and every buffer lie inside memory. -/
def Fits (m : Memory) (ptr count : UInt32) : Prop :=
  ptr.toNat + 8 * count.toNat ≤ m.size ∧ m.Inside (buffersIn m ptr count)

/-- The buffers do not meet, and the slot for the count is inside memory and does not meet them. -/
structure Apart (m : Memory) (iovs : List IoVec) (out : UInt32) : Prop where
  buffers : (iovs.map IoVec.region).Pairwise Region.Disjoint
  inside : out.toNat + 4 ≤ m.size
  slot : ∀ v ∈ iovs, Region.Disjoint ⟨out.toNat, 4⟩ v.region

/-- Memory after `k` octets of `data` have been read into the buffers, and their count. -/
structure Delivers (iovs : List IoVec) (out : UInt32) (data : Bytes) (k : Nat) (m m' : Memory) : Prop where
  buffers : m'.gathered iovs = data.take k ++ (m.gathered iovs).drop k
  count : m'.octetsAt out.toNat 4 = littleEndian 4 k
  exact : ofLittleEndian (m'.octetsAt out.toNat 4) = k
  others : m.SameOutside (⟨out.toNat, 4⟩ :: iovs.map IoVec.region) m'

/-- The octets that the host hands over. -/
def look (fd length : Nat) : ReadCall → HostM Bytes
  | .atCursor => Host.read fd length
  | .atOffset offset => Host.readAt fd length offset.toNat

variable {call : ReadCall} {h : Host} {d : Descriptor} {bytes data : Bytes} {fd length : Nat}
  {iovs : List IoVec}

/-- **The host hands over** what there is from the start on, as far as it fits. -/
theorem look_run (hr : h.Regular) (hget : h.table.get? fd = some d) (hsource : Source h d call bytes)
    (hbytes : bytes.length < UInt64.size) (length : Nat) :
    call.look fd length h = .ok ((bytes.drop (call.start d)).take length)
      (call.after h fd d (min length (bytes.length - call.start d))) := by
  have hregular := hr fd d hget
  have hcursor := hregular.cursor
  cases call with
  | atCursor =>
    have hend : d.cursor + min length (bytes.drop d.cursor).length < UInt64.size := by
      rw [List.length_drop]
      omega
    have hread : ∀ ahead, h.Readable d ahead → ahead = bytes.drop d.cursor →
        d.rights.contains .fdRead = true → look fd length .atCursor h =
          .ok ((bytes.drop d.cursor).take length)
            (after h fd d (min length (bytes.length - d.cursor)) .atCursor) := by
      rintro ahead hahead rfl hright
      have hrun := Host.read_run hget hright hahead hend
      rwa [List.length_drop] at hrun
    cases hsource with
    | file htarget hright hn hcontent => exact hread _ (.file htarget hn hcontent) rfl hright
    | input htarget => exact hread _ (.input htarget) rfl (hregular.input htarget)
  | atOffset offset =>
    cases hsource with
    | file htarget hright hn hcontent =>
      have hlt := offset.toNat_lt
      have hend : offset.toNat + min length (bytes.length - offset.toNat) < UInt64.size := by
        unfold UInt64.size at *
        omega
      show Host.readAt fd length offset.toNat h = _
      unfold Host.readAt
      rw [Host.permitted_run hget hright, htarget]
      exact Host.readNode_run hn hcontent hend

/-- The slot and the buffers have room in memory together. -/
theorem Apart.room (hapart : Apart m iovs out) (hinside : m.Inside iovs) :
    4 + IoVec.total iovs ≤ m.size := by
  have hslot : ∀ r ∈ iovs.map IoVec.region, Region.Disjoint ⟨out.toNat, 4⟩ r := fun r hr => by
    obtain ⟨v, hv, rfl⟩ := List.mem_map.mp hr
    exact hapart.slot v hv
  have hends : ∀ r ∈ iovs.map IoVec.region, r.start + r.length ≤ m.size := fun r hr => by
    obtain ⟨v, hv, rfl⟩ := List.mem_map.mp hr
    exact hinside v hv
  have hregions := Region.sum_length_le (List.pairwise_cons.mpr ⟨hslot, hapart.buffers⟩)
    (List.forall_mem_cons.mpr ⟨hapart.inside, hends⟩)
  rwa [List.map_cons, List.sum_cons, ← IoVec.total_eq_sum_regions] at hregions

/-- **What was read is delivered** to buffers that do not meet, with its count. -/
theorem deliver_run (hm : c.memory = some m) (hsize : m.size ≤ UInt32.size) (hinside : m.Inside iovs)
    (hapart : Apart m iovs out) (hdata : data.length ≤ IoVec.total iovs) :
    ∃ m', (onMemory (scatter iovs data) >>= fun _ => onMemory (writeU32 out (.ofNat data.length))) c =
      .ok () { c with memory := some m' } ∧ Delivers iovs out data data.length m m' := by
  obtain ⟨m₁, hscatter⟩ := scatter_run hinside data
  have hscattered := gathered_scatter hinside hapart.buffers hdata hscatter
  have hfilled := scatter_outside hscatter
  have hroom := hapart.room hinside
  have hslot : out.toNat + 4 ≤ m₁.size := by
    rw [hfilled.size]
    exact hapart.inside
  -- As there is room for the slot, the count fits it.
  have hword : (UInt32.ofNat data.length).toNat = data.length :=
    UInt32.toNat_ofNat_of_lt' (by omega)
  have hwrite := writeU32_run hslot (.ofNat data.length)
  rw [hword] at hwrite
  have hcounted : m₁.SameOutside [⟨out.toNat, 4⟩] (m₁.pasted out.toNat (littleEndian 4 data.length)) :=
    sameOutside_pasted (List.mem_singleton_self _) (Nat.le_refl _) (by rw [length_littleEndian])
  have hcount := octetsAt_word hslot data.length
  refine ⟨m₁.pasted out.toNat (littleEndian 4 data.length),
    (run_bind_ok (onMemory_run hm hscatter)).trans (onMemory_run rfl hwrite), ?_, hcount, ?_, ?_⟩
  · have hheld : (m₁.pasted out.toNat (littleEndian 4 data.length)).gathered iovs = m₁.gathered iovs :=
      hcounted.gathered_eq fun v hv r hr => by
        rw [List.mem_singleton.mp hr]
        exact (hapart.slot v hv).symm
    rw [hheld, hscattered, List.take_length]
  · rw [hcount, ofLittleEndian_littleEndian]
    exact Nat.lt_of_lt_of_le (show data.length < UInt32.size by omega) (by decide)
  · exact (hfilled.mono fun r hr => List.mem_cons_of_mem _ hr).trans
      (hcounted.mono fun r hr => List.mem_cons.mpr (Or.inl (List.mem_singleton.mp hr)))

/-- What a call that reads does, part by part. -/
theorem invoke_eq (call : ReadCall) (fd ptr count out : UInt32) :
    ∃ args body, call.invoke fd ptr count out = run body args ∧ wordAt? args 1 = some ptr ∧
      wordAt? args 2 = some count ∧ body args = (do
        requireMemory
        let iovs ← buffersAt args 1 2
        onMemory (requireIovecs iovs)
        let data ← onHost (call.look fd.toNat (IoVec.capacity iovs))
        onMemory (scatter iovs data)
        onMemory (writeU32 out (.ofNat data.length))) := by
  cases call with
  | atCursor => exact ⟨_, _, rfl, rfl, rfl, rfl⟩
  | atOffset offset => exact ⟨_, _, rfl, rfl, rfl, rfl⟩

/-- If something lies outside memory, there is a fault before the handle is looked at. -/
theorem invoke_faults (call : ReadCall) (fd out : UInt32) (hm : c.memory = some m)
    (hcount : count.toNat < 1 <<< 29) (hout : ¬ Fits m ptr count) :
    call.invoke fd ptr count out c = .ok (answer .fault) c := by
  obtain ⟨args, body, hinvoke, hptr, hn, hbody⟩ := call.invoke_eq fd ptr count out
  have hfault : body args c = .error (.reported .fault) c := by
    rw [hbody, run_bind_ok (requireMemory_run hm)]
    by_cases harray : ptr.toNat + 8 * count.toNat ≤ m.size
    · have hbuffer : ¬ m.Inside (buffersIn m ptr count) := fun hinside => hout ⟨harray, hinside⟩
      rw [run_bind_ok (buffersAt_run hptr hn hm hcount harray),
        run_bind_error (onMemory_refused hm (requireIovecs_error hbuffer))]
    · rw [run_bind_error (buffersAt_refused hptr hn hm hcount harray)]
  rw [hinvoke]
  unfold run
  rw [hfault]

/-- Otherwise what can be read is delivered, as much as there is and as fits. -/
theorem invoke_delivers (hhost : c.host.Reached) (hm : c.memory = some m) (hsize : m.size ≤ UInt32.size)
    (hcount : count.toNat < 1 <<< 29) (hfits : Fits m ptr count)
    (hapart : Apart m (buffersIn m ptr count) out) {fd : UInt32}
    (hget : c.host.table.get? fd.toNat = some d) (hsource : Source c.host d call bytes)
    (hbytes : bytes.length < UInt64.size) :
    ∃ k m', k = min (IoVec.total (buffersIn m ptr count)) (bytes.length - call.start d) ∧
      call.invoke fd ptr count out c =
        .ok (answer .success) ⟨some m', call.after c.host fd.toNat d k⟩ ∧
      Delivers (buffersIn m ptr count) out (bytes.drop (call.start d)) k m m' := by
  obtain ⟨args, body, hinvoke, hptr, hn, hbody⟩ := call.invoke_eq fd ptr count out
  obtain ⟨harray, hinside⟩ := hfits
  have hroom := hapart.room hinside
  have hcapacity : IoVec.capacity (buffersIn m ptr count) = IoVec.total (buffersIn m ptr count) := by
    rw [IoVec.capacity_eq]
    exact Nat.min_eq_left (Nat.le_trans (by omega) (show UInt32.size ≤ UInt64.size - 1 by decide))
  have hlook := look_run hhost.regular hget hsource hbytes (IoVec.total (buffersIn m ptr count))
  generalize hk : min (IoVec.total (buffersIn m ptr count)) (bytes.length - call.start d) = k at hlook
  generalize hdata : (bytes.drop (call.start d)).take (IoVec.total (buffersIn m ptr count)) = data
    at hlook
  have hlength : data.length = k := by
    rw [← hdata, ← hk, List.length_take, List.length_drop]
  have hfront : data = (bytes.drop (call.start d)).take k := by
    rw [← hdata, ← hk, ← List.length_drop, ← List.take_eq_take_min]
  have hfits : data.length ≤ IoVec.total (buffersIn m ptr count) := by omega
  let read : Caller := { c with host := call.after c.host fd.toNat d k }
  have hm' : read.memory = some m := hm
  obtain ⟨m', hrun, hdelivers⟩ := deliver_run hm' hsize hinside hapart hfits
  have hsuccess : body args c = .ok () ⟨some m', call.after c.host fd.toNat d k⟩ := by
    rw [hbody, run_bind_ok (requireMemory_run hm), run_bind_ok (buffersAt_run hptr hn hm hcount harray),
      run_bind_ok (onMemory_look hm (requireIovecs_run hinside)), hcapacity, run_bind_ok (onHost_run hlook)]
    exact hrun
  refine ⟨k, m', rfl, ?_, ?_⟩
  · rw [hinvoke]
    unfold run
    rw [hsuccess]
  · obtain ⟨hbuffers, hcounted, hexact, hothers⟩ := hdelivers
    rw [List.take_length, hlength, hfront] at hbuffers
    rw [hlength] at hcounted hexact
    exact ⟨hbuffers, hcounted, hexact, hothers⟩

/-- What comes of a call that reads. -/
structure Reads (call : ReadCall) (fd ptr count out : UInt32) (c : Caller) (m : Memory) : Prop where
  /-- If something of the array or of the buffers lies outside memory, there is a fault and nothing else,
  whatever the handle. -/
  fault : ¬ Fits m ptr count → call.invoke fd ptr count out c = .ok (answer .fault) c
  /-- Otherwise the call succeeds on what can be read, and delivers as much as there is and as fits. No source
  is longer than a word of 64 bits can say. -/
  success : ∀ d bytes, Fits m ptr count → Apart m (buffersIn m ptr count) out →
    c.host.table.get? fd.toNat = some d → Source c.host d call bytes → bytes.length < UInt64.size →
    ∃ k m', k = min (IoVec.total (buffersIn m ptr count)) (bytes.length - call.start d) ∧
      call.invoke fd ptr count out c =
        .ok (answer .success) ⟨some m', call.after c.host fd.toNat d k⟩ ∧
      Delivers (buffersIn m ptr count) out (bytes.drop (call.start d)) k m m'

/-- **A call that reads fills the buffers in order**, in every memory that words of 32 bits address and on
every host that there is. -/
theorem reads (call : ReadCall) (fd ptr count out : UInt32) (hhost : c.host.Reached)
    (hm : c.memory = some m) (hsize : m.size ≤ UInt32.size) (hcount : count.toNat < 1 <<< 29) :
    call.Reads fd ptr count out c m where
  fault hout := call.invoke_faults fd out hm hcount hout
  success _ _ hfits hapart hget hsource hbytes :=
    invoke_delivers hhost hm hsize hcount hfits hapart hget hsource hbytes

/-- A memory whose first eight octets describe one buffer: themselves. -/
def overlay : Memory := ⟨#[0, 0, 0, 0, 8, 0, 0, 0, 0, 0, 0, 0, 0, 0, 0, 0]⟩

/-- A caller with that memory, and with nine octets on standard input. -/
def overlaid : Caller := ⟨some overlay, .bare .empty [1, 2, 3, 4, 5, 6, 7, 8, 9]⟩

/-- What is read goes over the array, and is counted behind it. -/
theorem overlaid_read : ∃ m host, run fdRead [.i32 0, .i32 0, .i32 1, .i32 8] overlaid =
      .ok (answer .success) ⟨some m, host⟩ ∧
    m.octetsAt 0 8 = [1, 2, 3, 4, 5, 6, 7, 8] ∧ m.octetsAt 8 4 = [8, 0, 0, 0] ∧
    (host.table.get? 0).map (·.cursor) = some 8 := by
  have hhost : overlaid.host.Reached := .start [] _ _
  have hbuffers : buffersIn overlay 0 1 = [⟨0, 8⟩] := by decide
  have hfits : Fits overlay 0 1 := by
    refine ⟨by decide, ?_⟩
    rw [hbuffers]
    decide
  have hapart : Apart overlay (buffersIn overlay 0 1) 8 := by
    rw [hbuffers]
    refine ⟨List.pairwise_singleton .., by decide, fun v hv a hcount hbuffer => ?_⟩
    rw [List.mem_singleton.mp hv] at hbuffer
    exact Nat.not_lt_of_le hcount.1 hbuffer.2
  have hreads := reads .atCursor 0 0 1 8 hhost (m := overlay) rfl (by decide) (by decide)
  obtain ⟨k, m', hk, hrun, hdelivers⟩ :=
    hreads.success _ [1, 2, 3, 4, 5, 6, 7, 8, 9] hfits hapart rfl (.input rfl) (by decide)
  rw [hbuffers] at hk hdelivers
  obtain rfl : k = 8 := hk
  refine ⟨m', _, hrun, ?_, hdelivers.count, rfl⟩
  have hheld := hdelivers.buffers
  rwa [gathered_cons, show m'.gathered [] = [] from rfl, List.append_nil] at hheld

end ReadCall

end Syscall

end WasiSandbox
