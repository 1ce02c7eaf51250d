import WasiSandbox.Output.Stream
import WasiSandbox.Proofs.Text.Decoding

/-! # What an output stream hands on

Whatever is written to a stream in pieces is cut behind each line feed, in one way only
(`Bytes.IsCut`), and handed on line by line: after each write exactly the lines are out whose line
feed has been written. Lossy decoding does not notice the cuts, so everything that a stream hands on
up to a flush is the decoding of all that was written, however it was cut into pieces
(`delivers_lines`). -/

namespace WasiSandbox

/-! ### Lines -/

namespace Bytes

/-- The lines, each with a line feed at its end and nowhere else, and the tail, which has none, are
the octets from front to back. -/
structure IsCut (b : Bytes) (lines : List Bytes) (tail : Bytes) : Prop where
  whole : lines.flatten ++ tail = b
  ended : ∀ line ∈ lines, ∃ front, line = front ++ [0x0A] ∧ 0x0A ∉ front
  unended : 0x0A ∉ tail

variable {a b tail front : Bytes} {ls : List Bytes}

theorem notMem_cons {x y : UInt8} {b : Bytes} : y ∉ x :: b ↔ y ≠ x ∧ y ∉ b := by
  rw [List.mem_cons, not_or]

theorem lines_of_notMem (h : 0x0A ∉ tail) : lines tail = ([], tail) := by
  induction tail with
  | nil => rfl
  | cons x tail ih =>
    obtain ⟨hx, htail⟩ := notMem_cons.mp h
    rw [lines, ih htail]
    dsimp only
    rw [if_neg (Ne.symm hx)]

theorem lines_line (h : 0x0A ∉ front) (rest : Bytes) : lines (front ++ 0x0A :: rest) =
    ((front ++ [0x0A]) :: (lines rest).1, (lines rest).2) := by
  induction front with
  | nil => rfl
  | cons x front ih =>
    obtain ⟨hx, hfront⟩ := notMem_cons.mp h
    rw [List.cons_append, lines, ih hfront]
    dsimp only
    rw [if_neg (Ne.symm hx)]
    rfl

theorem isCut_lines (b : Bytes) : IsCut b (lines b).1 (lines b).2 := by
  induction b with
  | nil => exact ⟨rfl, by simp [lines], by simp [lines]⟩
  | cons x b ih =>
    obtain ⟨whole, ended, unended⟩ := ih
    rw [lines]
    dsimp only
    split
    · next hx =>
      refine ⟨?_, List.forall_mem_cons.mpr ⟨⟨[], by simp [hx]⟩, ended⟩, unended⟩
      rw [List.flatten_cons, List.append_assoc, whole, List.singleton_append]
    · next hx =>
      split
      · next hnil =>
        rw [hnil, List.flatten_nil, List.nil_append] at whole
        refine ⟨by simp [whole], by simp, ?_⟩
        exact notMem_cons.mpr ⟨Ne.symm hx, unended⟩
      · next line more hcons =>
        rw [hcons] at whole ended
        obtain ⟨⟨front, rfl, hfront⟩, hmore⟩ := List.forall_mem_cons.mp ended
        refine ⟨by simpa using whole, List.forall_mem_cons.mpr ⟨⟨x :: front, rfl, ?_⟩, hmore⟩, unended⟩
        exact notMem_cons.mpr ⟨Ne.symm hx, hfront⟩

namespace IsCut

/-- **There is one cut only.** -/
theorem lines_eq (h : IsCut b ls tail) : lines b = (ls, tail) := by
  obtain ⟨rfl, ended, unended⟩ := h
  induction ls with
  | nil => exact lines_of_notMem unended
  | cons line ls ih =>
    obtain ⟨⟨front, rfl, hfront⟩, hls⟩ := List.forall_mem_cons.mp ended
    rw [List.flatten_cons, List.append_assoc, List.append_assoc, List.singleton_append,
      lines_line hfront, ih hls]

/-- What comes behind a cut goes on from its tail. -/
theorem append {ls' : List Bytes} {tail' : Bytes} (h : IsCut a ls tail)
    (h' : IsCut (tail ++ b) ls' tail') : IsCut (a ++ b) (ls ++ ls') tail' where
  whole := by rw [← h.whole, List.flatten_append, List.append_assoc, h'.whole, List.append_assoc]
  ended line hline := (List.mem_append.mp hline).elim (h.ended line) (h'.ended line)
  unended := h'.unended

theorem length_eq (h : IsCut b ls tail) : ls.length = b.count 0x0A := by
  obtain ⟨rfl, ended, unended⟩ := h
  induction ls with
  | nil => simpa using (List.count_eq_zero.mpr unended).symm
  | cons line ls ih =>
    obtain ⟨⟨front, rfl, hfront⟩, hls⟩ := List.forall_mem_cons.mp ended
    rw [List.length_cons, ih hls, List.flatten_cons]
    simp only [List.count_append, List.count_eq_zero.mpr hfront, List.count_singleton_self]
    omega

/-- Decoding does not notice the cut. -/
theorem decodeLossy_eq (h : IsCut b ls tail) :
    String.join (ls.map Text.decodeLossy) ++ Text.decodeLossy tail = Text.decodeLossy b := by
  obtain ⟨rfl, ended, -⟩ := h
  induction ls with
  | nil => simp
  | cons line ls ih =>
    obtain ⟨⟨front, rfl, -⟩, hls⟩ := List.forall_mem_cons.mp ended
    rw [List.map_cons, String.join_cons, String.append_assoc, ih hls, List.flatten_cons,
      List.append_assoc, Text.decodeLossy_append (Text.isWhole_ascii (by decide) _)]

end IsCut

end Bytes

/-! ### Streams -/

namespace OutputStream

/-- A new stream, with a transcript or without. -/
def new (keeps : Bool) : OutputStream := if keeps then capturing else plain

/-- Writes the chunks one after the other: what each write hands on. -/
def writeAll (s : OutputStream) : List Bytes → List (List String) × OutputStream
  | [] => ([], s)
  | chunk :: chunks =>
    let (texts, s) := s.write chunk
    let (more, s) := s.writeAll chunks
    (texts :: more, s)

/-- Writes the chunks and flushes the stream: all that is handed on. -/
def deliver (s : OutputStream) (chunks : List Bytes) : List String × OutputStream :=
  let (texts, s) := s.writeAll chunks
  let (last, s) := s.flush
  (texts.flatten ++ last, s)

variable {s : OutputStream} {chunk : Bytes} {chunks : List Bytes}

/-- The transcript with the texts. -/
def extended (transcript : Option String) (texts : List String) : Option String :=
  transcript.map (· ++ String.join texts)

theorem foldl_append (text : String) (texts : List String) :
    texts.foldl (· ++ ·) text = text ++ String.join texts := by
  induction texts generalizing text with
  | nil => simp
  | cons t texts ih => rw [List.foldl_cons, ih, String.join_cons, String.append_assoc]

theorem record_eq (s : OutputStream) (texts : List String) :
    s.record texts = ⟨s.pending, extended s.transcript texts⟩ := by
  unfold record extended
  simp only [foldl_append]

theorem extended_extended (transcript : Option String) (texts more : List String) :
    extended (extended transcript texts) more = extended transcript (texts ++ more) := by
  cases transcript <;> simp [extended, String.join_append, String.append_assoc]

theorem write_eq {ls : List Bytes} {tail : Bytes} (h : Bytes.IsCut (s.pending ++ chunk) ls tail) :
    s.write chunk =
      (ls.map Text.decodeLossy, ⟨tail, extended s.transcript (ls.map Text.decodeLossy)⟩) := by
  unfold write
  rw [h.lines_eq]
  dsimp only
  rw [record_eq]

/-- **Writing in two pieces** hands on what writing in one does. -/
theorem write_append (s : OutputStream) (a b : Bytes) : s.write (a ++ b) =
    ((s.write a).1 ++ ((s.write a).2.write b).1, ((s.write a).2.write b).2) := by
  have ha := Bytes.isCut_lines (s.pending ++ a)
  have hb := Bytes.isCut_lines ((Bytes.lines (s.pending ++ a)).2 ++ b)
  have hboth := ha.append hb
  rw [List.append_assoc] at hboth
  rw [write_eq hboth, write_eq ha]
  dsimp only
  rw [write_eq (s := ⟨_, _⟩) hb, List.map_append, extended_extended]

/-- The texts of the first writes do not depend on the others. -/
theorem writeAll_take (s : OutputStream) (chunks : List Bytes) (k : Nat) :
    (s.writeAll chunks).1.take k = (s.writeAll (chunks.take k)).1 := by
  induction chunks generalizing s k with
  | nil => simp [writeAll]
  | cons chunk chunks ih =>
    cases k with
    | zero => simp [writeAll]
    | succ k =>
      rw [List.take_succ_cons, writeAll, writeAll]
      dsimp only
      rw [List.take_succ_cons, ih]

/-- **The writes hand on the lines**, and the tail waits. -/
theorem writeAll_eq (hs : 0x0A ∉ s.pending) {ls : List Bytes} {tail : Bytes}
    (h : Bytes.IsCut (s.pending ++ chunks.flatten) ls tail) :
    (s.writeAll chunks).1.flatten = ls.map Text.decodeLossy ∧
      (s.writeAll chunks).2 = ⟨tail, extended s.transcript (ls.map Text.decodeLossy)⟩ := by
  induction chunks generalizing s ls with
  | nil =>
    have hlines := h.lines_eq
    rw [List.flatten_nil, List.append_nil, Bytes.lines_of_notMem hs] at hlines
    cases hlines
    cases s with
    | mk pending transcript => cases transcript <;> simp [writeAll, extended]
  | cons chunk chunks ih =>
    -- The first write leaves a tail, and the others go on from there.
    have hfirst := Bytes.isCut_lines (s.pending ++ chunk)
    have hrest := Bytes.isCut_lines ((Bytes.lines (s.pending ++ chunk)).2 ++ chunks.flatten)
    have hboth := (hfirst.append hrest).lines_eq
    rw [List.append_assoc, ← List.flatten_cons, h.lines_eq] at hboth
    obtain ⟨rfl, rfl⟩ := Prod.mk.injEq .. ▸ hboth
    obtain ⟨htexts, hstream⟩ := ih (s := ⟨_, _⟩) hfirst.unended hrest
    rw [writeAll, write_eq hfirst]
    dsimp only
    rw [List.flatten_cons, htexts, hstream, List.map_append]
    exact ⟨rfl, by rw [extended_extended]⟩

/-- Each write hands on a line for each line feed in it. -/
theorem writeAll_length (hs : 0x0A ∉ s.pending) (chunks : List Bytes) :
    (s.writeAll chunks).1.map List.length = chunks.map (·.count 0x0A) := by
  induction chunks generalizing s with
  | nil => rfl
  | cons chunk chunks ih =>
    have hcut := Bytes.isCut_lines (s.pending ++ chunk)
    have hlength := hcut.length_eq
    rw [List.count_append, List.count_eq_zero.mpr hs, Nat.zero_add] at hlength
    rw [writeAll, write_eq hcut]
    dsimp only
    rw [List.map_cons, ih hcut.unended, List.map_cons, List.length_map, hlength]

theorem flush_eq (s : OutputStream) : s.flush =
    if s.pending = [] then ([], s)
    else ([Text.decodeLossy s.pending], ⟨[], extended s.transcript [Text.decodeLossy s.pending]⟩) := by
  unfold flush
  split
  · rfl
  · dsimp only
    rw [record_eq]

/-! ### All at once -/

theorem new_eq (keeps : Bool) : new keeps = ⟨[], if keeps then some "" else none⟩ := by
  cases keeps <;> rfl

/-- What a flush hands on when these octets wait. -/
def remainder (tail : Bytes) : List String := if tail = [] then [] else [Text.decodeLossy tail]

/-- **What was written is handed on** line by line and then the rest, as if it had come in one
piece. -/
theorem deliver_eq (keeps : Bool) {ls : List Bytes} {tail : Bytes}
    (h : Bytes.IsCut chunks.flatten ls tail) :
    (new keeps).deliver chunks = (ls.map Text.decodeLossy ++ remainder tail,
      ⟨[], extended (new keeps).transcript (ls.map Text.decodeLossy ++ remainder tail)⟩) := by
  have hpending : (new keeps).pending = [] := by rw [new_eq]
  have hcut : Bytes.IsCut ((new keeps).pending ++ chunks.flatten) ls tail := by
    rwa [hpending, List.nil_append]
  obtain ⟨htexts, hstream⟩ := writeAll_eq (by rw [hpending]; exact List.not_mem_nil) hcut
  unfold deliver remainder
  rw [show (new keeps).writeAll chunks = (_, _) from rfl]
  dsimp only
  rw [htexts, hstream, flush_eq]
  dsimp only
  split
  · next htail => rw [List.append_nil, htail]
  · rw [extended_extended]

/-- A new stream that the chunks are written to delivers them. -/
structure Delivers (keeps : Bool) (chunks : List Bytes) : Prop where
  /-- After each write exactly the lines are out whose line feed has been written. -/
  lines : ∀ k, ∃ ls tail, Bytes.IsCut (chunks.take k).flatten ls tail ∧
    (((new keeps).writeAll chunks).1.take k).flatten = ls.map Text.decodeLossy
  /-- Each write hands on a line for each line feed in it. -/
  feeds : ((new keeps).writeAll chunks).1.map List.length = chunks.map (·.count 0x0A)
  /-- The writes hand on the lines, and a flush hands on what is left. -/
  pieces : ∃ ls tail, Bytes.IsCut chunks.flatten ls tail ∧
    ((new keeps).writeAll chunks).1.flatten = ls.map Text.decodeLossy ∧
    ((new keeps).writeAll chunks).2.flush.1 = remainder tail
  /-- It does not matter how the octets were cut into chunks. -/
  uncut : ∀ chunks', chunks'.flatten = chunks.flatten →
    (new keeps).deliver chunks' = (new keeps).deliver chunks
  /-- There is nothing left to flush. -/
  flushed : ((new keeps).deliver chunks).2.flush = ([], ((new keeps).deliver chunks).2)
  /-- What is handed on is what was written, decoded. -/
  decoded : String.join ((new keeps).deliver chunks).1 = Text.decodeLossy chunks.flatten
  /-- Nothing is replaced in the octets of a text. -/
  verbatim : (∃ text, Text.utf8 text = chunks.flatten) →
    Text.utf8 (String.join ((new keeps).deliver chunks).1) = chunks.flatten
  /-- A transcript is the copy of what was handed on. -/
  transcript : ((new keeps).deliver chunks).2.transcript =
    if keeps then some (String.join ((new keeps).deliver chunks).1) else none

/-- **Every line is handed on once**, with the write that ends it, however the octets are cut into
chunks. -/
theorem delivers_lines (keeps : Bool) (chunks : List Bytes) : Delivers keeps chunks := by
  have hs : (0x0A : UInt8) ∉ (new keeps).pending := by simp [new_eq]
  have hwrites : ∀ chunks : List Bytes, ∃ ls tail, Bytes.IsCut chunks.flatten ls tail ∧
      ((new keeps).writeAll chunks).1.flatten = ls.map Text.decodeLossy ∧
      ((new keeps).writeAll chunks).2.pending = tail := by
    intro chunks
    have hcut := Bytes.isCut_lines chunks.flatten
    obtain ⟨htexts, hstream⟩ := writeAll_eq hs (by simpa [new_eq] using hcut)
    exact ⟨_, _, hcut, htexts, by rw [hstream]⟩
  have hcut := Bytes.isCut_lines chunks.flatten
  have hdeliver := deliver_eq keeps hcut
  have hdecoded : String.join ((new keeps).deliver chunks).1 = Text.decodeLossy chunks.flatten := by
    rw [hdeliver, String.join_append, ← hcut.decodeLossy_eq]
    unfold remainder
    split
    · next htail => simp [htail, Text.decodeLossy_nil]
    · simp
  refine ⟨fun k => ?_, writeAll_length hs chunks, ?_, fun chunks' heq => ?_, ?_, hdecoded, ?_, ?_⟩
  · obtain ⟨ls, tail, hk, htexts, -⟩ := hwrites (chunks.take k)
    exact ⟨ls, tail, hk, by rw [writeAll_take, htexts]⟩
  · obtain ⟨ls, tail, hall, htexts, hpending⟩ := hwrites chunks
    refine ⟨ls, tail, hall, htexts, ?_⟩
    rw [flush_eq, hpending, remainder]
    split <;> rfl
  · rw [← heq] at hcut
    rw [hdeliver, deliver_eq keeps hcut, heq]
  · rw [hdeliver, flush_eq, if_pos rfl]
  · rintro ⟨text, htext⟩
    rw [hdecoded, ← htext, Text.decodeLossy_utf8]
  · rw [hdeliver, new_eq]
    cases keeps <;> simp [extended]

/-- A character of three octets that two writes share. -/
example : ((new true).writeAll [[0x61, 0xE2, 0x82], [0xAC, 0x0A, 0x62]]).1 = [[], ["a€\n"]] := by
  decide +kernel

end OutputStream

end WasiSandbox
