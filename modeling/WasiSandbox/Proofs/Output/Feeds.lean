import WasiSandbox.Proofs.Output.Delivery

/-! # Streams that are flushed on the way

Octets come to an output stream in writes, and now and then it is flushed. What it has handed on by then is
the decoding of what was written, up to the first flush, from there up to the next, and so on
(`feedAll_decoded`): a flush may cut a character in two, and a line feed never does. So a stream that was
flushed last has handed on everything, piece by piece, and as in one piece if no flush has cut a character
(`Feed.decoded_eq`). -/

namespace WasiSandbox

/-- What happens to an output stream. -/
inductive Feed where
  | octets (data : Bytes)
  | flush
  deriving DecidableEq, Repr

namespace Feed

variable {held tail : Bytes} {feeds : List Feed} {ls : List Bytes}

/-- The octets that come in. -/
def data : Feed → Bytes
  | octets data => data
  | flush => []

/-- All octets that come in. -/
def written (feeds : List Feed) : Bytes := feeds.flatMap data

/-- What comes in up to the first flush, from there to the next, and so on to the end; `held` waits
already. -/
def pieces (held : Bytes) : List Feed → List Bytes
  | [] => [held]
  | octets data :: feeds => pieces (held ++ data) feeds
  | flush :: feeds => held :: pieces [] feeds

/-- The pieces, decoded one by one. -/
def decoded (held : Bytes) (feeds : List Feed) : String :=
  String.join ((pieces held feeds).map Text.decodeLossy)

/-- **The pieces are all that was written.** -/
theorem flatten_pieces (held : Bytes) (feeds : List Feed) :
    (pieces held feeds).flatten = held ++ written feeds := by
  induction feeds generalizing held with
  | nil => simp [pieces, written]
  | cons f feeds ih =>
    cases f with
    | octets data => rw [pieces, ih, List.append_assoc]; rfl
    | flush => rw [pieces, List.flatten_cons, ih, List.nil_append]; rfl

/-- What waits already belongs to the first piece, and to none of the others. -/
theorem pieces_eq (feeds : List Feed) :
    ∃ first rest, ∀ held, pieces held feeds = (held ++ first) :: rest := by
  induction feeds with
  | nil => exact ⟨[], [], fun held => by rw [pieces, List.append_nil]⟩
  | cons f feeds ih =>
    cases f with
    | octets data =>
      obtain ⟨first, rest, hpieces⟩ := ih
      exact ⟨data ++ first, rest, fun held => by rw [pieces, hpieces, List.append_assoc]⟩
    | flush => exact ⟨[], pieces [] feeds, fun held => by rw [pieces, List.append_nil]⟩

theorem pieces_concat_flush (held : Bytes) (feeds : List Feed) :
    pieces held (feeds ++ [.flush]) = pieces held feeds ++ [[]] := by
  induction feeds generalizing held with
  | nil => rfl
  | cons f feeds ih =>
    cases f with
    | octets data => rw [List.cons_append, pieces, ih, pieces]
    | flush => rw [List.cons_append, pieces, ih, pieces, List.cons_append]

/-- A flush at the end changes nothing. -/
theorem decoded_concat_flush (held : Bytes) (feeds : List Feed) :
    decoded held (feeds ++ [.flush]) = decoded held feeds := by
  unfold decoded
  rw [pieces_concat_flush, List.map_append, String.join_append]
  simp [Text.decodeLossy_nil]

theorem join_decodeLossy (h : ∀ piece ∈ ls.dropLast, Text.IsWhole piece) :
    String.join (ls.map Text.decodeLossy) = Text.decodeLossy ls.flatten := by
  induction ls with
  | nil => rfl
  | cons piece ls ih =>
    cases ls with
    | nil => simp
    | cons next ls =>
      rw [List.dropLast_cons_cons, List.forall_mem_cons] at h
      rw [List.map_cons, String.join_cons, ih h.2, ← Text.decodeLossy_append h.1, ← List.flatten_cons]

/-- **If no flush cuts a character** the pieces do not show. -/
theorem decoded_eq (h : ∀ piece ∈ (pieces held feeds).dropLast, Text.IsWhole piece) :
    decoded held feeds = Text.decodeLossy (held ++ written feeds) := by
  unfold decoded
  rw [join_decodeLossy h, flatten_pieces]

/-- **A cut behind a line feed** does not show. -/
theorem decoded_cut (h : Bytes.IsCut held ls tail) (feeds : List Feed) :
    decoded held feeds = String.join (ls.map Text.decodeLossy) ++ decoded tail feeds := by
  obtain ⟨first, rest, hpieces⟩ := pieces_eq feeds
  have hmore := Bytes.isCut_lines (tail ++ first)
  unfold decoded
  rw [hpieces, hpieces, List.map_cons, String.join_cons, List.map_cons, String.join_cons,
    ← (h.append hmore).decodeLossy_eq, ← hmore.decodeLossy_eq, List.map_append, String.join_append]
  simp only [String.append_assoc]

end Feed

namespace OutputStream

/-- What the stream hands on, and the stream after it. -/
def feed (s : OutputStream) : Feed → List String × OutputStream
  | .octets data => s.write data
  | .flush => s.flush

/-- One after the other. -/
def feedAll (s : OutputStream) : List Feed → List String × OutputStream
  | [] => ([], s)
  | f :: feeds =>
    let (texts, s) := s.feed f
    let (more, s) := s.feedAll feeds
    (texts ++ more, s)

variable {s : OutputStream} {feeds : List Feed}

theorem feedAll_append (s : OutputStream) (feeds more : List Feed) : s.feedAll (feeds ++ more) =
    ((s.feedAll feeds).1 ++ ((s.feedAll feeds).2.feedAll more).1,
      ((s.feedAll feeds).2.feedAll more).2) := by
  induction feeds generalizing s with
  | nil => rfl
  | cons f feeds ih =>
    rw [List.cons_append, feedAll, feedAll]
    dsimp only
    rw [ih, List.append_assoc]

/-- **What was handed on and what waits** is what came in, decoded piece by piece. -/
theorem feedAll_decoded (s : OutputStream) (feeds : List Feed) :
    String.join (s.feedAll feeds).1 ++ Text.decodeLossy (s.feedAll feeds).2.pending =
      Feed.decoded s.pending feeds := by
  induction feeds generalizing s with
  | nil => simp [feedAll, Feed.decoded, Feed.pieces]
  | cons f feeds ih =>
    rw [feedAll]
    dsimp only
    rw [String.join_append, String.append_assoc, ih]
    cases f with
    | octets data =>
      have hcut := Bytes.isCut_lines (s.pending ++ data)
      rw [feed, write_eq hcut]
      exact (Feed.decoded_cut hcut feeds).symm
    | flush =>
      rw [feed, flush_eq]
      unfold Feed.decoded
      rw [Feed.pieces, List.map_cons, String.join_cons]
      split
      · next hnone => rw [hnone, Text.decodeLossy_nil]; rfl
      · simp

theorem feed_transcript (s : OutputStream) (f : Feed) :
    (s.feed f).2.transcript = extended s.transcript (s.feed f).1 := by
  cases f with
  | octets data => rw [feed, write_eq (Bytes.isCut_lines _)]
  | flush =>
    rw [feed, flush_eq]
    split
    · cases s.transcript <;> simp [extended]
    · rfl

/-- The transcript is the copy of what was handed on. -/
theorem feedAll_transcript (s : OutputStream) (feeds : List Feed) :
    (s.feedAll feeds).2.transcript = extended s.transcript (s.feedAll feeds).1 := by
  induction feeds generalizing s with
  | nil => cases h : s.transcript <;> simp [feedAll, extended, h]
  | cons f feeds ih =>
    rw [feedAll]
    dsimp only
    rw [ih, feed_transcript, extended_extended]

/-- **A stream that was flushed last** has handed on everything. -/
theorem feedAll_flush (s : OutputStream) (feeds : List Feed) :
    (s.feedAll (feeds ++ [.flush])).2.pending = [] ∧
      String.join (s.feedAll (feeds ++ [.flush])).1 = Feed.decoded s.pending feeds := by
  have hpending : (s.feedAll (feeds ++ [.flush])).2.pending = [] := by
    rw [feedAll_append]
    show ((s.feedAll feeds).2.flush).2.pending = []
    rw [flush_eq]
    split
    · assumption
    · rfl
  have hdecoded := feedAll_decoded s (feeds ++ [.flush])
  rw [hpending, Text.decodeLossy_nil, Feed.decoded_concat_flush] at hdecoded
  exact ⟨hpending, by simpa using hdecoded⟩

end OutputStream

end WasiSandbox
