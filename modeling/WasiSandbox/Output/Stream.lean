import WasiSandbox.Text.Utf8

/-! # Output streams

What a guest writes to a standard stream is handed on line by line. Octets wait until the line feed
that ends their line arrives; the write that brings it hands on the whole line, decoded, with the
line feed. What is left without a line feed is handed on when the stream is flushed. A stream may
keep a transcript of everything that it has handed on. -/

namespace WasiSandbox

/-- The lines that are complete, each with its line feed, and the octets behind the last of them. -/
def Bytes.lines : Bytes → List Bytes × Bytes
  | [] => ([], [])
  | b :: rest =>
    let (complete, tail) := Bytes.lines rest
    if b = 0x0A then ([b] :: complete, tail)
    else match complete with
      | [] => ([], b :: tail)
      | line :: more => ((b :: line) :: more, tail)

/-- A line-wise output stream. -/
structure OutputStream where
  /-- The octets that wait for their line feed. -/
  pending : Bytes
  /-- What was handed on so far, if a copy is kept. -/
  transcript : Option String
  deriving DecidableEq, Repr

namespace OutputStream

/-- A stream that keeps no transcript. -/
def plain : OutputStream := ⟨[], none⟩

/-- A stream that keeps a transcript. -/
def capturing : OutputStream := ⟨[], some ""⟩

/-- What was handed on so far; nothing if no copy is kept. -/
def handedOn (s : OutputStream) : String := s.transcript.getD ""

/-- Takes the texts into the transcript. -/
def record (s : OutputStream) (texts : List String) : OutputStream :=
  { s with transcript := s.transcript.map fun t => texts.foldl (· ++ ·) t }

/-- Writes octets: the lines that this hands on. -/
def write (s : OutputStream) (data : Bytes) : List String × OutputStream :=
  let (complete, tail) := Bytes.lines (s.pending ++ data)
  let texts := complete.map Text.decodeLossy
  (texts, { s with pending := tail }.record texts)

/-- Hands on the octets that wait, if there are any. -/
def flush (s : OutputStream) : List String × OutputStream :=
  if s.pending = [] then ([], s)
  else
    let texts := [Text.decodeLossy s.pending]
    (texts, { s with pending := [] }.record texts)

end OutputStream

end WasiSandbox
