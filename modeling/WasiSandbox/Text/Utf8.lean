import WasiSandbox.Checked

/-! # UTF-8

A decoder that never fails. It reads the octets one at a time; its state says what may come next:
either the first octet of a character, or one of the continuation octets still owed, the first of
which is held to a range of its own so that no overlong form, no surrogate and nothing above
U+10FFFF is ever completed. The answer is a list with one entry per character read, and one empty
entry per *maximal invalid piece*: the longest run of octets that starts a character and then breaks
off, or a single octet that can start none. Strict decoding wants no empty entry, lossy decoding
puts U+FFFD there. -/

namespace WasiSandbox.Text

/-- The octets of a text. -/
def utf8 (s : String) : Bytes := s.toList.flatMap String.utf8EncodeChar

/-- What the decoder may read next. -/
inductive Utf8State where
  /-- The first octet of a character. -/
  | start
  /-- A continuation octet from `low` to `high`, and `more` after it, of the character whose bits so
  far are `bits`. -/
  | continuation (more : Nat) (low high : UInt8) (bits : Nat)
  deriving DecidableEq, Repr

/-- Reads the first octet of a character. -/
def utf8Start (b : UInt8) : List (Option Char) × Utf8State :=
  if b < 0x80 then ([some (Char.ofNat b.toNat)], .start)
  else if b < 0xC2 then ([none], .start)
  else if b < 0xE0 then ([], .continuation 0 0x80 0xBF (b.toNat - 0xC0))
  else if b = 0xE0 then ([], .continuation 1 0xA0 0xBF 0)
  else if b = 0xED then ([], .continuation 1 0x80 0x9F 0xD)
  else if b < 0xF0 then ([], .continuation 1 0x80 0xBF (b.toNat - 0xE0))
  else if b = 0xF0 then ([], .continuation 2 0x90 0xBF 0)
  else if b < 0xF4 then ([], .continuation 2 0x80 0xBF (b.toNat - 0xF0))
  else if b = 0xF4 then ([], .continuation 2 0x80 0x8F 4)
  else ([none], .start)

/-- Reads one octet: the entries that it completes and the state after it. -/
def utf8Step : Utf8State → UInt8 → List (Option Char) × Utf8State
  | .start, b => utf8Start b
  | .continuation more low high bits, b =>
    if low ≤ b ∧ b ≤ high then
      let bits := bits * 64 + (b.toNat - 0x80)
      match more with
      | 0 => ([some (Char.ofNat bits)], .start)
      | more + 1 => ([], .continuation more 0x80 0xBF bits)
    else
      let (read, state) := utf8Start b
      (none :: read, state)

/-- The entries for the octets, read in the given state. -/
def utf8Entries : Utf8State → Bytes → List (Option Char)
  | .start, [] => []
  | .continuation .., [] => [none]
  | state, b :: rest =>
    let (read, state) := utf8Step state b
    read ++ utf8Entries state rest

/-- The text, with U+FFFD for every maximal invalid piece. -/
def decodeLossy (b : Bytes) : String :=
  String.ofList ((utf8Entries .start b).map (·.getD '\uFFFD'))

/-- The text, if every octet belongs to a character. -/
def decode? (b : Bytes) : Option String :=
  ((utf8Entries .start b).mapM id).map String.ofList

/-- The order of names: that of their octets, a shorter name before its extensions. -/
def nameLe (a b : String) : Bool := decide (utf8 a ≤ utf8 b)

end WasiSandbox.Text
