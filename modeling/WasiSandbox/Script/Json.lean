import WasiSandbox.Checked

/-! # Reading JSON

Guest scripts are written in JSON with whole numbers. A text is cut into tokens by an automaton over
its characters, and the tokens are put together by an automaton with a stack of open brackets; both
read their input once, from left to right. -/

namespace WasiSandbox

/-- A JSON value; numbers are whole. -/
inductive Json where
  | null
  | bool (b : Bool)
  | number (n : Int)
  | string (s : String)
  | array (items : List Json)
  | object (fields : List (String × Json))
  deriving Repr

namespace Json

/-! ### Numbers in text -/

/-- The value of decimal digits; at least one. -/
def digits? : List Char → Option Nat
  | [] => none
  | cs => cs.foldlM (fun n c =>
      if '0' ≤ c ∧ c ≤ '9' then some (n * 10 + (c.toNat - '0'.toNat)) else none) 0

/-- The value of decimal digits, perhaps with a minus in front. -/
def integer? : List Char → Option Int
  | '-' :: cs => (digits? cs).map fun n => -(n : Int)
  | cs => (digits? cs).map Int.ofNat

/-- The value of one hexadecimal digit. -/
def hexDigit? (c : Char) : Option Nat :=
  if '0' ≤ c ∧ c ≤ '9' then some (c.toNat - '0'.toNat)
  else if 'a' ≤ c ∧ c ≤ 'f' then some (c.toNat - 'a'.toNat + 10)
  else if 'A' ≤ c ∧ c ≤ 'F' then some (c.toNat - 'A'.toNat + 10)
  else none

/-! ### Tokens -/

/-- The smallest pieces of a text. -/
inductive Token where
  | openArray
  | closeArray
  | openObject
  | closeObject
  | comma
  | colon
  | scalar (j : Json)

/-- Where the automaton over characters is. The characters of a word or a string are kept in reverse
order. -/
inductive LexState where
  | between
  | word (chars : List Char)
  | string (chars : List Char)
  /-- Behind a backslash. -/
  | escape (chars : List Char)
  /-- In an escape by number that still wants `more` digits; `high` is the first half of a character
  that is written as a pair. -/
  | unit (chars : List Char) (high : Option Nat) (more : Nat) (value : Nat)
  /-- Behind the first half of a pair, and behind the backslash that follows it. -/
  | pair (chars : List Char) (high : Nat) (slash : Bool)

/-- The value that a word stands for. -/
def ofWord? (chars : List Char) : Option Json :=
  if chars = ['n', 'u', 'l', 'l'] then some .null
  else if chars = ['t', 'r', 'u', 'e'] then some (.bool true)
  else if chars = ['f', 'a', 'l', 's', 'e'] then some (.bool false)
  else (integer? chars).map .number

def isBlank (c : Char) : Bool := c == ' ' || c == '\t' || c == '\n' || c == '\r'

/-- The bracket or separator that the character is. -/
def punctuation? (c : Char) : Option Token :=
  if c = '[' then some .openArray
  else if c = ']' then some .closeArray
  else if c = '\x7b' then some .openObject
  else if c = '\x7d' then some .closeObject
  else if c = ',' then some .comma
  else if c = ':' then some .colon
  else none

/-- Reads a character between words and strings. -/
def lexBetween (c : Char) : List Token × LexState :=
  if isBlank c then ([], .between)
  else if c = '"' then ([], .string [])
  else match punctuation? c with
    | some t => ([t], .between)
    | none => ([], .word [c])

/-- The character behind a backslash, other than `u`. -/
def escaped? (c : Char) : Option Char :=
  if c = 'n' then some '\n'
  else if c = 't' then some '\t'
  else if c = 'r' then some '\r'
  else if c = 'b' then some '\x08'
  else if c = 'f' then some '\x0c'
  else if c = '"' || c = '\\' || c = '/' then some c
  else none

/-- Ends an escape by number. -/
def endUnit (chars : List Char) (high : Option Nat) (value : Nat) : Option LexState :=
  match high with
  | some h =>
    if 0xDC00 ≤ value ∧ value < 0xE000 then
      some (.string (Char.ofNat (0x10000 + (h - 0xD800) * 0x400 + (value - 0xDC00)) :: chars))
    else none
  | none =>
    if 0xD800 ≤ value ∧ value < 0xDC00 then some (.pair chars value false)
    else if 0xDC00 ≤ value ∧ value < 0xE000 then none
    else some (.string (Char.ofNat value :: chars))

/-- Reads one character: the tokens that it completes, and the state after it. -/
def lexStep : LexState → Char → Option (List Token × LexState)
  | .between, c => some (lexBetween c)
  | .word chars, c =>
    if isBlank c || c == '"' || (punctuation? c).isSome then do
      let j ← ofWord? chars.reverse
      let (tokens, state) := lexBetween c
      return (.scalar j :: tokens, state)
    else some ([], .word (c :: chars))
  | .string chars, c =>
    if c = '"' then some ([.scalar (.string (String.ofList chars.reverse))], .between)
    else if c = '\\' then some ([], .escape chars)
    else some ([], .string (c :: chars))
  | .escape chars, c =>
    if c = 'u' then some ([], .unit chars none 3 0)
    else (escaped? c).map fun e => ([], .string (e :: chars))
  | .unit chars high more value, c => do
    let value := value * 16 + (← hexDigit? c)
    match more with
    | 0 => return ([], ← endUnit chars high value)
    | more + 1 => return ([], .unit chars high more value)
  | .pair chars high slash, c =>
    if slash then if c = 'u' then some ([], .unit chars (some high) 3 0) else none
    else if c = '\\' then some ([], .pair chars high true)
    else none

/-- The tokens from the state on. -/
def lexAll : LexState → List Char → Option (List Token)
  | .between, [] => some []
  | .word chars, [] => (ofWord? chars.reverse).map fun j => [.scalar j]
  | _, [] => none
  | state, c :: rest => do
    let (tokens, state) ← lexStep state c
    return tokens ++ (← lexAll state rest)

/-! ### Values -/

/-- An open bracket and what stands behind it so far, in reverse order. -/
inductive OpenValue where
  | array (items : List Json)
  | object (fields : List (String × Json)) (key : String)

/-- What may come next. -/
inductive Want where
  /-- A value, or the end of an array that is still empty. -/
  | value (mayClose : Bool)
  /-- A key, or the end of an object that is still empty. -/
  | key (fields : List (String × Json)) (mayClose : Bool)
  /-- The colon behind a key. -/
  | colon (fields : List (String × Json)) (key : String)
  /-- A comma or the end of what is open. -/
  | next (last : Json)

/-- Reads one token: what is open and what may come next after it. -/
def parseStep : List OpenValue × Want → Token → Option (List OpenValue × Want)
  | (stack, .value _), .scalar j => some (stack, .next j)
  | (stack, .value _), .openArray => some (.array [] :: stack, .value true)
  | (stack, .value _), .openObject => some (stack, .key [] true)
  | (.array [] :: stack, .value true), .closeArray => some (stack, .next (.array []))
  | (stack, .key fields _), .scalar (.string key) => some (stack, .colon fields key)
  | (stack, .key [] true), .closeObject => some (stack, .next (.object []))
  | (stack, .colon fields key), .colon => some (.object fields key :: stack, .value false)
  | (.array items :: stack, .next j), .comma => some (.array (j :: items) :: stack, .value false)
  | (.array items :: stack, .next j), .closeArray =>
    some (stack, .next (.array (j :: items).reverse))
  | (.object fields key :: stack, .next j), .comma => some (stack, .key ((key, j) :: fields) false)
  | (.object fields key :: stack, .next j), .closeObject =>
    some (stack, .next (.object ((key, j) :: fields).reverse))
  | _, _ => none

/-- The value that the text stands for. -/
def parse? (text : String) : Option Json := do
  let tokens ← lexAll .between text.toList
  match ← tokens.foldlM parseStep ([], .value false) with
  | ([], .next j) => some j
  | _ => none

/-! ### Parts of values -/

/-- The field of that name; `null` if there is none. -/
def field (j : Json) (name : String) : Json :=
  match j with
  | object fields => (fields.lookup name).getD .null
  | _ => .null

def isNull : Json → Bool
  | null => true
  | _ => false

/-- A whole number, written as a number or as a string. -/
def asInt? : Json → Option Int
  | number n => some n
  | string s => integer? s.toList
  | _ => none

def asNat? (j : Json) : Option Nat := do
  match ← j.asInt? with
  | .ofNat n => some n
  | .negSucc _ => none

/-- A number as a word of 32 bits, around which it wraps. -/
def asWord? (j : Json) : Option UInt32 := j.asInt?.map UInt32.ofInt

def asString? : Json → Option String
  | string s => some s
  | _ => none

/-- A truth value; no value is `false`. -/
def asFlag? : Json → Option Bool
  | bool b => some b
  | null => some false
  | _ => none

/-- The items of an array; no value is an empty array. -/
def asList? : Json → Option (List Json)
  | array items => some items
  | null => some []
  | _ => none

/-- Every item of an array, read the same way. -/
def asListOf? {α : Type} (read : Json → Option α) (j : Json) : Option (List α) := do
  (← j.asList?).mapM read

/-- A value that may be missing. -/
def optional? {α : Type} (read : Json → Option α) (j : Json) : Option (Option α) :=
  if j.isNull then some none else (read j).map some

/-- The two items of an array of two. -/
def asPair? : Json → Option (Json × Json)
  | array [a, b] => some (a, b)
  | _ => none

/-- The octets that pairs of hexadecimal digits stand for. -/
def ofHex? : List Char → Option Bytes
  | [] => some []
  | a :: b :: rest => do
    return UInt8.ofNat ((← hexDigit? a) * 16 + (← hexDigit? b)) :: (← ofHex? rest)
  | [_] => none

/-- Octets, written as hexadecimal digits. -/
def asBytes? (j : Json) : Option Bytes := do ofHex? (← j.asString?).toList

end Json

end WasiSandbox
