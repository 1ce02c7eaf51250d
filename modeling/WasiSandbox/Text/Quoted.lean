import WasiSandbox.Text.Printable

/-! # Quoted text

Text in an error message stands in double quotes. Tab, carriage return, line feed, NUL, the backslash
and the double quote are written with a backslash; a character that does not print, or that would be
drawn on the quote or character before it, is written by its number, as `\u` and the hexadecimal
digits in braces; every other character stands for itself. -/

namespace WasiSandbox.Text

/-- The hexadecimal digits of a number, without leading zeros. -/
def hexDigits (n : Nat) : List Char := Nat.toDigits 16 n

/-- The written form of one character inside the quotes. -/
def quotedChar (c : Char) : List Char :=
  if c = '\x00' then ['\\', '0']
  else if c = '\t' then ['\\', 't']
  else if c = '\r' then ['\\', 'r']
  else if c = '\n' then ['\\', 'n']
  else if c = '\\' || c = '"' then ['\\', c]
  else if extendsGrapheme c || !isPrintable c then
    ['\\', 'u', '\x7b'] ++ hexDigits c.toNat ++ ['\x7d']
  else [c]

/-- The text in double quotes. -/
def quoted (s : String) : String :=
  String.ofList ('"' :: s.toList.flatMap quotedChar ++ ['"'])

end WasiSandbox.Text
