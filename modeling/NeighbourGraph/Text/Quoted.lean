/-
Quoted text as documents hold it: between double quotes, with a backslash before a quote, a
backslash or the letter of a control character. Control characters without a letter are written
as four hexadecimal digits; every other character stands for itself.
-/

namespace NeighbourGraph.Text

/-- The hexadecimal digit of a number below sixteen. -/
def hexDigit (n : Nat) : Char := "0123456789abcdef".toList.getD n '0'

/-- The letter that stands for a control character after a backslash. -/
def controlLetter? (c : Char) : Option Char :=
  match c.toNat with
  | 0x08 => some 'b'
  | 0x09 => some 't'
  | 0x0A => some 'n'
  | 0x0C => some 'f'
  | 0x0D => some 'r'
  | _ => none

/-- A character between quotes. -/
def quotedChar (c : Char) : List Char :=
  if c = '"' ∨ c = '\\' then ['\\', c]
  else if c.toNat < 0x20 then
    match controlLetter? c with
    | some letter => ['\\', letter]
    | none => ['\\', 'u', '0', '0', hexDigit (c.toNat / 16), hexDigit (c.toNat % 16)]
  else [c]

/-- A text between quotes. -/
def quoted (s : String) : String :=
  String.ofList ('"' :: s.toList.flatMap quotedChar ++ ['"'])

end NeighbourGraph.Text
