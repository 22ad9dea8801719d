import KindSchema.Text.Printable

/-!
# Text between double quotes

How a text is shown inside a message: between double quotes, with the quotes and backslashes in it
escaped, the four common controls as `\0`, `\t`, `\r` and `\n`, and every other character that is
not printable, or that would attach to the character before it, by its code point as `\u{…}`. Single
quotes are left as they are.
-/

namespace KindSchema

/-- The digits of `n` in lower case hexadecimal. -/
def hexDigits (n : Nat) : List Char :=
  Nat.toDigits 16 n

/-- How `c` is written between double quotes. -/
def quotedChar (c : Char) : List Char :=
  if c = '\x00' then ['\\', '0']
  else if c = '\t' then ['\\', 't']
  else if c = '\r' then ['\\', 'r']
  else if c = '\n' then ['\\', 'n']
  else if c = '\\' ∨ c = '"' then ['\\', c]
  else if isGraphemeExtend c ∨ !isPrintable c then
    ['\\', 'u', '\x7b'] ++ hexDigits c.toNat ++ ['\x7d']
  else [c]

/-- The text `s` between double quotes. -/
def quoted (s : String) : String :=
  String.ofList ('"' :: s.toList.flatMap quotedChar ++ ['"'])

end KindSchema
