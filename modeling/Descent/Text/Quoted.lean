import Descent.Text.Property

/-!
# Quoted text

The form in which messages show a piece of text: between double quotes, with
escapes for the quote, the backslash and every character that would not be seen.
An escape of the last kind gives the code point in hexadecimal.
-/

namespace Descent.Text

/-- Characters beyond 127 that leave no mark of their own: controls and formats, separators,
private and unassigned code points, and characters that extend the one before. -/
def invisible : CharSet :=
  (assigned.complement.union (ofCategories ["Cc", "Cf", "Co", "Zl", "Zp", "Zs"])).union
    graphemeExtend

/-- The character stands for itself between quotes. -/
def isVisible (c : Char) : Bool :=
  if c.toNat < 128 then 32 ≤ c.toNat && c.toNat != 127 else !invisible.contains c

/-- The hexadecimal digits of a number, without leading zeros. -/
def hexDigits (n : Nat) : List Char := Nat.toDigits 16 n

/-- The form of one character between double quotes. -/
def escaped (c : Char) : List Char :=
  if c == '"' then ['\\', '"']
  else if c == '\\' then ['\\', '\\']
  else if c == '\n' then ['\\', 'n']
  else if c == '\r' then ['\\', 'r']
  else if c == '\t' then ['\\', 't']
  else if c == '\x00' then ['\\', '0']
  else if isVisible c then [c]
  else ['\\', 'u', '\x7b'] ++ hexDigits c.toNat ++ ['\x7d']

/-- A text between double quotes. -/
def quoted (s : String) : String :=
  String.ofList ('"' :: s.toList.flatMap escaped ++ ['"'])

end Descent.Text
