/-
# Quoted text

Text between single quotes, or double ones when it holds a single quote and no
double one. Backslashes and the quote in use are escaped, controls and
characters without a printed form are given by name or number.

Key definitions: `Text.quote`.
-/
import Augur.Text.Printable

namespace Augur.Text

/-- `n` in hexadecimal with at least `width` digits. -/
def hexDigits (width n : Nat) : String :=
  let digits := String.ofList (Nat.toDigits 16 n)
  String.ofList (List.replicate (width - digits.length) '0') ++ digits

/-- A character inside a quoted text. -/
def quoteChar (mark c : Char) : String :=
  if c = mark ∨ c = '\\' then "\\" ++ c.toString
  else if c = '\n' then "\\n"
  else if c = '\r' then "\\r"
  else if c = '\t' then "\\t"
  else if isPrintable c then c.toString
  else if c.toNat ≤ 0xFF then "\\x" ++ hexDigits 2 c.toNat
  else if c.toNat ≤ 0xFFFF then "\\u" ++ hexDigits 4 c.toNat
  else "\\U" ++ hexDigits 8 c.toNat

/-- A text between quotes. -/
def quote (s : String) : String :=
  let mark := if s.contains '\'' && !s.contains '"' then '"' else '\''
  mark.toString ++ String.join (s.toList.map (quoteChar mark)) ++ mark.toString

end Augur.Text
