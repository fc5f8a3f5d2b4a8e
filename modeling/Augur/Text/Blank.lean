/-
# Blank characters

White space in the wide sense: the ASCII blanks, the four information
separators, the next-line control and the spaces and line separators of
Unicode. Texts are trimmed of them at both ends and split at runs of them.

Key definitions: `Text.isBlank`, `Text.strip`, `Text.words`.
-/

namespace Augur.Text

/-- White space of any kind. -/
def isBlank (c : Char) : Bool :=
  let n := c.toNat
  (0x09 ≤ n && n ≤ 0x0D) || (0x1C ≤ n && n ≤ 0x20) || n == 0x85 || n == 0xA0 || n == 0x1680
    || (0x2000 ≤ n && n ≤ 0x200A) || n == 0x2028 || n == 0x2029 || n == 0x202F || n == 0x205F
    || n == 0x3000

/-- `cs` without the characters of `drop` at either end. -/
def trimChars (drop : Char → Bool) (cs : List Char) : List Char :=
  ((cs.dropWhile drop).reverse.dropWhile drop).reverse

/-- A text without the blanks at either end. -/
def strip (s : String) : String := String.ofList (trimChars isBlank s.toList)

/-- The maximal runs of characters outside `sep`. -/
def splitRuns (sep : Char → Bool) : List Char → List (List Char)
  | [] => []
  | c :: r =>
    if sep c then splitRuns sep r
    else
      match r, splitRuns sep r with
      | d :: _, w :: ws => if sep d then [c] :: w :: ws else (c :: w) :: ws
      | _, ws => [c] :: ws

/-- The words of a text: what stands between its blanks. -/
def words (s : String) : List String :=
  (splitRuns isBlank s.toList).map String.ofList

/-- The words of a text with one space between each two. -/
def collapse (s : String) : String := " ".intercalate (words s)

end Augur.Text
