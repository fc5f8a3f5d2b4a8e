/-
# Texts within texts

Key definitions: `Text.startsWith`, `Text.occursIn`.
-/

namespace Augur.Text

/-- Whether a text starts with `s`. -/
def startsWith : List Char → List Char → Bool
  | [], _ => true
  | _ :: _, [] => false
  | a :: s, b :: t => a == b && startsWith s t

/-- Whether `s` stands somewhere in a text. -/
def occursIn (s : List Char) : List Char → Bool
  | [] => s.isEmpty
  | c :: t => startsWith s (c :: t) || occursIn s t

end Augur.Text
