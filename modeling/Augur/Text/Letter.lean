/-
# Letters regardless of case

Comparison of a text with an ASCII letter that ignores case in the wide
sense: the long s counts as an s, the Kelvin sign as a k, and the dotted
capital and dotless small i as an i.

Key definitions: `Text.foldLetter`, `Text.sameLetter`, `Text.isLetterOrDigit`.
-/

namespace Augur.Text

/-- The small ASCII letter that a character counts as, if any; else the character itself. -/
def foldLetter (c : Char) : Char :=
  if c = '\u017F' then 's'
  else if c = '\u212A' then 'k'
  else if c = '\u0130' ∨ c = '\u0131' then 'i'
  else c.toLower

/-- Whether two characters are the same letter regardless of case. -/
def sameLetter (a b : Char) : Bool := foldLetter a == foldLetter b

/-- ASCII letters regardless of case, and ASCII digits. -/
def isLetterOrDigit (c : Char) : Bool := (foldLetter c).isAlphanum

end Augur.Text
