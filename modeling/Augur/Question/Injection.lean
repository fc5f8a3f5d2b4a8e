/-
# Attempts to misuse the language model

Phrases by which a question may try to change what the model was told to do.
Letters count regardless of case and any run of blanks counts as a gap.

Key definitions: `Question.injectionPatterns`, `Question.looksLikeInjection`.
-/
import Augur.Text.Blank
import Augur.Text.Letter
import Augur.Text.Pattern

namespace Augur.Question

open Text (Pattern)
open Text.Pattern (all oneOf)

/-- A phrase in any letter case. -/
def phrase (s : String) : Pattern := Text.Pattern.literal Text.sameLetter s.toList

/-- One of some phrases. -/
def anyOf (phrases : List String) : Pattern := oneOf (phrases.map phrase)

/-- At least one blank. -/
def gap : Pattern := Text.Pattern.some1 Text.isBlank

/-- Perhaps some blanks. -/
def looseGap : Pattern := .many Text.isBlank

/-- Perhaps the word `all` and a gap. -/
def perhapsAll : Pattern := Text.Pattern.optional (all [phrase "all", gap])

/-- The phrases of known attempts. -/
def injectionPatterns : List Pattern := [
  all [phrase "ignore", gap, perhapsAll, anyOf ["previous", "above", "prior"]],
  all [phrase "disregard", gap, perhapsAll, anyOf ["previous", "above", "prior", "your"]],
  all [phrase "forget", gap, perhapsAll, anyOf ["previous", "above", "prior", "your"]],
  all [phrase "pretend", gap, oneOf [all [phrase "you", gap, phrase "are"],
    all [phrase "to", gap, phrase "be"], phrase "you\x27re"]],
  all [phrase "act", gap, phrase "as", gap, anyOf ["if", "a", "an", "though"]],
  all [phrase "you", gap, phrase "are", gap, phrase "now"],
  all [phrase "new", gap, phrase "instructions"],
  all [phrase "system", looseGap, phrase "prompt"],
  all [phrase "reveal", gap, anyOf ["your", "the"], gap,
    anyOf ["instructions", "prompt", "rules"]],
  all [phrase "what", gap, phrase "are", gap, phrase "your", gap,
    anyOf ["instructions", "rules"]],
  all [phrase "repeat", gap, anyOf ["your", "the", "back"], gap,
    anyOf ["instructions", "prompt", "rules"]],
  all [phrase "override", gap, anyOf ["your", "the", "all"]],
  all [phrase "bypass", gap, anyOf ["your", "the", "all"]],
  phrase "jailbreak",
  all [phrase "dan", looseGap, phrase "mode"],
  all [phrase "developer", looseGap, phrase "mode"],
  all [.edge, phrase "base64", .edge],
  all [.edge, phrase "hex", looseGap, phrase "encode"],
  all [.edge, phrase "rot13", .edge]]

/-- Whether a text holds a phrase of a known attempt. -/
def looksLikeInjection (s : String) : Bool := injectionPatterns.any fun p => p.found s

/-- The places of the patterns that a text matches. -/
def matchingPatterns (s : String) : List Nat :=
  (injectionPatterns.zipIdx.filter fun p => p.1.found s).map (·.2)

end Augur.Question
