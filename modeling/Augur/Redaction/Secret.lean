/-
# Secrets in texts

What must not reach a log: bearer tokens, API keys, values that stand behind a
sensitive name, and the credentials in an address. Each kind has a rule that
keeps what introduces the secret and puts a mark in its place. The rules apply
one after another.

Key definitions: `Redaction.sensitive`, `Redaction.rules`, `Redaction.text`.
-/
import Augur.Text.Blank
import Augur.Text.Letter
import Augur.Text.Pattern

namespace Augur.Redaction

open Text (Pattern Replacement)
open Text.Pattern (all oneOf some1 optional literal)

/-- What stands in the place of a secret. -/
def mark : String := "[REDACTED]"

/-- A word in any letter case. -/
def word (s : String) : Pattern := literal Text.sameLetter s.toList

/-- One of some characters. -/
def oneIn (s : String) (c : Char) : Bool := s.toList.contains c

/-- Names that introduce secrets. -/
def sensitive : Pattern :=
  oneOf [word "authorization", word "token", word "secret", word "password",
    all [word "api", optional (.one (oneIn "_-")), word "key"]]

/-- Whether a name is one under which a secret is kept. -/
def isSensitive (name : String) : Bool := sensitive.found name

/-- The word `bearer` keeps its place before a token. -/
def bearerToken : Replacement where
  keep := all [.edge, word "bearer"]
  drop := all [some1 Text.isBlank, some1 (fun c => Text.isLetterOrDigit c || oneIn "-._~+/" c),
    .many (· == '=')]
  new := " " ++ mark

/-- Characters of API keys. -/
def isKeyChar (c : Char) : Bool := c.isAlphanum || oneIn "_-" c

/-- API keys by their first letters. -/
def apiKey : Replacement where
  keep := .nothing
  drop := all [.edge, oneOf [literal (· == ·) ['s', 'k', '-'], literal (· == ·) ['v', 'n', '-']],
    .times (.one isKeyChar) 12, .many isKeyChar]
  new := mark

/-- Values behind a sensitive name. -/
def namedValue : Replacement where
  keep := all [.edge, sensitive]
  drop := all [.many Text.isBlank, .one (oneIn ":="), .many Text.isBlank,
    some1 fun c => !(Text.isBlank c || oneIn ",;" c)]
  new := "=" ++ mark

/-- User and password in an address. -/
def addressCredentials : Replacement where
  keep := all [some1 Text.isWord, optional (all [.one (· == '+'), some1 Text.isWord]),
    literal (· == ·) [':', '/', '/']]
  drop := all [some1 (fun c => !(Text.isBlank c || oneIn ":@/" c)), .one (· == ':'),
    some1 (fun c => !(Text.isBlank c || c == '@')), .one (· == '@')]
  new := "***:***@"

/-- The rules in the order in which they apply. -/
def rules : List Replacement := [bearerToken, apiKey, namedValue, addressCredentials]

/-- A text without its secrets. -/
def text (s : String) : String := rules.foldl (fun t r => r.apply t) s

end Augur.Redaction
