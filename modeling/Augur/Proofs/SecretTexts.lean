/-
# Redacted texts

What holds of a redacted text at every place: no bearer token and no API key
is matched any more, a value behind a sensitive name is the mark, and so are
the user and the password of an address. A text of which this holds stays as
it is, so redacting twice is redacting once.

Key definitions: `Redaction.Clean`.
Key theorems: `Redaction.clean_text`, `Redaction.text_of_clean`,
`Redaction.text_text`.
-/
import Augur.Proofs.SecretRules

namespace Augur.Redaction

open Text (Place Replacement)
open Text.Replacement (Hidden agrees_self apply_of_settled rewrites_start seamless_of_greedy)

/-- No secret is matched in a text, but for names and addresses that have the marks already. -/
structure Clean (s : String) : Prop where
  bearer : ∀ p, (Place.start s).Reaches p → bearerToken.matchAt? p = none
  key : ∀ p, (Place.start s).Reaches p → apiKey.matchAt? p = none
  named : ∀ p k e, (Place.start s).Reaches p → namedValue.matchAt? p = some (k, e) →
    k.rest = ("=" ++ mark).toList ++ e.rest
  credentials : ∀ p k e, (Place.start s).Reaches p → addressCredentials.matchAt? p = some (k, e) →
    k.rest = "***:***@".toList ++ e.rest

theorem text_eq (s : String) :
    text s = addressCredentials.apply (namedValue.apply (apiKey.apply (bearerToken.apply s))) := rfl

/-- The first rule hides bearer tokens, and the others leave them hidden. -/
theorem bearer_hidden (s : String) : Hidden BearerWord (text s) := by
  have hfirst : Hidden BearerWord (bearerToken.apply s) := fun _ hq =>
    bearerToken_clears (rewrites_start bearerToken_consumes s) (agrees_self _ _) hq
  have hkey := hfirst.apply apiKey_consumes
    (seamless_of_greedy apiKey_greedy isKeyChar_of_startsBearer) (by decide)
    (fun _ => bearer_starts) (bearer_barrier apiKey_new (by decide) (by decide)) (by decide)
  have hnamed := hkey.apply namedValue_consumes
    (seamless_of_greedy namedValue_greedy isValueChar_of_startsBearer) (by decide)
    (fun _ => bearer_starts) (bearer_barrier namedValue_new (by decide) (by decide)) (by decide)
  exact hnamed.apply addressCredentials_consumes (addressCredentials_seamless _) (by decide)
    (fun _ => bearer_starts) (bearer_barrier addressCredentials_new (by decide) (by decide))
    (by decide)

/-- The second rule hides API keys, and the others leave them hidden. -/
theorem key_hidden (s : String) : Hidden KeyWord (text s) := by
  have hfirst : Hidden KeyWord (apiKey.apply (bearerToken.apply s)) := fun _ hq =>
    apiKey_clears (rewrites_start apiKey_consumes _) (agrees_self _ _) hq
  have hnamed := hfirst.apply namedValue_consumes
    (seamless_of_greedy namedValue_greedy (of_startsKey (by decide) (by decide))) (by decide)
    (fun _ => key_starts) (key_barrier namedValue_new (by decide) (by decide)) (by decide)
  exact hnamed.apply addressCredentials_consumes (addressCredentials_seamless _) (by decide)
    (fun _ => key_starts) (key_barrier addressCredentials_new (by decide) (by decide)) (by decide)

/-- **A redacted text is clean.** -/
theorem clean_text (s : String) : Clean (text s) := by
  have hnamed : namedValue.Settled
      (.start (namedValue.apply (apiKey.apply (bearerToken.apply s)))) :=
    namedValue_settles (rewrites_start namedValue_consumes _) (agrees_self _ _)
  have haddress := rewrites_start addressCredentials_consumes
    (namedValue.apply (apiKey.apply (bearerToken.apply s)))
  constructor
  · intro p hp
    exact not_not.mp (mt bearerToken_matches_iff.mp (bearer_hidden s p hp))
  · intro p hp
    exact not_not.mp (mt apiKey_matches_iff.mp (key_hidden s p hp))
  · exact addressCredentials_keeps_settled hnamed haddress (agrees_self _ _)
  · exact addressCredentials_settles haddress

/-- A rule without a match leaves a text as it is. -/
theorem apply_of_forall_none {r : Replacement} {s : String} (hr : r.Consumes)
    (h : ∀ p, (Place.start s).Reaches p → r.matchAt? p = none) : r.apply s = s := by
  refine apply_of_settled hr fun p k e hp hm => ?_
  rw [h p hp] at hm
  cases hm

/-- **A clean text stays as it is.** -/
theorem text_of_clean {s : String} (h : Clean s) : text s = s := by
  rw [text_eq, apply_of_forall_none bearerToken_consumes h.bearer,
    apply_of_forall_none apiKey_consumes h.key, apply_of_settled namedValue_consumes h.named,
    apply_of_settled addressCredentials_consumes h.credentials]

/-- **Redacting twice is redacting once.** -/
theorem text_text (s : String) : text (text s) = text s := text_of_clean (clean_text s)

end Augur.Redaction
