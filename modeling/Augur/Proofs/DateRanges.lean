/-
# Ranges of dates

A range of an intent is compared with forecast dates as text. Its ends are open
or the standard forms of dates, so the comparison of texts is the comparison of
dates, both ends included.

Key definitions: `DateToken.endOn?`, `InRange`.
Key theorems: `DateToken.bound_eq`, `includes_iff`.
-/
import Augur.Query.BestForecast
import Augur.Proofs.IsoDates

namespace Augur

/-- The date that a token sets as the end of a range; nothing for an open end. -/
def DateToken.endOn? (today : Date) : DateToken → Option Date
  | .today => some today
  | t => t.date?

/-- A date lies in a range, both ends included. -/
def InRange (today : Date) (range : Option DateRange) (d : Date) : Prop :=
  ∀ r, range = some r → (∀ a, r.start.endOn? today = some a → a.ordinal ≤ d.ordinal) ∧
    ∀ b, r.stop.endOn? today = some b → d.ordinal ≤ b.ordinal

/-- The end of a range as text is the standard form of its date. -/
theorem DateToken.bound_eq (today : Date) {t : DateToken} (h : t.isAccepted = true) :
    t.bound? today = (t.endOn? today).map Date.iso := by
  cases t with
  | today => rfl
  | firstRecord => rfl
  | lastRecord => rfl
  | literal s =>
    have hs : isConcreteDate s = true := h
    obtain ⟨d, rfl⟩ := isConcreteDate_iff.mp hs
    simp only [bound?, resolve, text, endOn?, date?, hs, ↓reduceIte, Iso.date_iso, Option.map_some]

theorem includes_iff {today : Date} {range : Option DateRange} {d : Date} :
    (Bounds.ofRange today range).includes d.iso = true ↔ InRange today range d := by
  cases range with
  | none => simp [Bounds.ofRange, Bounds.includes, InRange]
  | some r =>
    simp only [Bounds.ofRange, Bounds.includes, DateToken.bound_eq today r.start_accepted,
      DateToken.bound_eq today r.stop_accepted, InRange, Option.some.injEq, forall_eq',
      Bool.and_eq_true]
    refine and_congr ?_ ?_
    · cases r.start.endOn? today with
      | none => simp
      | some a => simp [-String.lt_iff_ltb, Date.iso_lt_iff]
    · cases r.stop.endOn? today with
      | none => simp
      | some b => simp [-String.lt_iff_ltb, Date.iso_lt_iff]

instance (today : Date) (range : Option DateRange) (d : Date) : Decidable (InRange today range d) :=
  decidable_of_iff _ includes_iff

end Augur
