/-
# Units of amounts of rain

For display every amount of a rainfall text gets the unit behind it. Over a list
of fragments each amount is found as a whole, a range with its dash, and all
other characters stay. But the unit is put there whether the amount has one or
not. So what is shown has one unit for each amount iff no amount of the feed
came with its unit, and what is shown is never shown as it is: the second time
every amount gets a second unit.

Key definitions: `Rainfall.Fragment.IsMeasured`, `Rainfall.Fragment.marked`,
`Rainfall.Fragment.measured`.
Key theorems: `Rainfall.withUnits_joined`, `Rainfall.marked_eq_measured_iff`,
`Rainfall.units_exact`.
-/
import Augur.Answer.Wording
import Augur.Proofs.WorstRainfall
import Mathlib.Algebra.Order.BigOperators.Group.List

namespace Augur
namespace Rainfall

variable {r : List Char}

/-! ### Segments with units -/

theorem allWords_unit : AllWords unit := by decide

/-- A number that no dash follows is an amount. -/
theorem unitAfterAmounts_number (n : Number) {segments : List Segment}
    (h : segments.head? ≠ some (.other '-')) :
    unitAfterAmounts (.number n.whole n.part :: segments) =
      n.chars ++ (unit ++ unitAfterAmounts segments) := by
  have hdash : ∀ v q rest, segments = .other '-' :: .number v q :: rest → False := by
    rintro v q rest rfl
    exact h rfl
  rw [unitAfterAmounts, List.append_assoc]
  · rfl
  · exact hdash

/-- What follows an amount in a list is no dash. -/
theorem not_dash_of_detached (hr : Detached r) :
    (segmentsFrom .idle r).head? ≠ some (.other '-') := by
  cases r with
  | nil => nofun
  | cons c r =>
    have houtside := hr.outside_head rfl
    rw [segmentsFrom_other houtside.not_digit, List.head?_cons]
    intro h
    cases h
    exact houtside.not_sign.1 rfl

/-- A text with the unit behind every amount, given by its characters. -/
def withUnits (cs : List Char) : List Char := unitAfterAmounts (segmentsFrom .idle cs)

theorem withUnits_cons {c : Char} (h : Text.isDigit c = false) (r : List Char) :
    withUnits (c :: r) = c :: withUnits r := by
  rw [withUnits, segmentsFrom_other h]
  rfl

/-- Words stay as they are. -/
theorem withUnits_words {w : List Char} (hw : AllWords w) (r : List Char) :
    withUnits (w ++ r) = w ++ withUnits r := by
  induction w with
  | nil => rfl
  | cons c w ih =>
    rw [List.cons_append, withUnits_cons (outside (.inl (hw c List.mem_cons_self))).not_digit,
      ih fun d hd => hw d (List.mem_cons_of_mem _ hd), List.cons_append]

/-- An amount gets the unit behind it, a range as a whole. -/
theorem withUnits_amount (a : Amount) (hr : Detached r) :
    withUnits (a.chars ++ r) = a.chars ++ (unit ++ withUnits r) := by
  have hstop : ∀ c, r.head? = some c → Text.isDigit c = false ∧ c ≠ '.' := fun c hc =>
    ⟨(hr.outside_head hc).not_digit, (hr.outside_head hc).not_point⟩
  have hlast := not_dash_of_detached hr
  unfold withUnits
  cases a with
  | exactly n =>
    rw [Amount.chars_exactly, segmentsFrom_number n hstop, unitAfterAmounts_number n hlast]
  | range low high =>
    have hdash : ∀ c, ('-' :: (high.chars ++ r)).head? = some c →
        Text.isDigit c = false ∧ c ≠ '.' := by
      rintro c ⟨⟩
      decide
    rw [Amount.chars_range, List.append_assoc, List.cons_append, segmentsFrom_number low hdash,
      segmentsFrom_other (by decide), segmentsFrom_number high hstop]
    simp [unitAfterAmounts, Number.chars]

/-! ### Fragments with units -/

namespace Fragment

/-- The unit stands behind the amount of a fragment. -/
def IsMeasured (f : Fragment) : Prop := unit <+: f.after

instance (f : Fragment) : Decidable f.IsMeasured := inferInstanceAs (Decidable (unit <+: f.after))

/-- A fragment with the unit put behind its amount. -/
def marked (f : Fragment) : Fragment where
  before := f.before
  amount := f.amount
  after := unit ++ f.after
  before_words := f.before_words
  after_words := by
    intro c hc
    rcases List.mem_append.mp hc with hunit | hafter
    · exact allWords_unit c hunit
    · exact f.after_words c hafter

/-- A fragment whose amount has its unit once: it is put there unless it is there. -/
def measured (f : Fragment) : Fragment := if f.IsMeasured then f else f.marked

theorem marked_chars (f : Fragment) :
    f.marked.chars = f.before ++ (f.amount.chars ++ (unit ++ f.after)) := rfl

theorem length_marked (f : Fragment) : f.marked.chars.length = f.chars.length + 2 := by
  have hunit : unit.length = 2 := rfl
  rw [marked_chars, Fragment.chars]
  simp only [List.length_append, hunit]
  omega

theorem length_measured (f : Fragment) :
    f.measured.chars.length = f.chars.length + if f.IsMeasured then 0 else 2 := by
  unfold measured
  by_cases h : f.IsMeasured
  · rw [if_pos h, if_pos h, Nat.add_zero]
  · rw [if_neg h, if_neg h, length_marked]

end Fragment

theorem withUnits_fragment (f : Fragment) (hr : Detached r) :
    withUnits (f.chars ++ r) = f.marked.chars ++ withUnits r := by
  rw [Fragment.chars, List.append_assoc, withUnits_words f.before_words, List.append_assoc,
    withUnits_amount f.amount (hr.words f.after_words), withUnits_words f.after_words,
    Fragment.marked_chars]
  simp

/-- **A list with units** has the unit behind each of its amounts, and all else as it was. -/
theorem withUnits_joined : ∀ (fs : List Fragment) (f : Fragment),
    withUnits (joined f fs) = joined f.marked (fs.map Fragment.marked)
  | [], f => by
    have hone := withUnits_fragment f .nil
    have hend : withUnits [] = [] := rfl
    rw [hend, List.append_nil, List.append_nil] at hone
    exact hone
  | g :: gs, f => by
    rw [joined, withUnits_fragment f (.comma _), withUnits_cons (by decide), withUnits_joined gs g]
    rfl

/-- What is shown of a list. -/
theorem rainfall_joined (f : Fragment) (fs : List Fragment) :
    Wording.rainfall (.text (String.ofList (joined f fs))) =
      .ok (.text (String.ofList (joined f.marked (fs.map Fragment.marked)))) := by
  have hne : joined f fs ≠ [] := by
    intro hnil
    obtain ⟨cs, c, hlast, -⟩ := exists_concat fs f
    rw [joined_eq, hlast] at hnil
    simp at hnil
  have hbare : (String.ofList (joined f fs)).isEmpty = false := Text.isEmpty_ofList hne
  have hunits : withUnit (String.ofList (joined f fs)) =
      String.ofList (withUnits (joined f fs)) := by
    rw [withUnit, segments, String.toList_ofList]
    rfl
  rw [Wording.rainfall, Json.isBare, hbare, hunits, withUnits_joined]
  rfl

/-! ### One unit for each amount -/

/-- A list grows by what its fragments grow. -/
theorem length_joined_map {m : Fragment → Fragment} {extra : Fragment → ℕ}
    (h : ∀ g, (m g).chars.length = g.chars.length + extra g) :
    ∀ (fs : List Fragment) (f : Fragment),
    (joined (m f) (fs.map m)).length = (joined f fs).length + ((f :: fs).map extra).sum
  | [], f => by simp [joined, h]
  | g :: gs, f => by
    have ih := length_joined_map h gs g
    simp only [List.map_cons, joined, List.length_append, List.length_cons, List.sum_cons,
      h] at ih ⊢
    omega

/-- **Where each amount is shown with one unit:** no amount has had it before. -/
theorem marked_eq_measured_iff (f : Fragment) (fs : List Fragment) :
    joined f.marked (fs.map Fragment.marked) = joined f.measured (fs.map Fragment.measured) ↔
      ∀ g ∈ f :: fs, ¬ g.IsMeasured := by
  constructor
  · intro h g hg hmeasured
    have hless : ((f :: fs).map fun g => if g.IsMeasured then 0 else 2).sum <
        ((f :: fs).map fun _ => 2).sum := by
      refine List.sum_lt_sum _ _ (fun k _ => ?_) ⟨g, hg, by rw [if_pos hmeasured]; decide⟩
      split_ifs <;> decide
    have hlength := congrArg List.length h
    rw [length_joined_map Fragment.length_marked, length_joined_map Fragment.length_measured]
      at hlength
    omega
  · intro h
    have hsame : ∀ g ∈ f :: fs, g.marked = g.measured := fun g hg => (if_neg (h g hg)).symm
    rw [hsame f List.mem_cons_self,
      List.map_congr_left fun g hg => hsame g (List.mem_cons_of_mem _ hg)]

/-- A list with units is not the same with units again. -/
theorem joined_marked_ne (f : Fragment) (fs : List Fragment) :
    joined f.marked (fs.map Fragment.marked) ≠ joined f fs := by
  intro h
  have hlength := congrArg List.length h
  rw [length_joined_map Fragment.length_marked, List.map_cons, List.sum_cons] at hlength
  omega

/-- **The units that are shown.** A list of amounts is shown with the unit behind every one of them
and all else unchanged. That is one unit for each amount iff none of them has its unit in the list.
Shown again, every list gets more units. -/
theorem units_exact (f : Fragment) (fs : List Fragment) :
    let text := String.ofList (joined f fs)
    let shown := String.ofList (joined f.marked (fs.map Fragment.marked))
    let meant := String.ofList (joined f.measured (fs.map Fragment.measured))
    Wording.rainfall (.text text) = .ok (.text shown) ∧
      (shown = meant ↔ ∀ g ∈ f :: fs, ¬ g.IsMeasured) ∧
      ∃ again, Wording.rainfall (.text shown) = .ok (.text again) ∧ again ≠ shown := by
  intro text shown meant
  refine ⟨rainfall_joined f fs, ?_, _, rainfall_joined _ _, ?_⟩
  · rw [String.ofList_inj]
    exact marked_eq_measured_iff f fs
  · rw [Ne, String.ofList_inj]
    exact joined_marked_ne _ _

/-- The fragment `5-10mm`. -/
def measuredLowland : Fragment where
  before := []
  amount := lowland.amount
  after := unit
  before_words := lowland.before_words
  after_words := allWords_unit

/-- A range that comes with its unit is shown with two, and with three the second time. -/
theorem exists_unit_doubled :
    String.ofList (joined measuredLowland []) = "5-10mm" ∧
    String.ofList (joined measuredLowland.measured []) = "5-10mm" ∧
    Wording.rainfall (.text "5-10mm") = .ok (.text "5-10mmmm") ∧
    Wording.rainfall (.text "5-10mmmm") = .ok (.text "5-10mmmmmm") := by
  have htext : String.ofList (joined measuredLowland []) = "5-10mm" := by decide
  have hshown : String.ofList (joined measuredLowland.marked []) = "5-10mmmm" := by decide
  have hagain : String.ofList (joined measuredLowland.marked.marked []) = "5-10mmmmmm" := by decide
  have hone := rainfall_joined measuredLowland []
  have htwo := rainfall_joined measuredLowland.marked []
  rw [List.map_nil, htext, hshown] at hone
  rw [List.map_nil, hshown, hagain] at htwo
  exact ⟨htext, by decide, hone, htwo⟩

end Rainfall
end Augur
