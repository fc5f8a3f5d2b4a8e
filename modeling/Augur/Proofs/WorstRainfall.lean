/-
# The worst amount of rain, asked for and stored

A feed gives rainfall as fragments with commas between: a number or a range of
two, with words of letters and spaces around it. A query reads the text by the
expression for an amount of rain, and a load stores the greatest number in it.
For one fragment and for two, the expression reads the greatest upper end. Of
more than two it sees two only: behind the first comma the first dash decides,
so only the first range there counts, or the first number where none is a
range. What is stored is the greatest number of all fragments, so the two agree
iff no upper end is above the one that the expression reads.

Key definitions: `Rainfall.Amount`, `Rainfall.Fragment`, `Rainfall.joined`,
`Rainfall.leading`, `Rainfall.queried`, `Rainfall.greatest`.
Key theorems: `Rainfall.bareText_joined`, `Rainfall.rainfallAmount_joined`,
`Rainfall.worst_amount_exact`, `Rainfall.range_joined`,
`Rainfall.amounts_agree_iff`.
-/
import Augur.Proofs.RainfallTexts

namespace Augur
namespace Rainfall

open Augur.Expr (bareText rainfallAmount rainfallAmount_halves rainfallAmount_whole upperOf
  upperPart upperPart_cut upperPart_of_not_mem)
open Value (leadingReal)

/-! ### Amounts and lists of them -/

/-- An amount of rain: a number, or a range of two with a dash between. -/
inductive Amount where
  | exactly (n : Number)
  | range (low high : Number)

namespace Amount

def chars : Amount → List Char
  | exactly n => n.chars
  | range low high => low.chars ++ '-' :: high.chars

/-- The upper end of a range, or the number itself. -/
def last : Amount → Number
  | exactly n => n
  | range _ high => high

/-- The exact value of the upper end. -/
def upper (a : Amount) : ℚ := a.last.value

/-- The numbers of an amount. -/
def numbers : Amount → List Number
  | exactly n => [n]
  | range low high => [low, high]

def isRange : Amount → Bool
  | exactly _ => false
  | range _ _ => true

/-- The lower end of a range is not above the upper one. -/
def Ordered : Amount → Prop
  | exactly _ => True
  | range low high => low.value ≤ high.value

instance : (a : Amount) → Decidable a.Ordered
  | exactly _ => isTrue trivial
  | range low high => inferInstanceAs (Decidable (low.value ≤ high.value))

@[simp] theorem chars_exactly (n : Number) : (exactly n).chars = n.chars := rfl

@[simp] theorem chars_range (low high : Number) :
    (range low high).chars = low.chars ++ '-' :: high.chars := rfl

@[simp] theorem last_range (low high : Number) : (range low high).last = high := rfl

theorem upper_nonneg (a : Amount) : 0 ≤ a.upper := a.last.value_nonneg

/-- An amount ends with its last number. -/
theorem chars_eq (a : Amount) : ∃ front, a.chars = front ++ a.last.chars := by
  cases a with
  | exactly n => exact ⟨[], rfl⟩
  | range low high => exact ⟨low.chars ++ ['-'], by simp⟩

theorem exists_cons (a : Amount) : ∃ c cs, a.chars = c :: cs ∧ c.isDigit = true := by
  cases a with
  | exactly n => exact n.exists_cons
  | range low high =>
    obtain ⟨c, cs, hlow, hc⟩ := low.exists_cons
    exact ⟨c, cs ++ '-' :: high.chars, by rw [chars_range, hlow, List.cons_append], hc⟩

theorem exists_concat (a : Amount) : ∃ cs c, a.chars = cs ++ [c] ∧ c.isDigit = true := by
  obtain ⟨front, hfront⟩ := a.chars_eq
  obtain ⟨cs, c, hlast, hc⟩ := a.last.exists_concat
  exact ⟨front ++ cs, c, by rw [hfront, hlast, List.append_assoc], hc⟩

theorem mem_chars {a : Amount} {c : Char} (h : c ∈ a.chars) :
    c.isDigit = true ∨ c = '.' ∨ c = '-' := by
  cases a with
  | exactly n => exact (n.mem_chars h).imp_right .inl
  | range low high =>
    rw [chars_range, List.mem_append, List.mem_cons] at h
    rcases h with hlow | hdash | hhigh
    · exact (low.mem_chars hlow).imp_right .inl
    · exact .inr (.inr hdash)
    · exact (high.mem_chars hhigh).imp_right .inl

end Amount

/-- An amount with words of letters and spaces around it. -/
structure Fragment where
  before : List Char
  amount : Amount
  after : List Char
  before_words : AllWords before
  after_words : AllWords after

def Fragment.chars (f : Fragment) : List Char := f.before ++ (f.amount.chars ++ f.after)

/-- Fragments with a comma between each two. -/
def joined (f : Fragment) : List Fragment → List Char
  | [] => f.chars
  | g :: gs => f.chars ++ ',' :: joined g gs

/-- What stands behind the first amount of a list up to the last amount of all, where `after` are
the words behind the first one. -/
def trail (after : List Char) : List Fragment → List Char
  | [] => []
  | g :: gs => after ++ ',' :: (g.before ++ (g.amount.chars ++ trail g.after gs))

/-- The words behind the last amount of a list. -/
def lastWords (after : List Char) : List Fragment → List Char
  | [] => after
  | g :: gs => lastWords g.after gs

theorem joined_eq : ∀ (gs : List Fragment) (g : Fragment), joined g gs =
    g.before ++ ((g.amount.chars ++ trail g.after gs) ++ lastWords g.after gs)
  | [], g => by simp [joined, Fragment.chars, trail, lastWords]
  | h :: hs, g => by simp [joined, Fragment.chars, trail, lastWords, joined_eq hs h]

theorem lastWords_words {after : List Char} (h : AllWords after) : ∀ gs : List Fragment,
    AllWords (lastWords after gs)
  | [] => h
  | g :: gs => lastWords_words g.after_words gs

theorem detached_trail {after : List Char} (h : AllWords after) : ∀ gs : List Fragment,
    Detached (trail after gs)
  | [] => .nil
  | _ :: _ => .words h (.comma _)

/-- Up to its last amount a list ends with a digit. -/
theorem exists_concat : ∀ (gs : List Fragment) (g : Fragment),
    ∃ cs c, g.amount.chars ++ trail g.after gs = cs ++ [c] ∧ c.isDigit = true
  | [], g => by simpa [trail] using g.amount.exists_concat
  | h :: hs, g => by
    obtain ⟨cs, c, hcs, hc⟩ := exists_concat hs h
    exact ⟨g.amount.chars ++ (g.after ++ ',' :: (h.before ++ cs)), c, by simp [trail, hcs], hc⟩

/-- A list without the words around it goes from the first amount to the last. -/
theorem bareText_joined (g : Fragment) (gs : List Fragment) :
    bareText (String.ofList (joined g gs)) =
      String.ofList (g.amount.chars ++ trail g.after gs) := by
  obtain ⟨c, cs, hfirst, hc⟩ := g.amount.exists_cons
  obtain ⟨ds, d, hlast, hd⟩ := exists_concat gs g
  rw [bareText, Expr.trimText, String.toList_ofList, joined_eq gs g]
  refine congrArg String.ofList (Text.trimChars_around g.before_words
    (lastWords_words g.after_words gs) (by simp [hfirst]) (fun x hx => ?_) fun x hx => ?_)
  · rw [hfirst] at hx
    cases hx
    exact not_isWordChar hc
  · rw [hlast, List.getLast?_concat] at hx
    cases hx
    exact not_isWordChar hd

/-! ### What the expression reads of a list -/

theorem Fragment.mem_chars {f : Fragment} {c : Char} (h : c ∈ f.chars) :
    isWordChar c = true ∨ c.isDigit = true ∨ c = '.' ∨ c = '-' := by
  rw [Fragment.chars, List.mem_append, List.mem_append] at h
  rcases h with hbefore | hamount | hafter
  · exact .inl (f.before_words c hbefore)
  · exact .inr (Amount.mem_chars hamount)
  · exact .inl (f.after_words c hafter)

theorem comma_not_mem (f : Fragment) : ',' ∉ f.chars := fun h =>
  absurd (Fragment.mem_chars h) (by decide)

theorem visible_joined : ∀ (gs : List Fragment) (g : Fragment), '\x00' ∉ joined g gs
  | [], g => fun h => absurd (Fragment.mem_chars h) (by decide)
  | k :: ks, g => fun h => by
    rw [joined, List.mem_append, List.mem_cons] at h
    rcases h with hfirst | hcomma | hrest
    · exact absurd (Fragment.mem_chars hfirst) (by decide)
    · exact absurd hcomma (by decide)
    · exact visible_joined ks k hrest

theorem dash_not_mem_number (n : Number) : '-' ∉ n.chars := fun h =>
  absurd (n.mem_chars h) (by decide)

theorem dash_not_mem_words {w : List Char} (hw : AllWords w) : '-' ∉ w := fun h =>
  absurd (hw '-' h) (by decide)

theorem find_of_exactly {g : Fragment} {n : Number} (hg : g.amount = .exactly n)
    (gs : List Fragment) : (g :: gs).find? (·.amount.isRange) = gs.find? (·.amount.isRange) :=
  List.find?_cons_of_neg (by simp [hg, Amount.isRange])

theorem find_of_range {g : Fragment} {low high : Number} (hg : g.amount = .range low high)
    (gs : List Fragment) : (g :: gs).find? (·.amount.isRange) = some g :=
  List.find?_cons_of_pos (by simp [hg, Amount.isRange])

/-- The first dash of a list is that of its first range, and the upper end of this follows it. A
list without a range has no dash. -/
theorem dash_cases : ∀ (gs : List Fragment) (g : Fragment),
    ((g :: gs).find? (·.amount.isRange) = none ∧ '-' ∉ g.amount.chars ++ trail g.after gs) ∨
    ∃ x u r, (g :: gs).find? (·.amount.isRange) = some x ∧
      g.amount.chars ++ trail g.after gs = u ++ '-' :: (x.amount.last.chars ++ r) ∧
      '-' ∉ u ∧ Detached r := by
  intro gs
  induction gs with
  | nil =>
    intro g
    cases hg : g.amount with
    | exactly n =>
      exact .inl ⟨find_of_exactly hg [], by simpa [trail] using dash_not_mem_number n⟩
    | range low high =>
      exact .inr ⟨g, low.chars, [], find_of_range hg [], by simp [hg, trail],
        dash_not_mem_number low, .nil⟩
  | cons k ks ih =>
    intro g
    cases hg : g.amount with
    | exactly n =>
      -- a number in front and the words up to the next amount have no dash
      have hfront : (Amount.exactly n).chars ++ trail g.after (k :: ks) =
          (n.chars ++ (g.after ++ ',' :: k.before)) ++ (k.amount.chars ++ trail k.after ks) := by
        simp [trail]
      have hplain : '-' ∉ n.chars ++ (g.after ++ ',' :: k.before) := by
        simp [dash_not_mem_number n, dash_not_mem_words g.after_words,
          dash_not_mem_words k.before_words]
      rw [find_of_exactly hg, hfront]
      rcases ih k with ⟨hnone, hdash⟩ | ⟨x, u, r, hx, hcut, hdash, hr⟩
      · refine .inl ⟨hnone, ?_⟩
        rw [List.mem_append, not_or]
        exact ⟨hplain, hdash⟩
      · refine .inr ⟨x, n.chars ++ (g.after ++ ',' :: k.before) ++ u, r, hx, ?_, ?_, hr⟩
        · rw [hcut]
          exact (List.append_assoc _ _ _).symm
        · rw [List.mem_append, not_or]
          exact ⟨hplain, hdash⟩
    | range low high =>
      exact .inr ⟨g, low.chars, trail g.after (k :: ks), find_of_range hg _, by simp [hg],
        dash_not_mem_number low, detached_trail g.after_words _⟩

/-- The fragment of a list that its text is read as: the first range, or the first number where
there is none. -/
def leading (g : Fragment) (gs : List Fragment) : Fragment :=
  ((g :: gs).find? (·.amount.isRange)).getD g

theorem upperOf_joined (g : Fragment) (gs : List Fragment) :
    upperOf (String.ofList (joined g gs)) = Double.round (leading g gs).amount.upper := by
  rw [upperOf, bareText_joined, leading]
  rcases dash_cases gs g with ⟨hnone, hdash⟩ | ⟨x, u, r, hx, hcut, hdash, hr⟩
  · have hnumber : g.amount.chars = g.amount.last.chars := by
      cases hg : g.amount with
      | exactly n => rfl
      | range low high => cases hnone.symm.trans (find_of_range hg gs)
    rw [hnone, upperPart_of_not_mem (by rwa [String.toList_ofList]), hnumber]
    exact leadingReal_number _ (detached_trail g.after_words gs)
  · have hvisible : '\x00' ∉ g.amount.chars ++ trail g.after gs := fun h =>
      visible_joined gs g (by
        rw [joined_eq]
        exact List.mem_append_right _ (List.mem_append_left _ h))
    rw [hcut] at hvisible ⊢
    rw [hx, upperPart_cut hdash hvisible]
    exact leadingReal_number _ hr

/-- What the expression makes of a list: of the first fragment and the one that the rest is read
as, the larger upper end. -/
def queried (f : Fragment) : List Fragment → ℚ
  | [] => f.amount.upper
  | g :: gs => max f.amount.upper (leading g gs).amount.upper

theorem leading_nil (g : Fragment) : leading g [] = g := by
  unfold leading
  cases hg : g.amount with
  | exactly n => rw [find_of_exactly hg]; rfl
  | range low high => rw [find_of_range hg]; rfl

theorem rainfallAmount_joined (f : Fragment) : ∀ fs : List Fragment,
    (rainfallAmount.value (.text (String.ofList (joined f fs)))).toReal? =
      some (Double.round (queried f fs))
  | [] => by
    have hcomma : ',' ∉ (String.ofList (joined f [])).toList := by
      rw [String.toList_ofList]
      exact comma_not_mem f
    rw [rainfallAmount_whole hcomma (by rw [String.toList_ofList]; exact visible_joined [] f),
      upperOf_joined, leading_nil]
    rfl
  | g :: gs => by
    have hfirst : String.ofList f.chars = String.ofList (joined f []) := rfl
    rw [joined, rainfallAmount_halves (comma_not_mem f) (visible_joined (g :: gs) f), hfirst,
      upperOf_joined, upperOf_joined, leading_nil,
      Double.max_round (Amount.upper_nonneg _) (Amount.upper_nonneg _)]
    rfl

/-- **The worst amount of rain on its documented shapes.** Of one fragment, a number or a range with
any words of letters and spaces around it, the expression reads the upper end of the range or the
number; of two with a comma between, the larger of both upper ends; and of no text or a text of
spaces nothing. The double is the one nearest to the exact value. -/
theorem worst_amount_exact :
    (∀ f : Fragment, (rainfallAmount.value (.text (String.ofList f.chars))).toReal? =
      some (Double.round f.amount.upper)) ∧
    (∀ f g : Fragment,
      (rainfallAmount.value (.text (String.ofList (f.chars ++ ',' :: g.chars)))).toReal? =
        some (Double.round (max f.amount.upper g.amount.upper))) ∧
    rainfallAmount.value .null = .int 0 ∧
    ∀ n : ℕ, rainfallAmount.value (.text (String.ofList (List.replicate n ' '))) = .int 0 := by
  refine ⟨fun f => rainfallAmount_joined f [], fun f g => ?_, rfl, fun n => ?_⟩
  · have htwo := rainfallAmount_joined f [g]
    rw [queried, leading_nil] at htwo
    exact htwo
  · have hblank : ∀ c ∈ (String.ofList (List.replicate n ' ')).toList, c = ' ' := by simp
    rw [Expr.value_rainfallAmount fun h => absurd (hblank _ h) (by decide)]
    exact if_pos (.inl hblank)

/-! ### What a feed reads of a list -/

theorem numbersIn_amount (a : Amount) {r : List Char}
    (hr : ∀ c, r.head? = some c → Text.isDigit c = false ∧ c ≠ '.') :
    numbersIn (a.chars ++ r) = (a.numbers.map fun n => Double.round n.value) ++ numbersIn r := by
  cases a with
  | exactly n => exact numbersIn_number n hr
  | range low high =>
    have hdash : ∀ c, ('-' :: (high.chars ++ r)).head? = some c →
        Text.isDigit c = false ∧ c ≠ '.' := by
      rintro c ⟨⟩
      decide
    rw [Amount.chars_range, List.append_assoc, List.cons_append, numbersIn_number low hdash,
      numbersIn_cons (by decide), numbersIn_number high hr]
    rfl

theorem numbersIn_fragment (f : Fragment) {r : List Char} (hr : Detached r) :
    numbersIn (f.chars ++ r) =
      (f.amount.numbers.map fun n => Double.round n.value) ++ numbersIn r := by
  have hstop : ∀ c, (f.after ++ r).head? = some c → Text.isDigit c = false ∧ c ≠ '.' :=
    fun c hc => by
      have houtside := (hr.words f.after_words).outside_head hc
      exact ⟨houtside.not_digit, houtside.not_point⟩
  rw [Fragment.chars, List.append_assoc, List.append_assoc, numbersIn_words f.before_words,
    numbersIn_amount f.amount hstop, numbersIn_words f.after_words]

/-- The numbers of all fragments of a list. -/
def allNumbers (f : Fragment) (fs : List Fragment) : List Number :=
  (f :: fs).flatMap (·.amount.numbers)

/-- In a list the numbers of its amounts are found, whatever words are around them. -/
theorem numbersIn_joined : ∀ (fs : List Fragment) (f : Fragment),
    numbersIn (joined f fs) = (allNumbers f fs).map fun n => Double.round n.value
  | [], f => by
    have hone := numbersIn_fragment f .nil
    have hend : numbersIn [] = [] := rfl
    rw [hend, List.append_nil, List.append_nil] at hone
    simpa [joined, allNumbers] using hone
  | g :: gs, f => by
    rw [joined, numbersIn_fragment f (.comma _), numbersIn_cons (by decide), numbersIn_joined gs g]
    simp [allNumbers]

/-- The greatest number of a list. -/
def greatest (f : Fragment) (fs : List Fragment) : ℚ :=
  ((allNumbers f fs).map Number.value).foldl max 0

theorem exists_numbers_cons (a : Amount) : ∃ n ns, a.numbers = n :: ns := by
  cases a with
  | exactly n => exact ⟨n, [], rfl⟩
  | range low high => exact ⟨low, [high], rfl⟩

theorem range_joined (f : Fragment) (fs : List Fragment) :
    (range? (String.ofList (joined f fs))).map (·.2) = some (Double.round (greatest f fs)) := by
  obtain ⟨n, ns, hfirst⟩ := exists_numbers_cons f.amount
  obtain ⟨rest, hall⟩ : ∃ rest, allNumbers f fs = n :: rest :=
    ⟨ns ++ fs.flatMap (·.amount.numbers), by rw [allNumbers, List.flatMap_cons, hfirst]; rfl⟩
  have hamounts : amounts (String.ofList (joined f fs)) =
      Double.round n.value :: (rest.map Number.value).map Double.round := by
    rw [amounts_ofList, numbersIn_joined, hall, List.map_cons, List.map_map]
    rfl
  have hnonneg : ∀ q ∈ rest.map Number.value, 0 ≤ q := by
    simp [Number.value_nonneg]
  rw [range?, hamounts, greatest, hall, List.map_cons, List.foldl_cons,
    max_eq_right n.value_nonneg, ← foldl_max_round n.value_nonneg hnonneg]
  rfl

/-! ### Where both agree -/

theorem foldl_max_le_iff {q : ℚ} : ∀ {l : List ℚ} {x : ℚ},
    l.foldl max x ≤ q ↔ x ≤ q ∧ ∀ y ∈ l, y ≤ q
  | [], x => by simp
  | y :: l, x => by
    rw [List.foldl_cons, foldl_max_le_iff, max_le_iff, List.forall_mem_cons, and_assoc]

theorem Amount.last_mem (a : Amount) : a.last ∈ a.numbers := by
  cases a with
  | exactly n => exact List.mem_singleton_self n
  | range low high => exact List.mem_cons_of_mem _ (List.mem_singleton_self high)

theorem Amount.le_upper {a : Amount} (h : a.Ordered) {n : Number} (hn : n ∈ a.numbers) :
    n.value ≤ a.upper := by
  cases a with
  | exactly m => rw [List.mem_singleton.mp hn]; rfl
  | range low high =>
    simp only [Amount.numbers, List.mem_cons, List.not_mem_nil, or_false] at hn
    rcases hn with rfl | rfl
    · exact h
    · rfl

/-- No number of a list is above a bound iff no upper end is. -/
theorem greatest_le_iff {f : Fragment} {fs : List Fragment} {q : ℚ}
    (hordered : ∀ g ∈ f :: fs, g.amount.Ordered) :
    greatest f fs ≤ q ↔ ∀ g ∈ f :: fs, g.amount.upper ≤ q := by
  rw [greatest, foldl_max_le_iff, allNumbers]
  simp only [List.mem_map, List.mem_flatMap]
  constructor
  · rintro ⟨-, hall⟩ g hg
    exact hall _ ⟨_, ⟨g, hg, g.amount.last_mem⟩, rfl⟩
  · intro hall
    refine ⟨(f.amount.upper_nonneg).trans (hall f List.mem_cons_self), ?_⟩
    rintro _ ⟨n, ⟨g, hg, hn⟩, rfl⟩
    exact (Amount.le_upper (hordered g hg) hn).trans (hall g hg)

theorem leading_mem (g : Fragment) (gs : List Fragment) : leading g gs ∈ g :: gs := by
  unfold leading
  cases hx : (g :: gs).find? (·.amount.isRange) with
  | none => exact List.mem_cons_self
  | some x => exact List.mem_of_find?_eq_some hx

/-- What the expression reads is the upper end of a fragment, at least that of the first. -/
theorem queried_spec (f : Fragment) (fs : List Fragment) :
    f.amount.upper ≤ queried f fs ∧ ∃ g ∈ f :: fs, queried f fs = g.amount.upper := by
  cases fs with
  | nil => exact ⟨le_rfl, f, List.mem_cons_self, rfl⟩
  | cons g gs =>
    refine ⟨le_max_left _ _, ?_⟩
    rcases max_choice f.amount.upper (leading g gs).amount.upper with h | h
    · exact ⟨f, List.mem_cons_self, h⟩
    · exact ⟨leading g gs, List.mem_cons_of_mem _ (leading_mem g gs), h⟩

/-- **Where the amount of a query is the greatest number of the feed.** Over a list of fragments
whose ranges are in order, the expression reads the larger of two upper ends, the one of the first
fragment and the one that the rest is read as, which is that of its first range or, where there is
none, its first number. The greatest number that is stored is the greatest upper end of all. They
are equal iff no upper end is above the one that is read; with at most two fragments they are. -/
theorem amounts_agree_iff (f : Fragment) (fs : List Fragment)
    (hordered : ∀ g ∈ f :: fs, g.amount.Ordered) :
    (rainfallAmount.value (.text (String.ofList (joined f fs)))).toReal? =
      some (Double.round (queried f fs)) ∧
    (range? (String.ofList (joined f fs))).map (·.2) = some (Double.round (greatest f fs)) ∧
    (queried f fs = greatest f fs ↔ ∀ g ∈ fs, g.amount.upper ≤ queried f fs) ∧
    (fs.length ≤ 1 → queried f fs = greatest f fs) := by
  obtain ⟨hfirst, g, hg, hqueried⟩ := queried_spec f fs
  have hle : queried f fs ≤ greatest f fs := by
    rw [hqueried]
    exact (greatest_le_iff hordered).mp le_rfl g hg
  have hiff : queried f fs = greatest f fs ↔ ∀ g ∈ fs, g.amount.upper ≤ queried f fs := by
    rw [le_antisymm_iff, and_iff_right hle, greatest_le_iff hordered, List.forall_mem_cons,
      and_iff_right hfirst]
  refine ⟨rainfallAmount_joined f fs, range_joined f fs, hiff, fun hlength => hiff.mpr ?_⟩
  match fs with
  | [] => nofun
  | [g] =>
    rintro h hh
    rw [List.mem_singleton.mp hh, queried, leading_nil]
    exact le_max_right _ _

/-- The fragment `5-10`. -/
def lowland : Fragment where
  before := []
  amount := .range ⟨['5'], [], List.cons_ne_nil _ _, by decide⟩
    ⟨['1', '0'], [], List.cons_ne_nil _ _, by decide⟩
  after := []
  before_words := List.forall_mem_nil _
  after_words := List.forall_mem_nil _

/-- The fragment ` 10-20 hills`. -/
def hills : Fragment where
  before := [' ']
  amount := .range ⟨['1', '0'], [], List.cons_ne_nil _ _, by decide⟩
    ⟨['2', '0'], [], List.cons_ne_nil _ _, by decide⟩
  after := " hills".toList
  before_words := by decide
  after_words := by decide

/-- The fragment ` 30-40 mountains`. -/
def mountains : Fragment where
  before := [' ']
  amount := .range ⟨['3', '0'], [], List.cons_ne_nil _ _, by decide⟩
    ⟨['4', '0'], [], List.cons_ne_nil _ _, by decide⟩
  after := " mountains".toList
  before_words := by decide
  after_words := by decide

theorem ordered_areas : ∀ g ∈ [lowland, hills, mountains], g.amount.Ordered := by
  decide +kernel

/-- The third of three ranges is stored and not read. -/
theorem amounts_agree_iff_mountains :
    (∀ g ∈ [lowland, hills, mountains], g.amount.Ordered) ∧
    String.ofList (joined lowland [hills, mountains]) = "5-10, 10-20 hills, 30-40 mountains" ∧
    queried lowland [hills, mountains] = 20 ∧ greatest lowland [hills, mountains] = 40 ∧
    ¬ ∀ g ∈ [hills, mountains], g.amount.upper ≤ queried lowland [hills, mountains] := by
  have hqueried : queried lowland [hills, mountains] = 20 := by decide +kernel
  have hgreatest : greatest lowland [hills, mountains] = 40 := by decide +kernel
  obtain ⟨-, -, hiff, -⟩ := amounts_agree_iff lowland [hills, mountains] ordered_areas
  refine ⟨ordered_areas, by decide, hqueried, hgreatest, fun hall => ?_⟩
  have hequal := hiff.mpr hall
  rw [hqueried, hgreatest] at hequal
  exact absurd hequal (by norm_num)

/-- A list of three ranges in order whose worst amount a query does not see. -/
theorem exists_amounts_apart : ¬ ∀ (f : Fragment) (fs : List Fragment),
    (∀ g ∈ f :: fs, g.amount.Ordered) →
    (rainfallAmount.value (.text (String.ofList (joined f fs)))).toReal? =
      (range? (String.ofList (joined f fs))).map (·.2) := by
  intro hagree
  have hsame := hagree lowland [hills, mountains] ordered_areas
  rw [rainfallAmount_joined, range_joined] at hsame
  have happart : Double.round (queried lowland [hills, mountains]) ≠
      Double.round (greatest lowland [hills, mountains]) := by decide +kernel
  exact happart (Option.some.inj hsame)

end Rainfall
end Augur
