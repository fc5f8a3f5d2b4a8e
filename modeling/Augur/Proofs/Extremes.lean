/-
# The extreme of a field

The query for an extreme takes the numbers in one field of the best forecasts
of a range, picks the least or the greatest of them and answers with the last
day on which the field has it. A forecast without a number in the field does
not count; of rainfall every forecast has an amount, if only zero.

Key definitions: `Row.number?`, `Extreme.Reaches`, `Extreme.Attains`,
`AtExtreme`.
Key theorems: `Plan.amount_eq_number`, `Extreme.attains_extremeOf`,
`atExtreme_getLast`, `extreme_exact`.
-/
import Augur.Proofs.Compilation
import Augur.Proofs.MatchingDays
import Augur.Proofs.RainfallAmounts

namespace Augur

/-! ### The number in a field -/

/-- The number in a field of a forecast: of rainfall the amount that it promises at worst, of any
other field its value as a number, if it has one. -/
def Row.number? (field : Field) (r : Row) : Option Double :=
  if field = .rainfall then some (worstRainfall r.columns.rainfall) else (r.value field).toReal?

theorem Row.value_ne_real (r : Row) (field : Field) (x : Double) : r.value field ≠ .real x := by
  have hint : ∀ n : Option Int, Value.ofInt? n ≠ .real x := fun n => by cases n <;> nofun
  have htext : ∀ s : Option String, Value.ofText? s ≠ .real x := fun s => by cases s <;> nofun
  cases field with
  | minTemp | maxTemp | windSpeed => exact hint _
  | windDirection | rainfall => exact htext _
  | description | visibility => nofun

theorem Row.number_ne_nan {field : Field} {r : Row} {x : Double} (h : r.number? field = some x) :
    x ≠ .nan := by
  unfold number? at h
  split_ifs at h with hfield
  · obtain ⟨y, hy, hnan⟩ := Expr.rainfallAmount_isNumber r.columns.rainfall
    rw [worstRainfall, hy] at h
    rwa [← Option.some.inj h]
  · exact Value.ne_nan_of_toReal (r.value_ne_real field _) h

/-- The query sees the number in a field. -/
theorem Plan.amount_eq_number (field : Field) (r : Row) : amount? field r = r.number? field := by
  unfold amount? Row.number?
  by_cases hfield : field = .rainfall
  · rw [if_pos hfield, hfield]
    obtain ⟨x, hx, -⟩ := Expr.rainfallAmount_isNumber r.columns.rainfall
    show (Expr.rainfallAmount.value (.ofText? r.columns.rainfall)).toReal? = _
    rw [worstRainfall, hx]
    rfl
  · rw [if_neg hfield]
    have hamount : field.amount = .number .column := by
      cases field with
      | rainfall => exact absurd rfl hfield
      | _ => rfl
    rw [hamount]
    show ((Expr.number .column).value (r.value field)).toReal? = _
    rw [Expr.value, Expr.value]
    cases (r.value field).toReal? <;> rfl

/-! ### The least or greatest number -/

/-- One number is no further from the extreme than another: at most the other where the minimum is
asked for, and at least the other where the maximum is. -/
def Extreme.Reaches (e : Extreme) (x y : Double) : Prop :=
  match e with
  | .min => x.le y = true
  | .max => y.le x = true

namespace Extreme

open Double (nan)

variable {e : Extreme} {x y z : Double}

theorem reaches_iff (hx : x ≠ nan) (hy : y ≠ nan) :
    e.Reaches x y ↔ if e = .min then x.level ≤ y.level else y.level ≤ x.level := by
  cases e with
  | min => exact Double.le_iff hx hy
  | max => exact Double.le_iff hy hx

theorem reaches_refl (hx : x ≠ nan) : e.Reaches x x := by
  rw [reaches_iff hx hx]
  split_ifs <;> exact le_rfl

theorem Reaches.trans (hx : x ≠ nan) (hy : y ≠ nan) (hz : z ≠ nan) (hxy : e.Reaches x y)
    (hyz : e.Reaches y z) : e.Reaches x z := by
  rw [reaches_iff hx hy] at hxy
  rw [reaches_iff hy hz] at hyz
  rw [reaches_iff hx hz]
  split_ifs at hxy hyz ⊢
  · exact hxy.trans hyz
  · exact hyz.trans hxy

/-- The number of two that is nearer to the extreme. -/
def nearer (e : Extreme) (a b : Double) : Double := if e = .min then a.min b else a.max b

/-- The nearer of two numbers is one of them and reaches both. -/
theorem nearer_spec (hx : x ≠ nan) (hy : y ≠ nan) :
    (nearer e x y = x ∨ nearer e x y = y) ∧
      e.Reaches (nearer e x y) x ∧ e.Reaches (nearer e x y) y := by
  cases e with
  | min =>
    show ((if y.lt x then y else x) = x ∨ (if y.lt x then y else x) = y) ∧
      Extreme.min.Reaches (if y.lt x then y else x) x ∧
      Extreme.min.Reaches (if y.lt x then y else x) y
    by_cases h : y.lt x = true
    · have hle : y.le x = true := by rw [Double.le, h]; rfl
      rw [if_pos h]
      exact ⟨.inr rfl, hle, reaches_refl hy⟩
    · rw [if_neg h]
      exact ⟨.inl rfl, reaches_refl hx, (Double.not_lt_iff hy hx).mp h⟩
  | max =>
    show ((if x.lt y then y else x) = x ∨ (if x.lt y then y else x) = y) ∧
      Extreme.max.Reaches (if x.lt y then y else x) x ∧
      Extreme.max.Reaches (if x.lt y then y else x) y
    by_cases h : x.lt y = true
    · have hle : x.le y = true := by rw [Double.le, h]; rfl
      rw [if_pos h]
      exact ⟨.inr rfl, hle, reaches_refl hy⟩
    · rw [if_neg h]
      exact ⟨.inl rfl, reaches_refl hx, (Double.not_lt_iff hx hy).mp h⟩

/-- A number is one of some numbers and reaches them all. -/
def Attains (e : Extreme) (xs : List Double) (x : Double) : Prop :=
  x ∈ xs ∧ ∀ y ∈ xs, e.Reaches x y

/-- What is extreme with the nearer of two numbers is so with both. -/
theorem Attains.of_nearer {xs : List Double} (h : ∀ w ∈ x :: y :: xs, w ≠ nan)
    (hz : e.Attains (nearer e x y :: xs) z) : e.Attains (x :: y :: xs) z := by
  obtain ⟨hmem, hreaches⟩ := hz
  have hx : x ≠ nan := h x (by simp)
  have hy : y ≠ nan := h y (by simp)
  obtain ⟨hone, hnearx, hneary⟩ := nearer_spec (e := e) hx hy
  have hnear : nearer e x y ≠ nan := by
    rcases hone with hone | hone <;> rwa [hone]
  have hmem' : z ∈ x :: y :: xs := by
    rcases List.mem_cons.mp hmem with rfl | hxs
    · rcases hone with hone | hone <;> simp [hone]
    · simp [hxs]
  have hznear := hreaches _ List.mem_cons_self
  have hz : z ≠ nan := h z hmem'
  refine ⟨hmem', fun w hw => ?_⟩
  rcases List.mem_cons.mp hw with rfl | hw
  · exact Reaches.trans hz hnear hx hznear hnearx
  · rcases List.mem_cons.mp hw with rfl | hw
    · exact Reaches.trans hz hnear hy hznear hneary
    · exact hreaches w (List.mem_cons_of_mem _ hw)

/-- Going through numbers, what is kept is the extreme of all that were seen. -/
theorem attains_foldl : ∀ (xs : List Double) (x : Double), (∀ y ∈ x :: xs, y ≠ nan) →
    e.Attains (x :: xs) (xs.foldl (nearer e) x)
  | [], x, h => by
    refine ⟨List.mem_singleton_self x, fun y hy => ?_⟩
    rw [List.mem_singleton.mp hy]
    exact reaches_refl (h x List.mem_cons_self)
  | y :: xs, x, h => by
    have hx : x ≠ nan := h x (by simp)
    have hy : y ≠ nan := h y (by simp)
    refine .of_nearer h (attains_foldl xs (nearer e x y) fun w hw => ?_)
    rcases List.mem_cons.mp hw with rfl | hw
    · rcases (nearer_spec (e := e) hx hy).1 with hone | hone <;> rwa [hone]
    · exact h w (by simp [hw])

theorem extremeOf_eq_none {xs : List Double} : Plan.extremeOf? e xs = none ↔ xs = [] := by
  cases xs <;> simp [Plan.extremeOf?]

theorem attains_extremeOf {xs : List Double} (h : ∀ y ∈ xs, y ≠ nan)
    (hx : Plan.extremeOf? e xs = some x) : e.Attains xs x := by
  cases xs with
  | nil => cases hx
  | cons y ys =>
    rw [← Option.some.inj hx]
    exact attains_foldl ys y h

end Extreme

/-! ### The day of the extreme -/

/-- The row for the last of some days on which a field is at its extreme, if the field has a number
on any of them. -/
structure AtExtreme (period : List Row) (field : Field) (e : Extreme) (row : Option Row) :
    Prop where
  isNone : row = none ↔ ∀ r ∈ period, r.number? field = none
  mem : ∀ r, row = some r → r ∈ period
  reaches : ∀ r, row = some r → ∃ x, r.number? field = some x ∧
    ∀ t ∈ period, ∀ y, t.number? field = some y → e.Reaches x y
  latest : ∀ r, row = some r → ∀ t ∈ period, t ≠ r → ∀ x y, r.number? field = some x →
    t.number? field = some y → y.eq x = true → t.date.ordinal < r.date.ordinal

theorem lt_getLast {rows : List Row} {r t : Row}
    (hascending : rows.Pairwise fun x y => x.date.ordinal < y.date.ordinal)
    (hr : rows.getLast? = some r) (ht : t ∈ rows) (hne : t ≠ r) :
    t.date.ordinal < r.date.ordinal := by
  obtain ⟨before, rfl⟩ := List.getLast?_eq_some_iff.mp hr
  rcases List.mem_append.mp ht with ht | ht
  · exact (List.pairwise_append.mp hascending).2.2 t ht r (List.mem_singleton_self r)
  · exact absurd (List.mem_singleton.mp ht) hne

/-- A row on which the field has the number `x`. -/
def Row.hasNumber (field : Field) (x : Double) (r : Row) : Bool :=
  ((r.number? field).map (·.eq x)).getD false

theorem Row.hasNumber_iff {field : Field} {x : Double} {r : Row} :
    r.hasNumber field x = true ↔ ∃ y, r.number? field = some y ∧ y.eq x = true := by
  unfold hasNumber
  cases r.number? field <;> simp

section Ascending

variable {period : List Row} {field : Field} {e : Extreme}
  (hascending : period.Pairwise fun x y => x.date.ordinal < y.date.ordinal)
include hascending

/-- Of the rows that have the extreme number the last one is asked for. -/
theorem atExtreme_getLast {x : Double}
    (hx : e.Attains (period.filterMap (Row.number? field)) x) :
    AtExtreme period field e (period.filter (Row.hasNumber field x)).getLast? := by
  obtain ⟨hmem, hreaches⟩ := hx
  obtain ⟨attained, hattained, hvalue⟩ := List.mem_filterMap.mp hmem
  have hxnan : x ≠ .nan := Row.number_ne_nan hvalue
  have hmem_filter : ∀ r, r ∈ period.filter (Row.hasNumber field x) ↔
      r ∈ period ∧ ∃ y, r.number? field = some y ∧ y.eq x = true := fun r => by
    rw [List.mem_filter, Row.hasNumber_iff]
  have hself : x.eq x = true := (Double.eq_iff hxnan hxnan).mpr rfl
  obtain ⟨last, hlast⟩ : ∃ r, (period.filter (Row.hasNumber field x)).getLast? = some r := by
    have hne : period.filter (Row.hasNumber field x) ≠ [] :=
      List.ne_nil_of_mem ((hmem_filter attained).mpr ⟨hattained, x, hvalue, hself⟩)
    exact ⟨_, List.getLast?_eq_some_getLast hne⟩
  obtain ⟨hperiod, z, hz, hzx⟩ := (hmem_filter last).mp (List.mem_of_getLast? hlast)
  have hznan : z ≠ .nan := Row.number_ne_nan hz
  have hlevel : z.level = x.level := (Double.eq_iff hznan hxnan).mp hzx
  rw [hlast]
  refine ⟨iff_of_false nofun fun hnone => ?_, ?_, ?_, ?_⟩
  · rw [hnone attained hattained] at hvalue
    cases hvalue
  · rintro r ⟨⟩
    exact hperiod
  · rintro r ⟨⟩
    refine ⟨z, hz, fun t ht y hy => ?_⟩
    have hynan : y ≠ .nan := Row.number_ne_nan hy
    have hxy := hreaches y (List.mem_filterMap.mpr ⟨t, ht, hy⟩)
    rw [Extreme.reaches_iff hxnan hynan] at hxy
    rwa [Extreme.reaches_iff hznan hynan, hlevel]
  · rintro r ⟨⟩ t ht hne x' y hx' hy hyx
    obtain rfl := Option.some.inj (hx'.symm.trans hz)
    have hynan : y ≠ .nan := Row.number_ne_nan hy
    have hsame : y.eq x = true := by
      rw [Double.eq_iff hynan hxnan, ← hlevel]
      exact (Double.eq_iff hynan hznan).mp hyx
    exact lt_getLast (hascending.sublist List.filter_sublist) hlast
      ((hmem_filter t).mpr ⟨ht, y, hy, hsame⟩) hne

omit hascending in
/-- Where no row has a number, none is asked for. -/
theorem atExtreme_none (h : period.filterMap (Row.number? field) = []) :
    AtExtreme period field e none where
  isNone := iff_of_true rfl (List.filterMap_eq_nil_iff.mp h)
  mem r hr := by cases hr
  reaches r hr := by cases hr
  latest r hr := by cases hr

end Ascending

/-- The answer of the query for an extreme. -/
theorem Plan.exists_atExtreme [Engine] {rows : List Row} (distinct : DistinctIssues rows)
    (b : Bounds) (field : Field) (e : Extreme) :
    ∃ row, AtExtreme (bestForecasts b rows) field e row ∧
      (Plan.extreme b field e).outcome rows = .forecasts row.toList := by
  have hascending := bestForecasts_ascending b distinct
  have hamount : amount? field = Row.number? field := funext (amount_eq_number field)
  unfold outcome
  dsimp only
  rw [hamount]
  cases hx : extremeOf? e ((bestForecasts b rows).filterMap (Row.number? field)) with
  | none => exact ⟨none, atExtreme_none (Extreme.extremeOf_eq_none.mp hx), rfl⟩
  | some x =>
    have hdefined : ∀ y ∈ (bestForecasts b rows).filterMap (Row.number? field), y ≠ .nan :=
      fun y hy => by
        obtain ⟨r, -, hr⟩ := List.mem_filterMap.mp hy
        exact Row.number_ne_nan hr
    exact ⟨_, atExtreme_getLast hascending (Extreme.attains_extremeOf hdefined hx), rfl⟩

theorem Intent.plan_extreme {i : Intent} (hkind : i.queryType = .extremeValue)
    (hmissing : i.missing = []) (today : Date) : ∃ field rest e, i.fields = some (field :: rest) ∧
      i.extreme = some e ∧
      i.plan today = .ok (.extreme (Bounds.ofRange today i.dateRange) field e) := by
  have hhas : ∀ p ∈ [Particular.dateRange, .fields, .extreme], i.has p = true := fun p hp =>
    has_of_missing hmissing (by rwa [hkind])
  obtain ⟨e, he⟩ := Option.isSome_iff_exists.mp (hhas .extreme (by simp))
  obtain ⟨field, rest, hfields⟩ : ∃ field rest, i.fields = some (field :: rest) := by
    have hsome := hhas .fields (by simp)
    unfold has at hsome
    rcases hfields : i.fields with _ | _ | ⟨field, rest⟩
    · simp [hfields] at hsome
    · simp [hfields] at hsome
    · exact ⟨field, rest, rfl⟩
  refine ⟨field, rest, e, hfields, he, ?_⟩
  unfold plan extremePlan
  rw [hkind, hfields, he]

/-- **The extreme of a field**, where no two issues share their date and publish time. An accepted
question for it is answered with no row when no best forecast of the range has a number in the
first field asked for, and else with one of these best forecasts: its number is at most (for the
minimum) or at least (for the maximum) that of every other one, and it is the last of those with
this number. -/
theorem extreme_exact [Engine] (s : Store) (htable : s.hasTable = true)
    (distinct : DistinctIssues s.rows) {v : Json} {i : Intent}
    (haccepted : Intent.ofJson v = .ok i) (hkind : i.queryType = .extremeValue) (today : Date) :
    ∃ field rest e plan row, i.fields = some (field :: rest) ∧ i.extreme = some e ∧
      i.plan today = .ok plan ∧ s.execute plan = .ok (.forecasts row.toList) ∧
      AtExtreme (bestForecasts (Bounds.ofRange today i.dateRange) s.rows) field e row := by
  obtain ⟨field, rest, e, hfields, he, hplan⟩ :=
    Intent.plan_extreme hkind (Intent.missing_of_ofJson haccepted) today
  obtain ⟨row, hrow, houtcome⟩ :=
    Plan.exists_atExtreme distinct (Bounds.ofRange today i.dateRange) field e
  refine ⟨field, rest, e, _, row, hfields, he, hplan, ?_, hrow⟩
  rw [Store.execute_of_not_fails htable (Plan.not_fails_of_none rfl _), houtcome]

/-- A question for the warmest day, as a model asks for it. -/
def warmestDay : Json :=
  .object [("query_type", .text "extreme_value"), ("fields", .list [.text "max_temp"]),
    ("extreme", .text "max"), ("date_range",
      .object [("start", .text "first_record"), ("end", .text "last_record")])]

theorem extreme_exact_warmestDay : ∃ i, Intent.ofJson warmestDay = .ok i ∧
    i.queryType = .extremeValue ∧ DistinctIssues warmSpell ∧
    ∃ plan, i.plan marchEve = .ok plan ∧
      Store.execute ⟨warmSpell, 5, true⟩ plan =
        .ok (.forecasts [.high 3 marchFirst (some 15)]) := by
  have distinct := warmSpell_distinct
  have hperiod := bestForecasts_warmSpell
  obtain ⟨i, hi, hkind, hfields, hmax, hrange⟩ : ∃ i, Intent.ofJson warmestDay = .ok i ∧
      i.queryType = .extremeValue ∧ i.fields = some [.maxTemp] ∧ i.extreme = some .max ∧
      Bounds.ofRange marchEve i.dateRange = ⟨none, none⟩ := ⟨_, rfl, rfl, rfl, rfl, rfl⟩
  obtain ⟨field, rest, e, plan, row, hfields', hmax', hplan, hrow, hextreme⟩ :=
    extreme_exact ⟨warmSpell, 5, true⟩ rfl distinct hi hkind marchEve
  cases hfields.symm.trans hfields'
  cases hmax.symm.trans hmax'
  rw [hrange] at hextreme
  change AtExtreme (bestForecasts ⟨none, none⟩ warmSpell) .maxTemp .max row at hextreme
  rw [hperiod] at hextreme
  have hwarm : (Row.high 3 marchFirst (some 15)).number? .maxTemp = some (.finite 15) := by
    decide +kernel
  have hmem : Row.high 3 marchFirst (some 15) ∈ warmSpell := by decide +kernel
  obtain ⟨r, rfl⟩ : ∃ r, row = some r := Option.ne_none_iff_exists'.mp fun hnone => by
    have := hextreme.isNone.mp hnone _ hmem
    rw [hwarm] at this
    cases this
  obtain ⟨x, hx, hreaches⟩ := hextreme.reaches r rfl
  have hbound := hreaches _ hmem _ hwarm
  have hlast := hextreme.latest r rfl _ hmem
  have hr := hextreme.mem r rfl
  simp only [warmSpell, List.mem_cons, List.not_mem_nil, or_false] at hr
  rcases hr with rfl | rfl | rfl | rfl
  · -- the cool day is not the warmest
    have hcool : (Row.high 1 ((Date.ofYMD? 2025 2 27).get rfl) (some 9)).number? .maxTemp =
        some (.finite 9) := by decide +kernel
    cases hx.symm.trans hcool
    change (Double.finite 15).le (.finite 9) = true at hbound
    exact absurd hbound (by decide +kernel)
  · -- as warm, but not the last
    have hearly := hlast (by decide +kernel) x _ hx hwarm (by
      have hsame : (Row.high 2 marchEve (some 15)).number? .maxTemp = some (.finite 15) := by
        decide +kernel
      cases hx.symm.trans hsame
      decide +kernel)
    exact absurd hearly (by decide +kernel)
  · exact ⟨i, hi, hkind, distinct, plan, hplan, hrow⟩
  · cases hx

end Augur
