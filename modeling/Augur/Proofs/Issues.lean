/-
# Issues of forecasts and their dates

The dates of stored rows in ascending order, the issues for one date, and the
latest of some publish times. The queries gather rows date by date, so what
they answer depends on these lists only through the rows they hold: lists of
ascending dates are equal when they hold the same dates, and dates without rows
may be left out.

Key definitions: `Ascending`, `DistinctIssues`.
Key theorems: `mem_datesOf`, `ascending_datesOf`, `flatMap_of_subset`,
`latestText_eq_some`.
-/
import Augur.Query.BestForecast
import Augur.Proofs.DateOrder
import Mathlib.Data.List.Pairwise
import Mathlib.Data.List.Sort
import Mathlib.Data.String.Basic

namespace Augur

/-! ### Ascending dates -/

/-- Dates in strictly ascending order. -/
def Ascending (ds : List Date) : Prop := ds.Pairwise fun a b => a.ordinal < b.ordinal

theorem mem_insertDate {d x : Date} : ∀ {l : List Date}, x ∈ insertDate d l ↔ x = d ∨ x ∈ l
  | [] => by simp [insertDate]
  | e :: r => by
    unfold insertDate
    split_ifs with h1 h2
    · exact List.mem_cons
    · rw [Date.ordinal_inj.mp h2]
      simp
    · rw [List.mem_cons, List.mem_cons, mem_insertDate]
      exact or_left_comm

theorem ascending_insertDate (d : Date) : ∀ l : List Date, Ascending l → Ascending (insertDate d l)
  | [], _ => List.pairwise_singleton _ _
  | e :: r, h => by
    obtain ⟨he, hr⟩ := List.pairwise_cons.mp h
    unfold insertDate
    split_ifs with h1 h2
    · refine List.pairwise_cons.mpr ⟨fun x hx => ?_, h⟩
      rcases List.mem_cons.mp hx with rfl | hx
      · exact h1
      · exact Nat.lt_trans h1 (he x hx)
    · exact h
    · refine List.pairwise_cons.mpr ⟨fun x hx => ?_, ascending_insertDate d r hr⟩
      rcases mem_insertDate.mp hx with rfl | hx
      · omega
      · exact he x hx

theorem mem_datesOf {d : Date} : ∀ {rows : List Row}, d ∈ datesOf rows ↔ ∃ r ∈ rows, r.date = d
  | [] => by simp [datesOf]
  | r :: rs => by
    change d ∈ insertDate r.date (datesOf rs) ↔ _
    rw [mem_insertDate, mem_datesOf]
    simp [eq_comm]

theorem ascending_datesOf : ∀ rows : List Row, Ascending (datesOf rows)
  | [] => List.Pairwise.nil
  | r :: rs => ascending_insertDate r.date _ (ascending_datesOf rs)

theorem Ascending.eq_of_mem_iff {a b : List Date} (ha : Ascending a) (hb : Ascending b)
    (h : ∀ d, d ∈ a ↔ d ∈ b) : a = b := by
  have : Std.Irrefl fun a b : Date => a.ordinal < b.ordinal := ⟨fun _ => Nat.lt_irrefl _⟩
  have : Std.Antisymm fun a b : Date => a.ordinal < b.ordinal := ⟨fun a b h1 h2 => by omega⟩
  exact List.Pairwise.eq_of_mem_iff ha hb fun {d} => h d

/-- What is gathered over ascending dates does not change with dates that give nothing. -/
theorem flatMap_of_subset {α : Type} {f : Date → List α} {a b : List Date} (ha : Ascending a)
    (hb : Ascending b) (hsub : ∀ d ∈ a, d ∈ b) (hnil : ∀ d ∈ b, d ∉ a → f d = []) :
    b.flatMap f = a.flatMap f := by
  have hab : a = b.filter (· ∈ a) := by
    refine ha.eq_of_mem_iff (List.Pairwise.filter _ hb) fun d => ?_
    simp only [List.mem_filter, decide_eq_true_eq]
    exact ⟨fun h => ⟨hsub d h, h⟩, fun h => h.2⟩
  have hdrop : ∀ l : List Date, (∀ d ∈ l, d ∉ a → f d = []) →
      l.flatMap f = (l.filter (· ∈ a)).flatMap f := by
    intro l
    induction l with
    | nil => exact fun _ => rfl
    | cons d l ih =>
      intro hl
      have ih := ih fun x hx => hl x (List.mem_cons_of_mem _ hx)
      by_cases hd : d ∈ a
      · simp [hd, ih]
      · simp [hd, ih, hl d List.mem_cons_self hd]
  rw [hdrop b hnil, ← hab]

/-! ### Issues for one date -/

theorem mem_issuesOf {rows : List Row} {d : Date} {r : Row} :
    r ∈ issuesOf rows d ↔ r ∈ rows ∧ r.date = d := by
  simp [issuesOf]

/-- No two rows are issues for one date with one publish time. -/
def DistinctIssues (rows : List Row) : Prop :=
  rows.Pairwise fun a b => ¬ (a.date = b.date ∧ a.publishedAt = b.publishedAt)

instance (rows : List Row) : Decidable (DistinctIssues rows) :=
  inferInstanceAs (Decidable (List.Pairwise _ _))

theorem DistinctIssues.filter {rows : List Row} (h : DistinctIssues rows) (p : Row → Bool) :
    DistinctIssues (rows.filter p) := List.Pairwise.filter p h

/-- Where no two elements of a list agree in two keys, the keys are those of one element. -/
theorem eq_of_keys {α β γ : Type} {f : α → β} {g : α → γ} {l : List α}
    (h : l.Pairwise fun a b => ¬ (f a = f b ∧ g a = g b)) {a b : α} (ha : a ∈ l) (hb : b ∈ l)
    (hf : f a = f b) (hg : g a = g b) : a = b := by
  by_contra hne
  have hsymm : Std.Symm fun a b : α => ¬ (f a = f b ∧ g a = g b) :=
    ⟨fun a b hab hba => hab ⟨hba.1.symm, hba.2.symm⟩⟩
  exact List.Pairwise.forall h ha hb hne ⟨hf, hg⟩

/-- Whether two elements of a list agree in two keys does not depend on their order. -/
theorem pairwise_keys_perm {α β γ : Type} {f : α → β} {g : α → γ} {l l' : List α}
    (hperm : l.Perm l') : (l.Pairwise fun a b => ¬ (f a = f b ∧ g a = g b)) ↔
      l'.Pairwise fun a b => ¬ (f a = f b ∧ g a = g b) :=
  hperm.pairwise_iff fun hab hba => hab ⟨hba.1.symm, hba.2.symm⟩

/-- A date and a publish time are those of one row only. -/
theorem DistinctIssues.eq {rows : List Row} (h : DistinctIssues rows) {r s : Row} (hr : r ∈ rows)
    (hs : s ∈ rows) (hdate : r.date = s.date) (hpublished : r.publishedAt = s.publishedAt) :
    r = s := eq_of_keys h hr hs hdate hpublished

theorem pairwise_of_length_le_one {α : Type} (R : α → α → Prop) :
    ∀ {l : List α}, l.length ≤ 1 → l.Pairwise R
  | [], _ => List.Pairwise.nil
  | [a], _ => List.pairwise_singleton R a

/-- Issues for one date with one publish time are at most one. -/
theorem DistinctIssues.length_le_one {rows : List Row} (h : DistinctIssues rows) {d : Date}
    {p : String} (hr : ∀ r ∈ rows, r.date = d ∧ r.publishedAt = p) : rows.length ≤ 1 := by
  match rows, h, hr with
  | [], _, _ => simp
  | [_], _, _ => simp
  | a :: b :: l, h, hr =>
    have hab := (List.pairwise_cons.mp h).1 b (by simp)
    have ha := hr a (by simp)
    have hb := hr b (by simp)
    exact absurd ⟨ha.1.trans hb.1.symm, ha.2.trans hb.2.symm⟩ hab

/-! ### The latest publish time -/

theorem latestText_eq_none {l : List String} : latestText? l = none ↔ l = [] := by
  cases l with
  | nil => simp [latestText?]
  | cons s r =>
    unfold latestText?
    split <;> simp

/-- The latest text is one of the texts, and none is later. -/
theorem latestText_eq_some : ∀ {l : List String} {s : String},
    latestText? l = some s ↔ s ∈ l ∧ ∀ t ∈ l, t ≤ s
  | [], s => by simp [latestText?]
  | x :: r, s => by
    unfold latestText?
    cases hr : latestText? r with
    | none =>
      rw [latestText_eq_none.mp hr]
      simp only [Option.some.injEq, List.mem_singleton, forall_eq]
      exact ⟨fun h => ⟨h.symm, ge_of_eq h.symm⟩, fun h => h.1.symm⟩
    | some t =>
      obtain ⟨ht, hmax⟩ := latestText_eq_some.mp hr
      simp only [Option.some.injEq]
      constructor
      · rintro rfl
        split_ifs with h
        · refine ⟨List.mem_cons_of_mem _ ht, fun y hy => ?_⟩
          rcases List.mem_cons.mp hy with rfl | hy
          · exact le_of_lt h
          · exact hmax y hy
        · refine ⟨List.mem_cons_self, fun y hy => ?_⟩
          rcases List.mem_cons.mp hy with rfl | hy
          · exact le_refl _
          · exact le_trans (hmax y hy) (not_lt.mp h)
      · rintro ⟨hs, hle⟩
        split_ifs with h
        · refine le_antisymm (hle t (List.mem_cons_of_mem _ ht)) ?_
          rcases List.mem_cons.mp hs with rfl | hs
          · exact le_of_lt h
          · exact hmax s hs
        · refine le_antisymm (hle x List.mem_cons_self) ?_
          rcases List.mem_cons.mp hs with rfl | hs
          · exact le_refl _
          · exact le_trans (hmax s hs) (not_lt.mp h)

end Augur
