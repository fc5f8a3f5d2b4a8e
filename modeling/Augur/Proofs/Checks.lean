/-
# Checks that pass

When a check of a value against a schema passes, and with what. A check built
from others passes iff they do; a list passes item by item, an optional field
passes when it is missing or null, and a choice by the name of one of the
choices.

Key definitions: `Schema.Optionally`.
Key theorems: `Schema.Checked.apply_eq_ok`, `Schema.Checked.items_eq_ok`,
`Schema.required_eq_ok`, `Schema.optional_eq_ok`, `Schema.choice_eq_ok`.
-/
import Augur.Schema.Field
import Mathlib.Data.List.Forall2
import Mathlib.Data.List.Nodup
import Mathlib.Tactic.SplitIfs

namespace Augur.Schema

variable {α β : Type}

namespace Checked

theorem both_eq_ok {x : Checked α} {y : Checked β} {p : α × β} :
    x.both y = .ok p ↔ x = .ok p.1 ∧ y = .ok p.2 := by
  cases x <;> cases y <;> simp [both, Prod.ext_iff]

theorem map_eq_ok {x : Checked α} {f : α → β} {b : β} :
    x.map f = .ok b ↔ ∃ a, x = .ok a ∧ f a = b := by
  cases x <;> simp [map]

theorem andThen_eq_ok {x : Checked α} {f : α → Checked β} {b : β} :
    x.andThen f = .ok b ↔ ∃ a, x = .ok a ∧ f a = .ok b := by
  cases x <;> simp [andThen]

theorem within_eq_ok {x : Checked α} {part : String} {a : α} :
    x.within part = .ok a ↔ x = .ok a := by
  cases x <;> simp [within]

theorem apply_eq_ok {f : Checked (α → β)} {x : Checked α} {b : β} :
    f.apply x = .ok b ↔ ∃ g a, f = .ok g ∧ x = .ok a ∧ g a = b := by
  simp only [apply, map_eq_ok, both_eq_ok, Prod.exists, and_assoc]

theorem fault_ne_ok {f : Fault} {a : α} : fault f ≠ .ok a := nofun

theorem toOption_eq_some {x : Checked α} {a : α} : x.toOption = some a ↔ x = .ok a := by
  cases x <;> simp [toOption]

/-- A list passes iff its items do, one by one. -/
theorem items_eq_ok {check : α → Checked β} {start : Nat} {vs : List α} {xs : List β} :
    items check start vs = .ok xs ↔ List.Forall₂ (fun v x => check v = .ok x) vs xs := by
  induction vs generalizing start xs with
  | nil => cases xs <;> simp [items]
  | cons v r ih =>
    simp only [items, map_eq_ok, both_eq_ok, within_eq_ok, ih]
    constructor
    · rintro ⟨p, ⟨hv, hr⟩, rfl⟩
      exact .cons hv hr
    · rintro (_ | ⟨hv, hr⟩)
      exact ⟨(_, _), ⟨hv, hr⟩, rfl⟩

end Checked

variable {key : String} {fs : Json.Fields}

theorem required_eq_ok {check : Json → Checked α} {a : α} :
    required key check fs = .ok a ↔ ∃ v, Json.lookup key fs = some v ∧ check v = .ok a := by
  rw [required, Checked.within_eq_ok]
  cases Json.lookup key fs <;> simp [Checked.fault_ne_ok]

/-- A field is missing or null, or has a value that denotes something. -/
def Optionally (key : String) (denotes : Json → α → Prop) (fs : Json.Fields) : Option α → Prop
  | none => Json.lookup key fs = none ∨ Json.lookup key fs = some .null
  | some a => ∃ v, Json.lookup key fs = some v ∧ denotes v a

theorem optional_eq_ok {check : Json → Checked α} {denotes : Json → α → Prop}
    (h : ∀ v a, check v = .ok a ↔ denotes v a) (hnull : ∀ a, ¬ denotes .null a) {o : Option α} :
    optional key check fs = .ok o ↔ Optionally key denotes fs o := by
  unfold optional
  cases hv : Json.lookup key fs with
  | none => cases o <;> simp [Optionally, hv]
  | some v =>
    cases v with
    | null => cases o <;> simp [Optionally, hv, hnull]
    | _ => cases o <;> simp [Optionally, hv, ← h, Checked.within_eq_ok, Checked.map_eq_ok]

theorem text_eq_ok {v : Json} {s : String} : text v = .ok s ↔ v = .text s := by
  cases v <;> simp [text, Checked.fault]

/-- A choice is made by its name, where names are different. -/
theorem choice_eq_ok {choices : List α} {name : α → String} {v : Json} {a : α}
    (hnames : (choices.map name).Nodup) (ha : a ∈ choices) :
    choice choices name v = .ok a ↔ v = .text (name a) := by
  cases v with
  | text s =>
    rw [choice, Json.text.injEq]
    cases hfind : choices.find? fun c => name c == s with
    | none =>
      refine iff_of_false Checked.fault_ne_ok ?_
      rintro rfl
      simpa using List.find?_eq_none.mp hfind a ha
    | some b =>
      have hb := List.find?_some hfind
      have hmem := List.mem_of_find?_eq_some hfind
      simp only [beq_iff_eq] at hb
      subst hb
      rw [Checked.ok.injEq]
      exact ⟨fun h => h ▸ rfl, List.inj_on_of_nodup_map hnames hmem ha⟩
  | _ => exact iff_of_false Checked.fault_ne_ok nofun

theorem listUpTo_eq_ok {limit : Nat} {check : Json → Checked α} {v : Json} {xs : List α} :
    listUpTo limit check v = .ok xs ↔
      ∃ vs, v = .list vs ∧ vs.length ≤ limit ∧
        List.Forall₂ (fun v x => check v = .ok x) vs xs := by
  cases v with
  | list vs =>
    unfold listUpTo
    dsimp only
    split_ifs with hlong
    · exact iff_of_false Checked.fault_ne_ok (by rintro ⟨_, ⟨⟩, hle, -⟩; omega)
    · rw [Checked.items_eq_ok]
      constructor
      · exact fun h => ⟨vs, rfl, Nat.not_lt.mp hlong, h⟩
      · rintro ⟨_, ⟨⟩, -, h⟩
        exact h
  | _ => exact iff_of_false Checked.fault_ne_ok nofun

theorem object_eq_ok {name : String} {check : Json.Fields → Checked α} {v : Json} {a : α} :
    object name check v = .ok a ↔ ∃ fs, v = .object fs ∧ check fs = .ok a := by
  cases v <;> simp [object, Checked.fault]

end Augur.Schema
