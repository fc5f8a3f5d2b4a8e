/-
# Redacted values

What redaction makes of nested values, place by place. A place is named by the
steps that lead to it: the index of an item, or the index and the key of a
field. With no sensitive key on the way there stands the redacted value of
what stood there before, so keys, lengths and all values that are no texts
stay and every text is a redacted text; a sensitive key has the mark under it,
and nothing below. Values that differ under sensitive keys alone are redacted
to the same value.

Key definitions: `Json.Step`, `Json.at?`, `Redaction.Swap`.
Key theorems: `Redaction.isSensitive_iff`, `Redaction.value_value`,
`Redaction.value_at_iff`, `Redaction.value_eq_of_eqvGen`,
`Redaction.secrets_hidden`.
-/
import Augur.Proofs.SecretTexts
import Augur.Redaction.Value
import Mathlib.Logic.Relation

namespace Augur

/-! ### Places of a value -/

namespace Json

/-- A step into a value: to the item at an index, or to the field at an index, which has a key. -/
inductive Step where
  | item (i : Nat)
  | field (i : Nat) (key : String)
  deriving DecidableEq

/-- Where a step leads, if it can be made. -/
def child? : Step → Json → Option Json
  | .item i, .list items => items[i]?
  | .field i key, .object fields =>
    match fields[i]? with
    | some (k, v) => if k = key then some v else none
    | none => none
  | _, _ => none

/-- What stands at the end of a path. -/
def at? : List Step → Json → Option Json
  | [], v => some v
  | s :: path, v => (child? s v).bind (at? path)

end Json

namespace Redaction

open Json (Step at? child?)
open Text (Place Pattern foldLetter)

/-! ### Sensitive keys -/

/-- A name is sensitive iff one of the sensitive names stands in it, in any case. -/
theorem isSensitive_iff {name : String} : isSensitive name = true ↔
    ∃ u w v, name.toList = u ++ (w ++ v) ∧ w.map foldLetter ∈ sensitiveNames := by
  have hfree : sensitive.edgeFree = true := rfl
  rw [isSensitive, Pattern.found_iff]
  constructor
  · rintro ⟨p, ⟨u, hu⟩, q, hq⟩
    obtain ⟨w, hw, hread⟩ := Pattern.reads_of_mem_ways hq
    exact ⟨u, w, q.rest, by rw [← hw.1]; exact hu.1, reads_sensitive_iff.mp hread⟩
  · rintro ⟨u, w, v, hname, hw⟩
    obtain ⟨p, hp, hrest⟩ := Place.exists_to (p := .start name) hname
    obtain ⟨q, hq, -⟩ := Place.exists_to hrest
    exact ⟨p, hp.reaches, q, Pattern.mem_ways_of_reads hfree hq (reads_sensitive_iff.mpr hw)⟩

/-- A step goes to what stands under a sensitive key. -/
def isSecret : Step → Bool
  | .item _ => false
  | .field _ key => isSensitive key

/-! ### Redaction by recursion -/

/-- What stands under a key. -/
def fieldValue (key : String) (v : Json) : Json := if isSensitive key then .text mark else value v

theorem values_eq_map (items : List Json) : values items = items.map value := by
  induction items with
  | nil => rfl
  | cons v r ih => rw [values, List.map_cons, ih]

theorem record_eq_map (fields : Json.Fields) :
    record fields = fields.map fun f => (f.1, fieldValue f.1 f.2) := by
  induction fields with
  | nil => rfl
  | cons f r ih => rw [record, List.map_cons, ih, fieldValue]

mutual

/-- **Redacting a value twice is redacting it once.** -/
theorem value_value : ∀ v : Json, value (value v) = value v
  | .null => rfl
  | .bool _ => rfl
  | .int _ => rfl
  | .double _ => rfl
  | .text s => by rw [value, value, text_text]
  | .list items => by rw [value, value, values_values items]
  | .object fields => by rw [value, value, record_record fields]

theorem values_values : ∀ items : List Json, values (values items) = values items
  | [] => rfl
  | v :: r => by rw [values, values, value_value v, values_values r]

theorem record_record : ∀ fields : List (String × Json), record (record fields) = record fields
  | [] => rfl
  | (k, v) :: r => by
    rw [record, record, record_record r]
    by_cases h : isSensitive k = true
    · rw [if_pos h, if_pos h]
    · rw [if_neg h, if_neg h, value_value v]

end

/-! ### What stands where -/

theorem child?_value (s : Step) (v : Json) : child? s (value v) =
    (child? s v).map fun w => if isSecret s then .text mark else value w := by
  cases v with
  | list items =>
    cases s with
    | item i =>
      rw [value, child?, child?, values_eq_map, List.getElem?_map]
      rfl
    | field i key => rfl
  | object fields =>
    cases s with
    | item i => rfl
    | field i key =>
      rw [value, child?, child?, record_eq_map, List.getElem?_map]
      cases fields[i]? with
      | none => rfl
      | some f =>
        obtain ⟨k, w⟩ := f
        by_cases hk : k = key
        · subst hk
          simp only [Option.map_some, if_true]
          rfl
        · simp only [Option.map_some, Option.map_none, if_neg hk]
  | _ => cases s <;> rfl

/-- Nothing stands in a text but the text. -/
theorem at?_text {path : List Step} {t : String} {w : Json} :
    at? path (.text t) = some w ↔ path = [] ∧ w = .text t := by
  cases path with
  | nil =>
    rw [at?, Option.some.injEq]
    exact ⟨fun h => ⟨rfl, h.symm⟩, fun h => h.2.symm⟩
  | cons s path =>
    have hchild : child? s (.text t) = none := by cases s <;> rfl
    rw [at?, hchild]
    exact iff_of_false nofun fun h => nomatch h.1

section FirstSecret

variable {s : Step} {path : List Step} {Q : Prop}

/-- A path that starts with a step to a secret ends with the first such step iff it is this step
alone. -/
theorem firstSecret_cons_of_secret (hs : isSecret s = true) :
    (∃ front t, s :: path = front ++ [t] ∧ (∀ x ∈ front, isSecret x = false) ∧
      isSecret t = true ∧ Q) ↔ path = [] ∧ Q := by
  constructor
  · rintro ⟨front, t, hpath, hclear, -, hq⟩
    cases front with
    | nil => exact ⟨(List.cons.inj hpath).2, hq⟩
    | cons f front =>
      obtain ⟨rfl, -⟩ := List.cons.inj hpath
      rw [hclear s List.mem_cons_self] at hs
      cases hs
  · rintro ⟨rfl, hq⟩
    exact ⟨[], s, rfl, nofun, hs, hq⟩

/-- A step elsewhere in front does not change whether a path ends with its first step to a
secret. -/
theorem firstSecret_cons_of_clear (hs : isSecret s = false) :
    (∃ front t, s :: path = front ++ [t] ∧ (∀ x ∈ front, isSecret x = false) ∧
      isSecret t = true ∧ Q) ↔
    ∃ front t, path = front ++ [t] ∧ (∀ x ∈ front, isSecret x = false) ∧ isSecret t = true ∧ Q := by
  constructor
  · rintro ⟨front, t, hpath, hclear, ht, hq⟩
    cases front with
    | nil =>
      obtain ⟨rfl, -⟩ := List.cons.inj hpath
      rw [hs] at ht
      cases ht
    | cons f front =>
      obtain ⟨rfl, rfl⟩ := List.cons.inj hpath
      exact ⟨front, t, rfl, (List.forall_mem_cons.mp hclear).2, ht, hq⟩
  · rintro ⟨front, t, rfl, hclear, ht, hq⟩
    exact ⟨s :: front, t, rfl, List.forall_mem_cons.mpr ⟨hs, hclear⟩, ht, hq⟩

end FirstSecret

/-- **What stands in a redacted value**: with no sensitive key on the way, the redacted value of
what stood there; under a first sensitive key, the mark; and nothing else. -/
theorem value_at_iff {path : List Step} {v w : Json} : at? path (value v) = some w ↔
    ((∀ s ∈ path, isSecret s = false) ∧ ∃ u, at? path v = some u ∧ w = value u) ∨
    ∃ front s, path = front ++ [s] ∧ (∀ t ∈ front, isSecret t = false) ∧ isSecret s = true ∧
      (at? path v).isSome = true ∧ w = .text mark := by
  induction path generalizing v with
  | nil =>
    rw [at?, Option.some.injEq]
    constructor
    · rintro rfl
      exact .inl ⟨nofun, v, rfl, rfl⟩
    · rintro (⟨-, u, hu, rfl⟩ | ⟨front, s, hpath, -⟩)
      · rw [← Option.some.inj hu]
      · exact absurd hpath.symm (List.append_ne_nil_of_right_ne_nil _ (List.cons_ne_nil s []))
  | cons s path ih =>
    rw [at?, child?_value, at?]
    cases hchild : child? s v with
    | none => simp
    | some u =>
      rw [Option.map_some, Option.bind_some, Option.bind_some]
      by_cases hs : isSecret s = true
      · rw [if_pos hs, at?_text, firstSecret_cons_of_secret hs]
        constructor
        · rintro ⟨rfl, rfl⟩
          exact .inr ⟨rfl, rfl, rfl⟩
        · rintro (⟨hclear, -⟩ | ⟨rfl, -, rfl⟩)
          · rw [hclear s List.mem_cons_self] at hs
            cases hs
          · exact ⟨rfl, rfl⟩
      · have hclear : isSecret s = false := Bool.not_eq_true _ ▸ hs
        rw [if_neg hs, ih, firstSecret_cons_of_clear hclear, List.forall_mem_cons,
          and_iff_right hclear]

/-! ### Values that differ in secrets -/

/-- Another value under one sensitive key, at any depth. -/
inductive Swap : Json → Json → Prop
  | secret {key : String} (h : isSensitive key = true) (before after : Json.Fields) (v w : Json) :
    Swap (.object (before ++ (key, v) :: after)) (.object (before ++ (key, w) :: after))
  | item {v w : Json} (h : Swap v w) (before after : List Json) :
    Swap (.list (before ++ v :: after)) (.list (before ++ w :: after))
  | field {v w : Json} (h : Swap v w) (key : String) (before after : Json.Fields) :
    Swap (.object (before ++ (key, v) :: after)) (.object (before ++ (key, w) :: after))

theorem value_object_congr {key : String} {v w : Json} (h : fieldValue key v = fieldValue key w)
    (before after : Json.Fields) : value (.object (before ++ (key, v) :: after)) =
      value (.object (before ++ (key, w) :: after)) := by
  simp only [value, record_eq_map, List.map_append, List.map_cons, h]

theorem value_eq_of_swap {v w : Json} (h : Swap v w) : value v = value w := by
  induction h with
  | secret h before after v w =>
    refine value_object_congr ?_ before after
    rw [fieldValue, fieldValue, if_pos h, if_pos h]
  | item h before after ih =>
    simp only [value, values_eq_map, List.map_append, List.map_cons, ih]
  | field h key before after ih =>
    refine value_object_congr ?_ before after
    rw [fieldValue, fieldValue, ih]

/-- **Values that differ under sensitive keys alone are redacted to the same value.** -/
theorem value_eq_of_eqvGen {v w : Json} (h : Relation.EqvGen Swap v w) : value v = value w := by
  induction h with
  | rel v w h => exact value_eq_of_swap h
  | refl v => rfl
  | symm v w _ ih => exact ih.symm
  | trans u v w _ _ ih1 ih2 => exact ih1.trans ih2

/-- What redaction makes of a value: texts are redacted as texts, the items of a list and the
fields of an object stay in number and order with their keys, and all else stays. -/
structure Shape (v w : Json) : Prop where
  text : ∀ s, v = .text s → w = .text (text s)
  list : ∀ items, v = .list items → ∃ ws, w = .list ws ∧ ws.length = items.length
  object : ∀ fields, v = .object fields →
    ∃ gs, w = .object gs ∧ gs.map (·.1) = fields.map (·.1)
  scalar : (∀ s, v ≠ .text s) → (∀ items, v ≠ .list items) → (∀ fields, v ≠ .object fields) → w = v

theorem shape_value (v : Json) : Shape v (value v) where
  text := by
    rintro s rfl
    rfl
  list := by
    rintro items rfl
    exact ⟨values items, rfl, by rw [values_eq_map, List.length_map]⟩
  object := by
    rintro fields rfl
    exact ⟨record fields, rfl, by rw [record_eq_map, List.map_map]; rfl⟩
  scalar htext hlist hobject := by
    cases v with
    | text s => exact absurd rfl (htext s)
    | list items => exact absurd rfl (hlist items)
    | object fields => exact absurd rfl (hobject fields)
    | _ => rfl

/-- **Redaction hides all secrets it looks for, and is done after once.** A redacted text is clean
and stays as it is. A redacted value stays as it is; at each place there stands the mark, if the
last key on the way is the first sensitive one, or else the redacted value of what stood there, of
the same shape and with redacted texts; and the value does not depend on what stood under sensitive
keys. -/
theorem secrets_hidden :
    (∀ s, text (text s) = text s ∧ Clean (text s)) ∧
    (∀ v, value (value v) = value v ∧ Shape v (value v)) ∧
    (∀ path v w, at? path (value v) = some w ↔
      ((∀ s ∈ path, isSecret s = false) ∧ ∃ u, at? path v = some u ∧ w = value u) ∨
      ∃ front s, path = front ++ [s] ∧ (∀ t ∈ front, isSecret t = false) ∧ isSecret s = true ∧
        (at? path v).isSome = true ∧ w = .text mark) ∧
    (∀ name, isSensitive name = true ↔
      ∃ u w v, name.toList = u ++ (w ++ v) ∧ w.map foldLetter ∈ sensitiveNames) ∧
    ∀ v w, Relation.EqvGen Swap v w → value v = value w :=
  ⟨fun s => ⟨text_text s, clean_text s⟩, fun v => ⟨value_value v, shape_value v⟩,
    fun _ _ _ => value_at_iff, fun _ => isSensitive_iff, fun _ _ => value_eq_of_eqvGen⟩

/-- A request as it is logged, with a header that holds a secret. -/
def loggedRequest (secret : String) : Json :=
  .object [("headers", .object [("Authorization", .text secret)]),
    ("items", .list [.text "sunny", .int 3])]

theorem secrets_hidden_loggedRequest :
    Relation.EqvGen Swap (loggedRequest "Bearer x") (loggedRequest "y") ∧
    value (loggedRequest "Bearer x") = value (loggedRequest "y") ∧
    at? [.field 0 "headers", .field 0 "Authorization"] (value (loggedRequest "Bearer x")) =
      some (.text mark) ∧
    at? [.field 1 "items", .item 0] (value (loggedRequest "y")) = some (.text (text "sunny")) := by
  have hkey : isSensitive "Authorization" = true := by decide +kernel
  have hheaders : isSensitive "headers" = false := by decide +kernel
  have hitems : isSensitive "items" = false := by decide +kernel
  have hswap : Swap (loggedRequest "Bearer x") (loggedRequest "y") :=
    .field (.secret hkey [] [] (.text "Bearer x") (.text "y")) "headers" []
      [("items", .list [.text "sunny", .int 3])]
  obtain ⟨-, -, hat, -, hsame⟩ := secrets_hidden
  refine ⟨.rel _ _ hswap, hsame _ _ (.rel _ _ hswap), ?_, ?_⟩
  · refine (hat _ _ _).mpr (.inr ⟨[.field 0 "headers"], _, rfl, ?_, hkey, rfl, rfl⟩)
    exact List.forall_mem_singleton.mpr hheaders
  · refine (hat _ _ _).mpr (.inl ⟨?_, _, rfl, rfl⟩)
    exact List.forall_mem_cons.mpr ⟨hitems, List.forall_mem_singleton.mpr rfl⟩

end Redaction

end Augur
