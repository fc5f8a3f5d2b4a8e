/-
# Statements and their question marks

What a statement promises: the question marks of its text and the values bound
for them correspond in order. The two orders have different sources. The values
are in the order in which the parts of the query were written; each part has an
outcome and values that it binds, whatever was bound before
(`Binding.Yields`). The question marks are in the order in which the parts were
placed; each has a slot that says what it stands for (`Slot`), and stands right
behind the words of its slot (`Marked`). A statement carries a list of slots
(`Statement.Carries`) when both orders are that of the slots.

Two parts that differ in the values they bind, and in nothing else, have the
same text (`Binding.Agree`).

Key definitions: `Binding.Yields`, `Binding.Agree`, `Slot`, `Marked`,
`Binding.Writes`, `Statement.Carries`.
Key theorems: `Marked.count_eq`, `Marked.place`, `Binding.Yields.bind`,
`Binding.Agree.bind`, `Binding.Writes.carries`.
-/
import Augur.Query.Compile
import Mathlib.Data.List.Forall2

namespace Augur

/-! ### Bound values -/

namespace Binding

variable {α β : Type} {w w' : Binding α} {a : α} {vs us : List Value}

/-- A part of a query comes to `a` and binds `vs`, whatever was bound before. -/
def Yields (w : Binding α) (a : α) (vs : List Value) : Prop :=
  ∀ bound, w.run bound = (a, bound ++ vs)

theorem Yields.pure (a : α) : Yields (Pure.pure a) a [] := fun bound => by
  rw [List.append_nil]
  rfl

theorem Yields.param (v : Value) : Yields (param v) "?" [v] := fun _ => rfl

/-- What comes later binds behind what came before. -/
theorem Yields.bind {f : α → Binding β} {b : β} (h : Yields w a vs) (hf : Yields (f a) b us) :
    Yields (w >>= f) b (vs ++ us) := fun bound => by
  have hrun : (w >>= f).run bound = (f (w.run bound).1).run (w.run bound).2 := rfl
  rw [hrun, h bound, hf, List.append_assoc]

/-- What is made of the outcome of a part binds nothing more. -/
theorem Yields.returning (h : Yields w a vs) (f : α → β) :
    Yields (do return f (← w)) (f a) vs := by
  simpa using h.bind (f := fun x => Pure.pure (f x)) (Yields.pure (f a))

/-- Two parts of queries come to the same, whatever they bind and was bound before. -/
def Agree (w w' : Binding α) : Prop := ∀ bound bound', (w.run bound).1 = (w'.run bound').1

theorem Agree.pure (a : α) : Agree (Pure.pure a) (Pure.pure a) := fun _ _ => rfl

theorem Agree.param (v v' : Value) : Agree (param v) (param v') := fun _ _ => rfl

theorem Agree.bind {f f' : α → Binding β} (h : Agree w w') (hf : ∀ a, Agree (f a) (f' a)) :
    Agree (w >>= f) (w' >>= f') := fun bound bound' => by
  show ((f (w.run bound).1).run _).1 = ((f' (w'.run bound').1).run _).1
  rw [h bound bound']
  exact hf _ _ _

theorem Agree.mapM {γ : Type} {f f' : γ → Binding α} {xs ys : List γ}
    (h : List.Forall₂ (fun x y => Agree (f x) (f' y)) xs ys) :
    Agree (xs.mapM f) (ys.mapM f') := by
  induction h with
  | nil => exact .pure []
  | cons hxy _ ih =>
    rw [List.mapM_cons, List.mapM_cons]
    exact hxy.bind fun _ => ih.bind fun _ => .pure _

end Binding

/-! ### Question marks -/

/-- A text without a question mark. -/
def Plain (w : String) : Prop := w.toList.count '?' = 0

instance (w : String) : Decidable (Plain w) := inferInstanceAs (Decidable (_ = _))

theorem plain_literal {cs : List Char} (h : cs.count '?' = 0) : Plain (String.ofList cs) := by
  rw [Plain, String.toList_ofList, h]

theorem plain_append {a b : String} : Plain (a ++ b) ↔ Plain a ∧ Plain b := by
  simp only [Plain, String.toList_append, List.count_append, Nat.add_eq_zero_iff]

theorem Plain.append {a b : String} (ha : Plain a) (hb : Plain b) : Plain (a ++ b) :=
  plain_append.mpr ⟨ha, hb⟩

namespace Operator

/-- The sign of an operator in a query. -/
def sign : Operator → String
  | eq => "="
  | ne => "!="
  | gt => ">"
  | gte => ">="
  | lt => "<"
  | lte => "<="
  | contains => "LIKE"
  | isNull => "IS NULL"
  | isNotNull => "IS NOT NULL"

end Operator

namespace Condition

/-- The column and the sign in front of the value of a condition. -/
def lead (c : Condition) : String :=
  (if c.op.isOrder then "CAST(" ++ c.field.name ++ " AS REAL)" else c.field.name)
    ++ " " ++ c.op.sign ++ " "

/-- The value that a condition binds: its own, or the pattern of the text that it looks for. -/
def bound (c : Condition) : Value :=
  if c.op = .contains then .text c.pattern else .ofOperand c.value

end Condition

/-- What a question mark in a query stands for. -/
inductive Slot where
  | day (s : String)
  | firstDay (s : String)
  | secondDay (s : String)
  | rangeStart (s : String)
  | rangeEnd (s : String)
  | condition (c : Condition)
  | limit (n : Nat)

namespace Slot

/-- The words right in front of the question mark. -/
def lead : Slot → String
  | day _ => "forecast_date = "
  | firstDay _ => "forecast_date IN ("
  | secondDay _ => ", "
  | rangeStart _ => "forecast_date >= "
  | rangeEnd _ => "forecast_date <= "
  | condition c => c.lead
  | limit _ => "LIMIT "

/-- The value bound for the question mark. -/
def value : Slot → Value
  | day s => .text s
  | firstDay s => .text s
  | secondDay s => .text s
  | rangeStart s => .text s
  | rangeEnd s => .text s
  | condition c => c.bound
  | limit n => .int n

end Slot

/-- A text has question marks for the given slots only, in their order, each behind the words of
its slot. -/
inductive Marked : String → List Slot → Prop where
  | plain {w : String} (h : Plain w) : Marked w []
  | slot {w u : String} {k : Slot} (h : Plain w) (lead : w = u ++ k.lead) : Marked (w ++ "?") [k]
  | append {s t : String} {k l : List Slot} (h : Marked s k) (rest : Marked t l) :
      Marked (s ++ t) (k ++ l)

namespace Marked

variable {s t w : String} {l : List Slot}

/-- Words in front of a text and behind it. -/
theorem words_append (hw : Plain w) (h : Marked s l) : Marked (w ++ s) l := (plain hw).append h

theorem append_words (h : Marked s l) (hw : Plain w) : Marked (s ++ w) l := by
  simpa using h.append (plain hw)

theorem intercalate {sep : String} (hsep : Plain sep) :
    ∀ {ss : List String} {ks : List (List Slot)},
    List.Forall₂ Marked ss ks → Marked (sep.intercalate ss) ks.flatten
  | [], [], _ => plain rfl
  | [_], [_], .cons h .nil => by simpa [String.intercalate_singleton] using h
  | _ :: _ :: _, _ :: _ :: _, .cons h hr => by
    rw [String.intercalate_cons_cons, List.flatten_cons]
    exact (h.append_words hsep).append (intercalate hsep hr)

/-- There are as many question marks as slots. -/
theorem count_eq (h : Marked s l) : s.toList.count '?' = l.length := by
  induction h with
  | plain hw => exact hw
  | slot hw _ =>
    have hmark : ("?".toList).count '?' = 1 := rfl
    rw [String.toList_append, List.count_append, hw, hmark, List.length_singleton]
  | append _ _ ih ih' => rw [String.toList_append, List.count_append, ih, ih', List.length_append]

/-- **The n-th question mark is that of the n-th slot.** It stands behind the words of the slot
and has `n` question marks before it. -/
theorem place (h : Marked s l) : ∀ (n : Nat) (k : Slot), l[n]? = some k →
    ∃ before after : String, s = before ++ k.lead ++ "?" ++ after ∧
      (before ++ k.lead).toList.count '?' = n := by
  induction h with
  | plain => intro n k hk; simp at hk
  | @slot w u k hw hu =>
    intro n k' hk
    obtain ⟨rfl, rfl⟩ : n = 0 ∧ k = k' := by
      cases n with
      | zero => simpa using hk
      | succ n => simp at hk
    exact ⟨u, "", by rw [hu, String.append_empty], hu ▸ hw⟩
  | @append s t ks ls hs _ ih ih' =>
    intro n k hk
    by_cases hn : n < ks.length
    · rw [List.getElem?_append_left hn] at hk
      obtain ⟨before, after, hs, hcount⟩ := ih n k hk
      exact ⟨before, after ++ t, by simp only [hs, String.append_assoc], hcount⟩
    · rw [List.getElem?_append_right (Nat.le_of_not_lt hn)] at hk
      obtain ⟨before, after, ht, hcount⟩ := ih' _ k hk
      refine ⟨s ++ before, after, by simp only [ht, String.append_assoc], ?_⟩
      rw [String.append_assoc, String.toList_append, List.count_append, hcount, hs.count_eq]
      omega

end Marked

/-- A part of a query, behind parts with the slots `k`, puts the text together: it binds the values
of the slots `l`, and the text has the question marks of `k` and behind them those of `l`. -/
def Binding.Completes (w : Binding String) (k l : List Slot) : Prop :=
  ∃ text, Marked text (k ++ l) ∧ w.Yields text (l.map Slot.value)

/-- A part of a query writes some text with question marks for the given slots, and binds their
values in the same order. -/
abbrev Binding.Writes (w : Binding String) (l : List Slot) : Prop := w.Completes [] l

namespace Binding

variable {w : Binding String} {f : String → Binding String} {t : String} {k l m : List Slot}

theorem Completes.pure (h : Marked t k) : Completes (Pure.pure t) k [] :=
  ⟨t, by rwa [List.append_nil], .pure t⟩

/-- Of two parts that are written one after the other, the later one puts the text together. -/
theorem Writes.bind (h : w.Writes l) (hf : ∀ t, Marked t l → (f t).Completes (k ++ l) m) :
    (w >>= f).Completes k (l ++ m) := by
  obtain ⟨t, ht, hyields⟩ := h
  obtain ⟨text, htext, hyields'⟩ := hf t ht
  refine ⟨text, by rwa [← List.append_assoc], ?_⟩
  rw [List.map_append]
  exact hyields.bind hyields'

/-- What is made of the text of a part has its slots. -/
theorem Writes.returning {f : String → String} (h : w.Writes l)
    (hf : ∀ t, Marked t l → Marked (f t) l) : Writes (do return f (← w)) l := by
  obtain ⟨t, ht, hyields⟩ := h
  exact ⟨f t, hf t ht, hyields.returning f⟩

end Binding

/-- The question marks of a statement and its values are those of the given slots, both in the
order of the slots. -/
structure Statement.Carries (s : Statement) (l : List Slot) : Prop where
  marked : Marked s.text l
  params_eq : s.params = l.map Slot.value

theorem Binding.Writes.carries {w : Binding String} {l : List Slot} (h : w.Writes l) :
    (Statement.of w).Carries l := by
  obtain ⟨text, hmarked, hyields⟩ := h
  have hrun : Statement.of w = ⟨text, l.map Slot.value⟩ := by
    rw [Statement.of, hyields []]
    rfl
  rw [hrun]
  exact ⟨hmarked, rfl⟩

theorem Binding.Agree.text_eq {w w' : Binding String} (h : w.Agree w') :
    (Statement.of w).text = (Statement.of w').text := h [] []

end Augur
