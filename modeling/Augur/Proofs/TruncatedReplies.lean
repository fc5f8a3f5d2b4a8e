/-
# Replies that were cut off

A reply that ends early is a part of an object from its opening brace on. No
such part can be read, neither as a whole nor from that brace on up to any
place: the scan for the closing brace finds the one of the object, which is
gone. But the search goes on behind the brace. What a truncated reply gives is
decided by what is left of its inside: it gives nothing iff no fenced block of
it can be read and no object that starts behind its first character. An object
inside an object is enough, when the cut comes behind it, and so are braces in
a quoted text.

Key theorems: `Extraction.read_of_cut`, `Extraction.not_objectAt_of_cut`,
`Extraction.truncated_exact`.
-/
import Augur.Proofs.ReplyStages
import Augur.Proofs.Runs

namespace Augur.Extraction

variable {o p t : List Char} {v w : Json} {i : Nat}

/-! ### The outermost object -/

/-- **What can be read from the brace of an object on is the whole of it.** -/
theorem length_le_of_read (hopen : o.head? = some '\x7b') (hclose : o.getLast? = some '\x7d')
    (hread : Json.read? o = some v) (ht : t <+: o) (h : Json.read? t = some w) :
    o.length ≤ t.length := by
  obtain ⟨rest, rfl⟩ := ht
  cases t with
  | nil => cases h
  | cons c r =>
    obtain rfl : c = '\x7b' := Option.some.inj hopen
    obtain ⟨body, gap, fs, rfl, -, -, -, hlength⟩ := Json.read_object h
    -- the scan stops in `t`, and it stops at the end of `o`
    have hinside := hlength (gap ++ rest)
    have hend := objectLength_of_read hopen hclose hread []
    rw [List.append_nil, List.cons_append, List.append_assoc, List.cons_append, hinside] at hend
    have hstop := Option.some.inj hend
    simp only [List.length_cons, List.length_append] at hstop ⊢
    omega

section Cut

variable (hopen : o.head? = some '\x7b') (hclose : o.getLast? = some '\x7d')
  (hread : Json.read? o = some v) (ht : t <+: o) (hcut : t ≠ o)
include hopen hclose hread ht hcut

/-- A part of an object cannot be read. -/
theorem read_of_cut : Json.read? t = none := by
  rw [Option.eq_none_iff_forall_ne_some]
  exact fun w hw => hcut (ht.eq_of_length_le (length_le_of_read hopen hclose hread ht hw))

/-- No object is found at the brace of an object that was cut off. -/
theorem not_objectAt_of_cut : ¬ ObjectAt t 0 w := by
  rintro ⟨-, n, hw⟩
  have hpiece : t.take n <+: o := (List.take_prefix n t).trans ht
  have hlength := length_le_of_read hopen hclose hread hpiece hw
  exact hcut (ht.eq_of_length_le (hlength.trans (List.length_take_le' n t)))

end Cut

/-! ### What is left without outer blanks -/

/-- Of a text that starts with a character that stays only the end is trimmed. -/
theorem trimChars_prefix {drop : Char → Bool} {c : Char} {r : List Char} (hc : drop c = false) :
    Text.trimChars drop (c :: r) <+: c :: r := by
  rw [Text.trimChars, List.dropWhile_cons_of_neg (by simp [hc])]
  exact List.rdropWhile_prefix drop _

theorem stripped_prefix (hopen : o.head? = some '\x7b') (hp : p <+: o) (hne : p ≠ []) :
    stripped (String.ofList p) <+: p := by
  obtain ⟨c, r, rfl⟩ := List.exists_cons_of_ne_nil hne
  obtain ⟨rest, rfl⟩ := hp
  obtain rfl : c = '\x7b' := Option.some.inj hopen
  rw [stripped, String.toList_ofList]
  exact trimChars_prefix rfl

/-- What is neither read as a whole nor in a block nor from a brace on gives nothing. -/
theorem ofStripped_unparseable (hwhole : Json.read? t = none) (hfenced : ∀ w, ¬ FencedValue t w)
    (hobject : ∀ i w, ¬ ObjectAt t i w) :
    ofStripped t = .unparseable (String.ofList (t.take shownLength)) := by
  have htells : Tells t (.unparseable (String.ofList (t.take shownLength))) :=
    ⟨hwhole, hfenced, hobject, rfl⟩
  exact htells.ofStripped_eq

/-- A text without backticks has no fenced block. -/
theorem not_fencedValue (h : '\x60' ∉ t) : ¬ FencedValue t w := by
  rintro ⟨inner, ⟨i, -, hfence, -⟩, -⟩
  obtain ⟨rest, hrest⟩ := hfence
  have hmem : '\x60' ∈ t.drop i := hrest ▸ List.mem_cons_self
  exact h (List.mem_of_mem_drop hmem)

/-- Behind its first character a text without braces has no object. -/
theorem not_objectAt (h : '\x7b' ∉ t.tail) (hi : 0 < i) : ¬ ObjectAt t i w := by
  rintro ⟨hbrace, -⟩
  obtain ⟨j, rfl⟩ : ∃ j, i = j + 1 := ⟨i - 1, by omega⟩
  rw [← List.getElem?_tail] at hbrace
  exact h (List.mem_of_getElem? hbrace)

/-! ### Truncated replies -/

/-- **What a truncated object gives.** Let `p` be a part of an object from its opening brace on, and
`t` the same without blanks at its end. It is never read as a whole, nor from its first brace on. It
gives nothing iff no fenced block of it can be read, nor any object from a later brace on; and so it
is whenever there is neither a fence nor another brace. -/
theorem truncated_exact (hopen : o.head? = some '\x7b') (hclose : o.getLast? = some '\x7d')
    (hread : Json.read? o = some v) (hp : p <+: o) (hne : p ≠ []) (hcut : p ≠ o) :
    let t := stripped (String.ofList p)
    t <+: p ∧ Json.read? t = none ∧ (∀ w, ¬ ObjectAt t 0 w) ∧
    ((∃ start, ofReply (String.ofList p) = .unparseable start) ↔
      (∀ w, ¬ FencedValue t w) ∧ ∀ i w, 0 < i → ¬ ObjectAt t i w) ∧
    ('\x60' ∉ t → '\x7b' ∉ t.tail →
      ofReply (String.ofList p) = .unparseable (String.ofList (t.take shownLength))) := by
  intro t
  have hreply : ofReply (String.ofList p) = ofStripped t := rfl
  have htp : t <+: p := stripped_prefix hopen hp hne
  have hto : t <+: o := htp.trans hp
  have htne : t ≠ o := fun heq => hcut (hp.eq_of_length_le (heq ▸ htp.length_le))
  have hwhole : Json.read? t = none := read_of_cut hopen hclose hread hto htne
  have hfirst : ∀ w, ¬ ObjectAt t 0 w := fun _ => not_objectAt_of_cut hopen hclose hread hto htne
  have hnothing : (∀ w, ¬ FencedValue t w) → (∀ i w, 0 < i → ¬ ObjectAt t i w) →
      ofStripped t = .unparseable (String.ofList (t.take shownLength)) := by
    intro hfenced hlater
    refine ofStripped_unparseable hwhole hfenced fun i w => ?_
    rcases Nat.eq_zero_or_pos i with rfl | hi
    · exact hfirst w
    · exact hlater i w hi
  rw [hreply]
  refine ⟨htp, hwhole, hfirst, ⟨?_, ?_⟩, ?_⟩
  · rintro ⟨start, hstart⟩
    have htells := tells_ofStripped t
    rw [hstart] at htells
    obtain ⟨-, hfenced, hobject, -⟩ := htells
    exact ⟨hfenced, fun i w _ => hobject i w⟩
  · rintro ⟨hfenced, hlater⟩
    exact ⟨_, hnothing hfenced hlater⟩
  · intro hfence hbrace
    exact hnothing (fun _ => not_fencedValue hfence) fun _ _ => not_objectAt hbrace

/-- An object with another one in it. -/
def nested : List Char := "\x7b\"a\": \x7b\"b\": 1\x7d\x7d".toList

theorem read_nested :
    Json.read? nested = some (.object [("a", .object [("b", .int 1)])]) := rfl

/-- Cut off inside the inner object it gives nothing. -/
theorem truncated_exact_nested : nested.head? = some '\x7b' ∧ nested.getLast? = some '\x7d' ∧
    (∃ v, Json.read? nested = some v) ∧ nested.take 13 <+: nested ∧ nested.take 13 ≠ [] ∧
    nested.take 13 ≠ nested ∧
    ∃ start, ofReply (String.ofList (nested.take 13)) = .unparseable start := by
  have hcut : nested.take 13 ≠ nested := by decide
  have hpart : nested.take 13 <+: nested := List.take_prefix 13 nested
  obtain ⟨-, -, -, hnothing, -⟩ :=
    truncated_exact (p := nested.take 13) rfl rfl read_nested hpart nofun hcut
  have hobject : ∀ i w, ¬ ObjectAt (stripped (String.ofList (nested.take 13))) i w :=
    firstObject_none_iff.mp rfl
  exact ⟨rfl, rfl, ⟨_, read_nested⟩, hpart, nofun, hcut, hnothing.mpr
    ⟨fun _ => not_fencedValue (by decide), fun i w _ => hobject i w⟩⟩

/-- Cut off before its last brace it gives the inner object. -/
theorem exists_fragment_read : nested.head? = some '\x7b' ∧ nested.getLast? = some '\x7d' ∧
    Json.read? nested = some (.object [("a", .object [("b", .int 1)])]) ∧
    nested.take 14 <+: nested ∧ nested.take 14 ≠ nested ∧
    ofReply (String.ofList (nested.take 14)) = .scanned (.object [("b", .int 1)]) :=
  ⟨rfl, rfl, read_nested, List.take_prefix 14 nested, by decide, rfl⟩

end Augur.Extraction
