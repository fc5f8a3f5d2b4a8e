/-
# Names in templates

A template is read from the left: where a name between double braces starts, it
is taken as a whole, and every other character stands for itself. No two names
overlap, since a brace is no character of a name, so a template may be cut at
any name in it and its halves are filled in on their own. Names of a table give
way to their dates. What that makes of a template is described without the
reading (`Dated`): a text without a name of the table stays as it is, and
around such a name the date stands between what the two sides become.

A date has no brace, so what is filled in makes no name together with the braces
around it. Therefore no name of the table is left and a second time changes
nothing, however the braces are nested.

Key definitions: `Prompt.braced`, `Prompt.IsTable`, `Prompt.Anchored`,
`Prompt.Dated`.
Key theorems: `Prompt.name?_eq_some_iff`, `Prompt.fill_append`,
`Prompt.dated_iff`, `Prompt.Dated.not_anchored`.
-/
import Augur.Prompt.Anchored
import Augur.Proofs.IsoDates
import Augur.Proofs.Runs
import Mathlib.Data.List.Nodup

namespace Augur.Prompt

variable {a b t u v name r : List Char} {c : Char} {dates : List (String × Date)}
  {d : String × Date}

/-! ### Names between double braces -/

/-- A name between double braces. -/
def braced (name : List Char) : List Char := '{' :: '{' :: (name ++ ['}', '}'])

/-- A name has characters, all of them those of names. -/
def IsName (name : List Char) : Prop := name ≠ [] ∧ ∀ c ∈ name, isNameChar c = true

instance (name : List Char) : Decidable (IsName name) :=
  inferInstanceAs (Decidable (_ ∧ _))

theorem braced_append (name r : List Char) :
    braced name ++ r = '{' :: '{' :: (name ++ '}' :: '}' :: r) := by
  simp [braced]

/-- Behind its two braces a name has no other opening brace. -/
theorem IsName.brace_not_mem (h : IsName name) : '{' ∉ name ++ ['}', '}'] := by
  intro hmem
  rw [List.mem_append] at hmem
  rcases hmem with hname | hclosing
  · exact absurd (h.2 _ hname) (by decide)
  · exact absurd hclosing (by decide)

/-- **The name at the front of a text** stands between double braces. -/
theorem name?_eq_some_iff : name? t = some (name, r) ↔ IsName name ∧ t = braced name ++ r := by
  constructor
  · intro h
    unfold name? at h
    split at h
    · rename_i s
      have hsplit : s.takeWhile isNameChar ++ s.drop (s.takeWhile isNameChar).length = s :=
        List.prefix_iff_eq_append.mp (List.takeWhile_prefix isNameChar)
      dsimp only at h
      split at h
      · rename_i rest hrest
        rw [Option.ite_none_left_eq_some] at h
        obtain ⟨hne, heq⟩ := h
        cases heq
        rw [hrest] at hsplit
        refine ⟨⟨fun hnil => hne (by rw [hnil]; rfl), fun c hc => List.mem_takeWhile_imp hc⟩, ?_⟩
        rw [braced_append, hsplit]
      · cases h
    · cases h
  · rintro ⟨⟨hne, hall⟩, rfl⟩
    have hrun : (name ++ '}' :: '}' :: r).takeWhile isNameChar = name :=
      Text.takeWhile_run hall fun c hc => by
        cases hc
        rfl
    rw [braced_append, name?]
    simp [hrun, hne]

/-! ### The parts of a template -/

theorem partsFrom_skip (u r : List Char) : partsFrom u.length (u ++ r) = partsFrom 0 r := by
  induction u with
  | nil => rfl
  | cons c u ih => exact ih

/-- A name at the front of a text is its first part. -/
theorem partsFrom_braced (h : IsName name) (r : List Char) :
    partsFrom 0 (braced name ++ r) = .name name :: partsFrom 0 r := by
  have hname : name? (braced name ++ r) = some (name, r) := name?_eq_some_iff.mpr ⟨h, rfl⟩
  have hlength : ('{' :: (name ++ ['}', '}'])).length = name.length + 3 := by simp
  have hskip := partsFrom_skip ('{' :: (name ++ ['}', '}'])) r
  rw [hlength] at hskip
  show partsFrom 0 ('{' :: ('{' :: (name ++ ['}', '}']) ++ r)) = _
  rw [partsFrom]
  split
  · rename_i m s hm
    cases hm.symm.trans hname
    rw [hskip]
  · rename_i hnone
    cases hnone.symm.trans hname

theorem partsFrom_char (h : name? (c :: r) = none) :
    partsFrom 0 (c :: r) = .char c :: partsFrom 0 r := by
  rw [partsFrom, h]

/-- A text is gone through by its parts: characters of their own, and names with their braces. -/
theorem parts_induction {P : List Char → Prop} (nil : P [])
    (char : ∀ c r, name? (c :: r) = none → P r → P (c :: r))
    (name : ∀ n r, IsName n → P r → P (braced n ++ r)) (t : List Char) : P t := by
  induction ht : t.length using Nat.strong_induction_on generalizing t with
  | _ k ih =>
    cases t with
    | nil => exact nil
    | cons c r =>
      cases hname : name? (c :: r) with
      | none => exact char c r hname (ih r.length (by rw [← ht]; simp) r rfl)
      | some p =>
        obtain ⟨hp, heq⟩ := name?_eq_some_iff.mp (Prod.eta p ▸ hname)
        rw [heq] at ht ⊢
        refine name p.1 p.2 hp (ih p.2.length ?_ p.2 rfl)
        rw [← ht, List.length_append, braced]
        simp

/-- A name behind other characters starts no earlier than with its own braces. -/
theorem name?_front (h : name? (c :: r) = none) (n b : List Char) :
    name? (c :: r ++ (braced n ++ b)) = none := by
  rw [Option.eq_none_iff_forall_ne_some]
  rintro ⟨m, s⟩ hsome
  obtain ⟨hm, heq⟩ := name?_eq_some_iff.mp hsome
  rcases List.append_eq_append_iff.mp heq with ⟨x, hx, hrest⟩ | ⟨x, hx, -⟩
  · cases x with
    | nil =>
      rw [List.append_nil] at hx
      have hself := name?_eq_some_iff.mpr ⟨hm, (List.append_nil _).symm⟩
      rw [hx, h] at hself
      cases hself
    | cons e x =>
      -- the name would go on into the braces behind it, and a name has no brace
      rw [braced, List.cons_append] at hx
      rw [braced_append, List.cons_append] at hrest
      injection hx with _ hx
      injection hrest with he hrest
      refine hm.brace_not_mem ?_
      cases r with
      | nil =>
        injection hx with _ hx
        obtain ⟨k, m, rfl⟩ := List.exists_cons_of_ne_nil hm.1
        rw [← hx, List.cons_append, List.cons_append] at hrest
        injection hrest with hk _
        exact hk ▸ List.mem_cons_self
      | cons f r =>
        injection hx with _ hx
        rw [hx, ← he]
        simp
  · have hself := name?_eq_some_iff.mpr ⟨hm, hx⟩
    rw [h] at hself
    cases hself

/-- **A template may be cut at a name.** The parts in front of it and behind it are those of the
two sides. -/
theorem partsFrom_append (h : IsName name) (a b : List Char) :
    partsFrom 0 (a ++ (braced name ++ b)) = partsFrom 0 a ++ .name name :: partsFrom 0 b := by
  induction a using parts_induction with
  | nil => exact partsFrom_braced h b
  | char c r hnone ih =>
    have hfront := name?_front hnone name b
    rw [List.cons_append] at hfront
    rw [List.cons_append, partsFrom_char hfront, partsFrom_char hnone, ih, List.cons_append]
  | name n r hn ih =>
    rw [List.append_assoc, partsFrom_braced hn, partsFrom_braced hn, ih, List.cons_append]

/-! ### Names of a table -/

/-- A table of dates under names, each name once. -/
structure IsTable (dates : List (String × Date)) : Prop where
  names : ∀ d ∈ dates, IsName d.1.toList
  nodup : (dates.map (·.1)).Nodup

/-- A text has a name of a table between double braces. -/
def Anchored (dates : List (String × Date)) (t : List Char) : Prop :=
  ∃ d ∈ dates, braced d.1.toList <:+: t

theorem Anchored.mono (h : Anchored dates t) (ht : t <:+: u) : Anchored dates u := by
  obtain ⟨d, hd, hinfix⟩ := h
  exact ⟨d, hd, hinfix.trans ht⟩

/-- A template with the dates of a table filled in. -/
def fill (dates : List (String × Date)) (t : List Char) : List Char :=
  (partsFrom 0 t).flatMap (Part.withDate dates)

/-- A name of a table gives way to its date. -/
theorem withDate_mem (htable : IsTable dates) (hd : d ∈ dates) :
    Part.withDate dates (.name d.1.toList) = d.2.iso.toList := by
  have hfind : dates.find? (fun e => e.1.toList == d.1.toList) = some d := by
    have hsome : (dates.find? fun e => e.1.toList == d.1.toList).isSome :=
      List.find?_isSome.mpr ⟨d, hd, beq_self_eq_true _⟩
    obtain ⟨e, he⟩ := Option.isSome_iff_exists.mp hsome
    have hfound := List.find?_some he
    have hname : e.1 = d.1 := String.toList_inj.mp (eq_of_beq hfound)
    rw [he, List.inj_on_of_nodup_map htable.nodup (List.mem_of_find?_eq_some he) hd hname]
  rw [Part.withDate, hfind]

/-- What is filled in at a name does not depend on the sides, and they not on each other. -/
theorem fill_append (htable : IsTable dates) (hd : d ∈ dates) (a b : List Char) :
    fill dates (a ++ (braced d.1.toList ++ b)) =
      fill dates a ++ (d.2.iso.toList ++ fill dates b) := by
  unfold fill
  rw [partsFrom_append (htable.names d hd), List.flatMap_append, List.flatMap_cons,
    withDate_mem htable hd]

/-- Without a name of the table a text stays as it is. -/
theorem fill_of_not_anchored (h : ¬ Anchored dates t) : fill dates t = t := by
  induction t using parts_induction with
  | nil => rfl
  | char c r hnone ih =>
    have hrest := ih fun hr => h (hr.mono (List.suffix_cons c r).isInfix)
    unfold fill at hrest ⊢
    rw [partsFrom_char hnone, List.flatMap_cons, hrest]
    rfl
  | name n r hn ih =>
    have hrest := ih fun hr => h (hr.mono (List.suffix_append _ r).isInfix)
    have hother : dates.find? (fun d => d.1.toList == n) = none := by
      rw [List.find?_eq_none]
      intro d hd heq
      refine h ⟨d, hd, ?_⟩
      rw [eq_of_beq heq]
      exact (List.prefix_append _ r).isInfix
    unfold fill at hrest ⊢
    rw [partsFrom_braced hn, List.flatMap_cons, hrest, Part.withDate, hother]
    simp [braced]

/-! ### What is made of a template -/

/-- A text with the dates of a table in place of their names, told without the reading: a text
without a name of the table stays as it is, and around a name the two sides are told in turn. -/
inductive Dated (dates : List (String × Date)) : List Char → List Char → Prop
  | plain {t : List Char} (h : ¬ Anchored dates t) : Dated dates t t
  | named {a b u v : List Char} {d : String × Date} (hd : d ∈ dates) (ha : Dated dates a u)
      (hb : Dated dates b v) :
      Dated dates (a ++ (braced d.1.toList ++ b)) (u ++ (d.2.iso.toList ++ v))

theorem dated_fill (htable : IsTable dates) (t : List Char) : Dated dates t (fill dates t) := by
  induction ht : t.length using Nat.strong_induction_on generalizing t with
  | _ k ih =>
    by_cases hnamed : Anchored dates t
    · obtain ⟨d, hd, a, b, rfl⟩ := hnamed
      have hbraces : 0 < (braced d.1.toList).length := by simp [braced]
      have hlength : a.length + (braced d.1.toList).length + b.length = k := by
        rw [← ht, List.length_append, List.length_append]
      rw [List.append_assoc, fill_append htable hd]
      exact .named hd (ih a.length (by omega) a rfl) (ih b.length (by omega) b rfl)
    · rw [fill_of_not_anchored hnamed]
      exact .plain hnamed

/-- **The text that a template becomes** is the one that is told of it. -/
theorem dated_iff (htable : IsTable dates) : Dated dates t u ↔ u = fill dates t := by
  constructor
  · intro h
    induction h with
    | plain hplain => exact (fill_of_not_anchored hplain).symm
    | named hd _ _ iha ihb => rw [fill_append htable hd, ← iha, ← ihb]
  · rintro rfl
    exact dated_fill htable t

/-! ### No name is left -/

/-- A part of a text that has no character of what stands in between is on one side of it. -/
theorem infix_around {mid : List Char} (ht : t ≠ []) (hmid : mid ≠ [])
    (hlacks : ∀ c ∈ mid, c ∉ t) (h : t <:+: a ++ (mid ++ b)) : t <:+: a ∨ t <:+: b := by
  obtain ⟨c, cs, rfl⟩ := List.exists_cons_of_ne_nil hmid
  have hcut : ∀ {x y : List Char}, t = x ++ y → y ≠ [] → ¬ y <+: c :: cs ++ b := by
    rintro x y rfl hy ⟨z, hz⟩
    obtain ⟨e, ys, rfl⟩ := List.exists_cons_of_ne_nil hy
    injection hz with he _
    exact hlacks c List.mem_cons_self (by simp [he])
  rcases List.infix_append_iff_ne_nil.mp h with hleft | hright | ⟨x, y, -, hy, hsplit, -, hprefix⟩
  · exact .inl hleft
  · rcases List.infix_append_iff_ne_nil.mp hright with
      hin | hright | ⟨x, y, hx, -, hsplit, hsuffix, -⟩
    · obtain ⟨e, he⟩ := List.exists_mem_of_ne_nil t ht
      exact absurd he (hlacks e (hin.subset he))
    · exact .inr hright
    · obtain ⟨e, he⟩ := List.exists_mem_of_ne_nil x hx
      exact absurd (hsplit ▸ List.mem_append_left y he) (hlacks e (hsuffix.subset he))
  · exact absurd hprefix (hcut hsplit hy)

/-- Dates are written with digits and dashes. -/
theorem mem_iso {e : Date} (h : c ∈ e.iso.toList) : c.isDigit = true ∨ c = '-' := by
  rw [Date.iso_toList] at h
  simp only [List.mem_append, List.mem_cons] at h
  rcases h with hyear | hdash | hmonth | hdash | hday
  · exact .inl (padded_digits _ _ c hyear)
  · exact .inr hdash
  · exact .inl (padded_digits _ _ c hmonth)
  · exact .inr hdash
  · exact .inl (padded_digits _ _ c hday)

/-- No character of a date is one of a name or its braces. -/
theorem not_mem_braced (hname : IsName name) {e : Date} (h : c ∈ e.iso.toList) :
    c ∉ braced name := by
  have hnot : isNameChar c = false ∧ c ≠ '{' ∧ c ≠ '}' := by
    rcases mem_iso h with hdigit | rfl
    · obtain ⟨hlow, hhigh⟩ := isDigit_bounds hdigit
      have hbound : c.toNat < 10 + 48 := by omega
      exact Text.of_codes c hlow hbound (by decide)
    · decide
  intro hmem
  simp only [braced, List.mem_cons, List.mem_append, List.not_mem_nil, or_false] at hmem
  rcases hmem with hbrace | hbrace | hmem | hbrace | hbrace
  · exact hnot.2.1 hbrace
  · exact hnot.2.1 hbrace
  · rw [hname.2 c hmem] at hnot
    cases hnot.1
  · exact hnot.2.2 hbrace
  · exact hnot.2.2 hbrace

/-- **No name of the table is left** in what is made of a template. -/
theorem Dated.not_anchored (htable : IsTable dates) (h : Dated dates t u) :
    ¬ Anchored dates u := by
  induction h with
  | plain hplain => exact hplain
  | named _ _ _ iha ihb =>
    rintro ⟨e, he, hinfix⟩
    have hname := htable.names e he
    rcases infix_around (List.cons_ne_nil _ _) (by simp [Date.iso_toList])
      (fun c hc => not_mem_braced hname hc) hinfix with ha | hb
    · exact iha ⟨e, he, ha⟩
    · exact ihb ⟨e, he, hb⟩

/-- What is made of a template stays as it is. -/
theorem Dated.again (htable : IsTable dates) (h : Dated dates t u) : fill dates u = u :=
  fill_of_not_anchored (h.not_anchored htable)

end Augur.Prompt
