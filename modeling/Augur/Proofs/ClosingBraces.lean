/-
# The brace that closes an object

The scan for the closing brace of an object knows of braces, quotes and
backslashes only, and yet it stops where the object ends. There are two sides
to this.

Whatever is written like an object, with values nested to any depth, is
scanned from its opening to its closing brace, by induction on how it is
written (`Extraction.objectLength_of_objectText`).

And whatever the reader of JSON accepts from a brace on is an object with
blanks behind it, and the scan stops at its end: step by step, the scan stands
where the reader stands (`Json.Reader.scanAt`), its depth being the number of
objects that the reader has open, until the outermost one is closed
(`Json.read_object`).

Key definitions: `Extraction.Written`, `Extraction.ObjectText`,
`Json.Reader.openObjects`, `Json.Reader.scanAt`, `Json.Reader.Moves`.
Key theorems: `Extraction.objectLength_of_objectText`,
`Json.Reader.step_moves`, `Json.Reader.run_closes`, `Json.read_object`,
`Extraction.objectLength_of_read`.
-/
import Mathlib.Data.List.Basic
import Augur.Model.Extraction

namespace Augur

namespace Extraction

/-! ### Scans -/

variable {n d : Nat} {s s' : Scan} {c : Char} {cs r : List Char}

theorem Scan.step_plain (hquote : c ≠ '"') (hopen : c ≠ '\x7b') (hclose : c ≠ '\x7d') :
    (Scan.plain d).step c = some (.plain d) := by
  simp only [Scan.step, if_neg hquote, if_neg hopen, if_neg hclose]

theorem Scan.step_quoted (hslash : c ≠ '\\') (hquote : c ≠ '"') :
    (Scan.quoted d).step c = some (.quoted d) := by
  simp only [Scan.step, if_neg hslash, if_neg hquote]

/-- A scan goes over characters without an end of the outermost object. -/
def Scan.Passes (s : Scan) : List Char → Scan → Prop
  | [], s' => s = s'
  | c :: r, s' => ∃ t, s.step c = some t ∧ t.Passes r s'

theorem Scan.Passes.append {s'' : Scan} (h : s.Passes cs s') (h' : s'.Passes r s'') :
    s.Passes (cs ++ r) s'' := by
  induction cs generalizing s with
  | nil =>
    obtain rfl : s = s' := h
    exact h'
  | cons c cs ih =>
    obtain ⟨t, hstep, hrest⟩ := h
    exact ⟨t, hstep, ih hrest⟩

theorem Scan.Passes.single (h : s.step c = some s') : s.Passes [c] s' := ⟨s', h, rfl⟩

theorem Scan.Passes.closingLength (h : s.Passes cs s') :
    closingLength? n s (cs ++ r) = closingLength? (n + cs.length) s' r := by
  induction cs generalizing n s with
  | nil =>
    obtain rfl : s = s' := h
    rfl
  | cons c cs ih =>
    obtain ⟨t, hstep, hrest⟩ := h
    rw [List.cons_append, closingLength?, hstep]
    dsimp only
    rw [ih hrest, List.length_cons]
    congr 1
    omega

/-- Characters that a scan takes no notice of in running text. -/
theorem Scan.passes_plain (h : ∀ c ∈ cs, c ≠ '"' ∧ c ≠ '\x7b' ∧ c ≠ '\x7d') :
    (Scan.plain d).Passes cs (.plain d) := by
  induction cs with
  | nil => rfl
  | cons c cs ih =>
    obtain ⟨hquote, hopen, hclose⟩ := h c List.mem_cons_self
    exact ⟨_, Scan.step_plain hquote hopen hclose, ih fun b hb => h b (List.mem_cons_of_mem _ hb)⟩

/-! ### What is written like an object -/

/-- What stands between the quotes of a text: a backslash takes the next character with it. -/
inductive Quotable : List Char → Prop
  | nil : Quotable []
  | plain {c : Char} {r : List Char} (hslash : c ≠ '\\') (hquote : c ≠ '"') (h : Quotable r) :
    Quotable (c :: r)
  | escape {c : Char} {r : List Char} (h : Quotable r) : Quotable ('\\' :: c :: r)

/-- White space, if there is any. -/
def Spaces (cs : List Char) : Prop := ∀ c ∈ cs, Json.isSpace c = true

/-- The parts of JSON that are made of others. -/
inductive Part where
  | value
  /-- The values of a list, with what separates them. -/
  | elements
  /-- The fields of an object, with what separates them. -/
  | members

/-- How the parts of JSON are written. Numbers and bare words are any runs of their characters:
a scan does not tell which of them there are. -/
inductive Written : Part → List Char → Prop
  | word {w : List Char} (hw : w ≠ []) (h : ∀ c ∈ w, Json.isWordChar c = true) : Written .value w
  | text {t : List Char} (h : Quotable t) : Written .value ('"' :: (t ++ ['"']))
  | emptyList {a : List Char} (ha : Spaces a) : Written .value ('[' :: (a ++ [']']))
  | list {es : List Char} (h : Written .elements es) : Written .value ('[' :: (es ++ [']']))
  | emptyObject {a : List Char} (ha : Spaces a) : Written .value ('\x7b' :: (a ++ ['\x7d']))
  | object {ms : List Char} (h : Written .members ms) :
    Written .value ('\x7b' :: (ms ++ ['\x7d']))
  | element {a v b : List Char} (ha : Spaces a) (hv : Written .value v) (hb : Spaces b) :
    Written .elements (a ++ v ++ b)
  | moreElements {es es' : List Char} (h : Written .elements es) (h' : Written .elements es') :
    Written .elements (es ++ [','] ++ es')
  | member {a k b c v e : List Char} (ha : Spaces a) (hk : Quotable k) (hb : Spaces b)
    (hc : Spaces c) (hv : Written .value v) (he : Spaces e) :
    Written .members (a ++ ('"' :: (k ++ ['"'])) ++ b ++ [':'] ++ c ++ v ++ e)
  | moreMembers {ms ms' : List Char} (h : Written .members ms) (h' : Written .members ms') :
    Written .members (ms ++ [','] ++ ms')

/-- What is written like an object, from its opening to its closing brace. -/
inductive ObjectText : List Char → Prop
  | empty {a : List Char} (ha : Spaces a) : ObjectText ('\x7b' :: (a ++ ['\x7d']))
  | members {ms : List Char} (h : Written .members ms) : ObjectText ('\x7b' :: (ms ++ ['\x7d']))

theorem ne_of_isSpace (h : Json.isSpace c = true) : c ≠ '"' ∧ c ≠ '\x7b' ∧ c ≠ '\x7d' := by
  refine ⟨?_, ?_, ?_⟩ <;> rintro rfl <;> exact absurd h (by decide)

theorem ne_of_isWordChar (h : Json.isWordChar c = true) :
    c ≠ '"' ∧ c ≠ '\x7b' ∧ c ≠ '\x7d' := by
  refine ⟨?_, ?_, ?_⟩ <;> rintro rfl <;> exact absurd h (by decide)

theorem Spaces.passes (h : Spaces cs) : (Scan.plain d).Passes cs (.plain d) :=
  Scan.passes_plain fun c hc => ne_of_isSpace (h c hc)

theorem Quotable.passes (h : Quotable cs) : (Scan.quoted d).Passes cs (.quoted d) := by
  induction h with
  | nil => rfl
  | plain hslash hquote _ ih => exact ⟨_, Scan.step_quoted hslash hquote, ih⟩
  | escape _ ih => exact ⟨.slashed d, rfl, .quoted d, rfl, ih⟩

/-- A text in quotes is passed over as a whole, braces and all. -/
theorem Quotable.passes_quotes (h : Quotable cs) :
    (Scan.plain d).Passes ('"' :: (cs ++ ['"'])) (.plain d) :=
  ⟨.quoted d, rfl, h.passes.append (.single rfl)⟩

/-- What stands in braces inside an object leads back to where the scan stood. -/
theorem Scan.Passes.braces (h : (Scan.plain (d + 2)).Passes cs (.plain (d + 2))) :
    (Scan.plain (d + 1)).Passes ('\x7b' :: (cs ++ ['\x7d'])) (.plain (d + 1)) := by
  have hclose : (Scan.plain (d + 2)).step '\x7d' = some (.plain (d + 1)) := by
    simp only [Scan.step]
    rfl
  exact ⟨.plain (d + 2), rfl, h.append (.single hclose)⟩

/-- **Whatever is written inside an object is passed over**, by induction on how it is written, at
every depth. -/
theorem Written.passes {p : Part} (h : Written p cs) (d : Nat) :
    (Scan.plain (d + 1)).Passes cs (.plain (d + 1)) := by
  induction h generalizing d with
  | word _ h => exact Scan.passes_plain fun c hc => ne_of_isWordChar (h c hc)
  | text h => exact h.passes_quotes
  | emptyList ha => exact ⟨_, rfl, ha.passes.append (.single rfl)⟩
  | list _ ih => exact ⟨_, rfl, (ih d).append (.single rfl)⟩
  | emptyObject ha => exact ha.passes.braces
  | object _ ih => exact (ih (d + 1)).braces
  | element ha _ hb ih => exact (ha.passes.append (ih d)).append hb.passes
  | moreElements _ _ ih ih' => exact ((ih d).append (.single rfl)).append (ih' d)
  | member ha hk hb hc _ he ih =>
    exact (((((ha.passes.append hk.passes_quotes).append hb.passes).append (.single rfl)).append
      hc.passes).append (ih d)).append he.passes
  | moreMembers _ _ ih ih' => exact ((ih d).append (.single rfl)).append (ih' d)

/-- **The scan stops at the end of an object**, whatever follows. -/
theorem objectLength_of_objectText {o : List Char} (h : ObjectText o) (rest : List Char) :
    objectLength? (o ++ rest) = some o.length := by
  have hbody : ∀ cs : List Char, (Scan.plain 1).Passes cs (.plain 1) →
      objectLength? ('\x7b' :: (cs ++ ['\x7d']) ++ rest) =
        some ('\x7b' :: (cs ++ ['\x7d'])).length := by
    intro cs hcs
    have hstep : (Scan.plain 1).step '\x7d' = none := rfl
    rw [List.cons_append, List.append_assoc, objectLength?, hcs.closingLength,
      List.singleton_append, closingLength?, hstep]
    simp only [List.length_cons, List.length_append, List.length_nil]
    congr 1
    omega
  cases h with
  | empty ha => exact hbody _ ha.passes
  | members h => exact hbody _ (h.passes 0)

end Extraction

namespace Json.Reader

open Extraction (Scan closingLength? ne_of_isSpace ne_of_isWordChar)

/-! ### Where a scan stands when the reader stands -/

/-- Whether an unfinished container is an object. -/
def Frame.isObject : Frame → Bool
  | .list _ => false
  | .object _ _ => true

/-- How many objects the mode has open that are not among the unfinished containers: one that
waits for a field. -/
def Mode.openObjects : Mode → Nat
  | .key _ _ | .colon _ _ | .keyText _ _ _ => 1
  | _ => 0

/-- How many objects are open. -/
def openObjects (s : State) : Nat := s.stack.countP Frame.isObject + s.mode.openObjects

/-- Where a scan stands inside a text. -/
def Escape.scan (depth : Nat) : Escape → Scan
  | .slash _ => .slashed depth
  | _ => .quoted depth

/-- Where a scan stands in a mode, with some objects open. -/
def Mode.scan (depth : Nat) : Mode → Scan
  | .keyText _ _ e | .text _ e => e.scan depth
  | _ => .plain depth

/-- Where a scan from the outermost object stands. -/
def scanAt (s : State) : Scan := s.mode.scan (openObjects s)

/-- The outermost container is an object, if there is one. -/
def Rooted (stack : List Frame) : Prop :=
  stack = [] ∨ ∃ front fields key, stack = front ++ [.object fields key]

variable {s s' t : State} {c : Char} {stack : List Frame} {cs r : List Char}

theorem Rooted.pop {f : Frame} (h : Rooted (f :: stack)) : Rooted stack := by
  rcases h with h | ⟨front, fields, key, h⟩
  · cases h
  · cases front with
    | nil => exact .inl (List.cons_eq_cons.mp h).2
    | cons g front => exact .inr ⟨front, fields, key, (List.cons_eq_cons.mp h).2⟩

theorem Rooted.push (f : Frame) (hopen : 0 < stack.countP Frame.isObject) (h : Rooted stack) :
    Rooted (f :: stack) := by
  rcases h with rfl | ⟨front, fields, key, rfl⟩
  · cases hopen
  · exact .inr ⟨f :: front, fields, key, rfl⟩

theorem Rooted.pushObject (fields : Fields) (key : String) (h : Rooted stack) :
    Rooted (.object fields key :: stack) := by
  rcases h with rfl | ⟨front, fields', key', rfl⟩
  · exact .inr ⟨[], fields, key, rfl⟩
  · exact .inr ⟨_ :: front, fields', key', rfl⟩

/-- When the outermost object is closed, there is nothing else left open. -/
theorem Rooted.eq_nil (h : Rooted stack) (hclosed : stack.countP Frame.isObject = 0) :
    stack = [] := by
  rcases h with h | ⟨front, fields, key, rfl⟩
  · exact h
  · rw [List.countP_append, List.countP_singleton] at hclosed
    simp [Frame.isObject] at hclosed

theorem countP_object (fields : Fields) (key : String) (stack : List Frame) :
    (Frame.object fields key :: stack).countP Frame.isObject =
      stack.countP Frame.isObject + 1 := List.countP_cons_of_pos rfl

/-- What a character does to the reader inside an object: it stays inside and the scan goes along
with it, or the character closes the outermost object and ends the scan. -/
inductive Moves (s : State) (c : Char) (s' : State) : Prop
  | inside (hroot : Rooted s.stack → Rooted s'.stack) (hopen : 0 < openObjects s')
    (hscan : (scanAt s).step c = some (scanAt s'))
  | closes (hroot : Rooted s.stack → Rooted s'.stack) (hclosed : openObjects s' = 0)
    (hmode : ∃ fs, s'.mode = .complete (.object fs)) (hbrace : c = '\x7d')
    (hscan : (scanAt s).step c = none)

/-- A character that is neither a quote nor a brace, and that opens and closes no object. -/
theorem moves_plain (hroot : Rooted s.stack → Rooted s'.stack)
    (hscan : scanAt s = .plain (openObjects s)) (hscan' : scanAt s' = .plain (openObjects s'))
    (hsame : openObjects s' = openObjects s) (hopen : 0 < openObjects s)
    (hc : c ≠ '"' ∧ c ≠ '\x7b' ∧ c ≠ '\x7d') : Moves s c s' := by
  obtain ⟨hquote, hbrace, hbrace'⟩ := hc
  refine .inside hroot (hsame ▸ hopen) ?_
  rw [hscan, hscan', hsame]
  exact Scan.step_plain hquote hbrace hbrace'

/-- An object is closed. -/
theorem moves_closing {fs : Fields} (hroot : Rooted s.stack → Rooted s'.stack)
    (hscan : scanAt s = .plain (openObjects s)) (hmode : s'.mode = .complete (.object fs))
    (hless : openObjects s = openObjects s' + 1) : Moves s '\x7d' s' := by
  have hscan' : scanAt s' = .plain (openObjects s') := by
    unfold scanAt
    rw [hmode]
    rfl
  rcases Nat.eq_zero_or_pos (openObjects s') with hzero | hpos
  · refine .closes hroot hzero ⟨fs, hmode⟩ rfl ?_
    rw [hscan, hless, hzero]
    rfl
  · refine .inside hroot hpos ?_
    have hmore : ¬ openObjects s' + 1 ≤ 1 := by omega
    rw [hscan, hscan', hless]
    simp only [Scan.step, if_neg hmore]
    rfl

/-! ### One character -/

/-- The first character of a value. -/
theorem open_moves {mayClose : Bool} (h : open? stack mayClose c = some s')
    (hopen : 0 < stack.countP Frame.isObject) : Moves ⟨stack, .value mayClose⟩ c s' := by
  unfold open? at h
  split_ifs at h with hspace hquote hbracket hnesting hbrace hnesting' hword hclose
  case pos =>
    cases h
    exact moves_plain id rfl rfl rfl hopen (ne_of_isSpace hspace)
  case pos =>
    cases h
    subst hquote
    exact .inside id hopen rfl
  case pos =>
    cases h
    subst hbracket
    exact moves_plain (.push _ hopen) rfl rfl rfl hopen (by decide)
  case pos =>
    cases h
    subst hbrace
    exact .inside id (Nat.succ_pos _) rfl
  case pos =>
    cases h
    exact moves_plain id rfl rfl rfl hopen (ne_of_isWordChar hword)
  case pos =>
    obtain ⟨rfl, -⟩ := hclose
    split at h
    · cases h
      exact moves_plain .pop rfl rfl rfl hopen (by decide)
    · cases h

/-- A character behind a value. -/
theorem afterValue_moves {m : Mode} {v : Json} (h : afterValue stack v c = some s')
    (hm : m.openObjects = 0) (hscan : ∀ d, m.scan d = .plain d)
    (hopen : 0 < stack.countP Frame.isObject) : Moves ⟨stack, m⟩ c s' := by
  have hs : openObjects ⟨stack, m⟩ = stack.countP Frame.isObject := by
    unfold openObjects
    rw [hm, Nat.add_zero]
  have hscan' : scanAt ⟨stack, m⟩ = .plain (openObjects ⟨stack, m⟩) := hscan _
  unfold afterValue at h
  by_cases hspace : isSpace c = true
  · rw [if_pos hspace] at h
    cases h
    exact moves_plain id hscan' rfl hs.symm (hs ▸ hopen) (ne_of_isSpace hspace)
  · rw [if_neg hspace] at h
    cases stack with
    | nil => cases hopen
    | cons f rest =>
      cases f with
      | list items =>
        dsimp only at h
        split_ifs at h with hcomma hclose
        · cases h
          subst hcomma
          exact moves_plain (fun h => h.pop.push _ hopen) hscan' rfl hs.symm (hs ▸ hopen)
            (by decide)
        · cases h
          subst hclose
          exact moves_plain .pop hscan' rfl hs.symm (hs ▸ hopen) (by decide)
      | object fields key =>
        dsimp only at h
        rw [countP_object] at hs
        split_ifs at h with hcomma hclose
        · cases h
          subst hcomma
          exact moves_plain .pop hscan' rfl hs.symm (hs ▸ Nat.succ_pos _) (by decide)
        · cases h
          subst hclose
          exact moves_closing .pop hscan' rfl hs

/-- A character inside a text, its closing quote apart. -/
theorem stepText_scan {chars : List Char} {e : Escape} {u : List Char × Escape}
    (h : stepText chars e c = some u) (hclose : closesText e c = false) (d : Nat) :
    (e.scan d).step c = some (u.2.scan d) := by
  cases e with
  | plain high =>
    have hquote : c ≠ '"' := by simpa [closesText] using hclose
    simp only [stepText] at h
    split_ifs at h with hslash hcontrol
    · cases h
      subst hslash
      rfl
    · cases h
      exact Scan.step_quoted hslash hquote
  | slash high =>
    simp only [stepText] at h
    split_ifs at h
    · cases h
      rfl
    · obtain ⟨e, -, rfl⟩ := Option.map_eq_some_iff.mp h
      rfl
  | hex high count value =>
    obtain ⟨digit, hdigit, rfl⟩ := Option.map_eq_some_iff.mp h
    have hslash : c ≠ '\\' := by
      rintro rfl
      cases hdigit
    have hquote : c ≠ '"' := by
      rintro rfl
      cases hdigit
    have hplain : ∀ u chars, (takeUnit high u chars).2.scan d = .quoted d := by
      intro u chars
      unfold takeUnit
      split_ifs
      · cases high with
        | some h => rfl
        | none => rfl
      · rfl
      · rfl
    refine (Scan.step_quoted hslash hquote).trans (congrArg some ?_)
    split_ifs
    · exact (hplain _ _).symm
    · rfl

theorem closesText_scan {e : Escape} (h : closesText e c = true) (d : Nat) :
    (e.scan d).step c = some (.plain d) := by
  cases e with
  | plain high =>
    obtain rfl : c = '"' := by simpa [closesText] using h
    rfl
  | slash high | hex high count value => cases h

/-- **One character inside an object**: the scan goes along with the reader, by cases on the mode
of the reader. -/
theorem step_moves (h : step s c = some s') (hopen : 0 < openObjects s) : Moves s c s' := by
  obtain ⟨stack, mode⟩ := s
  cases mode with
  | value mayClose => exact open_moves h hopen
  | key fields mayClose =>
    simp only [step] at h
    split_ifs at h with hspace hquote hclose
    · cases h
      exact moves_plain id rfl rfl rfl hopen (ne_of_isSpace hspace)
    · cases h
      subst hquote
      exact .inside id hopen rfl
    · cases h
      obtain ⟨rfl, -⟩ := hclose
      exact moves_closing id rfl rfl rfl
  | colon fields key =>
    simp only [step] at h
    split_ifs at h with hspace hcolon
    · cases h
      exact moves_plain id rfl rfl rfl hopen (ne_of_isSpace hspace)
    · cases h
      subst hcolon
      exact moves_plain (.pushObject fields key) rfl rfl (countP_object fields key stack) hopen
        (by decide)
  | keyText fields chars e =>
    simp only [step] at h
    split_ifs at h with hclose
    · cases h
      exact .inside id hopen (closesText_scan hclose _)
    · obtain ⟨u, hu, rfl⟩ := Option.map_eq_some_iff.mp h
      exact .inside id hopen (stepText_scan hu (Bool.eq_false_iff.mpr hclose) _)
  | text chars e =>
    simp only [step] at h
    split_ifs at h with hclose
    · cases h
      exact .inside id hopen (closesText_scan hclose _)
    · obtain ⟨u, hu, rfl⟩ := Option.map_eq_some_iff.mp h
      exact .inside id hopen (stepText_scan hu (Bool.eq_false_iff.mpr hclose) _)
  | word chars =>
    simp only [step] at h
    split_ifs at h with hword
    · cases h
      exact moves_plain id rfl rfl rfl hopen (ne_of_isWordChar hword)
    · obtain ⟨v, -, hv⟩ := Option.bind_eq_some_iff.mp h
      exact afterValue_moves hv rfl (fun _ => rfl) hopen
  | complete v => exact afterValue_moves h rfl (fun _ => rfl) hopen

/-! ### A whole text -/

theorem run_cons (h : step s c = some s') : run s (c :: r) = run s' r := by
  rw [run, h]

theorem exists_step_of_run (h : run s (c :: r) = some t) :
    ∃ s', step s c = some s' ∧ run s' r = some t := by
  rw [run] at h
  cases hstep : step s c with
  | none =>
    rw [hstep] at h
    cases h
  | some s' =>
    rw [hstep] at h
    exact ⟨s', rfl, h⟩

/-- **A reader that gets out of an object** does so at a closing brace, and there the scan stops,
whatever follows: by induction on the characters read, the scan standing where the reader
stands. -/
theorem run_closes (h : run s r = some t) (hopen : 0 < openObjects s) (hroot : Rooted s.stack)
    (ht : openObjects t = 0) : ∃ body gap fs, r = body ++ '\x7d' :: gap ∧
      run s (body ++ ['\x7d']) = some ⟨[], .complete (.object fs)⟩ ∧
      run ⟨[], .complete (.object fs)⟩ gap = some t ∧
      ∀ n rest, closingLength? n (scanAt s) (body ++ '\x7d' :: rest) =
        some (n + body.length + 1) := by
  induction r generalizing s with
  | nil =>
    cases h
    omega
  | cons c r ih =>
    obtain ⟨s', hstep, hrun⟩ := exists_step_of_run h
    cases step_moves hstep hopen with
    | inside hroot' hopen' hscan =>
      obtain ⟨body, gap, fs, rfl, hbody, hgap, hlength⟩ := ih hrun hopen' (hroot' hroot)
      refine ⟨c :: body, gap, fs, rfl, ?_, hgap, fun n rest => ?_⟩
      · rw [List.cons_append, run_cons hstep]
        exact hbody
      · rw [List.cons_append, closingLength?, hscan]
        dsimp only
        rw [hlength, List.length_cons]
        congr 1
        omega
    | closes hroot' hclosed hmode hbrace hscan =>
      obtain ⟨fs, hfs⟩ := hmode
      have hstack : s'.stack = [] :=
        (hroot' hroot).eq_nil (Nat.eq_zero_of_add_eq_zero_right hclosed)
      obtain rfl : s' = ⟨[], .complete (.object fs)⟩ := by
        obtain ⟨stack, mode⟩ := s'
        obtain rfl : stack = [] := hstack
        obtain rfl : mode = .complete (.object fs) := hfs
        rfl
      subst hbrace
      refine ⟨[], r, fs, rfl, ?_, hrun, fun n rest => ?_⟩
      · rw [List.nil_append, run_cons hstep]
        rfl
      · rw [List.nil_append, closingLength?, hscan]
        rfl

/-- Behind the outermost value only blanks are read, and they change nothing. -/
theorem run_complete {v : Json} (h : run ⟨[], .complete v⟩ r = some t) :
    (∀ c ∈ r, isSpace c = true) ∧ t = ⟨[], .complete v⟩ := by
  induction r with
  | nil =>
    cases h
    exact ⟨nofun, rfl⟩
  | cons c r ih =>
    obtain ⟨s', hstep, hrun⟩ := exists_step_of_run h
    simp only [step, afterValue] at hstep
    split_ifs at hstep with hspace
    cases hstep
    obtain ⟨hspaces, ht⟩ := ih hrun
    refine ⟨fun b hb => ?_, ht⟩
    rcases List.mem_cons.mp hb with rfl | hb
    · exact hspace
    · exact hspaces b hb

/-- A text that can be read to its end leaves no object open. -/
theorem openObjects_of_finish {v : Json} (h : finish t = some v) : openObjects t = 0 := by
  obtain ⟨stack, mode⟩ := t
  unfold finish at h
  split_ifs at h with hstack
  obtain rfl : stack = [] := List.isEmpty_iff.mp hstack
  cases mode with
  | word chars | complete v => rfl
  | value mayClose | key fields mayClose | colon fields key | keyText fields chars e
  | text chars e => cases h

end Json.Reader

namespace Json

/-- **What can be read from a brace on is an object** and blanks behind it, and the scan for its
closing brace stops at its end, whatever follows. -/
theorem read_object {r : List Char} {v : Json} (h : read? ('\x7b' :: r) = some v) :
    ∃ body gap fs, r = body ++ '\x7d' :: gap ∧ (∀ c ∈ gap, isSpace c = true) ∧
      v = .object fs ∧ read? ('\x7b' :: (body ++ ['\x7d'])) = some v ∧
      ∀ rest, Extraction.objectLength? ('\x7b' :: (body ++ '\x7d' :: rest)) =
        some (body.length + 2) := by
  have hfirst : Reader.step Reader.start '\x7b' = some ⟨[], .key [] true⟩ := rfl
  obtain ⟨t, hrun, hfinish⟩ := Option.bind_eq_some_iff.mp h
  rw [Reader.run_cons hfirst] at hrun
  obtain ⟨body, gap, fs, rfl, hbody, hgap, hlength⟩ := Reader.run_closes hrun Nat.one_pos (.inl rfl)
    (Reader.openObjects_of_finish hfinish)
  obtain ⟨hspaces, rfl⟩ := Reader.run_complete hgap
  obtain rfl : object fs = v := Option.some.inj hfinish
  refine ⟨body, gap, fs, rfl, hspaces, rfl, ?_, fun rest => ?_⟩
  · rw [read?, Reader.run_cons hfirst, hbody]
    rfl
  · have hscan : Extraction.closingLength? 1 (.plain 1) (body ++ '\x7d' :: rest) =
        some (1 + body.length + 1) := hlength 1 rest
    rw [Extraction.objectLength?, hscan]
    congr 1
    omega

end Json

namespace Extraction

/-- **The scan stops at the end of an object that can be read**, whatever follows. -/
theorem objectLength_of_read {o : List Char} {v : Json} (hopen : o.head? = some '\x7b')
    (hclose : o.getLast? = some '\x7d') (h : Json.read? o = some v) (rest : List Char) :
    objectLength? (o ++ rest) = some o.length := by
  obtain ⟨r, rfl⟩ := List.head?_eq_some_iff.mp hopen
  obtain ⟨body, gap, fs, rfl, hspaces, -, -, hlength⟩ := Json.read_object h
  -- the last character is no blank, so nothing stands behind the object
  obtain rfl : gap = [] := by
    rcases List.eq_nil_or_concat' gap with hgap | ⟨front, c, rfl⟩
    · exact hgap
    · have hspace : Json.isSpace c = true := hspaces c (by simp)
      have hlast : ('\x7b' :: (body ++ '\x7d' :: (front ++ [c]))).getLast? = some c := by
        rw [← List.cons_append, ← List.cons_append, ← List.append_assoc, List.getLast?_concat]
      rw [hlast] at hclose
      obtain rfl := Option.some.inj hclose
      exact absurd hspace (by decide)
  have hstop := hlength rest
  rw [List.cons_append, List.append_assoc, List.cons_append, List.nil_append, hstop]
  simp

end Extraction

end Augur
