/-
# The files of snapshots

A snapshot names its file by the second, the session and the letters of its
name, and no finer: two snapshots of a session have one file iff they fall into
one second and their names are the same once all other characters are replaced.
Writing sets one file and leaves the others, so after any number of snapshots a
file holds the text of the last one that has it. What an earlier snapshot kept
is lost where that text is another.

Key definitions: `Snapshot`, `Snapshot.Meets`, `Journal.snapshotAll`.
Key theorems: `Journal.fileStamp_inj`, `Snapshot.file_eq_iff`,
`Journal.snapshotAll_lookup`, `Journal.snapshots_exact`.
-/
import Augur.Journal.Basic
import Augur.Proofs.PublishTimes
import Augur.Proofs.Runs

namespace Augur
namespace Journal

/-! ### Times in file names -/

theorem fileDay_toList (t : Timestamp) : (fileDay t).toList = Nat.toDigits 10 t.date.year ++
    ((padded 2 t.date.month).toList ++ (padded 2 t.date.day).toList) := by
  simp [fileDay]

theorem fileDay_digits (t : Timestamp) : AllDigits (fileDay t).toList := by
  intro c hc
  simp only [fileDay_toList, List.mem_append] at hc
  rcases hc with hyear | hmonth | hday
  · exact Nat.isDigit_of_mem_toDigits (by decide) (by decide) hyear
  · exact padded_digits _ _ c hmonth
  · exact padded_digits _ _ c hday

/-- A day in a file name is the day, although the year has no fixed width. -/
theorem fileDay_inj {t u : Timestamp} : fileDay t = fileDay u ↔ t.date = u.date := by
  refine ⟨fun h => ?_, fun h => by rw [fileDay, fileDay, h]⟩
  have hlength : ∀ d : Date,
      ((padded 2 d.month).toList ++ (padded 2 d.day).toList).length = 4 := fun d => by
    rw [List.length_append, padded_length (by decide) d.month_lt,
      padded_length (by decide) d.day_lt]
  have hlists := congrArg String.toList h
  rw [fileDay_toList, fileDay_toList] at hlists
  obtain ⟨hyear, hrest⟩ := List.append_inj' hlists ((hlength _).trans (hlength _).symm)
  obtain ⟨hmonth, hday⟩ := List.append_inj hrest (by
    rw [padded_length (by decide) t.date.month_lt, padded_length (by decide) u.date.month_lt])
  have hyear' : t.date.year = u.date.year := by
    rw [← Nat.ofDigitChars_ten_toDigits (n := t.date.year), hyear, Nat.ofDigitChars_ten_toDigits]
  rw [padded_inj] at hmonth hday
  cases ht : t.date
  cases hu : u.date
  simp_all

/-- The clock in a file name. -/
def clockStamp (t : TimeOfDay) : List Char := (padded 2 t.hour).toList ++
  ((padded 2 t.minute).toList ++ ((padded 2 t.second).toList ++ ['Z']))

theorem fileStamp_toList (t : Timestamp) :
    (fileStamp t).toList = (fileDay t).toList ++ 'T' :: clockStamp t.time := by
  simp [fileStamp, clockStamp]

theorem clockStamp_inj {t u : TimeOfDay} :
    clockStamp t = clockStamp u ↔ t.micros / 1000000 = u.micros / 1000000 := by
  obtain ⟨hth, htm, hts, -⟩ := t.parts_lt
  obtain ⟨huh, hum, hus, -⟩ := u.parts_lt
  unfold clockStamp
  constructor
  · intro h
    obtain ⟨hhour, h⟩ := List.append_inj h (by
      rw [padded_length (by decide) hth, padded_length (by decide) huh])
    obtain ⟨hminute, h⟩ := List.append_inj h (by
      rw [padded_length (by decide) htm, padded_length (by decide) hum])
    have hsecond := (List.append_inj' h rfl).1
    rw [padded_inj] at hhour hminute hsecond
    unfold TimeOfDay.hour TimeOfDay.minute TimeOfDay.second at *
    omega
  · intro h
    have hparts : t.hour = u.hour ∧ t.minute = u.minute ∧ t.second = u.second := by
      unfold TimeOfDay.hour TimeOfDay.minute TimeOfDay.second
      omega
    rw [hparts.1, hparts.2.1, hparts.2.2]

/-- **A time in a file name is the time to the second.** -/
theorem fileStamp_inj {t u : Timestamp} : fileStamp t = fileStamp u ↔
    t.date = u.date ∧ t.time.micros / 1000000 = u.time.micros / 1000000 := by
  have hmark : ∀ t, 'T' ∉ (fileDay t).toList := fun t hmem =>
    absurd (fileDay_digits t _ hmem) (by decide)
  rw [← String.toList_inj, fileStamp_toList, fileStamp_toList,
    Text.append_mark_inj (hmark t) (hmark u), String.toList_inj, fileDay_inj, clockStamp_inj]

/-- It has no underscore, which is what comes next in a file name. -/
theorem underscore_not_mem_fileStamp (t : Timestamp) : '_' ∉ (fileStamp t).toList := by
  have hdigits : ∀ {cs : List Char}, AllDigits cs → '_' ∉ cs := fun h hmem =>
    absurd (h _ hmem) (by decide)
  rw [fileStamp_toList, clockStamp]
  simp only [List.mem_append, List.mem_cons, not_or]
  refine ⟨hdigits (fileDay_digits t), by decide, hdigits (padded_digits _ _),
    hdigits (padded_digits _ _), hdigits (padded_digits _ _), ?_⟩
  decide

theorem snapshotName_toList (now : Timestamp) (session name : String) :
    (snapshotName now session name).toList = (fileStamp now).toList ++
      '_' :: (session.toList ++ '_' :: (name.toList.map safeChar ++ ".json".toList)) := by
  simp [snapshotName]

end Journal

/-! ### Snapshots that share a file -/

/-- A snapshot to be written. -/
structure Snapshot where
  time : Timestamp
  name : String
  payload : Loggable

namespace Snapshot

variable {c d : Snapshot}

/-- The file of a snapshot in a session. -/
def file (session : String) (c : Snapshot) : String := Journal.snapshotName c.time session c.name

/-- What the file of a snapshot is written with: the payload without secrets. -/
def Writes (c : Snapshot) (text : String) : Prop :=
  ∃ v, c.payload.written = .ok v ∧ text = v.renderLines ++ "\n"

theorem Writes.unique {s t : String} (hs : c.Writes s) (ht : c.Writes t) : s = t := by
  obtain ⟨v, hv, rfl⟩ := hs
  obtain ⟨w, hw, rfl⟩ := ht
  rw [Except.ok.inj (hv.symm.trans hw)]

/-- Two snapshots fall into one second and have names that are written alike. -/
def Meets (c d : Snapshot) : Prop :=
  c.time.date = d.time.date ∧ c.time.time.micros / 1000000 = d.time.time.micros / 1000000 ∧
    c.name.toList.map Journal.safeChar = d.name.toList.map Journal.safeChar

instance (c d : Snapshot) : Decidable (c.Meets d) :=
  inferInstanceAs (Decidable (_ ∧ _ ∧ _))

/-- **Snapshots of a session share a file iff they meet.** -/
theorem file_eq_iff {session : String} : c.file session = d.file session ↔ c.Meets d := by
  unfold file Meets
  rw [← String.toList_inj, Journal.snapshotName_toList, Journal.snapshotName_toList,
    Text.append_mark_inj (Journal.underscore_not_mem_fileStamp _)
      (Journal.underscore_not_mem_fileStamp _), String.toList_inj, Journal.fileStamp_inj,
    List.append_cancel_left_eq, List.cons.injEq, List.append_cancel_right_eq, and_assoc]
  simp only [true_and]

end Snapshot

/-! ### Writing files -/

namespace Journal

variable {j j' : Journal} {calls : List Snapshot} {files : List String}

theorem lookup_first (name text other : String) (files : List (String × String)) :
    ((name, text) :: files).lookup other =
      if other = name then some text else files.lookup other := by
  rw [List.lookup_cons]
  by_cases h : other = name
  · simp [h]
  · simp [h, beq_eq_false_iff_ne.mpr h]

/-- Writing sets one file and leaves the others. -/
theorem lookup_setFile (file text other : String) (files : List (String × String)) :
    (setFile file text files).lookup other =
      if other = file then some text else files.lookup other := by
  induction files with
  | nil => exact lookup_first file text other []
  | cons p r ih =>
    obtain ⟨n, t⟩ := p
    unfold setFile
    by_cases hn : n = file
    · rw [if_pos hn, lookup_first, lookup_first, hn]
      by_cases hother : other = file
      · rw [if_pos hother, if_pos hother]
      · rw [if_neg hother, if_neg hother, if_neg hother]
    · rw [if_neg hn, lookup_first, lookup_first, ih]
      by_cases hother : other = n
      · have hne : other ≠ file := fun h => hn (hother.symm.trans h)
        rw [if_pos hother, if_neg hne, if_pos hother]
      · rw [if_neg hother, if_neg hother]

/-- What one snapshot does to the journal. -/
theorem snapshot_eq_ok_iff {now : Timestamp} {name file : String} {payload : Loggable} :
    j.snapshot now name payload = .ok (j', file) ↔ j.isWritable = true ∧
      file = snapshotName now j.session name ∧ ∃ v, payload.written = .ok v ∧ j.hasRoom v = true ∧
        j' = { j with snapshots := setFile file (v.renderLines ++ "\n") j.snapshots } := by
  unfold snapshot
  cases payload.written with
  | error e => simp
  | ok v =>
    by_cases hwritable : j.isWritable = true
    · by_cases hroom : j.hasRoom v = true
      · simp only [hwritable, hroom, Bool.not_true, Bool.false_eq_true, if_false, Except.ok.injEq,
          Prod.mk.injEq, true_and]
        constructor
        · rintro ⟨rfl, rfl⟩
          exact ⟨rfl, v, rfl, hroom, rfl⟩
        · rintro ⟨rfl, _, rfl, -, rfl⟩
          exact ⟨rfl, rfl⟩
      · simp [hwritable, hroom]
    · simp [hwritable]

/-- Snapshots one after another, as long as all of them are written, and the names of their
files. -/
def snapshotAll (j : Journal) : List Snapshot → Except JournalFault (Journal × List String)
  | [] => .ok (j, [])
  | c :: r =>
    match j.snapshot c.time c.name c.payload with
    | .error e => .error e
    | .ok (j', file) =>
      match snapshotAll j' r with
      | .error e => .error e
      | .ok (j'', files) => .ok (j'', file :: files)

/-- The first of several snapshots is written, and then the others. -/
theorem snapshotAll_cons_eq_ok {c : Snapshot} {r : List Snapshot}
    (h : j.snapshotAll (c :: r) = .ok (j', files)) :
    ∃ (text : String) (j₁ : Journal) (rest : List String), c.Writes text ∧
      j₁.session = j.session ∧ j₁.snapshots = setFile (c.file j.session) text j.snapshots ∧
      j₁.snapshotAll r = .ok (j', rest) ∧ files = c.file j.session :: rest := by
  unfold snapshotAll at h
  cases hfirst : j.snapshot c.time c.name c.payload with
  | error e =>
    rw [hfirst] at h
    cases h
  | ok p =>
    obtain ⟨j₁, file⟩ := p
    obtain ⟨-, rfl, v, hv, -, rfl⟩ := snapshot_eq_ok_iff.mp hfirst
    rw [hfirst] at h
    dsimp only at h
    split at h
    case h_1 => cases h
    case h_2 j₂ rest hrest =>
      cases h
      refine ⟨v.renderLines ++ "\n", _, rest, ⟨v, hv, rfl⟩, ?_, ?_, hrest, ?_⟩ <;> rfl

/-- **After any number of snapshots a file holds the text of the last one that has it**, and where
none has it, what it held before. -/
theorem snapshotAll_lookup (h : j.snapshotAll calls = .ok (j', files)) (file : String) :
    (∀ c, (calls.filter (·.file j.session = file)).getLast? = some c →
      ∃ text, c.Writes text ∧ j'.snapshots.lookup file = some text) ∧
    ((calls.filter (·.file j.session = file)).getLast? = none →
      j'.snapshots.lookup file = j.snapshots.lookup file) := by
  induction calls generalizing j files with
  | nil =>
    cases h
    exact ⟨nofun, fun _ => rfl⟩
  | cons c r ih =>
    obtain ⟨text, j₁, rest, htext, hsession, hfiles, hrest, -⟩ := snapshotAll_cons_eq_ok h
    obtain ⟨hsome, hnone⟩ := ih hrest
    rw [hsession] at hsome hnone
    by_cases hc : c.file j.session = file
    · rw [List.filter_cons_of_pos (by simpa using hc), List.getLast?_cons]
      refine ⟨fun d hd => ?_, nofun⟩
      cases hr : (r.filter (·.file j.session = file)).getLast? with
      | some e =>
        rw [hr] at hd
        obtain rfl := Option.some.inj hd
        exact hsome _ hr
      | none =>
        rw [hr] at hd
        obtain rfl := Option.some.inj hd
        refine ⟨text, htext, (hnone hr).trans ?_⟩
        rw [hfiles, lookup_setFile, if_pos hc.symm]
    · rw [List.filter_cons_of_neg (by simpa using hc)]
      refine ⟨hsome, fun hr => (hnone hr).trans ?_⟩
      rw [hfiles, lookup_setFile, if_neg (Ne.symm hc)]

/-- The names of the files that are told. -/
theorem snapshotAll_files (h : j.snapshotAll calls = .ok (j', files)) :
    files = calls.map (·.file j.session) := by
  induction calls generalizing j files with
  | nil =>
    cases h
    rfl
  | cons c r ih =>
    obtain ⟨text, j₁, rest, -, hsession, -, hrest, rfl⟩ := snapshotAll_cons_eq_ok h
    rw [ih hrest, hsession]
    rfl

theorem snapshotAll_writes (h : j.snapshotAll calls = .ok (j', files)) :
    ∀ c ∈ calls, ∃ text, c.Writes text := by
  induction calls generalizing j files with
  | nil => exact fun c hc => nomatch hc
  | cons c r ih =>
    obtain ⟨text, j₁, rest, htext, -, -, hrest, -⟩ := snapshotAll_cons_eq_ok h
    intro d hd
    rcases List.mem_cons.mp hd with rfl | hd
    · exact ⟨text, htext⟩
    · exact ih hrest d hd

/-- The last snapshot with the file of one of them is this one, or the last later one it meets. -/
theorem last_of_file (session : String) (before : List Snapshot) (c : Snapshot)
    (after : List Snapshot) :
    ((before ++ c :: after).filter (·.file session = c.file session)).getLast? =
      some ((after.filter (c.Meets ·)).getLast?.getD c) := by
  have hmeets : after.filter (c.Meets ·) = after.filter (·.file session = c.file session) := by
    refine List.filter_congr fun d _ => decide_eq_decide.mpr ?_
    rw [eq_comm, Snapshot.file_eq_iff]
  have hfirst : decide (c.file session = c.file session) = true := decide_eq_true rfl
  rw [hmeets, List.filter_append, List.filter_cons, if_pos hfirst, List.getLast?_append,
    List.getLast?_cons, Option.some_or]

/-- **What is kept of several snapshots.** The file a snapshot tells is named by the second, the
session and the letters of its name; so the files are distinct iff no two snapshots meet. A file
still holds what its snapshot wrote iff the last of the later ones that meet it, if there is one,
writes the same. -/
theorem snapshots_exact (h : j.snapshotAll calls = .ok (j', files)) :
    files = calls.map (·.file j.session) ∧
      (files.Nodup ↔ calls.Pairwise fun c d => ¬ c.Meets d) ∧
      ∀ before c after, calls = before ++ c :: after → ∃ text, c.Writes text ∧
        (j'.snapshots.lookup (c.file j.session) = some text ↔
          ∀ d, (after.filter (c.Meets ·)).getLast? = some d → d.Writes text) := by
  have hfiles := snapshotAll_files h
  refine ⟨hfiles, ?_, fun before c after hcalls => ?_⟩
  · rw [hfiles, List.Nodup, List.pairwise_map]
    simp only [ne_eq, Snapshot.file_eq_iff]
  · have hlast := last_of_file j.session before c after
    rw [← hcalls] at hlast
    obtain ⟨text, htext⟩ := snapshotAll_writes h c (hcalls ▸ by simp)
    obtain ⟨kept, hwrites, hkept⟩ := (snapshotAll_lookup h (c.file j.session)).1 _ hlast
    refine ⟨text, htext, ?_⟩
    rw [hkept, Option.some_inj]
    cases hlater : (after.filter (c.Meets ·)).getLast? with
    | none =>
      rw [hlater] at hwrites
      exact iff_of_true (hwrites.unique htext) nofun
    | some d =>
      rw [hlater] at hwrites
      constructor
      · rintro rfl e he
        obtain rfl := Option.some.inj he
        exact hwrites
      · exact fun hd => hwrites.unique (hd d rfl)

/-- A moment of a morning in January. -/
def morning : Timestamp :=
  ⟨(Date.ofYMD? 2025 1 15).get rfl, (TimeOfDay.ofHMS? 6 0 0 0).get rfl, some 0⟩

/-- Half a second later. -/
def soon : Timestamp := { morning with time := (TimeOfDay.ofHMS? 6 0 0 500000).get rfl }

/-- Two snapshots of one second, with names that are written alike. -/
def twice : List Snapshot :=
  [⟨morning, "bad intent", .json (.int 1)⟩, ⟨soon, "bad_intent", .json (.int 2)⟩]

theorem exists_twice : ∃ j' files, (start "s").snapshotAll twice = .ok (j', files) :=
  ⟨_, _, rfl⟩

/-- Of the two the second one is kept. -/
theorem snapshots_exact_twice : ∃ j' files, (start "s").snapshotAll twice = .ok (j', files) ∧
    ¬ files.Nodup ∧ j'.snapshots.lookup "20250115T060000Z_s_bad_intent.json" = some "2\n" := by
  obtain ⟨j', files, h⟩ := exists_twice
  obtain ⟨-, hdistinct, hkept⟩ := snapshots_exact h
  refine ⟨j', files, h, fun hnodup => ?_, ?_⟩
  · exact absurd (hdistinct.mp hnodup) (by decide +kernel)
  · obtain ⟨text, ⟨v, hv, rfl⟩, hlookup⟩ := hkept [twice[0]] twice[1] [] rfl
    obtain rfl := Except.ok.inj hv
    have hname : twice[1].file "s" = "20250115T060000Z_s_bad_intent.json" := by decide +kernel
    rw [← hname]
    exact hlookup.mpr nofun

/-- A snapshot may be lost. -/
theorem exists_snapshot_lost : ¬ ∀ (j j' : Journal) (calls : List Snapshot) (files : List String),
    j.snapshotAll calls = .ok (j', files) →
      ∀ c ∈ calls, ∃ text, c.Writes text ∧ j'.snapshots.lookup (c.file j.session) = some text := by
  intro hall
  obtain ⟨text, ⟨v, hv, rfl⟩, hlookup⟩ :=
    hall (start "s") _ twice _ rfl twice[0] List.mem_cons_self
  obtain rfl := Except.ok.inj hv
  exact absurd hlookup (by decide +kernel)

end Journal
end Augur
