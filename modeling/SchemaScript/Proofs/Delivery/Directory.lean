import SchemaScript.Delivery.Disk

/-!
# SchemaScript.Proofs.Delivery.Directory

Walks, and the directories that are made for a delivery.

* `walk_cons_ok`: what the first step of a walk asks for. Where a walk ends depends on the parts of
  the path alone (`eq_of_walk`), and it still ends there when more is on the disk (`walk_mono`).
* `makeDirectory_again`: a directory that was made is there, so that making it once more changes
  nothing. Making directories never touches a file (`files_makeDirectory`).
-/

namespace SchemaScript
namespace Disk

variable {d d' : Disk}

/-! ## Walks -/

/-- One part of a walk. -/
def step (place : Place) (part : String) : Place :=
  if part = "" ∨ part = "." then place
  else if part = ".." then place.dropLast
  else place ++ [part]

/-- The place that a path leads to if it leads anywhere. -/
def placeOf (path : String) : Place :=
  (Path.parts path).foldl step []

/-- Whether there is anything at a place. -/
def holds (d : Disk) (p : Place) : Bool :=
  d.isDirectory p || (d.file? p).isSome

/-- Whether a part leads to what lies in the directory, and not to itself or upwards. -/
def descends (part : String) : Bool :=
  part ≠ "" ∧ part ≠ "." ∧ part ≠ ".."

theorem step_of_descends {part : String} (h : descends part = true) (place : Place) :
    step place part = place ++ [part] := by
  simp only [descends, decide_eq_true_eq] at h
  simp [step, h]

theorem walk_cons_ok {place q : Place} {part : String} {rest : List String} :
    d.walk place (part :: rest) = .ok q ↔
      d.isDirectory place = true ∧
      (descends part = true →
        part.utf8ByteSize ≤ longestName ∧ d.holds (place ++ [part]) = true) ∧
      d.walk (step place part) rest = .ok q := by
  rw [walk]
  by_cases hplace : d.isDirectory place = true
  · by_cases hstay : part = "" ∨ part = "."
    · have hpart : ¬ descends part = true := by
        simp only [descends, decide_eq_true_eq]
        exact fun h => hstay.elim h.1 h.2.1
      simp [hplace, hstay, hpart, step]
    by_cases hup : part = ".."
    · subst hup
      simp [hplace, step, descends]
    have hpart : descends part = true := by
      simpa [descends, and_assoc] using And.intro (not_or.mp hstay) hup
    rw [step_of_descends hpart]
    by_cases hlength : longestName < part.utf8ByteSize
    · simp [hplace, hstay, hup, hpart, hlength, Nat.not_le.mpr hlength]
    · cases hnext : d.holds (place ++ [part]) with
      | true =>
        have hor : d.isDirectory (place ++ [part]) = true ∨
            (d.file? (place ++ [part])).isSome = true := by
          simpa [holds] using hnext
        simp [hplace, hstay, hup, hpart, hlength, hor, Nat.le_of_not_lt hlength]
      | false =>
        have hor : ¬ (d.isDirectory (place ++ [part]) = true ∨
            (d.file? (place ++ [part])).isSome = true) := by
          simpa [holds] using hnext
        simp [hplace, hstay, hup, hpart, hlength, hor]
  · simp [hplace]

theorem eq_of_walk {parts : List String} {place q : Place} (h : d.walk place parts = .ok q) :
    q = parts.foldl step place := by
  induction parts generalizing place with
  | nil =>
    cases h
    rfl
  | cons part rest ih => exact ih (walk_cons_ok.mp h).2.2

theorem eq_of_locate {path : String} {q : Place} (h : d.locate path = .ok q) :
    q = placeOf path := by
  rw [locate] at h
  split at h
  · cases h
  split at h
  · cases h
  exact eq_of_walk h

theorem walk_append_ok {ps qs : List String} {place r : Place} :
    d.walk place (ps ++ qs) = .ok r ↔
      ∃ q, d.walk place ps = .ok q ∧ d.walk q qs = .ok r := by
  induction ps generalizing place with
  | nil => simp [walk]
  | cons p ps ih =>
    rw [List.cons_append, walk_cons_ok, ih]
    simp only [walk_cons_ok]
    constructor
    · rintro ⟨hplace, hpart, q, hq, hr⟩
      exact ⟨q, ⟨hplace, hpart, hq⟩, hr⟩
    · rintro ⟨q, ⟨hplace, hpart, hq⟩, hr⟩
      exact ⟨hplace, hpart, q, hq, hr⟩

/-- What is on the disk is on the other as well. -/
structure Extends (d d' : Disk) : Prop where
  isDirectory : ∀ p, d.isDirectory p = true → d'.isDirectory p = true
  holds : ∀ p, d.holds p = true → d'.holds p = true

theorem walk_mono (h : d.Extends d') {parts : List String} {place q : Place}
    (hwalk : d.walk place parts = .ok q) : d'.walk place parts = .ok q := by
  induction parts generalizing place with
  | nil => exact hwalk
  | cons part rest ih =>
    obtain ⟨hplace, hpart, hrest⟩ := walk_cons_ok.mp hwalk
    exact walk_cons_ok.mpr ⟨h.isDirectory _ hplace,
      fun hdescends => ⟨(hpart hdescends).1, h.holds _ (hpart hdescends).2⟩, ih hrest⟩

theorem locate_mono (h : d.Extends d') {path : String} {q : Place} (hq : d.locate path = .ok q) :
    d'.locate path = .ok q := by
  rw [locate] at hq ⊢
  split at hq
  · cases hq
  split at hq
  · cases hq
  rename_i hzero hempty
  rw [if_neg hzero, if_neg hempty]
  exact walk_mono h hq

theorem leadsToDirectory_iff {parts : List String} :
    d.leadsToDirectory parts = true ↔
      ∃ q, d.walk [] parts = .ok q ∧ d.isDirectory q = true := by
  rw [leadsToDirectory]
  cases hwalk : d.walk [] parts with
  | error f => simp
  | ok q => simp

/-! ## Making directories -/

/-- A directory is made behind a walk to the one above it, in which there was nothing of its
name. -/
theorem makeOne_ok {parts : List String} {made : Disk} (h : d.makeOne parts = .ok made) :
    ∃ front name above, parts = front ++ [name] ∧ d.walk [] front = .ok above ∧
      d.isDirectory above = true ∧ name ≠ "." ∧ name ≠ ".." ∧
      name.utf8ByteSize ≤ longestName ∧
      made = { d with directories := d.directories ++ [above ++ [name]] } := by
  rw [makeOne] at h
  cases hwalk : d.walk [] parts.dropLast with
  | error f =>
    rw [hwalk] at h
    cases h
  | ok above =>
    rw [hwalk] at h
    simp only at h
    split at h
    · cases h
    rename_i habove
    cases hlast : parts.getLast? with
    | none =>
      rw [hlast] at h
      cases h
    | some name =>
      rw [hlast] at h
      simp only at h
      split at h
      · cases h
      rename_i hpoints
      split at h
      · cases h
      rename_i hlength
      split at h
      · cases h
      cases h
      obtain ⟨front, rfl⟩ := List.getLast?_eq_some_iff.mp hlast
      rw [List.dropLast_concat] at hwalk
      exact ⟨front, name, above, rfl, hwalk, by simpa using habove, fun hp => hpoints (.inl hp),
        fun hp => hpoints (.inr hp), Nat.le_of_not_lt hlength, rfl⟩

theorem extends_of_directories (d : Disk) (place : Place) :
    d.Extends { d with directories := d.directories ++ [place] } := by
  have hdirectory (p : Place) (h : d.isDirectory p = true) :
      ({ d with directories := d.directories ++ [place] } : Disk).isDirectory p = true := by
    simp only [isDirectory, Bool.or_eq_true, List.contains_iff_mem, List.mem_append] at h ⊢
    exact h.imp_right .inl
  refine ⟨hdirectory, fun p h => ?_⟩
  rw [holds, Bool.or_eq_true] at h ⊢
  exact h.imp_left (hdirectory p)

theorem leadsToDirectory_of_makeOne {parts : List String} {made : Disk} (hparts : "" ∉ parts)
    (h : d.makeOne parts = .ok made) : made.leadsToDirectory parts = true := by
  obtain ⟨front, name, above, rfl, hwalk, habove, hpoint, hup, hlength, rfl⟩ := makeOne_ok h
  have hextends := extends_of_directories d (above ++ [name])
  have hname : descends name = true := by
    simp only [descends, decide_eq_true_eq]
    exact ⟨fun hempty => hparts (by simp [hempty]), hpoint, hup⟩
  have hmade : ({ d with directories := d.directories ++ [above ++ [name]] } : Disk).isDirectory
      (above ++ [name]) = true := by
    simp [isDirectory]
  refine leadsToDirectory_iff.mpr ⟨above ++ [name], walk_append_ok.mpr ⟨above,
    walk_mono hextends hwalk,
    walk_cons_ok.mpr ⟨hextends.isDirectory _ habove, fun _ => ⟨hlength, ?_⟩,
      by rw [step_of_descends hname]; rfl⟩⟩, hmade⟩
  rw [holds, hmade, Bool.true_or]

theorem files_makeOne {parts : List String} {made : Disk} (h : d.makeOne parts = .ok made) :
    made.files = d.files := by
  obtain ⟨_, _, _, -, -, -, -, -, -, rfl⟩ := makeOne_ok h
  rfl

/-- Where a directory is already, none can be made. -/
theorem makeOne_of_leadsToDirectory {parts : List String} (hparts : "" ∉ parts)
    (h : d.leadsToDirectory parts = true) :
    ∃ f, d.makeOne parts = .error f ∧ f ≠ .notFound := by
  obtain ⟨q, hwalk, -⟩ := leadsToDirectory_iff.mp h
  rcases List.eq_nil_or_concat parts with rfl | ⟨front, name, rfl⟩
  · exact ⟨.exists, rfl, nofun⟩
  rw [List.concat_eq_append] at hparts hwalk ⊢
  obtain ⟨above, hfront, hname⟩ := walk_append_ok.mp hwalk
  obtain ⟨habove, hthere, -⟩ := walk_cons_ok.mp hname
  rw [makeOne, List.dropLast_concat, hfront]
  simp only [habove, List.getLast?_concat]
  by_cases hpoints : name = "." ∨ name = ".."
  · exact ⟨.exists, by simp [hpoints], nofun⟩
  · have hdescends : descends name = true := by
      simp only [descends, decide_eq_true_eq]
      exact ⟨fun hempty => hparts (by simp [hempty]), not_or.mp hpoints⟩
    obtain ⟨hlength, hholds⟩ := hthere hdescends
    have hor : d.isDirectory (above ++ [name]) = true ∨
        (d.file? (above ++ [name])).isSome = true := by
      simpa [holds] using hholds
    exact ⟨.exists, by simp [hpoints, Nat.not_lt.mpr hlength, hor], nofun⟩

theorem files_makeFrom (names : List String) : (d.makeFrom names).2.files = d.files := by
  induction names generalizing d with
  | nil => rfl
  | cons name above ih =>
    rw [makeFrom]
    split
    · rename_i made hone
      exact files_makeOne hone
    · have hfiles := ih (d := d)
      split
      · rename_i habove
        rw [habove] at hfiles
        exact hfiles
      · rename_i habove
        rw [habove] at hfiles
        split
        · rename_i made hone
          rw [files_makeOne hone, hfiles]
        · split <;> exact hfiles
    · split <;> rfl

theorem leadsToDirectory_of_makeFrom {names : List String} (hnames : "" ∉ names)
    (h : (d.makeFrom names).1 = .ok ()) :
    (d.makeFrom names).2.leadsToDirectory names.reverse = true := by
  have hparts : "" ∉ names.reverse := by rwa [List.mem_reverse]
  cases names with
  | nil => rfl
  | cons name above =>
    rw [makeFrom] at h ⊢
    split
    · rename_i made hone
      exact leadsToDirectory_of_makeOne hparts hone
    · rename_i hone
      simp only [hone] at h
      split
      · rename_i habove
        rw [habove] at h
        cases h
      · rename_i d₁ habove
        simp only [habove] at h
        split
        · rename_i made hone
          exact leadsToDirectory_of_makeOne hparts hone
        · rename_i f hone
          rw [hone] at h
          split
          · assumption
          · rename_i hleads
            simp only [if_neg hleads] at h
            cases h
    · rename_i f hfound hone
      rw [hone] at h
      split
      · assumption
      · rename_i hleads
        simp only [if_neg hleads] at h
        cases h

/-- A directory that is there is not made again. -/
theorem makeFrom_of_leadsToDirectory {names : List String} (hnames : "" ∉ names)
    (h : d.leadsToDirectory names.reverse = true) : d.makeFrom names = (.ok (), d) := by
  cases names with
  | nil => rfl
  | cons name above =>
    obtain ⟨f, hone, hfound⟩ := makeOne_of_leadsToDirectory (by rwa [List.mem_reverse]) h
    rw [makeFrom, hone]
    cases f with
    | notFound => exact absurd rfl hfound
    | _ => simp only [h, if_true]

theorem empty_not_mem_properParts (path : String) : "" ∉ Path.properParts path := by
  have hfilter (parts : List String) : "" ∉ parts.filter Path.namesSomething := by
    simp [Path.namesSomething]
  rw [Path.properParts]
  unfold Path.proper
  split
  · simp [hfilter]
  · exact hfilter _

theorem files_makeDirectory (path : String) : (d.makeDirectory path).2.files = d.files := by
  rw [makeDirectory]
  split
  · rfl
  · exact files_makeFrom _

/-- A directory that was made is there, also after more was put on the disk. -/
theorem makeDirectory_again {path : String} (h : (d.makeDirectory path).1 = .ok ())
    (hextends : (d.makeDirectory path).2.Extends d') : d'.makeDirectory path = (.ok (), d') := by
  have hparts : "" ∉ (Path.properParts path).reverse := by
    rw [List.mem_reverse]
    exact empty_not_mem_properParts path
  rw [makeDirectory] at h hextends ⊢
  split at h
  · cases h
  rename_i hzero
  rw [if_neg hzero] at hextends ⊢
  obtain ⟨q, hwalk, hq⟩ := leadsToDirectory_iff.mp (leadsToDirectory_of_makeFrom hparts h)
  exact makeFrom_of_leadsToDirectory hparts
    (leadsToDirectory_iff.mpr ⟨q, walk_mono hextends hwalk, hextends.isDirectory q hq⟩)

end Disk
end SchemaScript
