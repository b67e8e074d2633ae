import Mathlib.Data.List.Forall2
import Mathlib.Logic.Function.Basic
import SchemaScript.Proofs.Delivery.Directory
import SchemaScript.Proofs.Delivery.Path
import SchemaScript.Proofs.Entries
import SchemaScript.Proofs.Text.Intercalate

/-!
# SchemaScript.Proofs.Delivery.Replace

Deliveries into a directory. Whatever the disk does, a call that fails changes no file, and one that
succeeds changes the file of its name in the directory and no other (`deliver_cases`). If the disk
serves, that is if it makes the directory, finds it and writes to it, then all accepted names but
the point are delivered, and the directory holds for each of them what was delivered last
(`deliverAll_replaces`).
-/

namespace SchemaScript

/-- Parcels are delivered one after the other. -/
def deliverAll {σ : Type} (deliver : Parcel → StateM σ (Except DeliveryError Receipt))
    (parcels : List Parcel) : StateM σ (List (Except DeliveryError Receipt)) :=
  parcels.mapM deliver

section Runs

variable {σ : Type} (deliver : Parcel → StateM σ (Except DeliveryError Receipt))

theorem deliverAll_nil (s : σ) : deliverAll deliver [] s = ([], s) := rfl

theorem deliverAll_cons (p : Parcel) (parcels : List Parcel) (s : σ) :
    deliverAll deliver (p :: parcels) s =
      ((deliver p s).1 :: (deliverAll deliver parcels (deliver p s).2).1,
        (deliverAll deliver parcels (deliver p s).2).2) := by
  rw [deliverAll, List.mapM_cons]
  rfl

end Runs

/-- The parcel, if it was delivered. -/
def keptParcel (p : Parcel) : Except DeliveryError Receipt → List Parcel
  | .ok _ => [p]
  | .error _ => []

def keptParcels (parcels : List Parcel) (answers : List (Except DeliveryError Receipt)) :
    List Parcel :=
  (parcels.zip answers).flatMap fun e => keptParcel e.1 e.2

theorem keptParcels_cons (p : Parcel) (parcels : List Parcel)
    (answer : Except DeliveryError Receipt) (answers : List (Except DeliveryError Receipt)) :
    keptParcels (p :: parcels) (answer :: answers) =
      keptParcel p answer ++ keptParcels parcels answers := rfl

/-- A shelf keeps accepted parcels, all of them. -/
theorem Shelf.parcels_deliverAll {parcels : List Parcel}
    (h : ∀ p ∈ parcels, checkFilename p.filename = .ok ()) (s : Shelf) :
    (deliverAll Shelf.deliver parcels s).2.parcels = s.parcels ++ parcels := by
  induction parcels generalizing s with
  | nil => rw [deliverAll_nil, List.append_nil]
  | cons p parcels ih =>
    have hp : (Shelf.deliver p s).2 = ⟨s.parcels ++ [p]⟩ := by
      rw [Shelf.deliver, h p (by simp)]
    rw [deliverAll_cons, hp, ih fun q hq => h q (by simp [hq]), List.append_assoc]
    rfl

namespace Disk

variable {d d' : Disk} {target : Target} {p : Parcel}

theorem lookup_putFile (place q : Place) (content : FileContent)
    (files : List (Place × FileContent)) :
    (putFile place content files).lookup q =
      if q = place then some content else files.lookup q := by
  induction files with
  | nil => exact lookup_cons_if q (place, content) []
  | cons e files ih =>
    obtain ⟨r, old⟩ := e
    rw [putFile]
    by_cases hr : r = place
    · rw [if_pos hr, lookup_cons_if, lookup_cons_if, hr]
      by_cases hq : q = place <;> simp [hq]
    · rw [if_neg hr, lookup_cons_if, lookup_cons_if, ih]
      by_cases hq : q = r
      · simp [hq, hr]
      · simp [hq]

/-- A disk with a new content for one of its files. -/
def withFile (d : Disk) (place : Place) (text : String) : Disk :=
  { d with files := putFile place (some text) d.files }

theorem file?_withFile (place q : Place) (text : String) :
    (d.withFile place text).file? q = if q = place then some (some text) else d.file? q :=
  lookup_putFile place q (some text) d.files

theorem writeText_ok {directory : Place} {name text : String} :
    d.writeText directory name text = .ok d' ↔
      (hasZero name = false ∧ name.utf8ByteSize ≤ longestName ∧
        d.isDirectory (directory ++ [name]) = false) ∧
      d' = d.withFile (directory ++ [name]) text := by
  rw [writeText]
  split
  · simp_all
  split
  · rename_i hlength
    simp [Nat.not_le.mpr hlength]
  split
  · simp_all
  · rename_i hzero hlength hdirectory
    simp only [Except.ok.injEq]
    constructor
    · rintro rfl
      exact ⟨⟨by simpa using hzero, Nat.le_of_not_lt hlength, by simpa using hdirectory⟩, rfl⟩
    · rintro ⟨-, rfl⟩
      rfl

/-- What a call that succeeds does, and that one that fails changes no file; either way no directory
is made but those that lead to the target. -/
theorem deliver_cases (target : Target) (p : Parcel) (d : Disk) :
    let made := (d.makeDirectory target.path).2
    (∃ e, (deliver target p d).1 = .error e ∧
      ((deliver target p d).2 = d ∨ (deliver target p d).2 = made)) ∨
    (∃ path, (deliver target p d).1 = .ok (p.receipt path) ∧
      (deliver target p d).2 = made.withFile (placeOf target.path ++ [p.filename]) p.content) := by
  intro made
  rw [deliver]
  cases hname : checkFilename p.filename with
  | error f => exact .inl ⟨_, rfl, .inl rfl⟩
  | ok _ =>
    rcases hmake : d.makeDirectory target.path with ⟨result, d₁⟩
    have hmade : made = d₁ := congrArg Prod.snd hmake
    rw [hmade]
    cases result with
    | error f => exact .inl ⟨_, rfl, .inr rfl⟩
    | ok _ =>
      simp only
      cases hlocate : d₁.locate target.path with
      | error f => exact .inl ⟨_, rfl, .inr rfl⟩
      | ok directory =>
        simp only
        split
        · exact .inl ⟨_, rfl, .inr rfl⟩
        cases hwrite : d₁.writeText directory p.filename p.content with
        | error f => exact .inl ⟨_, rfl, .inr rfl⟩
        | ok d₂ =>
          rw [← eq_of_locate hlocate]
          exact .inr ⟨_, rfl, (writeText_ok.mp hwrite).2⟩

/-! ## A disk that serves -/

/-- Making the directory, finding it and writing to it succeed for all names that are accepted. -/
structure Serves (d : Disk) (target : Target) (parcels : List Parcel) : Prop where
  made : (d.makeDirectory target.path).1 = .ok ()
  found : ∃ place, (d.makeDirectory target.path).2.locate target.path = .ok place
  written : ∀ p ∈ parcels, checkFilename p.filename = .ok () → p.filename ≠ "." →
    ∃ after, (d.makeDirectory target.path).2.writeText (placeOf target.path) p.filename p.content =
      .ok after

theorem Extends.refl : d.Extends d :=
  ⟨fun _ h => h, fun _ h => h⟩

theorem extends_withFile (place : Place) (text : String) : d.Extends (d.withFile place text) := by
  refine ⟨fun _ h => h, fun q h => ?_⟩
  rw [holds, file?_withFile]
  rw [holds] at h
  by_cases hq : q = place
  · simp [hq]
  · rw [if_neg hq]
    exact h

theorem placeText_ne_empty {start : String} (h : start ≠ "") (place : Place) :
    placeText start place ≠ "" := by
  intro hempty
  have hprefix := Text.prefix_intercalate "/".toList start.toList (place.map String.toList)
  rw [placeText, ← String.toList_inj, String.toList_intercalate, List.map_cons] at hempty
  rw [hempty] at hprefix
  exact h (String.toList_eq_nil_iff.mp (List.prefix_nil.mp hprefix))

namespace Serves

variable {parcels : List Parcel}

/-- More files do not keep a disk from serving. -/
theorem of_extends (h : d.Serves target parcels)
    (hextends : (d.makeDirectory target.path).2.Extends d')
    (hdirectories : d'.directories = (d.makeDirectory target.path).2.directories) :
    d'.makeDirectory target.path = (.ok (), d') ∧ d'.Serves target parcels := by
  have hagain := makeDirectory_again h.made hextends
  refine ⟨hagain, by rw [hagain], ?_, fun p hp hname hpoint => ?_⟩
  · obtain ⟨place, hplace⟩ := h.found
    rw [hagain]
    exact ⟨place, locate_mono hextends hplace⟩
  · obtain ⟨after, hafter⟩ := h.written p hp hname hpoint
    obtain ⟨⟨hzero, hlength, hdirectory⟩, -⟩ := writeText_ok.mp hafter
    rw [hagain]
    refine ⟨_, writeText_ok.mpr ⟨⟨hzero, hlength, ?_⟩, rfl⟩⟩
    rw [isDirectory, hdirectories]
    exact hdirectory

theorem deliver_refused {f : NameFault} (hname : checkFilename p.filename = .error f) :
    deliver target p d = (.error f.toError, d) := by
  rw [deliver, hname]

/-- What a delivery comes to behind the check of the name. -/
theorem deliver_checked (h : d.Serves target parcels) (hstart : target.start ≠ "")
    (hp : p ∈ parcels) (hname : checkFilename p.filename = .ok ()) :
    let made := (d.makeDirectory target.path).2
    let path := Path.join (placeText target.start (placeOf target.path)) p.filename
    deliver target p d =
      if p.filename = "." then (.error (NameFault.escape p.filename).toError, made)
      else (.ok (p.receipt path),
        made.withFile (placeOf target.path ++ [p.filename]) p.content) := by
  intro made path
  obtain ⟨place, hfound⟩ := h.found
  have hplace : place = placeOf target.path := eq_of_locate hfound
  subst hplace
  have hmake : d.makeDirectory target.path = (.ok (), made) := Prod.ext h.made rfl
  have hchild := Path.isDirectlyIn_join (placeText_ne_empty hstart (placeOf target.path)) hname
  rw [deliver, hname]
  simp only [hmake, show made.locate target.path = .ok (placeOf target.path) from hfound]
  by_cases hpoint : p.filename = "."
  · have hoff := mt hchild.mp (not_not_intro hpoint)
    rw [if_pos (by simpa using hoff), if_pos hpoint]
  · have hin := hchild.mpr hpoint
    obtain ⟨after, hafter⟩ := h.written p hp hname hpoint
    rw [if_neg (by simp [hin]), if_neg hpoint]
    rw [show made.writeText (placeOf target.path) p.filename p.content = .ok after from hafter,
      (writeText_ok.mp hafter).2]

/-- A disk that serves goes on serving. -/
theorem deliver (h : d.Serves target parcels) (p : Parcel) :
    (deliver target p d).2.Serves target parcels := by
  have hmade := h.of_extends Extends.refl rfl
  rcases deliver_cases target p d with ⟨_, -, hafter | hafter⟩ | ⟨_, -, hafter⟩
  · rwa [hafter]
  · rw [hafter]
    exact hmade.2
  · rw [hafter]
    exact (h.of_extends (extends_withFile _ _) rfl).2

end Serves

/-! ## Runs -/

/-- The files of a directory by their names. -/
def entries (d : Disk) (directory : Place) (name : String) : Option FileContent :=
  d.file? (directory ++ [name])

/-- What a call with the given answer may have changed: nothing, or the entry of its name. -/
def Changes (directory : Place) (p : Parcel) (answer : Except DeliveryError Receipt)
    (d d' : Disk) : Prop :=
  match answer with
  | .error _ => ∀ q, d'.file? q = d.file? q
  | .ok _ => d'.entries directory p.filename = some (some p.content) ∧
      ∀ q, q ≠ directory ++ [p.filename] → d'.file? q = d.file? q

theorem file?_makeDirectory (path : String) (q : Place) :
    (d.makeDirectory path).2.file? q = d.file? q := by
  rw [file?, files_makeDirectory, file?]

theorem changes_deliver (target : Target) (p : Parcel) (d : Disk) :
    Changes (placeOf target.path) p (deliver target p d).1 d (deliver target p d).2 := by
  rcases deliver_cases target p d with ⟨_, hanswer, hafter⟩ | ⟨_, hanswer, hafter⟩
  · rw [hanswer]
    intro q
    rcases hafter with hafter | hafter
    · rw [hafter]
    · rw [hafter, file?_makeDirectory]
  · rw [hanswer, hafter]
    refine ⟨?_, fun q hq => ?_⟩
    · rw [entries, file?_withFile, if_pos rfl]
    · rw [file?_withFile, if_neg hq, file?_makeDirectory]

/-- Entries overridden by parcels, of which the last one of a name wins. -/
def overridden (entries : String → Option FileContent) (parcels : List Parcel) :
    String → Option FileContent :=
  parcels.foldl (fun entries p => Function.update entries p.filename (some (some p.content)))
    entries

theorem entries_of_changes {base : Place} {answer : Except DeliveryError Receipt}
    (h : Changes base p answer d d') :
    d'.entries base = overridden (d.entries base) (keptParcel p answer) := by
  funext name
  cases answer with
  | error e => exact h _
  | ok receipt =>
    obtain ⟨hentry, hother⟩ := h
    change _ = Function.update (d.entries base) p.filename (some (some p.content)) name
    by_cases hname : name = p.filename
    · rw [hname, Function.update_self, hentry]
    · rw [Function.update_of_ne hname]
      exact hother _ fun he => hname (List.singleton_inj.mp (List.append_cancel_left he))

theorem file?_of_changes {base : Place} {answer : Except DeliveryError Receipt}
    (h : Changes base p answer d d') {q : Place} (hq : ∀ name, q ≠ base ++ [name]) :
    d'.file? q = d.file? q := by
  cases answer with
  | error e => exact h q
  | ok receipt => exact h.2 q (hq p.filename)

/-- Whatever the disk does: after a run the directory is overridden by what was delivered, and all
other files are as they were. -/
theorem entries_deliverAll (target : Target) (parcels : List Parcel) (d : Disk) :
    let base := placeOf target.path
    let run := deliverAll (deliver target) parcels d
    run.2.entries base = overridden (d.entries base) (keptParcels parcels run.1) ∧
    ∀ q, (∀ name, q ≠ base ++ [name]) → run.2.file? q = d.file? q := by
  induction parcels generalizing d with
  | nil => exact ⟨rfl, fun _ _ => rfl⟩
  | cons p parcels ih =>
    obtain ⟨hentries, hother⟩ := ih (deliver target p d).2
    have hchanges := changes_deliver target p d
    rw [deliverAll_cons]
    refine ⟨?_, fun q hq => (hother q hq).trans (file?_of_changes hchanges hq)⟩
    rw [hentries, entries_of_changes hchanges, keptParcels_cons, overridden, overridden, overridden,
      List.foldl_append]

section Serving

variable {parcels : List Parcel}

/-- On a disk that serves, the accepted names but the point are delivered. -/
theorem Serves.isOk_deliver (h : d.Serves target parcels) (hstart : target.start ≠ "")
    (hp : p ∈ parcels) :
    (∃ receipt, (Disk.deliver target p d).1 = .ok receipt) ↔
      checkFilename p.filename = .ok () ∧ p.filename ≠ "." := by
  cases hname : checkFilename p.filename with
  | error f =>
    rw [Serves.deliver_refused hname]
    simp
  | ok _ =>
    rw [h.deliver_checked hstart hp hname]
    by_cases hpoint : p.filename = "." <;> simp [hpoint]

theorem Serves.answers_deliverAll (h : d.Serves target parcels) (hstart : target.start ≠ "")
    {given : List Parcel} (hgiven : ∀ p ∈ given, p ∈ parcels) :
    List.Forall₂ (fun p answer => (∃ receipt, answer = .ok receipt) ↔
      checkFilename p.filename = .ok () ∧ p.filename ≠ ".")
      given (deliverAll (Disk.deliver target) given d).1 := by
  induction given generalizing d with
  | nil => exact .nil
  | cons p given ih =>
    rw [deliverAll_cons]
    exact .cons (h.isOk_deliver hstart (hgiven p (by simp)))
      (ih (h.deliver p) fun q hq => hgiven q (by simp [hq]))

/-- No directory is made but those that lead to the target, and those only once. -/
theorem Serves.directories_deliverAll (h : d.Serves target parcels) (given : List Parcel) :
    let after := (deliverAll (Disk.deliver target) given d).2
    after.directories = d.directories ∨
      after.directories = (d.makeDirectory target.path).2.directories := by
  induction given generalizing d with
  | nil => exact .inl rfl
  | cons p given ih =>
    rw [deliverAll_cons]
    have hrest := ih (h.deliver p)
    have hlater (hextends : (d.makeDirectory target.path).2.Extends (Disk.deliver target p d).2)
        (hsame : (Disk.deliver target p d).2.directories =
          (d.makeDirectory target.path).2.directories) :
        (deliverAll (Disk.deliver target) given (Disk.deliver target p d).2).2.directories =
          (d.makeDirectory target.path).2.directories := by
      obtain ⟨hagain, -⟩ := h.of_extends hextends hsame
      rw [hagain, or_self] at hrest
      exact hrest.trans hsame
    rcases deliver_cases target p d with ⟨_, -, hafter | hafter⟩ | ⟨_, -, hafter⟩
    · rwa [hafter] at hrest ⊢
    · exact .inr (hlater (by rw [hafter]; exact .refl) (by rw [hafter]))
    · exact .inr (hlater (by rw [hafter]; exact extends_withFile _ _) (by rw [hafter]; rfl))

theorem mem_keptParcels {answers : List (Except DeliveryError Receipt)}
    (h : p ∈ keptParcels parcels answers) : ∃ receipt, (p, .ok receipt) ∈ parcels.zip answers := by
  obtain ⟨⟨q, answer⟩, hmem, hkept⟩ := List.mem_flatMap.mp h
  cases answer with
  | error e => cases hkept
  | ok receipt =>
    rw [List.mem_singleton.mp hkept]
    exact ⟨receipt, hmem⟩

/-- Deliveries stay inside their directory. On a disk that makes, finds and writes what it is asked
to, a call succeeds if and only if its name is accepted and leads to a place directly in the
directory, that is for all accepted names but the point. A call that fails changes no file, and one
that succeeds changes the entry of its name alone. After a run the directory is overridden by what a
shelf would hold after the same successful calls, the last of each name, and nothing outside of it
has changed. -/
theorem deliverAll_replaces (hstart : target.start ≠ "") (h : d.Serves target parcels) :
    let base := placeOf target.path
    let directory := placeText target.start base
    let run := deliverAll (Disk.deliver target) parcels d
    let log := (deliverAll Shelf.deliver (keptParcels parcels run.1) .empty).2.parcels
    List.Forall₂ (fun p answer =>
      ((∃ receipt, answer = .ok receipt) ↔ checkFilename p.filename = .ok () ∧
        Path.isDirectlyIn directory (Path.join directory p.filename) = true) ∧
      ((∃ receipt, answer = .ok receipt) ↔ checkFilename p.filename = .ok () ∧ p.filename ≠ "."))
      parcels run.1 ∧
    (∀ (p : Parcel) (d : Disk),
      Changes base p (Disk.deliver target p d).1 d (Disk.deliver target p d).2) ∧
    log = keptParcels parcels run.1 ∧
    run.2.entries base = overridden (d.entries base) log ∧
    (∀ q, (∀ name, q ≠ base ++ [name]) → run.2.file? q = d.file? q) ∧
    (run.2.directories = d.directories ∨
      run.2.directories = (d.makeDirectory target.path).2.directories) := by
  intro base directory run log
  have hanswers := h.answers_deliverAll hstart fun p hp => hp
  have hlog : log = keptParcels parcels run.1 := by
    refine Shelf.parcels_deliverAll (fun p hp => ?_) .empty
    obtain ⟨receipt, hmem⟩ := mem_keptParcels hp
    exact (((List.forall₂_iff_zip.mp hanswers).2 hmem).mp ⟨receipt, rfl⟩).1
  have hchild (p : Parcel) (hname : checkFilename p.filename = .ok ()) :
      p.filename ≠ "." ↔ Path.isDirectlyIn directory (Path.join directory p.filename) = true :=
    (Path.isDirectlyIn_join (placeText_ne_empty hstart base) hname).symm
  obtain ⟨hentries, hother⟩ := entries_deliverAll target parcels d
  rw [← hlog] at hentries
  exact ⟨hanswers.imp fun p answer hiff => ⟨hiff.trans (and_congr_right (hchild p)), hiff⟩,
    fun p d => changes_deliver target p d, hlog, hentries, hother, h.directories_deliverAll parcels⟩

end Serving

/-- A name twice, one that leads elsewhere, the point, and one with a blank at its end. -/
def repeatedParcels : List Parcel :=
  [⟨"A", "a.sql", "application/sql"⟩, ⟨"B", "../b.sql", "application/sql"⟩,
    ⟨"C", "a.sql", "text/plain"⟩, ⟨"D", ".", "application/sql"⟩, ⟨"E", "a.sql ", "text/plain"⟩]

theorem deliverAll_replaces_repeatedParcels :
    let target : Target := ⟨"/srv", "out/today", "out/today"⟩
    let run := deliverAll (deliver target) repeatedParcels empty
    target.start ≠ "" ∧ empty.Serves target repeatedParcels ∧
    run.2.entries ["out", "today"] = overridden (fun _ => none)
      [⟨"A", "a.sql", "application/sql"⟩, ⟨"C", "a.sql", "text/plain"⟩,
        ⟨"E", "a.sql ", "text/plain"⟩] ∧
    (∀ q, (∀ name, q ≠ ["out", "today"] ++ [name]) → run.2.file? q = none) := by
  intro target run
  have hstart : target.start ≠ "" := by decide
  have hserves : empty.Serves target repeatedParcels := by
    refine ⟨by decide +kernel, ⟨["out", "today"], by decide +kernel⟩, fun p hp hname hpoint => ?_⟩
    refine ⟨_, writeText_ok.mpr ⟨?_, rfl⟩⟩
    revert p
    decide +kernel
  have hplace : placeOf target.path = ["out", "today"] := by decide +kernel
  obtain ⟨-, -, hlog, hentries, hother, -⟩ := deliverAll_replaces hstart hserves
  rw [hplace] at hentries hother
  refine ⟨hstart, hserves, ?_, fun q hq => (hother q hq).trans rfl⟩
  rw [hentries, hlog]
  exact congrArg₂ overridden rfl (by decide +kernel)

end Disk
end SchemaScript
