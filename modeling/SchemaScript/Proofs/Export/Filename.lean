import SchemaScript.Proofs.Delivery.Replace
import SchemaScript.Proofs.Export.Outcome

/-!
# SchemaScript.Proofs.Export.Filename

Names of files, read from the right. The digits of the day end at the last character that is no
digit, and so do those of the month and of the year in front of it (`eq_of_append_padded`). What
stands there in front of the year is its sign, or else the underscore that ends the name of the
dialect (`eq_of_append_date`). No name of a dialect ends in another one, even with the underscore of
`sql_server` (`eq_of_append_fileWord`), and all that is left is the prefix.

So a name tells the prefix, the dialect and the date (`eq_of_filenameFor`), and exports that differ
in one of them are delivered into a directory side by side (`exports_apart`).
-/

namespace SchemaScript

/-! ## Digits -/

/-- A text of digits is what follows the last character that is no digit. -/
theorem eq_of_append_digits {a b u v : List Char} {s t : Char} (hs : s.isDigit = false)
    (ht : t.isDigit = false) (hu : ∀ c ∈ u, c.isDigit = true) (hv : ∀ c ∈ v, c.isDigit = true)
    (h : a ++ s :: u = b ++ t :: v) : a = b ∧ s = t ∧ u = v := by
  rcases List.append_eq_append_iff.mp h with ⟨mid, hb, hmid⟩ | ⟨mid, ha, hmid⟩
  · cases mid with
    | nil =>
      obtain ⟨hst, huv⟩ := List.cons.inj hmid
      exact ⟨by simpa using hb.symm, hst, huv⟩
    | cons c mid =>
      -- The other separator would be one of the digits.
      have hmem : t ∈ u := by rw [(List.cons.inj hmid).2]; simp
      rw [hu t hmem] at ht
      cases ht
  · cases mid with
    | nil =>
      obtain ⟨hts, hvu⟩ := List.cons.inj hmid
      exact ⟨by simpa using ha, hts.symm, hvu.symm⟩
    | cons c mid =>
      have hmem : s ∈ v := by rw [(List.cons.inj hmid).2]; simp
      rw [hv s hmem] at hs
      cases hs

namespace Date

theorem toList_padded (width n : Nat) :
    (padded width n).toList =
      List.replicate (width - (Nat.toDigits 10 n).length) '0' ++ Nat.toDigits 10 n := by
  rw [padded, String.toList_ofList, Nat.toString_eq_repr, Nat.toList_repr]

theorem isDigit_of_mem_padded {width n : Nat} {c : Char} (h : c ∈ (padded width n).toList) :
    c.isDigit = true := by
  rw [toList_padded, List.mem_append] at h
  rcases h with h | h
  · rw [List.eq_of_mem_replicate h]
    rfl
  · exact Nat.isDigit_of_mem_toDigits (by decide) (by decide) h

theorem ofDigitChars_zeros (k : Nat) : Nat.ofDigitChars 10 (List.replicate k '0') 0 = 0 := by
  induction k with
  | zero => rfl
  | succ k ih =>
    rw [List.replicate_succ, Nat.ofDigitChars_cons]
    exact ih

/-- The zeros in front do not count. -/
theorem ofDigitChars_padded (width n : Nat) :
    Nat.ofDigitChars 10 (padded width n).toList 0 = n := by
  rw [toList_padded, Nat.ofDigitChars_append, ofDigitChars_zeros, Nat.ofDigitChars_ten_toDigits]

/-- The step from the right: a number with what stands in front of it. -/
theorem eq_of_append_padded {a b : List Char} {s t : Char} {width m n : Nat}
    (hs : s.isDigit = false) (ht : t.isDigit = false)
    (h : a ++ s :: (padded width m).toList = b ++ t :: (padded width n).toList) :
    a = b ∧ s = t ∧ m = n := by
  obtain ⟨hab, hst, hdigits⟩ := eq_of_append_digits hs ht (fun _ => isDigit_of_mem_padded)
    (fun _ => isDigit_of_mem_padded) h
  refine ⟨hab, hst, ?_⟩
  rw [← ofDigitChars_padded width m, hdigits, ofDigitChars_padded]

/-! ## Dates -/

/-- The character in front of the digits of a year that follows an underscore. -/
def yearMark (year : Int) : Char :=
  if year < 0 then '-' else if year ≤ 9999 then '_' else '+'

/-- What stands in front of the mark: the underscore, unless the mark is that. -/
def yearLead (mark : Char) : List Char :=
  if mark = '_' then [] else ['_']

theorem cons_toList_yearText (year : Int) :
    '_' :: (yearText year).toList =
      yearLead (yearMark year) ++ yearMark year :: (padded 4 year.natAbs).toList := by
  unfold yearText yearMark
  split
  · simp [yearLead]
  · split <;> simp [yearLead]

theorem isDigit_yearMark (year : Int) : (yearMark year).isDigit = false := by
  unfold yearMark
  split
  · rfl
  · split <;> rfl

theorem eq_of_yearMark {y z : Int} (hmark : yearMark y = yearMark z)
    (habs : y.natAbs = z.natAbs) : y = z := by
  have hsign (year : Int) : (year < 0 ∧ yearMark year = '-') ∨
      (0 ≤ year ∧ year ≤ 9999 ∧ yearMark year = '_') ∨ (9999 < year ∧ yearMark year = '+') := by
    unfold yearMark
    grind
  rcases hsign y with ⟨hy, hmy⟩ | ⟨hy, -, hmy⟩ | ⟨hy, hmy⟩ <;>
    rcases hsign z with ⟨hz, hmz⟩ | ⟨hz, -, hmz⟩ | ⟨hz, hmz⟩ <;>
      first
        | omega
        | exact absurd (hmy.symm.trans (hmark.trans hmz)) (by decide)

/-- A date that follows an underscore, with what stands in front of that. -/
theorem eq_of_append_date {a b : List Char} {x y : Date}
    (h : a ++ '_' :: x.text.toList = b ++ '_' :: y.text.toList) : a = b ∧ x = y := by
  have htext (c : List Char) (z : Date) : c ++ '_' :: z.text.toList =
      c ++ yearLead (yearMark z.year) ++ yearMark z.year :: (padded 4 z.year.natAbs).toList ++
        '-' :: (padded 2 z.month).toList ++ '-' :: (padded 2 z.day).toList := by
    have hyear := cons_toList_yearText z.year
    simp only [text, String.toList_append, ← List.cons_append, hyear]
    simp
  rw [htext, htext] at h
  -- The day comes off first, and the mark of the year tells how much of the rest is the year's.
  obtain ⟨hrest, -, hday⟩ := eq_of_append_padded rfl rfl h
  obtain ⟨hrest, -, hmonth⟩ := eq_of_append_padded rfl rfl hrest
  obtain ⟨hrest, hmark, habs⟩ :=
    eq_of_append_padded (isDigit_yearMark x.year) (isDigit_yearMark y.year) hrest
  rw [hmark] at hrest
  have hyear := eq_of_yearMark hmark habs
  refine ⟨List.append_cancel_right hrest, ?_⟩
  cases x
  cases y
  rw [mk.injEq]
  exact ⟨hyear, hmonth, hday⟩

end Date

/-! ## Names -/

namespace Dialect

/-- The name of a dialect in the names of files. -/
def fileWord (d : Dialect) : String :=
  String.intercalate "_" (Text.words (Text.lower d.name))

/-- If no code of a dialect ends in another one, then it can be told what a text ends in. -/
theorem eq_of_append_code (code : Dialect → List Char)
    (hcode : ∀ d e, code d <:+ code e → code d = code e) {l m : List Char} {d e : Dialect}
    (h : l ++ code d = m ++ code e) : l = m ∧ code d = code e := by
  have hequal : code d = code e := by
    rcases List.suffix_or_suffix_of_suffix ⟨l, h⟩ ⟨m, rfl⟩ with hsuffix | hsuffix
    · exact hcode d e hsuffix
    · exact (hcode e d hsuffix).symm
  rw [hequal] at h
  exact ⟨List.append_cancel_right h, hequal⟩

theorem eq_of_append_fileExtension {l m : List Char} {d e : Dialect}
    (h : l ++ d.fileExtension.toList = m ++ e.fileExtension.toList) : l = m := by
  refine (eq_of_append_code (·.fileExtension.toList) (fun d e => ?_) h).1
  cases d <;> cases e <;> decide

theorem eq_of_append_fileWord {l m : List Char} {d e : Dialect}
    (h : l ++ '_' :: d.fileWord.toList = m ++ '_' :: e.fileWord.toList) : l = m ∧ d = e := by
  have hsuffix (d e : Dialect) :
      '_' :: d.fileWord.toList <:+ '_' :: e.fileWord.toList → d = e := by
    cases d <;> cases e <;> decide
  obtain ⟨hlm, hword⟩ := eq_of_append_code (fun d => '_' :: d.fileWord.toList)
    (fun d e h => by rw [hsuffix d e h]) h
  exact ⟨hlm, hsuffix d e ⟨[], hword⟩⟩

end Dialect

namespace Artifact

variable {p q : String} {d e : Dialect} {x y : Date}

theorem toList_filenameFor (p : String) (d : Dialect) (x : Date) :
    (filenameFor p d x).toList =
      p.toList ++ '_' :: d.fileWord.toList ++ '_' :: x.text.toList ++ d.fileExtension.toList := by
  have hname : filenameFor p d x = p ++ "_" ++ d.fileWord ++ "_" ++ x.text ++ d.fileExtension := rfl
  simp [hname]

/-- The name of a file tells what it was made of. -/
theorem eq_of_filenameFor (h : filenameFor p d x = filenameFor q e y) :
    p = q ∧ d = e ∧ x = y := by
  have hlist := congrArg String.toList h
  rw [toList_filenameFor, toList_filenameFor] at hlist
  obtain ⟨hlist, hdate⟩ := Date.eq_of_append_date (Dialect.eq_of_append_fileExtension hlist)
  obtain ⟨hstart, hdialect⟩ := Dialect.eq_of_append_fileWord hlist
  exact ⟨String.toList_inj.mp hstart, hdialect, hdate⟩

end Artifact

/-! ## Exports into one directory -/

/-- An export that is asked for. -/
structure ExportRequest where
  options : ExportOptions
  tables : List Table
  dialect : Dialect
  date : Date

namespace ExportRequest

/-- What the name of the file is made of. -/
def key (r : ExportRequest) : String × Dialect × Date :=
  (r.options.filenamePrefix, r.dialect, r.date)

/-- The artifact, if the export succeeds. -/
def artifact? (r : ExportRequest) : Option Artifact :=
  (r.options.exportOn r.tables r.dialect r.date).result.toOption

theorem filename_of_artifact? {r : ExportRequest} {a : Artifact} (h : r.artifact? = some a) :
    a.filename = Artifact.filenameFor r.options.filenamePrefix r.dialect r.date := by
  have hresult : (r.options.exportOn r.tables r.dialect r.date).result = .ok a := by
    rw [artifact?] at h
    revert h
    cases (r.options.exportOn r.tables r.dialect r.date).result <;> simp [Except.toOption]
  rw [ExportOptions.artifact_of_result _ _ _ _ hresult]
  rfl

/-- The parcels of the exports that succeed. -/
def parcels (requests : List ExportRequest) : List Parcel :=
  requests.filterMap fun r => r.artifact?.map fun a => ⟨a.content, a.filename, a.mimeType⟩

theorem filename_mem_parcels {requests : List ExportRequest} {name : String}
    (h : name ∈ (parcels requests).map (·.filename)) :
    ∃ r ∈ requests, name = Artifact.filenameFor r.options.filenamePrefix r.dialect r.date := by
  obtain ⟨p, hp, rfl⟩ := List.mem_map.mp h
  obtain ⟨r, hr, hparcel⟩ := List.mem_filterMap.mp hp
  obtain ⟨a, ha, rfl⟩ := Option.map_eq_some_iff.mp hparcel
  exact ⟨r, hr, filename_of_artifact? ha⟩

/-- Exports with different keys have files with different names. -/
theorem nodup_filenames {requests : List ExportRequest} (h : (requests.map key).Nodup) :
    ((parcels requests).map (·.filename)).Nodup := by
  induction requests with
  | nil => exact List.nodup_nil
  | cons r requests ih =>
    obtain ⟨hr, hrest⟩ := List.nodup_cons.mp h
    cases ha : r.artifact? with
    | none =>
      rw [parcels, List.filterMap_cons_none (by rw [ha]; rfl)]
      exact ih hrest
    | some a =>
      rw [parcels, List.filterMap_cons_some (by rw [ha]; rfl), List.map_cons]
      refine List.nodup_cons.mpr ⟨fun hmem => hr ?_, ih hrest⟩
      obtain ⟨q, hq, hname⟩ := filename_mem_parcels hmem
      obtain ⟨hstart, hdialect, hdate⟩ :=
        Artifact.eq_of_filenameFor ((filename_of_artifact? ha).symm.trans hname)
      refine List.mem_map.mpr ⟨q, hq, ?_⟩
      simp only [key, hstart, hdialect, hdate]

end ExportRequest

theorem keptParcels_sublist (parcels : List Parcel)
    (answers : List (Except DeliveryError Receipt)) :
    (keptParcels parcels answers).Sublist parcels := by
  induction parcels generalizing answers with
  | nil => exact .slnil
  | cons p parcels ih =>
    cases answers with
    | nil => exact List.nil_sublist _
    | cons answer answers =>
      rw [keptParcels_cons]
      cases answer with
      | error e => exact (ih answers).cons p
      | ok receipt => exact (ih answers).cons_cons p

namespace Disk

theorem overridden_of_not_mem {entries : String → Option FileContent} {parcels : List Parcel}
    {name : String} (h : name ∉ parcels.map (·.filename)) :
    overridden entries parcels name = entries name := by
  induction parcels generalizing entries with
  | nil => rfl
  | cons p parcels ih =>
    simp only [List.map_cons, List.mem_cons, not_or] at h
    rw [overridden, List.foldl_cons]
    exact (ih h.2).trans (Function.update_of_ne h.1 _ _)

/-- Of parcels with different names none is overridden. -/
theorem overridden_of_mem {entries : String → Option FileContent} {parcels : List Parcel}
    (hnames : (parcels.map (·.filename)).Nodup) {p : Parcel} (hp : p ∈ parcels) :
    overridden entries parcels p.filename = some (some p.content) := by
  induction parcels generalizing entries with
  | nil => cases hp
  | cons q parcels ih =>
    obtain ⟨hq, hrest⟩ := List.nodup_cons.mp hnames
    rw [overridden, List.foldl_cons]
    rcases List.mem_cons.mp hp with rfl | hp
    · exact (overridden_of_not_mem hq).trans (Function.update_self ..)
    · exact ih hrest hp

end Disk

/-- The name of a file tells the prefix, the dialect and the date, whatever the prefix is and
however many digits the year has. So exports that differ in one of them do not meet: each one that
is delivered has its file in the directory after all deliveries, and files that other exports left
there are as they were. -/
theorem exports_apart :
    (∀ (p q : String) (d e : Dialect) (x y : Date),
      Artifact.filenameFor p d x = Artifact.filenameFor q e y → p = q ∧ d = e ∧ x = y) ∧
    ∀ (requests : List ExportRequest) (target : Disk.Target) (disk : Disk),
      (requests.map (·.key)).Nodup →
      let base := Disk.placeOf target.path
      let parcels := ExportRequest.parcels requests
      let run := deliverAll (Disk.deliver target) parcels disk
      (∀ p receipt, (p, .ok receipt) ∈ parcels.zip run.1 →
        run.2.entries base p.filename = some (some p.content)) ∧
      ∀ start dialect date, (start, dialect, date) ∉ requests.map (·.key) →
        let name := Artifact.filenameFor start dialect date
        run.2.entries base name = disk.entries base name := by
  refine ⟨fun p q d e x y => Artifact.eq_of_filenameFor, fun requests target disk hkeys => ?_⟩
  intro base parcels run
  obtain ⟨hentries, -⟩ := Disk.entries_deliverAll target parcels disk
  have hkept : (keptParcels parcels run.1).Sublist parcels := keptParcels_sublist parcels run.1
  have hnames := hkept.map (·.filename)
  refine ⟨fun p receipt hp => ?_, fun start dialect date hkey => ?_⟩
  · rw [show run.2.entries base = _ from hentries]
    refine Disk.overridden_of_mem (hnames.nodup (ExportRequest.nodup_filenames hkeys)) ?_
    exact List.mem_flatMap.mpr ⟨_, hp, List.mem_singleton_self p⟩
  · rw [show run.2.entries base = _ from hentries]
    refine Disk.overridden_of_not_mem fun hmem => hkey ?_
    obtain ⟨r, hr, hname⟩ := ExportRequest.filename_mem_parcels (hnames.subset hmem)
    obtain ⟨hstart, hdialect, hdate⟩ := Artifact.eq_of_filenameFor hname
    exact List.mem_map.mpr ⟨r, hr, by simp only [ExportRequest.key, hstart, hdialect, hdate]⟩

/-- Exports whose prefixes and years are as similar as can be. -/
def similarRequests : List ExportRequest :=
  let request (start : String) (year : Int) : ExportRequest :=
    ⟨ExportOptions.standard.withFilenamePrefix start, [.withColumns "t" [.untyped "id"]], .sqlite,
      ⟨year, 3, 15⟩⟩
  [request "shop" 44, request "shop" (-44), request "shop_sqlite" 44, request "shop_" 10044]

theorem exports_apart_similarRequests :
    let target : Disk.Target := ⟨"/srv", "out", "out"⟩
    let parcels := ExportRequest.parcels similarRequests
    let run := deliverAll (Disk.deliver target) parcels .empty
    let name := Artifact.filenameFor "shop" .sqlite ⟨-44, 3, 15⟩
    let other := Artifact.filenameFor "shop_sqlite" .oracle ⟨44, 3, 15⟩
    (name = "shop_sqlite_-0044-03-15.sql" ∧
      ∀ p d x, Artifact.filenameFor p d x = name → p = "shop" ∧ d = .sqlite ∧ x = ⟨-44, 3, 15⟩) ∧
    (similarRequests.map (·.key)).Nodup ∧
    (∃ p receipt, (p, .ok receipt) ∈ parcels.zip run.1 ∧ p.filename = name ∧
      run.2.entries ["out"] name = some (some p.content)) ∧
    ("shop_sqlite", .oracle, ⟨44, 3, 15⟩) ∉ similarRequests.map (·.key) ∧
    run.2.entries ["out"] other = none := by
  intro target parcels run name other
  have hkeys : (similarRequests.map (·.key)).Nodup := by decide
  have hother : ("shop_sqlite", .oracle, ⟨44, 3, 15⟩) ∉ similarRequests.map (·.key) := by decide
  obtain ⟨hnames, hrun⟩ := exports_apart
  obtain ⟨hdelivered, huntouched⟩ := hrun similarRequests target .empty hkeys
  have hplace : Disk.placeOf target.path = ["out"] := by decide +kernel
  rw [hplace] at hdelivered huntouched
  obtain ⟨p, receipt, hp, hname⟩ : ∃ p receipt, (p, .ok receipt) ∈ parcels.zip run.1 ∧
      p.filename = name := by
    have hany : (parcels.zip run.1).any (fun e => e.2.toBool && e.1.filename == name) = true := by
      decide +kernel
    obtain ⟨⟨p, answer⟩, hmem, hp⟩ := List.any_eq_true.mp hany
    cases answer with
    | error e => simp [Except.toBool] at hp
    | ok receipt => exact ⟨p, receipt, hmem, by simpa [Except.toBool] using hp⟩
  refine ⟨⟨by decide, fun p d x h => hnames _ _ _ _ _ _ h⟩, hkeys, ⟨p, receipt, hp, hname, ?_⟩,
    hother, huntouched _ _ _ hother⟩
  rw [← hname]
  exact hdelivered p receipt hp

end SchemaScript
