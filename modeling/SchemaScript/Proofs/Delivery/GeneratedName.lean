import SchemaScript.Proofs.Delivery.Calls
import SchemaScript.Proofs.Export.Filename
import SchemaScript.Proofs.Text.Infix

/-!
# SchemaScript.Proofs.Delivery.GeneratedName

Which names of generated files are accepted. All that follows the prefix begins with an underscore,
has no path separator and just one point, that of the extension (`count_point_nameTail`). So the
prefix alone decides, whatever it ends in: a name is refused for the separators or the points in a
row that the prefix has (`checkFilename_filenameFor`), and an export that succeeds is delivered if
and only if its prefix is harmless (`delivered_iff_harmless`).
-/

namespace SchemaScript

theorem hasTwoPoints_iff {cs : List Char} : hasTwoPoints cs = true ↔ ['.', '.'] <:+: cs := by
  fun_induction hasTwoPoints cs with
  | case1 rest => simp [List.infix_cons_iff]
  | case2 c rest hpoints ih =>
    rw [ih, List.infix_cons_iff, or_iff_right]
    rintro ⟨last, hstart⟩
    obtain ⟨rfl, rfl⟩ := List.cons.inj hstart
    exact hpoints last rfl rfl
  | case3 => simp

/-- A prefix that leads nowhere else. It can be blank, and it can begin or end in a point. -/
def IsHarmless (start : String) : Prop :=
  '/' ∉ start.toList ∧ '\\' ∉ start.toList ∧ ¬ ['.', '.'] <:+: start.toList

instance (start : String) : Decidable (IsHarmless start) :=
  inferInstanceAs (Decidable (_ ∧ _ ∧ ¬ _))

/-! ## What follows the prefix -/

/-- The text of a date is made of digits and signs. -/
theorem Date.not_mem_text {c : Char} (hdigit : c.isDigit = false) (hminus : c ≠ '-')
    (hplus : c ≠ '+') (date : Date) : c ∉ date.text.toList := by
  have hpadded (width n : Nat) : c ∉ (padded width n).toList := fun h => by
    rw [isDigit_of_mem_padded h] at hdigit
    cases hdigit
  have hyear : c ∉ (yearText date.year).toList := by
    unfold yearText
    split
    · simp [hminus, hpadded]
    · split <;> simp [hplus, hpadded]
  simp [text, hyear, hminus, hpadded]

namespace Artifact

/-- What stands behind the prefix in the name of a file. -/
def nameTail (d : Dialect) (date : Date) : List Char :=
  '_' :: d.fileWord.toList ++ '_' :: date.text.toList ++ d.fileExtension.toList

variable (start : String) (d : Dialect) (date : Date)

theorem toList_filenameFor_nameTail :
    (filenameFor start d date).toList = start.toList ++ nameTail d date := by
  rw [toList_filenameFor, nameTail]
  simp

theorem separator_not_mem_nameTail : '/' ∉ nameTail d date ∧ '\\' ∉ nameTail d date := by
  have hslash : '/' ∉ d.fileWord.toList ∧ '/' ∉ d.fileExtension.toList := by
    cases d <;> decide
  have hbackslash : '\\' ∉ d.fileWord.toList ∧ '\\' ∉ d.fileExtension.toList := by
    cases d <;> decide
  have hdate : '/' ∉ date.text.toList ∧ '\\' ∉ date.text.toList :=
    ⟨date.not_mem_text rfl (by decide) (by decide), date.not_mem_text rfl (by decide) (by decide)⟩
  simp [nameTail, hslash, hbackslash, hdate]

theorem count_point_nameTail : (nameTail d date).count '.' = 1 := by
  have hword : d.fileWord.toList.count '.' = 0 := by cases d <;> decide
  have hextension : d.fileExtension.toList.count '.' = 1 := by cases d <;> decide
  have hdate : date.text.toList.count '.' = 0 :=
    List.count_eq_zero.mpr (date.not_mem_text rfl (by decide) (by decide))
  simp [nameTail, List.count_append, hword, hextension, hdate]

/-! ## Names -/

theorem mem_filenameFor {c : Char} (hc : c ∉ nameTail d date) :
    c ∈ (filenameFor start d date).toList ↔ c ∈ start.toList := by
  rw [toList_filenameFor_nameTail, List.mem_append]
  exact or_iff_left hc

/-- The underscore keeps a point at the end of the prefix from the one of the extension. -/
theorem infix_filenameFor :
    ['.', '.'] <:+: (filenameFor start d date).toList ↔ ['.', '.'] <:+: start.toList := by
  have hunderscore : ∀ c ∈ (nameTail d date).head?, c ∉ ['.', '.'] := by
    rintro c ⟨⟩
    decide
  rw [toList_filenameFor_nameTail, Text.infix_append_iff_or hunderscore]
  refine or_iff_left fun htail => ?_
  have hcount := htail.sublist.count_le '.'
  rw [count_point_nameTail] at hcount
  exact absurd hcount (by decide)

theorem allBlank_filenameFor : Text.allBlank (filenameFor start d date) = false := by
  rw [Text.allBlank, List.all_eq_false]
  refine ⟨'_', ?_, by decide⟩
  rw [toList_filenameFor_nameTail]
  exact List.mem_append_right _ List.mem_cons_self

/-- A name is refused for what its prefix has. -/
theorem checkFilename_filenameFor :
    checkFilename (filenameFor start d date) =
      if '/' ∈ start.toList ∨ '\\' ∈ start.toList then
        .error (.separator (filenameFor start d date))
      else if ['.', '.'] <:+: start.toList then .error (.parent (filenameFor start d date))
      else .ok () := by
  obtain ⟨hslash, hbackslash⟩ := separator_not_mem_nameTail d date
  have hseparator : ((filenameFor start d date).toList.any fun c => c = '/' ∨ c = '\\') = true ↔
      '/' ∈ start.toList ∨ '\\' ∈ start.toList := by
    rw [← mem_filenameFor start d date hslash, ← mem_filenameFor start d date hbackslash]
    simp [List.any_eq_true, and_or_left, exists_or]
  have hpoints := hasTwoPoints_iff.trans (infix_filenameFor start d date)
  simp only [checkFilename, allBlank_filenameFor, Bool.false_eq_true, if_false, hseparator,
    hpoints]

theorem checkFilename_of_harmless (h : IsHarmless start) :
    checkFilename (filenameFor start d date) = .ok () := by
  obtain ⟨hslash, hbackslash, hpoints⟩ := h
  rw [checkFilename_filenameFor, if_neg (by simp [hslash, hbackslash]), if_neg hpoints]

theorem checkFilename_of_not_harmless (h : ¬ IsHarmless start) :
    ∃ f ∈ [NameFault.separator (filenameFor start d date), .parent (filenameFor start d date)],
      checkFilename (filenameFor start d date) = .error f := by
  rw [checkFilename_filenameFor]
  by_cases hseparator : '/' ∈ start.toList ∨ '\\' ∈ start.toList
  · exact ⟨_, List.mem_cons_self, if_pos hseparator⟩
  · have hpoints : ['.', '.'] <:+: start.toList := by
      by_contra hnone
      exact h ⟨fun hc => hseparator (.inl hc), fun hc => hseparator (.inr hc), hnone⟩
    exact ⟨_, .tail _ List.mem_cons_self, by rw [if_neg hseparator, if_pos hpoints]⟩

end Artifact

/-! ## Deliveries -/

theorem ExportOptions.filename_of_exportTo {o : ExportOptions} {tables : List Table}
    {selector : String} {date : Date} {a : Artifact}
    (h : (o.exportTo tables selector date).result = .ok a) :
    ∃ d, Dialect.parse? selector = some d ∧
      a.filename = Artifact.filenameFor o.filenamePrefix d date := by
  cases hd : Dialect.parse? selector with
  | none =>
    rw [exportTo_unknown hd] at h
    cases h
  | some d =>
    rw [exportTo_known hd] at h
    rw [artifact_of_result _ _ _ _ h]
    exact ⟨d, rfl, rfl⟩

/-- The name of a generated file is accepted exactly if its prefix has no separator and no two
points in a row, whatever else the prefix is, and whatever the dialect and the date are. So an
export that succeeds is delivered onto a shelf for exactly these prefixes. For all others the name
is said to be invalid, and the shelf stays as it was. -/
theorem delivered_iff_harmless :
    (∀ (start : String) (d : Dialect) (date : Date),
      checkFilename (Artifact.filenameFor start d date) = .ok () ↔ IsHarmless start) ∧
    ∀ (o : ExportOptions) (tables : List Table) (selector : String) (date : Date) (s : Shelf)
      (a : Artifact), (o.exportTo tables selector date).result = .ok a →
      let run := o.exportAndDeliver tables selector date Shelf.deliver s
      (IsHarmless o.filenamePrefix →
        run.1.result = .ok (a, ⟨a.filename, a.mimeType, "memory://" ++ a.filename,
          a.content.utf8ByteSize⟩) ∧
        run.2 = ⟨s.parcels ++ [⟨a.content, a.filename, a.mimeType⟩]⟩) ∧
      (¬ IsHarmless o.filenamePrefix →
        ∃ f ∈ [NameFault.separator a.filename, .parent a.filename],
          run.1.result = .error (.delivery (.invalidFilename f.text)) ∧ run.2 = s) := by
  refine ⟨fun start d date => ⟨fun h => ?_, Artifact.checkFilename_of_harmless start d date⟩, ?_⟩
  · by_contra hharm
    obtain ⟨f, -, hf⟩ := Artifact.checkFilename_of_not_harmless start d date hharm
    rw [h] at hf
    cases hf
  · intro o tables selector date s a h run
    obtain ⟨d, -, hname⟩ := ExportOptions.filename_of_exportTo h
    constructor
    · intro hharmless
      have haccepted : checkFilename a.filename = .ok () := by
        rw [hname]
        exact Artifact.checkFilename_of_harmless _ d date hharmless
      have hrun : run = _ := ExportOptions.exportAndDeliver_accepted h haccepted s
      rw [hrun]
      exact ⟨rfl, rfl⟩
    · intro hharm
      obtain ⟨f, hf, hrefused⟩ :=
        Artifact.checkFilename_of_not_harmless o.filenamePrefix d date hharm
      rw [← hname] at hf hrefused
      have hrun : run = _ := ExportOptions.exportAndDeliver_refused h hrefused s
      rw [hrun]
      exact ⟨f, hf, rfl, rfl⟩

/-- A prefix that ends in one point is harmless, though the extension has another one. -/
theorem delivered_iff_harmless_pointedPrefixes :
    let tables : List Table := [.withColumns "user" [.untyped "id"]]
    let date : Date := ⟨-12, 5, 6⟩
    let o : ExportOptions := { ExportOptions.standard with filenamePrefix := " v1." }
    let o' : ExportOptions := { ExportOptions.standard with filenamePrefix := "v1.." }
    let s : Shelf := ⟨[⟨"-- notes", "notes.sql", "application/sql"⟩]⟩
    let run := o.exportAndDeliver tables "pg" date Shelf.deliver s
    let run' := o'.exportAndDeliver tables "pg" date Shelf.deliver s
    IsHarmless o.filenamePrefix ∧ ¬ IsHarmless o'.filenamePrefix ∧
    ∃ a a', (o.exportTo tables "pg" date).result = .ok a ∧
      (o'.exportTo tables "pg" date).result = .ok a' ∧
      (run.1.result = .ok (a, ⟨a.filename, a.mimeType, "memory://" ++ a.filename,
          a.content.utf8ByteSize⟩) ∧
        run.2 = ⟨s.parcels ++ [⟨a.content, a.filename, a.mimeType⟩]⟩) ∧
      ∃ f ∈ [NameFault.separator a'.filename, .parent a'.filename],
        run'.1.result = .error (.delivery (.invalidFilename f.text)) ∧ run'.2 = s := by
  intro tables date o o' s
  have hharmless : IsHarmless o.filenamePrefix := by decide
  have hharm : ¬ IsHarmless o'.filenamePrefix := by decide
  have hknown : Dialect.parse? "pg" = some .postgreSql := by decide
  have hok (o : ExportOptions) (ho : o.strictReferences = false) :
      ∃ a, (o.exportTo tables "pg" date).result = .ok a := by
    rw [ExportOptions.exportTo_known hknown]
    exact (ExportOptions.result_isOk o tables .postgreSql date).mpr ⟨by decide, by simp [ho]⟩
  obtain ⟨a, ha⟩ := hok o rfl
  obtain ⟨a', ha'⟩ := hok o' rfl
  obtain ⟨-, hdelivered⟩ := delivered_iff_harmless
  obtain ⟨haccepted, -⟩ := hdelivered o tables "pg" date s a ha
  obtain ⟨-, hrefused⟩ := hdelivered o' tables "pg" date s a' ha'
  exact ⟨hharmless, hharm, a, a', ha, ha', haccepted hharmless, hrefused hharm⟩

end SchemaScript
