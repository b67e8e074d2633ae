import SchemaScript.Proofs.Collection.Attempt
import SchemaScript.Proofs.Export.Unresolved

/-!
# SchemaScript.Proofs.Export.Outcome

How exports end. There are four ways (`result_cases`), which the model and the strictness of the
options tell apart; the rest of the options and the date are for the name of the file only
(`exportOn_outcome`). That generation fails is not one of them, even if each datum is asked for its
JSON text (`attemptOn_eq`).
-/

namespace SchemaScript

/-- A table has a foreign key whose target is not the name of a table with columns. -/
def HasLooseKey (tables : List Table) : Prop :=
  ∃ t ∈ tables, ∃ c ∈ t.columns, ∃ r,
    c.isForeignKey = true ∧ c.reference = some r ∧ ¬ r.PointsInto tables

namespace Scope

theorem tables_ofTables_eq_nil {tables : List Table} :
    (ofTables tables).tables = [] ↔ ∀ t ∈ tables, t.columns = [] := by
  simp [ofTables, Table.isExportable]

theorem tables_ofTables_ne_nil {tables : List Table} :
    (ofTables tables).tables ≠ [] ↔ ∃ t ∈ tables, t.columns ≠ [] := by
  rw [ne_eq, tables_ofTables_eq_nil, Classical.not_forall]
  simp only [Classical.not_imp, ne_eq]

theorem mem_unresolved {tables : List Table} {t : Table} {l : Link} :
    (t, l) ∈ (ofTables tables).unresolved ↔
      t ∈ (ofTables tables).tables ∧ l ∈ t.links ∧ ¬ l.target.PointsInto tables := by
  simp only [unresolved, dropped, List.mem_flatMap, List.mem_map, List.mem_filter, Prod.mk.injEq,
    Bool.not_eq_true', ← resolves_ofTables, Bool.not_eq_true]
  constructor
  · rintro ⟨u, hu, m, hm, rfl, rfl⟩
    exact ⟨hu, hm⟩
  · rintro ⟨ht, hl⟩
    exact ⟨t, ht, l, hl, rfl, rfl⟩

theorem unresolved_ne_nil {tables : List Table} :
    (ofTables tables).unresolved ≠ [] ↔ HasLooseKey tables := by
  constructor
  · intro h
    obtain ⟨⟨t, l⟩, hmem⟩ := List.exists_mem_of_ne_nil _ h
    obtain ⟨ht, hl, hloose⟩ := mem_unresolved.mp hmem
    obtain ⟨hcolumn, hflag, hreference⟩ := Table.mem_links.mp hl
    exact ⟨t, (mem_tables_ofTables.mp ht).1, l.column, hcolumn, l.target, hflag, hreference, hloose⟩
  · rintro ⟨t, ht, c, hc, r, hflag, hr, hloose⟩
    have hcolumns : t.columns ≠ [] := List.ne_nil_of_mem hc
    exact List.ne_nil_of_mem (mem_unresolved (t := t) (l := ⟨c, r⟩) |>.mpr
      ⟨mem_tables_ofTables.mpr ⟨ht, hcolumns⟩, Table.mem_links.mpr ⟨hc, hflag, hr⟩, hloose⟩)

end Scope

namespace ExportOptions

variable (o : ExportOptions) (tables : List Table) (d : Dialect) (date : Date)

/-- The export, with generation that can fail. -/
def attemptOn : Except ExportError Artifact := do
  let scope ← (o.check tables).result
  let content ← (scope.attempt d).mapError (.generationFailed d)
  pure ⟨content, Artifact.filenameFor o.filenamePrefix d date,
    Artifact.mimeTypeFor d.fileExtension, d⟩

theorem attemptOn_eq : o.attemptOn tables d date = (o.exportOn tables d date).result := by
  unfold attemptOn exportOn
  obtain ⟨result, log⟩ := o.check tables
  cases result with
  | error e => rfl
  | ok scope =>
    simp only [Scope.attempt_eq, Scope.generate]
    cases d.profile? <;> rfl

/-- What an export comes to. -/
theorem result_eq :
    (o.exportOn tables d date).result =
      if tables.isEmpty then .error .emptyModel
      else if (Scope.ofTables tables).isEmpty then .error .noExportableTables
      else match o.strictReferences, (Scope.ofTables tables).unresolved with
        | true, (t, l) :: _ => .error (unresolvedError t l)
        | _, _ => .ok (o.artifact (.ofTables tables) d date) := by
  by_cases htables : tables.isEmpty
  · simp only [exportOn, check, htables, if_true]
  by_cases hscope : (Scope.ofTables tables).isEmpty
  · simp only [exportOn, check, htables, hscope, Bool.false_eq_true, if_true, if_false]
  · rw [if_neg htables, if_neg hscope]
    exact result_exportOn (by simpa [Scope.isEmpty] using hscope) o d date

/-- The ways an export ends. -/
theorem result_cases :
    let result := (o.exportOn tables d date).result
    let s := Scope.ofTables tables
    (tables = [] ∧ s.tables = [] ∧ result = .error .emptyModel) ∨
    (tables ≠ [] ∧ s.tables = [] ∧ result = .error .noExportableTables) ∨
    (tables ≠ [] ∧ s.tables ≠ [] ∧ (o.strictReferences = true ∧ s.unresolved ≠ []) ∧
      ∃ t l, result = .error (unresolvedError t l)) ∨
    (tables ≠ [] ∧ s.tables ≠ [] ∧ ¬ (o.strictReferences = true ∧ s.unresolved ≠ []) ∧
      result = .ok (o.artifact s d date)) := by
  intro result s
  have hresult : result = _ := result_eq o tables d date
  by_cases hgiven : tables = []
  · subst hgiven
    exact .inl ⟨rfl, rfl, hresult⟩
  rw [if_neg (by simpa using hgiven)] at hresult
  by_cases hscope : s.tables = []
  · rw [if_pos (by simpa [Scope.isEmpty] using hscope)] at hresult
    exact .inr (.inl ⟨hgiven, hscope, hresult⟩)
  rw [if_neg (by simpa [Scope.isEmpty] using hscope)] at hresult
  cases hstrict : o.strictReferences with
  | false =>
    rw [hstrict] at hresult
    exact .inr (.inr (.inr ⟨hgiven, hscope, by simp, hresult⟩))
  | true =>
    cases hloose : (Scope.ofTables tables).unresolved with
    | nil =>
      rw [hstrict, hloose] at hresult
      exact .inr (.inr (.inr ⟨hgiven, hscope, fun h => h.2 rfl, hresult⟩))
    | cons e rest =>
      rw [hstrict, hloose] at hresult
      exact .inr (.inr (.inl ⟨hgiven, hscope, ⟨rfl, List.cons_ne_nil e rest⟩, e.1, e.2, hresult⟩))

theorem result_eq_emptyModel :
    (o.exportOn tables d date).result = .error .emptyModel ↔ tables = [] := by
  rcases result_cases o tables d date with
    ⟨ht, -, h⟩ | ⟨ht, -, h⟩ | ⟨ht, -, -, t, l, h⟩ | ⟨ht, -, -, h⟩ <;>
  rw [h] <;> simp [ht, unresolvedError]

theorem result_eq_noExportableTables :
    (o.exportOn tables d date).result = .error .noExportableTables ↔
      tables ≠ [] ∧ ∀ t ∈ tables, t.columns = [] := by
  rw [← Scope.tables_ofTables_eq_nil]
  rcases result_cases o tables d date with
    ⟨ht, -, h⟩ | ⟨ht, hs, h⟩ | ⟨-, hs, -, t, l, h⟩ | ⟨-, hs, -, h⟩
  · rw [h]
    simp [ht]
  · exact iff_of_true h ⟨ht, hs⟩
  · simp [h, hs, unresolvedError]
  · simp [h, hs]

theorem result_eq_unresolvedReference :
    (∃ table column target, (o.exportOn tables d date).result =
        .error (.unresolvedReference table column target)) ↔
      (∃ t ∈ tables, t.columns ≠ []) ∧ o.strictReferences = true ∧ HasLooseKey tables := by
  rw [← Scope.tables_ofTables_ne_nil, ← Scope.unresolved_ne_nil]
  rcases result_cases o tables d date with
    ⟨-, hs, h⟩ | ⟨-, hs, h⟩ | ⟨-, hs, hloose, t, l, h⟩ | ⟨-, -, hnone, h⟩
  · simp [h, hs]
  · simp [h, hs]
  · exact iff_of_true ⟨_, _, _, h⟩ ⟨hs, hloose⟩
  · refine iff_of_false ?_ fun hloose => hnone hloose.2
    simp [h]

theorem result_isOk :
    (∃ a, (o.exportOn tables d date).result = .ok a) ↔
      (∃ t ∈ tables, t.columns ≠ []) ∧ ¬ (o.strictReferences = true ∧ HasLooseKey tables) := by
  rw [← Scope.tables_ofTables_ne_nil, ← Scope.unresolved_ne_nil]
  rcases result_cases o tables d date with
    ⟨-, hs, h⟩ | ⟨-, hs, h⟩ | ⟨-, -, hloose, t, l, h⟩ | ⟨-, hs, hnone, h⟩
  · simp [h, hs]
  · simp [h, hs]
  · refine iff_of_false ?_ fun hnone => hnone.2 hloose
    simp [h]
  · exact iff_of_true ⟨_, h⟩ ⟨hs, hnone⟩

theorem artifact_of_result {a : Artifact} (h : (o.exportOn tables d date).result = .ok a) :
    a = o.artifact (.ofTables tables) d date := by
  rcases result_cases o tables d date with
    ⟨-, -, hr⟩ | ⟨-, -, hr⟩ | ⟨-, -, -, t, l, hr⟩ | ⟨-, -, -, hr⟩ <;>
  rw [h] at hr <;> cases hr
  rfl

section Selected

variable {o : ExportOptions} {tables : List Table} {d : Dialect} {date : Date} {selector : String}

theorem error_of_exportOn {e : ExportError} (h : (o.exportOn tables d date).result = .error e) :
    e = .emptyModel ∨ e = .noExportableTables ∨
      ∃ table column target, e = .unresolvedReference table column target := by
  rcases result_cases o tables d date with
    ⟨-, -, hr⟩ | ⟨-, -, hr⟩ | ⟨-, -, -, t, l, hr⟩ | ⟨-, -, -, hr⟩ <;>
  cases h.symm.trans hr
  · exact .inl rfl
  · exact .inr (.inl rfl)
  · exact .inr (.inr ⟨_, _, _, rfl⟩)

theorem exportTo_unknown (h : Dialect.parse? selector = none) :
    o.exportTo tables selector date = ⟨.error (.unsupportedDialect selector), []⟩ := by
  rw [exportTo, h]

theorem exportTo_known (h : Dialect.parse? selector = some d) :
    o.exportTo tables selector date = o.exportOn tables d date := by
  rw [exportTo, h]

end Selected

/-- When an export fails, and with what. Generation itself never fails, and the options and the date
reach nothing but the name of the file. -/
theorem exportOn_outcome (o : ExportOptions) (tables : List Table) (d : Dialect) (date : Date) :
    let result := (o.exportOn tables d date).result
    (result = .error .emptyModel ↔ tables = []) ∧
    (result = .error .noExportableTables ↔ tables ≠ [] ∧ ∀ t ∈ tables, t.columns = []) ∧
    ((∃ table column target, result = .error (.unresolvedReference table column target)) ↔
      (∃ t ∈ tables, t.columns ≠ []) ∧ o.strictReferences = true ∧ HasLooseKey tables) ∧
    ((∃ a, result = .ok a) ↔
      (∃ t ∈ tables, t.columns ≠ []) ∧ ¬ (o.strictReferences = true ∧ HasLooseKey tables)) ∧
    o.attemptOn tables d date = result ∧
    (∀ (d' : Dialect) (reason : String), result ≠ .error (.generationFailed d' reason)) ∧
    ∀ (o' : ExportOptions) (date' : Date) (a a' : Artifact),
      result = .ok a → (o'.exportOn tables d date').result = .ok a' →
      a.content = a'.content ∧ a.mimeType = a'.mimeType ∧ a.dialect = a'.dialect := by
  intro result
  refine ⟨result_eq_emptyModel .., result_eq_noExportableTables ..,
    result_eq_unresolvedReference .., result_isOk .., attemptOn_eq .., fun d' reason => ?_,
    fun o' date' a a' h h' => ?_⟩
  · rcases result_cases o tables d date with
      ⟨-, -, hr⟩ | ⟨-, -, hr⟩ | ⟨-, -, -, t, l, hr⟩ | ⟨-, -, -, hr⟩ <;>
    simp [result, hr, unresolvedError]
  · rw [artifact_of_result _ _ _ _ h, artifact_of_result _ _ _ _ h']
    exact ⟨rfl, rfl, rfl⟩

theorem exportOn_outcome_linkedTables :
    let o := ExportOptions.standard
    let o' := o.withFilenamePrefix "shop"
    let result := (o.exportOn linkedTables .mongoDb ⟨2024, 5, 6⟩).result
    let result' := (o'.exportOn linkedTables .mongoDb ⟨2024, 12, 31⟩).result
    let failing := (ExportOptions.strict.exportOn linkedTables .mongoDb ⟨2024, 5, 6⟩).result
    (∃ a a', result = .ok a ∧ result' = .ok a' ∧
      a.content = a'.content ∧ a.mimeType = a'.mimeType ∧ a.dialect = a'.dialect) ∧
    ∃ table column target, failing = .error (.unresolvedReference table column target) := by
  intro o o' result result' failing
  have hexported : ∃ t ∈ linkedTables, t.columns ≠ [] := by decide
  have hloose : HasLooseKey linkedTables :=
    ⟨_, List.mem_cons_self, _, .tail _ (.tail _ List.mem_cons_self), _, rfl, rfl, by decide⟩
  obtain ⟨-, -, -, hok, -, -, hequal⟩ := exportOn_outcome o linkedTables .mongoDb ⟨2024, 5, 6⟩
  obtain ⟨-, -, -, hok', -⟩ := exportOn_outcome o' linkedTables .mongoDb ⟨2024, 12, 31⟩
  obtain ⟨-, -, hstrict, -⟩ := exportOn_outcome .strict linkedTables .mongoDb ⟨2024, 5, 6⟩
  obtain ⟨a, ha⟩ := hok.mpr ⟨hexported, by simp [o, standard]⟩
  obtain ⟨a', ha'⟩ := hok'.mpr ⟨hexported, by simp [o', o, standard, withFilenamePrefix]⟩
  exact ⟨⟨a, a', ha, ha', hequal o' _ a a' ha ha'⟩, hstrict.mpr ⟨hexported, rfl, hloose⟩⟩

end ExportOptions
end SchemaScript
