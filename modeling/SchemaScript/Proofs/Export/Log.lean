import SchemaScript.Proofs.Export.Dropped
import SchemaScript.Proofs.Export.Outcome

/-!
# SchemaScript.Proofs.Export.Log

What an export logs (`exportOn_log`).

Whoever asks for the foreign keys of a table gets those that resolve, and the others are logged on
the way (`Scope.ask`). A relational script has two places that may ask, the bodies of the tables and
the statements after them, and the collections of a shell script have one.

* `run_ask`: what one table answers and logs.
* `run_askPlaced`: a place that does not declare foreign keys does not ask.
* `run_declare`, `run_collect`: what a script declares, and that on the way each foreign key that
  does not resolve is logged once, as exactly one of the two places asks.
* `log_generate`: this is the log of generation.
-/

namespace SchemaScript

/-- Work that appends events to a log. -/
abbrev Logging (α : Type) :=
  StateM (List LogEvent) α

namespace Scope

/-- The foreign keys of a table, one after the other. One that resolves is part of the answer, and
any other one is logged and left out. -/
def ask (s : Scope) (t : Table) : List Link → Logging (List Link)
  | [] => pure []
  | l :: rest =>
    if s.resolves l.target then do
      let kept ← ask s t rest
      pure (l :: kept)
    else do
      modify (· ++ [.dropping t l])
      ask s t rest

/-- The foreign keys that are declared for a table in one of the places of a script. -/
def askPlaced (s : Scope) (p : Profile) (place : Placement) (t : Table) :
    Logging (List Constraint) :=
  if p.foreignKeyPlacement = place then do
    let links ← s.ask t t.links
    pure (links.map fun l => .foreignKey t.name l.column.name l.target)
  else pure []

/-- The foreign keys of a relational script, table by table: those in the bodies, and then those in
statements of their own. -/
def declare (s : Scope) (p : Profile) :
    Logging (List (List Constraint) × List (List Constraint)) := do
    let inBodies ← s.tables.mapM (s.askPlaced p .tableBody)
    let inStatements ← s.tables.mapM (s.askPlaced p .alterTable)
    pure (inBodies, inStatements)

/-- The references of one collection. -/
def askReferences (s : Scope) (t : Table) : Logging (List CollectionReference) := do
  let links ← s.ask t t.links
  pure (links.map Collection.ofLink)

/-- The references of the collections of a shell script. -/
def collect (s : Scope) : Logging (List (List CollectionReference)) :=
  s.tables.mapM s.askReferences

/-- The references that are dropped, as they are logged. -/
def dropLog (s : Scope) : List LogEvent :=
  s.unresolved.map fun e => .dropping e.1 e.2

variable (s : Scope) (t : Table)

/-! ## One table -/

/-- The step: a foreign key that resolves is answered and changes no log. -/
theorem ask_resolved {l : Link} (h : s.resolves l.target = true) (rest : List Link)
    (log : List LogEvent) :
    s.ask t (l :: rest) log = (l :: (s.ask t rest log).1, (s.ask t rest log).2) := by
  rw [ask, if_pos h]
  rfl

/-- The step: a foreign key that does not resolve is logged in front of what follows. -/
theorem ask_unresolved {l : Link} (h : s.resolves l.target = false) (rest : List Link)
    (log : List LogEvent) :
    s.ask t (l :: rest) log = s.ask t rest (log ++ [.dropping t l]) := by
  rw [ask, if_neg (by simp [h])]
  rfl

theorem run_ask (links : List Link) (log : List LogEvent) :
    s.ask t links log =
      (links.filter (s.resolves ·.target),
        log ++ (links.filter (!s.resolves ·.target)).map (.dropping t)) := by
  induction links generalizing log with
  | nil =>
    rw [List.filter_nil, List.filter_nil, List.map_nil, List.append_nil]
    rfl
  | cons l rest ih =>
    cases hl : s.resolves l.target with
    | true =>
      rw [ask_resolved s t hl, ih]
      simp [hl]
    | false =>
      rw [ask_unresolved s t hl, ih]
      simp [hl]

theorem run_ask_links (log : List LogEvent) :
    s.ask t t.links log = (s.foreignKeys t, log ++ s.drops t) :=
  run_ask s t t.links log

theorem run_askPlaced (p : Profile) (place : Placement) (log : List LogEvent) :
    s.askPlaced p place t log =
      if p.foreignKeyPlacement = place then (t.foreignKeyConstraints s, log ++ s.drops t)
      else ([], log) := by
  by_cases hplace : p.foreignKeyPlacement = place
  · have hrun : s.askPlaced p place t log =
        ((s.ask t t.links log).1.map fun l => .foreignKey t.name l.column.name l.target,
          (s.ask t t.links log).2) := by
      rw [askPlaced, if_pos hplace]
      rfl
    rw [hrun, run_ask_links, if_pos hplace]
    rfl
  · rw [askPlaced, if_neg hplace, if_neg hplace]
    rfl

theorem run_askReferences (log : List LogEvent) :
    s.askReferences t log = ((Collection.ofTable s t).references, log ++ s.drops t) := by
  have hrun : s.askReferences t log =
      ((s.ask t t.links log).1.map Collection.ofLink, (s.ask t t.links log).2) := rfl
  rw [hrun, run_ask_links]
  rfl

/-! ## All tables -/

/-- Work that is done for each item of a list, where the log only gets longer. -/
theorem run_mapM {α β : Type} {f : α → Logging β} {answer : α → β} {events : α → List LogEvent}
    (h : ∀ a log, f a log = (answer a, log ++ events a)) (as : List α) (log : List LogEvent) :
    as.mapM f log = (as.map answer, log ++ as.flatMap events) := by
  induction as generalizing log with
  | nil =>
    rw [List.mapM_nil, List.map_nil, List.flatMap_nil, List.append_nil]
    rfl
  | cons a as ih =>
    have hrun : (a :: as).mapM f log =
        ((f a log).1 :: (as.mapM f (f a log).2).1, (as.mapM f (f a log).2).2) := by
      rw [List.mapM_cons]
      rfl
    rw [hrun, h, ih, List.map_cons, List.flatMap_cons, List.append_assoc]

theorem flatMap_drops : s.tables.flatMap s.drops = s.dropLog := by
  rw [dropLog, unresolved, List.map_flatMap]
  congr 1
  funext t
  rw [List.map_map]
  rfl

/-- A pass over the tables for one of the places. -/
theorem run_mapM_askPlaced (p : Profile) (place : Placement) (log : List LogEvent) :
    s.tables.mapM (s.askPlaced p place) log =
      (s.tables.map fun t =>
          if p.foreignKeyPlacement = place then t.foreignKeyConstraints s else [],
        log ++ if p.foreignKeyPlacement = place then s.dropLog else []) := by
  by_cases hplace : p.foreignKeyPlacement = place
  · have hask (t : Table) (log : List LogEvent) :
        s.askPlaced p place t log = (t.foreignKeyConstraints s, log ++ s.drops t) := by
      rw [run_askPlaced, if_pos hplace]
    rw [run_mapM hask, flatMap_drops]
    simp only [hplace, if_true]
  · have hask (t : Table) (log : List LogEvent) :
        s.askPlaced p place t log = ([], log ++ []) := by
      rw [run_askPlaced, if_neg hplace, List.append_nil]
    rw [run_mapM hask, List.flatMap_eq_nil_iff.mpr fun _ _ => rfl]
    simp only [hplace, if_false]

/-- A relational script asks each table once, in the one place that declares foreign keys. -/
theorem run_declare {p : Profile} (hp : p ∈ Profile.all) (log : List LogEvent) :
    s.declare p log =
      ((s.tables.map (p.bodyForeignKeys s), s.tables.map (p.deferredForeignKeys s)),
        log ++ s.dropLog) := by
  have hrun : s.declare p log =
      (((s.tables.mapM (s.askPlaced p .tableBody) log).1,
        (s.tables.mapM (s.askPlaced p .alterTable)
          (s.tables.mapM (s.askPlaced p .tableBody) log).2).1),
        (s.tables.mapM (s.askPlaced p .alterTable)
          (s.tables.mapM (s.askPlaced p .tableBody) log).2).2) := rfl
  rw [hrun]
  simp only [run_mapM_askPlaced]
  -- The answers are the lists that the script is made of, in whatever place the keys are declared.
  refine Prod.ext rfl ?_
  rw [foreignKeyPlacement_of_mem hp]
  by_cases hs : p.dialect = .sqlite <;> simp [hs]

theorem run_collect (log : List LogEvent) :
    s.collect log =
      (s.tables.map fun t => (Collection.ofTable s t).references, log ++ s.dropLog) := by
  rw [← flatMap_drops]
  exact run_mapM (run_askReferences s) s.tables log

theorem log_generate (d : Dialect) : (s.generate d).2 = s.dropLog := by
  unfold generate
  cases hd : d.profile? with
  | none => exact flatMap_drops s
  | some p =>
    simp only [passLog, foreignKeyPlacement_of_mem (Dialect.mem_of_profile? hd), flatMap_drops,
      beq_iff_eq]
    by_cases hs : p.dialect = .sqlite <;> simp [hs]

end Scope

/-! ## Exports -/

namespace ExportOptions

variable (o : ExportOptions) (tables : List Table) (d : Dialect) (date : Date)

/-- What an export logs, by what it comes to. -/
theorem log_exportOn :
    (o.exportOn tables d date).log =
      match (o.exportOn tables d date).result with
      | .ok a => o.diagnostics tables ++
          [.exporting (Scope.ofTables tables).tables.length tables.length d] ++
          (Scope.ofTables tables).dropLog ++ [.generated a.filename a.content.utf8ByteSize]
      | .error (.unresolvedReference _ _ _) => o.diagnostics tables
      | .error _ => [] := by
  have hgenerate := (Scope.ofTables tables).log_generate d
  by_cases htables : tables.isEmpty
  · simp only [exportOn, check, htables, if_true]
  by_cases hscope : (Scope.ofTables tables).isEmpty
  · simp only [exportOn, check, htables, hscope, Bool.false_eq_true, if_true, if_false]
  simp only [exportOn, check, htables, hscope, Bool.false_eq_true, if_false]
  cases o.strictReferences with
  | false => simp only [hgenerate]
  | true => cases (Scope.ofTables tables).unresolved <;> simp only [hgenerate]

/-- What an export logs, in every dialect. One that succeeds logs the findings about the model if it
is told to, its start, each reference that is dropped, once and in the order of the model, and what
was generated. One that fails logs nothing if there is nothing to export, and no more than the
findings if a reference does not resolve. The dropped references are logged where the script asks
for the foreign keys that it declares. -/
theorem exportOn_log (o : ExportOptions) (tables : List Table) (d : Dialect) (date : Date) :
    let s := Scope.ofTables tables
    let run := o.exportOn tables d date
    let warnings : List LogEvent :=
      if o.logDiagnostics then (Review.reportOn tables).warnings.map .finding else []
    let dropping : List LogEvent := s.unresolved.map fun e => .dropping e.1 e.2
    (∀ a, run.result = .ok a →
      run.log = warnings ++ [.exporting s.tables.length tables.length d] ++ dropping ++
        [.generated a.filename a.content.utf8ByteSize]) ∧
    (run.result = .error .emptyModel → run.log = []) ∧
    (run.result = .error .noExportableTables → run.log = []) ∧
    (∀ table column target,
      run.result = .error (.unresolvedReference table column target) → run.log = warnings) ∧
    (∀ e, run.result = .error e → e = .emptyModel ∨ e = .noExportableTables ∨
      ∃ table column target, e = .unresolvedReference table column target) ∧
    match d.profile? with
    | some p => ∀ log, s.declare p log =
        ((s.tables.map (p.bodyForeignKeys s), s.tables.map (p.deferredForeignKeys s)),
          log ++ dropping)
    | none => ∀ log, s.collect log =
        (s.tables.map fun t => (Collection.ofTable s t).references, log ++ dropping) := by
  intro s run warnings dropping
  have hlog : run.log = _ := log_exportOn o tables d date
  refine ⟨fun a h => ?_, fun h => ?_, fun h => ?_, fun table column target h => ?_, fun e h => ?_,
    ?_⟩
  · rwa [show (o.exportOn tables d date).result = .ok a from h] at hlog
  · rwa [show (o.exportOn tables d date).result = .error .emptyModel from h] at hlog
  · rwa [show (o.exportOn tables d date).result = .error .noExportableTables from h] at hlog
  · rwa [show (o.exportOn tables d date).result =
      .error (.unresolvedReference table column target) from h] at hlog
  · rcases result_cases o tables d date with
      ⟨-, -, hr⟩ | ⟨-, -, hr⟩ | ⟨-, -, -, t, l, hr⟩ | ⟨-, -, -, hr⟩ <;>
    cases hr.symm.trans h
    · exact .inl rfl
    · exact .inr (.inl rfl)
    · exact .inr (.inr ⟨_, _, _, rfl⟩)
  · cases hd : d.profile? with
    | some p => exact s.run_declare (Dialect.mem_of_profile? hd)
    | none => exact s.run_collect

theorem exportOn_log_linkedTables :
    let date : Date := ⟨2024, 5, 6⟩
    let run := standard.exportOn linkedTables .sqlite date
    let failing := strict.exportOn linkedTables .mongoDb date
    let nothing := standard.exportOn [] .oracle date
    let hollow := standard.exportOn [.withColumns "c" []] .mySql date
    (∃ a, run.result = .ok a ∧ run.log.map (·.text) =
      (Review.reportOn linkedTables).warnings ++
        ["Exporting 2 of 3 tables to SQLite",
          "Dropping unresolved reference a.c_id -> c.id",
          "Dropping unresolved reference a.d_id -> d.id",
          "Generated schema_sqlite_2024-05-06.sql (" ++
            toString a.content.utf8ByteSize ++ " bytes)"]) ∧
    (failing.result = .error (.unresolvedReference "a" "c_id" "c.id") ∧
      failing.log = (Review.reportOn linkedTables).warnings.map .finding) ∧
    (nothing.result = .error .emptyModel ∧ nothing.log = []) ∧
    (hollow.result = .error .noExportableTables ∧ hollow.log = []) := by
  intro date run failing nothing hollow
  obtain ⟨a, ha⟩ : ∃ a, run.result = .ok a := ⟨_, rfl⟩
  obtain ⟨hrun, -⟩ := exportOn_log standard linkedTables .sqlite date
  obtain ⟨-, -, -, hfailing, -⟩ := exportOn_log strict linkedTables .mongoDb date
  obtain ⟨-, hnothing, -⟩ := exportOn_log standard [] .oracle date
  obtain ⟨-, -, hhollow, -⟩ := exportOn_log standard [.withColumns "c" []] .mySql date
  refine ⟨⟨a, ha, ?_⟩, ⟨rfl, hfailing _ _ _ rfl⟩, ⟨rfl, hnothing rfl⟩, rfl, hhollow rfl⟩
  have hname : a.filename = "schema_sqlite_2024-05-06.sql" := by
    rw [artifact_of_result _ _ _ _ ha]
    decide
  have htexts (texts : List String) : (texts.map LogEvent.finding).map (·.text) = texts := by
    rw [List.map_map]
    exact List.map_id texts
  rw [show run.log = _ from hrun a ha, hname, List.append_assoc, List.append_assoc,
    List.map_append, if_pos (show standard.logDiagnostics = true from rfl), htexts]
  rfl

end ExportOptions
end SchemaScript
