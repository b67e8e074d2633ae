import SchemaScript.CommandLine.Run
import SchemaScript.Proofs.Delivery.Calls
import SchemaScript.Proofs.Delivery.Replace

/-!
# SchemaScript.Proofs.CommandLine.Export

Runs that export a model and print the script or write it into a directory. Both pass the same
stages in the same order: options, dialect, model, export. What they can fail with there is
`Job.Fails`, and what they end up with otherwise is `Job.Produces`. Only then the two part: one
prints the script, and for the other it is delivered (`run_export`).
-/

namespace SchemaScript

/-- The name of a script ends with an extension, so it is more than a point. -/
theorem Artifact.filenameFor_ne_point (start : String) (d : Dialect) (date : Date) :
    filenameFor start d date ≠ "." := by
  intro hpoint
  have hlength := congrArg String.length hpoint
  rw [filenameFor, String.length_append] at hlength
  have hextension : 3 ≤ d.fileExtension.length := by cases d <;> decide
  have hone : ".".length = 1 := rfl
  omega

namespace CommandLine

/-- What a run leaves on the standard output. -/
def Ending.output : Ending → String
  | .printed text => text
  | _ => ""

theorem Failure.exitCode_cases (f : Failure) :
    (f.exitCode = 1 ↔ (∃ e, f = .export (.delivery e)) ∨
      ∃ d reason, f = .export (.generationFailed d reason)) ∧
    (f.exitCode = 1 ∨ f.exitCode = 2) := by
  cases f with
  | «export» e => cases e <;> simp [exitCode]
  | _ => simp [exitCode]

/-- A run that fails prints nothing and leaves all files as they were. -/
structure FailsWith (f : Failure) (d : Disk) (out : Outcome × Disk) : Prop where
  ending : out.1.ending = .failed f
  output : out.1.ending.output = ""
  files : ∀ q, out.2.file? q = d.file? q
  exitCode : out.1.ending.exitCode = 1 ∨ out.1.ending.exitCode = 2
  exitCode_one : out.1.ending.exitCode = 1 ↔ (∃ e, f = .export (.delivery e)) ∨
    ∃ d reason, f = .export (.generationFailed d reason)
  supported : ∀ selector, f ≠ .export (.unsupportedDialect selector)

theorem failsWith_of_ending {f : Failure} {d : Disk} {out : Outcome × Disk}
    (hending : out.1.ending = .failed f)
    (hfiles : ∀ q, out.2.file? q = d.file? q)
    (hsupported : ∀ selector, f ≠ .export (.unsupportedDialect selector)) : FailsWith f d out := by
  refine ⟨hending, ?_, hfiles, ?_, ?_, hsupported⟩ <;> rw [hending]
  · rfl
  · exact f.exitCode_cases.2
  · exact f.exitCode_cases.1

/-- What a command line asks for, where the script goes apart. -/
structure Job where
  model : String
  selector : String
  config : Option String
  strict : Bool
deriving DecidableEq, Repr

structure Arguments.Asks (a : Arguments) (j : Job) : Prop where
  lists : a.has .listDialects = false
  reviews : a.has .validateOnly = false
  model : a.get? .model = some j.model
  selector : a.get? .dialect = some j.selector
  config : a.get? .config = j.config
  strict : a.has .strictReferences = j.strict

namespace Job

/-- Command lines that have the script printed. -/
def PrintedBy (j : Job) (arguments : List String) : Prop :=
  ∃ a, read arguments = .ok (.run a) ∧ a.Asks j ∧ a.has .stdout = true

/-- Command lines that have the script written into a directory. -/
def WrittenBy (j : Job) (arguments : List String) (directory : String) : Prop :=
  ∃ a, read arguments = .ok (.run a) ∧ a.Asks j ∧ a.has .stdout = false ∧
    (a.get? .outputDir).getD "." = directory

/-- Options with the flag of the command line. -/
def asked (j : Job) (o : ExportOptions) : ExportOptions :=
  if j.strict then o.withStrictReferences true else o

variable (j : Job) (d : Disk) (input : FileContent) (today : Date)

inductive HasOptions : ExportOptions → Prop where
  | standard : j.config = none → HasOptions (j.asked .standard)
  | document {path text : String} {o : ExportOptions} :
      j.config = some path → d.readText path = .ok text → ExportOptions.ofToml? text = some o →
      HasOptions (j.asked o)

/-- The text of the model comes from the standard input or from a file. -/
inductive HasText : String → Prop where
  | input {text : String} : j.model = "-" → input = some text → HasText text
  | file {text : String} : j.model ≠ "-" → d.readText j.model = .ok text → HasText text

inductive Produces : Artifact → Prop where
  | all {o : ExportOptions} {dialect : Dialect} {text : String} {model : Model} {a : Artifact} :
      j.HasOptions d o → Dialect.parse? j.selector = some dialect →
      j.HasText d input text → Model.ofFile j.model text = .ok model →
      (o.exportOn model.tables dialect today).result = .ok a → Produces a

/-- What a job fails with before there is an artifact. A stage is reached if those before it were
passed, so no two of these happen together. -/
inductive Fails : Failure → Prop where
  | noConfig {path : String} {fault : FileFault} :
      j.config = some path → d.readText path = .error fault →
      Fails (.unreadable path fault.text)
  | badConfig {path text : String} :
      j.config = some path → d.readText path = .ok text → ExportOptions.ofToml? text = none →
      Fails (.config path "not a document of options")
  | unknownSelector {o : ExportOptions} :
      j.HasOptions d o → Dialect.parse? j.selector = none → Fails (unknownDialect j.selector)
  | noInput {o : ExportOptions} {dialect : Dialect} :
      j.HasOptions d o → Dialect.parse? j.selector = some dialect →
      j.model = "-" → input = none →
      Fails (.invalidArgument ("Failed to read stdin: " ++ FileFault.notText.text))
  | noModel {o : ExportOptions} {dialect : Dialect} {fault : FileFault} :
      j.HasOptions d o → Dialect.parse? j.selector = some dialect →
      j.model ≠ "-" → d.readText j.model = .error fault →
      Fails (.unreadable j.model fault.text)
  | badModel {o : ExportOptions} {dialect : Dialect} {text : String} {fault : DocumentFault} :
      j.HasOptions d o → Dialect.parse? j.selector = some dialect → j.HasText d input text →
      Model.ofFile j.model text = .error fault → Fails (.model (fault.message text))
  | refused {o : ExportOptions} {dialect : Dialect} {text : String} {model : Model}
      {e : ExportError} :
      j.HasOptions d o → Dialect.parse? j.selector = some dialect → j.HasText d input text →
      Model.ofFile j.model text = .ok model →
      (o.exportOn model.tables dialect today).result = .error e → Fails (.export e)

variable {j : Job} {d : Disk} {input : FileContent} {today : Date}

theorem HasOptions.unique {o o' : ExportOptions} (h : j.HasOptions d o) (h' : j.HasOptions d o') :
    o = o' := by
  cases h <;> cases h' <;> simp_all

theorem HasText.unique {text text' : String} (h : j.HasText d input text)
    (h' : j.HasText d input text') : text = text' := by
  cases h <;> cases h' <;> simp_all

theorem Produces.unique {a a' : Artifact} (h : j.Produces d input today a)
    (h' : j.Produces d input today a') : a = a' := by
  obtain ⟨ho, hd, ht, hm, ha⟩ := h
  obtain ⟨ho', hd', ht', hm', ha'⟩ := h'
  cases ho.unique ho'
  cases hd.symm.trans hd'
  cases ht.unique ht'
  cases hm.symm.trans hm'
  exact Except.ok.inj (ha.symm.trans ha')

theorem Produces.not_fails {a : Artifact} {f : Failure} (h : j.Produces d input today a) :
    ¬ j.Fails d input today f := by
  obtain ⟨ho, hd, ht, hm, ha⟩ := h
  intro hf
  cases hf with
  | noConfig hc hr => cases ho <;> simp_all
  | badConfig hc hr hp => cases ho <;> simp_all
  | unknownSelector _ hd' => cases hd.symm.trans hd'
  | noInput _ _ hj hi => cases ht <;> simp_all
  | noModel _ _ hj hr => cases ht <;> simp_all
  | badModel _ _ ht' hm' =>
    cases ht.unique ht'
    cases hm.symm.trans hm'
  | refused ho' hd' ht' hm' ha' =>
    cases ho.unique ho'
    cases hd.symm.trans hd'
    cases ht.unique ht'
    cases hm.symm.trans hm'
    cases ha.symm.trans ha'

theorem Fails.ne_unsupported {f : Failure} (h : j.Fails d input today f) (selector : String) :
    f ≠ .export (.unsupportedDialect selector) := by
  cases h with
  | refused _ _ _ _ he =>
    obtain rfl | rfl | ⟨table, column, target, rfl⟩ := ExportOptions.error_of_exportOn he <;> simp
  | unknownSelector => simp [unknownDialect]
  | _ => simp

theorem Fails.failsWith {f : Failure} {out : Outcome × Disk} (h : j.Fails d input today f)
    (hending : out.1.ending = .failed f) (hdisk : out.2 = d) : FailsWith f d out :=
  failsWith_of_ending hending (fun _ => by rw [hdisk]) h.ne_unsupported

/-- Which failure is told of a selector that denotes no dialect. -/
theorem Fails.of_unknown {f : Failure} (h : j.Fails d input today f)
    (hselector : Dialect.parse? j.selector = none) :
    ((∃ o, j.HasOptions d o) → f = unknownDialect j.selector) ∧
    ((¬ ∃ o, j.HasOptions d o) → ∃ path reason, j.config = some path ∧
      (f = .unreadable path reason ∨ f = .config path reason)) := by
  cases h with
  | noConfig hc hr =>
    refine ⟨fun ⟨o, ho⟩ => ?_, fun _ => ⟨_, _, hc, .inl rfl⟩⟩
    cases ho <;> simp_all
  | badConfig hc hr hp =>
    refine ⟨fun ⟨o, ho⟩ => ?_, fun _ => ⟨_, _, hc, .inr rfl⟩⟩
    cases ho <;> simp_all
  | unknownSelector ho => exact ⟨fun _ => rfl, fun hnone => absurd ⟨_, ho⟩ hnone⟩
  | noInput _ hd | noModel _ hd | badModel _ hd | refused _ hd => cases hselector.symm.trans hd

theorem Produces.known {a : Artifact} (h : j.Produces d input today a) :
    Dialect.parse? j.selector ≠ none := by
  obtain ⟨_, hd, -⟩ := h
  simp [hd]

/-! ## Stages -/

section Stages

variable (j d input today) (start : String)

theorem loadOptions_onDisk :
    (∃ o, j.HasOptions d (j.asked o) ∧
      loadOptions (Host.onDisk start input today) j.config d = (.ok o, d)) ∨
    (∃ f, j.Fails d input today f ∧
      loadOptions (Host.onDisk start input today) j.config d = (.error f, d)) := by
  cases hc : j.config with
  | none => exact .inl ⟨_, .standard hc, rfl⟩
  | some path =>
    cases hr : d.readText path with
    | error fault =>
      refine .inr ⟨_, .noConfig hc hr, ?_⟩
      simp only [loadOptions, Host.onDisk, bind, StateT.bind, hr]
      rfl
    | ok text =>
      cases ho : ExportOptions.ofToml? text with
      | none =>
        refine .inr ⟨_, .badConfig hc hr ho, ?_⟩
        simp only [loadOptions, Host.onDisk, bind, StateT.bind, hr, ho]
        rfl
      | some o =>
        refine .inl ⟨o, .document hc hr ho, ?_⟩
        simp only [loadOptions, Host.onDisk, bind, StateT.bind, hr, ho]
        rfl

theorem loadModel_onDisk {o : ExportOptions} {dialect : Dialect} (ho : j.HasOptions d o)
    (hd : Dialect.parse? j.selector = some dialect) :
    (∃ text model, j.HasText d input text ∧ Model.ofFile j.model text = .ok model ∧
      loadModel (Host.onDisk start input today) j.model d = (.ok model, d)) ∨
    (∃ f, j.Fails d input today f ∧
      loadModel (Host.onDisk start input today) j.model d = (.error f, d)) := by
  have hparse {text : String} (ht : j.HasText d input text)
      (hload : loadModel (Host.onDisk start input today) j.model d =
        (parseModel j.model text, d)) :
      (∃ text model, j.HasText d input text ∧ Model.ofFile j.model text = .ok model ∧
        loadModel (Host.onDisk start input today) j.model d = (.ok model, d)) ∨
      (∃ f, j.Fails d input today f ∧
        loadModel (Host.onDisk start input today) j.model d = (.error f, d)) := by
    cases hm : Model.ofFile j.model text with
    | error fault =>
      rw [parseModel, hm] at hload
      exact .inr ⟨_, .badModel ho hd ht hm, hload⟩
    | ok model =>
      rw [parseModel, hm] at hload
      exact .inl ⟨text, model, ht, hm, hload⟩
  by_cases hj : j.model = "-"
  · cases hi : input with
    | none =>
      subst hi
      refine .inr ⟨_, .noInput ho hd hj rfl, ?_⟩
      simp only [loadModel, hj, if_true, Host.onDisk, bind, StateT.bind]
      rfl
    | some text =>
      subst hi
      refine hparse (.input hj rfl) ?_
      simp only [loadModel, hj, if_true, Host.onDisk, bind, StateT.bind]
      rfl
  · cases hr : d.readText j.model with
    | error fault =>
      refine .inr ⟨_, .noModel ho hd hj hr, ?_⟩
      simp only [loadModel, hj, if_false, Host.onDisk, bind, StateT.bind, hr]
      rfl
    | ok text =>
      refine hparse (.file hj hr) ?_
      simp only [loadModel, hj, if_false, Host.onDisk, bind, StateT.bind, hr]
      rfl

/-- An export passes the stages in their order, and the disk stays as it is meanwhile. -/
theorem runExport_onDisk {a : Arguments} (ha : a.Asks j) :
    let host := Host.onDisk start input today
    (∃ f, j.Fails d input today f ∧
      runExport host a j.model j.selector d = (fail f, d)) ∨
    ∃ o dialect text model, j.HasOptions d o ∧ Dialect.parse? j.selector = some dialect ∧
      j.HasText d input text ∧ Model.ofFile j.model text = .ok model ∧
      runExport host a j.model j.selector d =
        if a.has .stdout then (printScript host o model j.selector, d)
        else writeScript host o model j.selector ((a.get? .outputDir).getD ".") d := by
  intro host
  rcases j.loadOptions_onDisk d input today start with ⟨o, ho, hload⟩ | ⟨f, hf, hload⟩
  · cases hd : Dialect.parse? j.selector with
    | none =>
      refine .inl ⟨_, .unknownSelector ho hd, ?_⟩
      simp only [runExport, ha.config, bind, StateT.bind, host, hload, hd]
      rfl
    | some dialect =>
      rcases j.loadModel_onDisk d input today start ho hd with
        ⟨text, model, ht, hm, hmodel⟩ | ⟨f, hf, hmodel⟩
      · refine .inr ⟨_, dialect, text, model, ho, rfl, ht, hm, ?_⟩
        simp only [runExport, ha.config, ha.strict, bind, StateT.bind, host, hload, hd,
          Option.isNone_some, Bool.false_eq_true, if_false, hmodel]
        split <;> rfl
      · refine .inl ⟨f, hf, ?_⟩
        simp only [runExport, ha.config, bind, StateT.bind, host, hload, hd, Option.isNone_some,
          Bool.false_eq_true, if_false, hmodel]
        rfl
  · refine .inl ⟨f, hf, ?_⟩
    simp only [runExport, ha.config, bind, StateT.bind, host, hload]
    rfl

/-! ## Runs -/

theorem run_of_asks {m : Type → Type} [Monad m] (host : Host m) {arguments : List String}
    {a : Arguments} (hread : read arguments = .ok (.run a)) (ha : a.Asks j) :
    run host arguments = runExport host a j.model j.selector := by
  simp only [run, hread, runArguments, ha.lists, ha.model, ha.reviews, ha.selector,
    Bool.false_eq_true, if_false]

/-- How a run that prints the script ends. -/
inductive Prints (out : Outcome × Disk) : Prop where
  | fails {f : Failure} : j.Fails d input today f → FailsWith f d out → Prints out
  | prints {a : Artifact} :
      j.Produces d input today a → out.1.ending = .printed a.content → Prints out

/-- How a run that writes the script into a directory ends. -/
inductive Writes (directory : String) (out : Outcome × Disk) : Prop where
  | fails {f : Failure} : j.Fails d input today f → FailsWith f d out → Writes directory out
  | refused {a : Artifact} {fault : NameFault} :
      j.Produces d input today a → checkFilename a.filename = .error fault →
      FailsWith (.export (.delivery fault.toError)) d out → Writes directory out
  | writes {a : Artifact} {receipt : Receipt} :
      j.Produces d input today a → checkFilename a.filename = .ok () →
      out.1.ending = .printed (summary a.dialect receipt) →
      Disk.Changes (Disk.placeOf directory) ⟨a.content, a.filename, a.mimeType⟩ (.ok receipt) d
        out.2 → Writes directory out

theorem run_printed {arguments : List String} (h : j.PrintedBy arguments) :
    let out : Outcome × Disk := run (Host.onDisk start input today) arguments d
    out.2 = d ∧ j.Prints d input today out := by
  intro out
  obtain ⟨arguments', hread, ha, hstdout⟩ := h
  have hout : out = _ := congrFun (j.run_of_asks (Host.onDisk start input today) hread ha) d
  rcases j.runExport_onDisk d input today start ha with
    ⟨f, hf, hrun⟩ | ⟨o, dialect, text, model, ho, hd, ht, hm, hrun⟩
  · rw [hout, hrun]
    exact ⟨rfl, .fails hf (hf.failsWith rfl rfl)⟩
  rw [hout, hrun, if_pos hstdout, printScript, ExportOptions.exportTo_known hd]
  refine ⟨rfl, ?_⟩
  rcases hexport : o.exportOn model.tables dialect today with ⟨result, log⟩
  have hresult := congrArg Logged.result hexport
  simp only [Host.onDisk, hexport]
  cases result with
  | error e =>
    have hfails := Fails.refused ho hd ht hm hresult
    exact .fails hfails (hfails.failsWith rfl rfl)
  | ok a => exact .prints (.all ho hd ht hm hresult) rfl

theorem run_delivering {arguments : List String} {directory : String}
    (h : j.WrittenBy arguments directory) :
    let out := run (Host.onDisk start input today) arguments d
    (∃ f, j.Fails d input today f ∧ out.1.ending = .failed f ∧ out.2 = d) ∨
    ∃ a, j.Produces d input today a ∧
      let delivery := Disk.deliver ⟨start, directory, directory⟩ a.parcel d
      out.2 = delivery.2 ∧
      out.1.ending = match delivery.1 with
        | .error e => .failed (.export (.delivery e))
        | .ok receipt => .printed (summary a.dialect receipt) := by
  intro out
  obtain ⟨arguments', hread, ha, hstdout, rfl⟩ := h
  have hout : out = _ := congrFun (j.run_of_asks (Host.onDisk start input today) hread ha) d
  rcases j.runExport_onDisk d input today start ha with
    ⟨f, hf, hrun⟩ | ⟨o, dialect, text, model, ho, hd, ht, hm, hrun⟩
  · rw [hout, hrun]
    exact .inl ⟨f, hf, rfl, rfl⟩
  rw [hout, hrun, if_neg (by simp [hstdout]), writeScript]
  have hto : (o.exportTo model.tables j.selector (Host.onDisk start input today).today).result =
      (o.exportOn model.tables dialect today).result :=
    congrArg Logged.result (ExportOptions.exportTo_known hd)
  cases hresult : (o.exportOn model.tables dialect today).result with
  | error e =>
    rw [ExportOptions.exportAndDeliver_error (hto.trans hresult)]
    exact .inl ⟨_, .refused ho hd ht hm hresult, rfl, rfl⟩
  | ok a =>
    rw [ExportOptions.exportAndDeliver_ok (hto.trans hresult)]
    refine .inr ⟨a, .all ho hd ht hm hresult, ?_⟩
    simp only [bind, StateT.bind, Host.onDisk]
    rcases Disk.deliver _ a.parcel d with ⟨_ | _, _⟩ <;> exact ⟨rfl, rfl⟩

theorem Produces.filename_ne_point {a : Artifact} (h : j.Produces d input today a) :
    a.filename ≠ "." := by
  obtain ⟨_, _, _, _, ha⟩ := h
  rw [ExportOptions.artifact_of_result _ _ _ _ ha]
  exact Artifact.filenameFor_ne_point _ _ _

theorem run_written (hstart : start ≠ "") {arguments : List String} {directory : String}
    (h : j.WrittenBy arguments directory)
    (hserves : ∀ a, j.Produces d input today a →
      d.Serves ⟨start, directory, directory⟩ [⟨a.content, a.filename, a.mimeType⟩]) :
    j.Writes d input today directory (run (Host.onDisk start input today) arguments d) := by
  rcases j.run_delivering d input today start h with
    ⟨f, hf, hending, hdisk⟩ | ⟨a, ha, hdisk, hending⟩
  · exact .fails hf (hf.failsWith hending hdisk)
  cases hname : checkFilename a.filename with
  | error fault =>
    have hdeliver : Disk.deliver ⟨start, directory, directory⟩ a.parcel d =
        (.error fault.toError, d) := Disk.Serves.deliver_refused hname
    rw [hdeliver] at hdisk hending
    exact .refused ha hname (failsWith_of_ending hending (fun _ => by rw [hdisk]) (by simp))
  | ok _ =>
    have hchanges := Disk.changes_deliver ⟨start, directory, directory⟩ a.parcel d
    obtain ⟨receipt, hreceipt⟩ :=
      ((hserves a ha).isOk_deliver hstart (List.mem_singleton_self a.parcel)).mpr
        ⟨hname, ha.filename_ne_point⟩
    rw [hreceipt] at hending hchanges
    rw [← hdisk] at hchanges
    exact .writes ha hname hending hchanges

end Stages

variable {out : Outcome × Disk} {directory : String}

theorem Prints.content {a : Artifact} (h : j.Prints d input today out)
    (ha : j.Produces d input today a) : out.1.ending = .printed a.content := by
  cases h with
  | fails hf => exact absurd hf ha.not_fails
  | prints ha' hending => rwa [ha.unique ha']

theorem Prints.succeeds_iff (h : j.Prints d input today out) :
    (∃ text, out.1.ending = .printed text) ↔ ∃ a, j.Produces d input today a := by
  refine ⟨fun ⟨text, htext⟩ => ?_, fun ⟨a, ha⟩ => ⟨_, h.content ha⟩⟩
  cases h with
  | fails hf hfails => cases htext.symm.trans hfails.ending
  | prints ha hending => exact ⟨_, ha⟩

theorem Prints.failure (h : j.Prints d input today out)
    (hfail : ∀ text, out.1.ending ≠ .printed text) :
    ∃ f, j.Fails d input today f ∧ FailsWith f d out := by
  cases h with
  | fails hf hfails => exact ⟨_, hf, hfails⟩
  | prints _ hending => exact absurd hending (hfail _)

theorem Prints.unknown (h : j.Prints d input today out)
    (hselector : Dialect.parse? j.selector = none) :
    ∃ f, j.Fails d input today f ∧ FailsWith f d out := by
  cases h with
  | fails hf hfails => exact ⟨_, hf, hfails⟩
  | prints ha => exact absurd hselector ha.known

theorem Writes.succeeds_iff (h : j.Writes d input today directory out) :
    (∃ text, out.1.ending = .printed text) ↔
      ∃ a, j.Produces d input today a ∧ checkFilename a.filename = .ok () := by
  constructor
  · rintro ⟨text, htext⟩
    cases h with
    | fails _ hfails => cases htext.symm.trans hfails.ending
    | refused _ _ hfails => cases htext.symm.trans hfails.ending
    | writes ha hname => exact ⟨_, ha, hname⟩
  · rintro ⟨a, ha, hname⟩
    cases h with
    | fails hf => exact absurd hf ha.not_fails
    | refused ha' hname' =>
      rw [ha.unique ha'] at hname
      cases hname.symm.trans hname'
    | writes _ _ hending => exact ⟨_, hending⟩

theorem Writes.changes {text : String} (h : j.Writes d input today directory out)
    (htext : out.1.ending = .printed text) :
    ∃ a receipt, j.Produces d input today a ∧ text = summary a.dialect receipt ∧
      Disk.Changes (Disk.placeOf directory) ⟨a.content, a.filename, a.mimeType⟩ (.ok receipt) d
        out.2 := by
  cases h with
  | fails _ hfails => cases htext.symm.trans hfails.ending
  | refused _ _ hfails => cases htext.symm.trans hfails.ending
  | writes ha _ hending hchanges =>
    exact ⟨_, _, ha, Ending.printed.inj (htext.symm.trans hending), hchanges⟩

theorem Writes.failure (h : j.Writes d input today directory out)
    (hfail : ∀ text, out.1.ending ≠ .printed text) :
    ∃ f, FailsWith f d out ∧ (j.Fails d input today f ∨
      ∃ a fault, j.Produces d input today a ∧ checkFilename a.filename = .error fault ∧
        f = .export (.delivery fault.toError)) := by
  cases h with
  | fails hf hfails => exact ⟨_, hfails, .inl hf⟩
  | refused ha hname hfails => exact ⟨_, hfails, .inr ⟨_, _, ha, hname, rfl⟩⟩
  | writes _ _ hending => exact absurd hending (hfail _)

theorem Writes.unknown (h : j.Writes d input today directory out)
    (hselector : Dialect.parse? j.selector = none) :
    ∃ f, j.Fails d input today f ∧ FailsWith f d out := by
  cases h with
  | fails hf hfails => exact ⟨_, hf, hfails⟩
  | refused ha => exact absurd hselector ha.known
  | writes ha => exact absurd hselector ha.known

end Job

/-- Exports are all or nothing, and both ways to get the script agree. The run that prints succeeds
if and only if the job produces an artifact, and then it prints its content. The run that writes
succeeds if moreover the name of the artifact is accepted, and then it writes one file, whose
content is what the other run prints. All other runs fail, with the first fault that there is. -/
theorem run_export {j : Job} {d : Disk} {input : FileContent} {today : Date}
    {start directory : String} {printing writing : List String}
    (hstart : start ≠ "") (hprint : j.PrintedBy printing) (hwrite : j.WrittenBy writing directory)
    (hserves : ∀ a, j.Produces d input today a →
      d.Serves ⟨start, directory, directory⟩ [⟨a.content, a.filename, a.mimeType⟩]) :
    let host := Host.onDisk start input today
    let printed : Outcome × Disk := run host printing d
    let written : Outcome × Disk := run host writing d
    ((∃ text, printed.1.ending = .printed text) ↔ ∃ a, j.Produces d input today a) ∧
    (∀ a, j.Produces d input today a → printed.1.ending = .printed a.content) ∧
    printed.2 = d ∧
    ((∃ text, written.1.ending = .printed text) ↔
      ∃ a, j.Produces d input today a ∧ checkFilename a.filename = .ok ()) ∧
    (∀ text, written.1.ending = .printed text → ∃ a receipt, j.Produces d input today a ∧
      printed.1.ending = .printed a.content ∧ text = summary a.dialect receipt ∧
      Disk.Changes (Disk.placeOf directory) ⟨a.content, a.filename, a.mimeType⟩ (.ok receipt) d
        written.2) ∧
    (∀ out ∈ [printed, written], (∀ text, out.1.ending ≠ .printed text) →
      ∃ f, FailsWith f d out ∧ (j.Fails d input today f ∨
        ∃ a fault, j.Produces d input today a ∧ checkFilename a.filename = .error fault ∧
          f = .export (.delivery fault.toError))) ∧
    (Dialect.parse? j.selector = none → ∀ out ∈ [printed, written], ∃ f, FailsWith f d out ∧
      ((∃ o, j.HasOptions d o) → f = unknownDialect j.selector) ∧
      ((¬ ∃ o, j.HasOptions d o) → ∃ path reason, j.config = some path ∧
        (f = .unreadable path reason ∨ f = .config path reason))) := by
  intro host printed written
  obtain ⟨hdisk, hprinted⟩ := j.run_printed d input today start hprint
  have hwritten := j.run_written d input today start hstart hwrite hserves
  refine ⟨hprinted.succeeds_iff, fun a => hprinted.content, hdisk, hwritten.succeeds_iff,
    ?_, ?_, ?_⟩
  · intro text htext
    obtain ⟨a, receipt, ha, hsummary, hchanges⟩ := hwritten.changes htext
    exact ⟨a, receipt, ha, hprinted.content ha, hsummary, hchanges⟩
  · intro out hout hfail
    rcases List.mem_pair.mp hout with rfl | rfl
    · obtain ⟨f, hf, hfails⟩ := hprinted.failure hfail
      exact ⟨f, hfails, .inl hf⟩
    · exact hwritten.failure hfail
  · intro hselector out hout
    have hunknown : ∃ f, j.Fails d input today f ∧ FailsWith f d out := by
      rcases List.mem_pair.mp hout with rfl | rfl
      · exact hprinted.unknown hselector
      · exact hwritten.unknown hselector
    obtain ⟨f, hf, hfails⟩ := hunknown
    exact ⟨f, hfails, hf.of_unknown hselector⟩

/-- The selector is looked at behind the options: if these cannot be read, that is what is told. -/
theorem unknown_selector_behind_options :
    let d : Disk := ⟨[], [(["m.json"], some "[]"), (["o.toml"], some "= broken")]⟩
    let arguments := ["-m", "m.json", "-d", "nosuch", "-c", "o.toml", "--stdout"]
    let out : Outcome × Disk := run (Host.onDisk "/srv" (some "") ⟨2024, 5, 6⟩) arguments d
    Job.PrintedBy ⟨"m.json", "nosuch", some "o.toml", false⟩ arguments ∧
    Dialect.parse? "nosuch" = none ∧
    out.1.ending = .failed (.config "o.toml" "not a document of options") ∧
    ¬ ∃ reason, out.1.ending = .failed (.invalidArgument reason) := by
  intro d arguments out
  have hending : out.1.ending = .failed (.config "o.toml" "not a document of options") := by
    decide +kernel
  refine ⟨⟨⟨[(.config, "o.toml"), (.dialect, "nosuch"), (.model, "m.json")], [.stdout]⟩,
    by decide +kernel, ⟨rfl, rfl, rfl, rfl, rfl, rfl⟩, rfl⟩, by decide +kernel, hending, ?_⟩
  rintro ⟨reason, hreason⟩
  cases hending.symm.trans hreason

def shopTables : List Table :=
  [.withColumns "users" [.untyped "id"]]

def shopDisk : Disk :=
  ⟨[], [(["m.json"], some "[[\"users\", null, [[\"id\"]]]]"),
    (["o.toml"], some "filename_prefix = \"shop\"")]⟩

def shopJob : Job :=
  ⟨"m.json", "sqlite", some "o.toml", true⟩

theorem produces_shopJob (a : Artifact) :
    shopJob.Produces shopDisk none ⟨2024, 5, 6⟩ a ↔
      ((⟨true, "shop", true⟩ : ExportOptions).exportOn shopTables .sqlite ⟨2024, 5, 6⟩).result =
        .ok a := by
  have ho : shopJob.HasOptions shopDisk ⟨true, "shop", true⟩ :=
    .document (o := ⟨false, "shop", true⟩) rfl
      (show shopDisk.readText "o.toml" = .ok "filename_prefix = \"shop\"" by decide +kernel)
      (by decide +kernel)
  have hd : Dialect.parse? shopJob.selector = some .sqlite := by decide +kernel
  have ht : shopJob.HasText shopDisk none "[[\"users\", null, [[\"id\"]]]]" :=
    .file (by decide) (by decide +kernel)
  have hm : Model.ofFile shopJob.model "[[\"users\", null, [[\"id\"]]]]" = .ok ⟨shopTables⟩ := by
    decide +kernel
  refine ⟨fun h => ?_, .all ho hd ht hm⟩
  obtain ⟨ho', hd', ht', hm', ha⟩ := h
  cases ho.unique ho'
  cases hd.symm.trans hd'
  cases ht.unique ht'
  cases hm.symm.trans hm'
  exact ha

def shopArguments : List String :=
  ["-m", "m.json", "-d", "sqlite", "-c", "o.toml", "--strict-references"]

theorem run_export_shopJob :
    shopJob.PrintedBy (shopArguments ++ ["--stdout"]) ∧
    shopJob.WrittenBy (shopArguments ++ ["-o", "out/today"]) "out/today" ∧
    (∀ a, shopJob.Produces shopDisk none ⟨2024, 5, 6⟩ a →
      shopDisk.Serves ⟨"/srv", "out/today", "out/today"⟩
        [⟨a.content, a.filename, a.mimeType⟩]) ∧
    ∃ a : Artifact,
      (run (Host.onDisk "/srv" none ⟨2024, 5, 6⟩) (shopArguments ++ ["--stdout"])
        shopDisk).1.ending = .printed a.content ∧
      (run (Host.onDisk "/srv" none ⟨2024, 5, 6⟩) (shopArguments ++ ["-o", "out/today"])
        shopDisk).2.entries ["out", "today"] "shop_sqlite_2024-05-06.sql" =
          some (some a.content) := by
  have hprint : shopJob.PrintedBy (shopArguments ++ ["--stdout"]) :=
    ⟨⟨[(.config, "o.toml"), (.dialect, "sqlite"), (.model, "m.json")],
        [.stdout, .strictReferences]⟩,
      by decide +kernel, ⟨rfl, rfl, rfl, rfl, rfl, rfl⟩, rfl⟩
  have hwrite : shopJob.WrittenBy (shopArguments ++ ["-o", "out/today"]) "out/today" :=
    ⟨⟨[(.outputDir, "out/today"), (.config, "o.toml"), (.dialect, "sqlite"), (.model, "m.json")],
      [.strictReferences]⟩, by decide +kernel, ⟨rfl, rfl, rfl, rfl, rfl, rfl⟩, rfl, rfl⟩
  have hfilename (a : Artifact) (ha : shopJob.Produces shopDisk none ⟨2024, 5, 6⟩ a) :
      a.filename = "shop_sqlite_2024-05-06.sql" := by
    rw [ExportOptions.artifact_of_result _ _ _ _ ((produces_shopJob a).mp ha)]
    exact show Artifact.filenameFor "shop" .sqlite ⟨2024, 5, 6⟩ = _ by decide +kernel
  have hserves (a : Artifact) (ha : shopJob.Produces shopDisk none ⟨2024, 5, 6⟩ a) :
      shopDisk.Serves ⟨"/srv", "out/today", "out/today"⟩
        [⟨a.content, a.filename, a.mimeType⟩] := by
    refine ⟨by decide +kernel, ⟨["out", "today"], by decide +kernel⟩, fun p hp hname hpoint => ?_⟩
    cases List.mem_singleton.mp hp
    refine ⟨_, Disk.writeText_ok.mpr ⟨?_, rfl⟩⟩
    simp only [hfilename a ha]
    decide +kernel
  obtain ⟨-, -, -, hwritten, hfile, -⟩ := run_export (by decide) hprint hwrite hserves
  obtain ⟨a, ha⟩ := (ExportOptions.result_isOk ⟨true, "shop", true⟩ shopTables .sqlite
    ⟨2024, 5, 6⟩).mpr ⟨by decide, by
      simp [HasLooseKey, shopTables, Table.withColumns, Column.untyped]⟩
  have hproduces := (produces_shopJob a).mpr ha
  obtain ⟨text, htext⟩ := hwritten.mpr ⟨a, hproduces, by rw [hfilename a hproduces]; decide +kernel⟩
  obtain ⟨a', receipt, ha', hcontent, -, hentry, -⟩ := hfile text htext
  have hplace : Disk.placeOf "out/today" = ["out", "today"] := by decide +kernel
  simp only [hplace, hfilename a' ha'] at hentry
  exact ⟨hprint, hwrite, hserves, a', hcontent, hentry⟩

end CommandLine
end SchemaScript
