import Mathlib.Data.List.Forall2
import SchemaScript.Proofs.Export.Outcome

/-!
# SchemaScript.Proofs.Delivery.Calls

Runs of calls against one shelf. A call exports a model and hands the artifact on, or gives a parcel
as it is. What a call answers depends on the call alone (`Call.Ends`): either it fails and the shelf
stays as it was, or its parcel comes behind those that are there (`Call.run_step`). So after a run
the shelf holds, behind what it held before, one parcel for each call that succeeded
(`runCalls_stored`).
-/

namespace SchemaScript

namespace ExportOptions

variable {m : Type → Type} [Monad m] {o : ExportOptions} {tables : List Table} {selector : String}
  {date : Date} {deliver : Parcel → m (Except DeliveryError Receipt)}

/-- Nothing is delivered if the export fails. -/
theorem exportAndDeliver_error {e : ExportError}
    (h : (o.exportTo tables selector date).result = .error e) :
    o.exportAndDeliver tables selector date deliver =
      pure ⟨.error e, (o.exportTo tables selector date).log⟩ := by
  rw [exportAndDeliver]
  generalize o.exportTo tables selector date = run at h ⊢
  obtain ⟨result, log⟩ := run
  cases h
  rfl

/-- Else the artifact is delivered, once. -/
theorem exportAndDeliver_ok {a : Artifact}
    (h : (o.exportTo tables selector date).result = .ok a) :
    o.exportAndDeliver tables selector date deliver =
      (do
        match ← deliver a.parcel with
        | .error e => pure ⟨.error (.delivery e), (o.exportTo tables selector date).log⟩
        | .ok receipt => pure ⟨.ok (a, receipt), (o.exportTo tables selector date).log⟩) := by
  rw [exportAndDeliver]
  generalize o.exportTo tables selector date = run at h ⊢
  obtain ⟨result, log⟩ := run
  cases h
  rfl

end ExportOptions

namespace Shelf

theorem deliver_refused {p : Parcel} {f : NameFault} (h : checkFilename p.filename = .error f)
    (s : Shelf) : deliver p s = (.error f.toError, s) := by
  rw [deliver, h]

theorem deliver_accepted {p : Parcel} (h : checkFilename p.filename = .ok ()) (s : Shelf) :
    deliver p s = (.ok (p.receipt ("memory://" ++ p.filename)), ⟨s.parcels ++ [p]⟩) := by
  rw [deliver, h]

end Shelf

namespace ExportOptions

variable {o : ExportOptions} {tables : List Table} {selector : String} {date : Date} {a : Artifact}

/-- An artifact whose name is refused leaves the shelf as it was. -/
theorem exportAndDeliver_refused {f : NameFault}
    (h : (o.exportTo tables selector date).result = .ok a)
    (hname : checkFilename a.filename = .error f) (s : Shelf) :
    o.exportAndDeliver tables selector date Shelf.deliver s =
      (⟨.error (.delivery f.toError), (o.exportTo tables selector date).log⟩, s) := by
  have hdeliver := Shelf.deliver_refused (p := a.parcel) hname s
  rw [exportAndDeliver_ok h]
  simp only [bind, StateT.bind, hdeliver]
  rfl

theorem exportAndDeliver_accepted (h : (o.exportTo tables selector date).result = .ok a)
    (hname : checkFilename a.filename = .ok ()) (s : Shelf) :
    o.exportAndDeliver tables selector date Shelf.deliver s =
      (⟨.ok (a, a.parcel.receipt ("memory://" ++ a.filename)),
        (o.exportTo tables selector date).log⟩, ⟨s.parcels ++ [a.parcel]⟩) := by
  have hdeliver := Shelf.deliver_accepted (p := a.parcel) hname s
  rw [exportAndDeliver_ok h]
  simp only [bind, StateT.bind, hdeliver]
  rfl

end ExportOptions

/-- A use of a shelf. -/
inductive Call where
  /-- A model is exported, and its artifact is handed on. -/
  | model (o : ExportOptions) (tables : List Table) (selector : String)
  | parcel (p : Parcel)

inductive Answer where
  | model (result : Except ExportError (Artifact × Receipt))
  | parcel (result : Except DeliveryError Receipt)

/-- The receipt, for calls that succeeded. -/
def Answer.receipt? : Answer → Option Receipt
  | .model (.ok (_, receipt)) => some receipt
  | .parcel (.ok receipt) => some receipt
  | _ => none

namespace Call

def run (date : Date) : Call → StateM Shelf Answer
  | .model o tables selector => do
    let run ← o.exportAndDeliver tables selector date Shelf.deliver
    pure (.model run.result)
  | .parcel p => do
    let result ← Shelf.deliver p
    pure (.parcel result)

/-- What is on the shelf because of a call: the artifact that it returned, or the parcel that it
gave, if it succeeded. -/
def stored? : Call → Answer → Option Parcel
  | .model _ _ _, .model (.ok (a, _)) => some ⟨a.content, a.filename, a.mimeType⟩
  | .parcel p, .parcel (.ok _) => some p
  | _, _ => none

/-- How a call ends, said without the shelf. -/
inductive Ends (date : Date) : Call → Answer → Prop where
  | unknownSelector {o : ExportOptions} {tables : List Table} {selector : String} :
      Dialect.parse? selector = none →
      Ends date (.model o tables selector) (.model (.error (.unsupportedDialect selector)))
  | emptyModel {o : ExportOptions} {selector : String} {d : Dialect} :
      Dialect.parse? selector = some d →
      Ends date (.model o [] selector) (.model (.error .emptyModel))
  | noColumns {o : ExportOptions} {tables : List Table} {selector : String} {d : Dialect} :
      Dialect.parse? selector = some d → tables ≠ [] → (∀ t ∈ tables, t.columns = []) →
      Ends date (.model o tables selector) (.model (.error .noExportableTables))
  | looseKey {o : ExportOptions} {tables : List Table} {selector : String} {d : Dialect}
      {table column target : String} :
      Dialect.parse? selector = some d → (∃ t ∈ tables, t.columns ≠ []) →
      o.strictReferences = true → HasLooseKey tables →
      Ends date (.model o tables selector)
        (.model (.error (.unresolvedReference table column target)))
  | refusedName {o : ExportOptions} {tables : List Table} {selector : String} {d : Dialect}
      {a : Artifact} {f : NameFault} :
      Dialect.parse? selector = some d → (o.exportOn tables d date).result = .ok a →
      checkFilename a.filename = .error f →
      Ends date (.model o tables selector) (.model (.error (.delivery f.toError)))
  | exported {o : ExportOptions} {tables : List Table} {selector : String} {d : Dialect}
      {a : Artifact} :
      Dialect.parse? selector = some d → (o.exportOn tables d date).result = .ok a →
      checkFilename a.filename = .ok () →
      Ends date (.model o tables selector)
        (.model (.ok (a, ⟨a.filename, a.mimeType, "memory://" ++ a.filename,
          a.content.utf8ByteSize⟩)))
  | refusedParcel {p : Parcel} {f : NameFault} : checkFilename p.filename = .error f →
      Ends date (.parcel p) (.parcel (.error f.toError))
  | delivered {p : Parcel} : checkFilename p.filename = .ok () →
      Ends date (.parcel p) (.parcel (.ok ⟨p.filename, p.mimeType, "memory://" ++ p.filename,
        p.content.utf8ByteSize⟩))

variable (date : Date) (s : Shelf)

theorem run_export_error {o : ExportOptions} {tables : List Table} {selector : String}
    {e : ExportError} (h : (o.exportTo tables selector date).result = .error e) :
    (Call.model o tables selector).run date s = (.model (.error e), s) := by
  rw [run, ExportOptions.exportAndDeliver_error h]
  rfl

theorem run_export_refused {o : ExportOptions} {tables : List Table} {selector : String}
    {a : Artifact} {f : NameFault} (h : (o.exportTo tables selector date).result = .ok a)
    (hname : checkFilename a.filename = .error f) :
    (Call.model o tables selector).run date s = (.model (.error (.delivery f.toError)), s) := by
  rw [run]
  simp only [bind, StateT.bind, ExportOptions.exportAndDeliver_refused h hname]
  rfl

theorem run_export_accepted {o : ExportOptions} {tables : List Table} {selector : String}
    {a : Artifact} (h : (o.exportTo tables selector date).result = .ok a)
    (hname : checkFilename a.filename = .ok ()) :
    (Call.model o tables selector).run date s =
      (.model (.ok (a, a.parcel.receipt ("memory://" ++ a.filename))),
        ⟨s.parcels ++ [a.parcel]⟩) := by
  rw [run]
  simp only [bind, StateT.bind, ExportOptions.exportAndDeliver_accepted h hname]
  rfl

/-- A call adds what it stores, and ends in its own way whatever is on the shelf. -/
theorem run_step (call : Call) :
    let answer := (call.run date s).1
    (call.run date s).2 = ⟨s.parcels ++ (call.stored? answer).toList⟩ ∧ call.Ends date answer := by
  cases call with
  | parcel p =>
    have hrun : (Call.parcel p).run date s =
        (.parcel (Shelf.deliver p s).1, (Shelf.deliver p s).2) := rfl
    cases hname : checkFilename p.filename with
    | error f =>
      rw [hrun, Shelf.deliver_refused hname]
      exact ⟨by simp [stored?], .refusedParcel hname⟩
    | ok _ =>
      rw [hrun, Shelf.deliver_accepted hname]
      exact ⟨rfl, .delivered hname⟩
  | model o tables selector =>
    cases hd : Dialect.parse? selector with
    | none =>
      rw [run_export_error date s (congrArg Logged.result (ExportOptions.exportTo_unknown hd))]
      exact ⟨by simp [stored?], .unknownSelector hd⟩
    | some d =>
      have hto : (o.exportTo tables selector date).result = (o.exportOn tables d date).result :=
        congrArg Logged.result (ExportOptions.exportTo_known hd)
      cases hresult : (o.exportOn tables d date).result with
      | error e =>
        rw [run_export_error date s (hto.trans hresult)]
        refine ⟨by simp [stored?], ?_⟩
        rcases ExportOptions.result_cases o tables d date with
          ⟨ht, -, h⟩ | ⟨ht, hs, h⟩ | ⟨-, hs, hloose, t, l, h⟩ | ⟨-, -, -, h⟩ <;>
        rw [hresult] at h <;> cases h
        · rw [ht]
          exact .emptyModel hd
        · exact .noColumns hd ht (Scope.tables_ofTables_eq_nil.mp hs)
        · exact .looseKey hd (Scope.tables_ofTables_ne_nil.mp hs) hloose.1
            (Scope.unresolved_ne_nil.mp hloose.2)
      | ok a =>
        cases hname : checkFilename a.filename with
        | error f =>
          rw [run_export_refused date s (hto.trans hresult) hname]
          exact ⟨by simp [stored?], .refusedName hd hresult hname⟩
        | ok _ =>
          rw [run_export_accepted date s (hto.trans hresult) hname]
          exact ⟨rfl, .exported hd hresult hname⟩

theorem receipt_of_ends {call : Call} {answer : Answer} (h : call.Ends date answer) :
    answer.receipt? =
      (call.stored? answer).map fun p => p.receipt ("memory://" ++ p.filename) := by
  cases h <;> rfl

end Call

def runCalls (date : Date) (calls : List Call) : StateM Shelf (List Answer) :=
  calls.mapM (·.run date)

/-- The parcels of the calls that succeeded, in the order of the calls. -/
def storedParcels (calls : List Call) (answers : List Answer) : List Parcel :=
  (calls.zip answers).filterMap fun e => e.1.stored? e.2

theorem runCalls_nil (date : Date) (s : Shelf) : runCalls date [] s = ([], s) := rfl

theorem runCalls_cons (date : Date) (call : Call) (calls : List Call) (s : Shelf) :
    runCalls date (call :: calls) s =
      ((call.run date s).1 :: (runCalls date calls (call.run date s).2).1,
        (runCalls date calls (call.run date s).2).2) := by
  rw [runCalls, List.mapM_cons]
  rfl

theorem storedParcels_cons (call : Call) (calls : List Call) (answer : Answer)
    (answers : List Answer) :
    storedParcels (call :: calls) (answer :: answers) =
      (call.stored? answer).toList ++ storedParcels calls answers := by
  rw [storedParcels, List.zip_cons_cons, List.filterMap_cons]
  cases call.stored? answer <;> rfl

theorem parcels_runCalls (date : Date) (calls : List Call) (s : Shelf) :
    (runCalls date calls s).2.parcels =
      s.parcels ++ storedParcels calls (runCalls date calls s).1 := by
  induction calls generalizing s with
  | nil => rw [runCalls_nil, storedParcels, List.zip_nil_left, List.filterMap_nil, List.append_nil]
  | cons call calls ih =>
    obtain ⟨hstep, -⟩ := call.run_step date s
    rw [runCalls_cons, ih, storedParcels_cons, ← List.append_assoc, hstep]

theorem ends_runCalls (date : Date) (calls : List Call) (s : Shelf) :
    List.Forall₂ (Call.Ends date) calls (runCalls date calls s).1 := by
  induction calls generalizing s with
  | nil => exact .nil
  | cons call calls ih =>
    rw [runCalls_cons]
    exact .cons (call.run_step date s).2 (ih _)

/-- All or nothing over whole runs: what the shelf held is followed, in the order of the calls, by
one parcel for each call that succeeded, with the content, the file name and the media type that the
call returned or was given, and with a receipt that counts its bytes. How a call ends depends on the
call alone, and one that fails leaves the shelf as it was. -/
theorem runCalls_stored (date : Date) (calls : List Call) (s : Shelf) :
    let answers := (runCalls date calls s).1
    (runCalls date calls s).2.parcels = s.parcels ++ storedParcels calls answers ∧
    List.Forall₂ (fun call answer =>
      call.Ends date answer ∧
      (answer.receipt?.isSome ↔ (call.stored? answer).isSome) ∧
      (∀ a receipt, answer = .model (.ok (a, receipt)) →
        call.stored? answer = some ⟨a.content, a.filename, a.mimeType⟩) ∧
      ∀ p receipt, call.stored? answer = some p → answer.receipt? = some receipt →
        receipt.filename = p.filename ∧ receipt.mimeType = p.mimeType ∧
          receipt.bytes = p.content.toUTF8.size) calls answers ∧
    ∀ call : Call, (call.run date s).1.receipt? = none → (call.run date s).2 = s := by
  refine ⟨parcels_runCalls date calls s, (ends_runCalls date calls s).imp ?_, ?_⟩
  · intro call answer hends
    have hreceipt := Call.receipt_of_ends date hends
    refine ⟨hends, by rw [hreceipt, Option.isSome_map], ?_, ?_⟩
    · rintro a receipt rfl
      cases hends
      rfl
    · intro p receipt hp hr
      rw [hreceipt, hp] at hr
      cases hr
      exact ⟨rfl, rfl, rfl⟩
  · intro call hfail
    obtain ⟨hstep, hends⟩ := call.run_step date s
    rw [Call.receipt_of_ends date hends, Option.map_eq_none_iff] at hfail
    rw [hstep, hfail, Option.toList_none, List.append_nil]

end SchemaScript
