import SchemaScript.Export.Toml
import SchemaScript.Proofs.Model.Steps
import SchemaScript.Proofs.Text.Trim

/-!
# SchemaScript.Proofs.Export.Steps

Options that are set step by step, on top of the default options, of strict ones, or of those that a
document holds (`Source`). What a source gives and what the steps give is all that matters, and of
each option only what is given last (`Given.foldl_step_options`). So the prefix of file names is in
its normal form on every way to some options (`reached_normalized`).
-/

namespace SchemaScript
namespace ExportOptions

/-! ## Prefixes -/

theorem normalizePrefix_of_not_blank {text : String} (h : Text.allBlank text = false) :
    normalizePrefix text = Text.trim text := by
  rw [normalizePrefix, h]
  rfl

/-- A prefix is trimmed, and a blank one stands for a fixed text. -/
theorem normalizePrefix_eq (text : String) :
    normalizePrefix text = if Text.trim text = "" then "schema" else Text.trim text := by
  simp only [normalizePrefix, Text.trim_eq_empty_iff]
  rfl

/-- A prefix in its normal form is not blank. -/
theorem allBlank_normalizePrefix (text : String) :
    Text.allBlank (normalizePrefix text) = false := by
  cases h : Text.allBlank text with
  | true =>
    rw [normalizePrefix, if_pos h]
    decide
  | false => rw [normalizePrefix_of_not_blank h, Text.allBlank_trim, h]

theorem trim_normalizePrefix (text : String) :
    Text.trim (normalizePrefix text) = normalizePrefix text := by
  cases h : Text.allBlank text with
  | true =>
    rw [normalizePrefix, if_pos h]
    decide
  | false => rw [normalizePrefix_of_not_blank h, Text.trim_trim]

theorem normalizePrefix_normalizePrefix (text : String) :
    normalizePrefix (normalizePrefix text) = normalizePrefix text := by
  rw [normalizePrefix_of_not_blank (allBlank_normalizePrefix text), trim_normalizePrefix]

/-- A text that is not empty and has no white space at its ends. -/
structure IsTrimmed (text : String) : Prop where
  ne_empty : text ≠ ""
  head : text.toList.head?.any Text.isBlank = false
  last : text.toList.getLast?.any Text.isBlank = false

theorem isTrimmed_normalizePrefix (text : String) : IsTrimmed (normalizePrefix text) := by
  have hself := trim_normalizePrefix text
  refine ⟨?_, ?_, ?_⟩
  · rw [← hself]
    intro hempty
    have hblank := Text.trim_eq_empty_iff.mp hempty
    rw [allBlank_normalizePrefix] at hblank
    cases hblank
  · rw [← hself, Text.trim, String.toList_ofList]
    exact Text.head?_trimChars _
  · rw [← hself, Text.trim, String.toList_ofList]
    exact Text.getLast?_trimChars _

/-! ## Steps -/

/-- A step of setting options. -/
inductive Step where
  | strictReferences (b : Bool)
  | filenamePrefix (text : String)
  | logDiagnostics (b : Bool)

def step (o : ExportOptions) : Step → ExportOptions
  | .strictReferences b => o.withStrictReferences b
  | .filenamePrefix text => o.withFilenamePrefix text
  | .logDiagnostics b => o.withLogDiagnostics b

namespace Step

def strictReferences? : Step → Option Bool
  | .strictReferences b => some b
  | _ => none

def filenamePrefix? : Step → Option String
  | .filenamePrefix text => some text
  | _ => none

def logDiagnostics? : Step → Option Bool
  | .logDiagnostics b => some b
  | _ => none

end Step

/-- What is said about each option, if anything. -/
structure Given where
  strictReferences : Option Bool
  filenamePrefix : Option String
  logDiagnostics : Option Bool

namespace Given

/-- What is said in the end, where steps follow. -/
def followedBy (g : Given) (steps : List Step) : Given where
  strictReferences := (lastGiven Step.strictReferences? steps).or g.strictReferences
  filenamePrefix := (lastGiven Step.filenamePrefix? steps).or g.filenamePrefix
  logDiagnostics := (lastGiven Step.logDiagnostics? steps).or g.logDiagnostics

/-- The options that are meant; what nothing is said about has its default. -/
def options (g : Given) : ExportOptions where
  strictReferences := g.strictReferences.getD false
  filenamePrefix := normalizePrefix (g.filenamePrefix.getD defaultPrefix)
  logDiagnostics := g.logDiagnostics.getD true

variable {g : Given} {steps : List Step}

theorem step_options (k : Step) :
    (g.followedBy steps).options.step k = (g.followedBy (steps ++ [k])).options := by
  simp only [followedBy, lastGiven_concat]
  cases k <;> rfl

theorem foldl_step_options : steps.foldl step g.options = (g.followedBy steps).options := by
  induction steps using List.reverseRecOn with
  | nil => rfl
  | append_singleton steps k ih =>
    rw [← step_options, ← ih, List.foldl_append, List.foldl_cons, List.foldl_nil]

end Given

/-! ## Sources -/

/-- Where options come from before any step. -/
inductive Source where
  | standard
  | strict
  /-- A document, which may not be one of options. -/
  | document (text : String)

namespace Source

def options? : Source → Option ExportOptions
  | .standard => some ExportOptions.standard
  | .strict => some ExportOptions.strict
  | .document text => ofToml? text

/-- What a source says about each option: a document has the values that are said under their names,
and nothing under the other names. -/
inductive Gives : Source → Given → Prop where
  | standard : Gives .standard ⟨none, none, none⟩
  | strict : Gives .strict ⟨some true, none, none⟩
  | document {text : String} {ms : Toml.Members} {g : Given} :
      Toml.read text = some ms →
      ms.lookup "strict_references" = g.strictReferences.map .bool →
      ms.lookup "filename_prefix" = g.filenamePrefix.map .string →
      ms.lookup "log_diagnostics" = g.logDiagnostics.map .bool →
      Gives (.document text) g

theorem flagIn?_eq_some {ms : Toml.Members} {name : String} {default b : Bool} :
    flagIn? ms name default = some b ↔
      ∃ given : Option Bool, ms.lookup name = given.map .bool ∧ given.getD default = b := by
  rw [flagIn?]
  constructor
  · intro h
    split at h
    · exact ⟨none, ‹_›, Option.some.inj h⟩
    · exact ⟨some _, ‹_›, Option.some.inj h⟩
    · cases h
  · rintro ⟨given, hlookup, rfl⟩
    rw [hlookup]
    cases given <;> rfl

theorem textIn?_eq_some {ms : Toml.Members} {name default text : String} :
    textIn? ms name default = some text ↔
      ∃ given : Option String, ms.lookup name = given.map .string ∧ given.getD default = text := by
  rw [textIn?]
  constructor
  · intro h
    split at h
    · exact ⟨none, ‹_›, Option.some.inj h⟩
    · exact ⟨some _, ‹_›, Option.some.inj h⟩
    · cases h
  · rintro ⟨given, hlookup, rfl⟩
    rw [hlookup]
    cases given <;> rfl

theorem ofMembers?_eq_some {ms : Toml.Members} {o : ExportOptions} :
    ofMembers? ms = some o ↔ ∃ g : Given,
      ms.lookup "strict_references" = g.strictReferences.map .bool ∧
      ms.lookup "filename_prefix" = g.filenamePrefix.map .string ∧
      ms.lookup "log_diagnostics" = g.logDiagnostics.map .bool ∧ g.options = o := by
  rw [ofMembers?]
  constructor
  · intro h
    split at h
    · rename_i hstrict hname hlog
      obtain ⟨strict, hstrictGiven, rfl⟩ := flagIn?_eq_some.mp hstrict
      obtain ⟨filenamePrefix, hnameGiven, rfl⟩ := textIn?_eq_some.mp hname
      obtain ⟨log, hlogGiven, rfl⟩ := flagIn?_eq_some.mp hlog
      exact ⟨⟨strict, filenamePrefix, log⟩, hstrictGiven, hnameGiven, hlogGiven,
        Option.some.inj h⟩
    · cases h
  · rintro ⟨g, hstrict, hname, hlog, rfl⟩
    rw [flagIn?_eq_some.mpr ⟨_, hstrict, rfl⟩, textIn?_eq_some.mpr ⟨_, hname, rfl⟩,
      flagIn?_eq_some.mpr ⟨_, hlog, rfl⟩]
    rfl

/-- A source has options if it says something about them that can be meant, and it has these. -/
theorem options?_eq_some {source : Source} {o : ExportOptions} :
    source.options? = some o ↔ ∃ g, source.Gives g ∧ g.options = o := by
  cases source with
  | standard =>
    constructor
    · intro h
      exact ⟨_, .standard, Option.some.inj h⟩
    · rintro ⟨g, ⟨⟩, rfl⟩
      rfl
  | strict =>
    constructor
    · intro h
      exact ⟨_, .strict, Option.some.inj h⟩
    · rintro ⟨g, ⟨⟩, rfl⟩
      rfl
  | document text =>
    rw [options?, ofToml?, Option.bind_eq_some_iff]
    constructor
    · rintro ⟨ms, hms, ho⟩
      obtain ⟨g, hstrict, hname, hlog, rfl⟩ := ofMembers?_eq_some.mp ho
      exact ⟨g, .document hms hstrict hname hlog, rfl⟩
    · rintro ⟨g, hgives, rfl⟩
      cases hgives with
      | document hms hstrict hname hlog =>
        exact ⟨_, hms, ofMembers?_eq_some.mpr ⟨g, hstrict, hname, hlog, rfl⟩⟩

end Source

/-- File name prefixes are in their normal form on every way to some options. A source has options
if it says something about them that can be meant. After any steps on top of these each flag has the
value that is given last, by the steps or else by the source, or its default; and the prefix is the
one that is given last without white space at its ends, or `schema` where none is given or nothing
is left. It is not empty, it has no white space at its ends, and giving it again changes nothing. -/
theorem reached_normalized (source : Source) :
    (source.options?.isSome = true ↔ ∃ g, source.Gives g) ∧
    ∀ o, source.options? = some o → ∃ g, source.Gives g ∧ ∀ steps : List Step,
      let o' := steps.foldl step o
      let text := ((lastGiven Step.filenamePrefix? steps).or g.filenamePrefix).getD "schema"
      o'.filenamePrefix = (if Text.trim text = "" then "schema" else Text.trim text) ∧
      o'.strictReferences =
        ((lastGiven Step.strictReferences? steps).or g.strictReferences).getD false ∧
      o'.logDiagnostics = ((lastGiven Step.logDiagnostics? steps).or g.logDiagnostics).getD true ∧
      IsTrimmed o'.filenamePrefix ∧ o'.withFilenamePrefix o'.filenamePrefix = o' := by
  constructor
  · rw [Option.isSome_iff_exists]
    constructor
    · rintro ⟨o, ho⟩
      obtain ⟨g, hgives, -⟩ := Source.options?_eq_some.mp ho
      exact ⟨g, hgives⟩
    · rintro ⟨g, hgives⟩
      exact ⟨_, Source.options?_eq_some.mpr ⟨g, hgives, rfl⟩⟩
  · intro o ho
    obtain ⟨g, hgives, rfl⟩ := Source.options?_eq_some.mp ho
    refine ⟨g, hgives, fun steps => ?_⟩
    intro o' text
    have hrun : o' = (g.followedBy steps).options := Given.foldl_step_options
    rw [hrun, ← normalizePrefix_eq]
    refine ⟨rfl, rfl, rfl, isTrimmed_normalizePrefix _, ?_⟩
    rw [withFilenamePrefix, Given.options, normalizePrefix_normalizePrefix]

/-- A document with a prefix that has a space without a break in front and a tab behind it. -/
def paddedDocument : String :=
  "log_diagnostics = false\nfilename_prefix = \"\u00a0 shop\t\"\n"

theorem reached_normalized_paddedDocument :
    let o : ExportOptions := ⟨false, "shop", false⟩
    let steps : List Step :=
      [.filenamePrefix " ", .strictReferences true, .filenamePrefix "\u2003a b"]
    let o' := steps.foldl step o
    (Source.document paddedDocument).options? = some o ∧
    o'.filenamePrefix = "a b" ∧ o'.strictReferences = true ∧
    IsTrimmed o'.filenamePrefix ∧ o'.withFilenamePrefix "a b" = o' := by
  intro o steps o'
  obtain ⟨-, hreached⟩ := reached_normalized (.document paddedDocument)
  have ho : (Source.document paddedDocument).options? = some o := by decide +kernel
  obtain ⟨g, -, hsteps⟩ := hreached o ho
  obtain ⟨hname, hstrict, -, htrimmed, hagain⟩ := hsteps steps
  have hnormal : (if Text.trim "\u2003a b" = "" then "schema" else Text.trim "\u2003a b") =
      "a b" := by decide +kernel
  have hshort : o'.filenamePrefix = "a b" := hname.trans hnormal
  rw [show steps.foldl step o = o' from rfl, hshort] at hagain
  exact ⟨ho, hshort, hstrict, htrimmed, hagain⟩

end ExportOptions
end SchemaScript
