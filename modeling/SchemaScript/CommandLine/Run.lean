import SchemaScript.CommandLine.Arguments
import SchemaScript.Delivery.Disk
import SchemaScript.Export.Service
import SchemaScript.Export.Toml
import SchemaScript.Model.Document

/-!
# SchemaScript.CommandLine.Run

Runs of the program: what is read, in which order faults are looked for, and what is printed.

A host gives access to files, to the standard input and to a directory for the artifact. The options
file is read first, then the dialect is looked at, then the model is read; so of two faults the
earlier one in this order is told.
-/

namespace SchemaScript
namespace CommandLine

/-- What a run needs from outside. Reading gives a text or the reason why there is none. -/
structure Host (m : Type → Type) where
  readFile : String → m (Except String String)
  readInput : m (Except String String)
  /-- Delivers into the directory with the given path. -/
  deliver : String → Parcel → m (Except DeliveryError Receipt)
  today : Date

inductive Failure where
  | unreadable (path reason : String)
  | invalidArgument (reason : String)
  | model (reason : String)
  | config (path reason : String)
  | export (error : ExportError)
deriving DecidableEq, Repr

namespace Failure

def message : Failure → String
  | .unreadable path reason => "Failed to read " ++ path ++ ": " ++ reason
  | .invalidArgument reason => "Invalid argument: " ++ reason
  | .model reason => "Invalid model: " ++ reason
  | .config path reason => "Invalid configuration " ++ path ++ ": " ++ reason
  | .export error => error.message

/-- What is said about the cause, for failures that have one. -/
def cause? : Failure → Option String
  | .model reason => some reason
  | .export error => error.cause?
  | _ => none

/-- One for artifacts that could not be made or delivered, two for everything else. -/
def exitCode : Failure → Nat
  | .export (.generationFailed _ _) => 1
  | .export (.delivery _) => 1
  | _ => 2

end Failure

/-- How a run ends. -/
inductive Ending where
  | printed (text : String)
  | failed (failure : Failure)
  | misused (fault : UsageFault)
deriving DecidableEq, Repr

structure Outcome where
  ending : Ending
  log : List LogEvent

def Ending.exitCode : Ending → Nat
  | .printed _ => 0
  | .failed failure => failure.exitCode
  | .misused _ => 2

/-! ## What is printed -/

def versionText : String :=
  "schema-export 0.3.0\n"

def helpText : String :=
  "Export entity-relationship models to database schema scripts\n\n" ++
  "Usage: schema-export [OPTIONS]\n\n" ++
  "Options:\n" ++
  "  -m, --model <MODEL>            Model file, or - for JSON from the standard input\n" ++
  "  -d, --dialect <DIALECT>        Target dialect\n" ++
  "  -o, --output-dir <OUTPUT_DIR>  Directory receiving the generated file\n" ++
  "      --stdout                   Print the script instead of writing a file\n" ++
  "      --strict-references        Fail on references to tables that are not exported\n" ++
  "  -c, --config <CONFIG>          Export options file (TOML)\n" ++
  "      --validate-only            Only print model diagnostics\n" ++
  "      --list-dialects            List the supported dialects and exit\n" ++
  "  -v, --verbose                  Enable debug logging\n" ++
  "  -h, --help                     Print help\n" ++
  "  -V, --version                  Print version\n"

/-- A text with blanks behind it up to the given width. -/
def padRight (width : Nat) (s : String) : String :=
  s ++ String.ofList (List.replicate (width - s.length) ' ')

/-- One line for each dialect: its name, a selector for it, and the extension of its files. -/
def dialectList (dialects : List Dialect) : String :=
  "Supported dialects:\n" ++ String.join (dialects.map fun d =>
    "  " ++ padRight 12 d.name ++ " " ++
      padRight 12 (String.ofList ((Text.lowerChars d.name.toList).filter (· ≠ ' '))) ++ " " ++
      d.fileExtension ++ "\n")

def reportText (r : Review.Report) : String :=
  match r.warnings with
  | [] => "✅ Model is valid\n"
  | warnings =>
    "⚠️  " ++ toString warnings.length ++ " finding(s):\n" ++
      String.join (warnings.map fun warning => "  - " ++ warning ++ "\n")

def summary (d : Dialect) (r : Receipt) : String :=
  "✅ Exported " ++ d.name ++ " schema to " ++ r.location ++ " (" ++ toString r.bytes ++
    " bytes, " ++ r.mimeType ++ ")\n"

/-! ## Steps -/

variable {m : Type → Type} [Monad m]

/-- The model in a text that came from the given path. -/
def parseModel (path text : String) : Except Failure Model :=
  match Model.ofFile path text with
  | .error fault => .error (.model (fault.message text))
  | .ok model => .ok model

def loadModel (h : Host m) (path : String) : m (Except Failure Model) := do
  if path = "-" then
    match ← h.readInput with
    | .error reason => pure (.error (.invalidArgument ("Failed to read stdin: " ++ reason)))
    | .ok text => pure (parseModel path text)
  else
    match ← h.readFile path with
    | .error reason => pure (.error (.unreadable path reason))
    | .ok text => pure (parseModel path text)

/-- The options in a file, or the default ones. -/
def loadOptions (h : Host m) (path : Option String) : m (Except Failure ExportOptions) := do
  match path with
  | none => pure (.ok .standard)
  | some path =>
    match ← h.readFile path with
    | .error reason => pure (.error (.unreadable path reason))
    | .ok text =>
      match ExportOptions.ofToml? text with
      | none => pure (.error (.config path "not a document of options"))
      | some options => pure (.ok options)

def fail (f : Failure) : Outcome :=
  ⟨.failed f, []⟩

/-- Tells the findings about a model. -/
def runReview (h : Host m) (path : String) : m Outcome := do
  match ← loadModel h path with
  | .error f => pure (fail f)
  | .ok model => pure ⟨.printed (reportText (Review.reportOn model.tables)), []⟩

/-- Exports a model and prints the script. -/
def printScript (h : Host m) (o : ExportOptions) (model : Model) (selector : String) : Outcome :=
  match o.exportTo model.tables selector h.today with
  | ⟨.error e, log⟩ => ⟨.failed (.export e), log⟩
  | ⟨.ok artifact, log⟩ => ⟨.printed artifact.content, log⟩

/-- Exports a model into a directory and prints where the script went. -/
def writeScript (h : Host m) (o : ExportOptions) (model : Model) (selector directory : String) :
    m Outcome := do
  match ← o.exportAndDeliver model.tables selector h.today (h.deliver directory) with
  | ⟨.error e, log⟩ => pure ⟨.failed (.export e), log⟩
  | ⟨.ok (artifact, receipt), log⟩ => pure ⟨.printed (summary artifact.dialect receipt), log⟩

def unknownDialect (selector : String) : Failure :=
  .invalidArgument ("Unknown dialect: " ++ selector ++ " (see --list-dialects)")

def runExport (h : Host m) (a : Arguments) (path selector : String) : m Outcome := do
  match ← loadOptions h (a.get? .config) with
  | .error f => pure (fail f)
  | .ok options =>
    let options := if a.has .strictReferences then options.withStrictReferences true else options
    if (Dialect.parse? selector).isNone then pure (fail (unknownDialect selector))
    else
      match ← loadModel h path with
      | .error f => pure (fail f)
      | .ok model =>
        if a.has .stdout then pure (printScript h options model selector)
        else writeScript h options model selector ((a.get? .outputDir).getD ".")

def missing (argument : String) : Failure :=
  .invalidArgument (argument ++ " is required")

def runArguments (h : Host m) (a : Arguments) : m Outcome :=
  if a.has .listDialects then pure ⟨.printed (dialectList Dialect.all), []⟩
  else
    match a.get? .model with
    | none => pure (fail (missing "--model"))
    | some path =>
      if a.has .validateOnly then runReview h path
      else
        match a.get? .dialect with
        | none => pure (fail (missing "--dialect"))
        | some selector => runExport h a path selector

/-- The run for a command line. -/
def run (h : Host m) (arguments : List String) : m Outcome :=
  match read arguments with
  | .error fault => pure ⟨.misused fault, []⟩
  | .ok .help => pure ⟨.printed helpText, []⟩
  | .ok .version => pure ⟨.printed versionText, []⟩
  | .ok (.run a) => runArguments h a

/-! ## Runs on a disk -/

/-- The host whose files are those of a disk and whose standard input is given. -/
def Host.onDisk (start : String) (input : FileContent) (today : Date) : Host (StateM Disk) where
  readFile path := fun d =>
    match d.readText path with
    | .ok text => (.ok text, d)
    | .error f => (.error f.text, d)
  readInput := fun d =>
    match input with
    | some text => (.ok text, d)
    | none => (.error FileFault.notText.text, d)
  deliver directory := Disk.deliver ⟨start, directory, directory⟩
  today := today

end CommandLine
end SchemaScript
