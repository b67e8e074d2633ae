/-!
# SchemaScript.CommandLine.Arguments

The arguments of the command line: options with a value, flags, and the rules on which of them must
and which must not stand together.

Arguments are read from left to right, and the first fault ends the reading, as do the requests for
help and for the version. A short option may have its value attached, and flags may share a dash.
-/

namespace SchemaScript
namespace CommandLine

inductive Setting where
  | model
  | dialect
  | outputDir
  | config
deriving DecidableEq, Repr

inductive Flag where
  | stdout
  | strictReferences
  | validateOnly
  | listDialects
  | verbose
deriving DecidableEq, Repr

inductive Switch where
  | setting (s : Setting)
  | flag (f : Flag)
  | help
  | version
deriving DecidableEq, Repr

def longSwitches : List (String × Switch) := [
  ("model", .setting .model), ("dialect", .setting .dialect),
  ("output-dir", .setting .outputDir), ("config", .setting .config),
  ("stdout", .flag .stdout), ("strict-references", .flag .strictReferences),
  ("validate-only", .flag .validateOnly), ("list-dialects", .flag .listDialects),
  ("verbose", .flag .verbose), ("help", .help), ("version", .version)]

def shortSwitches : List (Char × Switch) := [
  ('m', .setting .model), ('d', .setting .dialect), ('o', .setting .outputDir),
  ('c', .setting .config), ('v', .flag .verbose), ('h', .help), ('V', .version)]

structure Arguments where
  settings : List (Setting × String)
  flags : List Flag
deriving DecidableEq, Repr

namespace Arguments

def empty : Arguments :=
  ⟨[], []⟩

def get? (a : Arguments) (s : Setting) : Option String :=
  a.settings.lookup s

def has (a : Arguments) (f : Flag) : Bool :=
  a.flags.contains f

end Arguments

inductive UsageFault where
  | unknown (argument : String)
  | repeated (argument : String)
  | missingValue (argument : String)
  | emptyValue (argument : String)
  | unexpectedValue (argument : String)
  | conflict
  | required (argument : String)
deriving DecidableEq, Repr

inductive Request where
  | run (a : Arguments)
  | help
  | version
deriving DecidableEq, Repr

/-- Whether an argument begins with a dash and thus is no value of the option before it. -/
def startsWithDash (argument : String) : Bool :=
  match argument.toList with
  | '-' :: _ :: _ => true
  | _ => false

/-- Gives an option its value; paths must not be empty. -/
def Arguments.set (a : Arguments) (argument : String) (s : Setting) (value : String) :
    Except UsageFault Arguments :=
  if (a.get? s).isSome then .error (.repeated argument)
  else if value = "" ∧ (s = .outputDir ∨ s = .config) then .error (.emptyValue argument)
  else .ok { a with settings := (s, value) :: a.settings }

def Arguments.raise (a : Arguments) (argument : String) (f : Flag) :
    Except UsageFault Arguments :=
  if a.has f then .error (.repeated argument) else .ok { a with flags := f :: a.flags }

/-- What remains to be done after the switches of one argument. -/
inductive Pending where
  | nothing (a : Arguments)
  | value (a : Arguments) (s : Setting)
  | request (r : Request)

/-- The switches behind a single dash. -/
def readCluster (argument : String) : Arguments → List Char → Except UsageFault Pending
  | a, [] => .ok (.nothing a)
  | a, c :: rest =>
    match shortSwitches.lookup c with
    | none => .error (.unknown argument)
    | some .help => .ok (.request .help)
    | some .version => .ok (.request .version)
    | some (.flag f) =>
      match a.raise argument f with
      | .error e => .error e
      | .ok a => readCluster argument a rest
    | some (.setting s) =>
      match rest with
      | [] => .ok (.value a s)
      | '=' :: value => (a.set argument s (String.ofList value)).map .nothing
      | value => (a.set argument s (String.ofList value)).map .nothing

/-- The switch behind two dashes. -/
def readLong (argument : String) (a : Arguments) (text : List Char) :
    Except UsageFault Pending :=
  let name := String.ofList (text.takeWhile (· ≠ '='))
  let value := match text.dropWhile (· ≠ '=') with
    | [] => none
    | _ :: rest => some (String.ofList rest)
  match longSwitches.lookup name, value with
  | none, _ => .error (.unknown argument)
  | some (.setting s), some value => (a.set argument s value).map .nothing
  | some (.setting s), none => .ok (.value a s)
  | some _, some _ => .error (.unexpectedValue argument)
  | some (.flag f), none => (a.raise argument f).map .nothing
  | some .help, none => .ok (.request .help)
  | some .version, none => .ok (.request .version)

def readSwitches (a : Arguments) (argument : String) : Except UsageFault Pending :=
  match argument.toList with
  | '-' :: '-' :: text => readLong argument a text
  | '-' :: c :: text => readCluster argument a (c :: text)
  | _ => .error (.unknown argument)

/-- Which options must stand and which must not stand together. -/
def checkTogether (a : Arguments) : Except UsageFault Request :=
  if a.has .stdout ∧ (a.get? .outputDir).isSome then .error .conflict
  else if (a.get? .model).isNone ∧ !a.has .listDialects then .error (.required "--model")
  else if (a.get? .dialect).isNone ∧ !a.has .listDialects ∧ !a.has .validateOnly then
    .error (.required "--dialect")
  else .ok (.run a)

def readFrom : Arguments → List String → Except UsageFault Request
  | a, [] => checkTogether a
  | a, argument :: rest =>
    if argument = "--" then
      match rest with
      | [] => checkTogether a
      | extra :: _ => .error (.unknown extra)
    else
      match readSwitches a argument with
      | .error e => .error e
      | .ok (.request r) => .ok r
      | .ok (.nothing a) => readFrom a rest
      | .ok (.value a s) =>
        match rest with
        | [] => .error (.missingValue argument)
        | value :: rest =>
          if startsWithDash value then .error (.missingValue argument)
          else
            match a.set argument s value with
            | .error e => .error e
            | .ok a => readFrom a rest

/-- What a command line asks for. -/
def read (arguments : List String) : Except UsageFault Request :=
  readFrom .empty arguments

def UsageFault.message : UsageFault → String
  | .unknown argument => "unexpected argument " ++ argument
  | .repeated argument => "the argument " ++ argument ++ " is given more than once"
  | .missingValue argument => "a value is required for " ++ argument
  | .emptyValue argument => "a value is required for " ++ argument
  | .unexpectedValue argument => "no value is expected in " ++ argument
  | .conflict => "--output-dir cannot be used with --stdout"
  | .required argument => "the argument " ++ argument ++ " is required"

end CommandLine
end SchemaScript
