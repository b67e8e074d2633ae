import SchemaScript.CommandLine.Run
import Std.Time.DateTime.Timestamp

/-!
# SchemaScript.Main

The program: the host of the machine that it runs on, and what goes to which stream.
-/

namespace SchemaScript
namespace CommandLine

/-- The number of a fault of the operating system, whose sign may be turned. -/
def systemCode (code : UInt32) : Nat :=
  if code.toNat < Nat.pow 2 31 then code.toNat else Nat.pow 2 32 - code.toNat

def systemFault? (code : Nat) : Option FileFault :=
  [(2, FileFault.notFound), (17, .exists), (20, .notDirectory), (21, .isDirectory),
    (36, .nameTooLong)].lookup code

/-- Why an operation failed. -/
def systemReason (e : IO.Error) : String :=
  let reason (code : UInt32) (details : String) : String :=
    match systemFault? (systemCode code) with
    | some f => f.text
    | none => details ++ " (os error " ++ toString (systemCode code) ++ ")"
  match e with
  | .alreadyExists _ code details => reason code details
  | .noFileOrDirectory _ code details => reason code details
  | .invalidArgument _ code details => reason code details
  | .permissionDenied _ code details => reason code details
  | .resourceExhausted _ code details => reason code details
  | .inappropriateType _ code details => reason code details
  | .noSuchThing _ code details => reason code details
  | .interrupted _ code details => reason code details
  | .otherError code details => reason code details
  | e => toString e

/-- The text that an operation reads, or the reason why there is none. -/
def readText (bytes : IO ByteArray) : IO (Except String String) := do
  try
    match String.fromUTF8? (← bytes) with
    | some text => return .ok text
    | none => return .error FileFault.notText.text
  catch e => return .error (systemReason e)

/-- Runs a step of a delivery. -/
def deliveryStep {α : Type} (what : String) (step : IO α) : ExceptT DeliveryError IO α := do
  match ← step.toBaseIO with
  | .ok a => return a
  | .error e => throw (.io (what ++ ": " ++ systemReason e))

/-- Writes a parcel into a directory, which is made if it is missing. -/
def deliverTo (directory : String) (p : Parcel) : ExceptT DeliveryError IO Receipt := do
  match checkFilename p.filename with
  | .error f => throw f.toError
  | .ok _ =>
    deliveryStep ("Failed to create directory " ++ directory) (IO.FS.createDirAll directory)
    let place ← deliveryStep ("Failed to resolve directory " ++ directory)
      (IO.FS.realPath directory)
    let path := Path.join place.toString p.filename
    if !Path.isDirectlyIn place.toString path then throw (NameFault.escape p.filename).toError
    deliveryStep ("Failed to write file " ++ p.filename) (IO.FS.writeFile path p.content)
    return p.receipt path

def Host.onMachine (today : Date) : Host IO where
  readFile path := readText (IO.FS.readBinFile path)
  readInput := do readText (← IO.getStdin).readBinToEnd
  deliver directory p := (deliverTo directory p).run
  today := today

/-- Today's date in universal time. -/
def today : IO Date := do
  let now ← Std.Time.Timestamp.now
  return Date.ofSeconds now.toSecondsSinceUnixEpoch.val.toNat

/-- Whether the log is shown in full. -/
def isVerbose (arguments : List String) : Bool :=
  match read arguments with
  | .ok (.run a) => a.has .verbose
  | _ => false

/-- Shows the log, in which only findings are of interest to everybody. -/
def showLog (verbose : Bool) (log : List LogEvent) : IO Unit :=
  log.forM fun e => do
    if verbose || e.level = "WARN" then IO.eprintln (e.level ++ " " ++ e.text)

def showEnding : Ending → IO Unit
  | .printed text => IO.print text
  | .failed failure => IO.eprintln ("Error: " ++ failure.message)
  | .misused fault => IO.eprintln ("error: " ++ fault.message)

end CommandLine
end SchemaScript

open SchemaScript CommandLine in
def main (arguments : List String) : IO UInt32 := do
  let outcome ← run (Host.onMachine (← today)) arguments
  showLog (isVerbose arguments) outcome.log
  showEnding outcome.ending
  return outcome.ending.exitCode.toUInt32
