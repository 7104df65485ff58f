import RingRouting.CommandLine.LogFilter
import RingRouting.CommandLine.Task

/-!
# The program

From the arguments to what is printed and the code at exit: 0 if all went well, 1 if the task
failed, and 2 if the arguments are no task. The log filter is looked at before the task runs.
-/

namespace RingRouting.CommandLine

/-- The name of the program. -/
def programName : String := "ringlb"

/-- The version of the program. -/
def programVersion : String := "0.1.0"

/-- How to use the program. -/
def usage : String :=
  "Consistent-hash client-side load balancing toolkit

Usage: ringlb [--log-level <LOG_LEVEL>] <COMMAND>

Commands:
  service-config  Print the service config selecting the consistent-hashring policy
                  [--replication-factor <N>] [--spread <N>]
  route           Route keys over the nodes of a service read from a JSON file
                  --nodes <FILE> --service <NAME> --key <KEY>... [--tag <TAG>]...
                  [--replication-factor <N>] [--spread <N>]
  help            Print this message
"

/-- The text of a fault of the arguments. -/
def UsageFault.message : UsageFault → String
  | .helpWanted | .nothingGiven => usage
  | .versionWanted => s!"{programName} {programVersion}\n"
  | .commandMissing => "error: a command is required\n"
  | .commandUnknown name => s!"error: unrecognized command {Text.quote name}\n"
  | .argumentUnknown argument => s!"error: unexpected argument {Text.quote argument}\n"
  | .argumentRepeated name => s!"error: --{name} cannot be used multiple times\n"
  | .argumentsMissing names =>
    "error: required arguments were not provided: " ++
      ", ".intercalate (names.map ("--" ++ ·)) ++ "\n"
  | .valueMissing name => s!"error: a value is required for --{name}\n"
  | .valueInvalid name value => s!"error: invalid value {Text.quote value} for --{name}\n"
  | .valueUnwanted argument => s!"error: unexpected value in {Text.quote argument}\n"

/-- How the program ends. -/
structure Exit where
  code : UInt8
  stdout : String := ""
  stderr : String := ""
deriving DecidableEq, Repr

/-- How the program ends when the arguments are no task. -/
def UsageFault.exit (fault : UsageFault) : Exit :=
  match fault with
  | .helpWanted | .versionWanted => { code := 0, stdout := fault.message }
  | _ => { code := 2, stderr := fault.message }

/-- How the program ends when its task fails. -/
def TaskError.exit (e : TaskError) : Exit :=
  { code := 1, stderr := s!"Error: {e.message}\n" }

/-- Do what an invocation asks for. -/
def Invocation.run (s : Surroundings) (i : Invocation) : Except TaskError (List String) :=
  match i.logLevel with
  | some level => if LogFilter.isValid level then i.task.run s else .error (.invalidLogLevel level)
  | none => i.task.run s

/-- Run the program. -/
def run (s : Surroundings) (arguments : List String) : Exit :=
  match parse arguments with
  | .error fault => fault.exit
  | .ok invocation =>
    match invocation.run s with
    | .error e => e.exit
    | .ok lines => { code := 0, stdout := String.join (lines.map (· ++ "\n")) }

end RingRouting.CommandLine
