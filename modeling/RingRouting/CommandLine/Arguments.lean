import RingRouting.Policy

/-!
# Arguments

The command line is `[options] command [options]`. An option is written `--name value` or
`--name=value`; `--` ends the options. A value that stands alone is kept until the next option or
the end and taken only then, so of two faults the one that is met first while reading counts, and a
value that is refused counts after an argument that nobody knows. What goes before the command is
checked after what follows it.
-/

namespace RingRouting.CommandLine

/-- Why the arguments are not a task. -/
inductive UsageFault where
  /-- Help was asked for. -/
  | helpWanted
  /-- The version was asked for. -/
  | versionWanted
  | nothingGiven
  | commandMissing
  | commandUnknown (name : String)
  | argumentUnknown (argument : String)
  | argumentRepeated (name : String)
  | argumentsMissing (names : List String)
  | valueMissing (name : String)
  | valueInvalid (name value : String)
  /-- A value was attached to an argument that takes none. -/
  | valueUnwanted (argument : String)
deriving DecidableEq, Repr

/-- The options that take a value. -/
inductive OptionName where
  | logLevel
  | replicationFactor
  | spread
  | nodes
  | service
  | tag
  | key
deriving DecidableEq, Repr

namespace OptionName

/-- How an option is written after the two dashes. -/
def text : OptionName → String
  | .logLevel => "log-level"
  | .replicationFactor => "replication-factor"
  | .spread => "spread"
  | .nodes => "nodes"
  | .service => "service"
  | .tag => "tag"
  | .key => "key"

end OptionName

/-- Where on the command line an option stands. -/
inductive Place where
  /-- Before the command. -/
  | front
  | serviceConfig
  | route
deriving DecidableEq, Repr

namespace Place

/-- The options that are known in a place. -/
def options : Place → List OptionName
  | .front => [.logLevel]
  | .serviceConfig => [.logLevel, .replicationFactor, .spread]
  | .route => [.logLevel, .nodes, .service, .tag, .key, .replicationFactor, .spread]

/-- The option of that name, if it is known in a place. -/
def option? (p : Place) (name : String) : Option OptionName :=
  p.options.find? (·.text == name)

/-- The options that must be given after a command. -/
def required : Place → List OptionName
  | .front | .serviceConfig => []
  | .route => [.nodes, .service, .key]

/-- The place after the command of that name. -/
def ofCommand? : String → Option Place
  | "service-config" => some .serviceConfig
  | "route" => some .route
  | _ => none

end Place

/-- The command that shows help. -/
def helpCommand : String := "help"

/-- The options that were read in one place, in their order. -/
abbrev Given := List (OptionName × String)

namespace Given

/-- The values of an option. -/
def values (g : Given) (o : OptionName) : List String :=
  (g.filter (·.1 == o)).map (·.2)

/-- The value of an option that is given once. -/
def value? (g : Given) (o : OptionName) : Option String :=
  (g.values o).head?

end Given

/-- The integer that a text is in decimal, with or without a sign, if it is a natural number of at
most `limit`. -/
def readNatural? (limit : Nat) (text : String) : Option Nat :=
  let (negative, digits) := match text.toList with
    | '-' :: rest => (true, rest)
    | '+' :: rest => (false, rest)
    | digits => (false, digits)
  if digits.isEmpty || !digits.all Char.isDigit then none
  else
    let n := Nat.ofDigitChars 10 digits 0
    if limit < n || negative && 0 < n then none else some n

/-- Whether an option takes a value, and if not, why. -/
def refusal? (o : OptionName) (value : String) : Option UsageFault :=
  match o with
  | .replicationFactor =>
    if (readNatural? 65535 value).isNone then some (.valueInvalid o.text value) else none
  | .spread => if (readNatural? 255 value).isNone then some (.valueInvalid o.text value) else none
  | .nodes => if value.isEmpty then some (.valueMissing o.text) else none
  | .logLevel | .service | .tag | .key => none

/-- The option may be given more than once. -/
def isRepeatable : OptionName → Bool
  | .tag | .key => true
  | _ => false

/-- Take an option and its value. -/
def take (g : Given) (o : OptionName) (value : String) : Except UsageFault Given :=
  if !isRepeatable o && (g.value? o).isSome then .error (.argumentRepeated o.text)
  else match refusal? o value with
    | some fault => .error fault
    | none => .ok (g ++ [(o, value)])

/-- How far the reading of one place has come. -/
structure Reading where
  given : Given := []
  /-- The last option, as long as it is not taken, and its value if that has come. -/
  waiting : Option (OptionName × Option String) := none
  /-- The options have ended. -/
  ended : Bool := false

namespace Reading

/-- Take the option that waits. -/
def flush (r : Reading) : Except UsageFault Given :=
  match r.waiting with
  | none => .ok r.given
  | some (o, none) => .error (.valueMissing o.text)
  | some (o, some value) => take r.given o value

/-- The option that waits for its value. -/
def open? (r : Reading) : Option OptionName :=
  match r.waiting with
  | some (o, none) => some o
  | _ => none

end Reading

/-- An argument as it is written. -/
inductive Written where
  /-- The end of the options. -/
  | dashes
  /-- `--name` or `--name=value`. -/
  | long (name : String) (value : Option String)
  /-- `-` and at least one more character. -/
  | short (first : Char)
  | plain

/-- How an argument is written. -/
def written (argument : String) : Written :=
  match argument.toList with
  | ['-', '-'] => .dashes
  | '-' :: '-' :: rest =>
    let name := String.ofList (rest.takeWhile (· ≠ '='))
    match rest.dropWhile (· ≠ '=') with
    | _ :: value => .long name (some (String.ofList value))
    | [] => .long name none
  | '-' :: c :: _ => .short c
  | _ => .plain

/-- The fault of an argument that is neither an option nor a value. -/
def strayFault (p : Place) (ended : Bool) (argument : String) : UsageFault :=
  let isCommand := argument == helpCommand || (Place.ofCommand? argument).isSome
  if p = .front ∧ !(ended && isCommand) then .commandUnknown argument
  else .argumentUnknown argument

/-- The fault of asking for help on a path of commands. -/
def helpFault : List String → UsageFault
  | [] => .helpWanted
  | name :: rest =>
    if name == helpCommand || (Place.ofCommand? name).isSome then
      match rest with
      | [] => .helpWanted
      | next :: _ => .commandUnknown next
    else .commandUnknown name

/-- What a flag asks for, in a place where it is known. -/
def flagFault? (p : Place) : Written → Option UsageFault
  | .long "help" _ => some .helpWanted
  | .long "version" _ => if p = .front then some .versionWanted else none
  | .short 'h' => some .helpWanted
  | .short 'V' => if p = .front then some .versionWanted else none
  | _ => none

/-- A flag or an option takes effect only after what waits before it. -/
def readOption (p : Place) (r : Reading) (argument : String) (w : Written) :
    Except UsageFault Reading := do
  match flagFault? p w with
  | some fault =>
    match w with
    | .long _ (some _) => throw (.valueUnwanted argument)
    | _ =>
      let _ ← r.flush
      throw fault
  | none =>
    match w with
    | .long name value =>
      match p.option? name, value with
      | none, _ => throw (.argumentUnknown argument)
      | some o, none => return { r with given := ← r.flush, waiting := some (o, none) }
      | some o, some value =>
        return { r with given := ← take (← r.flush) o value, waiting := none }
    | _ => throw (.argumentUnknown argument)

/-- Read the arguments of one place, up to a command if it is the front. -/
def read (p : Place) (r : Reading) : List String →
    Except UsageFault (Reading × Option (Place × List String))
  | [] => .ok (r, none)
  | argument :: rest =>
    if r.ended then .error (strayFault p true argument)
    else
      let command := if p = .front ∧ r.open?.isNone then Place.ofCommand? argument else none
      if p = .front ∧ r.open?.isNone ∧ argument = helpCommand then .error (helpFault rest)
      else match command with
        | some place => .ok (r, some (place, rest))
        | none =>
          match written argument with
          | .dashes => read p { r with ended := true } rest
          | .plain =>
            match r.open? with
            | some o => read p { r with waiting := some (o, some argument) } rest
            | none => .error (strayFault p false argument)
          | w =>
            match readOption p r argument w with
            | .error fault => .error fault
            | .ok next => read p next rest

/-- What the program is to do. -/
inductive Task where
  | serviceConfig (policy : Policy)
  /-- Route keys over the nodes of a service that a file lists. -/
  | route (nodes service : String) (tags keys : List String) (policy : Policy)
deriving DecidableEq, Repr

/-- A task and the log filter that goes with it. -/
structure Invocation where
  logLevel : Option String
  task : Task
deriving DecidableEq, Repr

/-- The policy that the options give, with defaults for what is missing. -/
def policyOf (g : Given) : Policy where
  factor := (((g.value? .replicationFactor).bind (readNatural? 65535)).map Nat.toUInt16).getD
    Ring.defaultFactor
  spread := (((g.value? .spread).bind (readNatural? 255)).map Nat.toUInt8).getD Policy.defaultSpread

/-- The task that options after a command give. -/
def taskOf (p : Place) (g : Given) : Except UsageFault Task :=
  let missing := p.required.filter fun o => (g.value? o).isNone
  if missing ≠ [] then .error (.argumentsMissing (missing.map OptionName.text))
  else match p, g.value? .nodes, g.value? .service with
    | .route, some nodes, some service =>
      .ok (.route nodes service (g.values .tag) (g.values .key) (policyOf g))
    | _, _, _ => .ok (.serviceConfig (policyOf g))

/-- What arguments ask for. A log filter after the command counts more than one before it. -/
def parse (arguments : List String) : Except UsageFault Invocation := do
  match ← read .front {} arguments with
  | (front, none) =>
    throw (if (← front.flush) = [] then .nothingGiven else .commandMissing)
  | (front, some (place, rest)) =>
    let (reading, _) ← read place {} rest
    let given ← reading.flush
    let task ← taskOf place given
    let before ← front.flush
    return { logLevel := (given.value? .logLevel).or (before.value? .logLevel), task }

end RingRouting.CommandLine
