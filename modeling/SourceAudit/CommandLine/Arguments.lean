import SourceAudit.CommandLine.Given

/-!
# Arguments

A command line is read at two levels, in front of the command and behind it. The value of an option
is looked at only when the next option, argument or level end comes, so a later argument that has
no place at all is the first thing to be noticed. The settings file may also be named by a
variable, which counts at every level that does not name one.
-/

namespace SourceAudit

inductive Command
  | check (coverage : Option Text)
  | headers
  | guards
  | coverage (report : Text)
  | list
  | version
deriving DecidableEq

structure Arguments where
  command : Option Command
  directory : Text
  config : Option Text
  format : OutputFormat
  quiet : Bool
  verbose : Bool
  noColor : Bool
  parallel : Bool
  jobs : Option Nat
  failFast : Bool
  mode : Option ThresholdMode
  lineThreshold : Option Binary64
  functionThreshold : Option Binary64
deriving DecidableEq

/-- Why there are no arguments to work with. -/
inductive EarlyExit
  | help
  | version
  | misuse (cause : Misuse)
deriving DecidableEq

def EarlyExit.exitCode : EarlyExit → Nat
  | .misuse _ => 2
  | _ => 0

/-- A level as far as it has been read. -/
structure Reading where
  given : Given := {}
  /-- What the last value is for. The value itself may still be missing. -/
  pending : Option (Slot × Option Text) := none
  /-- Past the separator nothing is an option. -/
  separated : Bool := false

namespace Reading

/-- Raise a misuse to the end of the whole line. -/
def orExit {α : Type} : Except Misuse α → Except EarlyExit α := Except.mapError .misuse

/-- Look at the pending value. -/
def settle (r : Reading) : Except EarlyExit Reading :=
  match r.pending with
  | none => .ok r
  | some (_, none) => .error (.misuse .invalidValue)
  | some (slot, some t) => do
    return { r with given := ← orExit (r.given.set slot t), pending := none }

/-- Is the next argument the value of an option? -/
def isAwaiting (r : Reading) : Bool :=
  match r.pending with
  | some (_, none) => true
  | _ => false

/-- An option with its value. -/
def assign (r : Reading) (o : ValueOption) (t : Text) : Except EarlyExit Reading := do
  let r ← r.settle
  return { r with given := ← orExit (r.given.set (.option o) t) }

/-- An option without a value, or with a value that comes next. -/
def switch (r : Reading) (name : OptionName) : Except EarlyExit Reading := do
  let r ← r.settle
  match name with
  | .flag f => return { r with given := ← orExit (r.given.raise f) }
  | .value o => return { r with pending := some (.option o, none) }
  | .help => .error .help
  | .version => .error .version

def long (level : Level) (r : Reading) (name : Text) (value : Option Text) :
    Except EarlyExit Reading :=
  match OptionName.ofLong? level name, value with
  | none, _ => .error (.misuse .unknownArgument)
  | some (.value o), some t => r.assign o t
  | some _, some _ => .error (.misuse .needlessValue)
  | some name, none => r.switch name

/-- Options of one letter. The first that takes a value takes the rest, without `=` in front. -/
def cluster (level : Level) : Reading → Text → Except EarlyExit Reading
  | r, [] => .ok r
  | r, c :: rest =>
    match OptionName.ofShort? level c, rest with
    | none, _ => .error (.misuse .unknownArgument)
    | some (.value o), '=' :: t => r.assign o t
    | some (.value o), d :: t => r.assign o (d :: t)
    | some name, rest => r.switch name >>= (cluster level · rest)

def hasReport (r : Reading) : Bool :=
  r.given.report.isSome || r.pending.any (·.1 = .report)

/-- A text that is no option and no value of one. Only `coverage` has a place for it, and only for
one; in front of a command it should have been a command. -/
def positional (level : Level) (r : Reading) (t : Text) : Except EarlyExit Reading :=
  match level with
  | .command .coverage =>
    if r.hasReport then .error (.misuse .unknownArgument)
    else do return { (← r.settle) with pending := some (.report, some t) }
  | .command _ => .error (.misuse .unknownArgument)
  | .program =>
    if r.separated && (Keyword.ofText? t).isSome then .error (.misuse .unknownArgument)
    else .error (.misuse .unknownCommand)

/-- One argument that is no keyword. -/
def step (level : Level) (r : Reading) (t : Text) : Except EarlyExit Reading :=
  if r.separated then r.positional level t
  else
    match Token.ofText t with
    | .separator => .ok { r with separated := true }
    | .long name value => r.long level name value
    | .cluster letters => r.cluster level letters
    | .plain t =>
      match r.pending with
      | some (slot, none) => .ok { r with pending := some (slot, some t) }
      | _ => r.positional level t

/-- The keyword that an argument is, where one may stand. -/
def keyword? (level : Level) (r : Reading) (t : Text) : Option Keyword :=
  if level = .program ∧ r.separated = false ∧ r.isAwaiting = false then Keyword.ofText? t
  else none

/-- Help is given on the program or on one command. -/
def helpExit : List Text → EarlyExit
  | [] => .help
  | [t] => if (Keyword.ofText? t).isSome then .help else .misuse .unknownCommand
  | _ => .misuse .unknownCommand

/-- Read a level up to its end or to a command, whose arguments are the rest. -/
def level (here : Level) : Reading → List Text →
    Except EarlyExit (Reading × Option (CommandName × List Text))
  | r, [] => .ok (r, none)
  | r, t :: rest =>
    match r.keyword? here t with
    | some (.command name) => .ok (r, some (name, rest))
    | some .help => .error (helpExit rest)
    | none => r.step here t >>= (level here · rest)

/-- What a level gives in the end. The variable must not be empty if the level needs it. -/
def close (configVariable : Option Text) (r : Reading) : Except EarlyExit Given := do
  let r ← r.settle
  if r.given.config = none ∧ configVariable = some [] then .error (.misuse .invalidValue)
  else return r.given

end Reading

/-- A command with the arguments that are its own. -/
def Command.ofGiven (name : CommandName) (g : Given) : Except EarlyExit Command :=
  match name with
  | .check => .ok (.check g.coverage)
  | .headers => .ok .headers
  | .guards => .ok .guards
  | .coverage =>
    match g.report with
    | some report => .ok (.coverage report)
    | none => .error (.misuse .missingArgument)
  | .list => .ok .list
  | .version => .ok .version

namespace Arguments

def ofGiven (command : Option Command) (configVariable : Option Text) (g : Given) : Arguments where
  command := command
  directory := g.directory.getD "."
  config := g.config.or configVariable
  format := g.format.getD .text
  quiet := g.quiet
  verbose := g.verbose
  noColor := g.noColor
  parallel := g.parallel
  jobs := g.jobs
  failFast := g.failFast
  mode := g.mode
  lineThreshold := g.lineThreshold
  functionThreshold := g.functionThreshold

/-- The arguments that texts are, with the value of the variable if it is set. -/
def ofTexts (configVariable : Option Text) (texts : List Text) : Except EarlyExit Arguments := do
  let (outer, entered) ← Reading.level .program {} texts
  match entered with
  | none => return ofGiven none configVariable (← outer.close configVariable)
  | some (name, rest) =>
    let (inner, _) ← Reading.level (.command name) {} rest
    let inner ← inner.close configVariable
    let command ← Command.ofGiven name inner
    let outer ← outer.close configVariable
    return ofGiven (some command) configVariable (inner.orElse outer)

/-- Without a command the program checks, and looks at no coverage. -/
def action (a : Arguments) : Command := a.command.getD (.check none)

end Arguments

end SourceAudit
