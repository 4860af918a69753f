import SourceAudit.Check.Coverage

/-!
# Options of the command line

The commands, the options with their names, and where each of them may stand: an option belongs to
every level, except that only the program itself has a version and only `check` a coverage summary.
-/

namespace SourceAudit

/-! ## Algorithm -/

inductive CommandName
  | check
  | headers
  | guards
  | coverage
  | list
  | version
deriving DecidableEq

def CommandName.text : CommandName → Text
  | .check => "check"
  | .headers => "headers"
  | .guards => "guards"
  | .coverage => "coverage"
  | .list => "list"
  | .version => "version"

def CommandName.all : List CommandName := [.check, .headers, .guards, .coverage, .list, .version]

/-- A word that ends the options of the program itself. -/
inductive Keyword
  | command (name : CommandName)
  | help
deriving DecidableEq

def Keyword.ofText? (t : Text) : Option Keyword :=
  if t = "help" then some .help
  else (CommandName.all.find? (·.text = t)).map .command

/-- Before the command, or behind it. -/
inductive Level
  | program
  | command (name : CommandName)
deriving DecidableEq

inductive OutputFormat
  | text
  | json
  | junit
deriving DecidableEq

def OutputFormat.ofName? (t : Text) : Option OutputFormat :=
  if t = "text" then some .text
  else if t = "json" then some .json
  else if t = "junit" then some .junit
  else none

/-- An option that takes a value. -/
inductive ValueOption
  | directory
  | config
  | format
  | jobs
  | mode
  | lineThreshold
  | functionThreshold
  | coverage
deriving DecidableEq

inductive Flag
  | quiet
  | verbose
  | noColor
  | parallel
  | failFast
deriving DecidableEq

inductive OptionName
  | value (o : ValueOption)
  | flag (f : Flag)
  | help
  | version
deriving DecidableEq

namespace OptionName

def longNames : List (Text × OptionName) := [
  ("dir", .value .directory),
  ("config", .value .config),
  ("format", .value .format),
  ("jobs", .value .jobs),
  ("mode", .value .mode),
  ("line-threshold", .value .lineThreshold),
  ("function-threshold", .value .functionThreshold),
  ("coverage", .value .coverage),
  ("quiet", .flag .quiet),
  ("verbose", .flag .verbose),
  ("no-color", .flag .noColor),
  ("parallel", .flag .parallel),
  ("fail-fast", .flag .failFast),
  ("help", .help),
  ("version", .version)]

def shortNames : List (Char × OptionName) := [
  ('C', .value .directory),
  ('q', .flag .quiet),
  ('v', .flag .verbose),
  ('h', .help),
  ('V', .version)]

def allowedAt (level : Level) : OptionName → Bool
  | .value .coverage => level = .command .check
  | .version => level = .program
  | _ => true

def ofLong? (level : Level) (name : Text) : Option OptionName :=
  (longNames.lookup name).filter (allowedAt level)

def ofShort? (level : Level) (letter : Char) : Option OptionName :=
  (shortNames.lookup letter).filter (allowedAt level)

end OptionName

/-- The form of one argument. -/
inductive Token
  | separator
  | long (name : Text) (value : Option Text)
  | cluster (letters : Text)
  | plain (t : Text)
deriving DecidableEq

/-- Two dashes begin a long option, which may carry its value behind `=`; one dash begins options
of one letter. Two dashes alone separate, and one alone is a text like any other. -/
def Token.ofText : Text → Token
  | ['-', '-'] => .separator
  | '-' :: '-' :: rest =>
    .long (rest.takeWhile (· != '='))
      (match rest.dropWhile (· != '=') with
      | _ :: value => some value
      | [] => none)
  | '-' :: c :: rest => .cluster (c :: rest)
  | t => .plain t

/-! ## Lemmas -/

@[simp] theorem Keyword.ofText?_text (name : CommandName) :
    Keyword.ofText? name.text = some (.command name) := by
  cases name <;> decide

end SourceAudit
