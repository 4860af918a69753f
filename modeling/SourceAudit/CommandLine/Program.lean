import SourceAudit.BuildInfo
import SourceAudit.Check.Catalog
import SourceAudit.CommandLine.Request
import SourceAudit.Report.Json
import SourceAudit.Report.Junit
import SourceAudit.Report.Terminal
import SourceAudit.Settings.Load

/-!
# The program

What the program answers in given surroundings. A run ends in a report, whose exit code tells
whether a check failed; where there can be no report, a message says why and the exit code is two.
-/

namespace SourceAudit

/-- All that an answer depends on. -/
structure Surroundings where
  tree : FileTree
  arguments : List Text
  /-- The value of `SCL_LINT_CONFIG`, if it is set. -/
  configVariable : Option Text
  /-- Colours can be shown and nothing in the environment forbids them. -/
  colorful : Bool
  /-- How many cores the machine has, if that can be told. -/
  cores : Option Nat

/-- The settings that some arguments name. -/
def Surroundings.load (s : Surroundings) (a : Arguments) : Except SettingsError Settings :=
  Settings.loadOrDefault s.tree (Utf8.encode a.directory) (a.config.map Utf8.encode)

/-- The paths that an answer may depend on: settings, coverage summary, and the roots of the
settings that the tree holds. -/
def Surroundings.paths (s : Surroundings) : List Path :=
  match Arguments.ofTexts s.configVariable s.arguments with
  | .error _ => []
  | .ok a =>
    let base := Utf8.encode a.directory
    let files := Path.join base Settings.fileName ::
      (a.config.toList ++ a.action.coverageReport.toList).map Utf8.encode
    match s.load a with
    | .error _ => files
    | .ok settings =>
      files ++ (settings.copyright.roots ++ settings.guards.roots).map (rootPath base)

structure Output where
  exitCode : Nat
  /-- Standard output. -/
  out : Text
  /-- Standard error. -/
  err : Text
deriving DecidableEq

/-- An answer before the clock is read. -/
inductive Answer
  | done (output : Output)
  | report (r : Report) (format : OutputFormat) (style : TerminalStyle)

/-- A report in a format, without the line end behind it. -/
def Report.write (r : Report) (format : OutputFormat) (style : TerminalStyle)
    (timestamp : Timestamp) : Text :=
  match format with
  | .text => r.terminal style timestamp
  | .json => (r.toJson timestamp).pretty
  | .junit => r.junit

/-- The output of an answer that was given at some time and took `elapsed` milliseconds. -/
def Answer.output (timestamp : Timestamp) (elapsed : UInt64) : Answer → Output
  | .done output => output
  | .report r format style =>
    let timed := { r with time := elapsed }
    ⟨r.summary.exitCode, timed.write format style timestamp ++ "\n", []⟩

namespace Program

def succeed (out : Text) : Answer := .done ⟨0, out, []⟩

def failWith (message : Text) : Answer := .done ⟨2, [], message ++ "\n"⟩

/-! ## Texts about the program -/

def catalogEntry (info : CheckInfo) : Text :=
  let margin (t : Text) := "  " ++ Text.padEnd 10 ' ' t ++ " "
  margin info.kind.id ++ info.kind.title ++ "\n" ++ margin [] ++ info.description ++ "\n" ++
    margin [] ++ "input: " ++ info.input ++ "\n\n"

def catalogText : Text := "Available checks:\n\n" ++ checkCatalog.flatMap catalogEntry

def versionText : Text := "scl-lint " ++ BuildInfo.current.version ++ "\n"

def helpLine (mark word : Text) : Text := "  " ++ mark ++ word ++ "\n"

def helpText : Text :=
  "Structural CI checks for the SCL source tree\n\nUsage: scl-lint [OPTIONS] [COMMAND]\n\n" ++
    "Commands:\n" ++ CommandName.all.flatMap (helpLine [] ·.text) ++ helpLine [] "help" ++
    "\nOptions:\n" ++ OptionName.longNames.flatMap (helpLine "--" ·.1) ++
    "\nEXIT CODES:\n    0   All checks passed\n    1   One or more checks failed\n" ++
    "    2   Runtime error\n"

def misuseText : Misuse → Text
  | .unknownArgument => "error: unexpected argument"
  | .unknownCommand => "error: unrecognized command"
  | .repeated => "error: an option cannot be used several times"
  | .missingArgument => "error: a required argument was not given"
  | .invalidValue => "error: a value is missing or not one of the possible values"
  | .notANumber => "error: a value is not a number"
  | .needlessValue => "error: a flag takes no value"

/-! ## Answers -/

def exitEarly : EarlyExit → Answer
  | .help => succeed helpText
  | .version => succeed versionText
  | .misuse cause => failWith (misuseText cause)

def style (s : Surroundings) (a : Arguments) : TerminalStyle where
  color := s.colorful && !a.noColor
  verbose := a.verbose
  quiet := a.quiet

/-- Load the settings, make them a request and run it. -/
def check (s : Surroundings) (a : Arguments) : Answer :=
  match s.load a >>= a.request s.cores with
  | .error e => failWith ("Error: " ++ e.message)
  | .ok request =>
    match request.run s.tree with
    | .error e => failWith ("Error running checks: " ++ e.message)
    | .ok report => .report report a.format (style s a)

def answer (s : Surroundings) : Answer :=
  match Arguments.ofTexts s.configVariable s.arguments with
  | .error early => exitEarly early
  | .ok a =>
    match a.action with
    | .version => succeed (BuildInfo.current.text ++ "\n")
    | .list => succeed catalogText
    | _ => check s a

end Program

end SourceAudit
