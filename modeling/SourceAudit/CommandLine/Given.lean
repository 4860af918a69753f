import SourceAudit.CommandLine.Options

/-!
# What a command line gives

The values of the options given at one level, each at most once. What is given behind the command
goes before what is given in front of it.

    (f.orElse g).orElse h = f.orElse (g.orElse h)                               (orElse_assoc)
-/

namespace SourceAudit

/-! ## Algorithm -/

/-- What is wrong with a command line. -/
inductive Misuse
  | unknownArgument
  | unknownCommand
  | repeated
  | missingArgument
  /-- No value, an empty one, or none of the possible ones. -/
  | invalidValue
  /-- A value that is not a number, where a number belongs. -/
  | notANumber
  /-- A flag with a value. -/
  | needlessValue
deriving DecidableEq

structure Given where
  directory : Option Text := none
  config : Option Text := none
  format : Option OutputFormat := none
  jobs : Option Nat := none
  mode : Option ThresholdMode := none
  lineThreshold : Option Binary64 := none
  functionThreshold : Option Binary64 := none
  coverage : Option Text := none
  report : Option Text := none
  quiet : Bool := false
  verbose : Bool := false
  noColor : Bool := false
  parallel : Bool := false
  failFast : Bool := false
deriving DecidableEq

/-- What a value is given for: an option, or the coverage summary that `coverage` looks at. -/
inductive Slot
  | option (o : ValueOption)
  | report
deriving DecidableEq

namespace Given

def readPath (t : Text) : Except Misuse Text := if t.isEmpty then .error .invalidValue else .ok t

def orMisuse {α : Type} (misuse : Misuse) : Option α → Except Misuse α
  | some x => .ok x
  | none => .error misuse

/-- A count below 2⁶⁴; a plus may stand in front. -/
def readCount (t : Text) : Except Misuse Nat :=
  let digits :=
    match t with
    | '+' :: rest => rest
    | t => t
  orMisuse .notANumber ((Decimal.readNat? digits).filter (· < 0x10000000000000000))

/-- Give a value to what had none. -/
def fill {α : Type} (old : Option α) (value : Except Misuse α) : Except Misuse (Option α) :=
  match old with
  | some _ => .error .repeated
  | none => some <$> value

def set (g : Given) (slot : Slot) (t : Text) : Except Misuse Given :=
  match slot with
  | .report => return { g with report := ← fill g.report (readPath t) }
  | .option o =>
    match o with
    | .directory => return { g with directory := ← fill g.directory (readPath t) }
    | .config => return { g with config := ← fill g.config (readPath t) }
    | .coverage => return { g with coverage := ← fill g.coverage (readPath t) }
    | .format =>
      return { g with format := ← fill g.format (orMisuse .invalidValue (OutputFormat.ofName? t)) }
    | .mode =>
      return { g with mode := ← fill g.mode (orMisuse .invalidValue (ThresholdMode.ofName? t)) }
    | .jobs => return { g with jobs := ← fill g.jobs (readCount t) }
    | .lineThreshold => return { g with
        lineThreshold := ← fill g.lineThreshold (orMisuse .notANumber (Decimal.readBinary64? t)) }
    | .functionThreshold => return { g with
        functionThreshold :=
          ← fill g.functionThreshold (orMisuse .notANumber (Decimal.readBinary64? t)) }

def has (g : Given) : Flag → Bool
  | .quiet => g.quiet
  | .verbose => g.verbose
  | .noColor => g.noColor
  | .parallel => g.parallel
  | .failFast => g.failFast

def raise (g : Given) (f : Flag) : Except Misuse Given :=
  if g.has f then .error .repeated
  else
    match f with
    | .quiet => .ok { g with quiet := true }
    | .verbose => .ok { g with verbose := true }
    | .noColor => .ok { g with noColor := true }
    | .parallel => .ok { g with parallel := true }
    | .failFast => .ok { g with failFast := true }

/-- What two levels give together. Where both give a value, the inner one counts. -/
def orElse (inner outer : Given) : Given where
  directory := inner.directory.or outer.directory
  config := inner.config.or outer.config
  format := inner.format.or outer.format
  jobs := inner.jobs.or outer.jobs
  mode := inner.mode.or outer.mode
  lineThreshold := inner.lineThreshold.or outer.lineThreshold
  functionThreshold := inner.functionThreshold.or outer.functionThreshold
  coverage := inner.coverage.or outer.coverage
  report := inner.report.or outer.report
  quiet := inner.quiet || outer.quiet
  verbose := inner.verbose || outer.verbose
  noColor := inner.noColor || outer.noColor
  parallel := inner.parallel || outer.parallel
  failFast := inner.failFast || outer.failFast

/-! ## Lemmas -/

@[simp] theorem empty_orElse (g : Given) : orElse {} g = g := by
  cases g
  simp [orElse]

theorem orElse_assoc (f g h : Given) : (f.orElse g).orElse h = f.orElse (g.orElse h) := by
  simp [orElse, Option.or_assoc, Bool.or_assoc]

end Given

end SourceAudit
