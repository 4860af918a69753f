import SourceAudit.CommandLine.Arguments
import SourceAudit.Run.Plan

/-!
# What a command line asks for

The command decides on the checks, the options on everything else. Thresholds and mode replace
those of the settings, which must be usable with them. Without a wish there are as many workers as
the machine has cores.

    a.request cores s = .ok r ↔ (a.override s).validate = .ok () ∧
      r = a.requestWith cores (a.override s)                                (request_eq_ok_iff)
-/

namespace SourceAudit

/-! ## Algorithm -/

def Command.kinds : Command → List CheckKind
  | .check (some _) => CheckKind.all
  | .check none => [.copyright, .guards]
  | .headers => [.copyright]
  | .guards => [.guards]
  | .coverage _ => [.coverage]
  | .list => []
  | .version => []

def Command.coverageReport : Command → Option Text
  | .check report => report
  | .coverage report => some report
  | _ => none

namespace Arguments

/-- Settings with what the command line says in its place. -/
def override (a : Arguments) (s : Settings) : Settings :=
  { s with coverage := { s.coverage with
      mode := a.mode.getD s.coverage.mode
      lines := a.lineThreshold.getD s.coverage.lines
      functions := a.functionThreshold.getD s.coverage.functions } }

/-- The request of some arguments with settings that need no more change. Where it cannot be told
how many cores there are, four are assumed. -/
def requestWith (a : Arguments) (cores : Option Nat) (s : Settings) : RunRequest where
  settings := s
  base := Utf8.encode a.directory
  kinds := a.action.kinds
  coverageReport := a.action.coverageReport.map Utf8.encode
  parallel := a.parallel
  failFast := a.failFast
  jobs := a.jobs.getD (cores.getD 4)

def request (a : Arguments) (cores : Option Nat) (s : Settings) :
    Except SettingsError RunRequest := do
  (a.override s).validate
  return a.requestWith cores (a.override s)

/-! ## Lemmas -/

variable {a : Arguments} {cores : Option Nat} {s : Settings}

theorem request_eq_ok_iff {r : RunRequest} :
    a.request cores s = .ok r ↔
      (a.override s).validate = .ok () ∧ r = a.requestWith cores (a.override s) := by
  unfold request
  cases (a.override s).validate with
  | error e => exact iff_of_false nofun nofun
  | ok u =>
    constructor
    · intro h
      injection h with h
      exact ⟨rfl, h.symm⟩
    · rintro ⟨-, rfl⟩
      rfl

theorem request_eq_error_iff {e : SettingsError} :
    a.request cores s = .error e ↔ (a.override s).validate = .error e := by
  unfold request
  cases (a.override s).validate with
  | error d =>
    constructor
    · intro h
      injection h with h
      rw [h]
    · intro h
      injection h with h
      rw [h]
      rfl
  | ok u => exact iff_of_false nofun nofun

end Arguments

end SourceAudit
