import SourceAudit.Finding
import SourceAudit.Number.Shown

/-!
# Reports

All findings of a run in order, with a count of every status. A run fails when one of its findings
is a failure. Counters are machine words and begin again at zero when they are full, so a count
tells how many findings there are as long as these are fewer than a word counts.

    Summary.ofFindings findings = the counts of the findings, each in its word   (ofFindings_eq)
    r.failures < 2 ^ 32 → r.summary.exitCode = if r.passed then 0 else 1        (exitCode_summary)
-/

namespace SourceAudit

/-! ## Algorithm -/

structure Report where
  baseDir : Text
  findings : List Finding
  /-- How long the run took, in milliseconds. -/
  time : UInt64
deriving DecidableEq

structure Summary where
  passed : UInt32
  warned : UInt32
  failed : UInt32
  skipped : UInt32
  total : UInt32
  time : UInt64
deriving DecidableEq

def Outcome.isPass : Outcome → Bool
  | .pass .. => true
  | _ => false

def Outcome.isWarning : Outcome → Bool
  | .warn .. => true
  | _ => false

def Outcome.isSkip : Outcome → Bool
  | .skip .. => true
  | _ => false

namespace Summary

def zero : Summary := ⟨0, 0, 0, 0, 0, 0⟩

/-- Count one more finding. -/
def count (s : Summary) (f : Finding) : Summary :=
  let s := { s with total := s.total + 1, time := s.time + f.outcome.time }
  match f.outcome with
  | .pass .. => { s with passed := s.passed + 1 }
  | .warn .. => { s with warned := s.warned + 1 }
  | .fail .. => { s with failed := s.failed + 1 }
  | .skip .. => { s with skipped := s.skipped + 1 }

def ofFindings (findings : List Finding) : Summary := findings.foldl count zero

/-- The exit code of a run: one if anything failed. -/
def exitCode (s : Summary) : Nat := if 0 < s.failed then 1 else 0

end Summary

/-- The times that the findings took together. -/
def totalTime (findings : List Finding) : UInt64 :=
  findings.foldr (fun f total => f.outcome.time + total) 0

namespace Report

def empty : Report := ⟨".", [], 0⟩

def add (r : Report) (finding : Finding) : Report := { r with findings := r.findings ++ [finding] }

def extend (r : Report) (findings : List Finding) : Report :=
  { r with findings := r.findings ++ findings }

def summary (r : Report) : Summary := Summary.ofFindings r.findings

def passed (r : Report) : Bool := !r.findings.any (·.outcome.isFailure)

/-- How many findings are failures. -/
def failures (r : Report) : Nat := r.findings.countP (·.outcome.isFailure)

/-- The findings of one kind, in the order of the run. -/
def byKind (r : Report) (kind : CheckKind) : List Finding := r.findings.filter (·.kind = kind)

end Report

/-- A time in seconds. The milliseconds become a double and the double is divided. -/
def secondsText (places : Nat) (time : UInt64) : Text :=
  ((Binary64.ofNat time.toNat).divNat 1000).fixed places

/-! ## Lemmas -/

/-- A summary goes on from what has been counted. -/
theorem Summary.foldl_count (findings : List Finding) (s : Summary) :
    findings.foldl count s =
      ⟨s.passed + .ofNat (findings.countP (·.outcome.isPass)),
        s.warned + .ofNat (findings.countP (·.outcome.isWarning)),
        s.failed + .ofNat (findings.countP (·.outcome.isFailure)),
        s.skipped + .ofNat (findings.countP (·.outcome.isSkip)),
        s.total + .ofNat findings.length, s.time + totalTime findings⟩ := by
  induction findings generalizing s with
  | nil => simp [totalTime]
  | cons f rest ih =>
    have htime : totalTime (f :: rest) = f.outcome.time + totalTime rest := rfl
    rw [List.foldl_cons, ih, htime, ← UInt64.add_assoc, List.length_cons]
    cases hf : f.outcome <;>
      simp [count, hf, Outcome.isPass, Outcome.isWarning, Outcome.isFailure, Outcome.isSkip,
        UInt32.ofNat_add, UInt32.add_assoc, UInt32.add_comm 1]

theorem Summary.ofFindings_eq (findings : List Finding) :
    Summary.ofFindings findings =
      ⟨.ofNat (findings.countP (·.outcome.isPass)), .ofNat (findings.countP (·.outcome.isWarning)),
        .ofNat (findings.countP (·.outcome.isFailure)), .ofNat (findings.countP (·.outcome.isSkip)),
        .ofNat findings.length, totalTime findings⟩ := by
  simp [ofFindings, foldl_count, zero]

theorem Report.failed_summary (r : Report) : r.summary.failed = .ofNat r.failures := by
  rw [Report.summary, Summary.ofFindings_eq, Report.failures]

theorem Report.passed_iff_failures {r : Report} : r.passed = true ↔ r.failures = 0 := by
  simp [Report.passed, Report.failures, List.countP_eq_zero]

/-- Failures are counted as long as there are fewer than a counter counts. -/
theorem Report.failed_pos_iff {r : Report} (h : r.failures < UInt32.size) :
    0 < r.summary.failed ↔ r.passed = false := by
  rw [r.failed_summary, UInt32.lt_iff_toNat_lt, UInt32.toNat_ofNat_of_lt' h, UInt32.toNat_zero,
    Nat.pos_iff_ne_zero, Ne, ← Report.passed_iff_failures, Bool.not_eq_true]

theorem Report.exitCode_summary {r : Report} (h : r.failures < UInt32.size) :
    r.summary.exitCode = if r.passed then 0 else 1 := by
  rw [Summary.exitCode]
  cases hp : r.passed with
  | true =>
    rw [if_neg fun hpos => absurd (hp.symm.trans ((Report.failed_pos_iff h).1 hpos)) nofun]
    rfl
  | false =>
    rw [if_pos ((Report.failed_pos_iff h).2 hp)]
    rfl

end SourceAudit
