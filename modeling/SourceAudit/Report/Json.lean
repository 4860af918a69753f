import SourceAudit.Json.Writer
import SourceAudit.Report.Basic
import SourceAudit.Time.Instant

/-!
# Reports as JSON

The document holds the whole report, next to its verdict and its counts, which follow from the
findings. So the report can be had back from it.

    Outcome.ofJson? o.toJson = some o                                       (Outcome.ofJson?_toJson)
    Report.ofJson? (r.toJson timestamp) = some r                             (Report.ofJson?_toJson)
-/

namespace SourceAudit

/-! ## Algorithm -/

def Outcome.toJson (o : Outcome) : Json :=
  .object (("status", .text o.status) ::
    match o with
    | .pass message time => [("message", .text message), ("duration_ms", .ofNat time.toNat)]
    | .warn message details => [("message", .text message), ("details", .text details)]
    | .fail message details time =>
      [("message", .text message), ("details", .text details), ("duration_ms", .ofNat time.toNat)]
    | .skip reason => [("reason", .text reason)])

def Finding.toJson (f : Finding) : Json := .object [
  ("kind", .text f.kind.jsonName),
  ("target", .text f.target),
  ("result", f.outcome.toJson)]

def Summary.toJson (s : Summary) : Json := .object [
  ("passed", .ofNat s.passed.toNat),
  ("warned", .ofNat s.warned.toNat),
  ("failed", .ofNat s.failed.toNat),
  ("skipped", .ofNat s.skipped.toNat),
  ("total", .ofNat s.total.toNat),
  ("total_duration_ms", .ofNat s.time.toNat)]

def Report.toJson (r : Report) (timestamp : Timestamp) : Json := .object [
  ("timestamp", .text timestamp.exact),
  ("base_dir", .text r.baseDir),
  ("total_duration_ms", .ofNat r.time.toNat),
  ("passed", .boolean r.passed),
  ("summary", r.summary.toJson),
  ("findings", .array (r.findings.map Finding.toJson))]

/-- The outcome that a document tells. -/
def Outcome.ofJson? (j : Json) : Option Outcome := do
  let word (key : Text) : Option Text := j.member? key >>= Json.text?
  let status ← word "status"
  if status = "pass" then
    return .pass (← word "message") (← j.member? "duration_ms" >>= Json.uint64?)
  else if status = "warn" then return .warn (← word "message") (← word "details")
  else if status = "fail" then
    return .fail (← word "message") (← word "details") (← j.member? "duration_ms" >>= Json.uint64?)
  else if status = "skip" then return .skip (← word "reason")
  else none

def CheckKind.ofJsonName? (t : Text) : Option CheckKind := all.find? (·.jsonName = t)

def Finding.ofJson? (j : Json) : Option Finding := do
  let kind ← j.member? "kind" >>= Json.text? >>= CheckKind.ofJsonName?
  let target ← j.member? "target" >>= Json.text?
  return ⟨kind, target, ← j.member? "result" >>= Outcome.ofJson?⟩

/-- The report that a document holds. -/
def Report.ofJson? (j : Json) : Option Report := do
  let base ← j.member? "base_dir" >>= Json.text?
  let items ← j.member? "findings" >>= Json.items?
  let time ← j.member? "total_duration_ms" >>= Json.uint64?
  return ⟨base, ← items.mapM Finding.ofJson?, time⟩

/-! ## Lemmas -/

theorem Outcome.ofJson?_toJson (o : Outcome) : Outcome.ofJson? o.toJson = some o := by
  cases o with
  | pass message time =>
    show (Json.ofNat time.toNat).uint64?.bind (fun n => some (Outcome.pass message n)) = _
    rw [Json.uint64?_toNat, Option.bind_some]
  | warn message details => rfl
  | fail message details time =>
    show (Json.ofNat time.toNat).uint64?.bind (fun n => some (Outcome.fail message details n)) = _
    rw [Json.uint64?_toNat, Option.bind_some]
  | skip reason => rfl

theorem Finding.ofJson?_toJson (f : Finding) : Finding.ofJson? f.toJson = some f := by
  obtain ⟨kind, target, outcome⟩ := f
  have h : (Outcome.ofJson? outcome.toJson).bind (fun o => some (Finding.mk kind target o)) =
      some ⟨kind, target, outcome⟩ := by
    rw [Outcome.ofJson?_toJson]
    rfl
  cases kind <;> exact h

theorem mapM_ofJson?_map_toJson (findings : List Finding) :
    (findings.map Finding.toJson).mapM Finding.ofJson? = some findings := by
  induction findings with
  | nil => rfl
  | cons f rest ih =>
    rw [List.map_cons, List.mapM_cons, Finding.ofJson?_toJson, ih]
    rfl

theorem Report.ofJson?_toJson (r : Report) (timestamp : Timestamp) :
    Report.ofJson? (r.toJson timestamp) = some r := by
  show (Json.ofNat r.time.toNat).uint64?.bind (fun time =>
    ((r.findings.map Finding.toJson).mapM Finding.ofJson?).bind fun findings =>
      some (Report.mk r.baseDir findings time)) = _
  rw [Json.uint64?_toNat, Option.bind_some, mapM_ofJson?_map_toJson, Option.bind_some]

end SourceAudit
