import SourceAudit.Proofs.Report.Json
import SourceAudit.Proofs.Report.Suites
import SourceAudit.Report.Terminal
import Mathlib.Data.List.TFAE
import Mathlib.Tactic.TFAE

/-!
# One verdict in every place

The counters of a report are the sums of the counters of its parts, in whatever pieces and order its
findings were put in, and they hold the numbers of what they count as long as there are fewer
findings than a word counts. Each kind of check has its own part of the findings. Whether a run
failed is worked out anew for the exit code, for each document and for the terminal, and all of them
agree.

    Summary.ofFindings (a ++ b) = Summary.ofFindings a + Summary.ofFindings b   (ofFindings_append)
    findings.length < 2 ^ 32 → (Summary.ofFindings findings).Counts findings    (counts_ofFindings)
    exit code one ↔ a failure ↔ `passed` is false ↔ what each format shows         (verdict_agrees)
-/

namespace SourceAudit

/-! ## Reports put together -/

/-- A call that puts findings into a report. -/
inductive Call
  | add (finding : Finding)
  | extend (findings : List Finding)

def Call.findings : Call → List Finding
  | .add finding => [finding]
  | .extend findings => findings

def Report.take (r : Report) : Call → Report
  | .add finding => r.add finding
  | .extend findings => r.extend findings

/-- The report that calls lead to, one after the other. -/
def Report.assembled (calls : List Call) : Report := calls.foldl Report.take Report.empty

instance : Add Summary where
  add s t := ⟨s.passed + t.passed, s.warned + t.warned, s.failed + t.failed, s.skipped + t.skipped,
    s.total + t.total, s.time + t.time⟩

/-- Summaries added up component by component. -/
def Summary.sum (summaries : List Summary) : Summary := summaries.foldr (· + ·) Summary.zero

/-- The milliseconds that the findings took together, however many these are. -/
def durations (findings : List Finding) : Nat :=
  findings.foldr (fun f total => f.outcome.time.toNat + total) 0

/-- The counters hold the numbers of what they count. -/
structure Summary.Counts (s : Summary) (findings : List Finding) : Prop where
  passed : s.passed.toNat = findings.countP (·.outcome.isPass)
  warned : s.warned.toNat = findings.countP (·.outcome.isWarning)
  failed : s.failed.toNat = findings.countP (·.outcome.isFailure)
  skipped : s.skipped.toNat = findings.countP (·.outcome.isSkip)
  total : s.total.toNat = findings.length
  time : s.time.toNat = durations findings

/-! ## Failures in documents -/

/-- A document whose verdict is false and whose counts have a failure. -/
def Json.TellsFailure (j : Json) : Prop :=
  (j.member? "passed" >>= Json.boolean?) = some false ∧
    ∃ n, (j.member? "summary" >>= Json.member? "failed" >>= Json.nat?) = some n ∧ 0 < n

/-- An element whose count of failures is not nought. -/
def Markup.Item.TellsFailure (item : Markup.Item) : Prop :=
  ∃ n, item.count? "failures" = some n ∧ 0 < n

/-! ## Summaries of parts -/

theorem totalTime_eq (findings : List Finding) :
    totalTime findings = .ofNat (durations findings) := by
  induction findings with
  | nil => rfl
  | cons f rest ih =>
    show f.outcome.time + totalTime rest = .ofNat (f.outcome.time.toNat + durations rest)
    rw [ih, UInt64.ofNat_add, UInt64.ofNat_toNat]

theorem durations_append (a b : List Finding) :
    durations (a ++ b) = durations a + durations b := by
  induction a with
  | nil => exact (Nat.zero_add _).symm
  | cons f rest ih =>
    show f.outcome.time.toNat + durations (rest ++ b) =
      f.outcome.time.toNat + durations rest + durations b
    rw [ih, Nat.add_assoc]

theorem durations_perm {a b : List Finding} (h : a.Perm b) : durations a = durations b := by
  refine h.foldr_eq' (fun f _ g _ total => ?_) 0
  exact Nat.add_left_comm g.outcome.time.toNat f.outcome.time.toNat total

theorem durations_le_of_sublist {a b : List Finding} (h : a.Sublist b) :
    durations a ≤ durations b := by
  obtain ⟨rest, hperm⟩ := h.exists_perm_append
  rw [durations_perm hperm, durations_append]
  exact Nat.le_add_right _ _

theorem Summary.ofFindings_append (a b : List Finding) :
    Summary.ofFindings (a ++ b) = Summary.ofFindings a + Summary.ofFindings b := by
  show _ = (⟨_, _, _, _, _, _⟩ : Summary)
  simp only [Summary.ofFindings_eq, totalTime_eq, List.countP_append, List.length_append,
    durations_append, UInt32.ofNat_add, UInt64.ofNat_add]

theorem Summary.ofFindings_perm {a b : List Finding} (h : a.Perm b) :
    Summary.ofFindings a = Summary.ofFindings b := by
  simp only [Summary.ofFindings_eq, totalTime_eq, h.countP_eq, h.length_eq, durations_perm h]

theorem Summary.ofFindings_flatten (parts : List (List Finding)) :
    Summary.ofFindings parts.flatten = Summary.sum (parts.map Summary.ofFindings) := by
  induction parts with
  | nil => rfl
  | cons part parts ih =>
    rw [List.flatten_cons, Summary.ofFindings_append, ih]
    rfl

/-- Counters hold their numbers as long as these are in range. -/
theorem Summary.counts_ofFindings {findings : List Finding} (h : findings.length < UInt32.size)
    (htime : durations findings < UInt64.size) :
    (Summary.ofFindings findings).Counts findings := by
  have hcount (p : Finding → Bool) :
      (UInt32.ofNat (findings.countP p)).toNat = findings.countP p :=
    UInt32.toNat_ofNat_of_lt' (Nat.lt_of_le_of_lt List.countP_le_length h)
  rw [Summary.ofFindings_eq, totalTime_eq]
  exact ⟨hcount _, hcount _, hcount _, hcount _, UInt32.toNat_ofNat_of_lt' h,
    UInt64.toNat_ofNat_of_lt' htime⟩

/-- Every finding has one status. -/
theorem countP_statuses (findings : List Finding) :
    findings.countP (·.outcome.isPass) + findings.countP (·.outcome.isWarning) +
        findings.countP (·.outcome.isFailure) + findings.countP (·.outcome.isSkip) =
      findings.length := by
  induction findings with
  | nil => rfl
  | cons f rest ih =>
    rw [List.length_cons, ← ih]
    cases hf : f.outcome <;>
      simp only [List.countP_cons, hf, Outcome.isPass, Outcome.isWarning, Outcome.isFailure,
        Outcome.isSkip, if_true, Bool.false_eq_true, if_false] <;> omega

theorem Summary.Counts.total_eq {s : Summary} {findings : List Finding} (h : s.Counts findings) :
    s.passed.toNat + s.warned.toNat + s.failed.toNat + s.skipped.toNat = s.total.toNat := by
  rw [h.passed, h.warned, h.failed, h.skipped, h.total, countP_statuses]

theorem Report.findings_take (r : Report) (call : Call) :
    (r.take call).findings = r.findings ++ call.findings := by
  cases call <;> rfl

theorem Report.findings_assembled (calls : List Call) :
    (Report.assembled calls).findings = calls.flatMap Call.findings := by
  have hall : ∀ start : Report, (calls.foldl Report.take start).findings =
      start.findings ++ calls.flatMap Call.findings := by
    induction calls with
    | nil => exact fun start => (List.append_nil _).symm
    | cons call calls ih =>
      intro start
      rw [List.foldl_cons, ih, Report.findings_take, List.flatMap_cons, List.append_assoc]
  exact hall Report.empty

theorem Report.summary_assembled (calls : List Call) :
    (Report.assembled calls).summary =
      Summary.sum (calls.map fun call => Summary.ofFindings call.findings) := by
  rw [Report.summary, Report.findings_assembled, List.flatMap_def, Summary.ofFindings_flatten,
    List.map_map]
  rfl

/-! ## The parts of the kinds -/

theorem Report.perm_byKind (r : Report) : (CheckKind.all.flatMap r.byKind).Perm r.findings := by
  simp only [CheckKind.all, List.flatMap_cons, List.flatMap_nil, List.append_nil, Report.byKind]
  induction r.findings with
  | nil => exact List.Perm.refl _
  | cons f rest ih =>
    -- in front of its own part a finding stands behind the parts of earlier kinds
    cases hkind : f.kind with
    | copyright => simpa [hkind] using ih
    | guards => simpa [hkind] using List.perm_middle.trans (ih.cons f)
    | coverage =>
      rw [← List.append_assoc] at ih ⊢
      simpa [hkind] using List.perm_middle.trans (ih.cons f)

/-! ## What each format shows -/

section Formats

variable {r : Report} (h : r.failures < UInt32.size)
include h

theorem Report.exitCode_eq_one_iff : r.summary.exitCode = 1 ↔ r.passed = false := by
  rw [Report.exitCode_summary h]
  cases r.passed <;> decide

theorem Report.tellsFailure_toJson (timestamp : Timestamp) :
    (r.toJson timestamp).TellsFailure ↔ r.passed = false := by
  have hcount : ((r.toJson timestamp).member? "summary" >>= Json.member? "failed" >>= Json.nat?) =
      some r.summary.failed.toNat := Json.nat?_ofNat _
  unfold Json.TellsFailure
  rw [r.member?_passed timestamp, hcount, Option.some.injEq]
  constructor
  · exact And.left
  · intro hfailed
    exact ⟨hfailed, _, rfl, UInt32.lt_iff_toNat_lt.1 ((Report.failed_pos_iff h).2 hfailed)⟩

theorem Report.WrittenAs.tellsFailure_iff {document : Text} (hwritten : r.WrittenAs document) :
    (∃ j, Json.read? document = some j ∧ j.TellsFailure) ↔ r.passed = false := by
  obtain ⟨timestamp, hread⟩ := hwritten.read?
  rw [← Report.tellsFailure_toJson h timestamp]
  constructor
  · rintro ⟨j, hj, hfailure⟩
    rw [hread] at hj
    exact Option.some.inj hj ▸ hfailure
  · intro hfailure
    exact ⟨_, hread, hfailure⟩

theorem Report.tellsFailure_junit :
    (∃ root, Markup.document? r.junit = some root ∧ root.TellsFailure) ↔ r.passed = false := by
  have hread : Markup.document? r.junit = some (r.junitElement.item 0) :=
    Markup.document?_document r.named_junitElement
  have hcount := r.toldBy_item.failures.1
  rw [← Report.failed_pos_iff h, UInt32.lt_iff_toNat_lt]
  constructor
  · rintro ⟨root, hroot, n, hn, hpos⟩
    rw [hread] at hroot
    rw [← Option.some.inj hroot, hcount] at hn
    exact Option.some.inj hn ▸ hpos
  · intro hpos
    exact ⟨_, hread, _, hcount, hpos⟩

/-- The line that a report of a failed run ends with, before the one that closes it. -/
def failureLine : Text := "\nExit code: 1 (failures detected)\n"

def successLine : Text := "\nExit code: 0 (all checks passed)\n"

theorem Report.exitLine_eq :
    "\nExit code: " ++ Text.ofNat r.summary.exitCode ++ " (" ++ r.summary.verdict ++ ")\n" =
      if r.findings.any (·.outcome.isFailure) then failureLine else successLine := by
  have hpos := Report.failed_pos_iff h
  rw [Report.exitCode_summary h, Summary.verdict]
  rw [Report.passed] at hpos ⊢
  cases hfailed : r.findings.any (·.outcome.isFailure) with
  | false =>
    rw [hfailed] at hpos
    rw [if_neg fun hfull => absurd (hpos.1 hfull) (by decide)]
    rfl
  | true =>
    rw [hfailed] at hpos
    rw [if_pos (hpos.2 rfl)]
    rfl

omit h in
/-- As long as its counters hold the numbers, the foot of a report counts every finding, whatever
the report shows. -/
theorem Report.terminalFoot_eq (hall : r.findings.length < UInt32.size) :
    r.terminalFoot = divider ++ "\nSUMMARY: " ++
      Text.ofNat (r.findings.countP (·.outcome.isPass)) ++ " passed, " ++
      Text.ofNat (r.findings.countP (·.outcome.isWarning)) ++ " warnings, " ++
      Text.ofNat (r.findings.countP (·.outcome.isFailure)) ++ " failed, " ++
      Text.ofNat (r.findings.countP (·.outcome.isSkip)) ++ " skipped\nTotal time: " ++
      secondsText 1 r.time ++ ['s'] ++
      (if r.findings.any (·.outcome.isFailure) then failureLine else successLine) ++ divider := by
  have hcount (p : Finding → Bool) :
      (UInt32.ofNat (r.findings.countP p)).toNat = r.findings.countP p :=
    UInt32.toNat_ofNat_of_lt' (Nat.lt_of_le_of_lt List.countP_le_length hall)
  have hsummary := Summary.ofFindings_eq r.findings
  have hpassed : r.summary.passed.toNat = r.findings.countP (·.outcome.isPass) := by
    rw [Report.summary, hsummary, hcount]
  have hwarned : r.summary.warned.toNat = r.findings.countP (·.outcome.isWarning) := by
    rw [Report.summary, hsummary, hcount]
  have hfailed : r.summary.failed.toNat = r.findings.countP (·.outcome.isFailure) := by
    rw [Report.summary, hsummary, hcount]
  have hskipped : r.summary.skipped.toNat = r.findings.countP (·.outcome.isSkip) := by
    rw [Report.summary, hsummary, hcount]
  rw [← Report.exitLine_eq (Nat.lt_of_le_of_lt List.countP_le_length hall), ← hpassed, ← hwarned,
    ← hfailed, ← hskipped]
  unfold Report.terminalFoot
  simp only [List.append_assoc]
  rfl

/-- A report ends with its verdict. -/
theorem Report.exists_terminal_eq (style : TerminalStyle) (timestamp : Timestamp) :
    ∃ front, r.terminal style timestamp =
      front ++ (if r.findings.any (·.outcome.isFailure) then failureLine else successLine) ++
        divider := by
  rw [← Report.exitLine_eq h]
  refine ⟨r.terminalHead timestamp ++ r.terminalBody style ++ (divider ++ "\nSUMMARY: " ++
    Text.ofNat r.summary.passed.toNat ++ " passed, " ++ Text.ofNat r.summary.warned.toNat ++
    " warnings, " ++ Text.ofNat r.summary.failed.toNat ++ " failed, " ++
    Text.ofNat r.summary.skipped.toNat ++ " skipped\nTotal time: " ++ secondsText 1 r.time ++
    ['s']), ?_⟩
  unfold Report.terminal Report.terminalFoot
  simp only [List.append_assoc]
  rfl

theorem Report.tellsFailure_terminal (style : TerminalStyle) (timestamp : Timestamp) :
    failureLine ++ divider <:+ r.terminal style timestamp ↔ r.passed = false := by
  obtain ⟨front, hfront⟩ := Report.exists_terminal_eq h style timestamp
  rw [hfront, List.suffix_append_self_iff, Report.passed]
  cases r.findings.any (·.outcome.isFailure) with
  | false =>
    refine iff_of_false (fun hsuffix => ?_) (by decide)
    rcases List.suffix_or_suffix_of_suffix hsuffix (List.suffix_append front successLine) with h | h
    · exact absurd h (by decide)
    · exact absurd h (by decide)
  | true => exact iff_of_true (List.suffix_append front failureLine) rfl

end Formats

/-! ## Top theorem -/

/-- The counters hold the numbers of what they count; every finding counts once, for its status and
its kind; the counters of a report that was put together are those of its pieces added up, which
hold their numbers too, and neither the order of the findings nor the grouping of the calls shows in
them; and every place that shows a verdict shows the same one. -/
theorem verdict_agrees (r : Report) (h : r.findings.length < UInt32.size)
    (htime : durations r.findings < UInt64.size) :
    r.summary.Counts r.findings ∧
    (r.summary.passed.toNat + r.summary.warned.toNat + r.summary.failed.toNat +
        r.summary.skipped.toNat = r.summary.total.toNat ∧
      r.summary.total.toNat = r.findings.length) ∧
    (∀ calls, r.findings = (Report.assembled calls).findings →
      r.findings = calls.flatMap Call.findings ∧
      r.summary = Summary.sum (calls.map fun call => Summary.ofFindings call.findings) ∧
      (∀ call ∈ calls, (Summary.ofFindings call.findings).Counts call.findings) ∧
      ∀ other : List Call, (other.flatMap Call.findings).Perm (calls.flatMap Call.findings) →
        (Report.assembled other).summary = r.summary) ∧
    ((∀ kind, (r.byKind kind).Sublist r.findings ∧
        ∀ f, f ∈ r.byKind kind ↔ f ∈ r.findings ∧ f.kind = kind) ∧
      (CheckKind.all.flatMap r.byKind).Perm r.findings) ∧
    ∀ style timestamp, List.TFAE [
      r.summary.exitCode = 1,
      r.passed = false,
      ∃ f ∈ r.findings, f.outcome.isFailure = true,
      ∃ j, Json.read? (r.toJson timestamp).pretty = some j ∧ j.TellsFailure,
      ∃ j, Json.read? (r.toJson timestamp).compact = some j ∧ j.TellsFailure,
      ∃ root, Markup.document? r.junit = some root ∧ root.TellsFailure,
      failureLine ++ divider <:+ r.terminal style timestamp] := by
  have hcounts : r.summary.Counts r.findings := Summary.counts_ofFindings h htime
  have hcounted : r.failures < UInt32.size := Nat.lt_of_le_of_lt List.countP_le_length h
  refine ⟨hcounts, ⟨hcounts.total_eq, hcounts.total⟩, ?_, ⟨fun kind => ?_, r.perm_byKind⟩, ?_⟩
  · intro calls hcalls
    have hsummary : r.summary = (Report.assembled calls).summary :=
      congrArg Summary.ofFindings hcalls
    have hparts : r.findings = calls.flatMap Call.findings :=
      hcalls.trans (Report.findings_assembled calls)
    refine ⟨hparts, hsummary.trans (Report.summary_assembled calls), ?_, ?_⟩
    · intro call hcall
      have hpart : call.findings.Sublist r.findings := by
        rw [hparts, List.flatMap_def]
        exact List.sublist_flatten_of_mem (List.mem_map_of_mem hcall)
      exact Summary.counts_ofFindings (Nat.lt_of_le_of_lt hpart.length_le h)
        (Nat.lt_of_le_of_lt (durations_le_of_sublist hpart) htime)
    · intro other hperm
      rw [← Report.findings_assembled, ← Report.findings_assembled, ← hcalls] at hperm
      exact Summary.ofFindings_perm hperm
  · refine ⟨List.filter_sublist, fun f => ?_⟩
    rw [Report.byKind, List.mem_filter, decide_eq_true_iff]
  · intro style timestamp
    tfae_have 1 ↔ 2 := Report.exitCode_eq_one_iff hcounted
    tfae_have 3 ↔ 2 := by
      rw [Report.passed, Bool.not_eq_false', List.any_eq_true]
    tfae_have 4 ↔ 2 := Report.WrittenAs.tellsFailure_iff hcounted ⟨timestamp, Or.inl rfl⟩
    tfae_have 5 ↔ 2 := Report.WrittenAs.tellsFailure_iff hcounted ⟨timestamp, Or.inr rfl⟩
    tfae_have 6 ↔ 2 := Report.tellsFailure_junit hcounted
    tfae_have 7 ↔ 2 := Report.tellsFailure_terminal hcounted style timestamp
    tfae_finish

/-- A finding on its own, and a list with a failure. -/
def mixedCalls : List Call := [
  .add ⟨.copyright, "a.h", .pass "license header present" 2⟩,
  .extend [⟨.guards, "b.h", .fail "b.h invalid header" "line 3" 3⟩]]

/-- One pass and one failure, put in in either order, are a failed run everywhere. -/
theorem verdict_agrees_mixed :
    ((Report.assembled mixedCalls).findings.length < UInt32.size ∧
      durations (Report.assembled mixedCalls).findings < UInt64.size ∧
      (mixedCalls.reverse.flatMap Call.findings).Perm (mixedCalls.flatMap Call.findings)) ∧
    (Report.assembled mixedCalls.reverse).summary = ⟨1, 0, 1, 0, 2, 5⟩ ∧
    ∀ style timestamp,
      (∃ j, Json.read? ((Report.assembled mixedCalls).toJson timestamp).pretty = some j ∧
        j.TellsFailure) ∧
      failureLine ++ divider <:+ (Report.assembled mixedCalls).terminal style timestamp := by
  have hlength : (Report.assembled mixedCalls).findings.length < UInt32.size := by decide
  have htime : durations (Report.assembled mixedCalls).findings < UInt64.size := by decide
  have hperm : (mixedCalls.reverse.flatMap Call.findings).Perm (mixedCalls.flatMap Call.findings) :=
    List.Perm.swap _ _ _
  obtain ⟨-, -, hcalls, -, hplaces⟩ := verdict_agrees (Report.assembled mixedCalls) hlength htime
  refine ⟨⟨hlength, htime, hperm⟩, ?_, fun style timestamp => ⟨?_, ?_⟩⟩
  · rw [(hcalls mixedCalls rfl).2.2.2 _ hperm]
    rfl
  · exact ((hplaces style timestamp).out 1 3).1 rfl
  · exact ((hplaces style timestamp).out 1 6).1 rfl

end SourceAudit
