import SourceAudit.Proofs.Report.Agreement
import SourceAudit.Proofs.Report.Colors

/-!
# The modes of a terminal report

A quiet report leaves findings out and a coloured one adds colours, and that is all they do: between
the same head and foot a quiet report shows the failures and warnings as a report of these alone
would show them, no style hides a failure or a line of its details, and a coloured report is the
report without colours once they are taken out.

    r.terminal quiet t = r.terminalHead t ++ r.restricted.terminalBody full ++ r.terminalFoot
                                                                                (terminal_quieted)
    f fails → the section of its kind holds its message and every line of its details, behind the
      entries of the findings before it                                         (sectionOf_failure)

What colours leave as it is stands in `Proofs.Report.Colors`.
-/

namespace SourceAudit

/-! ## The rule -/

/-- The report with its failures and warnings alone. -/
def Report.restricted (r : Report) : Report :=
  { r with findings := r.findings.filter fun f => f.outcome.isFailure || f.outcome.isWarning }

namespace TerminalStyle

variable (style : TerminalStyle)

def quieted : TerminalStyle := { style with quiet := true }

def unquieted : TerminalStyle := { style with quiet := false }

/-- The entries of those findings of a kind that the style shows. -/
def entriesOf (kind : CheckKind) (findings : List Finding) : Text :=
  ((findings.filter (·.kind = kind)).filter style.shows).flatMap style.entry

/-- A failure in a report: its message on the line of its label, then every line of its details,
set in. -/
def failureEntry (message details : Text) (time : UInt64) : Text :=
  "  " ++ style.label (.fail message details time) ++ " " ++ (message ++ style.timeNote time) ++
    "\n" ++ (Text.lines details).flatMap fun line => ("         " ++ line ++ "\n" : Text)

/-! ## Sections -/

theorem shows_of_isFailure {f : Finding} (h : f.outcome.isFailure = true) :
    style.shows f = true := by
  rw [shows, Outcome.needsAttention, h, Bool.true_or, Bool.or_true]

theorem filter_shows_unquieted (findings : List Finding) :
    findings.filter style.unquieted.shows = findings :=
  List.filter_eq_self.2 fun _ _ => rfl

/-- A quiet section shows what a full one shows of the failures and warnings. -/
theorem sectionOf_quieted (kind : CheckKind) (findings : List Finding) :
    style.quieted.sectionOf kind findings =
      style.unquieted.sectionOf kind
        (findings.filter fun f => f.outcome.isFailure || f.outcome.isWarning) := by
  rw [sectionOf_eq, sectionOf_eq, filter_shows_unquieted]
  rfl

theorem sectionOf_eq_nil_iff (kind : CheckKind) (findings : List Finding) :
    style.sectionOf kind findings = [] ↔ ∀ f ∈ findings, style.shows f = false := by
  rw [sectionOf_eq]
  constructor
  · intro h
    split at h
    · next hnone => simpa using hnone
    · rw [List.append_assoc, List.append_assoc] at h
      cases kind <;> cases h
  · intro h
    rw [if_pos]
    simpa using h

theorem entry_of_failure {f : Finding} {message details : Text} {time : UInt64}
    (h : f.outcome = .fail message details time) :
    style.entry f = style.failureEntry message details time := by
  unfold entry content
  rw [h]
  rfl

theorem entriesOf_append (kind : CheckKind) (a b : List Finding) :
    style.entriesOf kind (a ++ b) = style.entriesOf kind a ++ style.entriesOf kind b := by
  simp only [entriesOf, List.filter_append, List.flatMap_append]

theorem entriesOf_cons_of_failure {f : Finding} {message details : Text} {time : UInt64}
    (h : f.outcome = .fail message details time) (findings : List Finding) :
    style.entriesOf f.kind (f :: findings) =
      style.failureEntry message details time ++ style.entriesOf f.kind findings := by
  have hkind : (f :: findings).filter (·.kind = f.kind) =
      f :: findings.filter (·.kind = f.kind) := List.filter_cons_of_pos (decide_eq_true rfl)
  have hshows : style.shows f = true := style.shows_of_isFailure (by rw [h]; rfl)
  rw [entriesOf, hkind, List.filter_cons_of_pos hshows, List.flatMap_cons,
    style.entry_of_failure h]
  rfl

end TerminalStyle

namespace Report

variable (r : Report) (style : TerminalStyle)

/-- The section of a failure's kind has the failure between the entries of the findings before and
behind it. -/
theorem sectionOf_failure {before after : List Finding} {f : Finding} {message details : Text}
    {time : UInt64} (hr : r.findings = before ++ f :: after)
    (hf : f.outcome = .fail message details time) :
    style.sectionOf f.kind (r.byKind f.kind) =
      f.kind.heading ++ "\n" ++ (style.entriesOf f.kind before ++
        style.failureEntry message details time ++ style.entriesOf f.kind after) ++ "\n" := by
  have hshows : style.shows f = true := style.shows_of_isFailure (by rw [hf]; rfl)
  have hmem : f ∈ (r.byKind f.kind).filter style.shows := by
    rw [List.mem_filter, byKind, List.mem_filter, hr]
    exact ⟨⟨List.mem_append_right _ List.mem_cons_self, decide_eq_true rfl⟩, hshows⟩
  have hentries : ((r.byKind f.kind).filter style.shows).flatMap style.entry =
      style.entriesOf f.kind before ++ style.failureEntry message details time ++
        style.entriesOf f.kind after := by
    rw [List.append_assoc, ← style.entriesOf_cons_of_failure hf, ← style.entriesOf_append, ← hr]
    rfl
  rw [TerminalStyle.sectionOf_eq, if_neg (List.ne_nil_of_mem hmem), hentries]

theorem byKind_restricted (kind : CheckKind) :
    r.restricted.byKind kind =
      (r.byKind kind).filter fun f => f.outcome.isFailure || f.outcome.isWarning := by
  rw [byKind, byKind, restricted, List.filter_filter, List.filter_filter]
  exact List.filter_congr fun f _ => Bool.and_comm _ _

theorem terminal_quieted (timestamp : Timestamp) :
    r.terminal style.quieted timestamp =
      r.terminalHead timestamp ++ r.restricted.terminalBody style.unquieted ++
        r.terminalFoot := by
  have hbody : r.terminalBody style.quieted = r.restricted.terminalBody style.unquieted := by
    unfold terminalBody
    simp only [TerminalStyle.sectionOf_quieted, byKind_restricted]
  rw [terminal, hbody]

theorem sectionOf_byKind_quieted_eq_nil_iff (kind : CheckKind) :
    style.quieted.sectionOf kind (r.byKind kind) = [] ↔
      ∀ f ∈ r.findings, f.kind = kind →
        f.outcome.isFailure = false ∧ f.outcome.isWarning = false := by
  have hshows (f : Finding) : style.quieted.shows f = false ↔
      f.outcome.isFailure = false ∧ f.outcome.isWarning = false := by
    have heq : style.quieted.shows f = (f.outcome.isFailure || f.outcome.isWarning) := rfl
    rw [heq, Bool.or_eq_false_iff]
  rw [TerminalStyle.sectionOf_eq_nil_iff, byKind]
  constructor
  · intro h f hf hkind
    exact (hshows f).1 (h f (List.mem_filter.2 ⟨hf, decide_eq_true hkind⟩))
  · intro h f hf
    obtain ⟨hf, hkind⟩ := List.mem_filter.1 hf
    exact (hshows f).2 (h f hf (of_decide_eq_true hkind))

/-- The kinds in front of a kind and behind it. -/
theorem exists_kinds_eq (kind : CheckKind) :
    ∃ front back, CheckKind.all = front ++ kind :: back := by
  cases kind with
  | copyright => exact ⟨[], [.guards, .coverage], rfl⟩
  | guards => exact ⟨[.copyright], [.coverage], rfl⟩
  | coverage => exact ⟨[.copyright, .guards], [], rfl⟩

theorem terminalBody_eq {front back : List CheckKind} {kind : CheckKind}
    (h : CheckKind.all = front ++ kind :: back) :
    r.terminalBody style = (front.flatMap fun k => style.sectionOf k (r.byKind k)) ++
      style.sectionOf kind (r.byKind kind) ++
        back.flatMap fun k => style.sectionOf k (r.byKind k) := by
  rw [terminalBody, h, List.flatMap_append, List.flatMap_cons, List.append_assoc]

end Report

/-! ## Top theorem -/

/-- A quiet report has the head and the foot of the full one, which count every finding as long as
the counters hold the numbers, and the sections that its failures and warnings alone would have, so
none for a kind without them. In every
style a failure has its message and all lines of its details in the section of its kind, with the
kinds in their order and the findings in that of the report. And a coloured report without its
colours is the one that has none. -/
theorem terminal_modes (r : Report) (style : TerminalStyle) (t : Instant) :
    (r.terminal style.unquieted t.timestamp =
        r.terminalHead t.timestamp ++ r.terminalBody style.unquieted ++ r.terminalFoot ∧
      r.terminal style.quieted t.timestamp =
        r.terminalHead t.timestamp ++ r.restricted.terminalBody style.unquieted ++
          r.terminalFoot ∧
      (r.findings.length < UInt32.size → r.terminalFoot = divider ++ "\nSUMMARY: " ++
        Text.ofNat (r.findings.countP (·.outcome.isPass)) ++ " passed, " ++
        Text.ofNat (r.findings.countP (·.outcome.isWarning)) ++ " warnings, " ++
        Text.ofNat (r.findings.countP (·.outcome.isFailure)) ++ " failed, " ++
        Text.ofNat (r.findings.countP (·.outcome.isSkip)) ++ " skipped\nTotal time: " ++
        secondsText 1 r.time ++ ['s'] ++
        (if r.findings.any (·.outcome.isFailure) then failureLine else successLine) ++ divider) ∧
      ∀ kind, style.quieted.sectionOf kind (r.byKind kind) = [] ↔
        ∀ f ∈ r.findings, f.kind = kind →
          f.outcome.isFailure = false ∧ f.outcome.isWarning = false) ∧
    (∀ before f after message details time, r.findings = before ++ f :: after →
      f.outcome = .fail message details time →
      ∃ front back, CheckKind.all = front ++ f.kind :: back ∧
        r.terminal style t.timestamp = r.terminalHead t.timestamp ++
          ((front.flatMap fun kind => style.sectionOf kind (r.byKind kind)) ++
            (f.kind.heading ++ "\n" ++ (style.entriesOf f.kind before ++
              style.failureEntry message details time ++ style.entriesOf f.kind after) ++ "\n") ++
            back.flatMap fun kind => style.sectionOf kind (r.byKind kind)) ++
          r.terminalFoot) ∧
    (r.IsEscapeFree → withoutColors (r.terminal style.withColor t.timestamp) =
      r.terminal style.withoutColor t.timestamp) := by
  refine ⟨⟨rfl, r.terminal_quieted style t.timestamp, Report.terminalFoot_eq,
    r.sectionOf_byKind_quieted_eq_nil_iff style⟩, ?_, fun h => r.withoutColors_terminal h style t⟩
  intro before f after message details time hr hf
  obtain ⟨front, back, hall⟩ := Report.exists_kinds_eq f.kind
  refine ⟨front, back, hall, ?_⟩
  rw [Report.terminal, r.terminalBody_eq style hall, r.sectionOf_failure style hr hf]

/-- A pass, a failure with two lines of details, and a file that was left out. -/
def skippedReport : Report where
  baseDir := "scl"
  findings := [⟨.copyright, "a.h", .pass "license header present" 2⟩,
    ⟨.guards, "b.h", .fail "b.h invalid header" "wrong guard\nline 3" 3⟩,
    ⟨.copyright, "c.h", .skip "generated"⟩]
  time := 5

/-- In colours the report shows the failure with both lines of its details, and without them it is
the plain report; the quiet one has the section of the failure and no other. -/
theorem terminal_modes_skipped :
    (skippedReport.IsEscapeFree ∧ skippedReport.findings =
      [⟨.copyright, "a.h", .pass "license header present" 2⟩] ++
        ⟨.guards, "b.h", .fail "b.h invalid header" "wrong guard\nline 3" 3⟩ ::
          [⟨.copyright, "c.h", .skip "generated"⟩]) ∧
    withoutColors (skippedReport.terminal ⟨true, false, true⟩ (Instant.mk 0 0).timestamp) =
      skippedReport.terminalHead (Instant.mk 0 0).timestamp ++
        ("HEADER GUARDS\n  [FAIL] b.h invalid header\n         wrong guard\n         line 3\n\n" :
          Text) ++ skippedReport.terminalFoot ∧
    ("  \x1b[31m[FAIL]\x1b[0m b.h invalid header\n         wrong guard\n         line 3\n" : Text)
      <:+: skippedReport.terminal ⟨true, false, false⟩ (Instant.mk 0 0).timestamp := by
  have hfree : skippedReport.IsEscapeFree := ⟨by decide, by decide⟩
  have hfindings : skippedReport.findings =
      [⟨.copyright, "a.h", .pass "license header present" 2⟩] ++
        ⟨.guards, "b.h", .fail "b.h invalid header" "wrong guard\nline 3" 3⟩ ::
          [⟨.copyright, "c.h", .skip "generated"⟩] := rfl
  have hentry : TerminalStyle.failureEntry ⟨true, false, false⟩ "b.h invalid header"
      "wrong guard\nline 3" 3 =
      "  \x1b[31m[FAIL]\x1b[0m b.h invalid header\n         wrong guard\n         line 3\n" := rfl
  obtain ⟨-, -, hplain⟩ := terminal_modes skippedReport ⟨false, false, true⟩ ⟨0, 0⟩
  obtain ⟨-, hfailure, -⟩ := terminal_modes skippedReport ⟨true, false, false⟩ ⟨0, 0⟩
  refine ⟨⟨hfree, hfindings⟩, (hplain hfree).trans rfl, ?_⟩
  obtain ⟨front, back, -, heq⟩ := hfailure _ _ _ _ _ _ hfindings rfl
  rw [heq, ← hentry]
  exact (((List.infix_append _ _ _).trans (List.infix_append _ _ _)).trans
    (List.infix_append _ _ _)).trans (List.infix_append _ _ _)

end SourceAudit
