import SourceAudit.Proofs.Check.Coverage
import SourceAudit.Proofs.Check.Verdict

/-!
# Checks by position

A check that reads by position crashes where it reaches behind the end of what it reads. Here the
three checks are written that way: the guard takes the line at a position and the one behind it, the
year is looked for in the first four bytes, and a percentage is the second group of a match. No
content leads out of range, and what is said by position is what the checks say.

    checkGuardAt content symbol = .ok (checkGuard content symbol)                 (checkGuardAt_eq)
    beginsWithYearAt t = .ok (beginsWithYear t)                               (beginsWithYearAt_eq)
    extractAt rows row metric = .ok (extract rows row metric)                        (extractAt_eq)
    every check of every target comes to a pass or a failure               (checks_stay_in_range)
-/

namespace SourceAudit

/-! ## Algorithm -/

/-- A position behind the end. -/
structure OutOfRange where
  position : Nat
  length : Nat

def entryAt {α : Type} (l : List α) (i : Nat) : Except OutOfRange α :=
  match l[i]? with
  | some x => .ok x
  | none => .error ⟨i, l.length⟩

/-- The first `n` entries; there must be so many. -/
def frontOf {α : Type} (n : Nat) (l : List α) : Except OutOfRange (List α) :=
  if n ≤ l.length then .ok (l.take n) else .error ⟨n, l.length⟩

/-- The position of the first line equal to `opening` that has a line behind it. -/
def openingIndex? (opening : Text) (lines : List Text) : Option Nat :=
  (lines.zip lines.tail).findIdx? fun pair => pair.1 = opening

def checkGuardAt (content symbol : Text) : Except OutOfRange (Except GuardViolation Unit) :=
  let expected := GuardLines.expected symbol
  let lines := (Text.lines content).map Text.trimEnd
  match openingIndex? expected.opening lines with
  | none => return .error (.noOpening symbol)
  | some i => do
    let definition ← entryAt lines (i + 1)
    let closing := lines.getLast?.getD []
    if definition = expected.definition ∧ closing = expected.closing then return .ok ()
    else
      let opening ← entryAt lines i
      return .error (.mismatch expected ⟨opening, definition, closing⟩)

/-- Is a byte an ASCII digit? -/
def isDigitByte (b : UInt8) : Bool := 0x30 ≤ b.toNat && b.toNat ≤ 0x39

/-- Four digits and no fifth, looked for among the bytes. -/
def beginsWithYearAt (t : Text) : Except OutOfRange Bool :=
  let bytes := Utf8.encode t
  if bytes.length < 4 then return false
  else do
    let year ← frontOf 4 bytes
    return year.all isDigitByte && bytes[4]?.all fun b => !isDigitByte b

def CopyrightRule.acceptsAt (rule : CopyrightRule) (line : Text) : Except OutOfRange Bool :=
  match Text.dropStart? rule.lead line with
  | some rest => if rule.requireYear then beginsWithYearAt rest else return true
  | none => return false

def HeaderTemplate.checkFromAt (slot : Nat) (rule : CopyrightRule) :
    Nat → List Text → List Text → Except OutOfRange (Except HeaderViolation Unit)
  | n, _, [] => return .error (.tooShort n)
  | n, [], line :: _ =>
    return if Text.trimEnd line = [] then .ok () else .error (.missingBlankLine n)
  | n, expected :: more, line :: rest =>
    if n = slot then do
      if ← rule.acceptsAt line then checkFromAt slot rule (n + 1) more rest
      else return .error (.badCopyright n)
    else if Text.trimEnd line = expected then checkFromAt slot rule (n + 1) more rest
    else return .error (.mismatch n)

/-- The groups of the first percentage: all of it, and the number in front of the sign. -/
def captures? (row : Text) : Option (List Text) :=
  (firstPercentage? row).map fun found => [found.token ++ ['%'], found.token]

def extractAt (rows : List Text) (row : Nat) (metric : Metric) :
    Except OutOfRange (Except CoverageError Binary64) :=
  if rows.length ≤ row then return .error (.missingRow row metric)
  else do
    let text ← entryAt rows row
    if Text.mentions (Text.lower text) metric.name then
      match captures? text with
      | none => return .error (.noPercentage row metric text)
      | some groups =>
        let token ← entryAt groups 1
        match Decimal.readBinary64? token with
        | some x => return .ok x
        | none => return .error (.noPercentage row metric text)
    else return .error (.unexpectedRow row metric text)

def CoverageSummary.ofTextAt (text : Text) (rows : SummaryRows) :
    Except OutOfRange (Except CoverageError CoverageSummary) := do
  let all := Text.lines text
  match ← extractAt all rows.lines .lines with
  | .error e => return .error e
  | .ok lines =>
    match ← extractAt all rows.functions .functions with
    | .error e => return .error e
    | .ok functions => return .ok ⟨lines, functions⟩

/-! ### What is said of a file -/

/-- What a check says that may go out of range. -/
def Target.judgeAt (tree : FileTree) (target : Target)
    (verdict : Text → Except OutOfRange Outcome) :
    Except OutOfRange Outcome :=
  match tree.readText target.path with
  | .ok text => verdict text
  | .error e => return .fail (target.display ++ " could not be read") e.message 0

def HeaderTemplate.inspectAt (t : HeaderTemplate) (tree : FileTree) (target : Target) :
    Except OutOfRange Outcome :=
  target.judgeAt tree fun content =>
    target.headerOutcome <$> checkFromAt t.slot t.rule 0 t.lines (Text.lines content)

def inspectGuardAt (lead : Text) (tree : FileTree) (target : Target) : Except OutOfRange Outcome :=
  let symbol := guardSymbol target.relative lead
  target.judgeAt tree fun content => target.guardOutcome symbol <$> checkGuardAt content symbol

def inspectCoverageAt (rows : SummaryRows) (thresholds : CoverageThresholds) (tree : FileTree)
    (target : Target) : Except OutOfRange Outcome :=
  target.judgeAt tree fun content =>
    target.coverageOutcome thresholds <$> CoverageSummary.ofTextAt content rows

/-- A pass or a failure. -/
def Outcome.IsDecided (o : Outcome) : Prop :=
  (∃ message time, o = .pass message time) ∨ ∃ message details time, o = .fail message details time

/-! ## Lemmas -/

theorem entryAt_of_getElem? {α : Type} {l : List α} {i : Nat} {x : α} (h : l[i]? = some x) :
    entryAt l i = .ok x := by
  unfold entryAt
  rw [h]

theorem frontOf_of_le {α : Type} {n : Nat} {l : List α} (h : n ≤ l.length) :
    frontOf n l = .ok (l.take n) := if_pos h

/-! ### The guard -/

theorem openingIndex?_cons (opening line next : Text) (rest : List Text) :
    openingIndex? opening (line :: next :: rest) =
      if line = opening then some 0
      else (openingIndex? opening (next :: rest)).map (· + 1) := by
  unfold openingIndex?
  rw [List.tail_cons, List.zip_cons_cons, List.findIdx?_cons]
  by_cases h : line = opening
  · simp [h]
  · simp [h]

/-- Behind the opening there is a line, because the opening is looked for in front of one. -/
theorem findGuard?_of_openingIndex? {opening : Text} {lines : List Text} {i : Nat}
    (h : openingIndex? opening lines = some i) :
    ∃ definition, lines[i]? = some opening ∧ lines[i + 1]? = some definition ∧
      findGuard? opening lines = some ⟨opening, definition, lines.getLast?.getD []⟩ := by
  fun_induction findGuard? opening lines generalizing i with
  | case1 next rest =>
    rw [openingIndex?_cons, if_pos rfl] at h
    obtain rfl := Option.some.inj h
    refine ⟨next, rfl, rfl, ?_⟩
    rw [List.getLast?_cons_cons, List.getLast?_eq_some_getLast (List.cons_ne_nil next rest)]
    rfl
  | case2 line next rest hline ih =>
    rw [openingIndex?_cons, if_neg hline] at h
    obtain ⟨k, hk, rfl⟩ := Option.map_eq_some_iff.1 h
    obtain ⟨definition, hopening, hdefinition, hfind⟩ := ih hk
    exact ⟨definition, hopening, hdefinition, by rw [hfind, List.getLast?_cons_cons]⟩
  | case3 lines hshort =>
    rcases lines with _ | ⟨line, _ | ⟨next, rest⟩⟩
    · cases h
    · cases h
    · exact absurd rfl (hshort line next rest)

theorem findGuard?_eq_none_of_openingIndex? {opening : Text} {lines : List Text}
    (h : openingIndex? opening lines = none) : findGuard? opening lines = none := by
  fun_induction findGuard? opening lines with
  | case1 next rest =>
    rw [openingIndex?_cons, if_pos rfl] at h
    cases h
  | case2 line next rest hline ih =>
    rw [openingIndex?_cons, if_neg hline] at h
    exact ih (Option.map_eq_none_iff.1 h)
  | case3 => rfl

theorem checkGuardAt_eq (content symbol : Text) :
    checkGuardAt content symbol = .ok (checkGuard content symbol) := by
  unfold checkGuardAt checkGuard
  dsimp only
  cases hindex : openingIndex? (GuardLines.expected symbol).opening
      ((Text.lines content).map Text.trimEnd) with
  | none =>
    rw [findGuard?_eq_none_of_openingIndex? hindex]
    rfl
  | some i =>
    obtain ⟨definition, hopening, hdefinition, hfind⟩ := findGuard?_of_openingIndex? hindex
    rw [hfind]
    dsimp only
    rw [entryAt_of_getElem? hdefinition, entryAt_of_getElem? hopening]
    by_cases hsame : definition = (GuardLines.expected symbol).definition ∧
        ((Text.lines content).map Text.trimEnd).getLast?.getD [] =
          (GuardLines.expected symbol).closing
    · rw [if_pos (by rw [hsame.1, hsame.2])]
      exact if_pos hsame
    · rw [if_neg fun hguard => hsame ⟨congrArg GuardLines.definition hguard,
        congrArg GuardLines.closing hguard⟩]
      exact if_neg hsame

/-! ### The year -/

theorem length_takeWhile_eq_iff {α : Type} {p : α → Bool} {n : Nat} {l : List α} :
    (l.takeWhile p).length = n ↔
      n ≤ l.length ∧ (l.take n).all p = true ∧ l[n]?.all (fun x => !p x) = true := by
  induction n generalizing l with
  | zero =>
    cases l with
    | nil => simp
    | cons x rest => cases hx : p x <;> simp [hx]
  | succ n ih =>
    cases l with
    | nil => simp
    | cons x rest =>
      cases hx : p x with
      | true => simp [hx, ih]
      | false => simp [hx]

theorem isDigitByte_ofNat {n : Nat} (h : n < 256) :
    isDigitByte (UInt8.ofNat n) = true ↔ 48 ≤ n ∧ n ≤ 57 := by
  unfold isDigitByte
  rw [Utf8.toNat_ofNat h, Bool.and_eq_true, decide_eq_true_iff, decide_eq_true_iff]

/-- An ASCII digit is one byte; every other character begins with a byte that is none. -/
theorem takeWhile_utf8EncodeChar (c : Char) (rest : List UInt8) :
    ((String.utf8EncodeChar c ++ rest).takeWhile isDigitByte).length =
      if c.isDigit then (rest.takeWhile isDigitByte).length + 1 else 0 := by
  have hfirst : ∀ {n : Nat} {more : List UInt8}, n < 256 → ¬ (48 ≤ n ∧ n ≤ 57) →
      ((UInt8.ofNat n :: more).takeWhile isDigitByte).length = 0 := by
    intro n more hn hdigit
    rw [List.takeWhile_cons_of_neg (mt (isDigitByte_ofNat hn).1 hdigit)]
    rfl
  by_cases hdigit : c.isDigit = true
  · have hrange : 48 ≤ c.toNat ∧ c.toNat ≤ 57 := Char.isDigit_iff_toNat.1 hdigit
    rw [if_pos hdigit]
    rw [Utf8.utf8EncodeChar_one (by omega), List.singleton_append,
      List.takeWhile_cons_of_pos ((isDigitByte_ofNat (by omega)).2 hrange), List.length_cons]
  · have hrange : ¬ (48 ≤ c.toNat ∧ c.toNat ≤ 57) := mt Char.isDigit_iff_toNat.2 hdigit
    rw [if_neg hdigit]
    rcases Utf8.utf8EncodeChar_cases c with ⟨h, ec⟩ | ⟨-, h, ec⟩ | ⟨-, h, ec⟩ | ⟨-, h, ec⟩
    · rw [ec]
      exact hfirst (by omega) hrange
    all_goals
      rw [ec]
      exact hfirst (by omega) (by omega)

theorem length_takeWhile_encode (t : Text) :
    ((Utf8.encode t).takeWhile isDigitByte).length = (t.takeWhile Char.isDigit).length := by
  induction t with
  | nil => rfl
  | cons c rest ih =>
    rw [Utf8.encode_cons, takeWhile_utf8EncodeChar, ih]
    by_cases hdigit : c.isDigit = true
    · rw [if_pos hdigit, List.takeWhile_cons_of_pos hdigit, List.length_cons]
    · rw [if_neg hdigit, List.takeWhile_cons_of_neg hdigit]
      rfl

theorem beginsWithYearAt_eq (t : Text) : beginsWithYearAt t = .ok (beginsWithYear t) := by
  have hyear : beginsWithYear t = true ↔ 4 ≤ (Utf8.encode t).length ∧
      ((Utf8.encode t).take 4).all isDigitByte = true ∧
      (Utf8.encode t)[4]?.all (fun b => !isDigitByte b) = true := by
    unfold beginsWithYear
    rw [beq_iff_eq, ← length_takeWhile_encode, length_takeWhile_eq_iff]
  unfold beginsWithYearAt
  dsimp only
  by_cases hshort : (Utf8.encode t).length < 4
  · have hfalse : beginsWithYear t = false :=
      Bool.eq_false_iff.2 fun h => Nat.not_le_of_lt hshort (hyear.1 h).1
    rw [if_pos hshort, hfalse]
    rfl
  · have hlong : 4 ≤ (Utf8.encode t).length := Nat.le_of_not_lt hshort
    rw [if_neg hshort, frontOf_of_le hlong]
    refine congrArg Except.ok (Bool.eq_iff_iff.2 ?_)
    rw [hyear, Bool.and_eq_true]
    exact ⟨fun h => ⟨hlong, h⟩, fun h => h.2⟩

theorem CopyrightRule.acceptsAt_eq (rule : CopyrightRule) (line : Text) :
    rule.acceptsAt line = .ok (rule.accepts line) := by
  unfold CopyrightRule.acceptsAt CopyrightRule.accepts
  cases Text.dropStart? rule.lead line with
  | none => rfl
  | some rest =>
    dsimp only
    rw [beginsWithYearAt_eq]
    cases rule.requireYear <;> rfl

theorem HeaderTemplate.checkFromAt_eq (slot : Nat) (rule : CopyrightRule) (n : Nat)
    (expected lines : List Text) :
    checkFromAt slot rule n expected lines = .ok (checkFrom slot rule n expected lines) := by
  fun_induction checkFrom slot rule n expected lines with
  | case1 n expected =>
    rw [checkFromAt]
    rfl
  | case2 n line rest hblank =>
    rw [checkFromAt, if_pos hblank]
    rfl
  | case3 n line rest hblank =>
    rw [checkFromAt, if_neg hblank]
    rfl
  | case4 expected more line rest haccepts ih =>
    rw [checkFromAt, if_pos rfl, rule.acceptsAt_eq, haccepts]
    exact ih
  | case5 expected more line rest haccepts =>
    rw [checkFromAt, if_pos rfl, rule.acceptsAt_eq, Bool.eq_false_iff.2 haccepts]
    rfl
  | case6 n more line rest hslot ih =>
    rw [checkFromAt, if_neg hslot, if_pos rfl]
    exact ih
  | case7 n expected more line rest hslot hline =>
    rw [checkFromAt, if_neg hslot, if_neg hline]
    rfl

/-! ### The percentage -/

theorem extractAt_eq (rows : List Text) (row : Nat) (metric : Metric) :
    extractAt rows row metric = .ok (extract rows row metric) := by
  unfold extractAt extract
  cases hrow : rows[row]? with
  | none =>
    rw [if_pos (List.getElem?_eq_none_iff.1 hrow)]
    rfl
  | some text =>
    have hlt : row < rows.length := (List.getElem?_eq_some_iff.1 hrow).1
    rw [if_neg (Nat.not_le_of_lt hlt), entryAt_of_getElem? hrow]
    dsimp only [bind, Except.bind, captures?]
    cases Text.mentions (Text.lower text) metric.name with
    | false => rfl
    | true =>
      cases firstPercentage? text with
      | none => rfl
      | some found =>
        -- the number is the second of the two groups
        dsimp only [Option.map_some, Option.bind_some, entryAt, List.getElem?_cons_succ,
          List.getElem?_cons_zero]
        cases Decimal.readBinary64? found.token <;> rfl

theorem CoverageSummary.ofTextAt_eq (text : Text) (rows : SummaryRows) :
    CoverageSummary.ofTextAt text rows = .ok (CoverageSummary.ofText? text rows) := by
  unfold CoverageSummary.ofTextAt CoverageSummary.ofText?
  dsimp only
  rw [extractAt_eq, extractAt_eq]
  cases extract (Text.lines text) rows.lines .lines with
  | error e => rfl
  | ok lines => cases extract (Text.lines text) rows.functions .functions <;> rfl

/-! ### Files -/

section

variable {tree : FileTree} {target : Target}

theorem Target.judgeAt_eq {verdictAt : Text → Except OutOfRange Outcome} {verdict : Text → Outcome}
    (h : ∀ text, verdictAt text = .ok (verdict text)) :
    target.judgeAt tree verdictAt = .ok (target.judge tree verdict) := by
  unfold Target.judgeAt Target.judge
  cases tree.readText target.path with
  | error e => rfl
  | ok text => exact h text

theorem Target.isDecided_judge {verdict : Text → Outcome} (h : ∀ text, (verdict text).IsDecided) :
    (target.judge tree verdict).IsDecided := by
  unfold Target.judge
  cases tree.readText target.path with
  | error e => exact Or.inr ⟨_, _, _, rfl⟩
  | ok text => exact h text

theorem Target.isDecided_headerOutcome (result : Except HeaderViolation Unit) :
    (target.headerOutcome result).IsDecided := by
  cases result with
  | ok _ => exact Or.inl ⟨_, _, rfl⟩
  | error violation => exact Or.inr ⟨_, _, _, rfl⟩

theorem Target.isDecided_guardOutcome (symbol : Text) (result : Except GuardViolation Unit) :
    (target.guardOutcome symbol result).IsDecided := by
  cases result with
  | ok _ => exact Or.inl ⟨_, _, rfl⟩
  | error violation => cases violation <;> exact Or.inr ⟨_, _, _, rfl⟩

theorem Target.isDecided_coverageOutcome (thresholds : CoverageThresholds)
    (result : Except CoverageError CoverageSummary) :
    (target.coverageOutcome thresholds result).IsDecided := by
  cases result with
  | error e => exact Or.inr ⟨_, _, _, rfl⟩
  | ok summary =>
    unfold Target.coverageOutcome
    dsimp only
    split
    · exact Or.inl ⟨_, _, rfl⟩
    · exact Or.inr ⟨_, _, _, rfl⟩

end

/-! ## Top theorem -/

/-- Whatever a path leads to, every check of it by position stays in range and says what the check
says, and that is a pass or a failure. A percentage that is no number is reported as none. -/
theorem checks_stay_in_range (tree : FileTree) (target : Target) :
    (∀ t : HeaderTemplate, t.inspectAt tree target = .ok (t.inspect tree target) ∧
      (t.inspect tree target).IsDecided) ∧
    (∀ lead : Text, inspectGuardAt lead tree target = .ok (inspectGuard lead tree target) ∧
      (inspectGuard lead tree target).IsDecided) ∧
    (∀ (rows : SummaryRows) (thresholds : CoverageThresholds),
      inspectCoverageAt rows thresholds tree target =
        .ok (inspectCoverage rows thresholds tree target) ∧
      (inspectCoverage rows thresholds tree target).IsDecided) ∧
    ∀ (rows : List Text) (row : Nat) (metric : Metric) (line : Text) (groups : List Text),
      rows[row]? = some line → Text.mentions (Text.lower line) metric.name = true →
      captures? line = some groups → ∃ token, groups[1]? = some token ∧
        (Decimal.readBinary64? token = none →
          extractAt rows row metric = .ok (.error (.noPercentage row metric line))) := by
  refine ⟨?_, ?_, ?_, ?_⟩
  · intro t
    rw [HeaderTemplate.inspect]
    refine ⟨Target.judgeAt_eq fun text => ?_,
      Target.isDecided_judge fun text => Target.isDecided_headerOutcome _⟩
    rw [HeaderTemplate.checkFromAt_eq]
    rfl
  · intro lead
    rw [inspectGuard]
    refine ⟨Target.judgeAt_eq fun text => ?_,
      Target.isDecided_judge fun text => Target.isDecided_guardOutcome _ _⟩
    rw [checkGuardAt_eq]
    rfl
  · intro rows thresholds
    rw [inspectCoverage]
    refine ⟨Target.judgeAt_eq fun text => ?_,
      Target.isDecided_judge fun text => Target.isDecided_coverageOutcome _ _⟩
    rw [CoverageSummary.ofTextAt_eq]
    rfl
  · intro rows row metric line groups hline hnamed hgroups
    obtain ⟨found, hfound, rfl⟩ := Option.map_eq_some_iff.1 hgroups
    refine ⟨found.token, rfl, fun hread => ?_⟩
    have hnone : readPercentage? line = none := by
      rw [readPercentage?, hfound, Option.bind_some, hread]
    rw [extractAt_eq, extract_of_named hline (Text.mentions_iff.1 hnamed), hnone]
    rfl

def emptyTree : FileTree := { top := [], home := [] }

/-- A row with a percentage in another script, and a header that is not there. -/
theorem checks_stay_in_range_foreignDigit :
    Text.mentions (Text.lower "Lines: \u0663%") Metric.lines.name = true ∧
      captures? "Lines: \u0663%" = some ["\u0663%".toList, "\u0663".toList] ∧
      Decimal.readBinary64? "\u0663" = none ∧
      extractAt ["Lines: \u0663%"] 0 .lines =
        .ok (.error (.noPercentage 0 .lines "Lines: \u0663%")) ∧
      inspectGuardAt "_" emptyTree (.named "a.h") =
        .ok (.fail "a.h could not be read" "No such file or directory (os error 2)" 0) := by
  have hnamed : Text.mentions (Text.lower "Lines: \u0663%") Metric.lines.name = true := by
    decide +kernel
  have hgroups : captures? "Lines: \u0663%" = some ["\u0663%".toList, "\u0663".toList] := by
    decide +kernel
  have hread : Decimal.readBinary64? "\u0663" = none := by decide +kernel
  obtain ⟨-, hguard, -, hrow⟩ := checks_stay_in_range emptyTree (.named "a.h")
  obtain ⟨token, htoken, hextract⟩ :=
    hrow ["Lines: \u0663%"] 0 .lines "Lines: \u0663%" _ rfl hnamed hgroups
  obtain rfl := Option.some.inj htoken
  refine ⟨hnamed, hgroups, hread, hextract hread, (hguard "_").1.trans (congrArg Except.ok ?_)⟩
  decide +kernel

end SourceAudit
