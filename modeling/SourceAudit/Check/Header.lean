import SourceAudit.Check.Reading
import SourceAudit.Text.Blank
import SourceAudit.Text.Lines

/-!
# License headers

A file opens with the lines of a template, blanks at their ends aside, and then a blank line. One
line of the template, the slot, stands for the copyright notice: there the file has a fixed start
and, if the rule asks for it, a year of four digits. The first line that is wrong decides.

    ofText? text slot rule = .ok t ↔ the text is not blank, t has the slot, the rule and the
      lines of the text, right-trimmed                                     (ofText?_eq_ok_iff)
-/

namespace SourceAudit

/-! ## Algorithm -/

/-- What the copyright line must look like. -/
structure CopyrightRule where
  lead : Text
  requireYear : Bool
deriving DecidableEq

/-- Four digits and no fifth. -/
def beginsWithYear (t : Text) : Bool := (t.takeWhile Char.isDigit).length == 4

def CopyrightRule.accepts (rule : CopyrightRule) (line : Text) : Bool :=
  match Text.dropStart? rule.lead line with
  | some rest => !rule.requireYear || beginsWithYear rest
  | none => false

inductive TemplateError
  | empty
  | slotOutOfRange (index length : Nat)
deriving DecidableEq

def TemplateError.message : TemplateError → Text
  | .empty => "header template is empty"
  | .slotOutOfRange index length =>
    "copyright line " ++ Text.ofNat index ++ " is outside the " ++ Text.ofNat length ++
      "-line header template"

structure HeaderTemplate where
  lines : List Text
  slot : Nat
  rule : CopyrightRule
  slot_lt : slot < lines.length
deriving DecidableEq

/-- What is wrong with a header, and at which line, counted from zero. -/
inductive HeaderViolation
  | mismatch (line : Nat)
  | badCopyright (line : Nat)
  | tooShort (line : Nat)
  | missingBlankLine (line : Nat)
deriving DecidableEq

def HeaderViolation.line : HeaderViolation → Nat
  | .mismatch line => line
  | .badCopyright line => line
  | .tooShort line => line
  | .missingBlankLine line => line

def HeaderViolation.message : HeaderViolation → Text
  | .mismatch line => "line " ++ Text.ofNat line ++ " differs from the license template"
  | .badCopyright line => "line " ++ Text.ofNat line ++ " is not a valid copyright line"
  | .tooShort line =>
    "file ends at line " ++ Text.ofNat line ++ ", before the license header is complete"
  | .missingBlankLine line =>
    "license header is not followed by a blank line (line " ++ Text.ofNat line ++ ")"

/-- What is said of a target that was looked at for its header. -/
def Target.headerOutcome (target : Target) : Except HeaderViolation Unit → Outcome
  | .ok () => .pass "license header present" 0
  | .error violation =>
    .fail (target.display ++ " invalid header (error on line: " ++ Text.ofNat violation.line ++ ")")
      violation.message 0

namespace HeaderTemplate

/-- Blanks at the end of the text and of its lines do not count. -/
def ofText? (text : Text) (slot : Nat) (rule : CopyrightRule) :
    Except TemplateError HeaderTemplate :=
  let trimmed := Text.trimEnd text
  if trimmed = [] then .error .empty
  else
    let lines := (Text.splitOn '\n' trimmed).map Text.trimEnd
    if h : slot < lines.length then .ok ⟨lines, slot, rule, h⟩
    else .error (.slotOutOfRange slot lines.length)

/-- Compare line `n` on with the lines of a template that are left. -/
def checkFrom (slot : Nat) (rule : CopyrightRule) :
    Nat → List Text → List Text → Except HeaderViolation Unit
  | n, _, [] => .error (.tooShort n)
  | n, [], line :: _ =>
    if Text.trimEnd line = [] then .ok () else .error (.missingBlankLine n)
  | n, expected :: more, line :: rest =>
    if n = slot then
      if rule.accepts line then checkFrom slot rule (n + 1) more rest
      else .error (.badCopyright n)
    else if Text.trimEnd line = expected then checkFrom slot rule (n + 1) more rest
    else .error (.mismatch n)

/-- The first deviation of a text from the template. -/
def check (t : HeaderTemplate) (content : Text) : Except HeaderViolation Unit :=
  checkFrom t.slot t.rule 0 t.lines (Text.lines content)

def inspect (t : HeaderTemplate) (tree : FileTree) (target : Target) : Outcome :=
  target.judge tree fun content => target.headerOutcome (t.check content)

end HeaderTemplate

/-! ## The standard header -/

def standardLines : List Text := [
  "/* SCL --- Secure Computation Library",
  " * ---- THIS LINE IS IGNORED ----",
  " *",
  " * This program is free software: you can redistribute it and/or modify",
  " * it under the terms of the GNU Affero General Public License as published by",
  " * the Free Software Foundation, either version 3 of the License, or",
  " * (at your option) any later version.",
  " *",
  " * This program is distributed in the hope that it will be useful,",
  " * but WITHOUT ANY WARRANTY; without even the implied warranty of",
  " * MERCHANTABILITY or FITNESS FOR A PARTICULAR PURPOSE.  See the",
  " * GNU Affero General Public License for more details.",
  " *",
  " * You should have received a copy of the GNU Affero General Public License",
  " * along with this program.  If not, see <https://www.gnu.org/licenses/>.",
  " */"]

def standardHeader : Text := standardLines.flatMap (· ++ ['\n'])

def standardRule : CopyrightRule := ⟨" * Copyright (C) ", true⟩

def HeaderTemplate.standard : HeaderTemplate := ⟨standardLines, 1, standardRule, by decide⟩

/-! ## Lemmas -/

theorem HeaderTemplate.ofText?_eq_ok_iff {text : Text} {slot : Nat} {rule : CopyrightRule}
    {t : HeaderTemplate} :
    HeaderTemplate.ofText? text slot rule = .ok t ↔
      Text.trimEnd text ≠ [] ∧ t.slot = slot ∧ t.rule = rule ∧
        t.lines = (Text.splitOn '\n' (Text.trimEnd text)).map Text.trimEnd := by
  unfold HeaderTemplate.ofText?
  obtain ⟨lines, k, r, h⟩ := t
  dsimp only
  by_cases he : Text.trimEnd text = []
  · simp [he]
  · rw [if_neg he]
    constructor
    · intro hok
      split at hok
      · cases hok
        exact ⟨he, rfl, rfl, rfl⟩
      · cases hok
    · rintro ⟨-, rfl, rfl, rfl⟩
      rw [dif_pos h]

end SourceAudit
