import SourceAudit.Check.Reading
import SourceAudit.Text.Blank
import SourceAudit.Text.Letter
import SourceAudit.Text.Lines

/-!
# Header guards

A header is guarded by a symbol made from its path: somewhere before its last line stands the
`#ifndef` of the symbol, right behind it the `#define`, and the last line is the `#endif`. Blanks
at the end of a line do not count. Only the first `#ifndef` of the symbol is looked at.
-/

namespace SourceAudit

/-! ## Algorithm -/

/-- The names of a path joined by underscores, dots replaced, the lead in front, all in capitals. -/
def guardSymbol (relative : Path) (lead : Text) : Text :=
  let names := (Path.names relative).map Utf8.lossy
  Text.upper (lead ++ Text.replaceChar '.' '_' (List.intercalate ['_'] names))

/-- The three lines of a guard. -/
structure GuardLines where
  opening : Text
  definition : Text
  closing : Text
deriving DecidableEq

def GuardLines.expected (symbol : Text) : GuardLines where
  opening := "#ifndef " ++ symbol
  definition := "#define " ++ symbol
  closing := "#endif  // " ++ symbol

def GuardLines.text (g : GuardLines) : Text :=
  g.opening ++ "\n" ++ g.definition ++ "\n" ++ g.closing

inductive GuardViolation
  | noOpening (symbol : Text)
  | mismatch (expected found : GuardLines)
deriving DecidableEq

def GuardViolation.message : GuardViolation → Text
  | .noOpening symbol => "no \x60#ifndef " ++ symbol ++ "\x60 found"
  | .mismatch expected found =>
    "guard does not match\nExpected:\n" ++ expected.text ++ "\nFound:\n" ++ found.text

/-- The guard that begins at the first line equal to `opening`: that line, the next and the last.
The last line itself begins none. -/
def findGuard? (opening : Text) : List Text → Option GuardLines
  | line :: next :: rest =>
    if line = opening then some ⟨line, next, (next :: rest).getLast (by simp)⟩
    else findGuard? opening (next :: rest)
  | _ => none

/-- Is the text guarded by the symbol? -/
def checkGuard (content symbol : Text) : Except GuardViolation Unit :=
  let expected := GuardLines.expected symbol
  match findGuard? expected.opening ((Text.lines content).map Text.trimEnd) with
  | none => .error (.noOpening symbol)
  | some found => if found = expected then .ok () else .error (.mismatch expected found)

/-- What is said of a target that was looked at for its guard. -/
def Target.guardOutcome (target : Target) (symbol : Text) : Except GuardViolation Unit → Outcome
  | .ok () => .pass ("guarded by " ++ symbol) 0
  | .error violation =>
    match violation with
    | .noOpening _ => .fail ("No opening header in " ++ target.display) violation.message 0
    | .mismatch _ _ => .fail (target.display ++ " invalid header") violation.message 0

def inspectGuard (lead : Text) (tree : FileTree) (target : Target) : Outcome :=
  let symbol := guardSymbol target.relative lead
  target.judge tree fun content => target.guardOutcome symbol (checkGuard content symbol)

end SourceAudit
