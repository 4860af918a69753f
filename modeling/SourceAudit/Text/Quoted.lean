import SourceAudit.Text.Unprintable

/-!
# Quoted text

A text between double quotes in which everything can be seen: a quote and a backslash are written
behind a backslash, four control characters have a letter, and a character that leaves no mark of
its own is written by its number, as in `\u{a0}`.
-/

namespace SourceAudit.Text

/-- One character of a quoted text. -/
def quoteChar (c : Char) : Text :=
  match c with
  | '\x00' => "\\0"
  | '\t' => "\\t"
  | '\n' => "\\n"
  | '\r' => "\\r"
  | '"' => "\\\""
  | '\\' => "\\\\"
  | c => if isUnprintable c then "\\u\x7b" ++ hex c.toNat ++ "\x7d" else [c]

def quoted (t : Text) : Text := "\"" ++ t.flatMap quoteChar ++ "\""

end SourceAudit.Text
