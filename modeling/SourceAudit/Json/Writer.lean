import SourceAudit.Json.Basic

/-!
# Writing JSON

Two layouts of the same document: compact, without blanks, and pretty, with every item and member
on a line of its own, two blanks deeper than the line it belongs to. Empty arrays and objects stay
on their line. Only quotes, backslashes and control characters are escaped.
-/

namespace SourceAudit.Json

/-! ## Algorithm -/

/-- One character between the quotes of a string. -/
def escapeChar (c : Char) : Text :=
  match c with
  | '"' => "\\\""
  | '\\' => "\\\\"
  | '\x08' => "\\b"
  | '\x0c' => "\\f"
  | '\n' => "\\n"
  | '\r' => "\\r"
  | '\t' => "\\t"
  | c => if c.toNat < 0x20 then "\\u" ++ Text.padStart 4 '0' (Text.hex c.toNat) else [c]

def escaped (t : Text) : Text := t.flatMap escapeChar

def quote (t : Text) : Text := '"' :: escaped t ++ ['"']

mutual

def compact : Json → Text
  | .null => "null"
  | .boolean b => if b then "true" else "false"
  | .number numeral => numeral
  | .text t => quote t
  | .array items => "[" ++ List.intercalate "," (compactItems items) ++ "]"
  | .object members => "\x7b" ++ List.intercalate "," (compactMembers members) ++ "\x7d"

def compactItems : List Json → List Text
  | [] => []
  | item :: rest => item.compact :: compactItems rest

def compactMembers : List (Text × Json) → List Text
  | [] => []
  | (key, value) :: rest => (quote key ++ ":" ++ value.compact) :: compactMembers rest

end

/-- A line end and the blanks before the next line. -/
def lineBreak (depth : Nat) : Text := '\n' :: List.replicate (2 * depth) ' '

/-- Parts on lines of their own between an opening and a closing mark. -/
def block (opening closing : Text) (depth : Nat) (parts : List Text) : Text :=
  if parts.isEmpty then opening ++ closing
  else
    opening ++ lineBreak (depth + 1) ++ List.intercalate (',' :: lineBreak (depth + 1)) parts ++
      lineBreak depth ++ closing

mutual

/-- The pretty layout of a value that stands `depth` levels deep. -/
def prettyAt (depth : Nat) : Json → Text
  | .null => "null"
  | .boolean b => if b then "true" else "false"
  | .number numeral => numeral
  | .text t => quote t
  | .array items => block "[" "]" depth (prettyItems (depth + 1) items)
  | .object members => block "\x7b" "\x7d" depth (prettyMembers (depth + 1) members)

def prettyItems (depth : Nat) : List Json → List Text
  | [] => []
  | item :: rest => item.prettyAt depth :: prettyItems depth rest

def prettyMembers (depth : Nat) : List (Text × Json) → List Text
  | [] => []
  | (key, value) :: rest =>
    (quote key ++ ": " ++ value.prettyAt depth) :: prettyMembers depth rest

end

def pretty (j : Json) : Text := j.prettyAt 0

end SourceAudit.Json
