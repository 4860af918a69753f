import SourceAudit.Toml.Draft
import SourceAudit.Toml.Scalar

/-!
# Reading TOML

TOML 1.1. A reader takes a text and gives what it found with the text behind it, or nothing where
the text is no TOML. A byte order mark in front of the document is passed over. Arrays and inline
tables lie at most eighty deep in each other.
-/

namespace SourceAudit.Toml

/-! ## Blanks and line ends -/

def isSpace (c : Char) : Bool := c == ' ' || c == '\t'

def skipSpaces (t : Text) : Text := t.dropWhile isSpace

/-- A character that may stand in a comment or between quotes: no control but the tab. -/
def isPlain (c : Char) : Bool := c == '\t' || (0x20 ≤ c.toNat && c.toNat != 0x7f)

def takeNewline? : Text → Option Text
  | '\n' :: rest => some rest
  | '\r' :: '\n' :: rest => some rest
  | _ => none

/-- Pass over a comment, if there is one. -/
def skipComment : Text → Text
  | '#' :: rest => rest.dropWhile isPlain
  | t => t

/-- The end of a line that said something. -/
def takeLineEnd? (t : Text) : Option Text :=
  match skipComment (skipSpaces t) with
  | [] => some []
  | rest => takeNewline? rest

/-- Pass over spaces, comments and line ends. -/
def skipVoid : Nat → Text → Text
  | 0, t => t
  | fuel + 1, t =>
    let rest := skipComment (skipSpaces t)
    match takeNewline? rest with
    | some rest => skipVoid fuel rest
    | none => rest

/-! ## Strings -/

/-- The character with the number that hexadecimal digits denote. -/
def readCode? (digits : Text) : Option Char := do
  let n := (← digits.mapM Text.hexValue?).foldl (fun n d => 16 * n + d) 0
  if n.isValidChar then some (Char.ofNat n) else none

/-- The character that an escape behind a backslash stands for. -/
def takeEscape? : Text → Option (Char × Text)
  | 'b' :: rest => some ('\x08', rest)
  | 't' :: rest => some ('\t', rest)
  | 'n' :: rest => some ('\n', rest)
  | 'f' :: rest => some ('\x0c', rest)
  | 'r' :: rest => some ('\r', rest)
  | 'e' :: rest => some ('\x1b', rest)
  | '"' :: rest => some ('"', rest)
  | '\\' :: rest => some ('\\', rest)
  | 'x' :: a :: b :: rest => (readCode? [a, b]).map (·, rest)
  | 'u' :: a :: b :: c :: d :: rest => (readCode? [a, b, c, d]).map (·, rest)
  | 'U' :: a :: b :: c :: d :: e :: f :: g :: h :: rest =>
    (readCode? [a, b, c, d, e, f, g, h]).map (·, rest)
  | _ => none

/-- A basic string behind its opening quote. -/
def takeBasic? : Nat → Text → Option (Text × Text)
  | 0, _ => none
  | _ + 1, [] => none
  | fuel + 1, c :: rest =>
    if c = '"' then some ([], rest)
    else if c = '\\' then do
      let (escaped, rest) ← takeEscape? rest
      let (body, rest) ← takeBasic? fuel rest
      return (escaped :: body, rest)
    else if isPlain c then do
      let (body, rest) ← takeBasic? fuel rest
      return (c :: body, rest)
    else none

/-- A literal string behind its opening quote. -/
def takeLiteral? : Text → Option (Text × Text)
  | [] => none
  | c :: rest =>
    if c = '\'' then some ([], rest)
    else if isPlain c then (takeLiteral? rest).map fun (body, rest) => (c :: body, rest)
    else none

/-- Where a string of several lines ends: three quotes, up to two more being part of it. -/
def takeClosing? (quote : Char) : Text → Option (Text × Text)
  | a :: b :: c :: rest =>
    if a = quote ∧ b = quote ∧ c = quote then
      let more := (rest.take 2).takeWhile (· == quote)
      some (more, rest.drop more.length)
    else none
  | _ => none

/-- Pass over spaces and line ends. -/
def skipBreaks : Nat → Text → Text
  | 0, t => t
  | fuel + 1, t =>
    match takeNewline? (skipSpaces t) with
    | some rest => skipBreaks fuel rest
    | none => skipSpaces t

/-- A backslash at the end of a line takes the blanks and line ends behind it out. -/
def skipFold? (t : Text) : Option Text :=
  (takeNewline? (skipSpaces t)).map fun rest => skipBreaks (rest.length + 1) rest

/-- A character of a string of several lines, line ends among them. -/
def takeBodyChar? : Text → Option (Text × Text)
  | '\n' :: rest => some (['\n'], rest)
  | '\r' :: '\n' :: rest => some (['\r', '\n'], rest)
  | c :: rest => if isPlain c then some ([c], rest) else none
  | [] => none

/-- A basic string of several lines behind its opening quotes. -/
def takeLongBasic? : Nat → Text → Option (Text × Text)
  | 0, _ => none
  | fuel + 1, t =>
    match takeClosing? '"' t with
    | some closing => some closing
    | none =>
      match t with
      | '\\' :: rest =>
        match skipFold? rest with
        | some rest => takeLongBasic? fuel rest
        | none => do
          let (escaped, rest) ← takeEscape? rest
          let (body, rest) ← takeLongBasic? fuel rest
          return (escaped :: body, rest)
      | t => do
        let (part, rest) ← takeBodyChar? t
        let (body, rest) ← takeLongBasic? fuel rest
        return (part ++ body, rest)

/-- A literal string of several lines behind its opening quotes. -/
def takeLongLiteral? : Nat → Text → Option (Text × Text)
  | 0, _ => none
  | fuel + 1, t =>
    match takeClosing? '\'' t with
    | some closing => some closing
    | none => do
      let (part, rest) ← takeBodyChar? t
      let (body, rest) ← takeLongLiteral? fuel rest
      return (part ++ body, rest)

/-- A line end right behind the opening quotes is no part of the string. -/
def dropFirstNewline (t : Text) : Text := (takeNewline? t).getD t

/-- A string of any kind, if the text begins with a quote. -/
def takeString? : Text → Option (Text × Text)
  | '"' :: '"' :: '"' :: rest => takeLongBasic? (rest.length + 1) (dropFirstNewline rest)
  | '\'' :: '\'' :: '\'' :: rest => takeLongLiteral? (rest.length + 1) (dropFirstNewline rest)
  | '"' :: rest => takeBasic? (rest.length + 1) rest
  | '\'' :: rest => takeLiteral? rest
  | _ => none

/-! ## Keys -/

def isBareKeyChar (c : Char) : Bool := c.isAlphanum || c == '_' || c == '-'

def takeKey? : Text → Option (Text × Text)
  | '"' :: rest => takeBasic? (rest.length + 1) rest
  | '\'' :: rest => takeLiteral? rest
  | t =>
    let key := t.takeWhile isBareKeyChar
    if key.isEmpty then none else some (key, t.dropWhile isBareKeyChar)

/-- Keys with dots between them. Spaces around a key do not count. -/
def takePath? : Nat → Text → Option (List Text × Text)
  | 0, _ => none
  | fuel + 1, t => do
    let (key, rest) ← takeKey? (skipSpaces t)
    match skipSpaces rest with
    | '.' :: rest =>
      let (path, rest) ← takePath? fuel rest
      return (key :: path, rest)
    | rest => return ([key], rest)

/-! ## Values -/

def isScalarChar (c : Char) : Bool :=
  c.isAlphanum || c == '_' || c == '-' || c == '+' || c == '.' || c == ':'

/-- A scalar without quotes. A date may be followed by one space and a time. -/
def takeScalar? (t : Text) : Option (Value × Text) :=
  let token := t.takeWhile isScalarChar
  let rest := t.dropWhile isScalarChar
  let time :=
    match rest with
    | ' ' :: rest => rest.takeWhile isScalarChar
    | _ => []
  if takeDate? token = some [] ∧ time.head?.any Char.isDigit = true then
    (readScalar? (token ++ ' ' :: time)).map (·, rest.drop (time.length + 1))
  else (readScalar? token).map (·, rest)

def depthLimit : Nat := 80

mutual

/-- A value; `depth` more arrays and inline tables may begin in it. -/
def takeValue? (depth : Nat) : Nat → Text → Option (Value × Text)
  | 0, _ => none
  | fuel + 1, t =>
    match t with
    | '[' :: rest =>
      if depth = 0 then none
      else (takeItems? (depth - 1) fuel rest).map fun (items, rest) => (.array items, rest)
    | '\x7b' :: rest =>
      if depth = 0 then none
      else do
        let (assignments, rest) ← takePairs? (depth - 1) fuel rest
        return (.table (← Table.ofAssignments? assignments), rest)
    | '"' :: _ => (takeString? t).map fun (s, rest) => (.text s, rest)
    | '\'' :: _ => (takeString? t).map fun (s, rest) => (.text s, rest)
    | _ => takeScalar? t

/-- The items of an array up to its bracket. A comma may follow the last one. -/
def takeItems? (depth : Nat) : Nat → Text → Option (List Value × Text)
  | 0, _ => none
  | fuel + 1, t =>
    match skipVoid t.length t with
    | ']' :: rest => some ([], rest)
    | t => do
      let (item, rest) ← takeValue? depth fuel t
      match skipVoid rest.length rest with
      | ',' :: rest =>
        let (items, rest) ← takeItems? depth fuel rest
        return (item :: items, rest)
      | ']' :: rest => return ([item], rest)
      | _ => none

/-- The pairs of an inline table up to its brace. A comma may follow the last one. -/
def takePairs? (depth : Nat) : Nat → Text → Option (List (List Text × Value) × Text)
  | 0, _ => none
  | fuel + 1, t =>
    match skipVoid t.length t with
    | '\x7d' :: rest => some ([], rest)
    | t => do
      let (path, rest) ← takePath? (t.length + 1) t
      let rest ← expect? '=' rest
      let (value, rest) ← takeValue? depth fuel (skipSpaces rest)
      match skipVoid rest.length rest with
      | ',' :: rest =>
        let (pairs, rest) ← takePairs? depth fuel rest
        return ((path, value) :: pairs, rest)
      | '\x7d' :: rest => return ([(path, value)], rest)
      | _ => none

end

/-! ## Documents -/

/-- A statement: a header in brackets, or a key with its value. -/
def takeStatement? (t : Text) : Option (Statement × Text) :=
  match t with
  | '[' :: '[' :: rest => do
    let (path, rest) ← takePath? (rest.length + 1) rest
    let rest ← expect? ']' rest >>= expect? ']'
    return (.itemHeader path, rest)
  | '[' :: rest => do
    let (path, rest) ← takePath? (rest.length + 1) rest
    return (.header path, ← expect? ']' rest)
  | _ => do
    let (path, rest) ← takePath? (t.length + 1) t
    let rest ← expect? '=' rest
    let (value, rest) ← takeValue? depthLimit (rest.length + 1) (skipSpaces rest)
    return (.assignment path value, rest)

/-- The statements of a text, one to a line. -/
def readStatements? : Nat → Text → Option (List Statement)
  | 0, _ => none
  | fuel + 1, t =>
    match skipVoid t.length t with
    | [] => some []
    | t => do
      let (statement, rest) ← takeStatement? t
      let rest ← takeLineEnd? rest
      return statement :: (← readStatements? fuel rest)

/-- The document that a text is. -/
def Table.ofText? (t : Text) : Option Table := do
  let t := (expect? '\ufeff' t).getD t
  Table.ofStatements? (← readStatements? (t.length + 1) t)

end SourceAudit.Toml
