import SourceAudit.Json.Basic

/-!
# Reading JSON

A reader takes a text and gives what it found with the text behind it, or nothing where the text is
no JSON. A character beyond the first plane may be written as the two halves of its UTF-16 form;
half of one alone is refused.
-/

namespace SourceAudit.Json

/-! ## Strings -/

def isSpace (c : Char) : Bool := c == ' ' || c == '\n' || c == '\r' || c == '\t'

def skipSpaces (t : Text) : Text := t.dropWhile isSpace

/-- The number that four hexadecimal digits denote. -/
def takeUnit? : Text → Option (Nat × Text)
  | a :: b :: c :: d :: rest => do
    let digits ← [a, b, c, d].mapM Text.hexValue?
    return (digits.foldl (fun n d => 16 * n + d) 0, rest)
  | _ => none

/-- The character that two halves make. -/
def joinHalves? (high low : Nat) : Option Char :=
  if 0xd800 ≤ high ∧ high < 0xdc00 ∧ 0xdc00 ≤ low ∧ low < 0xe000 then
    some (Char.ofNat (0x10000 + 1024 * (high - 0xd800) + (low - 0xdc00)))
  else none

/-- The character that an escape behind a backslash stands for. -/
def takeEscape? : Text → Option (Char × Text)
  | '"' :: rest => some ('"', rest)
  | '\\' :: rest => some ('\\', rest)
  | '/' :: rest => some ('/', rest)
  | 'b' :: rest => some ('\x08', rest)
  | 'f' :: rest => some ('\x0c', rest)
  | 'n' :: rest => some ('\n', rest)
  | 'r' :: rest => some ('\r', rest)
  | 't' :: rest => some ('\t', rest)
  | 'u' :: rest => do
    let (high, rest) ← takeUnit? rest
    if high.isValidChar then return (Char.ofNat high, rest)
    let (low, rest) ← Text.dropStart? "\\u" rest >>= takeUnit?
    return (← joinHalves? high low, rest)
  | _ => none

/-- A string behind its opening quote. -/
def takeString? : Nat → Text → Option (Text × Text)
  | 0, _ => none
  | _ + 1, [] => none
  | fuel + 1, c :: rest =>
    if c = '"' then some ([], rest)
    else if c = '\\' then do
      let (escaped, rest) ← takeEscape? rest
      let (body, rest) ← takeString? fuel rest
      return (escaped :: body, rest)
    else if c.toNat < 0x20 then none
    else do
      let (body, rest) ← takeString? fuel rest
      return (c :: body, rest)

/-! ## Numbers -/

/-- One digit or more. -/
def isDigits (t : Text) : Bool := !t.isEmpty && t.all Char.isDigit

/-- A whole number: no zero in front of another digit. -/
def isWhole (t : Text) : Bool := isDigits t && (t.length == 1 || t.head? != some '0')

def isExponent : Text → Bool
  | [] => true
  | c :: rest =>
    (c == 'e' || c == 'E') &&
      match rest with
      | '+' :: digits => isDigits digits
      | '-' :: digits => isDigits digits
      | digits => isDigits digits

/-- Does a text without sign spell a number? -/
def isMagnitude (t : Text) : Bool :=
  isWhole (t.takeWhile Char.isDigit) &&
    match t.dropWhile Char.isDigit with
    | '.' :: rest =>
      isDigits (rest.takeWhile Char.isDigit) && isExponent (rest.dropWhile Char.isDigit)
    | rest => isExponent rest

def isNumeral : Text → Bool
  | '-' :: rest => isMagnitude rest
  | t => isMagnitude t

def isNumeralChar (c : Char) : Bool :=
  c.isDigit || c == '-' || c == '+' || c == '.' || c == 'e' || c == 'E'

def takeNumber? (t : Text) : Option (Json × Text) :=
  let numeral := t.takeWhile isNumeralChar
  if isNumeral numeral then some (.number numeral, t.dropWhile isNumeralChar) else none

/-! ## Values -/

/-- A value that is a word. -/
def takeWord? (t : Text) : Option (Json × Text) :=
  match Text.dropStart? "null" t with
  | some rest => some (.null, rest)
  | none =>
    match Text.dropStart? "true" t with
    | some rest => some (.boolean true, rest)
    | none => (Text.dropStart? "false" t).map (.boolean false, ·)

/-- A key with its colon, behind the quote that opens it. -/
def takeKey? : Text → Option (Text × Text)
  | '"' :: rest => do
    let (key, rest) ← takeString? (rest.length + 1) rest
    return (key, ← Text.dropStart? ":" (skipSpaces rest))
  | _ => none

mutual

def takeValue? : Nat → Text → Option (Json × Text)
  | 0, _ => none
  | fuel + 1, t =>
    match skipSpaces t with
    | '"' :: rest => (takeString? (rest.length + 1) rest).map fun (s, rest) => (.text s, rest)
    | '[' :: rest =>
      match skipSpaces rest with
      | ']' :: rest => some (.array [], rest)
      | rest => (takeItems? fuel rest).map fun (items, rest) => (.array items, rest)
    | '\x7b' :: rest =>
      match skipSpaces rest with
      | '\x7d' :: rest => some (.object [], rest)
      | rest => (takeMembers? fuel rest).map fun (members, rest) => (.object members, rest)
    | t => (takeNumber? t).or (takeWord? t)

/-- The items of an array up to its bracket. -/
def takeItems? : Nat → Text → Option (List Json × Text)
  | 0, _ => none
  | fuel + 1, t => do
    let (item, rest) ← takeValue? fuel t
    match skipSpaces rest with
    | ',' :: rest =>
      let (items, rest) ← takeItems? fuel rest
      return (item :: items, rest)
    | ']' :: rest => return ([item], rest)
    | _ => none

/-- The members of an object up to its brace. -/
def takeMembers? : Nat → Text → Option (List (Text × Json) × Text)
  | 0, _ => none
  | fuel + 1, t => do
    let (key, rest) ← takeKey? (skipSpaces t)
    let (value, rest) ← takeValue? fuel rest
    match skipSpaces rest with
    | ',' :: rest =>
      let (members, rest) ← takeMembers? fuel rest
      return ((key, value) :: members, rest)
    | '\x7d' :: rest => return ([(key, value)], rest)
    | _ => none

end

/-- The value that a text is, blanks around it aside. -/
def read? (t : Text) : Option Json :=
  match takeValue? (t.length + 1) t with
  | some (value, rest) => if (skipSpaces rest).isEmpty then some value else none
  | none => none

end SourceAudit.Json
