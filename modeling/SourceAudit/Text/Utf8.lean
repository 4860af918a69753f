import SourceAudit.Text.Basic

/-!
# UTF-8

Bytes are read as characters of one to four bytes. Nothing else is accepted: no byte that cannot
begin a character, no form longer than needed, no surrogate, nothing above U+10FFFF, no character
cut short. Where something must be shown all the same, each stretch that could not be continued is
one replacement character.
-/

namespace SourceAudit.Utf8

/-! ## Algorithm -/

/-- A byte that continues a character carries six bits. -/
def tail? (b : UInt8) : Option Nat :=
  if 0x80 ≤ b.toNat && b.toNat < 0xc0 then some (b.toNat - 0x80) else none

/-- The character with this number, if it needs the length it was written in. -/
def scalar? (least n : Nat) : Option Char :=
  if least ≤ n ∧ n.isValidChar then some (Char.ofNat n) else none

/-- The text that the bytes are, or nothing when they are no UTF-8. -/
def decode? : List UInt8 → Option Text
  | [] => some []
  | a :: rest =>
    if a.toNat < 0x80 then (Char.ofNat a.toNat :: ·) <$> decode? rest
    else if a.toNat < 0xc0 then none
    else if a.toNat < 0xe0 then
      match rest with
      | b :: rest => do
        let b ← tail? b
        let c ← scalar? 0x80 ((a.toNat - 0xc0) * 64 + b)
        (c :: ·) <$> decode? rest
      | _ => none
    else if a.toNat < 0xf0 then
      match rest with
      | b :: c :: rest => do
        let b ← tail? b
        let c ← tail? c
        let d ← scalar? 0x800 (((a.toNat - 0xe0) * 64 + b) * 64 + c)
        (d :: ·) <$> decode? rest
      | _ => none
    else if a.toNat < 0xf8 then
      match rest with
      | b :: c :: d :: rest => do
        let b ← tail? b
        let c ← tail? c
        let d ← tail? d
        let e ← scalar? 0x10000 ((((a.toNat - 0xf0) * 64 + b) * 64 + c) * 64 + d)
        (e :: ·) <$> decode? rest
      | _ => none
    else none

/-- The bytes of a text. -/
def encode (t : Text) : List UInt8 := t.flatMap String.utf8EncodeChar

/-! ### Bytes that may be no text -/

/-- What is shown in place of bytes that are no character. -/
def replacement : Char := '\uFFFD'

/-- A character that has begun: how many bytes are missing, the bounds of the next of them, and the
bits so far. -/
structure Begun where
  missing : Nat
  least : Nat
  greatest : Nat
  bits : Nat

/-- What a byte shows when no character has begun, and the character that it begins. -/
def first (b : UInt8) : Text × Option Begun :=
  let n := b.toNat
  if n < 0x80 then ([Char.ofNat n], none)
  else if n < 0xc2 then ([replacement], none)
  else if n < 0xe0 then ([], some ⟨1, 0x80, 0xbf, n - 0xc0⟩)
  else if n < 0xf0 then
    let least := if n = 0xe0 then 0xa0 else 0x80
    let greatest := if n = 0xed then 0x9f else 0xbf
    ([], some ⟨2, least, greatest, n - 0xe0⟩)
  else if n < 0xf5 then
    let least := if n = 0xf0 then 0x90 else 0x80
    let greatest := if n = 0xf4 then 0x8f else 0xbf
    ([], some ⟨3, least, greatest, n - 0xf0⟩)
  else ([replacement], none)

/-- What a byte shows after the beginning of a character, and how far it takes the character. A byte
that does not continue it is looked at anew. -/
def Begun.next (s : Begun) (b : UInt8) : Text × Option Begun :=
  if s.least ≤ b.toNat ∧ b.toNat ≤ s.greatest then
    let bits := s.bits * 64 + (b.toNat - 0x80)
    if s.missing = 1 then ([(scalar? 0x80 bits).getD replacement], none)
    else ([], some ⟨s.missing - 1, 0x80, 0xbf, bits⟩)
  else (replacement :: (first b).1, (first b).2)

def lossyFrom : Option Begun → List UInt8 → Text
  | none, [] => []
  | some _, [] => [replacement]
  | state, b :: rest =>
    let step := state.elim (first b) (·.next b)
    step.1 ++ lossyFrom step.2 rest

/-- The text that is shown for bytes. -/
def lossy (bytes : List UInt8) : Text := lossyFrom none bytes

end SourceAudit.Utf8
