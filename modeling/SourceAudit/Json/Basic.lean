import SourceAudit.Number.Decimal

/-!
# JSON values

An object keeps its members in order, and a number is kept as its numeral.

    (ofNat n).nat? = some n                                                          (nat?_ofNat)
    (ofNat n.toNat).uint64? = some n                                              (uint64?_toNat)
-/

namespace SourceAudit

inductive Json
  | null
  | boolean (b : Bool)
  | number (numeral : Text)
  | text (t : Text)
  | array (items : List Json)
  | object (members : List (Text × Json))

namespace Json

/-! ## Algorithm -/

def ofNat (n : Nat) : Json := .number (Text.ofNat n)

/-- The first member of an object with this key. -/
def member? (key : Text) : Json → Option Json
  | .object members => members.lookup key
  | _ => none

def text? : Json → Option Text
  | .text t => some t
  | _ => none

def boolean? : Json → Option Bool
  | .boolean b => some b
  | _ => none

def nat? : Json → Option Nat
  | .number numeral => Decimal.readNat? numeral
  | _ => none

/-- A number that fits into a word of 32 bits. -/
def uint32? (j : Json) : Option UInt32 :=
  j.nat?.bind fun n => if n < UInt32.size then some (.ofNat n) else none

/-- A number that fits into a word of 64 bits. -/
def uint64? (j : Json) : Option UInt64 :=
  j.nat?.bind fun n => if n < UInt64.size then some (.ofNat n) else none

def items? : Json → Option (List Json)
  | .array items => some items
  | _ => none

/-! ## Lemmas -/

@[simp] theorem nat?_ofNat (n : Nat) : (ofNat n).nat? = some n := Decimal.readNat?_ofNat n

@[simp] theorem uint32?_toNat (n : UInt32) : (ofNat n.toNat).uint32? = some n := by
  rw [uint32?, nat?_ofNat, Option.bind_some, if_pos n.toNat_lt, UInt32.ofNat_toNat]

@[simp] theorem uint64?_toNat (n : UInt64) : (ofNat n.toNat).uint64? = some n := by
  rw [uint64?, nat?_ofNat, Option.bind_some, if_pos n.toNat_lt, UInt64.ofNat_toNat]

end Json

end SourceAudit
