import SourceAudit.Text.Utf8

/-!
# Paths

A path is a list of bytes with a slash between its pieces, and it need not be text. Its components
leave out what says nothing: empty pieces, and `.` anywhere but at the very front. Where a path is
shown, the bytes that are no UTF-8 are replaced.

    extensionOf? name = some x ↔ name = stem ++ dot :: x for a stem that is not empty and an x
      without a dot                                                     (extensionOf?_eq_some_iff)
-/

namespace SourceAudit

abbrev Path := List UInt8

/-- A literal path is the bytes of its characters. -/
instance : Coe String Path := ⟨fun t => Utf8.encode t⟩

inductive Component
  | root
  | here
  | up
  | entry (name : List UInt8)
deriving DecidableEq

namespace Path

/-! ## Algorithm -/

abbrev slash : UInt8 := 0x2f

abbrev dot : UInt8 := 0x2e

def isAbsolute (p : Path) : Bool := p.head? == some slash

/-- What a piece says: `.` and the empty piece are no component. -/
def component? (piece : List UInt8) : Option Component :=
  if piece = [] ∨ piece = [dot] then none
  else if piece = [dot, dot] then some .up
  else some (.entry piece)

def components (p : Path) : List Component :=
  let pieces := Text.splitOn slash p
  let rest := pieces.filterMap component?
  if isAbsolute p then .root :: rest
  else if pieces.head? = some [dot] then .here :: rest
  else rest

def Component.name? : Component → Option (List UInt8)
  | .entry name => some name
  | _ => none

def Component.bytes : Component → List UInt8
  | .root => []
  | .here => [dot]
  | .up => [dot, dot]
  | .entry name => name

/-- The components that name an entry of a directory. -/
def names (p : Path) : List (List UInt8) := (components p).filterMap Component.name?

/-- The path `p` as seen from `base`. An absolute one stays as it is. -/
def join (base p : Path) : Path :=
  if isAbsolute p then p
  else if base = [] ∨ base.getLast? = some slash then base ++ p
  else base ++ slash :: p

/-- The last component, if it names an entry. -/
def fileName? (p : Path) : Option (List UInt8) := (components p).getLast?.bind Component.name?

/-- The parts of a name before and behind its last dot. -/
def splitLastDot? : List UInt8 → Option (List UInt8 × List UInt8)
  | [] => none
  | c :: rest =>
    match splitLastDot? rest with
    | some (stem, extension) => some (c :: stem, extension)
    | none => if c = dot then some ([], rest) else none

/-- What follows the last dot of a name. A dot at the front begins no extension. -/
def extensionOf? (name : List UInt8) : Option (List UInt8) :=
  match splitLastDot? name with
  | some (_ :: _, extension) => some extension
  | _ => none

def extension? (p : Path) : Option (List UInt8) := (fileName? p).bind extensionOf?

/-- The part of `p` below `base`, compared component by component. -/
def below? (base p : Path) : Option Path :=
  (Text.dropStart? (components base) (components p)).map fun rest =>
    List.intercalate [slash] (rest.map Component.bytes)

/-! ## Lemmas -/

theorem join_absolute {base p : Path} (h : isAbsolute p = true) : join base p = p := by
  simp [join, h]

theorem join_nil_left (p : Path) : join [] p = p := by
  simp [join]

theorem splitLastDot?_eq_none {name : List UInt8} (h : dot ∉ name) : splitLastDot? name = none := by
  induction name with
  | nil => rfl
  | cons c rest ih =>
    simp only [List.mem_cons, not_or] at h
    simp [splitLastDot?, ih h.2, Ne.symm h.1]

theorem not_mem_of_splitLastDot?_eq_none {name : List UInt8} (h : splitLastDot? name = none) :
    dot ∉ name := by
  induction name with
  | nil => simp
  | cons c rest ih =>
    rw [splitLastDot?] at h
    cases hr : splitLastDot? rest with
    | none =>
      rw [hr] at h
      by_cases hc : c = dot
      · simp [hc] at h
      · simp [Ne.symm hc, ih hr]
    | some parts => simp [hr] at h

theorem splitLastDot?_append {stem extension : List UInt8} (h : dot ∉ extension) :
    splitLastDot? (stem ++ dot :: extension) = some (stem, extension) := by
  induction stem with
  | nil => simp [splitLastDot?, splitLastDot?_eq_none h]
  | cons c stem ih => simp [splitLastDot?, ih]

theorem eq_append_of_splitLastDot? {name stem extension : List UInt8}
    (h : splitLastDot? name = some (stem, extension)) :
    name = stem ++ dot :: extension ∧ dot ∉ extension := by
  induction name generalizing stem with
  | nil => cases h
  | cons c rest ih =>
    rw [splitLastDot?] at h
    cases hr : splitLastDot? rest with
    | none =>
      rw [hr] at h
      by_cases hc : c = dot
      · subst hc
        simp only [if_true, Option.some.injEq, Prod.mk.injEq] at h
        obtain ⟨rfl, rfl⟩ := h
        exact ⟨rfl, not_mem_of_splitLastDot?_eq_none hr⟩
      · simp [hc] at h
    | some parts =>
      rw [hr] at h
      simp only [Option.some.injEq, Prod.mk.injEq] at h
      obtain ⟨rfl, rfl⟩ := h
      obtain ⟨e, hx⟩ := ih hr
      exact ⟨by rw [List.cons_append, ← e], hx⟩

theorem extensionOf?_eq_some_iff {name extension : List UInt8} :
    extensionOf? name = some extension ↔
      ∃ stem, stem ≠ [] ∧ name = stem ++ dot :: extension ∧ dot ∉ extension := by
  constructor
  · intro h
    unfold extensionOf? at h
    split at h
    · next c stem x hs =>
      injection h with h
      subst h
      exact ⟨c :: stem, by simp, eq_append_of_splitLastDot? hs⟩
    · cases h
  · rintro ⟨stem, hne, rfl, hx⟩
    rw [extensionOf?, splitLastDot?_append hx]
    cases stem with
    | nil => exact absurd rfl hne
    | cons c stem => rfl

end Path

end SourceAudit
