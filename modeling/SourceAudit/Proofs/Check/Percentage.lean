import SourceAudit.Check.Coverage
import SourceAudit.Proofs.Number.Numeral

/-!
# Where the first percentage of a row stands

The first percentage ends at the first percent sign with a digit before it. The digit is a
percentage by itself, so the leftmost one begins no later than there; and it holds no percent sign,
so it ends no later. Among the percentages that end at this sign it is the longest, because a longer
one would begin further left.

    firstPercentage? row = none ↔ ∀ before, ¬ SignAt row before    (firstPercentage?_eq_none_iff)
    firstPercentage? row = some found ↔ found ends at the first sign and is the longest there
                                                                   (firstPercentage?_eq_some_iff)
    IsPercentage t → (readBinary64? t = some x ↔ IsAscii t ∧ Denotes t x)
                                                      (IsPercentage.readBinary64?_eq_some_iff)
-/

namespace SourceAudit

/-! ## The rule -/

/-- One digit of any script, or more. -/
def IsDigits (t : Text) : Prop := t ≠ [] ∧ ∀ c ∈ t, Text.isDecimalDigit c = true

/-- One to three digits, and perhaps a point and more digits. -/
def IsPercentage (t : Text) : Prop :=
  ∃ whole, IsDigits whole ∧ whole.length ≤ 3 ∧
    (t = whole ∨ ∃ part, IsDigits part ∧ t = whole ++ '.' :: part)

def EndsInDigit (t : Text) : Prop := ∃ front c, t = front ++ [c] ∧ Text.isDecimalDigit c = true

/-- A percent sign stands behind `before` in the row, and right before it a digit. -/
def SignAt (row before : Text) : Prop := EndsInDigit before ∧ before ++ ['%'] <+: row

/-- The first percent sign with a digit right before it stands behind `before`. -/
structure FirstSign (row before : Text) : Prop where
  sign : SignAt row before
  first : ∀ other, SignAt row other → before.length ≤ other.length

/-- The longest text of a shape that `t` ends in. -/
structure IsLongestEnd (shape : Text → Prop) (t token : Text) : Prop where
  shaped : shape token
  suffix : token <:+ t
  longest : ∀ other, shape other → other <:+ t → other.length ≤ token.length

def IsAscii (t : Text) : Prop := ∀ c ∈ t, c.toNat < 128

/-! ## Lemmas -/

theorem FirstSign.unique {row before other : Text} (h : FirstSign row before)
    (h' : FirstSign row other) : before = other := by
  have hlength : before.length = other.length :=
    Nat.le_antisymm (h.first other h'.sign) (h'.first before h.sign)
  have hprefix : before <+: row := (List.prefix_append before ['%']).trans h.sign.2
  have hprefix' : other <+: row := (List.prefix_append other ['%']).trans h'.sign.2
  exact
    (List.prefix_of_prefix_length_le hprefix hprefix' (Nat.le_of_eq hlength)).eq_of_length hlength

theorem IsLongestEnd.unique {shape : Text → Prop} {t token other : Text}
    (h : IsLongestEnd shape t token) (h' : IsLongestEnd shape t other) : token = other := by
  have hlength : token.length = other.length :=
    Nat.le_antisymm (h'.longest token h.shaped h.suffix) (h.longest other h'.shaped h'.suffix)
  exact (List.suffix_of_suffix_length_le h.suffix h'.suffix (Nat.le_of_eq hlength)).eq_of_length
    hlength

theorem isDigits_singleton {c : Char} (h : Text.isDecimalDigit c = true) : IsDigits [c] :=
  ⟨List.cons_ne_nil c [], List.forall_mem_singleton.2 h⟩

theorem IsDigits.endsInDigit {t : Text} (h : IsDigits t) : EndsInDigit t :=
  ⟨t.dropLast, t.getLast h.1, (List.dropLast_concat_getLast h.1).symm, h.2 _ (List.getLast_mem h.1)⟩

theorem EndsInDigit.append {t : Text} (h : EndsInDigit t) (front : Text) :
    EndsInDigit (front ++ t) := by
  obtain ⟨middle, c, rfl, hc⟩ := h
  exact ⟨front ++ middle, c, (List.append_assoc front middle [c]).symm, hc⟩

theorem IsPercentage.endsInDigit {t : Text} (h : IsPercentage t) : EndsInDigit t := by
  obtain ⟨whole, hwhole, -, rfl | ⟨part, hpart, rfl⟩⟩ := h
  · exact hwhole.endsInDigit
  · rw [List.append_cons]
    exact hpart.endsInDigit.append _

theorem IsPercentage.isDecimalDigit_or_eq_dot {t : Text} (h : IsPercentage t) :
    ∀ c ∈ t, Text.isDecimalDigit c = true ∨ c = '.' := by
  intro c hc
  obtain ⟨whole, hwhole, -, rfl | ⟨part, hpart, rfl⟩⟩ := h
  · exact Or.inl (hwhole.2 c hc)
  · rw [List.mem_append, List.mem_cons] at hc
    rcases hc with hc | hc | hc
    · exact Or.inl (hwhole.2 c hc)
    · exact Or.inr hc
    · exact Or.inl (hpart.2 c hc)

theorem IsPercentage.not_mem {t : Text} (h : IsPercentage t) {c : Char}
    (hc : Text.isDecimalDigit c = false) (hdot : c ≠ '.') : c ∉ t := by
  intro hmem
  rcases h.isDecimalDigit_or_eq_dot c hmem with hdigit | hdot'
  · rw [hc] at hdigit
    cases hdigit
  · exact hdot hdot'

theorem IsPercentage.sign_not_mem {t : Text} (h : IsPercentage t) : '%' ∉ t :=
  h.not_mem (by decide) (by decide)

theorem isPercentage_singleton {c : Char} (h : Text.isDecimalDigit c = true) : IsPercentage [c] :=
  ⟨[c], isDigits_singleton h, Nat.le_add_left 1 2, Or.inl rfl⟩

/-! ## The pattern -/

theorem matches_digits {most : Option Nat} {t : Text} :
    (Pattern.repeated Text.isDecimalDigit 1 most).Matches t ↔
      IsDigits t ∧ ∀ n ∈ most, t.length ≤ n := by
  rw [Pattern.Matches, IsDigits, ← List.length_pos_iff]
  constructor
  · rintro ⟨hdigits, hleast, hmost⟩
    exact ⟨⟨hleast, hdigits⟩, hmost⟩
  · rintro ⟨⟨hleast, hdigits⟩, hmost⟩
    exact ⟨hdigits, hleast, hmost⟩

theorem matches_percentage {t : Text} : percentage.Matches t ↔ IsPercentage t := by
  unfold percentage
  simp only [Pattern.matches_seq, Pattern.matches_optional, matches_digits, Pattern.matches_one]
  constructor
  · rintro ⟨whole, rest, rfl, ⟨hwhole, hthree⟩, rfl | ⟨point, part, rfl, ⟨c, rfl, hc⟩, hpart, -⟩⟩
    · exact ⟨whole, hwhole, hthree 3 rfl, Or.inl (List.append_nil whole)⟩
    · obtain rfl := beq_iff_eq.1 hc
      exact ⟨whole, hwhole, hthree 3 rfl, Or.inr ⟨part, hpart, rfl⟩⟩
  · rintro ⟨whole, hwhole, hthree, ht⟩
    have hthree : ∀ n ∈ some 3, whole.length ≤ n := by simpa using hthree
    rcases ht with rfl | ⟨part, hpart, rfl⟩
    · exact ⟨t, [], (List.append_nil t).symm, ⟨hwhole, hthree⟩, Or.inl rfl⟩
    · exact ⟨whole, '.' :: part, rfl, ⟨hwhole, hthree⟩,
        Or.inr ⟨['.'], part, rfl, ⟨'.', rfl, rfl⟩, hpart, nofun⟩⟩

theorem begins_percentSign {t : Text} : percentSign.Begins t ↔ ∃ rest, t = '%' :: rest := by
  unfold Pattern.Begins percentSign
  simp only [Pattern.matches_one]
  constructor
  · rintro ⟨token, rest, rfl, c, rfl, hc⟩
    obtain rfl := beq_iff_eq.1 hc
    exact ⟨rest, rfl⟩
  · rintro ⟨rest, rfl⟩
    exact ⟨['%'], rest, rfl, '%', rfl, rfl⟩

/-! ## The search -/

/-- A percentage with its sign is a split of the row. -/
theorem splits_iff {row : Text} {found : Pattern.Found} :
    percentage.Splits percentSign row found ↔
      IsPercentage found.token ∧ row = found.before ++ (found.token ++ found.after) ∧
        ∃ rest, found.after = '%' :: rest := by
  rw [← matches_percentage, ← begins_percentSign]
  constructor
  · rintro ⟨htext, htoken, hafter⟩
    exact ⟨htoken, htext, hafter⟩
  · rintro ⟨htoken, htext, hafter⟩
    exact ⟨htext, htoken, hafter⟩

/-- Behind every sign with a digit before it the digit is a token of the search. -/
theorem SignAt.exists_splits {row before token : Text} (h : SignAt row (before ++ token))
    (htoken : IsPercentage token) :
    ∃ after, percentage.Splits percentSign row ⟨before, token, after⟩ := by
  obtain ⟨-, rest, rfl⟩ := h
  exact ⟨'%' :: rest, splits_iff.2 ⟨htoken, by simp, rest, rfl⟩⟩

theorem signAt_of_splits {row : Text} {found : Pattern.Found}
    (h : percentage.Splits percentSign row found) : SignAt row (found.before ++ found.token) := by
  obtain ⟨htoken, rfl, rest, hafter⟩ := splits_iff.1 h
  refine ⟨htoken.endsInDigit.append _, rest, ?_⟩
  rw [hafter]
  simp

theorem firstPercentage?_eq_none_iff {row : Text} :
    firstPercentage? row = none ↔ ∀ before, ¬ SignAt row before := by
  unfold firstPercentage?
  rw [Pattern.search?_eq_none_iff]
  constructor
  · intro h before hsign
    obtain ⟨front, c, rfl, hc⟩ := hsign.1
    obtain ⟨after, hsplits⟩ := hsign.exists_splits (isPercentage_singleton hc)
    exact h _ hsplits
  · exact fun h found hsplits => h _ (signAt_of_splits hsplits)

/-- What is found ends at the first sign: the token of an earlier one would stand further left, or
the token that was found would have the sign in it. -/
theorem firstSign_of_firstPercentage? {row : Text} {found : Pattern.Found}
    (h : firstPercentage? row = some found) :
    FirstSign row (found.before ++ found.token) := by
  obtain ⟨hsplits, hleast⟩ := Pattern.splits_of_search? h
  refine ⟨signAt_of_splits hsplits, fun other hother => Nat.le_of_not_lt fun hlt => ?_⟩
  obtain ⟨htoken, hrow, -⟩ := splits_iff.1 hsplits
  obtain ⟨front, c, rfl, hc⟩ := hother.1
  obtain ⟨after, hsplits'⟩ := hother.exists_splits (isPercentage_singleton hc)
  have hbefore : found.before.length ≤ front.length := hleast _ hsplits'
  -- the earlier sign lies before the end of the token, and not before its begin
  have hend : front ++ [c] ++ ['%'] <+: found.before ++ found.token := by
    refine List.prefix_of_prefix_length_le hother.2 ⟨found.after, ?_⟩ ?_
    · rw [hrow, List.append_assoc]
    · rw [List.length_append, List.length_singleton]
      exact hlt
  obtain ⟨rest, hrest⟩ := hend
  obtain ⟨middle, rfl⟩ : found.before <+: front :=
    List.prefix_of_prefix_length_le (List.prefix_append _ found.token)
      ⟨[c] ++ ['%'] ++ rest, by simpa using hrest⟩ hbefore
  have htext : found.before ++ (middle ++ c :: '%' :: rest) = found.before ++ found.token := by
    simpa using hrest
  refine htoken.sign_not_mem ?_
  rw [← List.append_cancel_left htext]
  simp

/-- What is found is the longest there: a longer token would begin further left. -/
theorem isLongestEnd_of_firstPercentage? {row : Text} {found : Pattern.Found}
    (h : firstPercentage? row = some found) :
    IsLongestEnd IsPercentage (found.before ++ found.token) found.token := by
  obtain ⟨hsplits, hleast⟩ := Pattern.splits_of_search? h
  refine ⟨(splits_iff.1 hsplits).1, List.suffix_append _ _, fun other hother hsuffix => ?_⟩
  obtain ⟨front, hfront⟩ := hsuffix
  have hsign := signAt_of_splits hsplits
  rw [← hfront] at hsign
  obtain ⟨after, hsplits'⟩ := hsign.exists_splits hother
  have hle : found.before.length ≤ front.length := hleast _ hsplits'
  have hlength := congrArg List.length hfront
  rw [List.length_append, List.length_append] at hlength
  omega

theorem firstPercentage?_eq_some_iff {row : Text} {found : Pattern.Found} :
    firstPercentage? row = some found ↔
      FirstSign row (found.before ++ found.token) ∧
        IsLongestEnd IsPercentage (found.before ++ found.token) found.token ∧
        row = found.before ++ (found.token ++ found.after) := by
  constructor
  · intro h
    exact ⟨firstSign_of_firstPercentage? h, isLongestEnd_of_firstPercentage? h,
      (Pattern.splits_of_search? h).1.text⟩
  · rintro ⟨hsign, hlongest, hrow⟩
    cases hfind : firstPercentage? row with
    | none => exact absurd hsign.sign (firstPercentage?_eq_none_iff.1 hfind _)
    | some other =>
      have hend : other.before ++ other.token = found.before ++ found.token :=
        (firstSign_of_firstPercentage? hfind).unique hsign
      have hother := isLongestEnd_of_firstPercentage? hfind
      have htext := (Pattern.splits_of_search? hfind).1.text
      rw [hend] at hother
      have htoken : other.token = found.token := hother.unique hlongest
      obtain ⟨before, token, after⟩ := other
      obtain ⟨before', token', after'⟩ := found
      dsimp only at htoken hend hrow htext
      subst htoken
      obtain rfl := List.append_cancel_right hend
      rw [hrow, List.append_cancel_left_eq, List.append_cancel_left_eq] at htext
      rw [htext]

/-! ## The number -/

theorem not_isAscii_iff {t : Text} : ¬ IsAscii t ↔ ∃ c ∈ t, 128 ≤ c.toNat := by
  simp [IsAscii]

theorem IsDigits.isDigit {t : Text} (h : IsDigits t) (hascii : IsAscii t) :
    ∀ c ∈ t, c.isDigit = true :=
  fun c hc => Decimal.isDigit_of_isDecimalDigit (h.2 c hc) (hascii c hc)

theorem IsPercentage.exists_cons {t : Text} (h : IsPercentage t) :
    ∃ c rest, t = c :: rest ∧ Text.isDecimalDigit c = true := by
  obtain ⟨whole, hwhole, -, ht⟩ := h
  obtain ⟨c, rest, rfl⟩ := List.exists_cons_of_ne_nil hwhole.1
  have hc : Text.isDecimalDigit c = true := hwhole.2 c List.mem_cons_self
  rcases ht with rfl | ⟨part, -, rfl⟩
  · exact ⟨c, rest, rfl, hc⟩
  · exact ⟨c, rest ++ '.' :: part, rfl, hc⟩

/-- A percentage of ASCII digits is a fraction, with few whole digits. -/
theorem IsPercentage.exists_readBinary64?_eq {t : Text} (h : IsPercentage t) (hascii : IsAscii t) :
    ∃ x, Decimal.readBinary64? t = some x ∧ Decimal.Denotes t x := by
  obtain ⟨whole, hwhole, hthree, ht⟩ := h
  have hlength : whole.length ≤ 307 := Nat.le_trans hthree (by decide)
  rcases ht with rfl | ⟨part, hpart, rfl⟩
  · have hfraction : Decimal.IsFraction t [] t :=
      ⟨hwhole.1, hwhole.isDigit hascii, nofun, Or.inl ⟨rfl, rfl⟩⟩
    exact hfraction.exists_readBinary64?_eq hlength
  · obtain ⟨hasciiWhole, hasciiRest⟩ := List.forall_mem_append.1 hascii
    obtain ⟨-, hasciiPart⟩ := List.forall_mem_cons.1 hasciiRest
    have hfraction : Decimal.IsFraction whole part (whole ++ '.' :: part) :=
      ⟨hwhole.1, hwhole.isDigit hasciiWhole, hpart.isDigit hasciiPart, Or.inr rfl⟩
    exact hfraction.exists_readBinary64?_eq hlength

/-- A percentage with a digit of another script is no numeral. -/
theorem IsPercentage.readNumeral?_eq_none {t : Text} (h : IsPercentage t) (hforeign : ¬ IsAscii t) :
    Decimal.readNumeral? t = none := by
  obtain ⟨whole, hwhole, -, ht⟩ := h
  by_cases hasciiWhole : IsAscii whole
  · have hwholeDigits := hwhole.isDigit hasciiWhole
    rcases ht with rfl | ⟨part, hpart, rfl⟩
    · exact absurd hasciiWhole hforeign
    · have hforeignPart : ¬ IsAscii part := by
        intro hasciiPart
        refine hforeign (List.forall_mem_append.2 ⟨hasciiWhole, ?_⟩)
        exact List.forall_mem_cons.2 ⟨by decide, hasciiPart⟩
      obtain ⟨run, c, rest, rfl, hrun, hc⟩ :=
        Decimal.exists_foreign (not_isAscii_iff.1 hforeignPart)
      refine Decimal.readNumeral?_foreign_in_part (fun d hd => ?_) hc hwholeDigits
      exact Decimal.isDigit_of_isDecimalDigit (hpart.2 d (List.mem_append_left _ hd)) (hrun d hd)
  · obtain ⟨run, c, rest, rfl, hrun, hc⟩ :=
      Decimal.exists_foreign (not_isAscii_iff.1 hasciiWhole)
    have hrunDigits : ∀ d ∈ run, d.isDigit = true := fun d hd =>
      Decimal.isDigit_of_isDecimalDigit (hwhole.2 d (List.mem_append_left _ hd)) (hrun d hd)
    rcases ht with rfl | ⟨part, -, rfl⟩
    · exact Decimal.readNumeral?_foreign_in_whole hrunDigits hc
    · rw [List.append_assoc, List.cons_append]
      exact Decimal.readNumeral?_foreign_in_whole hrunDigits hc

theorem IsPercentage.readBinary64?_eq_none_iff {t : Text} (h : IsPercentage t) :
    Decimal.readBinary64? t = none ↔ ¬ IsAscii t := by
  constructor
  · intro hnone hascii
    obtain ⟨x, hx, -⟩ := h.exists_readBinary64?_eq hascii
    rw [hnone] at hx
    cases hx
  · intro hforeign
    have hnone := h.readNumeral?_eq_none hforeign
    obtain ⟨c, rest, rfl, hc⟩ := h.exists_cons
    rw [Decimal.readBinary64?_of_digit hc, hnone]
    rfl

theorem IsPercentage.readBinary64?_eq_some_iff {t : Text} (h : IsPercentage t) {x : Binary64} :
    Decimal.readBinary64? t = some x ↔ IsAscii t ∧ Decimal.Denotes t x := by
  by_cases hascii : IsAscii t
  · obtain ⟨y, hy, hdenotes⟩ := h.exists_readBinary64?_eq hascii
    rw [hy, Option.some.injEq]
    constructor
    · rintro rfl
      exact ⟨hascii, hdenotes⟩
    · exact fun hx => hdenotes.unique hx.2
  · rw [h.readBinary64?_eq_none_iff.2 hascii]
    exact iff_of_false nofun fun hx => hascii hx.1

end SourceAudit
