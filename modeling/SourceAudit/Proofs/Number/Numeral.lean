import SourceAudit.Number.Decimal
import SourceAudit.Proofs.Number.Nearest
import SourceAudit.Text.DecimalDigit

/-!
# Numerals of digits and a point

A numeral of ASCII digits with at most one point is read as the double nearest to the number that it
denotes. A digit of another script ends the digits of a numeral without being an exponent, so that
nothing is read.

    IsFraction whole part t → whole.length ≤ 307 →
      ∃ x, readBinary64? t = some x ∧ Denotes t x                        (exists_readBinary64?_eq)
    Denotes t x → Denotes t y → x = y                                          (Denotes.unique)
    a digit of another script is in t → readNumeral? t = none  (readNumeral?_foreign_in_whole,
                                                                readNumeral?_foreign_in_part)
-/

namespace SourceAudit.Decimal

/-! ## The rule -/

/-- How many characters stand behind the point of a numeral. -/
def places (t : Text) : Nat := (t.dropWhile (· != '.')).length - 1

/-- The double nearest to the number that a numeral writes. -/
def Denotes (t : Text) (x : Binary64) : Prop :=
  x.IsNearest (ofDigits (t.filter (· != '.'))) (tenTo (places t))

/-- ASCII digits, and perhaps a point with more of them behind it. -/
structure IsFraction (whole part t : Text) : Prop where
  nonempty : whole ≠ []
  whole_digits : ∀ c ∈ whole, c.isDigit = true
  part_digits : ∀ c ∈ part, c.isDigit = true
  spelled : t = whole ∧ part = [] ∨ t = whole ++ '.' :: part

/-! ## Digits -/

theorem digitValue_lt {c : Char} (h : c.isDigit = true) : digitValue c < 10 := by
  have hnine : c.toNat ≤ 57 := (Char.isDigit_iff_toNat.1 h).2
  have hzero : '0'.toNat = 48 := rfl
  unfold digitValue
  omega

theorem foldl_digits_lt {t : Text} (h : ∀ c ∈ t, c.isDigit = true) (n : Nat) :
    t.foldl (fun n c => 10 * n + digitValue c) n < (n + 1) * tenTo t.length := by
  induction t generalizing n with
  | nil => exact Nat.lt_of_lt_of_eq (Nat.lt_succ_self n) (Nat.mul_one _).symm
  | cons c rest ih =>
    obtain ⟨hc, hrest⟩ := List.forall_mem_cons.1 h
    have hvalue := digitValue_lt hc
    rw [List.foldl_cons, List.length_cons, tenTo_succ]
    calc rest.foldl (fun n c => 10 * n + digitValue c) (10 * n + digitValue c)
        < (10 * n + digitValue c + 1) * tenTo rest.length := ih hrest _
      _ ≤ (n + 1) * 10 * tenTo rest.length := Nat.mul_le_mul_right _ (by omega)
      _ = (n + 1) * (tenTo rest.length * 10) := by rw [Nat.mul_assoc, Nat.mul_comm 10]

theorem ofDigits_lt {t : Text} (h : ∀ c ∈ t, c.isDigit = true) : ofDigits t < tenTo t.length :=
  Nat.lt_of_lt_of_eq (foldl_digits_lt h 0) (Nat.one_mul _)

theorem isDigit_of_isDecimalDigit {c : Char} (h : Text.isDecimalDigit c = true)
    (hascii : c.toNat < 128) : c.isDigit = true := by
  rwa [Text.isDecimalDigit, if_pos hascii] at h

theorem isDecimalDigit_of_isDigit {c : Char} (h : c.isDigit = true) :
    Text.isDecimalDigit c = true := by
  have hnine : c.toNat ≤ 57 := (Char.isDigit_iff_toNat.1 h).2
  rwa [Text.isDecimalDigit, if_pos (by omega)]

theorem point_not_mem {t : Text} (h : ∀ c ∈ t, c.isDigit = true) : '.' ∉ t :=
  fun hmem => absurd (h '.' hmem) (by decide)

/-- The digits in front of a text, and what is left, where they end before `rest`. -/
theorem span_digits {run : Text} (hrun : ∀ c ∈ run, c.isDigit = true) (rest : Text)
    (hrest : ∀ c ∈ rest.head?, c.isDigit = false) :
    (run ++ rest).takeWhile Char.isDigit = run ∧ (run ++ rest).dropWhile Char.isDigit = rest := by
  rw [List.takeWhile_append_of_pos hrun, List.dropWhile_append_of_pos hrun]
  cases rest with
  | nil => exact ⟨List.append_nil run, rfl⟩
  | cons c rest =>
    have hc : ¬ c.isDigit = true := Bool.eq_false_iff.1 (hrest c rfl)
    rw [List.takeWhile_cons_of_neg hc, List.dropWhile_cons_of_neg hc]
    exact ⟨List.append_nil run, rfl⟩

/-! ## What a numeral spells -/

namespace IsFraction

variable {whole part t : Text} (h : IsFraction whole part t)

include h

theorem exists_cons : ∃ c rest, t = c :: rest ∧ c.isDigit = true := by
  obtain ⟨c, rest, rfl⟩ := List.exists_cons_of_ne_nil h.nonempty
  have hc : c.isDigit = true := h.whole_digits c List.mem_cons_self
  rcases h.spelled with ⟨rfl, -⟩ | rfl
  · exact ⟨c, rest, rfl, hc⟩
  · exact ⟨c, rest ++ '.' :: part, rfl, hc⟩

theorem digits_eq : t.filter (· != '.') = whole ++ part := by
  have hkeep : ∀ {u : Text}, (∀ c ∈ u, c.isDigit = true) → u.filter (· != '.') = u := by
    intro u hu
    refine List.filter_eq_self.2 fun c hc => bne_iff_ne.2 ?_
    rintro rfl
    exact point_not_mem hu hc
  rcases h.spelled with ⟨rfl, rfl⟩ | rfl
  · rw [hkeep h.whole_digits, List.append_nil]
  · rw [List.filter_append, hkeep h.whole_digits, List.filter_cons_of_neg (by decide),
      hkeep h.part_digits]

theorem places_eq : places t = part.length := by
  have hwhole : ∀ c ∈ whole, (c != '.') = true := by
    intro c hc
    rw [bne_iff_ne]
    rintro rfl
    exact point_not_mem h.whole_digits hc
  unfold places
  rcases h.spelled with ⟨rfl, rfl⟩ | rfl
  · rw [← List.append_nil t, List.dropWhile_append_of_pos hwhole]
    rfl
  · rw [List.dropWhile_append_of_pos hwhole, List.dropWhile_cons_of_neg (by decide)]
    rfl

theorem readNumeral?_eq : readNumeral? t = some ⟨whole ++ part, -(part.length : Int)⟩ := by
  have hempty : whole.isEmpty = false := List.isEmpty_eq_false_iff.2 h.nonempty
  unfold readNumeral?
  rcases h.spelled with ⟨rfl, rfl⟩ | rfl
  · obtain ⟨htake, hdrop⟩ := span_digits h.whole_digits [] nofun
    rw [List.append_nil] at htake hdrop
    simp [htake, hdrop, hempty, readExponent?]
  · obtain ⟨htake, hdrop⟩ := span_digits h.whole_digits ('.' :: part) (by simp)
    obtain ⟨htakePart, hdropPart⟩ := span_digits h.part_digits [] nofun
    rw [List.append_nil] at htakePart hdropPart
    simp [htake, hdrop, htakePart, hdropPart, hempty, readExponent?]

end IsFraction

/-! ## Reading a double -/

theorem toLower_eq_self_of_isDecimalDigit {c : Char} (h : Text.isDecimalDigit c = true) :
    c.toLower = c := by
  refine dif_neg fun hupper => ?_
  have hlow : 65 ≤ c.toNat := UInt32.le_iff_toNat_le.1 hupper.1
  have hhigh : c.toNat ≤ 90 := UInt32.le_iff_toNat_le.1 hupper.2
  have hnine : c.toNat ≤ 57 :=
    (Char.isDigit_iff_toNat.1 (isDigit_of_isDecimalDigit h (by omega))).2
  omega

theorem ne_of_isDecimalDigit {c d : Char} (hc : Text.isDecimalDigit c = true)
    (hd : Text.isDecimalDigit d = false) : c ≠ d := by
  rintro rfl
  rw [hc] at hd
  cases hd

theorem splitSign_of_isDecimalDigit {c : Char} {rest : Text} (h : Text.isDecimalDigit c = true) :
    splitSign (c :: rest) = (false, c :: rest) :=
  splitSign.eq_3 _
    (fun _ htext => ne_of_isDecimalDigit h (by decide) (List.cons.inj htext).1)
    (fun _ htext => ne_of_isDecimalDigit h (by decide) (List.cons.inj htext).1)

/-- With a digit at its front a text is neither a word nor has it a sign. -/
theorem readBinary64?_of_digit {c : Char} {rest : Text} (h : Text.isDecimalDigit c = true) :
    readBinary64? (c :: rest) = (readNumeral? (c :: rest)).map (Numeral.toBinary64 false) := by
  have hword : ∀ {word : Text}, (∃ d ∈ word.head?, Text.isDecimalDigit d = false) →
      (c :: rest).map Char.toLower ≠ word := by
    rintro word ⟨d, hd, hdigit⟩ rfl
    rw [List.map_cons, toLower_eq_self_of_isDecimalDigit h] at hd
    exact ne_of_isDecimalDigit h hdigit (Option.some.inj hd)
  unfold readBinary64?
  rw [splitSign_of_isDecimalDigit h]
  dsimp only
  rw [if_neg (hword ⟨'n', rfl, by decide⟩),
    if_neg (not_or.2 ⟨hword ⟨'i', rfl, by decide⟩, hword ⟨'i', rfl, by decide⟩⟩)]

/-- A fraction with no more whole digits than a finite double can have is read as the double nearest
to the number. -/
theorem IsFraction.exists_readBinary64?_eq {whole part t : Text} (h : IsFraction whole part t)
    (hlength : whole.length ≤ 307) : ∃ x, readBinary64? t = some x ∧ Denotes t x := by
  refine ⟨.ofDecimal false (ofDigits (whole ++ part)) (-(part.length : Int)), ?_, ?_⟩
  · obtain ⟨c, rest, rfl, hc⟩ := h.exists_cons
    rw [readBinary64?_of_digit (isDecimalDigit_of_isDigit hc), h.readNumeral?_eq]
    rfl
  · have hdigits : ofDigits (whole ++ part) < tenTo (whole.length + part.length) := by
      rw [← List.length_append]
      exact ofDigits_lt (List.forall_mem_append.2 ⟨h.whole_digits, h.part_digits⟩)
    have hbound : tenTo 307 ≤ twoTo 1023 := by decide +kernel
    rw [Denotes, h.digits_eq, h.places_eq]
    refine Binary64.isNearest_ofDecimal (Nat.lt_of_lt_of_le hdigits ?_)
    rw [tenTo_add]
    exact Nat.mul_le_mul_right _ (Nat.le_trans (tenTo_le hlength) hbound)

theorem Denotes.unique {t : Text} {x y : Binary64} (hx : Denotes t x) (hy : Denotes t y) : x = y :=
  Binary64.IsNearest.unique (Nat.ne_of_gt (tenTo_pos _)) hx hy

/-! ## Digits of other scripts -/

/-- The first character that is not ASCII, and what stands before it. -/
theorem exists_foreign {t : Text} (h : ∃ c ∈ t, 128 ≤ c.toNat) :
    ∃ run c rest, t = run ++ c :: rest ∧ (∀ d ∈ run, d.toNat < 128) ∧ 128 ≤ c.toNat := by
  have hsome : (t.find? fun c => 128 ≤ c.toNat).isSome = true :=
    List.find?_isSome.2 (by simpa using h)
  obtain ⟨c, hfind⟩ := Option.isSome_iff_exists.1 hsome
  obtain ⟨hc, run, rest, rfl, hrun⟩ := List.find?_eq_some_iff_append.1 hfind
  exact ⟨run, c, rest, rfl, fun d hd => by simpa using hrun d hd, by simpa using hc⟩

section Foreign

variable {run : Text} {c : Char} (hrun : ∀ d ∈ run, d.isDigit = true) (hc : 128 ≤ c.toNat)

include hrun hc

theorem span_foreign (rest : Text) : (run ++ c :: rest).takeWhile Char.isDigit = run ∧
    (run ++ c :: rest).dropWhile Char.isDigit = c :: rest := by
  refine span_digits hrun (c :: rest) fun d hd => ?_
  obtain rfl := Option.mem_some_iff.1 hd
  refine Bool.eq_false_iff.2 fun hdigit => ?_
  have hnine : c.toNat ≤ 57 := (Char.isDigit_iff_toNat.1 hdigit).2
  omega

omit hrun in
theorem readExponent?_foreign {rest : Text} : readExponent? (c :: rest) = none := by
  refine if_neg ?_
  rintro (rfl | rfl) <;> revert hc <;> decide

theorem readNumeral?_foreign_in_whole {rest : Text} : readNumeral? (run ++ c :: rest) = none := by
  obtain ⟨htake, hdrop⟩ := span_foreign hrun hc rest
  have hpoint : c ≠ '.' := by
    rintro rfl
    revert hc
    decide
  unfold readNumeral?
  simp [htake, hdrop, hpoint, readExponent?_foreign hc]

theorem readNumeral?_foreign_in_part {whole rest : Text} (hwhole : ∀ d ∈ whole, d.isDigit = true) :
    readNumeral? (whole ++ '.' :: (run ++ c :: rest)) = none := by
  obtain ⟨htake, hdrop⟩ := span_foreign hrun hc rest
  obtain ⟨htakeWhole, hdropWhole⟩ :=
    span_digits hwhole ('.' :: (run ++ c :: rest)) (by simp)
  unfold readNumeral?
  simp [htakeWhole, hdropWhole, htake, hdrop, readExponent?_foreign hc]

end Foreign

end SourceAudit.Decimal
