import SourceAudit.Proofs.Check.Coverage

/-!
# Percentages at the end of longer numbers

A number is digits, with a point between two runs of them. The percentage that is read from a row is
the end of the number before the sign, and it is all of it exactly when the number has the shape of
a percentage. From a number with four whole digits or with two points a shorter one is read.

    extract rows row metric = .ok x →
      (the number goes on before the token ↔ the number is no percentage) (percentage_alone_iff)
-/

namespace SourceAudit

/-! ## The rule -/

/-- Digits, and any number of times a point and more digits. -/
inductive IsNumber : Text → Prop
  | digits {t : Text} (h : IsDigits t) : IsNumber t
  | point {whole rest : Text} (h : IsDigits whole) (hrest : IsNumber rest) :
      IsNumber (whole ++ '.' :: rest)

/-- The last character is a digit, or a point right behind a digit. -/
def EndsMidNumber (t : Text) : Prop :=
  EndsInDigit t ∨ ∃ front, t = front ++ ['.'] ∧ EndsInDigit front

/-! ## Lemmas -/

theorem exists_isLongestEnd {shape : Text → Prop} {t token : Text} (h : shape token)
    (hsuffix : token <:+ t) : ∃ longest, IsLongestEnd shape t longest := by
  induction t with
  | nil =>
    obtain rfl := List.suffix_nil.1 hsuffix
    exact ⟨[], h, hsuffix, fun other _ hother => hother.length_le⟩
  | cons c rest ih =>
    by_cases hall : shape (c :: rest)
    · exact ⟨c :: rest, hall, List.suffix_refl _, fun other _ hother => hother.length_le⟩
    · have hshorter : ∀ other, shape other → other <:+ c :: rest → other <:+ rest := by
        intro other hother hend
        refine (List.suffix_cons_iff.1 hend).resolve_left ?_
        rintro rfl
        exact hall hother
      obtain ⟨longest, hlongest⟩ := ih (hshorter token h hsuffix)
      exact ⟨longest, hlongest.shaped, hlongest.suffix.trans (List.suffix_cons c rest),
        fun other hother hend => hlongest.longest other hother (hshorter other hother hend)⟩

theorem IsPercentage.isNumber {t : Text} (h : IsPercentage t) : IsNumber t := by
  obtain ⟨whole, hwhole, -, rfl | ⟨part, hpart, rfl⟩⟩ := h
  · exact .digits hwhole
  · exact .point hwhole (.digits hpart)

theorem IsDigits.cons {c : Char} {t : Text} (hc : Text.isDecimalDigit c = true) (h : IsDigits t) :
    IsDigits (c :: t) :=
  ⟨List.cons_ne_nil c t, List.forall_mem_cons.2 ⟨hc, h.2⟩⟩

theorem IsNumber.cons {c : Char} {t : Text} (hc : Text.isDecimalDigit c = true) (h : IsNumber t) :
    IsNumber (c :: t) := by
  cases h with
  | digits h => exact .digits (h.cons hc)
  | point h hrest => exact .point (h.cons hc) hrest

theorem EndsMidNumber.append {t : Text} (h : EndsMidNumber t) (front : Text) :
    EndsMidNumber (front ++ t) := by
  rcases h with h | ⟨middle, rfl, h⟩
  · exact Or.inl (h.append front)
  · exact Or.inr ⟨front ++ middle, (List.append_assoc front middle ['.']).symm, h.append front⟩

/-- A number with something in front of it is longer where that ends in the middle of a number. -/
theorem IsNumber.exists_longer {before t : Text} (h : IsNumber t) (hbefore : EndsMidNumber before) :
    ∃ longer, IsNumber longer ∧ longer <:+ before ++ t ∧ t.length < longer.length := by
  rcases hbefore with ⟨front, c, rfl, hc⟩ | ⟨-, rfl, front, c, rfl, hc⟩
  · refine ⟨c :: t, h.cons hc, ⟨front, ?_⟩, Nat.lt_succ_self _⟩
    rw [List.append_assoc, List.singleton_append]
  · refine ⟨c :: '.' :: t, .point (isDigits_singleton hc) h, ⟨front, by simp⟩, ?_⟩
    exact Nat.lt_succ_of_lt (Nat.lt_succ_self _)

/-- Wherever a number is cut, the first part ends in the middle of a number. -/
theorem IsNumber.endsMidNumber {t front rest : Text} (h : IsNumber t) (ht : t = front ++ rest)
    (hne : front ≠ []) : EndsMidNumber front := by
  have hdigits : ∀ {u v : Text}, IsDigits (u ++ v) → u ≠ [] → EndsMidNumber u := by
    intro u v h hne
    have hu : IsDigits u := ⟨hne, fun c hc => h.2 c (List.mem_append_left v hc)⟩
    exact Or.inl hu.endsInDigit
  induction h generalizing front with
  | digits h =>
    subst ht
    exact hdigits h hne
  | point h hrest ih =>
    rcases List.append_eq_append_iff.1 ht with ⟨behind, rfl, htail⟩ | ⟨behind, rfl, -⟩
    -- the cut is right before the point, right behind it, or in what follows
    · cases behind with
      | nil =>
        rw [List.append_nil]
        exact Or.inl h.endsInDigit
      | cons c behind =>
        obtain ⟨rfl, hmore⟩ := List.cons.inj htail
        cases behind with
        | nil => exact Or.inr ⟨_, rfl, h.endsInDigit⟩
        | cons d behind =>
          rw [List.append_cons]
          exact (ih hmore (List.cons_ne_nil d behind)).append _
    · exact hdigits h hne

/-- The longest percentage before a sign is all of the number there iff nothing of a number stands
before it, and iff the number has the shape of a percentage. -/
theorem IsLongestEnd.number_eq_iff {before token number : Text}
    (htoken : IsLongestEnd IsPercentage (before ++ token) token)
    (hnumber : IsLongestEnd IsNumber (before ++ token) number) :
    (token = number ↔ ¬ EndsMidNumber before) ∧ (token = number ↔ IsPercentage number) ∧
      token <:+ number := by
  have hle : token.length ≤ number.length :=
    hnumber.longest token htoken.shaped.isNumber htoken.suffix
  have hsuffix : token <:+ number :=
    List.suffix_of_suffix_length_le htoken.suffix hnumber.suffix hle
  refine ⟨⟨?_, ?_⟩, ⟨?_, ?_⟩, hsuffix⟩
  · rintro rfl hmid
    obtain ⟨longer, hlonger, hend, hlt⟩ := hnumber.shaped.exists_longer hmid
    exact Nat.not_lt_of_le (hnumber.longest longer hlonger hend) hlt
  · intro hmid
    obtain ⟨front, rfl⟩ := hsuffix
    obtain ⟨more, hmore⟩ := hnumber.suffix
    rw [← List.append_assoc, List.append_cancel_right_eq] at hmore
    cases front with
    | nil => rfl
    | cons c front =>
      refine absurd ?_ hmid
      rw [← hmore]
      exact (hnumber.shaped.endsMidNumber rfl (List.cons_ne_nil c front)).append more
  · rintro rfl
    exact htoken.shaped
  · intro hshape
    exact hsuffix.eq_of_length
      (Nat.le_antisymm hle (htoken.longest number hshape hnumber.suffix))

theorem extract_of_readPercentage? {rows : List Text} {row : Nat} {metric : Metric} {line : Text}
    {x : Binary64} (hline : rows[row]? = some line)
    (hname : Text.mentions (Text.lower line) metric.name = true)
    (hread : readPercentage? line = some x) : extract rows row metric = .ok x := by
  rw [extract_of_named hline (Text.mentions_iff.1 hname), hread]
  rfl

/-! ## Top theorem -/

/-- The percentage of a row is the end of the number before its sign. It is cut out of the middle of
that number exactly when the number is not itself one to three digits with perhaps a point and more
of them. -/
theorem percentage_alone_iff {rows : List Text} {row : Nat} {metric : Metric} {x : Binary64}
    (h : extract rows row metric = .ok x) :
    ∃ line found number, rows[row]? = some line ∧ firstPercentage? line = some found ∧
      Decimal.Denotes found.token x ∧
      IsLongestEnd IsNumber (found.before ++ found.token) number ∧ found.token <:+ number ∧
      (¬ EndsMidNumber found.before ↔ IsPercentage number) ∧
      (¬ EndsMidNumber found.before ↔ found.token = number) := by
  cases extract_eq_iff.1 h with
  | number hline hname hsign htoken hascii hx =>
    obtain ⟨found, hfind, rfl⟩ := firstPercentage?_of_firstSign hsign htoken
    have hend := isLongestEnd_of_firstPercentage? hfind
    obtain ⟨number, hnumber⟩ := exists_isLongestEnd hend.shaped.isNumber hend.suffix
    obtain ⟨halone, hshape, hsuffix⟩ := hend.number_eq_iff hnumber
    exact ⟨_, found, number, hline, hfind, hx, hnumber, hsuffix, halone.symm.trans hshape,
      halone.symm⟩

/-- The number `96.4` is read as a whole. -/
theorem percentage_alone_iff_lines :
    extract ["lines: 96.4%"] 0 .lines = .ok ⟨false, 1029, 0x819999999999a⟩ ∧
      ∃ line found number, (["lines: 96.4%"] : List Text)[0]? = some line ∧
        firstPercentage? line = some found ∧
        Decimal.Denotes found.token ⟨false, 1029, 0x819999999999a⟩ ∧
        IsLongestEnd IsNumber (found.before ++ found.token) number ∧ found.token <:+ number ∧
        (¬ EndsMidNumber found.before ↔ IsPercentage number) ∧
        (¬ EndsMidNumber found.before ↔ found.token = number) := by
  have hextract : extract ["lines: 96.4%"] 0 .lines = .ok ⟨false, 1029, 0x819999999999a⟩ :=
    extract_of_readPercentage? rfl (by decide +kernel) (by decide +kernel)
  exact ⟨hextract, percentage_alone_iff hextract⟩

/-- From `1234.5%` the last three of the whole digits are read, with a digit right before them. -/
theorem not_percentage_alone_of_fourDigits :
    ¬ ∀ (rows : List Text) (row : Nat) (metric : Metric) (x : Binary64) (line : Text)
      (found : Pattern.Found), rows[row]? = some line → extract rows row metric = .ok x →
        firstPercentage? line = some found → ¬ EndsMidNumber found.before := by
  intro h
  have hextract : extract ["lines: 1234.5%"] 0 .lines = .ok ⟨false, 1030, 0xd500000000000⟩ :=
    extract_of_readPercentage? rfl (by decide +kernel) (by decide +kernel)
  refine h ["lines: 1234.5%"] 0 .lines _ "lines: 1234.5%" ⟨"lines: 1", "234.5", "%"⟩ rfl hextract
    rfl ?_
  exact Or.inl ⟨"lines: ", '1', rfl, rfl⟩

end SourceAudit
