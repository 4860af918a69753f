import SourceAudit.Json.Reader
import SourceAudit.Json.Writer

/-!
# JSON, there and back

Both layouts of a value are read as that value, whatever texts are in it, as long as its numbers
are numerals. What lies between the marks of an array or an object is read alike with blanks and
without, so one argument serves both.

    j.Numeric → read? j.compact = some j                                          (read?_compact)
    j.Numeric → read? j.pretty = some j                                            (read?_pretty)
-/

namespace SourceAudit.Json

/-- Every number in a value is spelled as a numeral. -/
inductive Numeric : Json → Prop
  | null : Numeric .null
  | boolean (b : Bool) : Numeric (.boolean b)
  | number {numeral : Text} (h : isNumeral numeral = true) : Numeric (.number numeral)
  | text (t : Text) : Numeric (.text t)
  | array {items : List Json} (h : ∀ item ∈ items, Numeric item) : Numeric (.array items)
  | object {members : List (Text × Json)} (h : ∀ member ∈ members, Numeric member.2) :
    Numeric (.object members)

/-- A text behind which a numeral is at its end. -/
def EndsNumeral (rest : Text) : Prop := ∀ c ∈ rest.head?, isNumeralChar c = false

/-- A text that is read as a value wherever it stands before the end of a numeral. -/
structure ReadsAs (t : Text) (j : Json) : Prop where
  begins : ∃ c rest, t = c :: rest ∧ isSpace c = false ∧ c ≠ ']'
  takes : ∀ {fuel : Nat} {rest : Text}, t.length < fuel → EndsNumeral rest →
    takeValue? fuel (t ++ rest) = some (j, rest)

theorem ReadsAs.of_succ {t : Text} {j : Json}
    (hbegins : ∃ c rest, t = c :: rest ∧ isSpace c = false ∧ c ≠ ']')
    (h : ∀ fuel rest, t.length ≤ fuel → EndsNumeral rest →
      takeValue? (fuel + 1) (t ++ rest) = some (j, rest)) : ReadsAs t j where
  begins := hbegins
  takes := by
    intro fuel rest hfuel hrest
    cases fuel with
    | zero => exact absurd hfuel (Nat.not_lt_zero _)
    | succ fuel => exact h fuel rest (Nat.le_of_lt_succ hfuel) hrest

/-! ## Blanks -/

theorem endsNumeral_cons {c : Char} (hc : isNumeralChar c = false) (t : Text) :
    EndsNumeral (c :: t) := by
  intro d hd
  injection hd with hd
  exact hd ▸ hc

section Blanks

variable {gap : Text} (h : gap.all isSpace = true)

include h

theorem skipSpaces_append (t : Text) : skipSpaces (gap ++ t) = skipSpaces t :=
  List.dropWhile_append_of_pos (List.all_eq_true.1 h)

theorem takeValue?_append (fuel : Nat) (t : Text) :
    takeValue? fuel (gap ++ t) = takeValue? fuel t := by
  cases fuel with
  | zero => rfl
  | succ fuel => rw [takeValue?, takeValue?, skipSpaces_append h]

theorem takeItems?_append (fuel : Nat) (t : Text) :
    takeItems? fuel (gap ++ t) = takeItems? fuel t := by
  cases fuel with
  | zero => rfl
  | succ fuel => rw [takeItems?, takeItems?, takeValue?_append h]

theorem takeMembers?_append (fuel : Nat) (t : Text) :
    takeMembers? fuel (gap ++ t) = takeMembers? fuel t := by
  cases fuel with
  | zero => rfl
  | succ fuel => rw [takeMembers?, takeMembers?, skipSpaces_append h]

theorem endsNumeral_append {c : Char} (hc : isNumeralChar c = false) (t : Text) :
    EndsNumeral (gap ++ c :: t) := by
  cases gap with
  | nil => exact endsNumeral_cons hc t
  | cons b rest =>
    refine endsNumeral_cons ?_ _
    have hspace : isSpace b = true := List.all_eq_true.1 h b List.mem_cons_self
    simp only [isSpace, Bool.or_eq_true, beq_iff_eq] at hspace
    rcases hspace with ((rfl | rfl) | rfl) | rfl <;> rfl

end Blanks

theorem skipSpaces_cons {c : Char} (h : isSpace c = false) (t : Text) :
    skipSpaces (c :: t) = c :: t :=
  List.dropWhile_cons_of_neg (by simp [h])

theorem all_isSpace_nil : ([] : Text).all isSpace = true := rfl

theorem all_isSpace_blank : [' '].all isSpace = true := rfl

theorem all_isSpace_lineBreak (depth : Nat) : (lineBreak depth).all isSpace = true := by
  rw [lineBreak, List.all_cons, List.all_replicate]
  split <;> rfl

/-! ## Strings -/

theorem takeUnit?_append {digits : Text} {n : Nat} (hlength : digits.length = 4)
    (hn : (digits.mapM Text.hexValue?).map (·.foldl (fun n d => 16 * n + d) 0) = some n)
    (rest : Text) : takeUnit? (digits ++ rest) = some (n, rest) := by
  match digits, hlength with
  | [a, b, c, d], _ =>
    obtain ⟨values, hvalues, rfl⟩ := Option.map_eq_some_iff.1 hn
    show ([a, b, c, d].mapM Text.hexValue?).bind _ = _
    rw [hvalues]
    rfl

theorem takeEscape?_control {c : Char} (h : c.toNat < 0x20) (rest : Text) :
    takeEscape? ('u' :: Text.padStart 4 '0' (Text.hex c.toNat) ++ rest) = some (c, rest) := by
  have hall : ∀ n < 0x20, (Text.padStart 4 '0' (Text.hex n)).length = 4 ∧
      ((Text.padStart 4 '0' (Text.hex n)).mapM Text.hexValue?).map
        (·.foldl (fun n d => 16 * n + d) 0) = some n := by decide
  obtain ⟨hlength, hn⟩ := hall c.toNat h
  show (takeUnit? (Text.padStart 4 '0' (Text.hex c.toNat) ++ rest)).bind _ = _
  have hvalid : c.toNat.isValidChar := c.valid
  rw [takeUnit?_append hlength hn, Option.bind_some]
  simp only
  rw [if_pos hvalid, Char.ofNat_toNat]
  rfl

/-- A character is written as itself or by an escape. -/
theorem escapeChar_cases (c : Char) :
    (escapeChar c = [c] ∧ ¬ c.toNat < 0x20 ∧ c ≠ '"' ∧ c ≠ '\\') ∨
      ∃ escape, escapeChar c = '\\' :: escape ∧
        ∀ rest, takeEscape? (escape ++ rest) = some (c, rest) := by
  by_cases hplain : escapeChar c = [c] ∧ ¬ c.toNat < 0x20 ∧ c ≠ '"' ∧ c ≠ '\\'
  · exact Or.inl hplain
  · right
    unfold escapeChar at hplain ⊢
    split
    · exact ⟨['"'], rfl, fun rest => rfl⟩
    · exact ⟨['\\'], rfl, fun rest => rfl⟩
    · exact ⟨['b'], rfl, fun rest => rfl⟩
    · exact ⟨['f'], rfl, fun rest => rfl⟩
    · exact ⟨['n'], rfl, fun rest => rfl⟩
    · exact ⟨['r'], rfl, fun rest => rfl⟩
    · exact ⟨['t'], rfl, fun rest => rfl⟩
    · next hq hb _ _ _ _ _ =>
      by_cases hcontrol : c.toNat < 0x20
      · rw [if_pos hcontrol]
        exact ⟨_, rfl, takeEscape?_control hcontrol⟩
      · simp_all

/-- A written character is one step of the reader. -/
theorem takeString?_escapeChar (fuel : Nat) (c : Char) (rest : Text) :
    takeString? (fuel + 1) (escapeChar c ++ rest) =
      (takeString? fuel rest).map fun (body, rest) => (c :: body, rest) := by
  rcases escapeChar_cases c with ⟨hself, hcontrol, hq, hb⟩ | ⟨escape, hescape, htakes⟩
  · rw [hself, List.singleton_append, takeString?, if_neg hq, if_neg hb, if_neg hcontrol]
    cases takeString? fuel rest <;> rfl
  · rw [hescape, List.cons_append, takeString?, if_neg (by decide), if_pos rfl, htakes]
    show (takeString? fuel rest).bind _ = _
    cases takeString? fuel rest <;> rfl

theorem takeString?_escaped {fuel : Nat} {t : Text} (h : (escaped t).length < fuel)
    (rest : Text) : takeString? fuel (escaped t ++ '"' :: rest) = some (t, rest) := by
  induction t generalizing fuel with
  | nil =>
    obtain ⟨fuel, rfl⟩ := Nat.exists_eq_succ_of_ne_zero (Nat.ne_of_gt (Nat.zero_lt_of_lt h))
    rfl
  | cons c t ih =>
    have hpos : 0 < (escapeChar c).length := by
      rcases escapeChar_cases c with ⟨hself, -⟩ | ⟨escape, hescape, -⟩ <;> simp [*]
    have hsplit : escaped (c :: t) = escapeChar c ++ escaped t := List.flatMap_cons
    rw [hsplit, List.length_append] at h
    obtain ⟨fuel, rfl⟩ := Nat.exists_eq_succ_of_ne_zero (Nat.ne_of_gt (Nat.zero_lt_of_lt h))
    rw [hsplit, List.append_assoc, takeString?_escapeChar, ih (by omega)]
    rfl

/-- A quoted text is read behind its first quote. -/
theorem takeString?_quote (t rest : Text) :
    takeString? ((escaped t ++ '"' :: rest).length + 1) (escaped t ++ '"' :: rest) =
      some (t, rest) :=
  takeString?_escaped (by simp only [List.length_append]; omega) rest

theorem quote_append (t rest : Text) : quote t ++ rest = '"' :: (escaped t ++ '"' :: rest) := by
  rw [quote, List.append_assoc]
  rfl

theorem ReadsAs.text (t : Text) : ReadsAs (quote t) (.text t) := by
  refine ReadsAs.of_succ ⟨'"', escaped t ++ ['"'], rfl, rfl, by decide⟩ ?_
  intro fuel rest _ _
  rw [quote_append, takeValue?, skipSpaces_cons rfl]
  simp only
  rw [takeString?_quote]
  rfl

/-! ## Numbers -/

theorem isNumeralChar_of_isDigit {c : Char} (h : c.isDigit = true) : isNumeralChar c = true := by
  simp [isNumeralChar, h]

theorem isNumeralChar_of_isDigits {t : Text} (h : isDigits t = true) :
    t.all isNumeralChar = true := by
  rw [isDigits, Bool.and_eq_true, List.all_eq_true] at h
  exact List.all_eq_true.2 fun c hc => isNumeralChar_of_isDigit (h.2 c hc)

theorem isNumeralChar_of_isExponent {t : Text} (h : isExponent t = true) :
    t.all isNumeralChar = true := by
  cases t with
  | nil => rfl
  | cons c rest =>
    unfold isExponent at h
    rw [Bool.and_eq_true] at h
    have hc : isNumeralChar c = true := by
      simp only [Bool.or_eq_true, beq_iff_eq] at h
      rcases h.1 with rfl | rfl <;> rfl
    rw [List.all_cons, hc, Bool.true_and]
    obtain ⟨-, h⟩ := h
    split at h
    · rw [List.all_cons, isNumeralChar_of_isDigits h]
      rfl
    · rw [List.all_cons, isNumeralChar_of_isDigits h]
      rfl
    · exact isNumeralChar_of_isDigits h

theorem isNumeralChar_of_isMagnitude {t : Text} (h : isMagnitude t = true) :
    t.all isNumeralChar = true := by
  have hdigits : ∀ u : Text, (u.takeWhile Char.isDigit).all isNumeralChar = true := by
    intro u
    refine List.all_eq_true.2 fun c hc => isNumeralChar_of_isDigit ?_
    exact List.all_eq_true.1 List.all_takeWhile c hc
  rw [isMagnitude, Bool.and_eq_true] at h
  rw [← List.takeWhile_append_dropWhile (p := Char.isDigit) (l := t), List.all_append, hdigits,
    Bool.true_and]
  obtain ⟨-, h⟩ := h
  split at h
  · next rest hrest =>
    rw [Bool.and_eq_true] at h
    rw [hrest, List.all_cons, ← List.takeWhile_append_dropWhile (p := Char.isDigit) (l := rest),
      List.all_append, hdigits, isNumeralChar_of_isExponent h.2]
    rfl
  · exact isNumeralChar_of_isExponent h

theorem isNumeralChar_of_isNumeral {t : Text} (h : isNumeral t = true) :
    t.all isNumeralChar = true := by
  unfold isNumeral at h
  split at h
  · rw [List.all_cons, isNumeralChar_of_isMagnitude h]
    rfl
  · exact isNumeralChar_of_isMagnitude h

theorem takeNumber?_append {numeral rest : Text} (h : isNumeral numeral = true)
    (hrest : EndsNumeral rest) :
    takeNumber? (numeral ++ rest) = some (.number numeral, rest) := by
  have hchars := List.all_eq_true.1 (isNumeralChar_of_isNumeral h)
  have hend : rest.takeWhile isNumeralChar = [] ∧ rest.dropWhile isNumeralChar = rest := by
    cases rest with
    | nil => exact ⟨rfl, rfl⟩
    | cons c rest =>
      have hc : ¬ isNumeralChar c = true := by simp [hrest c rfl]
      exact ⟨List.takeWhile_cons_of_neg hc, List.dropWhile_cons_of_neg hc⟩
  rw [takeNumber?, List.takeWhile_append_of_pos hchars, List.dropWhile_append_of_pos hchars,
    hend.1, hend.2, List.append_nil, if_pos h]

theorem ReadsAs.number {numeral : Text} (h : isNumeral numeral = true) :
    ReadsAs numeral (.number numeral) := by
  have hne : numeral ≠ [] := by
    rintro rfl
    cases h
  obtain ⟨c, more, rfl⟩ := List.exists_cons_of_ne_nil hne
  have hc : isNumeralChar c = true :=
    List.all_eq_true.1 (isNumeralChar_of_isNumeral h) c List.mem_cons_self
  -- no blank and no mark is part of a numeral
  have hplain : isSpace c = false ∧ c ≠ ']' ∧ c ≠ '"' ∧ c ≠ '[' ∧ c ≠ '\x7b' := by
    refine ⟨?_, ?_, ?_, ?_, ?_⟩
    · rw [← Bool.not_eq_true]
      intro hspace
      simp only [isSpace, Bool.or_eq_true, beq_iff_eq] at hspace
      rcases hspace with ((rfl | rfl) | rfl) | rfl <;> cases hc
    all_goals
      rintro rfl
      cases hc
  refine ReadsAs.of_succ ⟨c, more, rfl, hplain.1, hplain.2.1⟩ ?_
  intro fuel rest _ hrest
  have hnumber := takeNumber?_append h hrest
  rw [List.cons_append] at hnumber ⊢
  rw [takeValue?, skipSpaces_cons hplain.1]
  split
  · simp_all
  · simp_all
  · simp_all
  · rw [hnumber]
    rfl

/-! ## Items and members -/

section Steps

variable {t gap last more rest : Text} {j : Json} {fuel : Nat}

theorem ReadsAs.length_pos (h : ReadsAs t j) : 0 < t.length := by
  obtain ⟨c, more, rfl, -⟩ := h.begins
  exact Nat.succ_pos _

theorem ReadsAs.takeItems?_last (h : ReadsAs t j) (hlast : last.all isSpace = true)
    (hfuel : t.length < fuel) :
    takeItems? (fuel + 1) (t ++ (last ++ ']' :: rest)) = some ([j], rest) := by
  rw [takeItems?, h.takes hfuel (endsNumeral_append hlast rfl rest)]
  simp only [Option.bind_eq_bind, Option.bind_some, skipSpaces_append hlast,
    skipSpaces_cons (c := ']') rfl]
  rfl

theorem ReadsAs.takeItems?_next (h : ReadsAs t j) (hfuel : t.length < fuel) {items : List Json}
    (hmore : takeItems? fuel more = some (items, rest)) :
    takeItems? (fuel + 1) (t ++ ',' :: more) = some (j :: items, rest) := by
  rw [takeItems?, h.takes hfuel (endsNumeral_cons rfl more)]
  simp only [Option.bind_eq_bind, Option.bind_some, skipSpaces_cons (c := ',') rfl, hmore]
  rfl

/-- A member with blanks behind its colon. -/
def writeMember (gap : Text) (write : Json → Text) (member : Text × Json) : Text :=
  quote member.1 ++ ':' :: (gap ++ write member.2)

theorem takeKey?_quote (key rest : Text) :
    takeKey? (quote key ++ ':' :: rest) = some (key, rest) := by
  rw [quote_append, takeKey?]
  show (takeString? _ _).bind _ = _
  rw [takeString?_quote]
  rfl

theorem skipSpaces_quote (key rest : Text) : skipSpaces (quote key ++ rest) = quote key ++ rest :=
  skipSpaces_cons rfl _

theorem ReadsAs.takeMembers?_last (h : ReadsAs t j) (hgap : gap.all isSpace = true)
    (hlast : last.all isSpace = true) (hfuel : t.length < fuel) (key : Text) :
    takeMembers? (fuel + 1) (quote key ++ ':' :: (gap ++ (t ++ (last ++ '\x7d' :: rest)))) =
      some ([(key, j)], rest) := by
  have hvalue := h.takes hfuel (endsNumeral_append hlast (c := '\x7d') rfl rest)
  rw [takeMembers?, skipSpaces_quote, takeKey?_quote]
  simp only [Option.bind_eq_bind, Option.bind_some, takeValue?_append hgap, hvalue,
    skipSpaces_append hlast, skipSpaces_cons (c := '\x7d') rfl]
  rfl

theorem ReadsAs.takeMembers?_next (h : ReadsAs t j) (hgap : gap.all isSpace = true)
    (hfuel : t.length < fuel) (key : Text) {members : List (Text × Json)}
    (hmore : takeMembers? fuel more = some (members, rest)) :
    takeMembers? (fuel + 1) (quote key ++ ':' :: (gap ++ (t ++ ',' :: more))) =
      some ((key, j) :: members, rest) := by
  have hvalue := h.takes hfuel (endsNumeral_cons (c := ',') rfl more)
  rw [takeMembers?, skipSpaces_quote, takeKey?_quote]
  simp only [Option.bind_eq_bind, Option.bind_some, takeValue?_append hgap, hvalue,
    skipSpaces_cons (c := ',') rfl, hmore]
  rfl

end Steps

/-! ## Arrays and objects -/

theorem intercalate_map_cons {α : Type} (separator : Text) (write : α → Text) (a b : α)
    (rest : List α) :
    List.intercalate separator ((a :: b :: rest).map write) =
      write a ++ (separator ++ List.intercalate separator ((b :: rest).map write)) := by
  rw [List.map_cons, List.map_cons, List.intercalate_cons_cons, List.append_assoc]

/-- The first item of an array is seen before anything else. -/
theorem exists_intercalate_eq_cons {write : Json → Text} {items : List Json}
    (h : ∀ item ∈ items, ReadsAs (write item) item) (hne : items ≠ []) (separator : Text) :
    ∃ c rest, List.intercalate separator (items.map write) = c :: rest ∧ isSpace c = false ∧
      c ≠ ']' := by
  obtain ⟨item, items, rfl⟩ := List.exists_cons_of_ne_nil hne
  obtain ⟨c, more, hitem, hspace, hmark⟩ := (h item List.mem_cons_self).begins
  cases items with
  | nil =>
    rw [List.map_singleton, List.intercalate_singleton, hitem]
    exact ⟨c, more, rfl, hspace, hmark⟩
  | cons next items =>
    rw [intercalate_map_cons, hitem, List.cons_append]
    exact ⟨c, _, rfl, hspace, hmark⟩

theorem exists_intercalate_eq_quote (members : List (Text × Json)) (hne : members ≠ [])
    (separator gap : Text) (write : Json → Text) :
    ∃ rest, List.intercalate separator (members.map (writeMember gap write)) = '"' :: rest := by
  obtain ⟨member, members, rfl⟩ := List.exists_cons_of_ne_nil hne
  cases members with
  | nil =>
    rw [List.map_singleton, List.intercalate_singleton, writeMember, quote_append]
    exact ⟨_, rfl⟩
  | cons next members =>
    rw [intercalate_map_cons, writeMember, quote_append, List.cons_append]
    exact ⟨_, rfl⟩

section Marks

variable {gap last : Text} (hgap : gap.all isSpace = true) (hlast : last.all isSpace = true)
  {write : Json → Text}

include hgap hlast

theorem takeItems?_intercalate {items : List Json} {fuel : Nat}
    (h : ∀ item ∈ items, ReadsAs (write item) item) (hne : items ≠ [])
    (hfuel : (List.intercalate (',' :: gap) (items.map write)).length + 1 < fuel) (rest : Text) :
    takeItems? fuel (List.intercalate (',' :: gap) (items.map write) ++ (last ++ ']' :: rest)) =
      some (items, rest) := by
  induction items generalizing fuel with
  | nil => exact absurd rfl hne
  | cons item items ih =>
    obtain ⟨fuel, rfl⟩ := Nat.exists_eq_succ_of_ne_zero (Nat.ne_of_gt (Nat.zero_lt_of_lt hfuel))
    obtain ⟨hitem, hitems⟩ := List.forall_mem_cons.1 h
    cases items with
    | nil =>
      rw [List.map_singleton, List.intercalate_singleton] at hfuel ⊢
      exact hitem.takeItems?_last hlast (by omega)
    | cons next items =>
      have hpos := hitem.length_pos
      rw [intercalate_map_cons] at hfuel ⊢
      simp only [List.length_append, List.length_cons] at hfuel
      rw [List.append_assoc, List.append_assoc, List.cons_append]
      refine hitem.takeItems?_next (by omega) ?_
      rw [takeItems?_append hgap]
      exact ih hitems (List.cons_ne_nil _ _) (by omega)

theorem ReadsAs.array {items : List Json} (h : ∀ item ∈ items, ReadsAs (write item) item)
    (hne : items ≠ []) :
    ReadsAs ('[' :: (gap ++ (List.intercalate (',' :: gap) (items.map write) ++ (last ++ [']']))))
      (.array items) := by
  refine ReadsAs.of_succ ⟨'[', _, rfl, rfl, by decide⟩ ?_
  intro fuel rest hfuel _
  simp only [List.length_append, List.length_cons] at hfuel
  have hneed : (List.intercalate (',' :: gap) (items.map write)).length + 1 < fuel := by omega
  have hitems := takeItems?_intercalate hgap hlast h hne hneed rest
  obtain ⟨c, more, hbody, hspace, hmark⟩ := exists_intercalate_eq_cons h hne (',' :: gap)
  rw [hbody] at hitems ⊢
  simp only [List.cons_append, List.append_assoc, List.nil_append] at hitems ⊢
  rw [takeValue?, skipSpaces_cons rfl]
  simp only [skipSpaces_append hgap, skipSpaces_cons hspace]
  split
  · next hc =>
    injection hc with hc
    exact absurd hc hmark
  · rw [hitems]
    rfl

variable {colonGap : Text} (hcolon : colonGap.all isSpace = true)

include hcolon

theorem takeMembers?_intercalate {members : List (Text × Json)} {fuel : Nat}
    (h : ∀ member ∈ members, ReadsAs (write member.2) member.2) (hne : members ≠ [])
    (hfuel : (List.intercalate (',' :: gap) (members.map (writeMember colonGap write))).length + 1 <
      fuel) (rest : Text) :
    takeMembers? fuel (List.intercalate (',' :: gap) (members.map (writeMember colonGap write)) ++
      (last ++ '\x7d' :: rest)) = some (members, rest) := by
  induction members generalizing fuel with
  | nil => exact absurd rfl hne
  | cons member members ih =>
    obtain ⟨fuel, rfl⟩ := Nat.exists_eq_succ_of_ne_zero (Nat.ne_of_gt (Nat.zero_lt_of_lt hfuel))
    obtain ⟨hmember, hmembers⟩ := List.forall_mem_cons.1 h
    cases members with
    | nil =>
      rw [List.map_singleton, List.intercalate_singleton, writeMember] at hfuel ⊢
      simp only [List.length_append, List.length_cons] at hfuel
      rw [List.append_assoc, List.cons_append, List.append_assoc]
      exact hmember.takeMembers?_last hcolon hlast (by omega) member.1
    | cons next members =>
      have hpos := hmember.length_pos
      rw [intercalate_map_cons, writeMember] at hfuel ⊢
      simp only [List.length_append, List.length_cons] at hfuel
      simp only [List.append_assoc, List.cons_append]
      refine hmember.takeMembers?_next hcolon (by omega) member.1 ?_
      rw [takeMembers?_append hgap]
      exact ih hmembers (List.cons_ne_nil _ _) (by omega)

theorem ReadsAs.object {members : List (Text × Json)}
    (h : ∀ member ∈ members, ReadsAs (write member.2) member.2) (hne : members ≠ []) :
    ReadsAs ('\x7b' :: (gap ++
      (List.intercalate (',' :: gap) (members.map (writeMember colonGap write)) ++
        (last ++ ['\x7d'])))) (.object members) := by
  refine ReadsAs.of_succ ⟨'\x7b', _, rfl, rfl, by decide⟩ ?_
  intro fuel rest hfuel _
  simp only [List.length_append, List.length_cons] at hfuel
  have hneed : (List.intercalate (',' :: gap)
      (members.map (writeMember colonGap write))).length + 1 < fuel := by omega
  have hmembers := takeMembers?_intercalate hgap hlast hcolon h hne hneed rest
  obtain ⟨more, hbody⟩ := exists_intercalate_eq_quote members hne (',' :: gap) colonGap write
  rw [hbody] at hmembers ⊢
  simp only [List.cons_append, List.append_assoc, List.nil_append] at hmembers ⊢
  rw [takeValue?, skipSpaces_cons rfl]
  simp only [skipSpaces_append hgap, skipSpaces_cons (c := '"') rfl]
  show (takeMembers? fuel ('"' :: (more ++ (last ++ '\x7d' :: rest)))).map _ = _
  rw [hmembers]
  rfl

end Marks

/-! ## Layouts -/

theorem compactItems_eq_map (items : List Json) : compactItems items = items.map compact := by
  induction items with
  | nil => rfl
  | cons item items ih => rw [compactItems, ih, List.map_cons]

theorem compactMembers_eq_map (members : List (Text × Json)) :
    compactMembers members = members.map (writeMember [] compact) := by
  induction members with
  | nil => rfl
  | cons member members ih =>
    rw [compactMembers, ih, List.map_cons, writeMember, List.append_assoc]
    rfl

theorem prettyItems_eq_map (depth : Nat) (items : List Json) :
    prettyItems depth items = items.map (prettyAt depth) := by
  induction items with
  | nil => rfl
  | cons item items ih => rw [prettyItems, ih, List.map_cons]

theorem prettyMembers_eq_map (depth : Nat) (members : List (Text × Json)) :
    prettyMembers depth members = members.map (writeMember [' '] (prettyAt depth)) := by
  induction members with
  | nil => rfl
  | cons member members ih =>
    rw [prettyMembers, ih, List.map_cons, writeMember, List.append_assoc]
    rfl

theorem ReadsAs.null : ReadsAs "null" .null :=
  ReadsAs.of_succ ⟨'n', _, rfl, rfl, by decide⟩ fun _ _ _ _ => rfl

theorem ReadsAs.boolean (b : Bool) : ReadsAs (if b then "true" else "false") (.boolean b) := by
  cases b with
  | true => exact ReadsAs.of_succ ⟨'t', _, rfl, rfl, by decide⟩ fun _ _ _ _ => rfl
  | false => exact ReadsAs.of_succ ⟨'f', _, rfl, rfl, by decide⟩ fun _ _ _ _ => rfl

theorem ReadsAs.emptyArray : ReadsAs "[]" (.array []) :=
  ReadsAs.of_succ ⟨'[', _, rfl, rfl, by decide⟩ fun _ _ _ _ => rfl

theorem ReadsAs.emptyObject : ReadsAs "\x7b\x7d" (.object []) :=
  ReadsAs.of_succ ⟨'\x7b', _, rfl, rfl, by decide⟩ fun _ _ _ _ => rfl

theorem Numeric.readsAs_compact {j : Json} (h : j.Numeric) : ReadsAs j.compact j := by
  induction h with
  | null => exact ReadsAs.null
  | boolean b => exact ReadsAs.boolean b
  | number h => exact ReadsAs.number h
  | text t => exact ReadsAs.text t
  | @array items _ ih =>
    cases items with
    | nil => exact ReadsAs.emptyArray
    | cons item items =>
      rw [compact, compactItems_eq_map, List.append_assoc]
      exact ReadsAs.array all_isSpace_nil all_isSpace_nil ih (List.cons_ne_nil _ _)
  | @object members _ ih =>
    cases members with
    | nil => exact ReadsAs.emptyObject
    | cons member members =>
      rw [compact, compactMembers_eq_map, List.append_assoc]
      exact ReadsAs.object all_isSpace_nil all_isSpace_nil all_isSpace_nil ih
        (List.cons_ne_nil _ _)

theorem Numeric.readsAs_prettyAt {j : Json} (h : j.Numeric) (depth : Nat) :
    ReadsAs (j.prettyAt depth) j := by
  induction h generalizing depth with
  | null => exact ReadsAs.null
  | boolean b => exact ReadsAs.boolean b
  | number h => exact ReadsAs.number h
  | text t => exact ReadsAs.text t
  | @array items _ ih =>
    cases items with
    | nil => exact ReadsAs.emptyArray
    | cons item items =>
      have hreads := ReadsAs.array (all_isSpace_lineBreak (depth + 1))
        (all_isSpace_lineBreak depth) (fun item hitem => ih item hitem (depth + 1))
        (List.cons_ne_nil item items)
      rw [prettyAt, prettyItems_eq_map, block]
      simpa using hreads
  | @object members _ ih =>
    cases members with
    | nil => exact ReadsAs.emptyObject
    | cons member members =>
      have hreads := ReadsAs.object (all_isSpace_lineBreak (depth + 1))
        (all_isSpace_lineBreak depth) all_isSpace_blank
        (fun member hmember => ih member hmember (depth + 1)) (List.cons_ne_nil member members)
      rw [prettyAt, prettyMembers_eq_map, block]
      simpa using hreads

/-! ## There and back -/

theorem ReadsAs.read? {t : Text} {j : Json} (h : ReadsAs t j) : Json.read? t = some j := by
  have hends : EndsNumeral [] := nofun
  have htakes := h.takes (Nat.lt_succ_self _) hends
  rw [List.append_nil] at htakes
  rw [Json.read?, htakes]
  rfl

theorem read?_compact {j : Json} (h : j.Numeric) : read? j.compact = some j :=
  h.readsAs_compact.read?

theorem read?_pretty {j : Json} (h : j.Numeric) : read? j.pretty = some j :=
  (h.readsAs_prettyAt 0).read?

end SourceAudit.Json
