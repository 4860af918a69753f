import SourceAudit.Text.Basic

/-!
# Patterns

A pattern matches the front of a text in ways that stand in an order: more repetitions come before
fewer, and an optional part before its absence. A search takes the leftmost place at which there is
a way, and there the first one.

    rest ∈ p.rests t ↔ ∃ token, t = token ++ rest ∧ p.Matches token                (mem_rests_iff)
    p.search? q t = some found → p.Splits q t found, and no token begins further left
                                                                               (splits_of_search?)
    p.search? q t = none ↔ ∀ found, ¬ p.Splits q t found                      (search?_eq_none_iff)
-/

namespace SourceAudit

/-! ## Algorithm -/

inductive Pattern
  | repeated (accepts : Char → Bool) (least : Nat) (most : Option Nat)
  | seq (first second : Pattern)
  | optional (p : Pattern)

namespace Pattern

/-- A token of a text, with what stands before and behind it. -/
structure Found where
  before : Text
  token : Text
  after : Text

/-- One character of a kind. -/
def one (accepts : Char → Bool) : Pattern := .repeated accepts 1 (some 1)

/-- What is left of a text behind none, one, two … of its first characters, at most `most`, for as
long as they are accepted. -/
def restsUpTo (accepts : Char → Bool) : Nat → Text → List Text
  | n + 1, c :: rest => (c :: rest) :: if accepts c then restsUpTo accepts n rest else []
  | _, t => [t]

/-- What is left of a text behind each way to match the pattern, in the order of the ways. -/
def rests : Pattern → Text → List Text
  | .repeated accepts least most, t =>
    ((restsUpTo accepts (most.getD t.length) t).drop least).reverse
  | .seq first second, t => (first.rests t).flatMap second.rests
  | .optional p, t => p.rests t ++ [t]

/-- The token of `p` at the front of a text, on the first way behind which the text goes on as `q`
asks for. -/
def tokenAt? (p q : Pattern) (t : Text) : Option Found :=
  ((p.rests t).find? fun rest => !(q.rests rest).isEmpty).map fun rest =>
    ⟨[], t.take (t.length - rest.length), rest⟩

/-- The leftmost token of `p` behind which the text goes on as `q` asks for. -/
def search? (p q : Pattern) : Text → Option Found
  | [] => p.tokenAt? q []
  | c :: rest =>
    match p.tokenAt? q (c :: rest) with
    | some found => some found
    | none => (p.search? q rest).map fun found => { found with before := c :: found.before }

/-! ## Meaning -/

/-- The texts that a pattern stands for. -/
def Matches : Pattern → Text → Prop
  | .repeated accepts least most, t =>
    (∀ c ∈ t, accepts c = true) ∧ least ≤ t.length ∧ ∀ n ∈ most, t.length ≤ n
  | .seq first second, t => ∃ u v, t = u ++ v ∧ first.Matches u ∧ second.Matches v
  | .optional p, t => t = [] ∨ p.Matches t

/-- The text begins with a token of the pattern. -/
def Begins (q : Pattern) (t : Text) : Prop := ∃ token rest, t = token ++ rest ∧ q.Matches token

/-- A token of `p` stands in the text, and behind it the text goes on as `q` asks for. -/
structure Splits (p q : Pattern) (t : Text) (found : Found) : Prop where
  text : t = found.before ++ (found.token ++ found.after)
  token : p.Matches found.token
  after : q.Begins found.after

/-! ## Lemmas -/

theorem matches_one {accepts : Char → Bool} {t : Text} :
    (one accepts).Matches t ↔ ∃ c, t = [c] ∧ accepts c = true := by
  constructor
  · rintro ⟨haccepts, hleast, hmost⟩
    obtain ⟨c, rfl⟩ := List.length_eq_one_iff.1 (Nat.le_antisymm (hmost 1 rfl) hleast)
    exact ⟨c, rfl, haccepts c List.mem_cons_self⟩
  · rintro ⟨c, rfl, hc⟩
    refine ⟨List.forall_mem_singleton.2 hc, Nat.le_refl 1, fun n hn => ?_⟩
    obtain rfl := Option.some.inj hn
    exact Nat.le_refl 1

theorem matches_seq {first second : Pattern} {t : Text} :
    (seq first second).Matches t ↔ ∃ u v, t = u ++ v ∧ first.Matches u ∧ second.Matches v := Iff.rfl

theorem matches_optional {p : Pattern} {t : Text} :
    (optional p).Matches t ↔ t = [] ∨ p.Matches t := Iff.rfl

theorem exists_run_zero_iff {p : Text → Prop} {t rest : Text} (hp : p []) :
    (∃ run, t = run ++ rest ∧ run.length = 0 ∧ p run) ↔ t = rest := by
  constructor
  · rintro ⟨run, ht, hrun, -⟩
    rwa [List.eq_nil_of_length_eq_zero hrun] at ht
  · rintro rfl
    exact ⟨[], rfl, rfl, hp⟩

/-- The rests stand in their list by the number of characters before them. -/
theorem getElem?_restsUpTo {accepts : Char → Bool} {n k : Nat} {t rest : Text} :
    (restsUpTo accepts n t)[k]? = some rest ↔
      ∃ run, t = run ++ rest ∧ run.length = k ∧ k ≤ n ∧ ∀ c ∈ run, accepts c = true := by
  fun_induction restsUpTo accepts n t generalizing k with
  | case1 n c tail ih =>
    cases k with
    | zero =>
      rw [List.getElem?_cons_zero, Option.some.injEq, exists_run_zero_iff ⟨Nat.zero_le _, nofun⟩]
    | succ k =>
      rw [List.getElem?_cons_succ]
      by_cases hc : accepts c = true
      · rw [if_pos hc, ih]
        constructor
        · rintro ⟨run, rfl, rfl, hk, hrun⟩
          exact ⟨c :: run, rfl, rfl, Nat.succ_le_succ hk, List.forall_mem_cons.2 ⟨hc, hrun⟩⟩
        · rintro ⟨run, ht, hlength, hk, hrun⟩
          cases run with
          | nil => cases hlength
          | cons d run =>
            injection ht with _ ht
            exact ⟨run, ht, Nat.succ.inj hlength, Nat.le_of_succ_le_succ hk,
              (List.forall_mem_cons.1 hrun).2⟩
      · rw [if_neg hc]
        refine iff_of_false nofun ?_
        rintro ⟨run, ht, hlength, -, hrun⟩
        cases run with
        | nil => cases hlength
        | cons d run =>
          injection ht with hd
          exact hc (hd ▸ hrun d List.mem_cons_self)
  | case2 n t hend =>
    cases k with
    | zero =>
      rw [List.getElem?_cons_zero, Option.some.injEq, exists_run_zero_iff ⟨Nat.zero_le _, nofun⟩]
    | succ k =>
      refine iff_of_false nofun ?_
      rintro ⟨run, ht, hlength, hk, -⟩
      cases run with
      | nil => cases hlength
      | cons d run =>
        cases n with
        | zero => exact absurd hk (Nat.not_succ_le_zero k)
        | succ n => exact hend n d (run ++ rest) rfl ht

/-- The ways through a text are its splits behind a token. -/
theorem mem_rests_iff {p : Pattern} {t rest : Text} :
    rest ∈ p.rests t ↔ ∃ token, t = token ++ rest ∧ p.Matches token := by
  induction p generalizing t rest with
  | repeated accepts least most =>
    rw [rests, List.mem_reverse, List.mem_iff_getElem?]
    simp only [List.getElem?_drop, getElem?_restsUpTo]
    constructor
    · rintro ⟨k, run, rfl, hlength, hk, hrun⟩
      refine ⟨run, rfl, hrun, hlength ▸ Nat.le_add_right least k, fun n hn => ?_⟩
      obtain rfl := Option.mem_def.1 hn
      exact hlength ▸ hk
    · rintro ⟨run, rfl, hrun, hleast, hmost⟩
      refine ⟨run.length - least, run, rfl, (Nat.add_sub_cancel' hleast).symm, ?_, hrun⟩
      rw [Nat.add_sub_cancel' hleast]
      cases most with
      | none => simp
      | some n => exact hmost n rfl
  | seq first second ihFirst ihSecond =>
    rw [rests, List.mem_flatMap]
    simp only [ihFirst, ihSecond]
    constructor
    · rintro ⟨middle, ⟨u, rfl, hu⟩, v, rfl, hv⟩
      exact ⟨u ++ v, (List.append_assoc u v rest).symm, u, v, rfl, hu, hv⟩
    · rintro ⟨token, rfl, u, v, rfl, hu, hv⟩
      exact ⟨v ++ rest, ⟨u, List.append_assoc u v rest, hu⟩, v, rfl, hv⟩
  | optional p ih =>
    rw [rests, List.mem_append, List.mem_singleton, ih]
    constructor
    · rintro (⟨token, ht, hp⟩ | rfl)
      · exact ⟨token, ht, Or.inr hp⟩
      · exact ⟨[], rfl, Or.inl rfl⟩
    · rintro ⟨token, ht, rfl | hp⟩
      · exact Or.inr ht.symm
      · exact Or.inl ⟨token, ht, hp⟩

theorem isEmpty_rests_eq_false_iff {q : Pattern} {t : Text} :
    (q.rests t).isEmpty = false ↔ q.Begins t := by
  rw [List.isEmpty_eq_false_iff_exists_mem]
  simp only [mem_rests_iff]
  exact exists_comm

theorem splits_of_tokenAt? {p q : Pattern} {t : Text} {found : Found}
    (h : p.tokenAt? q t = some found) : p.Splits q t found ∧ found.before = [] := by
  obtain ⟨rest, hrest, rfl⟩ := Option.map_eq_some_iff.1 h
  obtain ⟨token, rfl, htoken⟩ := mem_rests_iff.1 (List.mem_of_find?_eq_some hrest)
  have hbegins : q.Begins rest := by
    have hsome := List.find?_some hrest
    rw [Bool.not_eq_true'] at hsome
    exact isEmpty_rests_eq_false_iff.1 hsome
  have htake : (token ++ rest).take ((token ++ rest).length - rest.length) = token := by
    rw [List.length_append, Nat.add_sub_cancel, List.take_left]
  exact ⟨⟨by rw [htake]; rfl, by rwa [htake], hbegins⟩, rfl⟩

theorem not_splits_of_tokenAt?_eq_none {p q : Pattern} {t : Text}
    (h : p.tokenAt? q t = none) {found : Found} (hbefore : found.before = []) :
    ¬ p.Splits q t found := by
  rintro ⟨htext, htoken, hafter⟩
  rw [hbefore, List.nil_append] at htext
  have hmem : found.after ∈ p.rests t := mem_rests_iff.2 ⟨found.token, htext, htoken⟩
  have hnone := List.find?_eq_none.1 (Option.map_eq_none_iff.1 h) _ hmem
  rw [isEmpty_rests_eq_false_iff.2 hafter] at hnone
  exact hnone rfl

/-- What is found is a token, and no token begins further left. -/
theorem splits_of_search? {p q : Pattern} {t : Text} {found : Found}
    (h : p.search? q t = some found) :
    p.Splits q t found ∧
      ∀ other, p.Splits q t other → found.before.length ≤ other.before.length := by
  induction t generalizing found with
  | nil =>
    obtain ⟨hsplits, hbefore⟩ := splits_of_tokenAt? h
    exact ⟨hsplits, fun other _ => by rw [hbefore]; exact Nat.zero_le _⟩
  | cons c rest ih =>
    rw [search?] at h
    cases hfront : p.tokenAt? q (c :: rest) with
    | some front =>
      rw [hfront] at h
      injection h with h
      subst h
      obtain ⟨hsplits, hbefore⟩ := splits_of_tokenAt? hfront
      exact ⟨hsplits, fun other _ => by rw [hbefore]; exact Nat.zero_le _⟩
    | none =>
      rw [hfront] at h
      obtain ⟨behind, hbehind, rfl⟩ := Option.map_eq_some_iff.1 h
      obtain ⟨hsplits, hleast⟩ := ih hbehind
      refine ⟨⟨congrArg (c :: ·) hsplits.text, hsplits.token, hsplits.after⟩, ?_⟩
      rintro ⟨before, token, after⟩ hother
      cases before with
      | nil => exact absurd hother (not_splits_of_tokenAt?_eq_none hfront rfl)
      | cons d before =>
        have htail : rest = before ++ (token ++ after) := (List.cons.inj hother.text).2
        exact Nat.succ_le_succ (hleast ⟨before, token, after⟩ ⟨htail, hother.token, hother.after⟩)

theorem search?_eq_none_iff {p q : Pattern} {t : Text} :
    p.search? q t = none ↔ ∀ found, ¬ p.Splits q t found := by
  constructor
  · intro h found hfound
    induction t generalizing found with
    | nil =>
      have hbefore : found.before = [] := (List.append_eq_nil_iff.1 hfound.text.symm).1
      exact not_splits_of_tokenAt?_eq_none h hbefore hfound
    | cons c rest ih =>
      rw [search?] at h
      cases hfront : p.tokenAt? q (c :: rest) with
      | some front =>
        rw [hfront] at h
        cases h
      | none =>
        rw [hfront] at h
        obtain ⟨before, token, after⟩ := found
        cases before with
        | nil => exact not_splits_of_tokenAt?_eq_none hfront rfl hfound
        | cons d before =>
          have htail : rest = before ++ (token ++ after) := (List.cons.inj hfound.text).2
          exact ih (Option.map_eq_none_iff.1 h) ⟨before, token, after⟩
            ⟨htail, hfound.token, hfound.after⟩
  · intro h
    cases hsearch : p.search? q t with
    | none => rfl
    | some found => exact absurd (splits_of_search? hsearch).1 (h found)

end Pattern

end SourceAudit
