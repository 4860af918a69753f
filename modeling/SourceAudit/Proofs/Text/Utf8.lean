import SourceAudit.Text.Utf8

/-!
# UTF-8, there and back

Decoding accepts what encoding produces and nothing else. Bytes that are shown although they may be
no text lose nothing of a text, and an ASCII byte always stands for itself: what is before it and
what is behind it are shown as if they were alone.

    decode? bytes = some t ↔ bytes = encode t                               (decode?_eq_some_iff)
    lossy (encode t) = t                                                          (lossy_encode)
    lossy (front ++ b :: rest) = lossy front ++ b :: lossy rest, b ASCII     (lossy_append_ascii)
    c ∈ lossy bytes ↔ c ∈ bytes, c ASCII                                         (mem_lossy_iff)
-/

namespace SourceAudit.Utf8

/-! ## The bytes of a character -/

/-- The numbers of characters leave the surrogates out. -/
theorem toNat_bounds (c : Char) :
    c.toNat < 0xd800 ∨ 0xdfff < c.toNat ∧ c.toNat < 0x110000 := c.valid

section Lengths

variable {c : Char}

theorem utf8EncodeChar_one (h : c.toNat < 0x80) : String.utf8EncodeChar c = [.ofNat c.toNat] :=
  if_pos (Nat.le_of_lt_succ h)

theorem utf8EncodeChar_two (hlow : 0x80 ≤ c.toNat) (hhigh : c.toNat < 0x800) :
    String.utf8EncodeChar c = [.ofNat (0xc0 + c.toNat / 64), .ofNat (0x80 + c.toNat % 64)] := by
  have h1 : ¬ c.toNat ≤ 0x7f := by omega
  have h2 : c.toNat ≤ 0x7ff := by omega
  have hlead : c.toNat / 64 % 32 + 192 = 192 + c.toNat / 64 := by omega
  rw [← hlead, Nat.add_comm 0x80]
  exact (if_neg h1).trans (if_pos h2)

theorem utf8EncodeChar_three (hlow : 0x800 ≤ c.toNat) (hhigh : c.toNat < 0x10000) :
    String.utf8EncodeChar c = [.ofNat (0xe0 + c.toNat / 4096),
      .ofNat (0x80 + c.toNat / 64 % 64), .ofNat (0x80 + c.toNat % 64)] := by
  have h1 : ¬ c.toNat ≤ 0x7f := by omega
  have h2 : ¬ c.toNat ≤ 0x7ff := by omega
  have h3 : c.toNat ≤ 0xffff := by omega
  have hlead : c.toNat / 4096 % 16 + 224 = 224 + c.toNat / 4096 := by omega
  rw [← hlead, Nat.add_comm 0x80, Nat.add_comm 0x80]
  exact (if_neg h1).trans ((if_neg h2).trans (if_pos h3))

theorem utf8EncodeChar_four (hlow : 0x10000 ≤ c.toNat) :
    String.utf8EncodeChar c = [.ofNat (0xf0 + c.toNat / 262144),
      .ofNat (0x80 + c.toNat / 4096 % 64), .ofNat (0x80 + c.toNat / 64 % 64),
      .ofNat (0x80 + c.toNat % 64)] := by
  have h1 : ¬ c.toNat ≤ 0x7f := by omega
  have h2 : ¬ c.toNat ≤ 0x7ff := by omega
  have h3 : ¬ c.toNat ≤ 0xffff := by omega
  have hbounds := toNat_bounds c
  have hlead : c.toNat / 262144 % 8 + 240 = 240 + c.toNat / 262144 := by omega
  rw [← hlead, Nat.add_comm 0x80, Nat.add_comm 0x80, Nat.add_comm 0x80]
  exact (if_neg h1).trans ((if_neg h2).trans (if_neg h3))

end Lengths

/-- The bytes of a character by the length that its number needs. -/
theorem utf8EncodeChar_cases (c : Char) :
    (c.toNat < 0x80 ∧ String.utf8EncodeChar c = [.ofNat c.toNat]) ∨
    (0x80 ≤ c.toNat ∧ c.toNat < 0x800 ∧ String.utf8EncodeChar c =
      [.ofNat (0xc0 + c.toNat / 64), .ofNat (0x80 + c.toNat % 64)]) ∨
    (0x800 ≤ c.toNat ∧ c.toNat < 0x10000 ∧ String.utf8EncodeChar c =
      [.ofNat (0xe0 + c.toNat / 4096), .ofNat (0x80 + c.toNat / 64 % 64),
        .ofNat (0x80 + c.toNat % 64)]) ∨
    (0x10000 ≤ c.toNat ∧ c.toNat < 0x110000 ∧ String.utf8EncodeChar c =
      [.ofNat (0xf0 + c.toNat / 262144), .ofNat (0x80 + c.toNat / 4096 % 64),
        .ofNat (0x80 + c.toNat / 64 % 64), .ofNat (0x80 + c.toNat % 64)]) := by
  by_cases h1 : c.toNat < 0x80
  · exact Or.inl ⟨h1, utf8EncodeChar_one h1⟩
  · have hlow : 0x80 ≤ c.toNat := Nat.not_lt.1 h1
    by_cases h2 : c.toNat < 0x800
    · exact Or.inr (Or.inl ⟨hlow, h2, utf8EncodeChar_two hlow h2⟩)
    · have hlow : 0x800 ≤ c.toNat := Nat.not_lt.1 h2
      by_cases h3 : c.toNat < 0x10000
      · exact Or.inr (Or.inr (Or.inl ⟨hlow, h3, utf8EncodeChar_three hlow h3⟩))
      · have hlow : 0x10000 ≤ c.toNat := Nat.not_lt.1 h3
        have hbounds := toNat_bounds c
        exact Or.inr (Or.inr (Or.inr ⟨hlow, by omega, utf8EncodeChar_four hlow⟩))

theorem encode_cons (c : Char) (t : Text) : encode (c :: t) = String.utf8EncodeChar c ++ encode t :=
  List.flatMap_cons

/-! ## Decoding -/

theorem toNat_ofNat {n : Nat} (h : n < 256) : (UInt8.ofNat n).toNat = n := by
  rw [UInt8.toNat_ofNat']
  omega

theorem tail?_eq_some_iff {b : UInt8} {n : Nat} :
    tail? b = some n ↔ n < 64 ∧ b.toNat = 0x80 + n := by
  unfold tail?
  split
  · next h =>
    simp only [Bool.and_eq_true, decide_eq_true_eq] at h
    rw [Option.some.injEq]
    omega
  · next h =>
    simp only [Bool.and_eq_true, decide_eq_true_eq] at h
    constructor
    · intro hn
      cases hn
    · omega

theorem tail?_ofNat (n : Nat) : tail? (UInt8.ofNat (0x80 + n % 64)) = some (n % 64) :=
  tail?_eq_some_iff.2 ⟨by omega, toNat_ofNat (by omega)⟩

theorem scalar?_eq_some_iff {least n : Nat} {c : Char} :
    scalar? least n = some c ↔ least ≤ n ∧ c.toNat = n := by
  unfold scalar?
  split
  · next h =>
    rw [Option.some.injEq]
    constructor
    · rintro rfl
      refine ⟨h.1, ?_⟩
      rw [Char.ofNat, dif_pos h.2]
      rfl
    · rintro ⟨-, rfl⟩
      exact Char.ofNat_toNat c
  · next h =>
    constructor
    · intro hc
      cases hc
    · rintro ⟨hl, rfl⟩
      exact absurd ⟨hl, c.valid⟩ h

theorem decode?_utf8EncodeChar_append (c : Char) (rest : List UInt8) :
    decode? (String.utf8EncodeChar c ++ rest) = (c :: ·) <$> decode? rest := by
  rcases utf8EncodeChar_cases c with ⟨hc, ec⟩ | ⟨hc, hc', ec⟩ | ⟨hc, hc', ec⟩ | ⟨hc, hc', ec⟩
  · rw [ec, List.singleton_append, decode?.eq_def]
    simp only
    rw [toNat_ofNat (by omega), if_pos hc, Char.ofNat_toNat]
  · have hn : scalar? 0x80 ((0xc0 + c.toNat / 64 - 0xc0) * 64 + c.toNat % 64) = some c :=
      scalar?_eq_some_iff.2 ⟨by omega, by omega⟩
    rw [ec, decode?.eq_def]
    simp only [List.cons_append, List.nil_append]
    rw [toNat_ofNat (by omega), if_neg (by omega), if_neg (by omega), if_pos (by omega)]
    simp only [tail?_ofNat, Option.bind_eq_bind, Option.bind_some, hn]
  · have hn : scalar? 0x800 (((0xe0 + c.toNat / 4096 - 0xe0) * 64 + c.toNat / 64 % 64) * 64 +
        c.toNat % 64) = some c := scalar?_eq_some_iff.2 ⟨by omega, by omega⟩
    rw [ec, decode?.eq_def]
    simp only [List.cons_append, List.nil_append]
    rw [toNat_ofNat (by omega), if_neg (by omega), if_neg (by omega), if_neg (by omega),
      if_pos (by omega)]
    simp only [tail?_ofNat, Option.bind_eq_bind, Option.bind_some, hn]
  · have hn : scalar? 0x10000 ((((0xf0 + c.toNat / 262144 - 0xf0) * 64 + c.toNat / 4096 % 64) * 64 +
        c.toNat / 64 % 64) * 64 + c.toNat % 64) = some c :=
      scalar?_eq_some_iff.2 ⟨by omega, by omega⟩
    rw [ec, decode?.eq_def]
    simp only [List.cons_append, List.nil_append]
    rw [toNat_ofNat (by omega), if_neg (by omega), if_neg (by omega), if_neg (by omega),
      if_neg (by omega), if_pos (by omega)]
    simp only [tail?_ofNat, Option.bind_eq_bind, Option.bind_some, hn]

theorem decode?_encode (t : Text) : decode? (encode t) = some t := by
  induction t with
  | nil => rfl
  | cons c t ih =>
    rw [encode_cons, decode?_utf8EncodeChar_append, ih]
    rfl

theorem eq_ofNat {b : UInt8} {n : Nat} (h : b.toNat = n) : b = UInt8.ofNat n := by
  rw [← h, UInt8.ofNat_toNat]

theorem encode_injective {s t : Text} (h : encode s = encode t) : s = t := by
  have hdecode := congrArg decode? h
  rw [decode?_encode, decode?_encode] at hdecode
  injection hdecode

theorem eq_encode_of_decode? {bytes : List UInt8} {t : Text} (h : decode? bytes = some t) :
    bytes = encode t := by
  fun_induction decode? bytes generalizing t with
  | case1 =>
    injection h with h
    subst h
    rfl
  | case2 a rest hlt ih =>
    obtain ⟨s, hs, rfl⟩ := Option.map_eq_some_iff.1 h
    have hc : (Char.ofNat a.toNat).toNat = a.toNat :=
      (scalar?_eq_some_iff.1 (if_pos ⟨Nat.le_refl _, Or.inl (by omega)⟩)).2
    rw [encode_cons, ← ih hs, utf8EncodeChar_one (hc.symm ▸ hlt), List.singleton_append, hc,
      UInt8.ofNat_toNat]
  | case4 a _ _ _ b rest ih =>
    simp only [Option.bind_eq_bind, Option.bind_eq_some_iff, tail?_eq_some_iff,
      scalar?_eq_some_iff, Option.map_eq_map, Option.map_eq_some_iff] at h
    obtain ⟨m, ⟨hm, hb⟩, c, ⟨hl, hc⟩, s, hs, rfl⟩ := h
    have ha : a.toNat = 0xc0 + c.toNat / 64 := by omega
    have hb : b.toNat = 0x80 + c.toNat % 64 := by omega
    rw [← hc] at hl
    rw [encode_cons, ← ih hs, utf8EncodeChar_two hl (by omega), ← eq_ofNat ha, ← eq_ofNat hb]
    rfl
  | case6 a _ _ _ _ b d rest ih =>
    simp only [Option.bind_eq_bind, Option.bind_eq_some_iff, tail?_eq_some_iff,
      scalar?_eq_some_iff, Option.map_eq_map, Option.map_eq_some_iff] at h
    obtain ⟨m, ⟨hm, hb⟩, n, ⟨hn, hd⟩, c, ⟨hl, hc⟩, s, hs, rfl⟩ := h
    have ha : a.toNat = 0xe0 + c.toNat / 4096 := by omega
    have hb : b.toNat = 0x80 + c.toNat / 64 % 64 := by omega
    have hd : d.toNat = 0x80 + c.toNat % 64 := by omega
    rw [← hc] at hl
    rw [encode_cons, ← ih hs, utf8EncodeChar_three hl (by omega), ← eq_ofNat ha, ← eq_ofNat hb,
      ← eq_ofNat hd]
    rfl
  | case8 a _ _ _ _ _ b d e rest ih =>
    simp only [Option.bind_eq_bind, Option.bind_eq_some_iff, tail?_eq_some_iff,
      scalar?_eq_some_iff, Option.map_eq_map, Option.map_eq_some_iff] at h
    obtain ⟨m, ⟨hm, hb⟩, n, ⟨hn, hd⟩, k, ⟨hk, he⟩, c, ⟨hl, hc⟩, s, hs, rfl⟩ := h
    have ha : a.toNat = 0xf0 + c.toNat / 262144 := by omega
    have hb : b.toNat = 0x80 + c.toNat / 4096 % 64 := by omega
    have hd : d.toNat = 0x80 + c.toNat / 64 % 64 := by omega
    have he : e.toNat = 0x80 + c.toNat % 64 := by omega
    rw [← hc] at hl
    rw [encode_cons, ← ih hs, utf8EncodeChar_four hl, ← eq_ofNat ha, ← eq_ofNat hb, ← eq_ofNat hd,
      ← eq_ofNat he]
    rfl
  -- a byte that begins no character, or a character cut short
  | case3 => cases h
  | case5 => cases h
  | case7 => cases h
  | case9 => cases h
  | case10 => cases h

theorem decode?_eq_some_iff {bytes : List UInt8} {t : Text} :
    decode? bytes = some t ↔ bytes = encode t := by
  constructor
  · exact eq_encode_of_decode?
  · rintro rfl
    exact decode?_encode t

/-! ## Bytes that may be no text -/

theorem lossyFrom_cons (state : Option Begun) (b : UInt8) (rest : List UInt8) :
    lossyFrom state (b :: rest) =
      (state.elim (first b) (·.next b)).1 ++
        lossyFrom (state.elim (first b) (·.next b)).2 rest := by
  cases state <;> rfl

theorem first_ascii {b : UInt8} (hb : b.toNat < 0x80) : first b = ([Char.ofNat b.toNat], none) :=
  if_pos hb

/-- A byte after the beginning of a character takes it further, or shows a character that is not
ASCII and perhaps what it shows alone. -/
theorem next_cases (s : Begun) (b : UInt8) :
    (∃ t, s.next b = ([], some t) ∧ 0x80 ≤ t.least) ∨
      ∃ c : Char, 0x80 ≤ c.toNat ∧
        (s.next b = ([c], none) ∨ s.next b = (c :: (first b).1, (first b).2)) := by
  have hreplacement : 0x80 ≤ replacement.toNat := by decide
  unfold Begun.next
  split
  · dsimp only
    split
    · refine Or.inr ⟨_, ?_, Or.inl rfl⟩
      cases hscalar : scalar? 0x80 (s.bits * 64 + (b.toNat - 0x80)) with
      | none => exact hreplacement
      | some d =>
        have hd := scalar?_eq_some_iff.1 hscalar
        rw [Option.getD_some]
        omega
    · exact Or.inl ⟨_, rfl, Nat.le_refl _⟩
  · exact Or.inr ⟨_, hreplacement, Or.inr rfl⟩

/-- A character that has begun goes on with bytes that are not ASCII. -/
def GoesOn (state : Option Begun) : Prop := ∀ s ∈ state, 0x80 ≤ s.least

theorem goesOn_none : GoesOn none := nofun

theorem goesOn_first (b : UInt8) : GoesOn (first b).2 := by
  unfold first GoesOn
  grind

theorem goesOn_step (state : Option Begun) (b : UInt8) :
    GoesOn (state.elim (first b) (·.next b)).2 := by
  cases state with
  | none => exact goesOn_first b
  | some s =>
    rw [Option.elim_some]
    rcases next_cases s b with ⟨t, hnext, ht⟩ | ⟨c, -, hnext | hnext⟩ <;> rw [hnext]
    · rintro u ⟨⟩
      exact ht
    · exact goesOn_none
    · exact goesOn_first b

/-- An ASCII byte ends what has begun and stands for itself. -/
theorem lossyFrom_ascii {state : Option Begun} (h : GoesOn state) {b : UInt8} (hb : b.toNat < 0x80)
    (rest : List UInt8) :
    lossyFrom state (b :: rest) = lossyFrom state [] ++ Char.ofNat b.toNat :: lossy rest := by
  cases state with
  | none =>
    rw [lossyFrom_cons, Option.elim_none, first_ascii hb]
    rfl
  | some s =>
    have hnext : s.next b = (replacement :: (first b).1, (first b).2) :=
      if_neg fun hin => by have := h s rfl; omega
    rw [lossyFrom_cons, Option.elim_some, hnext, first_ascii hb]
    rfl

theorem lossyFrom_append_ascii {state : Option Begun} (h : GoesOn state) (front : List UInt8)
    {b : UInt8} (hb : b.toNat < 0x80) (rest : List UInt8) :
    lossyFrom state (front ++ b :: rest) =
      lossyFrom state front ++ Char.ofNat b.toNat :: lossy rest := by
  induction front generalizing state with
  | nil => exact lossyFrom_ascii h hb rest
  | cons a front ih =>
    rw [List.cons_append, lossyFrom_cons, lossyFrom_cons, ih (goesOn_step state a),
      List.append_assoc]

theorem lossy_append_ascii (front : List UInt8) {b : UInt8} (hb : b.toNat < 0x80)
    (rest : List UInt8) :
    lossy (front ++ b :: rest) = lossy front ++ Char.ofNat b.toNat :: lossy rest :=
  lossyFrom_append_ascii goesOn_none front hb rest

section Begun

variable {least greatest bits n : Nat} (hleast : least ≤ 0x80 + n) (hgreatest : 0x80 + n ≤ greatest)
  (hn : n < 64)
include hleast hgreatest hn

theorem lossyFrom_more (missing : Nat) (rest : List UInt8) :
    lossyFrom (some ⟨missing + 2, least, greatest, bits⟩) (.ofNat (0x80 + n) :: rest) =
      lossyFrom (some ⟨missing + 1, 0x80, 0xbf, bits * 64 + n⟩) rest := by
  have hnat : (UInt8.ofNat (0x80 + n)).toNat = 0x80 + n := toNat_ofNat (by omega)
  have hnext : Begun.next ⟨missing + 2, least, greatest, bits⟩ (.ofNat (0x80 + n)) =
      ([], some ⟨missing + 1, 0x80, 0xbf, bits * 64 + n⟩) := by
    rw [Begun.next, hnat, if_pos ⟨hleast, hgreatest⟩, Nat.add_sub_cancel_left]
    exact if_neg (Nat.succ_succ_ne_one missing)
  rw [lossyFrom_cons, Option.elim_some, hnext]
  rfl

theorem lossyFrom_last {c : Char} (hc : c.toNat = bits * 64 + n) (hlow : 0x80 ≤ c.toNat)
    (rest : List UInt8) :
    lossyFrom (some ⟨1, least, greatest, bits⟩) (.ofNat (0x80 + n) :: rest) = c :: lossy rest := by
  have hnat : (UInt8.ofNat (0x80 + n)).toNat = 0x80 + n := toNat_ofNat (by omega)
  have hshown : scalar? 0x80 (bits * 64 + n) = some c := scalar?_eq_some_iff.2 ⟨by omega, hc⟩
  have hnext : Begun.next ⟨1, least, greatest, bits⟩ (.ofNat (0x80 + n)) = ([c], none) := by
    rw [Begun.next, hnat, if_pos ⟨hleast, hgreatest⟩, Nat.add_sub_cancel_left]
    simp only [hshown, Option.getD_some, if_true]
  rw [lossyFrom_cons, Option.elim_some, hnext]
  rfl

end Begun

section Lead

variable {n : Nat}

theorem lossyFrom_lead {b : UInt8} {s : Begun} (h : first b = ([], some s)) (rest : List UInt8) :
    lossy (b :: rest) = lossyFrom (some s) rest := by
  rw [lossy, lossyFrom_cons, Option.elim_none, h]
  rfl

theorem first_two (h : 2 ≤ n) (hn : n < 32) :
    first (.ofNat (0xc0 + n)) = ([], some ⟨1, 0x80, 0xbf, n⟩) := by
  rw [first, toNat_ofNat (by omega)]
  grind

theorem first_three (hn : n < 16) :
    first (.ofNat (0xe0 + n)) =
      ([], some ⟨2, if n = 0 then 0xa0 else 0x80, if n = 13 then 0x9f else 0xbf, n⟩) := by
  rw [first, toNat_ofNat (by omega)]
  grind

theorem first_four (hn : n < 5) :
    first (.ofNat (0xf0 + n)) =
      ([], some ⟨3, if n = 0 then 0x90 else 0x80, if n = 4 then 0x8f else 0xbf, n⟩) := by
  rw [first, toNat_ofNat (by omega)]
  grind

end Lead

/-- A character is shown as it is. -/
theorem lossy_utf8EncodeChar_append (c : Char) (rest : List UInt8) :
    lossy (String.utf8EncodeChar c ++ rest) = c :: lossy rest := by
  -- the bounds of the second byte leave the surrogates out
  have hbounds := toNat_bounds c
  rcases utf8EncodeChar_cases c with ⟨hc, ec⟩ | ⟨hc, hc', ec⟩ | ⟨hc, hc', ec⟩ | ⟨hc, hc', ec⟩ <;>
    rw [ec]
  · have hnat : (UInt8.ofNat c.toNat).toNat = c.toNat := toNat_ofNat (by omega)
    have hshown := lossy_append_ascii [] (b := .ofNat c.toNat) (by omega) rest
    rwa [hnat, Char.ofNat_toNat] at hshown
  · rw [List.cons_append, lossyFrom_lead (first_two (by omega) (by omega))]
    exact lossyFrom_last (by omega) (by omega) (by omega) (by omega) hc rest
  · rw [List.cons_append, lossyFrom_lead (first_three (by omega)), List.cons_append,
      lossyFrom_more (by split <;> omega) (by split <;> omega) (by omega)]
    exact lossyFrom_last (by omega) (by omega) (by omega) (by omega) (by omega) rest
  · rw [List.cons_append, lossyFrom_lead (first_four (by omega)), List.cons_append,
      lossyFrom_more (by split <;> omega) (by split <;> omega) (by omega), List.cons_append,
      lossyFrom_more (by omega) (by omega) (by omega)]
    exact lossyFrom_last (by omega) (by omega) (by omega) (by omega) (by omega) rest

theorem lossy_encode_append (t : Text) (rest : List UInt8) :
    lossy (encode t ++ rest) = t ++ lossy rest := by
  induction t with
  | nil => rfl
  | cons c t ih => rw [encode_cons, List.append_assoc, lossy_utf8EncodeChar_append, ih]; rfl

theorem lossy_encode (t : Text) : lossy (encode t) = t := by
  have h := lossy_encode_append t []
  rwa [List.append_nil, show lossy [] = [] from rfl, List.append_nil] at h

section Shown

variable {c : Char} (hc : c.toNat < 0x80)
include hc

theorem mem_first {b : UInt8} (h : c ∈ (first b).1) : b = .ofNat c.toNat := by
  by_cases hb : b.toNat < 0x80
  · have hchar : (Char.ofNat b.toNat).toNat = b.toNat :=
      (scalar?_eq_some_iff.1 (if_pos ⟨Nat.le_refl _, Or.inl (by omega)⟩)).2
    rw [first_ascii hb, List.mem_singleton] at h
    rw [h, hchar, UInt8.ofNat_toNat]
  · have hne : c ≠ replacement := fun he => absurd (he ▸ hc) (by decide)
    unfold first at h
    grind

theorem mem_next {s : Begun} {b : UInt8} (h : c ∈ (s.next b).1) : b = .ofNat c.toNat := by
  rcases next_cases s b with ⟨t, hnext, -⟩ | ⟨d, hd, hnext | hnext⟩ <;> rw [hnext] at h
  · cases h
  · obtain rfl := List.mem_singleton.1 h
    omega
  · rcases List.mem_cons.1 h with rfl | h
    · omega
    · exact mem_first hc h

theorem mem_lossyFrom {state : Option Begun} {bytes : List UInt8} (h : c ∈ lossyFrom state bytes) :
    .ofNat c.toNat ∈ bytes := by
  have hne : c ≠ replacement := fun he => absurd (he ▸ hc) (by decide)
  induction bytes generalizing state with
  | nil =>
    cases state with
    | none => cases h
    | some s => exact absurd (List.mem_singleton.1 h) hne
  | cons b rest ih =>
    rw [lossyFrom_cons, List.mem_append] at h
    rcases h with h | h
    · refine List.mem_cons.2 (Or.inl ?_)
      cases state with
      | none => exact (mem_first hc h).symm
      | some s => exact (mem_next hc h).symm
    · exact List.mem_cons_of_mem _ (ih h)

/-- An ASCII character is shown exactly where its byte is. -/
theorem mem_lossy_iff {bytes : List UInt8} : c ∈ lossy bytes ↔ .ofNat c.toNat ∈ bytes := by
  constructor
  · exact mem_lossyFrom hc
  · intro h
    have hnat : (UInt8.ofNat c.toNat).toNat = c.toNat := toNat_ofNat (by omega)
    obtain ⟨front, rest, rfl⟩ := List.append_of_mem h
    rw [lossy_append_ascii front (by omega), hnat, Char.ofNat_toNat]
    exact List.mem_append_right _ List.mem_cons_self

theorem mem_encode_iff {t : Text} : .ofNat c.toNat ∈ encode t ↔ c ∈ t := by
  rw [← mem_lossy_iff hc, lossy_encode]

end Shown

end SourceAudit.Utf8
