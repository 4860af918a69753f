import SourceAudit.Proofs.Text.Utf8
import SourceAudit.Text.Lines

/-!
# Two ways to end a line

A carriage return in front of each newline changes no line of a text that had none, and bytes that
are no text stay so. For bytes and characters it is the same thing to put them in, since the byte of
a character below 128 stands for nothing else.

    '\r' ∉ t → lines (withReturns t) = lines t                                 (lines_withReturns)
    decode? (withReturns bytes) = withReturns <$> decode? bytes             (decode?_withReturns)
-/

namespace SourceAudit

/-- The text with a carriage return in front of every newline. -/
def Text.withReturns (t : Text) : Text := t.flatMap fun c => if c = '\n' then ['\r', '\n'] else [c]

/-- The bytes with a carriage return in front of every newline. -/
def Utf8.withReturns (bytes : List UInt8) : List UInt8 :=
  bytes.flatMap fun b => if b = 0x0a then [0x0d, 0x0a] else [b]

namespace Text

theorem withReturns_cons_of_ne {c : Char} (h : c ≠ '\n') (t : Text) :
    withReturns (c :: t) = c :: withReturns t := by
  rw [withReturns, List.flatMap_cons, if_neg h]
  rfl

theorem withReturns_newline (t : Text) :
    withReturns ('\n' :: t) = '\r' :: '\n' :: withReturns t := rfl

theorem lines_withReturns {t : Text} (h : '\r' ∉ t) : lines (withReturns t) = lines t := by
  induction t with
  | nil => rfl
  | cons c rest ih =>
    simp only [List.mem_cons, not_or] at h
    by_cases hc : c = '\n'
    · rw [hc, withReturns_newline, lines_return_newline, lines_newline, ih h.2]
    · have hr : ∀ t : Text, c = '\r' → t.head? ≠ some '\n' := fun _ e => absurd e.symm h.1
      rw [withReturns_cons_of_ne hc, lines_cons hc (hr _), lines_cons hc (hr _), ih h.2]

end Text

namespace Utf8

/-! ## Bytes below 128 -/

theorem le_toNat_of_mem_utf8EncodeChar {c : Char} (hc : 0x80 ≤ c.toNat) :
    ∀ b ∈ String.utf8EncodeChar c, 0x80 ≤ b.toNat := by
  rcases utf8EncodeChar_cases c with ⟨hlt, e⟩ | ⟨-, hlt, e⟩ | ⟨-, hlt, e⟩ | ⟨-, hlt, e⟩
  · omega
  all_goals
    rw [e]
    simp only [List.forall_mem_cons, UInt8.toNat_ofNat']
  · exact ⟨by omega, by omega, nofun⟩
  · exact ⟨by omega, by omega, by omega, nofun⟩
  · exact ⟨by omega, by omega, by omega, by omega, nofun⟩

/-- A byte below 128 is all there is of its character. -/
theorem eq_of_mem_utf8EncodeChar {c : Char} {b : UInt8} (h : b ∈ String.utf8EncodeChar c)
    (hb : b.toNat < 0x80) : c.toNat = b.toNat ∧ String.utf8EncodeChar c = [b] := by
  have hc : c.toNat < 0x80 := by
    refine Nat.lt_of_not_le fun hle => ?_
    have hlarge := le_toNat_of_mem_utf8EncodeChar hle b h
    omega
  rw [utf8EncodeChar_one hc] at h ⊢
  obtain rfl := List.mem_singleton.1 h
  exact ⟨(toNat_ofNat (by omega)).symm, rfl⟩

/-! ## Carriage returns in bytes -/

theorem withReturns_append (s t : List UInt8) :
    withReturns (s ++ t) = withReturns s ++ withReturns t :=
  List.flatMap_append

theorem withReturns_of_not_mem {s : List UInt8} (h : 0x0a ∉ s) : withReturns s = s := by
  induction s with
  | nil => rfl
  | cons b rest ih =>
    simp only [List.mem_cons, not_or] at h
    rw [withReturns, List.flatMap_cons, if_neg (Ne.symm h.1)]
    exact congrArg (b :: ·) (ih h.2)

theorem encode_withReturns (t : Text) : encode (Text.withReturns t) = withReturns (encode t) := by
  induction t with
  | nil => rfl
  | cons c rest ih =>
    rw [encode_cons, withReturns_append, ← ih]
    by_cases hc : c = '\n'
    · rw [hc, Text.withReturns_newline, encode_cons, encode_cons]
      rfl
    · rw [Text.withReturns_cons_of_ne hc, encode_cons, withReturns_of_not_mem]
      intro hmem
      exact hc (Char.toNat_inj.1 (eq_of_mem_utf8EncodeChar hmem (by decide)).1)

/-- What was put in can be taken out again. -/
theorem filter_withReturns {bytes : List UInt8} (h : 0x0d ∉ bytes) :
    (withReturns bytes).filter (· ≠ 0x0d) = bytes := by
  induction bytes with
  | nil => rfl
  | cons b rest ih =>
    simp only [List.mem_cons, not_or] at h
    have hb : b ≠ 0x0d := Ne.symm h.1
    have hfirst : (if b = 0x0a then [0x0d, 0x0a] else [b]).filter (· ≠ 0x0d) = [b] := by
      by_cases hnewline : b = 0x0a
      · rw [hnewline]
        rfl
      · simp [hnewline, hb]
    rw [withReturns, List.flatMap_cons, List.filter_append, hfirst]
    exact congrArg (b :: ·) (ih h.2)

theorem filter_encode (t : Text) :
    (encode t).filter (· ≠ 0x0d) = encode (t.filter (· ≠ '\r')) := by
  induction t with
  | nil => rfl
  | cons c rest ih =>
    rw [encode_cons, List.filter_append, ih]
    by_cases hc : c = '\r'
    · rw [List.filter_cons_of_neg (by simp [hc]), hc]
      rfl
    · rw [List.filter_cons_of_pos (by simp [hc]), encode_cons, List.filter_eq_self.2]
      intro b hb
      rw [decide_eq_true_iff]
      rintro rfl
      exact hc (Char.toNat_inj.1 (eq_of_mem_utf8EncodeChar hb (by decide)).1)

theorem decode?_withReturns {bytes : List UInt8} (h : 0x0d ∉ bytes) :
    decode? (withReturns bytes) = (decode? bytes).map Text.withReturns := by
  cases hbytes : decode? bytes with
  | some t =>
    rw [eq_encode_of_decode? hbytes, ← encode_withReturns, decode?_encode, Option.map_some]
  | none =>
    -- without the carriage returns, a text would have been a text before
    cases hreturns : decode? (withReturns bytes) with
    | none => rfl
    | some t =>
      have hback : bytes = encode (t.filter (· ≠ '\r')) := by
        rw [← filter_encode, ← eq_encode_of_decode? hreturns, filter_withReturns h]
      rw [hback, decode?_encode] at hbytes
      cases hbytes

/-- With and without carriage returns, content without any is read as the same lines. -/
theorem lines_decode?_withReturns {bytes : List UInt8} (h : 0x0d ∉ bytes) :
    (decode? (withReturns bytes)).map Text.lines = (decode? bytes).map Text.lines := by
  rw [decode?_withReturns h, Option.map_map]
  cases hbytes : decode? bytes with
  | none => rfl
  | some t =>
    rw [eq_encode_of_decode? hbytes] at h
    exact congrArg some (Text.lines_withReturns (mt (mem_encode_iff (by decide)).2 h))

end Utf8

end SourceAudit
