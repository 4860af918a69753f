import SourceAudit.Text.Basic

/-!
# Escaped text

In a document five characters stand for something else than themselves, and each of them has an
entity to be written by.

    decode (encode t) = t                                                       (decode_encode)
    c ∈ encode t → isPlain c = true                                     (isPlain_of_mem_encode)
-/

namespace SourceAudit.Markup

/-! ## Algorithm -/

/-- The characters with an entity, and their entities. -/
def entities : List (Char × Text) := [
  ('&', "&amp;"), ('<', "&lt;"), ('>', "&gt;"), ('"', "&quot;"), ('\'', "&apos;")]

def encodeChar (c : Char) : Text := (entities.lookup c).getD [c]

def encode (t : Text) : Text := t.flatMap encodeChar

/-- A character that begins or ends nothing. -/
def isPlain (c : Char) : Bool := c != '<' && c != '>' && c != '"' && c != '\''

/-- Put characters in the place of their entities. -/
def decode : Text → Text
  | '&' :: 'a' :: 'm' :: 'p' :: ';' :: rest => '&' :: decode rest
  | '&' :: 'l' :: 't' :: ';' :: rest => '<' :: decode rest
  | '&' :: 'g' :: 't' :: ';' :: rest => '>' :: decode rest
  | '&' :: 'q' :: 'u' :: 'o' :: 't' :: ';' :: rest => '"' :: decode rest
  | '&' :: 'a' :: 'p' :: 'o' :: 's' :: ';' :: rest => '\'' :: decode rest
  | c :: rest => c :: decode rest
  | [] => []

/-! ## Lemmas -/

theorem encodeChar_eq_self {c : Char} (h : c ≠ '&' ∧ c ≠ '<' ∧ c ≠ '>' ∧ c ≠ '"' ∧ c ≠ '\'') :
    encodeChar c = [c] := by
  obtain ⟨h1, h2, h3, h4, h5⟩ := h
  simp [encodeChar, entities, List.lookup_cons, beq_false_of_ne h1, beq_false_of_ne h2,
    beq_false_of_ne h3, beq_false_of_ne h4, beq_false_of_ne h5]

/-- A character is written as itself or by its entity. -/
theorem encodeChar_cases (c : Char) :
    (c ≠ '&' ∧ isPlain c = true ∧ encodeChar c = [c]) ∨ (c, encodeChar c) ∈ entities := by
  by_cases h : c ≠ '&' ∧ c ≠ '<' ∧ c ≠ '>' ∧ c ≠ '"' ∧ c ≠ '\''
  · exact Or.inl ⟨h.1, by simp [isPlain, h], encodeChar_eq_self h⟩
  · have hc : c = '&' ∨ c = '<' ∨ c = '>' ∨ c = '"' ∨ c = '\'' := by
      by_cases h1 : c = '&' <;> by_cases h2 : c = '<' <;> by_cases h3 : c = '>' <;>
        by_cases h4 : c = '"' <;> simp_all
    refine Or.inr ?_
    rcases hc with rfl | rfl | rfl | rfl | rfl <;> decide

theorem decode_cons {c : Char} (h : c ≠ '&') (rest : Text) :
    decode (c :: rest) = c :: decode rest := by
  rw [decode.eq_def]
  split <;> simp_all

theorem decode_entity {c : Char} {entity : Text} (h : (c, entity) ∈ entities) (rest : Text) :
    decode (entity ++ rest) = c :: decode rest := by
  simp only [entities, List.mem_cons, List.not_mem_nil, or_false, Prod.mk.injEq] at h
  rcases h with ⟨rfl, rfl⟩ | ⟨rfl, rfl⟩ | ⟨rfl, rfl⟩ | ⟨rfl, rfl⟩ | ⟨rfl, rfl⟩ <;>
  · show decode _ = _
    rw [decode.eq_def]
    rfl

theorem decode_encodeChar (c : Char) (rest : Text) :
    decode (encodeChar c ++ rest) = c :: decode rest := by
  rcases encodeChar_cases c with ⟨hne, -, hself⟩ | hentity
  · rw [hself]
    exact decode_cons hne rest
  · exact decode_entity hentity rest

theorem decode_encode (t : Text) : decode (encode t) = t := by
  induction t with
  | nil => rfl
  | cons c rest ih =>
    rw [encode, List.flatMap_cons, decode_encodeChar]
    exact congrArg (c :: ·) ih

theorem isPlain_of_mem_entity {c d : Char} {entity : Text} (h : (c, entity) ∈ entities)
    (hd : d ∈ entity) : isPlain d = true := by
  have hall : ∀ e ∈ entities, e.2.all isPlain = true := by decide
  exact List.all_eq_true.1 (hall _ h) d hd

theorem isPlain_of_mem_encodeChar {c d : Char} (h : d ∈ encodeChar c) : isPlain d = true := by
  rcases encodeChar_cases c with ⟨-, hplain, hself⟩ | hentity
  · rw [hself, List.mem_singleton] at h
    rw [h]
    exact hplain
  · exact isPlain_of_mem_entity hentity h

theorem isPlain_of_mem_encode {t : Text} {d : Char} (h : d ∈ encode t) : isPlain d = true := by
  obtain ⟨c, -, hd⟩ := List.mem_flatMap.1 h
  exact isPlain_of_mem_encodeChar hd

end SourceAudit.Markup
