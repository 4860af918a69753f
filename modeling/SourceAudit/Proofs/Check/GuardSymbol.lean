import SourceAudit.Check.Guard
import SourceAudit.Proofs.Path.Names
import SourceAudit.Proofs.Text.Letter
import SourceAudit.Proofs.Text.Utf8

/-!
# Guard symbols along a path

A guard symbol is made of the names of a path and of nothing else of it, and every step from the
names to the symbol goes character by character. So symbols are put together as their paths are, and
what names nothing does not show in them.

    guardSymbol (join p q) lead = guardSymbol p lead ++ '_' :: guardSymbol q []  (guardSymbol_join)
    guardSymbol p (x ++ y) = upper x ++ guardSymbol p y                   (guardSymbol_lead_append)
    Padded p q → guardSymbol q lead = guardSymbol p lead                       (guardSymbol_padded)
-/

namespace SourceAudit

theorem Text.replaceChar_append (old new : Char) (s t : Text) :
    replaceChar old new (s ++ t) = replaceChar old new s ++ replaceChar old new t :=
  List.map_append

theorem Text.not_mem_replaceChar {old new : Char} (h : new ≠ old) (t : Text) :
    old ∉ replaceChar old new t := by
  intro hmem
  obtain ⟨c, -, hc⟩ := List.mem_map.1 hmem
  split at hc
  · exact h hc
  · next hne => exact hne hc

/-- A replaced character is the new one, or it was there before. -/
theorem Text.mem_of_mem_replaceChar {old new c : Char} {t : Text}
    (h : c ∈ replaceChar old new t) : c = new ∨ c ∈ t := by
  obtain ⟨d, hd, rfl⟩ := List.mem_map.1 h
  split
  · exact Or.inl rfl
  · exact Or.inr hd

theorem guardSymbol_lead_append (p : Path) (x y : Text) :
    guardSymbol p (x ++ y) = Text.upper x ++ guardSymbol p y := by
  rw [guardSymbol, guardSymbol, List.append_assoc, Text.upper_append]

theorem guardSymbol_padded {p q : Path} (h : Path.Padded p q) (lead : Text) :
    guardSymbol q lead = guardSymbol p lead := by
  rw [guardSymbol, guardSymbol, h.names_eq]

theorem guardSymbol_join {p q : Path} (hq : Path.isAbsolute q = false) (hp : p.HasName)
    (hqname : q.HasName) (lead : Text) :
    guardSymbol (Path.join p q) lead = guardSymbol p lead ++ '_' :: guardSymbol q [] := by
  have hunderscore (t : Text) : Text.upper (Text.replaceChar '.' '_' ('_' :: t)) =
      '_' :: Text.upper (Text.replaceChar '.' '_' t) := rfl
  have hshown {r : Path} (h : r.HasName) : (Path.names r).map Utf8.lossy ≠ [] :=
    mt List.map_eq_nil_iff.1 h.names_ne_nil
  rw [guardSymbol, Path.names_join hq, List.map_append,
    Path.intercalate_append (hshown hp) (hshown hqname), List.singleton_append,
    Text.replaceChar_append, ← List.append_assoc, Text.upper_append, hunderscore]
  rfl

theorem dot_not_mem_guardSymbol (p : Path) : '.' ∉ guardSymbol p [] := by
  have hdot : Text.IsUncased '.' := Text.isUncased_of_mem (by decide)
  rw [guardSymbol, hdot.mem_upper_iff]
  exact Text.not_mem_replaceChar (by decide) _

/-- The slashes of a path stand between its names and never in one. -/
theorem slash_not_mem_guardSymbol (p : Path) : '/' ∉ guardSymbol p [] := by
  have hslash : Text.IsUncased '/' := Text.isUncased_of_mem (by decide)
  rw [guardSymbol, hslash.mem_upper_iff]
  intro hmem
  rcases Text.mem_of_mem_replaceChar hmem with hunderscore | hmem
  · exact absurd hunderscore (by decide)
  · rcases Path.mem_of_mem_intercalate hmem with hunderscore | ⟨shown, hshown, hslash⟩
    · exact absurd hunderscore (by decide)
    · obtain ⟨name, hname, rfl⟩ := List.mem_map.1 hshown
      exact Path.slash_not_mem_of_mem_names hname ((Utf8.mem_lossy_iff (by decide)).1 hslash)

/-! ## Top theorem -/

/-- The symbol of a path that is put together is put together of the symbols of its parts, the lead
is in front of it in capitals, pieces that name nothing do not show in it, and of the path no dot
and no slash is left. -/
theorem guardSymbol_composes :
    (∀ (p q : Path) (lead : Text), Path.isAbsolute q = false → p.HasName → q.HasName →
      guardSymbol (Path.join p q) lead = guardSymbol p lead ++ '_' :: guardSymbol q []) ∧
    (∀ (p : Path) (x y : Text), guardSymbol p (x ++ y) = Text.upper x ++ guardSymbol p y) ∧
    (∀ (p q : Path) (lead : Text), Path.Padded p q → guardSymbol q lead = guardSymbol p lead) ∧
    ∀ p : Path, '.' ∉ guardSymbol p [] ∧ '/' ∉ guardSymbol p [] :=
  ⟨fun _ _ lead hq hp hqname => guardSymbol_join hq hp hqname lead, guardSymbol_lead_append,
    fun _ _ lead h => guardSymbol_padded h lead,
    fun p => ⟨dot_not_mem_guardSymbol p, slash_not_mem_guardSymbol p⟩⟩

/-- A path with a letter that has two in capitals, and the same path with a slash in front, one
doubled and one at the end, and with `.` and `..` inside. -/
theorem guardSymbol_composes_padded :
    (Path.isAbsolute "./hash.h" = false ∧ Path.HasName "scl/straße" ∧ Path.HasName "./hash.h" ∧
      Path.Padded "scl/straße" "/scl/./..//straße/") ∧
    guardSymbol (Path.join "scl/straße" "./hash.h") "_" = "_SCL_STRASSE_HASH_H" ∧
    guardSymbol "/scl/./..//straße/" "_" = "_SCL_STRASSE" := by
  have hp : Path.HasName "scl/straße" := ⟨"scl", by decide⟩
  have hq : Path.HasName "./hash.h" := ⟨"hash.h", by decide⟩
  have hdot : Path.Padded "scl/straße" "scl/./straße" :=
    .between (a := "scl") (b := "straße") .here .same
  have hdots : Path.Padded "scl/straße" "scl/./../straße" :=
    .between (a := "scl/.") (b := "straße") .up hdot
  have hdoubled : Path.Padded "scl/straße" "scl/./..//straße" :=
    .between (a := "scl/./..") (b := "straße") .empty hdots
  have hpadded : Path.Padded "scl/straße" "/scl/./..//straße/" :=
    .behind .empty (.before .empty hdoubled)
  obtain ⟨hjoin, -, hsame, -⟩ := guardSymbol_composes
  refine ⟨⟨rfl, hp, hq, hpadded⟩, ?_, ?_⟩
  · rw [hjoin _ _ "_" rfl hp hq]
    decide +kernel
  · rw [hsame _ _ "_" hpadded]
    decide +kernel

end SourceAudit
