import SourceAudit.Proofs.Path.Descend

/-!
# The names along a path

Of the pieces between the slashes of a path the empty one, `.` and `..` name nothing, and every
other is a name. So the names of a path are the names of its parts in their order, however the parts
are put together, and pieces that name nothing can be put in anywhere.

    names (a ++ slash :: b) = names a ++ names b                            (names_append_slash)
    isAbsolute q = false → names (join p q) = names p ++ names q                      (names_join)
    Padded p q → names q = names p                                            (Padded.names_eq)
-/

namespace SourceAudit.Path

/-! ## The rule -/

/-- A piece between two slashes that names nothing. -/
inductive IsSilent : List UInt8 → Prop
  | empty : IsSilent []
  | here : IsSilent [dot]
  | up : IsSilent [dot, dot]

/-- The path with silent pieces put in, one after the other. An empty piece is a slash in front, a
doubled slash or a slash at the end. -/
inductive Padded (p : Path) : Path → Prop
  | same : Padded p p
  | alone {piece : List UInt8} (hpiece : IsSilent piece) (h : Padded p []) : Padded p piece
  | before {piece : List UInt8} {q : Path} (hpiece : IsSilent piece) (h : Padded p q) :
      Padded p (piece ++ slash :: q)
  | behind {piece : List UInt8} {q : Path} (hpiece : IsSilent piece) (h : Padded p q) :
      Padded p (q ++ slash :: piece)
  | between {piece : List UInt8} {a b : Path} (hpiece : IsSilent piece)
      (h : Padded p (a ++ slash :: b)) :
      Padded p (a ++ slash :: (piece ++ slash :: b))

/-- A component of the path names an entry. -/
def HasName (p : Path) : Prop := ∃ name, .entry name ∈ components p

/-! ## Names -/

theorem HasName.names_ne_nil {p : Path} (h : p.HasName) : names p ≠ [] := by
  obtain ⟨name, hname⟩ := h
  exact List.ne_nil_of_mem (List.mem_filterMap.2 ⟨.entry name, hname, rfl⟩)

theorem names_eq (p : Path) :
    names p = ((Text.splitOn slash p).filterMap component?).filterMap Component.name? := by
  rw [names, components]
  split
  · rfl
  · split <;> rfl

theorem eq_of_component? {piece : List UInt8} {c : Component} {name : List UInt8}
    (h : component? piece = some c) (hname : Component.name? c = some name) : name = piece := by
  unfold component? at h
  split at h
  · cases h
  · split at h <;> cases h <;> cases hname
    rfl

theorem subset_of_mem_names {p name : List UInt8} (h : name ∈ names p) : name ⊆ p := by
  rw [names_eq] at h
  obtain ⟨c, hc, hname⟩ := List.mem_filterMap.1 h
  obtain ⟨piece, hpiece, hcomponent⟩ := List.mem_filterMap.1 hc
  rw [eq_of_component? hcomponent hname]
  exact (Text.mem_of_mem_splitOn hpiece).2

theorem slash_not_mem_of_mem_names {p name : List UInt8} (h : name ∈ names p) : slash ∉ name := by
  rw [names_eq] at h
  obtain ⟨c, hc, hname⟩ := List.mem_filterMap.1 h
  obtain ⟨piece, hpiece, hcomponent⟩ := List.mem_filterMap.1 hc
  rw [eq_of_component? hcomponent hname]
  exact (Text.mem_of_mem_splitOn hpiece).1

theorem names_append_slash (a b : Path) : names (a ++ slash :: b) = names a ++ names b := by
  rw [names_eq, names_eq, names_eq, Text.splitOn_append, List.filterMap_append,
    List.filterMap_append]

theorem names_of_isSilent {piece : List UInt8} (h : IsSilent piece) : names piece = [] := by
  cases h <;> rfl

/-- Joining neither takes a name away nor makes one. -/
theorem names_join {q : Path} (hq : isAbsolute q = false) (p : Path) :
    names (join p q) = names p ++ names q := by
  obtain ⟨front, hfront, hjoin⟩ := splitOn_join hq p
  have hp : names p = (front.filterMap component?).filterMap Component.name? := by
    rw [names_eq]
    rcases hfront with h | h
    · rw [h]
    · rw [h, List.filterMap_append]
      exact congrArg _ (List.append_nil _)
  rw [hp, names_eq (join p q), names_eq q, hjoin, List.filterMap_append, List.filterMap_append]

theorem Padded.names_eq {p q : Path} (h : Padded p q) : names q = names p := by
  induction h with
  | same => rfl
  | alone hpiece _ ih => rw [← ih, names_of_isSilent hpiece]; rfl
  | before hpiece _ ih => rw [names_append_slash, names_of_isSilent hpiece, List.nil_append, ih]
  | behind hpiece _ ih => rw [names_append_slash, names_of_isSilent hpiece, List.append_nil, ih]
  | between hpiece _ ih =>
    rw [names_append_slash, names_append_slash, names_of_isSilent hpiece, List.nil_append,
      ← names_append_slash, ih]

/-! ## Names with something between them -/

theorem mem_of_mem_intercalate {α : Type} {names : List (List α)} {sep : List α} {c : α}
    (h : c ∈ List.intercalate sep names) : c ∈ sep ∨ ∃ name ∈ names, c ∈ name := by
  induction names with
  | nil => cases h
  | cons name more ih =>
    cases more with
    | nil =>
      rw [List.intercalate_singleton] at h
      exact Or.inr ⟨name, List.mem_cons_self, h⟩
    | cons next more =>
      rw [List.intercalate_cons_cons, List.append_assoc, List.mem_append, List.mem_append] at h
      rcases h with h | h | h
      · exact Or.inr ⟨name, List.mem_cons_self, h⟩
      · exact Or.inl h
      · rcases ih h with h | ⟨found, hfound, h⟩
        · exact Or.inl h
        · exact Or.inr ⟨found, List.mem_cons_of_mem name hfound, h⟩

theorem exists_intercalate_concat {α : Type} (sep last : List α) (names : List (List α)) :
    ∃ front, List.intercalate sep (names ++ [last]) = front ++ last := by
  induction names with
  | nil => exact ⟨[], List.intercalate_singleton⟩
  | cons name more ih =>
    obtain ⟨front, hfront⟩ := ih
    refine ⟨name ++ sep ++ front, ?_⟩
    rw [List.cons_append, List.intercalate_cons_of_ne_nil (by simp), hfront]
    simp only [List.append_assoc]

theorem intercalate_append {α : Type} {sep : List α} {front back : List (List α)}
    (hfront : front ≠ [])
    (hback : back ≠ []) : List.intercalate sep (front ++ back) =
      List.intercalate sep front ++ (sep ++ List.intercalate sep back) := by
  induction front with
  | nil => exact absurd rfl hfront
  | cons name more ih =>
    cases more with
    | nil =>
      rw [List.singleton_append, List.intercalate_cons_of_ne_nil hback, List.intercalate_singleton,
        List.append_assoc]
    | cons next more =>
      rw [List.cons_append, List.cons_append, List.intercalate_cons_cons, ← List.cons_append,
        ih (List.cons_ne_nil next more), List.intercalate_cons_cons]
      simp only [List.append_assoc]

end SourceAudit.Path
