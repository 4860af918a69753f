import SourceAudit.Discovery

/-!
# Going down from a directory

A path is put together name by name on the way down, and it is taken apart component by component
when what lies below the directory is asked for. Both agree for every spelling of the directory:
empty, with a slash at its end, with doubled slashes, with `.` and `..` inside.

    join (join base q) p = join base (join q p)                                    (join_join)
    components (descend p place) = components p ++ place.map entry        (components_descend)
    below? p (descend p place) = some (relativePath place)                 (below?_descend)
    names (relativePath place) = place.map Name.bytes                       (names_relativePath)
-/

namespace SourceAudit

/-! ## Pieces -/

namespace Text

variable {α : Type} [DecidableEq α] {mark : α}

theorem splitOn_cons_of_ne {c : α} (h : c ≠ mark) (rest : List α) :
    ∃ piece pieces, splitOn mark rest = piece :: pieces ∧
      splitOn mark (c :: rest) = (c :: piece) :: pieces := by
  obtain ⟨piece, pieces, hp⟩ := List.exists_cons_of_ne_nil (splitOn_ne_nil mark rest)
  refine ⟨piece, pieces, hp, ?_⟩
  rw [splitOn, if_neg h, hp]

theorem splitOn_append (a b : List α) :
    splitOn mark (a ++ mark :: b) = splitOn mark a ++ splitOn mark b := by
  induction a with
  | nil => simp [splitOn]
  | cons c a ih =>
    by_cases h : c = mark
    · simp [splitOn, h, ih]
    · obtain ⟨piece, pieces, hp, hc⟩ := splitOn_cons_of_ne h a
      rw [List.cons_append, splitOn, if_neg h, ih, hc, hp]
      rfl

theorem splitOn_of_not_mem {t : List α} (h : mark ∉ t) : splitOn mark t = [t] := by
  induction t with
  | nil => rfl
  | cons c rest ih =>
    simp only [List.mem_cons, not_or] at h
    rw [splitOn, if_neg (Ne.symm h.1), ih h.2]

/-- Pieces without the mark come back from what the mark joins them to. -/
theorem splitOn_intercalate {pieces : List (List α)} (h : ∀ piece ∈ pieces, mark ∉ piece)
    (hne : pieces ≠ []) : splitOn mark (List.intercalate [mark] pieces) = pieces := by
  induction pieces with
  | nil => exact absurd rfl hne
  | cons piece pieces ih =>
    rw [List.forall_mem_cons] at h
    cases pieces with
    | nil => rw [List.intercalate_singleton, splitOn_of_not_mem h.1]
    | cons next pieces =>
      rw [List.intercalate_cons_cons, List.append_assoc, List.singleton_append, splitOn_append,
        splitOn_of_not_mem h.1, ih h.2 (List.cons_ne_nil _ _), List.singleton_append]

theorem mem_of_mem_splitOn {t piece : List α} (h : piece ∈ splitOn mark t) :
    mark ∉ piece ∧ piece ⊆ t := by
  induction t generalizing piece with
  | nil =>
    obtain rfl := List.mem_singleton.1 h
    exact ⟨List.not_mem_nil, List.nil_subset _⟩
  | cons c rest ih =>
    by_cases hc : c = mark
    · rw [splitOn, if_pos hc] at h
      rcases List.mem_cons.1 h with rfl | h
      · exact ⟨List.not_mem_nil, List.nil_subset _⟩
      · exact ⟨(ih h).1, List.subset_cons_of_subset c (ih h).2⟩
    · obtain ⟨first, pieces, hrest, hsplit⟩ := splitOn_cons_of_ne hc rest
      rw [hsplit] at h
      rcases List.mem_cons.1 h with rfl | h
      · have hfirst := ih (hrest ▸ List.mem_cons_self)
        refine ⟨fun hmem => ?_, List.cons_subset_cons c hfirst.2⟩
        rcases List.mem_cons.1 hmem with hmem | hmem
        · exact hc hmem.symm
        · exact hfirst.1 hmem
      · have hpiece := ih (hrest ▸ List.mem_cons_of_mem first h)
        exact ⟨hpiece.1, List.subset_cons_of_subset c hpiece.2⟩

/-- What comes last of all comes last in the last piece. -/
theorem splitOn_concat {c : α} (h : c ≠ mark) (t : List α) :
    ∃ pieces piece, splitOn mark (t ++ [c]) = pieces ++ [piece ++ [c]] := by
  induction t with
  | nil => exact ⟨[], [], by rw [List.nil_append, splitOn_of_not_mem (by simp [Ne.symm h])]; rfl⟩
  | cons d rest ih =>
    obtain ⟨pieces, piece, hrest⟩ := ih
    by_cases hd : d = mark
    · exact ⟨[] :: pieces, piece, by rw [List.cons_append, splitOn, if_pos hd, hrest]; rfl⟩
    · obtain ⟨first, more, hsplit, hcons⟩ := splitOn_cons_of_ne hd (rest ++ [c])
      rw [hrest] at hsplit
      rw [List.cons_append, hcons]
      cases pieces with
      | nil =>
        injection hsplit with hfirst hmore
        exact ⟨[], d :: piece, by rw [← hfirst, ← hmore]; rfl⟩
      | cons p pieces =>
        injection hsplit with hfirst hmore
        exact ⟨(d :: p) :: pieces, piece, by rw [← hfirst, ← hmore]; rfl⟩

end Text

namespace Path

/-! ## Joining -/

theorem isAbsolute_name (name : Name) : isAbsolute name.bytes = false := by
  obtain ⟨bytes, hne, -, -, hslash, -⟩ := name
  cases bytes with
  | nil => exact absurd rfl hne
  | cons c rest =>
    have hc : c ≠ slash := fun e => hslash (by simp [e])
    simp [isAbsolute, hc]

/-- A relative path brings its own pieces. Of what it is joined to it takes every piece but an
empty last one. -/
theorem splitOn_join {p : Path} (hp : isAbsolute p = false) (base : Path) :
    ∃ front, (Text.splitOn slash base = front ∨ Text.splitOn slash base = front ++ [[]]) ∧
      Text.splitOn slash (join base p) = front ++ Text.splitOn slash p := by
  unfold join
  rw [hp, if_neg Bool.false_ne_true]
  by_cases hb : base = []
  · subst hb
    exact ⟨[], Or.inr rfl, rfl⟩
  · by_cases hlast : base.getLast? = some slash
    · obtain ⟨front, rfl⟩ := List.getLast?_eq_some_iff.1 hlast
      refine ⟨Text.splitOn slash front, Or.inr (Text.splitOn_append front []), ?_⟩
      rw [if_pos (Or.inr hlast), List.append_assoc]
      exact Text.splitOn_append front p
    · refine ⟨Text.splitOn slash base, Or.inl rfl, ?_⟩
      rw [if_neg (not_or.2 ⟨hb, hlast⟩)]
      exact Text.splitOn_append base p

theorem isAbsolute_join {p : Path} (hp : isAbsolute p = false) (base : Path) :
    isAbsolute (join base p) = isAbsolute base := by
  unfold join
  rw [hp, if_neg Bool.false_ne_true]
  cases base with
  | nil => exact hp
  | cons c rest => split <;> rfl

/-- What stands between a path and another that is joined to it. -/
def separator (base : Path) : Path := if base = [] ∨ base.getLast? = some slash then [] else [slash]

theorem join_eq_append {p : Path} (hp : isAbsolute p = false) (base : Path) :
    join base p = base ++ (separator base ++ p) := by
  rw [join, hp, if_neg Bool.false_ne_true, separator]
  split <;> rfl

/-- Behind a separator only the end of what follows matters. -/
theorem separator_append (base q : Path) :
    separator (base ++ (separator base ++ q)) = separator q := by
  by_cases hq : q = []
  · subst hq
    rw [List.append_nil]
    by_cases hb : base = [] ∨ base.getLast? = some slash
    · have hsep : separator base = [] := if_pos hb
      rw [hsep, List.append_nil, hsep]
      rfl
    · have hsep : separator base = [slash] := if_neg hb
      rw [hsep]
      exact if_pos (Or.inr List.getLast?_concat)
  · have hlast : (base ++ (separator base ++ q)).getLast? = q.getLast? := by
      rw [List.getLast?_append, List.getLast?_append, List.getLast?_eq_some_getLast hq]
      rfl
    have hne : base ++ (separator base ++ q) ≠ [] := by simp [hq]
    generalize base ++ (separator base ++ q) = whole at hlast hne
    simp only [separator, hlast, hne, hq, false_or]

/-- Joining one after the other is joining what was joined. -/
theorem join_join (base q p : Path) : join (join base q) p = join base (join q p) := by
  by_cases hp : isAbsolute p = true
  · rw [join_absolute hp, join_absolute hp, join_absolute hp]
  · have hp : isAbsolute p = false := Bool.eq_false_iff.2 hp
    by_cases hq : isAbsolute q = true
    · have hqp : isAbsolute (join q p) = true := (isAbsolute_join hp q).trans hq
      rw [join_absolute hq, join_absolute hqp]
    · have hq : isAbsolute q = false := Bool.eq_false_iff.2 hq
      have hqp : isAbsolute (join q p) = false := (isAbsolute_join hp q).trans hq
      rw [join_eq_append hp, join_eq_append hq, join_eq_append hqp, join_eq_append hp,
        separator_append]
      simp only [List.append_assoc]

theorem splitOn_name (name : Name) : Text.splitOn slash name.bytes = [name.bytes] :=
  Text.splitOn_of_not_mem name.valid.2.2.2.1

theorem component?_name (name : Name) : component? name.bytes = some (.entry name.bytes) := by
  obtain ⟨hne, hdot, hdots, -⟩ := name.valid
  rw [component?, if_neg (not_or.2 ⟨hne, hdot⟩), if_neg hdots]

theorem components_join_name (base : Path) (name : Name) :
    components (join base name.bytes) = components base ++ [.entry name.bytes] := by
  obtain ⟨front, hbase, hjoin⟩ := splitOn_join (isAbsolute_name name) base
  rw [splitOn_name] at hjoin
  have hrest : (Text.splitOn slash base).filterMap component? = front.filterMap component? := by
    rcases hbase with h | h <;> rw [h]
    rw [List.filterMap_append]
    exact List.append_nil _
  have hhead : (front ++ [name.bytes]).head? = some [dot] ↔
      (Text.splitOn slash base).head? = some [dot] := by
    cases front with
    | nil =>
      rcases hbase with h | h
      · exact absurd h (Text.splitOn_ne_nil slash base)
      · simp [h, name.valid.2.1]
    | cons piece pieces => rcases hbase with h | h <;> simp [h]
  have hend : [name.bytes].filterMap component? = [.entry name.bytes] := by
    rw [List.filterMap_cons, component?_name]
    rfl
  simp only [components, isAbsolute_join (isAbsolute_name name), hjoin, List.filterMap_append,
    hend, hrest]
  by_cases ha : isAbsolute base = true
  · rw [if_pos ha, if_pos ha, List.cons_append]
  · rw [if_neg ha, if_neg ha]
    by_cases hh : (Text.splitOn slash base).head? = some [dot]
    · rw [if_pos (hhead.2 hh), if_pos hh, List.cons_append]
    · rw [if_neg (mt hhead.1 hh), if_neg hh]

/-! ## Descending -/

@[simp] theorem descend_nil (directory : Path) : descend directory [] = directory := rfl

@[simp] theorem descend_cons (directory : Path) (name : Name) (place : List Name) :
    descend directory (name :: place) = descend (join directory name.bytes) place := rfl

theorem descend_join (directory p : Path) (place : List Name) :
    descend (join directory p) place = join directory (descend p place) := by
  induction place generalizing p with
  | nil => rfl
  | cons name place ih => rw [descend_cons, descend_cons, join_join, ih]

theorem components_descend (directory : Path) (place : List Name) :
    components (descend directory place) =
      components directory ++ place.map fun name => .entry name.bytes := by
  induction place generalizing directory with
  | nil => simp
  | cons name place ih =>
    rw [descend_cons, ih, components_join_name, List.append_assoc, List.map_cons]
    rfl

/-- A place as a path that begins in the folder where the place begins. -/
def relativePath (place : List Name) : Path := List.intercalate [slash] (place.map Name.bytes)

theorem below?_descend (directory : Path) (place : List Name) :
    below? directory (descend directory place) = some (relativePath place) := by
  have hdrop : Text.dropStart? (components directory) (components (descend directory place)) =
      some (place.map fun name => .entry name.bytes) :=
    Text.dropStart?_eq_some_iff.2 (components_descend directory place)
  rw [below?, hdrop, Option.map_some, List.map_map]
  rfl

theorem isAbsolute_name_append (name : Name) (more : Path) :
    isAbsolute (name.bytes ++ more) = false := by
  have h := isAbsolute_name name
  obtain ⟨c, rest, hc⟩ := List.exists_cons_of_ne_nil name.valid.1
  rw [hc] at h ⊢
  exact h

@[simp] theorem relativePath_singleton (name : Name) : relativePath [name] = name.bytes :=
  List.intercalate_singleton

@[simp] theorem relativePath_cons_cons (name next : Name) (place : List Name) :
    relativePath (name :: next :: place) = name.bytes ++ slash :: relativePath (next :: place) := by
  rw [relativePath, List.map_cons, List.map_cons, List.intercalate_cons_cons, List.append_assoc]
  rfl

theorem isAbsolute_relativePath (place : List Name) : isAbsolute (relativePath place) = false := by
  cases place with
  | nil => rfl
  | cons name place =>
    cases place with
    | nil =>
      rw [relativePath_singleton]
      exact isAbsolute_name name
    | cons next place =>
      rw [relativePath_cons_cons]
      exact isAbsolute_name_append name _

theorem join_name {p : Path} (hp : isAbsolute p = false) (name : Name) :
    join name.bytes p = name.bytes ++ slash :: p := by
  have hlast : name.bytes.getLast? ≠ some slash := fun h =>
    name.valid.2.2.2.1 (List.mem_of_getLast? h)
  rw [join, hp, if_neg Bool.false_ne_true, if_neg (not_or.2 ⟨name.valid.1, hlast⟩)]

/-- All the names of a place can be joined at once. -/
theorem descend_eq_join (directory : Path) {place : List Name} (h : place ≠ []) :
    descend directory place = join directory (relativePath place) := by
  induction place generalizing directory with
  | nil => exact absurd rfl h
  | cons name place ih =>
    rw [descend_cons]
    cases place with
    | nil => rw [descend_nil, relativePath_singleton]
    | cons next place =>
      rw [ih _ (List.cons_ne_nil _ _), join_join, join_name (isAbsolute_relativePath _),
        relativePath_cons_cons]

theorem components_relativePath (place : List Name) :
    components (relativePath place) = place.map fun name => .entry name.bytes := by
  cases place with
  | nil => rfl
  | cons name place =>
    have hdown := descend_eq_join [] (List.cons_ne_nil name place)
    rw [← join_nil_left (relativePath (name :: place)), ← hdown, components_descend]
    rfl

theorem names_map_entry (place : List Name) :
    (place.map fun name => Component.entry name.bytes).filterMap Component.name? =
      place.map Name.bytes := by
  induction place with
  | nil => rfl
  | cons name place ih => simp [Component.name?, ih]

theorem names_relativePath (place : List Name) :
    names (relativePath place) = place.map Name.bytes := by
  rw [names, components_relativePath, names_map_entry]

theorem fileName?_descend (directory : Path) (place : List Name) (name : Name) :
    fileName? (descend directory (place ++ [name])) = some name.bytes := by
  rw [fileName?, components_descend, List.map_append, List.map_singleton, ← List.append_assoc,
    List.getLast?_concat]
  rfl

end Path

end SourceAudit
