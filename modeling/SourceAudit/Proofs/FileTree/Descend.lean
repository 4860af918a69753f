import SourceAudit.Proofs.FileTree.Walk
import SourceAudit.Proofs.Path.Descend

/-!
# Following a path down from a folder

When a path leads to a folder, the path joined with a name leads to the entry of that name, unless
the entry is a link. It may have passed links before: how many there were does not matter, since
the way below the folder passes none.

    t.find p = .ok here → node.at? place = some inner →
      t.find (Path.descend p place) = .ok (here ++ place)                        (find_descend)
-/

namespace SourceAudit

namespace FileTree

variable {root : Node}

/-! ## Ways that begin alike -/

/-- A first step leads to a place from which the way goes on, or to a link whose goal is followed,
or nowhere. Which of them does not depend on the rest of the way. -/
theorem advance_cons_cases (root : Node) (here : List Name) (step : Step) :
    (∃ next, ∀ follow rest,
      advance root follow here (step :: rest) = advance root follow next rest) ∨
    (∃ begin steps, ∀ follow rest,
      advance root follow here (step :: rest) = follow begin (steps ++ rest)) ∨
    ∃ e, ∀ follow rest, advance root follow here (step :: rest) = .error e := by
  simp only [advance]
  cases root.at? here with
  | none => exact Or.inr (Or.inr ⟨_, fun _ _ => rfl⟩)
  | some node =>
    cases node with
    | file content => exact Or.inr (Or.inr ⟨_, fun _ _ => rfl⟩)
    | link goal => exact Or.inr (Or.inr ⟨_, fun _ _ => rfl⟩)
    | folder entries =>
      cases step with
      | stay => exact Or.inl ⟨_, fun _ _ => rfl⟩
      | up => exact Or.inl ⟨_, fun _ _ => rfl⟩
      | into name =>
        dsimp only
        cases entries.lookup name with
        | none => exact Or.inr (Or.inr ⟨_, fun _ _ => rfl⟩)
        | some inner =>
          cases inner with
          | file content => exact Or.inl ⟨_, fun _ _ => rfl⟩
          | folder inner => exact Or.inl ⟨_, fun _ _ => rfl⟩
          | link goal =>
            dsimp only
            cases Path.steps? goal with
            | none => exact Or.inr (Or.inr ⟨_, fun _ _ => rfl⟩)
            | some steps =>
              by_cases hgoal : goal = []
              · exact Or.inr (Or.inr ⟨_, fun _ _ => if_pos hgoal⟩)
              · exact Or.inr (Or.inl ⟨_, steps, fun _ _ => if_neg hgoal⟩)

/-- After its first steps a way goes on as one that begins where they lead. -/
theorem exists_advance_of_advance
    {follow : List Name → List Step → Except AccessError (List Name)}
    (hf : ∀ here front more place, follow here (front ++ more) = .ok place →
      ∃ mid later, ∀ rest, follow here (front ++ rest) = advance root later mid rest)
    {here place : List Name} {front more : List Step}
    (h : advance root follow here (front ++ more) = .ok place) :
    ∃ mid later, ∀ rest,
      advance root follow here (front ++ rest) = advance root later mid rest := by
  induction front generalizing here with
  | nil => exact ⟨here, follow, fun rest => rfl⟩
  | cons step front ih =>
    simp only [List.cons_append] at h ⊢
    rcases advance_cons_cases root here step with
      ⟨next, hnext⟩ | ⟨begin, steps, hlink⟩ | ⟨e, herror⟩
    · simp only [hnext] at h ⊢
      exact ih h
    · simp only [hlink, ← List.append_assoc] at h ⊢
      exact hf _ _ _ _ h
    · rw [herror] at h
      cases h

theorem exists_advance_of_locate {links : Nat} {here place : List Name} {front more : List Step}
    (h : locate root links here (front ++ more) = .ok place) :
    ∃ mid later, ∀ rest, locate root links here (front ++ rest) = advance root later mid rest := by
  induction links generalizing here place front more with
  | zero =>
    refine exists_advance_of_advance ?_ h
    intro _ _ _ _ hf
    cases hf
  | succ links ih => exact exists_advance_of_advance (fun _ _ _ _ hf => ih hf) h

/-- A step that stays where it is, or none, ends where it began. -/
theorem eq_of_advance_stay {follow : List Name → List Step → Except AccessError (List Name)}
    {here place : List Name} {rest : List Step} (hr : rest = [] ∨ rest = [.stay])
    (h : advance root follow here rest = .ok place) : here = place := by
  rcases hr with rfl | rfl
  · injection h
  · rw [advance] at h
    split at h
    · injection h
    · cases h
    · cases h

theorem advance_into {follow : List Name → List Step → Except AccessError (List Name)}
    {here : List Name} {entries : Entries} {name : Name} {node : Node}
    (hh : root.at? here = some (.folder entries)) (hn : entries.lookup name = some node)
    (hl : node.isLink = false) :
    advance root follow here [.into name] = .ok (here ++ [name]) := by
  rw [advance, hh]
  simp only [hn]
  cases node with
  | link goal => cases hl
  | file content => rfl
  | folder inner => rfl

/-! ## The steps of a joined path -/

theorem ofPiece?_name (name : Name) : Step.ofPiece? name.bytes = some (.into name) := by
  obtain ⟨hne, hdot, hdots, -⟩ := name.valid
  rw [Step.ofPiece?, if_neg (not_or.2 ⟨hne, hdot⟩), if_neg hdots, Name.ofBytes?, dif_pos name.valid]
  rfl

theorem steps?_join_name {p : Path} {steps : List Step} (h : Path.steps? p = some steps)
    (name : Name) :
    ∃ front rest, steps = front ++ rest ∧ (rest = [] ∨ rest = [.stay]) ∧
      Path.steps? (Path.join p name.bytes) = some (front ++ [.into name]) := by
  obtain ⟨pieces, hp, hjoin⟩ := Path.splitOn_join (Path.isAbsolute_name name) p
  unfold Path.steps? at h ⊢
  rw [hjoin, Path.splitOn_name, List.mapM_append]
  have hend : [name.bytes].mapM Step.ofPiece? = some [.into name] := by
    rw [List.mapM_cons, ofPiece?_name]
    rfl
  rcases hp with hp | hp
  · rw [hp] at h
    refine ⟨steps, [], (List.append_nil _).symm, Or.inl rfl, ?_⟩
    rw [h, hend]
    rfl
  · rw [hp, List.mapM_append] at h
    obtain ⟨front, hfront, h⟩ := Option.bind_eq_some_iff.1 h
    injection h with h
    refine ⟨front, [.stay], h.symm, Or.inr rfl, ?_⟩
    rw [hfront, hend]
    rfl

/-! ## Entries of a folder -/

theorem join_name_ne_nil (p : Path) (name : Name) : Path.join p name.bytes ≠ [] := by
  intro h
  have hc := Path.components_join_name p name
  rw [h] at hc
  exact List.append_ne_nil_of_right_ne_nil _ (List.cons_ne_nil _ _) hc.symm

variable {t : FileTree}

/-- The way of a path joined with a name goes on from where the path leads. -/
theorem exists_find_join_name_eq {p : Path} {here : List Name} (h : t.find p = .ok here)
    (name : Name) :
    ∃ later, t.find (Path.join p name.bytes) = advance t.root later here [.into name] := by
  unfold find at h
  split at h
  · cases h
  · next steps hsteps =>
    split at h
    · cases h
    · obtain ⟨front, rest, rfl, hrest, hjoin⟩ := steps?_join_name hsteps name
      obtain ⟨mid, later, hlater⟩ := exists_advance_of_locate h
      rw [hlater] at h
      obtain rfl := eq_of_advance_stay hrest h
      have hstart : start t.home (Path.join p name.bytes) = start t.home p := by
        rw [start, start, Path.isAbsolute_join (Path.isAbsolute_name name)]
      refine ⟨later, ?_⟩
      unfold find
      rw [hjoin]
      simp only
      rw [if_neg (join_name_ne_nil p name), hstart, hlater]

theorem find_join_name {p : Path} {here : List Name} {entries : Entries} {name : Name} {node : Node}
    (h : t.find p = .ok here) (hh : t.root.at? here = some (.folder entries))
    (hn : entries.lookup name = some node) (hl : node.isLink = false) :
    t.find (Path.join p name.bytes) = .ok (here ++ [name]) := by
  obtain ⟨later, hfind⟩ := exists_find_join_name_eq h name
  rw [hfind]
  exact advance_into hh hn hl

theorem find_descend {p : Path} {here place : List Name} {node inner : Node}
    (h : t.find p = .ok here) (hh : t.root.at? here = some node)
    (hplace : node.at? place = some inner) (hl : inner.isLink = false) :
    t.find (Path.descend p place) = .ok (here ++ place) := by
  induction place generalizing p here node with
  | nil => rwa [Path.descend_nil, List.append_nil]
  | cons name place ih =>
    cases node with
    | file content => cases hplace
    | link goal => cases hplace
    | folder entries =>
      obtain ⟨next, hnext, hplace⟩ := Option.bind_eq_some_iff.1 hplace
      -- a link on the way would have nothing below it
      have hlink : next.isLink = false := by
        cases next with
        | link goal =>
          cases place with
          | nil =>
            rw [Node.at?_nil] at hplace
            injection hplace with hplace
            rw [hplace, hl]
          | cons _ _ => cases hplace
        | file content => rfl
        | folder inner => rfl
      have hat : t.root.at? (here ++ [name]) = some next := by
        rw [Node.at?_append, hh]
        simp [Node.at?, hnext]
      rw [Path.descend_cons, ih (find_join_name h hh hnext hlink) hat hplace, List.append_assoc]
      rfl

theorem node?_eq_some_iff {p : Path} {node : Node} :
    t.node? p = some node ↔ t.refused .status p = none ∧
      ∃ here, t.find p = .ok here ∧ t.root.at? here = some node := by
  unfold node?
  cases t.refused .status p with
  | some cause => simp
  | none => cases t.find p <;> simp

/-- An entry below a folder is what the path down to it leads to, if the system tells. -/
theorem node?_descend {p : Path} {node inner : Node} {place : List Name} (h : t.node? p = some node)
    (hplace : node.at? place = some inner) (hl : inner.isLink = false)
    (hopen : t.refused .status (Path.descend p place) = none) :
    t.node? (Path.descend p place) = some inner := by
  obtain ⟨-, here, hp, hnode⟩ := node?_eq_some_iff.1 h
  refine node?_eq_some_iff.2 ⟨hopen, here ++ place, find_descend hp hnode hplace hl, ?_⟩
  rw [Node.at?_append, hnode, Option.bind_some, hplace]

/-- A name that a folder does not have leads to nothing. -/
theorem node?_join_name_eq_none {p : Path} {entries : Entries} {name : Name}
    (h : t.node? p = some (.folder entries)) (hn : entries.lookup name = none) :
    t.node? (Path.join p name.bytes) = none := by
  obtain ⟨-, here, hp, hnode⟩ := node?_eq_some_iff.1 h
  obtain ⟨later, hfind⟩ := exists_find_join_name_eq hp name
  have herror : advance t.root later here [.into name] = .error .notFound := by
    rw [advance, hnode]
    simp only [hn]
  unfold node?
  rw [hfind, herror]
  split
  · next hok => cases hok
  · rfl

end FileTree

end SourceAudit
