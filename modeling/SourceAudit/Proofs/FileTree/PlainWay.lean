import SourceAudit.Proofs.FileTree.Descend

/-!
# Ways without links

One place has many spellings: doubled slashes, `.` anywhere, a folder and `..` behind it. As long as
a spelling passes no link, what is joined to it leads where it would lead from the place itself, so
no path tells two such spellings of one place apart.

    t.LeadsTo base here → p relative → t.find (join base p) = t.findFrom here p    (find_join_eq)
    t.LeadsTo base here → t.LeadsTo other here → t.find (join base p) = t.find (join other p)
                                                                              (find_join_congr)
-/

namespace SourceAudit

namespace FileTree

/-! ## The rule -/

/-- A path that is not empty leads to a place, and no link is allowed on the way. -/
def LeadsTo (t : FileTree) (p : Path) (here : List Name) : Prop :=
  p ≠ [] ∧ ∃ steps, Path.steps? p = some steps ∧
    locate t.root 0 (start t.home p) steps = .ok here

/-- The place that a path leads to when it begins at another. -/
def findFrom (t : FileTree) (here : List Name) (p : Path) : Except AccessError (List Name) :=
  match Path.steps? p with
  | none => .error .nulInPath
  | some steps => locate t.root linkLimit here steps

/-! ## Lemmas -/

/-- Steps that pass no link end at some place, and whatever follows them goes on from there. How
many links a way may pass does not matter yet. -/
theorem exists_advance_of_locate_zero {root : Node} {here place : List Name}
    {front more : List Step} (h : locate root 0 here (front ++ more) = .ok place) :
    ∃ mid, ∀ follow rest,
      advance root follow here (front ++ rest) = advance root follow mid rest := by
  induction front generalizing here with
  | nil => exact ⟨here, fun _ _ => rfl⟩
  | cons step front ih =>
    simp only [locate, List.cons_append] at h ih ⊢
    rcases advance_cons_cases root here step with
      ⟨next, hnext⟩ | ⟨begin, steps, hlink⟩ | ⟨e, herror⟩
    · simp only [hnext] at h ⊢
      exact ih h
    · rw [hlink] at h
      cases h
    · rw [herror] at h
      cases h

theorem locate_eq_advance (root : Node) (links : Nat) :
    ∃ follow, locate root links = advance root follow := by
  cases links with
  | zero => exact ⟨_, rfl⟩
  | succ links => exact ⟨_, rfl⟩

variable {t : FileTree} {base other : Path} {here : List Name}

theorem find_join_eq (h : t.LeadsTo base here) {p : Path} (hp : Path.isAbsolute p = false) :
    t.find (Path.join base p) = t.findFrom here p := by
  obtain ⟨hne, steps, hsteps, hlocate⟩ := h
  obtain ⟨front, hfront, hjoin⟩ := Path.splitOn_join hp base
  -- the steps of the base, one that stays where it is perhaps left out at the end
  obtain ⟨first, last, rfl, hlast, hfirst⟩ : ∃ first last, steps = first ++ last ∧
      (last = [] ∨ last = [.stay]) ∧ front.mapM Step.ofPiece? = some first := by
    unfold Path.steps? at hsteps
    rcases hfront with hfront | hfront
    · exact ⟨steps, [], (List.append_nil _).symm, Or.inl rfl, hfront ▸ hsteps⟩
    · rw [hfront, List.mapM_append] at hsteps
      obtain ⟨first, hfirst, hsteps⟩ := Option.bind_eq_some_iff.1 hsteps
      injection hsteps with hsteps
      exact ⟨first, [.stay], hsteps.symm, Or.inr rfl, hfirst⟩
  obtain ⟨mid, hmid⟩ := exists_advance_of_locate_zero hlocate
  obtain rfl : mid = here := eq_of_advance_stay hlast ((hmid _ last).symm.trans hlocate)
  have hstart : start t.home (Path.join base p) = start t.home base := by
    rw [start, start, Path.isAbsolute_join hp]
  have hjoinne : Path.join base p ≠ [] := by
    rw [Path.join_eq_append hp]
    exact List.append_ne_nil_of_left_ne_nil hne _
  have hall : Path.steps? (Path.join base p) = (Path.steps? p).map (first ++ ·) := by
    rw [Path.steps?, hjoin, List.mapM_append, hfirst, Path.steps?]
    cases (Text.splitOn Path.slash p).mapM Step.ofPiece? <;> rfl
  obtain ⟨follow, hfollow⟩ := locate_eq_advance t.root linkLimit
  unfold find findFrom
  rw [hall, hstart, hfollow]
  cases Path.steps? p with
  | none => rfl
  | some rest =>
    simp only [Option.map_some, if_neg hjoinne]
    exact hmid follow rest

/-- What is joined to two spellings of one place leads to the same. -/
theorem find_join_congr (hbase : t.LeadsTo base here) (hother : t.LeadsTo other here) (p : Path) :
    t.find (Path.join other p) = t.find (Path.join base p) := by
  by_cases hp : Path.isAbsolute p = true
  · rw [Path.join_absolute hp, Path.join_absolute hp]
  · have hp : Path.isAbsolute p = false := Bool.eq_false_iff.2 hp
    rw [find_join_eq hbase hp, find_join_eq hother hp]

/-! ## A spelling of any length -/

/-- Here, said so many times. -/
def dotted (n : Nat) : Path := (List.replicate n [Path.dot, Path.slash]).flatten

theorem dotted_succ (n : Nat) : dotted (n + 1) = Path.dot :: Path.slash :: dotted n := rfl

theorem steps?_dotted (n : Nat) : Path.steps? (dotted n) = some (List.replicate (n + 1) .stay) := by
  induction n with
  | zero => rfl
  | succ n ih =>
    have hsplit : Text.splitOn Path.slash (dotted (n + 1)) =
        [Path.dot] :: Text.splitOn Path.slash (dotted n) := rfl
    unfold Path.steps? at ih ⊢
    rw [hsplit, List.mapM_cons, ih]
    rfl

theorem leadsTo_dotted {entries : Entries}
    (h : t.root.at? t.home = some (.folder entries)) (n : Nat) :
    t.LeadsTo (dotted (n + 1)) t.home := by
  have hstay : ∀ k, locate t.root 0 t.home (List.replicate k .stay) = .ok t.home := by
    intro k
    induction k with
    | zero => rfl
    | succ k ih =>
      unfold locate at ih ⊢
      rw [List.replicate_succ, advance, h]
      exact ih
  exact ⟨List.cons_ne_nil _ _, _, steps?_dotted (n + 1), hstay _⟩

end FileTree

end SourceAudit
