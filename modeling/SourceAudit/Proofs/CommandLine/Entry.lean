import SourceAudit.CommandLine.Given

/-!
# Entries

Each option gives one entry, and an entry is laid over what was given before, if nothing was given
for the same. So the order of the entries does not matter, and entries of two levels give together
what they give on one level, if no two of them are for the same.

    es.Perm es' → g.enterAll? es = g.enterAll? es'                              (enterAll?_perm)
    no field twice → enterAll? {} (outer ++ inner) is what the two levels give together
                                                                            (enterAll?_levels)
-/

namespace SourceAudit

/-! ## The rule -/

/-- What an option gives, or a text that is none. -/
inductive GivenEntry
  | flag (f : Flag)
  | value (slot : Slot) (t : Text)
deriving DecidableEq

/-- What an entry is for. Of one line, no two are for the same. -/
inductive GivenField
  | flag (f : Flag)
  | value (slot : Slot)
deriving DecidableEq

/-- A flag, the report, or an option with a value. -/
@[cases_eliminator]
theorem GivenField.cases {motive : GivenField → Prop} (flag : ∀ f, motive (.flag f))
    (report : motive (.value .report)) (option : ∀ o, motive (.value (.option o))) :
    ∀ field, motive field
  | .flag f => flag f
  | .value .report => report
  | .value (.option o) => option o

@[cases_eliminator]
theorem GivenEntry.cases {motive : GivenEntry → Prop} (flag : ∀ f, motive (.flag f))
    (report : ∀ t, motive (.value .report t)) (option : ∀ o t, motive (.value (.option o) t)) :
    ∀ e, motive e
  | .flag f => flag f
  | .value .report t => report t
  | .value (.option o) t => option o t

/-- What an entry is for, whatever it says there. -/
def GivenEntry.field : GivenEntry → GivenField
  | .flag f => .flag f
  | .value slot _ => .value slot

namespace Given

/-- Something was given for a field. -/
def fills (g : Given) : GivenField → Bool
  | .flag f => g.has f
  | .value .report => g.report.isSome
  | .value (.option o) =>
    match o with
    | .directory => g.directory.isSome
    | .config => g.config.isSome
    | .format => g.format.isSome
    | .jobs => g.jobs.isSome
    | .mode => g.mode.isSome
    | .lineThreshold => g.lineThreshold.isSome
    | .functionThreshold => g.functionThreshold.isSome
    | .coverage => g.coverage.isSome

def enter? (g : Given) : GivenEntry → Option Given
  | .flag f => (g.raise f).toOption
  | .value slot t => (g.set slot t).toOption

def enterAll? (g : Given) (es : List GivenEntry) : Option Given := es.foldlM enter? g

/-! ## Two levels -/

variable {g h : Given} {e : GivenEntry} {field : GivenField}

/-- Two levels give together what either of them gives. -/
theorem fills_orElse : (g.orElse h).fills field = (g.fills field || h.fills field) := by
  cases field with
  | flag f => cases f <;> rfl
  | report => exact Option.isSome_or
  | option o => cases o <;> exact Option.isSome_or

theorem fills_empty : fills {} field = false := by
  cases field with
  | flag f => cases f <;> rfl
  | report => rfl
  | option o => cases o <;> rfl

/-- With nothing given twice neither level counts more than the other. -/
theorem orElse_comm (hapart : ∀ field, g.fills field = true → h.fills field = false) :
    g.orElse h = h.orElse g := by
  have hvalue : ∀ {α : Type} (a b : Option α), (a.isSome = true → b.isSome = false) →
      a.or b = b.or a := by
    intro α a b hab
    cases a with
    | none => rw [Option.none_or, Option.or_none]
    | some x =>
      rw [Option.isNone_iff_eq_none.1 (Option.isSome_eq_false_iff.1 (hab rfl)), Option.none_or,
        Option.or_none]
  unfold orElse
  rw [hvalue _ _ (hapart (.value (.option .directory))),
    hvalue _ _ (hapart (.value (.option .config))), hvalue _ _ (hapart (.value (.option .format))),
    hvalue _ _ (hapart (.value (.option .jobs))), hvalue _ _ (hapart (.value (.option .mode))),
    hvalue _ _ (hapart (.value (.option .lineThreshold))),
    hvalue _ _ (hapart (.value (.option .functionThreshold))),
    hvalue _ _ (hapart (.value (.option .coverage))), hvalue _ _ (hapart (.value .report)),
    Bool.or_comm g.quiet, Bool.or_comm g.verbose, Bool.or_comm g.noColor, Bool.or_comm g.parallel,
    Bool.or_comm g.failFast]

/-! ## One entry -/

/-- A value is read where none was given before, and put over what was given for the rest. -/
theorem toOption_fill {α : Type} {old : Option α} {read : Except Misuse α}
    {put alone : Option α → Given} (hput : ∀ x, put (some x) = (alone (some x)).orElse g) :
    Except.toOption (do return put (← fill old read)) =
      if old.isSome then none
      else (Except.toOption (do return alone (← fill none read))).map (·.orElse g) := by
  cases old with
  | some x => rfl
  | none =>
    cases read with
    | error e => rfl
    | ok x => exact congrArg some (hput x)

theorem toOption_raise (f : Flag) :
    (g.raise f).toOption =
      if g.has f then none else (Given.raise {} f).toOption.map (·.orElse g) := by
  unfold raise
  cases g.has f with
  | true => rfl
  | false => cases f <;> rfl

/-- An entry is a misuse where its field is filled. Elsewhere what it gives alone is laid over. -/
theorem enter?_eq (g : Given) (e : GivenEntry) :
    g.enter? e = if g.fills e.field then none else (enter? {} e).map (·.orElse g) := by
  cases e with
  | flag f => exact toOption_raise f
  | report t => exact toOption_fill fun _ => rfl
  | option o t => cases o <;> exact toOption_fill fun _ => rfl

theorem exists_of_toOption_fill {α : Type} {read : Except Misuse α} {alone : Option α → Given}
    {s : Given} (h : Except.toOption (do return alone (← fill none read)) = some s) :
    ∃ x, read = .ok x ∧ alone (some x) = s := by
  cases read with
  | error e => cases h
  | ok x => exact ⟨x, rfl, Option.some.inj h⟩

/-- What an entry gives alone is for its field and for no other. -/
theorem fills_alone {s : Given} (h : enter? {} e = some s) (field : GivenField) :
    s.fills field = decide (field = e.field) := by
  cases e with
  | flag f =>
    cases f <;> cases h <;> cases field with
    | flag f' => cases f' <;> rfl
    | report => rfl
    | option o => cases o <;> rfl
  | report t =>
    obtain ⟨x, -, rfl⟩ := exists_of_toOption_fill h
    cases field with
    | flag f' => cases f' <;> rfl
    | report => rfl
    | option o => cases o <;> rfl
  | option o t =>
    cases o <;> obtain ⟨x, -, rfl⟩ := exists_of_toOption_fill h <;> cases field with
    | flag f' => cases f' <;> rfl
    | report => rfl
    | option o' => cases o' <;> rfl

theorem enter?_eq_some_iff {g' : Given} :
    g.enter? e = some g' ↔
      g.fills e.field = false ∧ ∃ s, enter? {} e = some s ∧ s.orElse g = g' := by
  rw [enter?_eq, ← Option.map_eq_some_iff]
  cases g.fills e.field with
  | true => exact iff_of_false nofun nofun
  | false => exact (and_iff_right rfl).symm

/-- An entry fills its own field and leaves the others as they are. -/
theorem fills_enter? {g' : Given} (h : g.enter? e = some g') (field : GivenField) :
    g'.fills field = (g.fills field || decide (field = e.field)) := by
  obtain ⟨-, s, hs, rfl⟩ := enter?_eq_some_iff.1 h
  rw [fills_orElse, fills_alone hs, Bool.or_comm]

/-- An entry behind a level that gives nothing for it. -/
theorem enter?_orElse (hout : h.fills e.field = false) :
    (g.orElse h).enter? e = (g.enter? e).map (·.orElse h) := by
  rw [enter?_eq, enter?_eq g, fills_orElse, hout, Bool.or_false]
  split
  · rfl
  · rw [Option.map_map]
    exact Option.map_congr fun s _ => (orElse_assoc s g h).symm

/-! ## All entries -/

/-- What two entries lead to, they lead to in the other order too. -/
theorem enter?_swap {d : GivenEntry} {middle last : Given} (hd : g.enter? d = some middle)
    (he : middle.enter? e = some last) :
    ∃ middle', g.enter? e = some middle' ∧ middle'.enter? d = some last := by
  obtain ⟨hdFree, s, hs, rfl⟩ := enter?_eq_some_iff.1 hd
  obtain ⟨heFree, s', hs', rfl⟩ := enter?_eq_some_iff.1 he
  rw [fills_orElse, Bool.or_eq_false_iff, fills_alone hs, decide_eq_false_iff_not] at heFree
  obtain ⟨hne, heFree⟩ := heFree
  refine ⟨s'.orElse g, enter?_eq_some_iff.2 ⟨heFree, s', hs', rfl⟩,
    enter?_eq_some_iff.2 ⟨?_, s, hs, ?_⟩⟩
  · rw [fills_orElse, hdFree, fills_alone hs', Bool.or_false, decide_eq_false_iff_not]
    exact fun heq => hne heq.symm
  · have hapart : ∀ field, s.fills field = true → s'.fills field = false := by
      intro field hfield
      rw [fills_alone hs, decide_eq_true_eq] at hfield
      rw [fills_alone hs', hfield, decide_eq_false_iff_not]
      exact fun heq => hne heq.symm
    rw [← orElse_assoc, ← orElse_assoc, orElse_comm hapart]

/-- Two entries may stand in either order, and where they are a misuse they are one in both. -/
theorem enter?_comm (g : Given) (d e : GivenEntry) :
    (g.enter? d).bind (·.enter? e) = (g.enter? e).bind (·.enter? d) := by
  ext last
  simp only [Option.bind_eq_some_iff]
  constructor
  · rintro ⟨middle, hd, he⟩
    exact enter?_swap hd he
  · rintro ⟨middle, he, hd⟩
    exact enter?_swap he hd

@[simp] theorem enterAll?_cons (g : Given) (e : GivenEntry) (es : List GivenEntry) :
    g.enterAll? (e :: es) = (g.enter? e).bind (·.enterAll? es) := rfl

@[simp] theorem enterAll?_singleton (g : Given) (e : GivenEntry) : g.enterAll? [e] = g.enter? e :=
  Option.bind_fun_some _

theorem enterAll?_append (g : Given) (es fs : List GivenEntry) :
    g.enterAll? (es ++ fs) = (g.enterAll? es).bind (·.enterAll? fs) :=
  List.foldlM_append

theorem enterAll?_perm {es fs : List GivenEntry} (h : es.Perm fs) (g : Given) :
    g.enterAll? es = g.enterAll? fs := by
  induction h generalizing g with
  | nil => rfl
  | cons e _ ih =>
    rw [enterAll?_cons, enterAll?_cons]
    exact Option.bind_congr fun g' _ => ih g'
  | swap d e es =>
    simp only [enterAll?_cons]
    rw [← Option.bind_assoc, ← Option.bind_assoc, enter?_comm]
  | trans _ _ ih ih' => exact (ih g).trans (ih' g)

/-- Behind a line the fields of its entries are filled, and those that were so before it. -/
theorem fills_enterAll? {es : List GivenEntry} {g' : Given} (h : g.enterAll? es = some g')
    (field : GivenField) :
    g'.fills field = (g.fills field || decide (field ∈ es.map GivenEntry.field)) := by
  induction es generalizing g with
  | nil =>
    cases h
    simp
  | cons e es ih =>
    obtain ⟨middle, he, hes⟩ := Option.bind_eq_some_iff.1 h
    rw [ih hes, fills_enter? he, Bool.or_assoc, List.map_cons, ← Bool.decide_or]
    simp only [List.mem_cons]

/-- A level that gives nothing for a line is as well laid under what comes of the line. -/
theorem enterAll?_orElse {es : List GivenEntry}
    (hout : ∀ e ∈ es, h.fills e.field = false) :
    (g.orElse h).enterAll? es = (g.enterAll? es).map (·.orElse h) := by
  induction es generalizing g with
  | nil => rfl
  | cons e es ih =>
    rw [List.forall_mem_cons] at hout
    rw [enterAll?_cons, enterAll?_cons, enter?_orElse hout.1, Option.bind_map, Option.map_bind]
    exact Option.bind_congr fun g' _ => ih hout.2

/-- Entries of two levels may stand on one, the outer ones first, if no two are for the same. -/
theorem enterAll?_levels {outer inner : List GivenEntry}
    (hapart : ∀ d ∈ outer, ∀ e ∈ inner, d.field ≠ e.field) :
    enterAll? {} (outer ++ inner) =
      (enterAll? {} outer).bind fun g => (enterAll? {} inner).map (·.orElse g) := by
  rw [enterAll?_append]
  refine Option.bind_congr fun g hg => ?_
  rw [← enterAll?_orElse, empty_orElse]
  intro e he
  rw [fills_enterAll? hg, fills_empty, Bool.false_or, decide_eq_false_iff_not, List.mem_map]
  rintro ⟨d, hd, heq⟩
  exact hapart d hd e he heq

theorem readPath_eq_ok {t p : Text} (h : readPath t = .ok p) : p = t := by
  unfold readPath at h
  split at h
  · cases h
  · exact (Except.ok.inj h).symm

/-- The settings file is the one that an entry names. The entry may as well come last. -/
theorem config_enterAll? {es : List GivenEntry} {g' : Given} {t : Text}
    (h : g.enterAll? es = some g') (hmem : .value (.option .config) t ∈ es) :
    g'.config = some t := by
  have hperm : es.Perm (es.erase (.value (.option .config) t) ++ [.value (.option .config) t]) :=
    (List.perm_cons_erase hmem).trans (List.perm_append_singleton _ _).symm
  rw [enterAll?_perm hperm, enterAll?_append, Option.bind_eq_some_iff] at h
  obtain ⟨before, -, hlast⟩ := h
  rw [enterAll?_cons, Option.bind_eq_some_iff] at hlast
  obtain ⟨last, hlast, hnil⟩ := hlast
  cases hnil
  obtain ⟨-, s, hs, rfl⟩ := enter?_eq_some_iff.1 hlast
  obtain ⟨p, hp, rfl⟩ := exists_of_toOption_fill hs
  rw [readPath_eq_ok hp]
  rfl

end Given

end SourceAudit
