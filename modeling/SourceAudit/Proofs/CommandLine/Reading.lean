import SourceAudit.CommandLine.Arguments
import SourceAudit.Proofs.CommandLine.Entry
import Mathlib.Data.List.TakeWhile

/-!
# A level read by pieces

The texts of a level come in pieces, each of which gives entries: an option is a piece, with its
value if it has one, and so is a text that is none. As a value is looked at only when the next piece
comes, what a piece leads to is said of the outcome that a reading has once its last value is looked
at: the entries of the piece are entered, or something is wrong by then.

    what the texts of pieces lead to is what they give together                 (comes_pieces)
    no piece ends a level                                                       (level_pieces)
-/

namespace SourceAudit

/-! ## The rule -/

/-- Texts that give entries. Any level has a place for them, but for those that are for the command
alone: only `check` has a coverage summary, and only `coverage` a report. -/
inductive Gives (level : Level) : List Text → List GivenEntry → Prop
  | flag {name : Text} {f : Flag} (hname : (name, .flag f) ∈ OptionName.longNames) :
    Gives level ['-' :: '-' :: name] [.flag f]
  | letters {flags : List (Char × Flag)} (hne : flags ≠ [])
      (hletters : ∀ p ∈ flags, (p.1, .flag p.2) ∈ OptionName.shortNames) :
    Gives level ['-' :: flags.map (·.1)] (flags.map (.flag ·.2))
  | value {name t : Text} {o : ValueOption} (hname : (name, .value o) ∈ OptionName.longNames)
      (hlevel : o = .coverage → level = .command .check) :
    Gives level ['-' :: '-' :: (name ++ '=' :: t)] [.value (.option o) t]
  | valueBehind {name t : Text} {o : ValueOption}
      (hname : (name, .value o) ∈ OptionName.longNames)
      (hlevel : o = .coverage → level = .command .check) (hplain : Token.ofText t = .plain t) :
    Gives level ['-' :: '-' :: name, t] [.value (.option o) t]
  | report {t : Text} (hlevel : level = .command .coverage)
      (hplain : Token.ofText t = .plain t) :
    Gives level [t] [.value .report t]

structure Piece (level : Level) where
  texts : List Text
  entries : List GivenEntry
  gives : Gives level texts entries

/-! ## Texts -/

namespace OptionName

theorem name_of_mem {name : Text} {o : OptionName} (h : (name, o) ∈ longNames) :
    name ≠ [] ∧ ∀ c ∈ name, (c != '=') = true := by
  have hall : ∀ p ∈ longNames, p.1 ≠ [] ∧ p.1.all (· != '=') = true := by decide
  exact ⟨(hall _ h).1, List.all_eq_true.1 (hall _ h).2⟩

theorem letter_of_mem {c : Char} {o : OptionName} (h : (c, o) ∈ shortNames) : c ≠ '-' := by
  have hall : ∀ p ∈ shortNames, p.1 ≠ '-' := by decide
  exact hall _ h

theorem ofLong?_of_mem {level : Level} {name : Text} {o : OptionName} (h : (name, o) ∈ longNames)
    (hallowed : allowedAt level o = true) : ofLong? level name = some o := by
  have hall : ∀ p ∈ longNames, longNames.lookup p.1 = some p.2 := by decide
  exact Option.filter_eq_some_iff.2 ⟨hall _ h, hallowed⟩

theorem ofShort?_of_mem {level : Level} {c : Char} {o : OptionName} (h : (c, o) ∈ shortNames)
    (hallowed : allowedAt level o = true) : ofShort? level c = some o := by
  have hall : ∀ p ∈ shortNames, shortNames.lookup p.1 = some p.2 := by decide
  exact Option.filter_eq_some_iff.2 ⟨hall _ h, hallowed⟩

/-- A flag and an option with a value have a place on every level, but for the coverage summary. -/
theorem allowedAt_value {level : Level} {o : ValueOption}
    (h : o = .coverage → level = .command .check) : allowedAt level (.value o) = true := by
  cases o with
  | coverage => exact decide_eq_true (h rfl)
  | _ => rfl

end OptionName

theorem Keyword.ofText?_dash (rest : Text) : Keyword.ofText? ('-' :: rest) = none := by
  unfold Keyword.ofText?
  have hhelp : '-' :: rest ≠ ("help" : Text) := by
    intro h
    exact absurd (List.cons.inj h).1 (by decide)
  rw [if_neg hhelp, Option.map_eq_none_iff, List.find?_eq_none]
  intro name _ h
  rw [decide_eq_true_eq] at h
  cases name <;> exact absurd (List.cons.inj h).1 (by decide)

theorem Token.ofText_long {name : Text} (hne : name ≠ []) (heq : ∀ c ∈ name, (c != '=') = true) :
    Token.ofText ('-' :: '-' :: name) = .long name none := by
  cases name with
  | nil => exact absurd rfl hne
  | cons c rest =>
    show Token.long ((c :: rest).takeWhile (· != '=')) _ = _
    rw [List.takeWhile_eq_self_iff.2 heq, List.dropWhile_eq_nil_iff.2 heq]

theorem Token.ofText_long_value {name : Text} (t : Text) (hne : name ≠ [])
    (heq : ∀ c ∈ name, (c != '=') = true) :
    Token.ofText ('-' :: '-' :: (name ++ '=' :: t)) = .long name (some t) := by
  have htake : (name ++ '=' :: t).takeWhile (· != '=') = name := by
    rw [List.takeWhile_append_of_pos heq]
    simp
  have hdrop : (name ++ '=' :: t).dropWhile (· != '=') = '=' :: t := by
    rw [List.dropWhile_append_of_pos heq]
    rfl
  cases name with
  | nil => exact absurd rfl hne
  | cons c rest =>
    show Token.long ((c :: rest ++ '=' :: t).takeWhile (· != '=')) _ = _
    rw [htake, hdrop]

theorem Token.ofText_letters {c : Char} (rest : Text) (hc : c ≠ '-') :
    Token.ofText ('-' :: c :: rest) = .cluster (c :: rest) := by
  unfold Token.ofText
  split <;> simp_all

/-! ## Reading -/

namespace Reading

/-- Options are still read, and the next text is not the value of one. -/
def IsOpen (r : Reading) : Prop := r.separated = false ∧ r.isAwaiting = false

/-- What a level has given, once its last value is looked at. -/
def outcome? (r : Reading) : Option Given := r.settle.toOption.map (·.given)

/-- A reading goes on with this outcome. It may go wrong at once if it would do so in the end. -/
def Comes (result : Except EarlyExit Reading) (outcome : Option Given) : Prop :=
  match result with
  | .ok r => r.IsOpen ∧ r.outcome? = outcome
  | .error _ => outcome = none

variable {here : Level} {r : Reading}

theorem Comes.bind {result : Except EarlyExit Reading} {outcome : Option Given}
    {next : Reading → Except EarlyExit Reading} {f : Given → Option Given}
    (h : Comes result outcome) (hnext : ∀ r, r.IsOpen → Comes (next r) (r.outcome?.bind f)) :
    Comes (result >>= next) (outcome.bind f) := by
  cases result with
  | error e =>
    have hnone : outcome = none := h
    rw [hnone]
    exact rfl
  | ok r =>
    obtain ⟨hopen, rfl⟩ := h
    exact hnext r hopen

/-- The pending value is fine and nothing but the outcome is left, or it is a misuse. -/
theorem IsOpen.settle_cases (hr : r.IsOpen) :
    (∃ e, r.settle = .error e ∧ r.outcome? = none) ∨
      ∃ g, r.settle = .ok { given := g } ∧ r.outcome? = some g := by
  obtain ⟨given, pending, separated⟩ := r
  obtain ⟨hseparated, hawaiting⟩ := hr
  cases hseparated
  rcases pending with _ | ⟨slot, _ | t⟩
  · exact Or.inr ⟨given, rfl, rfl⟩
  · cases hawaiting
  · unfold outcome? settle
    dsimp only
    cases given.set slot t with
    | error e => exact Or.inl ⟨_, rfl, rfl⟩
    | ok g => exact Or.inr ⟨g, rfl, rfl⟩

/-- Most steps look at the pending value before they do anything else. -/
theorem comes_settle {next : Reading → Except EarlyExit Reading} {f : Given → Option Given}
    (hr : r.IsOpen) (hnext : ∀ g, Comes (next { given := g }) (f g)) :
    Comes (r.settle >>= next) (r.outcome?.bind f) := by
  rcases hr.settle_cases with ⟨e, hsettle, houtcome⟩ | ⟨g, hsettle, houtcome⟩
  · rw [hsettle, houtcome]
    exact rfl
  · rw [hsettle, houtcome]
    exact hnext g

theorem comes_settled {g : Given} {result : Except Misuse Given} {given : Option Given}
    (h : result.toOption = given) :
    Comes (do return { ({ given := g } : Reading) with given := ← orExit result }) given := by
  cases result with
  | error e => exact h.symm
  | ok g' => exact ⟨⟨rfl, rfl⟩, h⟩

theorem comes_assign (o : ValueOption) (t : Text) (hr : r.IsOpen) :
    Comes (r.assign o t) (r.outcome?.bind (·.enter? (.value (.option o) t))) := by
  unfold assign
  exact comes_settle hr fun g => comes_settled rfl

theorem comes_switch_flag (f : Flag) (hr : r.IsOpen) :
    Comes (r.switch (.flag f)) (r.outcome?.bind (·.enter? (.flag f))) := by
  unfold switch
  exact comes_settle hr fun g => comes_settled rfl

theorem cluster_flag {c : Char} {f : Flag} (h : (c, .flag f) ∈ OptionName.shortNames)
    (rest : Text) :
    r.cluster here (c :: rest) = r.switch (.flag f) >>= (cluster here · rest) := by
  conv => lhs; unfold cluster
  rw [OptionName.ofShort?_of_mem h rfl]

theorem comes_cluster {flags : List (Char × Flag)}
    (hletters : ∀ p ∈ flags, (p.1, .flag p.2) ∈ OptionName.shortNames) (hr : r.IsOpen) :
    Comes (r.cluster here (flags.map (·.1)))
      (r.outcome?.bind (·.enterAll? (flags.map (.flag ·.2)))) := by
  induction flags generalizing r with
  | nil => exact ⟨hr, (Option.bind_fun_some r.outcome?).symm⟩
  | cons p flags ih =>
    rw [List.forall_mem_cons] at hletters
    rw [List.map_cons, List.map_cons, cluster_flag hletters.1]
    simp only [Given.enterAll?_cons]
    rw [← Option.bind_assoc]
    exact (comes_switch_flag p.2 hr).bind fun r' hr' => ih hletters.2 hr'

theorem outcome?_pending (g : Given) (slot : Slot) (t : Text) :
    outcome? { given := g, pending := some (slot, some t) } = g.enter? (.value slot t) := by
  unfold outcome? settle Given.enter?
  dsimp only
  cases g.set slot t <;> rfl

theorem step_long {t name : Text} {value : Option Text} (hr : r.IsOpen)
    (htoken : Token.ofText t = .long name value) : r.step here t = r.long here name value := by
  unfold step
  rw [hr.1, if_neg Bool.false_ne_true, htoken]

theorem step_name {name : Text} {o : OptionName} (hname : (name, o) ∈ OptionName.longNames)
    (hallowed : OptionName.allowedAt here o = true) (hr : r.IsOpen) :
    r.step here ('-' :: '-' :: name) = r.switch o := by
  obtain ⟨hne, heq⟩ := OptionName.name_of_mem hname
  rw [step_long hr (Token.ofText_long hne heq)]
  unfold long
  rw [OptionName.ofLong?_of_mem hname hallowed]
  cases o <;> rfl

theorem step_value {name : Text} {o : ValueOption} (t : Text)
    (hname : (name, .value o) ∈ OptionName.longNames)
    (hallowed : OptionName.allowedAt here (.value o) = true) (hr : r.IsOpen) :
    r.step here ('-' :: '-' :: (name ++ '=' :: t)) = r.assign o t := by
  obtain ⟨hne, heq⟩ := OptionName.name_of_mem hname
  rw [step_long hr (Token.ofText_long_value t hne heq)]
  unfold long
  rw [OptionName.ofLong?_of_mem hname hallowed]

theorem step_letters {c : Char} (rest : Text) (hc : c ≠ '-') (hr : r.IsOpen) :
    r.step here ('-' :: c :: rest) = r.cluster here (c :: rest) := by
  unfold step
  rw [hr.1, if_neg Bool.false_ne_true, Token.ofText_letters rest hc]

theorem step_plain {t : Text} (hr : r.IsOpen) (hplain : Token.ofText t = .plain t) :
    r.step here t = r.positional here t := by
  obtain ⟨given, pending, separated⟩ := r
  obtain ⟨hseparated, hawaiting⟩ := hr
  cases hseparated
  unfold step
  rw [if_neg Bool.false_ne_true, hplain]
  rcases pending with _ | ⟨slot, _ | t'⟩
  · rfl
  · cases hawaiting
  · rfl

/-- A place that is taken already is filled in the end. -/
theorem fills_report {g : Given} (hr : r.IsOpen) (hreport : r.hasReport = true)
    (h : r.outcome? = some g) : g.fills (.value .report) = true := by
  obtain ⟨given, pending, separated⟩ := r
  obtain ⟨hseparated, hawaiting⟩ := hr
  cases hseparated
  rcases pending with _ | ⟨slot, _ | t⟩
  · cases h
    exact (Bool.or_false _).symm.trans hreport
  · cases hawaiting
  · rw [outcome?_pending] at h
    rw [Given.fills_enter? h, ← hreport]
    show (given.report.isSome || decide (GivenField.value .report = .value slot)) =
      (given.report.isSome || decide (slot = .report))
    rw [decide_eq_decide.2 ⟨fun h => (GivenField.value.inj h).symm, fun h => congrArg _ h.symm⟩]

theorem comes_report (t : Text) (hr : r.IsOpen) :
    Comes (r.positional (.command .coverage) t)
      (r.outcome?.bind (·.enter? (.value .report t))) := by
  unfold positional
  dsimp only
  cases hreport : r.hasReport with
  | true =>
    rw [if_pos rfl]
    refine Option.bind_eq_none_iff.2 fun g hg => ?_
    rw [Given.enter?_eq]
    exact if_pos (fills_report hr hreport hg)
  | false =>
    rw [if_neg Bool.false_ne_true]
    exact comes_settle hr fun g => ⟨⟨rfl, rfl⟩, outcome?_pending g .report t⟩

theorem comes_valueBehind {t : Text} (o : ValueOption) (hplain : Token.ofText t = .plain t)
    (hr : r.IsOpen) :
    Comes (r.switch (.value o) >>= (step here · t))
      (r.outcome?.bind (·.enter? (.value (.option o) t))) := by
  unfold switch
  rw [bind_assoc]
  refine comes_settle hr fun g => ?_
  show Comes (step here { given := g, pending := some (.option o, none) } t) _
  unfold step
  rw [if_neg Bool.false_ne_true, hplain]
  exact ⟨⟨rfl, rfl⟩, outcome?_pending g (.option o) t⟩

/-- What the texts of a piece lead to is what they give. -/
theorem comes_of_gives {texts : List Text} {es : List GivenEntry} (h : Gives here texts es)
    (hr : r.IsOpen) :
    Comes (texts.foldlM (step here) r) (r.outcome?.bind (·.enterAll? es)) := by
  cases h with
  | flag hname =>
    rw [List.foldlM_cons, step_name hname rfl hr]
    simp only [List.foldlM_nil, bind_pure, Given.enterAll?_singleton]
    exact comes_switch_flag _ hr
  | @letters flags hne hletters =>
    cases flags with
    | nil => exact absurd rfl hne
    | cons p rest =>
      have hp := OptionName.letter_of_mem (hletters p List.mem_cons_self)
      rw [List.foldlM_cons, List.map_cons, step_letters _ hp hr]
      simp only [List.foldlM_nil, bind_pure]
      exact comes_cluster hletters hr
  | value hname hlevel =>
    rw [List.foldlM_cons, step_value _ hname (OptionName.allowedAt_value hlevel) hr]
    simp only [List.foldlM_nil, bind_pure, Given.enterAll?_singleton]
    exact comes_assign _ _ hr
  | valueBehind hname hlevel hplain =>
    rw [List.foldlM_cons, step_name hname (OptionName.allowedAt_value hlevel) hr]
    simp only [List.foldlM_cons, List.foldlM_nil, bind_pure, Given.enterAll?_singleton]
    exact comes_valueBehind _ hplain hr
  | report hlevel hplain =>
    subst hlevel
    rw [List.foldlM_cons, step_plain hr hplain]
    simp only [List.foldlM_nil, bind_pure, Given.enterAll?_singleton]
    exact comes_report _ hr

theorem isOpen_start : IsOpen {} := ⟨rfl, rfl⟩

/-- What the texts of some pieces lead to is what they give together. -/
theorem comes_pieces (ps : List (Piece here)) (hr : r.IsOpen) :
    Comes ((ps.flatMap (·.texts)).foldlM (step here) r)
      (r.outcome?.bind (·.enterAll? (ps.flatMap (·.entries)))) := by
  induction ps generalizing r with
  | nil => exact ⟨hr, (Option.bind_fun_some r.outcome?).symm⟩
  | cons p ps ih =>
    simp only [List.flatMap_cons, List.foldlM_append, Given.enterAll?_append]
    rw [← Option.bind_assoc]
    exact (comes_of_gives p.gives hr).bind fun r' hr' => ih hr'

theorem level_cons {t : Text} (rest : List Text) (h : r.keyword? here t = none) :
    level here r (t :: rest) = r.step here t >>= (level here · rest) := by
  conv => lhs; unfold level
  rw [h]

theorem keyword?_dash (rest : Text) : r.keyword? here ('-' :: rest) = none := by
  unfold keyword?
  rw [Keyword.ofText?_dash, ite_self]

/-- No piece ends a level. -/
theorem level_of_gives {texts : List Text} {es : List GivenEntry} (h : Gives here texts es)
    (hr : r.IsOpen) (rest : List Text) :
    level here r (texts ++ rest) = texts.foldlM (step here) r >>= (level here · rest) := by
  cases h with
  | flag hname =>
    simp only [List.cons_append, List.nil_append, List.foldlM_cons, List.foldlM_nil, bind_pure]
    exact level_cons rest (keyword?_dash _)
  | letters hne hletters =>
    simp only [List.cons_append, List.nil_append, List.foldlM_cons, List.foldlM_nil, bind_pure]
    exact level_cons rest (keyword?_dash _)
  | value hname hlevel =>
    simp only [List.cons_append, List.nil_append, List.foldlM_cons, List.foldlM_nil, bind_pure]
    exact level_cons rest (keyword?_dash _)
  | @valueBehind name t o hname hlevel hplain =>
    simp only [List.cons_append, List.nil_append, List.foldlM_cons, List.foldlM_nil, bind_pure]
    rw [level_cons _ (keyword?_dash _), step_name hname (OptionName.allowedAt_value hlevel) hr,
      bind_assoc]
    unfold switch
    rcases hr.settle_cases with ⟨e, hsettle, -⟩ | ⟨g, hsettle, -⟩
    · rw [hsettle]
      rfl
    · rw [hsettle]
      -- the text behind the name is a value, whatever it looks like
      have hawaiting : keyword? here { given := g, pending := some (.option o, none) } t = none :=
        if_neg fun hopen => Bool.noConfusion hopen.2.2
      exact level_cons rest hawaiting
  | @report t hlevel hplain =>
    simp only [List.cons_append, List.nil_append, List.foldlM_cons, List.foldlM_nil, bind_pure]
    subst hlevel
    exact level_cons rest (if_neg fun hopen => nomatch hopen.1)

theorem level_pieces (ps : List (Piece here)) (hr : r.IsOpen) (rest : List Text) :
    level here r (ps.flatMap (·.texts) ++ rest) =
      (ps.flatMap (·.texts)).foldlM (step here) r >>= (level here · rest) := by
  induction ps generalizing r with
  | nil => rfl
  | cons p ps ih =>
    rw [List.flatMap_cons, List.append_assoc, level_of_gives p.gives hr, List.foldlM_append,
      bind_assoc]
    have hcomes := comes_of_gives p.gives hr
    cases hresult : p.texts.foldlM (step here) r with
    | error e => rfl
    | ok r' =>
      rw [hresult] at hcomes
      exact ih hcomes.1

theorem level_command (hr : r.IsOpen) (name : CommandName) (rest : List Text) :
    level .program r (name.text :: rest) = .ok (r, some (name, rest)) := by
  have hkeyword : r.keyword? .program name.text = some (.command name) := by
    unfold keyword?
    rw [if_pos ⟨rfl, hr⟩, Keyword.ofText?_text]
  unfold level
  rw [hkeyword]

theorem close_eq_ok_iff {configVariable : Option Text} {g : Given} (hr : r.IsOpen) :
    r.close configVariable = .ok g ↔
      r.outcome? = some g ∧ ¬ (g.config = none ∧ configVariable = some []) := by
  unfold close
  rcases hr.settle_cases with ⟨e, hsettle, houtcome⟩ | ⟨g', hsettle, houtcome⟩
  · rw [hsettle, houtcome]
    exact iff_of_false nofun nofun
  · rw [hsettle, houtcome]
    show (if g'.config = none ∧ configVariable = some [] then Except.error _ else .ok g') =
      .ok g ↔ _
    split
    next h =>
      refine iff_of_false nofun ?_
      rintro ⟨heq, hnot⟩
      cases heq
      exact hnot h
    next h =>
      constructor
      · intro heq
        cases heq
        exact ⟨rfl, h⟩
      · rintro ⟨heq, -⟩
        cases heq
        rfl

/-- A level closes with its outcome, unless the variable is empty and needed. -/
theorem Comes.close_iff {result : Except EarlyExit Reading} {outcome : Option Given}
    {configVariable : Option Text} {g : Given} (h : Comes result outcome) :
    (∃ r, result = .ok r ∧ r.close configVariable = .ok g) ↔
      outcome = some g ∧ ¬ (g.config = none ∧ configVariable = some []) := by
  cases result with
  | error e =>
    have hnone : outcome = none := h
    rw [hnone]
    exact iff_of_false (fun ⟨_, hr, _⟩ => nomatch hr) fun hsome => nomatch hsome.1
  | ok r =>
    obtain ⟨hopen, rfl⟩ := h
    rw [← close_eq_ok_iff hopen]
    constructor
    · rintro ⟨r', hr, hclose⟩
      cases hr
      exact hclose
    · exact fun hclose => ⟨r, rfl, hclose⟩

end Reading

end SourceAudit
