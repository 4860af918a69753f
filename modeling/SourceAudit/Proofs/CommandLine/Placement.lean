import SourceAudit.Proofs.CommandLine.Reading

/-!
# Options before and behind the command

An option that belongs to every level means the same before the command and behind it. Each of the
two levels gives what its entries give, and what the outer one gives is laid under that of the inner
one. As no option is given twice, neither hides anything of the other, and all entries might as well
stand on one level, in any order.

    same command, same own arguments, options permuted → the same arguments
                                                                  (option_placement_irrelevant)
-/

namespace SourceAudit

/-! ## The rule -/

/-- Does every level have a place for this? -/
def GivenField.isGlobal : GivenField → Bool
  | .value (.option .coverage) => false
  | .value .report => false
  | _ => true

/-- A command line with its options in front of the command and behind it. -/
structure Placement where
  command : CommandName
  before : List (Piece .program)
  behind : List (Piece (.command command))

namespace Placement

def texts (p : Placement) : List Text :=
  p.before.flatMap (·.texts) ++ p.command.text :: p.behind.flatMap (·.texts)

def outer (p : Placement) : List GivenEntry := p.before.flatMap (·.entries)

def inner (p : Placement) : List GivenEntry := p.behind.flatMap (·.entries)

def options (p : Placement) : List GivenEntry :=
  (p.outer ++ p.inner).filter (·.field.isGlobal)

/-- The arguments that only the command has. -/
def own (p : Placement) : List GivenEntry :=
  (p.outer ++ p.inner).filter (!·.field.isGlobal)

/-- The same options, placed and spelled in any way, of the same command with the same own
arguments. -/
structure Rearranges (q p : Placement) : Prop where
  command : q.command = p.command
  options : q.options.Perm p.options
  own : q.own = p.own

end Placement

/-! ## Two levels -/

theorem bind_eq_ok_iff {ε α β : Type} {x : Except ε α} {f : α → Except ε β} {b : β} :
    x >>= f = .ok b ↔ ∃ a, x = .ok a ∧ f a = .ok b := by
  cases x with
  | error e => exact iff_of_false nofun fun ⟨_, h, _⟩ => nomatch h
  | ok a =>
    constructor
    · exact fun h => ⟨a, rfl, h⟩
    · rintro ⟨a', h, hf⟩
      cases h
      exact hf

/-- Only the entries of the command decide on its own arguments. -/
theorem Command.ofGiven_orElse (name : CommandName) {inner outer : Given}
    (hcoverage : outer.fills (.value (.option .coverage)) = false)
    (hreport : outer.fills (.value .report) = false) :
    Command.ofGiven name (inner.orElse outer) = Command.ofGiven name inner := by
  have hcoverage' : outer.coverage = none :=
    Option.isNone_iff_eq_none.1 (Option.isSome_eq_false_iff.1 hcoverage)
  have hreport' : outer.report = none :=
    Option.isNone_iff_eq_none.1 (Option.isSome_eq_false_iff.1 hreport)
  unfold Command.ofGiven Given.orElse
  rw [hcoverage', hreport', Option.or_none, Option.or_none]

theorem Given.config_eq_none {g : Given} (h : g.fills (.value (.option .config)) = false) :
    g.config = none :=
  Option.isNone_iff_eq_none.1 (Option.isSome_eq_false_iff.1 h)

theorem Gives.isGlobal {texts : List Text} {es : List GivenEntry} (h : Gives .program texts es) :
    ∀ e ∈ es, e.field.isGlobal = true := by
  have hslot : ∀ {o : ValueOption}, (o = .coverage → Level.program = .command .check) →
      (GivenField.value (.option o)).isGlobal = true := by
    intro o ho
    cases o with
    | coverage => cases ho rfl
    | _ => rfl
  cases h with
  | flag hname => simp [GivenEntry.field, GivenField.isGlobal]
  | letters hne hletters =>
    intro e he
    obtain ⟨p, -, rfl⟩ := List.mem_map.1 he
    rfl
  | value hname hlevel => simpa [GivenEntry.field] using hslot hlevel
  | valueBehind hname hlevel hplain => simpa [GivenEntry.field] using hslot hlevel
  | report hlevel hplain => cases hlevel

namespace Placement

variable {p q : Placement} {configVariable : Option Text}

theorem isGlobal_of_mem_outer {e : GivenEntry} (h : e ∈ p.outer) : e.field.isGlobal = true := by
  obtain ⟨piece, -, he⟩ := List.mem_flatMap.1 h
  exact piece.gives.isGlobal e he

/-- Nothing is given on both levels if no option is given twice. -/
theorem outer_apart_inner (honce : (p.options.map GivenEntry.field).Nodup) :
    ∀ d ∈ p.outer, ∀ e ∈ p.inner, d.field ≠ e.field := by
  intro d hd e he heq
  have hglobal : d.field.isGlobal = true := isGlobal_of_mem_outer hd
  rw [options, List.filter_append, List.map_append, List.nodup_append] at honce
  refine honce.2.2 d.field ?_ e.field ?_ heq
  · exact List.mem_map_of_mem (List.mem_filter.2 ⟨hd, hglobal⟩)
  · exact List.mem_map_of_mem (List.mem_filter.2 ⟨he, heq ▸ hglobal⟩)

theorem not_fills_outer {g : Given} {field : GivenField}
    (h : Given.enterAll? {} p.outer = some g) (hfield : field.isGlobal = false) :
    g.fills field = false := by
  rw [Given.fills_enterAll? h, Given.fills_empty, Bool.false_or, decide_eq_false_iff_not,
    List.mem_map]
  rintro ⟨e, he, rfl⟩
  rw [isGlobal_of_mem_outer he] at hfield
  cases hfield

theorem not_fills_both {outer inner : Given}
    (hapart : ∀ d ∈ p.outer, ∀ e ∈ p.inner, d.field ≠ e.field)
    (houter : Given.enterAll? {} p.outer = some outer)
    (hinner : Given.enterAll? {} p.inner = some inner) (field : GivenField) :
    outer.fills field = false ∨ inner.fills field = false := by
  rw [Given.fills_enterAll? houter, Given.fills_enterAll? hinner, Given.fills_empty, Bool.false_or,
    Bool.false_or, decide_eq_false_iff_not, decide_eq_false_iff_not, ← not_and_or, List.mem_map,
    List.mem_map]
  rintro ⟨⟨d, hd, rfl⟩, e, he, heq⟩
  exact hapart d hd e he heq.symm

theorem Rearranges.perm (h : q.Rearranges p) :
    (q.outer ++ q.inner).Perm (p.outer ++ p.inner) := by
  have hsplit : ∀ p : Placement, (p.options ++ p.own).Perm (p.outer ++ p.inner) :=
    fun p => List.filter_append_perm _ _
  refine (hsplit q).symm.trans (List.Perm.trans ?_ (hsplit p))
  rw [h.own]
  exact h.options.append_right _

theorem ofTexts_texts (p : Placement) (configVariable : Option Text) :
    Arguments.ofTexts configVariable p.texts = (do
      let outer ← (p.before.flatMap (·.texts)).foldlM (Reading.step .program) {}
      let inner ← (p.behind.flatMap (·.texts)).foldlM (Reading.step (.command p.command)) {}
      let inner ← inner.close configVariable
      let command ← Command.ofGiven p.command inner
      let outer ← outer.close configVariable
      return Arguments.ofGiven (some command) configVariable (inner.orElse outer)) := by
  have hend := Reading.level_pieces p.behind Reading.isOpen_start []
  rw [List.append_nil] at hend
  have hcomes := Reading.comes_pieces p.before Reading.isOpen_start
  unfold Arguments.ofTexts texts
  rw [Reading.level_pieces p.before Reading.isOpen_start]
  cases hresult : (p.before.flatMap (·.texts)).foldlM (Reading.step .program) {} with
  | error e => rfl
  | ok outer =>
    rw [hresult] at hcomes
    have hlevel : (Except.ok outer >>= (Reading.level .program ·
        (p.command.text :: p.behind.flatMap Piece.texts))) =
        .ok (outer, some (p.command, p.behind.flatMap Piece.texts)) :=
      Reading.level_command hcomes.1 p.command _
    rw [hlevel]
    show (Reading.level (.command p.command) {} (p.behind.flatMap Piece.texts) >>= _) = _
    rw [hend, bind_assoc]
    rfl

/-- Each level is understood by itself, and the variable is looked at on both. -/
theorem ofTexts_eq_ok_iff_levels {a : Arguments} :
    Arguments.ofTexts configVariable p.texts = .ok a ↔
      ∃ outer inner c, Given.enterAll? {} p.outer = some outer ∧
        Given.enterAll? {} p.inner = some inner ∧
        ¬ (inner.config = none ∧ configVariable = some []) ∧
        Command.ofGiven p.command inner = .ok c ∧
        ¬ (outer.config = none ∧ configVariable = some []) ∧
        Arguments.ofGiven (some c) configVariable (inner.orElse outer) = a := by
  have hbefore : Reading.Comes ((p.before.flatMap (·.texts)).foldlM (Reading.step .program) {})
      (Given.enterAll? {} p.outer) := Reading.comes_pieces p.before Reading.isOpen_start
  have hbehind : Reading.Comes
      ((p.behind.flatMap (·.texts)).foldlM (Reading.step (.command p.command)) {})
      (Given.enterAll? {} p.inner) := Reading.comes_pieces p.behind Reading.isOpen_start
  rw [ofTexts_texts]
  simp only [bind_eq_ok_iff]
  constructor
  · rintro ⟨before, hb, behind, hi, inner, hinner, c, hc, outer, houter, heq⟩
    obtain ⟨houter, houterFile⟩ := hbefore.close_iff.1 ⟨before, hb, houter⟩
    obtain ⟨hinner, hinnerFile⟩ := hbehind.close_iff.1 ⟨behind, hi, hinner⟩
    exact ⟨outer, inner, c, houter, hinner, hinnerFile, hc, houterFile, Except.ok.inj heq⟩
  · rintro ⟨outer, inner, c, houter, hinner, hinnerFile, hc, houterFile, heq⟩
    obtain ⟨before, hb, houter⟩ := hbefore.close_iff.2 ⟨houter, houterFile⟩
    obtain ⟨behind, hi, hinner⟩ := hbehind.close_iff.2 ⟨hinner, hinnerFile⟩
    exact ⟨before, hb, behind, hi, inner, hinner, c, hc, outer, houter, congrArg Except.ok heq⟩

/-- A command line is understood just if all its entries are fine together, and then it asks for
what they give. An empty variable is a misuse for the level that does not name the settings file. -/
theorem ofTexts_eq_ok_iff (honce : (p.options.map GivenEntry.field).Nodup) {a : Arguments} :
    Arguments.ofTexts configVariable p.texts = .ok a ↔
      configVariable ≠ some [] ∧
        ∃ g c, Given.enterAll? {} (p.outer ++ p.inner) = some g ∧
          Command.ofGiven p.command g = .ok c ∧
          Arguments.ofGiven (some c) configVariable g = a := by
  have hapart := outer_apart_inner honce
  rw [ofTexts_eq_ok_iff_levels, Given.enterAll?_levels hapart]
  constructor
  · rintro ⟨outer, inner, c, houter, hinner, hinnerFile, hc, houterFile, rfl⟩
    refine ⟨fun hempty => ?_, inner.orElse outer, c, ?_, ?_, rfl⟩
    · have hfile : outer.fills (.value (.option .config)) = false ∨
          inner.fills (.value (.option .config)) = false := not_fills_both hapart houter hinner _
      rcases hfile with hfile | hfile
      · exact houterFile ⟨Given.config_eq_none hfile, hempty⟩
      · exact hinnerFile ⟨Given.config_eq_none hfile, hempty⟩
    · rw [houter, hinner]
      rfl
    · rw [Command.ofGiven_orElse p.command (not_fills_outer houter rfl)
        (not_fills_outer houter rfl)]
      exact hc
  · rintro ⟨hempty, g, c, hg, hc, rfl⟩
    obtain ⟨outer, houter, hg⟩ := Option.bind_eq_some_iff.1 hg
    obtain ⟨inner, hinner, rfl⟩ := Option.map_eq_some_iff.1 hg
    rw [Command.ofGiven_orElse p.command (not_fills_outer houter rfl)
      (not_fills_outer houter rfl)] at hc
    exact ⟨outer, inner, c, houter, hinner, fun h => hempty h.2, hc, fun h => hempty h.2, rfl⟩

end Placement

/-! ## Top theorem -/

/-- Where the options of a command line stand makes no difference: if one placement is understood,
any other is and asks for the same. The settings file is the one that an option names, and without
one that of the variable. -/
theorem option_placement_irrelevant (p q : Placement) (configVariable : Option Text) (a : Arguments)
    (honce : (p.options.map GivenEntry.field).Nodup) (hq : q.Rearranges p)
    (h : Arguments.ofTexts configVariable p.texts = .ok a) :
    Arguments.ofTexts configVariable q.texts = .ok a ∧
      (∀ t, .value (.option .config) t ∈ p.options → a.config = some t) ∧
      ((∀ t, .value (.option .config) t ∉ p.options) → a.config = configVariable) := by
  have honce' : (q.options.map GivenEntry.field).Nodup := (hq.options.map _).nodup_iff.2 honce
  obtain ⟨hempty, g, c, hg, hc, heq⟩ := (Placement.ofTexts_eq_ok_iff honce).1 h
  refine ⟨(Placement.ofTexts_eq_ok_iff honce').2 ⟨hempty, g, c, ?_, ?_, heq⟩, fun t ht => ?_,
    fun hnone => ?_⟩
  · rw [Given.enterAll?_perm hq.perm]
    exact hg
  · rw [hq.command]
    exact hc
  · have hmem : .value (.option .config) t ∈ p.outer ++ p.inner := (List.mem_filter.1 ht).1
    rw [← heq]
    exact congrArg (Option.or · configVariable) (Given.config_enterAll? hg hmem)
  · have hfile : g.fills (.value (.option .config)) = false := by
      rw [Given.fills_enterAll? hg, Given.fills_empty, Bool.false_or, decide_eq_false_iff_not,
        List.mem_map]
      rintro ⟨e, he, hfield⟩
      cases e with
      | flag f => cases hfield
      | report t => cases hfield
      | option o t =>
        cases hfield
        exact hnone t (List.mem_filter.2 ⟨he, rfl⟩)
    rw [← heq]
    show g.config.or configVariable = configVariable
    rw [Given.config_eq_none hfile, Option.none_or]

/-! Options in front of the command, and most of them moved behind it. -/

def optionsInFront : Placement where
  command := .coverage
  before := [⟨_, _, @Gives.value _ "config" "a.toml" .config (by decide) nofun⟩,
    ⟨_, _, @Gives.letters _ [('q', .quiet), ('v', .verbose)] (by decide) (by decide)⟩]
  behind := [⟨_, _, @Gives.report _ "rows" rfl rfl⟩,
    ⟨_, _, @Gives.value _ "jobs" "4" .jobs (by decide) nofun⟩]

def optionsBehind : Placement where
  command := .coverage
  before := [⟨_, _, @Gives.value _ "jobs" "4" .jobs (by decide) nofun⟩]
  behind := [⟨_, _, @Gives.flag _ "verbose" .verbose (by decide)⟩,
    ⟨_, _, @Gives.report _ "rows" rfl rfl⟩,
    ⟨_, _, @Gives.valueBehind _ "config" "a.toml" .config (by decide) nofun rfl⟩,
    ⟨_, _, @Gives.flag _ "quiet" .quiet (by decide)⟩]

def gatheredArguments : Arguments where
  command := some (.coverage "rows")
  directory := "."
  config := some "a.toml"
  format := .text
  quiet := true
  verbose := true
  noColor := false
  parallel := false
  jobs := some 4
  failFast := false
  mode := none
  lineThreshold := none
  functionThreshold := none

theorem option_placement_irrelevant_coverage :
    optionsInFront.texts =
        (["--config=a.toml", "-qv", "coverage", "rows", "--jobs=4"] : List Text) ∧
      optionsBehind.texts =
        (["--jobs=4", "coverage", "--verbose", "rows", "--config", "a.toml", "--quiet"] :
          List Text) ∧
      optionsBehind.Rearranges optionsInFront ∧
      Arguments.ofTexts (some ("b.toml" : Text)) optionsInFront.texts = .ok gatheredArguments ∧
      Arguments.ofTexts (some ("b.toml" : Text)) optionsBehind.texts = .ok gatheredArguments ∧
      gatheredArguments.config = some ("a.toml" : Text) := by
  have honce : (optionsInFront.options.map GivenEntry.field).Nodup := by decide +kernel
  have hsame : optionsBehind.Rearranges optionsInFront :=
    ⟨rfl, by decide +kernel, by decide +kernel⟩
  have hfront : Arguments.ofTexts (some ("b.toml" : Text)) optionsInFront.texts =
      .ok gatheredArguments := by decide +kernel
  obtain ⟨hbehind, hfile, -⟩ := option_placement_irrelevant optionsInFront optionsBehind
    (some ("b.toml" : Text)) gatheredArguments honce hsame hfront
  exact ⟨by decide +kernel, by decide +kernel, hsame, hfront, hbehind,
    hfile "a.toml" (by decide +kernel)⟩

end SourceAudit
