import Mathlib.Data.List.Nodup
import SourceAudit.Proofs.Settings.Fields
import SourceAudit.Proofs.Settings.Validation
import SourceAudit.Proofs.Toml.Keys

/-!
# Settings of a document

A document with tables for its sections is decoded when every key in it is known and every value has
the type of its field. Then each of the fourteen settings is what the document gives for its key, or
its default, so that the order of sections and keys does not matter. A text gives the settings of
its document if they are valid, and otherwise their first fault; what cannot be decoded is malformed
and is not validated.

    (∃ s, ofTable? document = some s) ↔ Accepted document                  (exists_ofTable?_iff)
    ofTable? document = some s ↔ Accepted document ∧ TakenFrom (Given document) s
                                                                       (ofTable?_eq_some_iff)
    Reordered document other → ofTable? other = ofTable? document
                                                                  (ofTable?_eq_of_reordered)
-/

namespace SourceAudit.Settings

open Toml

/-! ## The rule -/

/-- The types that a setting can have. -/
inductive Shape
  | text
  | boolean
  | texts
  | index
  | threshold
  | mode
deriving DecidableEq

def Shape.Fits : Shape → Value → Prop
  | .text, value => ∃ t, IsText value t
  | .boolean, value => ∃ b, IsBoolean value b
  | .texts, value => ∃ ts, IsTexts value ts
  | .index, value => ∃ n, IsIndex value n
  | .threshold, value => ∃ x, IsThreshold value x
  | .mode, value => ∃ mode, IsMode value mode

def copyrightShapes : List (Text × Shape) := [
  ("roots", .texts),
  ("extensions", .texts),
  ("header", .text),
  ("copyright_line", .index),
  ("prefix", .text),
  ("require_year", .boolean)]

def guardShapes : List (Text × Shape) := [
  ("roots", .texts),
  ("extensions", .texts),
  ("prefix", .text)]

def coverageShapes : List (Text × Shape) := [
  ("lines", .threshold),
  ("functions", .threshold),
  ("mode", .mode),
  ("lines_row", .index),
  ("functions_row", .index)]

/-- The keys of every section, and the types of their values. -/
def sectionShapes : List (Text × List (Text × Shape)) := [
  ("copyright", copyrightShapes),
  ("guards", guardShapes),
  ("coverage", coverageShapes)]

/-- A table with known keys only, each with a value of its type. -/
def FitsSection (shapes : List (Text × Shape)) (value : Value) : Prop :=
  ∃ entries, value = .table entries ∧
    ∀ entry ∈ entries, ∃ shape, shapes.lookup entry.1 = some shape ∧ shape.Fits entry.2

def Accepted (document : Table) : Prop :=
  ∀ entry ∈ document, ∃ shapes, sectionShapes.lookup entry.1 = some shapes ∧
    FitsSection shapes entry.2

/-- No section is written as an array of its values. -/
def HasNoListSections (document : Table) : Prop :=
  ∀ entry ∈ document, entry.1 ∈ sectionShapes.map Prod.fst → ∀ items, entry.2 ≠ .array items

/-- The document has a value at the key of a section. -/
def Given (document : Table) (name key : Text) (value : Value) : Prop :=
  ∃ entries, (name, .table entries) ∈ document ∧ (key, value) ∈ entries

/-- The value of a key, if a table gives one, or else a default. -/
inductive Taken {α : Type} (given : Value → Prop) (stands : Value → α → Prop) (default a : α) : Prop
  | value {value : Value} (hgiven : given value) (h : stands value a)
  | default (hnone : ∀ value, ¬ given value) (h : a = default)

/-- Every setting is what is given for its key, or its default. -/
structure TakenFrom (given : Text → Text → Value → Prop) (s : Settings) : Prop where
  roots : Taken (given "copyright" "roots") IsTexts default.copyright.roots s.copyright.roots
  extensions : Taken (given "copyright" "extensions") IsTexts default.copyright.extensions
    s.copyright.extensions
  header : Taken (given "copyright" "header") IsText default.copyright.header s.copyright.header
  copyrightLine : Taken (given "copyright" "copyright_line") IsIndex default.copyright.copyrightLine
    s.copyright.copyrightLine
  lead : Taken (given "copyright" "prefix") IsText default.copyright.lead s.copyright.lead
  requireYear : Taken (given "copyright" "require_year") IsBoolean default.copyright.requireYear
    s.copyright.requireYear
  guardRoots : Taken (given "guards" "roots") IsTexts default.guards.roots s.guards.roots
  guardExtensions : Taken (given "guards" "extensions") IsTexts default.guards.extensions
    s.guards.extensions
  guardLead : Taken (given "guards" "prefix") IsText default.guards.lead s.guards.lead
  lines : Taken (given "coverage" "lines") IsThreshold default.coverage.lines s.coverage.lines
  functions : Taken (given "coverage" "functions") IsThreshold default.coverage.functions
    s.coverage.functions
  mode : Taken (given "coverage" "mode") IsMode default.coverage.mode s.coverage.mode
  linesRow : Taken (given "coverage" "lines_row") IsIndex default.coverage.linesRow
    s.coverage.linesRow
  functionsRow : Taken (given "coverage" "functions_row") IsIndex default.coverage.functionsRow
    s.coverage.functionsRow

/-- The same value, or a table with its entries in another order. -/
def SameValue (value other : Value) : Prop :=
  value = other ∨ ∃ entries entries', value = .table entries ∧ other = .table entries' ∧
    entries.Perm entries'

/-- The entries of each section in some order, and then the sections in some order. -/
def Reordered (document other : Table) : Prop :=
  ∃ middle : Table, List.Forall₂ (fun entry entry' => entry.1 = entry'.1 ∧
    SameValue entry.2 entry'.2) document middle ∧ middle.Perm other

/-! ## Which documents are accepted -/

theorem agrees_copyrightFields (entry : Text × Value) :
    List.Forall₂ (Field.Agrees Shape.Fits entry) copyrightFields copyrightShapes :=
  .cons (Field.agrees_of reads_decodeTexts fun _ => Iff.rfl) <|
  .cons (Field.agrees_of reads_decodeTexts fun _ => Iff.rfl) <|
  .cons (Field.agrees_of reads_decodeText fun _ => Iff.rfl) <|
  .cons (Field.agrees_of reads_decodeIndex fun _ => Iff.rfl) <|
  .cons (Field.agrees_of reads_decodeText fun _ => Iff.rfl) <|
  .cons (Field.agrees_of reads_decodeBoolean fun _ => Iff.rfl) .nil

theorem agrees_guardFields (entry : Text × Value) :
    List.Forall₂ (Field.Agrees Shape.Fits entry) guardFields guardShapes :=
  .cons (Field.agrees_of reads_decodeTexts fun _ => Iff.rfl) <|
  .cons (Field.agrees_of reads_decodeTexts fun _ => Iff.rfl) <|
  .cons (Field.agrees_of reads_decodeText fun _ => Iff.rfl) .nil

theorem agrees_coverageFields (entry : Text × Value) :
    List.Forall₂ (Field.Agrees Shape.Fits entry) coverageFields coverageShapes :=
  .cons (Field.agrees_of reads_decodeThreshold fun _ => Iff.rfl) <|
  .cons (Field.agrees_of reads_decodeThreshold fun _ => Iff.rfl) <|
  .cons (Field.agrees_of reads_decodeMode fun _ => Iff.rfl) <|
  .cons (Field.agrees_of reads_decodeIndex fun _ => Iff.rfl) <|
  .cons (Field.agrees_of reads_decodeIndex fun _ => Iff.rfl) .nil

/-- A section that is no array is decoded iff it is a table of fitting entries. -/
theorem fitsSection_iff {σ : Type} {fields : List (Field σ)} {shapes : List (Text × Shape)}
    (hagrees : ∀ entry, List.Forall₂ (Field.Agrees Shape.Fits entry) fields shapes) {value : Value}
    (hlist : ∀ items, value ≠ .array items) (s : σ) :
    FitsSection shapes value ↔ ∃ s', decodeRecord fields s value = some s' := by
  unfold FitsSection
  cases value with
  | table entries =>
    have hentries : (∃ s', decodeTable fields entries s = some s') ↔ ∀ entry ∈ entries, ∃ shape,
        shapes.lookup entry.1 = some shape ∧ shape.Fits entry.2 :=
      exists_decodeTable_iff (fun entry _ => exists_setKey?_iff (hagrees entry)) s
    simpa [decodeRecord] using hentries.symm
  | array items => exact absurd rfl (hlist items)
  | _ => exact iff_of_false nofun nofun

theorem agrees_sections {entry : Text × Value}
    (h : entry.1 ∈ sectionShapes.map Prod.fst → ∀ items, entry.2 ≠ .array items) :
    List.Forall₂ (Field.Agrees FitsSection entry) sections sectionShapes := by
  have hreads : ∀ {σ : Type} (decode : Decoder σ),
      decode.Reads fun value s => decode value = some s := fun _ _ _ => Iff.rfl
  refine .cons ?_ (.cons ?_ (.cons ?_ .nil))
  · exact Field.agrees_of (hreads _) fun hkey =>
      fitsSection_iff agrees_copyrightFields (h (hkey ▸ by decide)) _
  · exact Field.agrees_of (hreads _) fun hkey =>
      fitsSection_iff agrees_guardFields (h (hkey ▸ by decide)) _
  · exact Field.agrees_of (hreads _) fun hkey =>
      fitsSection_iff agrees_coverageFields (h (hkey ▸ by decide)) _

theorem exists_ofTable?_iff {document : Table} (h : HasNoListSections document) :
    (∃ s, ofTable? document = some s) ↔ Accepted document :=
  exists_decodeTable_iff
    (fun entry hentry => exists_setKey?_iff (agrees_sections (h entry hentry))) .default

/-! ## What the settings are -/

theorem Taken.unique {α : Type} {decode : Decoder α} {stands : Value → α → Prop}
    {given : Value → Prop} {start a b : α} (hreads : decode.Reads stands)
    (hgiven : ∀ value value', given value → given value' → value = value')
    (ha : Taken given stands start a) (hb : Taken given stands start b) : a = b := by
  cases ha with
  | value hvalue hstands =>
    cases hb with
    | value hvalue' hstands' =>
      obtain rfl := hgiven _ _ hvalue hvalue'
      have heq := ((hreads _ a).2 hstands).symm.trans ((hreads _ b).2 hstands')
      exact Option.some.inj heq
    | default hnone => exact absurd hvalue (hnone _)
  | default hnone heq =>
    cases hb with
    | value hvalue' => exact absurd hvalue' (hnone _)
    | default _ heq' => exact heq.trans heq'.symm

theorem eq_of_mem_of_mem {β : Type} {entries : List (Text × β)}
    (hnodup : (entries.map Prod.fst).Nodup) {key : Text} {value value' : β}
    (h : (key, value) ∈ entries) (h' : (key, value') ∈ entries) : value = value' :=
  congrArg Prod.snd (List.inj_on_of_nodup_map hnodup h h' rfl)

section Documents

variable {document other : Table} {s s' : Settings}

/-- A document gives one value for a key. -/
theorem given_unique (h : Table.IsKeyed document) {name key : Text} (value value' : Value)
    (hvalue : Given document name key value) (hvalue' : Given document name key value') :
    value = value' := by
  obtain ⟨entries, hentries, hmem⟩ := hvalue
  obtain ⟨entries', hentries', hmem'⟩ := hvalue'
  cases eq_of_mem_of_mem h.nodup hentries hentries'
  cases h.each _ hentries with
  | table nodup => exact eq_of_mem_of_mem nodup hmem hmem'

/-- A slot of a section is filled from the document through the slot of the section. -/
theorem taken_of_slots {ρ α : Type} {name key : Text} {part : Settings → ρ} {start : ρ}
    {fields : List (Field ρ)} {decode : Decoder α} {get : ρ → α} {stands : Value → α → Prop}
    (hsection : IsSlot sections name (decodeRecord fields start) part)
    (hstart : part .default = start) (hslot : IsSlot fields key decode get)
    (hreads : decode.Reads stands) (hname : name ∈ sectionShapes.map Prod.fst)
    (hkeyed : Table.IsKeyed document) (hlists : HasNoListSections document)
    (h : ofTable? document = some s) :
    Taken (Given document name key) stands (get (part .default)) (get (part s)) := by
  by_cases hmem : name ∈ document.map Prod.fst
  · obtain ⟨⟨_, value⟩, hvalue, rfl⟩ := List.mem_map.1 hmem
    have hdecode := hsection.eq_of_mem hkeyed.nodup hvalue h
    cases value with
    | table entries =>
      have hnodup : (entries.map Prod.fst).Nodup := by
        cases hkeyed.each _ hvalue with
        | table nodup => exact nodup
      by_cases hkey : key ∈ entries.map Prod.fst
      · obtain ⟨⟨_, v⟩, hv, rfl⟩ := List.mem_map.1 hkey
        exact .value ⟨entries, hvalue, hv⟩ ((hreads v _).1 (hslot.eq_of_mem hnodup hv hdecode))
      · refine .default ?_ ((hslot.eq_of_not_mem hkey hdecode).trans (congrArg get hstart.symm))
        rintro v ⟨entries', hentries', hv⟩
        cases eq_of_mem_of_mem hkeyed.nodup hvalue hentries'
        exact hkey (List.mem_map_of_mem hv)
    | array items => exact absurd rfl (hlists _ hvalue hname items)
    | _ => cases hdecode
  · refine .default ?_ (congrArg get (hsection.eq_of_not_mem hmem h))
    rintro v ⟨entries, hentries, -⟩
    exact hmem (List.mem_map_of_mem hentries)

theorem takenFrom_of_ofTable? (hkeyed : Table.IsKeyed document)
    (hlists : HasNoListSections document) (h : ofTable? document = some s) :
    TakenFrom (Given document) s := by
  obtain ⟨hcopyright, hguards, hcoverage⟩ := section_slots
  obtain ⟨hroots, hextensions, hheader, hline, hlead, hyear⟩ := copyright_slots
  obtain ⟨hguardRoots, hguardExtensions, hguardLead⟩ := guard_slots
  obtain ⟨hlines, hfunctions, hmode, hlinesRow, hfunctionsRow⟩ := coverage_slots
  have copyright {α : Type} {key : Text} {decode : Decoder α} {get : CopyrightSettings → α}
      {stands : Value → α → Prop} (hslot : IsSlot copyrightFields key decode get)
      (hreads : decode.Reads stands) :
      Taken (Given document "copyright" key) stands (get default.copyright) (get s.copyright) :=
    taken_of_slots hcopyright rfl hslot hreads (by decide) hkeyed hlists h
  have guards {α : Type} {key : Text} {decode : Decoder α} {get : GuardSettings → α}
      {stands : Value → α → Prop} (hslot : IsSlot guardFields key decode get)
      (hreads : decode.Reads stands) :
      Taken (Given document "guards" key) stands (get default.guards) (get s.guards) :=
    taken_of_slots hguards rfl hslot hreads (by decide) hkeyed hlists h
  have coverage {α : Type} {key : Text} {decode : Decoder α} {get : CoverageSettings → α}
      {stands : Value → α → Prop} (hslot : IsSlot coverageFields key decode get)
      (hreads : decode.Reads stands) :
      Taken (Given document "coverage" key) stands (get default.coverage) (get s.coverage) :=
    taken_of_slots hcoverage rfl hslot hreads (by decide) hkeyed hlists h
  exact {
    roots := copyright hroots reads_decodeTexts
    extensions := copyright hextensions reads_decodeTexts
    header := copyright hheader reads_decodeText
    copyrightLine := copyright hline reads_decodeIndex
    lead := copyright hlead reads_decodeText
    requireYear := copyright hyear reads_decodeBoolean
    guardRoots := guards hguardRoots reads_decodeTexts
    guardExtensions := guards hguardExtensions reads_decodeTexts
    guardLead := guards hguardLead reads_decodeText
    lines := coverage hlines reads_decodeThreshold
    functions := coverage hfunctions reads_decodeThreshold
    mode := coverage hmode reads_decodeMode
    linesRow := coverage hlinesRow reads_decodeIndex
    functionsRow := coverage hfunctionsRow reads_decodeIndex }

/-- The fourteen settings are all there is to settings. -/
theorem takenFrom_unique (hkeyed : Table.IsKeyed document) (h : TakenFrom (Given document) s)
    (h' : TakenFrom (Given document) s') : s = s' := by
  have hgiven : ∀ {name key : Text} value value', Given document name key value →
      Given document name key value' → value = value' := given_unique hkeyed
  obtain ⟨⟨roots, extensions, header, copyrightLine, lead, requireYear⟩,
    ⟨guardRoots, guardExtensions, guardLead⟩,
    ⟨lines, functions, mode, linesRow, functionsRow⟩⟩ := s
  obtain rfl := h.roots.unique reads_decodeTexts hgiven h'.roots
  obtain rfl := h.extensions.unique reads_decodeTexts hgiven h'.extensions
  obtain rfl := h.header.unique reads_decodeText hgiven h'.header
  obtain rfl := h.copyrightLine.unique reads_decodeIndex hgiven h'.copyrightLine
  obtain rfl := h.lead.unique reads_decodeText hgiven h'.lead
  obtain rfl := h.requireYear.unique reads_decodeBoolean hgiven h'.requireYear
  obtain rfl := h.guardRoots.unique reads_decodeTexts hgiven h'.guardRoots
  obtain rfl := h.guardExtensions.unique reads_decodeTexts hgiven h'.guardExtensions
  obtain rfl := h.guardLead.unique reads_decodeText hgiven h'.guardLead
  obtain rfl := h.lines.unique reads_decodeThreshold hgiven h'.lines
  obtain rfl := h.functions.unique reads_decodeThreshold hgiven h'.functions
  obtain rfl := h.mode.unique reads_decodeMode hgiven h'.mode
  obtain rfl := h.linesRow.unique reads_decodeIndex hgiven h'.linesRow
  obtain rfl := h.functionsRow.unique reads_decodeIndex hgiven h'.functionsRow
  rfl

theorem ofTable?_eq_some_iff (hkeyed : Table.IsKeyed document)
    (hlists : HasNoListSections document) :
    ofTable? document = some s ↔ Accepted document ∧ TakenFrom (Given document) s := by
  rw [← exists_ofTable?_iff hlists]
  constructor
  · intro h
    exact ⟨⟨s, h⟩, takenFrom_of_ofTable? hkeyed hlists h⟩
  · rintro ⟨⟨s', h⟩, htaken⟩
    rw [h, takenFrom_unique hkeyed htaken (takenFrom_of_ofTable? hkeyed hlists h)]

/-! ## The order of sections and keys -/

/-- Every entry of the other document is one of this one, but for the order of its own entries. -/
structure Covers (document other : Table) : Prop where
  keys : (document.map Prod.fst).Perm (other.map Prod.fst)
  entries : ∀ entry ∈ other, ∃ value, (entry.1, value) ∈ document ∧ SameValue value entry.2

theorem SameValue.symm {value value' : Value} (h : SameValue value value') :
    SameValue value' value := by
  rcases h with rfl | ⟨entries, entries', rfl, rfl, hperm⟩
  · exact Or.inl rfl
  · exact Or.inr ⟨entries', entries, rfl, rfl, hperm.symm⟩

theorem SameValue.trans {a b c : Value} (hab : SameValue a b) (hbc : SameValue b c) :
    SameValue a c := by
  rcases hab with rfl | ⟨entries, entries', rfl, rfl, hperm⟩
  · exact hbc
  · rcases hbc with rfl | ⟨middle, entries'', hmiddle, rfl, hperm'⟩
    · exact Or.inr ⟨entries, entries', rfl, rfl, hperm⟩
    · cases hmiddle
      exact Or.inr ⟨entries, entries'', rfl, rfl, hperm.trans hperm'⟩

theorem Covers.of_forall₂ {document other : Table}
    (h : List.Forall₂ (fun entry entry' => entry.1 = entry'.1 ∧ SameValue entry.2 entry'.2)
      document other) : Covers document other := by
  induction h with
  | nil => exact ⟨.refl _, nofun⟩
  | @cons entry entry' document other hfirst _ ih =>
    obtain ⟨key, value⟩ := entry
    obtain ⟨rfl, hsame⟩ := hfirst
    refine ⟨ih.keys.cons _, List.forall_mem_cons.2 ⟨⟨value, List.mem_cons_self, hsame⟩, ?_⟩⟩
    intro e he
    obtain ⟨v, hv, hv'⟩ := ih.entries e he
    exact ⟨v, List.mem_cons_of_mem _ hv, hv'⟩

theorem Covers.of_perm {document other : Table} (h : document.Perm other) :
    Covers document other :=
  ⟨h.map _, fun entry hentry => ⟨entry.2, h.mem_iff.2 hentry, Or.inl rfl⟩⟩

theorem Covers.trans {middle : Table} (h : Covers document middle) (h' : Covers middle other) :
    Covers document other := by
  refine ⟨h.keys.trans h'.keys, fun entry hentry => ?_⟩
  obtain ⟨value, hvalue, hsame⟩ := h'.entries entry hentry
  obtain ⟨value', hvalue', hsame'⟩ := h.entries _ hvalue
  exact ⟨value', hvalue', hsame'.trans hsame⟩

theorem Reordered.covers (h : Reordered document other) :
    Covers document other ∧ Covers other document := by
  obtain ⟨middle, hentries, hperm⟩ := h
  have hback : List.Forall₂ (fun entry entry' => entry.1 = entry'.1 ∧ SameValue entry.2 entry'.2)
      middle document :=
    (hentries.imp fun _ _ he => ⟨he.1.symm, he.2.symm⟩).flip
  exact ⟨(Covers.of_forall₂ hentries).trans (.of_perm hperm),
    (Covers.of_perm hperm.symm).trans (.of_forall₂ hback)⟩

namespace Covers

variable (h : Covers document other)

include h

theorem isKeyed (hkeyed : Table.IsKeyed document) : Table.IsKeyed other := by
  refine ⟨h.keys.nodup_iff.1 hkeyed.nodup, fun entry hentry => ?_⟩
  obtain ⟨value, hvalue, hsame⟩ := h.entries entry hentry
  have hvalueKeyed : value.IsKeyed := hkeyed.each _ hvalue
  rcases hsame with rfl | ⟨entries, entries', rfl, heq, hperm⟩
  · exact hvalueKeyed
  · rw [heq]
    cases hvalueKeyed with
    | table nodup each =>
      exact .table ((hperm.map _).nodup_iff.1 nodup) fun e he => each e (hperm.mem_iff.2 he)

theorem hasNoListSections (hlists : HasNoListSections document) : HasNoListSections other := by
  intro entry hentry hname items
  obtain ⟨value, hvalue, hsame⟩ := h.entries entry hentry
  rcases hsame with rfl | ⟨entries, entries', -, heq, -⟩
  · exact hlists _ hvalue hname items
  · rw [heq]
    exact nofun

theorem accepted (haccepted : Accepted document) : Accepted other := by
  intro entry hentry
  obtain ⟨value, hvalue, hsame⟩ := h.entries entry hentry
  obtain ⟨shapes, hshapes, hfits⟩ := haccepted _ hvalue
  refine ⟨shapes, hshapes, ?_⟩
  rcases hsame with rfl | ⟨entries, entries', rfl, heq, hperm⟩
  · exact hfits
  · obtain ⟨_, htable, hall⟩ := hfits
    cases htable
    exact ⟨entries', heq, fun e he => hall e (hperm.mem_iff.2 he)⟩

theorem given {name key : Text} {value : Value} (hgiven : Given other name key value) :
    Given document name key value := by
  obtain ⟨entries', hentries', hmem⟩ := hgiven
  obtain ⟨v, hv, hsame⟩ := h.entries _ hentries'
  rcases hsame with rfl | ⟨entries, _, rfl, heq, hperm⟩
  · exact ⟨entries', hv, hmem⟩
  · cases heq
    exact ⟨entries, hv, hperm.mem_iff.2 hmem⟩

end Covers

theorem ofTable?_eq_of_reordered (hkeyed : Table.IsKeyed document)
    (hlists : HasNoListSections document) (h : Reordered document other) :
    ofTable? other = ofTable? document := by
  obtain ⟨hto, hback⟩ := h.covers
  have hgiven : Given other = Given document :=
    funext fun name => funext fun key => funext fun value =>
      propext ⟨hto.given, hback.given⟩
  refine Option.ext fun s => ?_
  rw [ofTable?_eq_some_iff hkeyed hlists,
    ofTable?_eq_some_iff (hto.isKeyed hkeyed) (hto.hasNoListSections hlists), hgiven]
  exact and_congr_left fun _ => ⟨hback.accepted, hto.accepted⟩

end Documents

/-! ## Texts -/

theorem ofText?_of_none {text : Text} (origin : Path)
    (h : (Table.ofText? text).bind ofTable? = none) :
    ofText? text origin = .error (.malformed origin) := by
  unfold ofText?
  rw [h]

theorem ofText?_of_some {text : Text} {s : Settings} (origin : Path)
    (h : (Table.ofText? text).bind ofTable? = some s) :
    ofText? text origin = s.validate.map fun _ => s := by
  unfold ofText?
  rw [h]
  dsimp only
  cases s.validate <;> rfl

/-! ## Top theorem -/

/-- The settings of a document are what it gives for their keys and defaults for the rest, and there
are none if a key is unknown or a value is of another type. A text whose document gives settings
gives them if they are valid, and otherwise says what is wrong with them first. -/
theorem settings_override_defaults :
    (∀ document : Table, Table.IsKeyed document → HasNoListSections document →
      ((∃ s, ofTable? document = some s) ↔ Accepted document) ∧
      (∀ s, ofTable? document = some s ↔
        Accepted document ∧ TakenFrom (Given document) s) ∧
      ∀ other, Reordered document other → ofTable? other = ofTable? document) ∧
    ∀ (text : Text) (origin : Path),
      (∀ document, Table.ofText? text = some document → Table.IsKeyed document) ∧
      ((Table.ofText? text).bind ofTable? = none →
        ofText? text origin = .error (.malformed origin)) ∧
      ∀ s, (Table.ofText? text).bind ofTable? = some s →
        (∀ s', ofText? text origin = .ok s' ↔ s' = s ∧ s.validate = .ok ()) ∧
        ∀ e, ofText? text origin = .error e ↔ FirstFault s e := by
  refine ⟨fun document hkeyed hlists => ⟨exists_ofTable?_iff hlists, fun s => ?_, ?_⟩,
    fun text origin => ⟨fun document => isKeyed_ofText?, ofText?_of_none origin, fun s hs => ?_⟩⟩
  · exact ofTable?_eq_some_iff hkeyed hlists
  · exact fun other => ofTable?_eq_of_reordered hkeyed hlists
  · rw [ofText?_of_some origin hs]
    refine ⟨fun s' => ?_, fun e => ?_⟩
    · cases s.validate <;> simp [Except.map, eq_comm]
    · rw [← validate_eq_error_iff]
      cases s.validate <;> simp [Except.map]

/-- A mode and a threshold for lines, and a directory for guards. -/
def overridden : Table := [
  ("coverage".toList, .table [("mode".toList, .text "above"), ("lines".toList, .integer 95)]),
  ("guards".toList, .table [("roots".toList, .array [.text "lib"])])]

/-- The same with all entries in the opposite order. -/
def overriddenBackwards : Table := [
  ("guards".toList, .table [("roots".toList, .array [.text "lib"])]),
  ("coverage".toList, .table [("lines".toList, .integer 95), ("mode".toList, .text "above")])]

def overriddenSettings : Settings :=
  { Settings.default with
    guards := { GuardSettings.default with roots := ["lib"] }
    coverage :=
      { CoverageSettings.default with lines := .ofRatio false 95 1, mode := .above } }

/-- In both orders the three keys are set and nothing else. A text with an unknown section is
malformed, and of one without a header the template is the first fault. -/
theorem settings_override_defaults_backwards :
    (Table.IsKeyed overridden ∧ HasNoListSections overridden ∧
      Reordered overridden overriddenBackwards ∧
      (Table.ofText? "guard.roots = []").bind ofTable? = none) ∧
    Accepted overridden ∧ TakenFrom (Given overridden) overriddenSettings ∧
    ofTable? overriddenBackwards = some overriddenSettings ∧
    ofText? "guard.roots = []" "scl-lint.toml" = .error (.malformed "scl-lint.toml") ∧
    ofText? "copyright.header = ''" "scl-lint.toml" = .error (.template .empty) := by
  have hkeyed : Table.IsKeyed overridden := by
    refine ⟨by decide, ?_⟩
    simp only [overridden, List.forall_mem_cons]
    refine ⟨.table (by decide) ?_, .table (by decide) ?_, nofun⟩
    · simp only [List.forall_mem_cons]
      exact ⟨.text _, .integer _, nofun⟩
    · simp only [List.forall_mem_cons]
      exact ⟨.array (List.forall_mem_singleton.2 (.text _)), nofun⟩
  have hlists : HasNoListSections overridden := by
    simp [HasNoListSections, overridden]
  have horder : Reordered overridden overriddenBackwards :=
    ⟨overriddenBackwards.reverse, .cons ⟨rfl, Or.inr ⟨_, _, rfl, rfl, .swap _ _ _⟩⟩
      (.cons ⟨rfl, Or.inl rfl⟩ .nil), List.reverse_perm _⟩
  have hs : ofTable? overridden = some overriddenSettings := rfl
  have hunknown : (Table.ofText? "guard.roots = []").bind ofTable? = none := by decide +kernel
  obtain ⟨hdocuments, htexts⟩ := settings_override_defaults
  obtain ⟨-, hiff, hreordered⟩ := hdocuments overridden hkeyed hlists
  obtain ⟨haccepted, htaken⟩ := (hiff overriddenSettings).1 hs
  refine ⟨⟨hkeyed, hlists, horder, hunknown⟩, haccepted, htaken, ?_, ?_, ?_⟩
  · rw [hreordered _ horder, hs]
  · exact (htexts _ _).2.1 hunknown
  · have hempty : ((Table.ofText? "copyright.header = ''").bind ofTable?).map
        (·.copyright.header) = some [] := by decide +kernel
    obtain ⟨s, hs, hheader⟩ := Option.map_eq_some_iff.1 hempty
    have htemplate : s.copyright.template? = .error .empty := by
      rw [CopyrightSettings.template?, hheader]
      rfl
    exact (((htexts _ "scl-lint.toml").2.2 s hs).2 _).2 (.template htemplate)

end SourceAudit.Settings
