import Mathlib.Data.List.Forall2
import SourceAudit.Proofs.Number.Nearest
import SourceAudit.Settings.Decode

/-!
# Fields that a table sets

Each type of a setting has the values that stand for it, and its decoder accepts these and no
others. A field has a slot in its record: its key sets the slot, and no other key touches it. So
behind a table whose keys are distinct every slot shows what the value at its key stands for, and
its old content where the table has no such key.

    Decoder.Reads decode stands   for each of the six decoders            (reads_decodeText and on)
    (∃ s', decodeTable fields entries s = some s') ↔ every entry is accepted
                                                                        (exists_decodeTable_iff)
    (key, value) ∈ entries → decode value = some (get s')                       (IsSlot.eq_of_mem)
    key ∉ entries.map Prod.fst → get s' = get s                             (IsSlot.eq_of_not_mem)
-/

namespace SourceAudit.Settings

open Toml

/-! ## The rule -/

def IsText (value : Value) (t : Text) : Prop := value = .text t

def IsBoolean (value : Value) (b : Bool) : Prop := value = .boolean b

def IsTexts (value : Value) (ts : List Text) : Prop := value = .array (ts.map .text)

/-- An integer of sixty-four bits, with a sign or without. -/
def IsWord (n : Int) : Prop := -0x8000000000000000 ≤ n ∧ n < 0x10000000000000000

def IsIndex (value : Value) (n : Nat) : Prop := value = .integer n ∧ IsWord n

/-- A float, or an integer that comes nearest to it. -/
inductive IsThreshold : Value → Binary64 → Prop
  | float (x : Binary64) : IsThreshold (.float x) x
  | integer {n : Int} {x : Binary64} (hword : IsWord n) (h : x.IsNearest n.natAbs 1) :
    IsThreshold (.integer n) { x with negative := n < 0 }

/-- The name of a mode, or a table with the name for its one key and nothing there. -/
inductive IsMode : Value → ThresholdMode → Prop
  | name (mode : ThresholdMode) : IsMode (.text mode.name) mode
  | key (mode : ThresholdMode) {value : Value} (h : value = .array [] ∨ value = .table []) :
    IsMode (.table [(mode.name, value)]) mode

/-! ## Values -/

/-- A decoder gives what a value stands for, and nothing where it stands for nothing. -/
def Decoder.Reads {α : Type} (decode : Decoder α) (stands : Value → α → Prop) : Prop :=
  ∀ value a, decode value = some a ↔ stands value a

theorem reads_decodeText : Decoder.Reads decodeText IsText := by
  intro value t
  unfold IsText
  cases value <;> simp [decodeText]

theorem reads_decodeBoolean : Decoder.Reads decodeBoolean IsBoolean := by
  intro value b
  unfold IsBoolean
  cases value <;> simp [decodeBoolean]

theorem mapM_decodeText_eq_some_iff {items : List Value} {ts : List Text} :
    items.mapM decodeText = some ts ↔ items = ts.map .text := by
  induction items generalizing ts with
  | nil => cases ts <;> simp
  | cons item items ih =>
    rw [List.mapM_cons]
    constructor
    · intro h
      obtain ⟨t, ht, h⟩ := Option.bind_eq_some_iff.1 h
      obtain ⟨others, hothers, h⟩ := Option.bind_eq_some_iff.1 h
      obtain rfl := Option.some.inj h
      rw [(reads_decodeText item t).1 ht, ih.1 hothers, List.map_cons]
    · intro h
      cases ts with
      | nil => cases h
      | cons t ts =>
        obtain ⟨rfl, rfl⟩ := List.cons.inj h
        rw [ih.2 rfl]
        rfl

theorem reads_decodeTexts : Decoder.Reads decodeTexts IsTexts := by
  intro value ts
  unfold IsTexts
  cases value with
  | array items => simp [decodeTexts, mapM_decodeText_eq_some_iff]
  | _ => simp [decodeTexts]

/-- A word that is not negative is an index. -/
theorem reads_decodeIndex : Decoder.Reads decodeIndex IsIndex := by
  intro value n
  unfold IsIndex IsWord
  cases value with
  | integer m =>
    rw [decodeIndex, Value.integer.injEq]
    split
    · rw [Option.some.injEq]
      omega
    · simp only [reduceCtorEq, false_iff]
      omega
  | _ => simp [decodeIndex]

/-- The sign of a rounded number is put in front. -/
theorem isNearest_ofRatio_natAbs {n : Int} (h : IsWord n) :
    (Binary64.ofRatio false n.natAbs 1).IsNearest n.natAbs 1 := by
  have hword : n.natAbs < twoTo 65 := by
    unfold IsWord at h
    have htwo : twoTo 65 = 0x20000000000000000 := by decide
    omega
  have hle : twoTo 65 ≤ twoTo 1023 := twoTo_le (by decide)
  exact Binary64.isNearest_ofRatio (by rw [Nat.mul_one]; exact Nat.lt_of_lt_of_le hword hle)

/-- The double that a threshold gives is the one nearest to its number. -/
theorem reads_decodeThreshold : Decoder.Reads decodeThreshold IsThreshold := by
  intro value x
  cases value with
  | float y =>
    rw [decodeThreshold, Option.some.injEq]
    constructor
    · rintro rfl
      exact .float y
    · rintro ⟨⟩
      rfl
  | integer n =>
    rw [decodeThreshold]
    constructor
    · intro h
      split at h
      · next hword =>
        obtain rfl := Option.some.inj h
        exact .integer hword (isNearest_ofRatio_natAbs hword)
      · cases h
    · intro h
      cases h with
      | integer hword hnearest =>
        rw [hnearest.unique Nat.one_ne_zero (isNearest_ofRatio_natAbs hword)]
        exact if_pos hword
  | _ => exact iff_of_false nofun nofun

theorem ofName?_eq_some_iff {t : Text} {mode : ThresholdMode} :
    ThresholdMode.ofName? t = some mode ↔ t = mode.name := by
  constructor
  · intro h
    unfold ThresholdMode.ofName? at h
    split at h
    · next heq => exact Option.some.inj h ▸ heq
    · split at h
      · next heq => exact Option.some.inj h ▸ heq
      · cases h
  · rintro rfl
    exact ThresholdMode.ofName?_name mode

theorem isUnit_iff {value : Value} :
    isUnit value = true ↔ value = .array [] ∨ value = .table [] := by
  cases value <;> simp [isUnit]

/-- A mode stands for itself by its name, written alone or as a key. -/
theorem reads_decodeMode : Decoder.Reads decodeMode IsMode := by
  intro value mode
  constructor
  · intro h
    unfold decodeMode at h
    split at h
    · obtain rfl := ofName?_eq_some_iff.1 h
      exact .name mode
    · split at h
      · next hunit =>
        obtain rfl := ofName?_eq_some_iff.1 h
        exact .key mode (isUnit_iff.1 hunit)
      · cases h
    · cases h
  · intro h
    cases h with
    | name => exact ofName?_eq_some_iff.2 rfl
    | key _ hunit => exact (if_pos (isUnit_iff.2 hunit)).trans (ofName?_eq_some_iff.2 rfl)

/-! ## One key -/

section Fields

variable {σ α ι : Type} {fields : List (Field σ)}

/-- What the value of a key does to a record. -/
def setKey? (fields : List (Field σ)) (entry : Text × Value) (s : σ) : Option σ :=
  (fields.find? (·.key = entry.1)).bind fun field => field.set entry.2 s

theorem decodeTable_cons (entry : Text × Value) (rest : Table) (s : σ) :
    decodeTable fields (entry :: rest) s =
      (setKey? fields entry s).bind (decodeTable fields rest) := rfl

/-- The field has the key of the row, and where an entry has that key the field accepts the value of
the entry iff it fits the row. -/
structure Field.Agrees (fits : ι → Value → Prop) (entry : Text × Value) (field : Field σ)
    (row : Text × ι) : Prop where
  key : field.key = row.1
  set : field.key = entry.1 → ∀ s, (∃ s', field.set entry.2 s = some s') ↔ fits row.2 entry.2

/-- A field with a decoder agrees with a row when the row asks for what the decoder reads. -/
theorem Field.agrees_of {key : Text} {decode : Decoder α} {update : σ → α → σ}
    {stands : Value → α → Prop} (h : decode.Reads stands) {fits : ι → Value → Prop} {i : ι}
    {entry : Text × Value} (hfits : key = entry.1 → (fits i entry.2 ↔ ∃ a, stands entry.2 a)) :
    (Field.of key decode update).Agrees fits entry (key, i) := by
  refine ⟨rfl, fun hkey s => ?_⟩
  rw [hfits hkey]
  constructor
  · rintro ⟨s', hs'⟩
    obtain ⟨a, ha, -⟩ := Option.map_eq_some_iff.1 hs'
    exact ⟨a, (h entry.2 a).1 ha⟩
  · rintro ⟨a, ha⟩
    exact ⟨update s a, Option.map_eq_some_iff.2 ⟨a, (h entry.2 a).2 ha, rfl⟩⟩

/-- A key is set when it has a row and its value fits the row. -/
theorem exists_setKey?_iff {fits : ι → Value → Prop} {entry : Text × Value}
    {rows : List (Text × ι)} (h : List.Forall₂ (Field.Agrees fits entry) fields rows) (s : σ) :
    (∃ s', setKey? fields entry s = some s') ↔
      ∃ i, rows.lookup entry.1 = some i ∧ fits i entry.2 := by
  induction h with
  | nil => exact iff_of_false nofun nofun
  | @cons field row fields rows hfirst hrest ih =>
    obtain ⟨key, i⟩ := row
    obtain ⟨rfl, hset⟩ := hfirst
    unfold setKey? at ih ⊢
    by_cases hkey : field.key = entry.1
    · simpa [List.find?_cons, List.lookup_cons, hkey] using hset hkey s
    · have hlookup : (entry.1 == field.key) = false := beq_eq_false_iff_ne.2 (Ne.symm hkey)
      simpa [List.find?_cons, List.lookup_cons, hkey, hlookup] using ih

/-! ## All keys -/

/-- A table is decoded when every key of it is set, whatever the record was. -/
theorem exists_decodeTable_iff {accepts : Text × Value → Prop} {entries : Table}
    (h : ∀ entry ∈ entries, ∀ s, (∃ s', setKey? fields entry s = some s') ↔ accepts entry) (s : σ) :
    (∃ s', decodeTable fields entries s = some s') ↔ ∀ entry ∈ entries, accepts entry := by
  induction entries generalizing s with
  | nil => exact iff_of_true ⟨s, rfl⟩ nofun
  | cons entry rest ih =>
    obtain ⟨hentry, hrest⟩ := List.forall_mem_cons.1 h
    rw [List.forall_mem_cons, ← hentry s, decodeTable_cons]
    constructor
    · rintro ⟨s', hs'⟩
      obtain ⟨next, hnext, hs'⟩ := Option.bind_eq_some_iff.1 hs'
      exact ⟨⟨next, hnext⟩, (ih hrest next).1 ⟨s', hs'⟩⟩
    · rintro ⟨⟨next, hnext⟩, hall⟩
      rw [hnext]
      exact (ih hrest next).2 hall

/-- The place in a record that one key sets. -/
structure IsSlot (fields : List (Field σ)) (key : Text) (decode : Decoder α) (get : σ → α) :
    Prop where
  own : ∀ value s s', setKey? fields (key, value) s = some s' → decode value = some (get s')
  other : ∀ entry s s', entry.1 ≠ key → setKey? fields entry s = some s' → get s' = get s

/-- A field leaves a place of the record as it is. -/
def Field.Keeps (get : σ → α) (field : Field σ) : Prop :=
  ∀ value s s', field.set value s = some s' → get s' = get s

/-- It is enough to see that the update of a field leaves the place as it is. -/
theorem Field.keeps_of {β : Type} {get : σ → α} {key : Text} {decode : Decoder β}
    {update : σ → β → σ} (h : ∀ s b, get (update s b) = get s) :
    (Field.of key decode update).Keeps get := by
  intro value s s' hset
  obtain ⟨b, -, rfl⟩ := Option.map_eq_some_iff.1 hset
  exact h s b

/-- A key has a slot when its field is the only one that touches that place of the record. -/
theorem IsSlot.of_field {key : Text} {decode : Decoder α} {update : σ → α → σ} {get : σ → α}
    (hfind : fields.find? (·.key = key) = some (.of key decode update))
    (hown : ∀ s a, get (update s a) = a) (hother : ∀ field ∈ fields, field.key ≠ key →
      field.Keeps get) : IsSlot fields key decode get where
  own value s s' h := by
    rw [setKey?, hfind] at h
    obtain ⟨a, ha, rfl⟩ := Option.map_eq_some_iff.1 h
    rw [ha, hown]
  other entry s s' hne h := by
    obtain ⟨field, hfield, hset⟩ := Option.bind_eq_some_iff.1 h
    have hkey : field.key = entry.1 := by simpa using List.find?_some hfield
    exact hother field (List.mem_of_find?_eq_some hfield) (hkey ▸ hne) _ _ _ hset

variable {key : Text} {decode : Decoder α} {get : σ → α} {entries : Table} {s s' : σ}

/-- Without its key a slot stays as it was. -/
theorem IsSlot.eq_of_not_mem (h : IsSlot fields key decode get)
    (hkey : key ∉ entries.map Prod.fst) (hdecode : decodeTable fields entries s = some s') :
    get s' = get s := by
  induction entries generalizing s with
  | nil =>
    obtain rfl := Option.some.inj hdecode
    rfl
  | cons entry rest ih =>
    rw [List.map_cons, List.mem_cons, not_or] at hkey
    obtain ⟨next, hnext, hrest⟩ := Option.bind_eq_some_iff.1 hdecode
    rw [ih hkey.2 hrest, h.other entry s next (Ne.symm hkey.1) hnext]

/-- The one entry with its key fills a slot. -/
theorem IsSlot.eq_of_mem (h : IsSlot fields key decode get) (hnodup : (entries.map Prod.fst).Nodup)
    {value : Value} (hmem : (key, value) ∈ entries)
    (hdecode : decodeTable fields entries s = some s') : decode value = some (get s') := by
  induction entries generalizing s with
  | nil => cases hmem
  | cons entry rest ih =>
    rw [List.map_cons, List.nodup_cons] at hnodup
    obtain ⟨next, hnext, hrest⟩ := Option.bind_eq_some_iff.1 hdecode
    rcases List.mem_cons.1 hmem with rfl | hmem
    · rw [h.eq_of_not_mem hnodup.1 hrest]
      exact h.own value s next hnext
    · exact ih hnodup.2 hmem hrest

end Fields

/-! ## The slots of the settings -/

theorem copyright_slots :
    IsSlot copyrightFields "roots" decodeTexts (·.roots) ∧
    IsSlot copyrightFields "extensions" decodeTexts (·.extensions) ∧
    IsSlot copyrightFields "header" decodeText (·.header) ∧
    IsSlot copyrightFields "copyright_line" decodeIndex (·.copyrightLine) ∧
    IsSlot copyrightFields "prefix" decodeText (·.lead) ∧
    IsSlot copyrightFields "require_year" decodeBoolean (·.requireYear) := by
  refine ⟨.of_field rfl (fun _ _ => rfl) ?_, .of_field rfl (fun _ _ => rfl) ?_,
    .of_field rfl (fun _ _ => rfl) ?_, .of_field rfl (fun _ _ => rfl) ?_,
    .of_field rfl (fun _ _ => rfl) ?_, .of_field rfl (fun _ _ => rfl) ?_⟩
  all_goals
    simp only [copyrightFields, List.forall_mem_cons]
    refine ⟨?_, ?_, ?_, ?_, ?_, ?_, nofun⟩
  all_goals
    first
    | exact fun hkey => absurd rfl hkey
    | exact fun _ => Field.keeps_of fun _ _ => rfl

theorem guard_slots :
    IsSlot guardFields "roots" decodeTexts (·.roots) ∧
    IsSlot guardFields "extensions" decodeTexts (·.extensions) ∧
    IsSlot guardFields "prefix" decodeText (·.lead) := by
  refine ⟨.of_field rfl (fun _ _ => rfl) ?_, .of_field rfl (fun _ _ => rfl) ?_,
    .of_field rfl (fun _ _ => rfl) ?_⟩
  all_goals
    simp only [guardFields, List.forall_mem_cons]
    refine ⟨?_, ?_, ?_, nofun⟩
  all_goals
    first
    | exact fun hkey => absurd rfl hkey
    | exact fun _ => Field.keeps_of fun _ _ => rfl

theorem coverage_slots :
    IsSlot coverageFields "lines" decodeThreshold (·.lines) ∧
    IsSlot coverageFields "functions" decodeThreshold (·.functions) ∧
    IsSlot coverageFields "mode" decodeMode (·.mode) ∧
    IsSlot coverageFields "lines_row" decodeIndex (·.linesRow) ∧
    IsSlot coverageFields "functions_row" decodeIndex (·.functionsRow) := by
  refine ⟨.of_field rfl (fun _ _ => rfl) ?_, .of_field rfl (fun _ _ => rfl) ?_,
    .of_field rfl (fun _ _ => rfl) ?_, .of_field rfl (fun _ _ => rfl) ?_,
    .of_field rfl (fun _ _ => rfl) ?_⟩
  all_goals
    simp only [coverageFields, List.forall_mem_cons]
    refine ⟨?_, ?_, ?_, ?_, ?_, nofun⟩
  all_goals
    first
    | exact fun hkey => absurd rfl hkey
    | exact fun _ => Field.keeps_of fun _ _ => rfl

/-- Each section of a settings file fills its own part of the settings. -/
theorem section_slots :
    IsSlot sections "copyright" (decodeRecord copyrightFields .default) (·.copyright) ∧
    IsSlot sections "guards" (decodeRecord guardFields .default) (·.guards) ∧
    IsSlot sections "coverage" (decodeRecord coverageFields .default) (·.coverage) := by
  refine ⟨.of_field rfl (fun _ _ => rfl) ?_, .of_field rfl (fun _ _ => rfl) ?_,
    .of_field rfl (fun _ _ => rfl) ?_⟩
  all_goals
    simp only [sections, List.forall_mem_cons]
    refine ⟨?_, ?_, ?_, nofun⟩
  all_goals
    first
    | exact fun hkey => absurd rfl hkey
    | exact fun _ => Field.keeps_of fun _ _ => rfl

end SourceAudit.Settings
