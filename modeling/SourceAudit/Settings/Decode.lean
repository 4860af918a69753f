import SourceAudit.Settings.Basic
import SourceAudit.Toml.Reader

/-!
# Settings from a document

Every key of a settings file names a field, and a field without a key keeps its default. A section
is a table or, by position, an array: its values are the fields in their order, missing ones keep
their defaults and further ones say nothing. No other key and no value of another type is accepted.
-/

namespace SourceAudit.Settings

open Toml

/-! ## Algorithm -/

/-- A value of type `α`, read from a value of a document. -/
abbrev Decoder (α : Type) := Value → Option α

def decodeText : Decoder Text
  | .text t => some t
  | _ => none

def decodeBoolean : Decoder Bool
  | .boolean b => some b
  | _ => none

def decodeTexts : Decoder (List Text)
  | .array items => items.mapM decodeText
  | _ => none

/-- A row or line number: a natural number below 2⁶⁴. -/
def decodeIndex : Decoder Nat
  | .integer n => if 0 ≤ n ∧ n < 0x10000000000000000 then some n.toNat else none
  | _ => none

/-- A threshold: a float, or an integer of 64 bits rounded to one. -/
def decodeThreshold : Decoder Binary64
  | .float x => some x
  | .integer n =>
    if -0x8000000000000000 ≤ n ∧ n < 0x10000000000000000 then
      some (.ofRatio (n < 0) n.natAbs 1)
    else none
  | _ => none

/-- Nothing at all: an empty array or an empty table. -/
def isUnit : Value → Bool
  | .array items => items.isEmpty
  | .table entries => entries.isEmpty
  | _ => false

/-- A mode is named by a text, or by the one key of a table that has nothing at it. -/
def decodeMode : Decoder ThresholdMode
  | .text t => ThresholdMode.ofName? t
  | .table [(key, value)] => if isUnit value then ThresholdMode.ofName? key else none
  | _ => none

/-- A key and what its value does to a record. -/
structure Field (σ : Type) where
  key : Text
  set : Value → σ → Option σ

def Field.of {σ α : Type} (key : Text) (decode : Decoder α) (update : σ → α → σ) : Field σ where
  key := key
  set value s := (decode value).map (update s)

/-- Set the fields of a record by the keys of a table. -/
def decodeTable {σ : Type} (fields : List (Field σ)) (entries : Table) (s : σ) : Option σ :=
  entries.foldlM
    (fun s entry => (fields.find? (·.key = entry.1)).bind fun field => field.set entry.2 s) s

/-- Set the fields of a record by their order. -/
def decodeArray {σ : Type} (fields : List (Field σ)) (items : List Value) (s : σ) : Option σ :=
  (fields.zip items).foldlM (fun s pair => pair.1.set pair.2 s) s

def decodeRecord {σ : Type} (fields : List (Field σ)) (s : σ) : Decoder σ
  | .table entries => decodeTable fields entries s
  | .array items => decodeArray fields items s
  | _ => none

def copyrightFields : List (Field CopyrightSettings) := [
  .of "roots" decodeTexts fun s v => { s with roots := v },
  .of "extensions" decodeTexts fun s v => { s with extensions := v },
  .of "header" decodeText fun s v => { s with header := v },
  .of "copyright_line" decodeIndex fun s v => { s with copyrightLine := v },
  .of "prefix" decodeText fun s v => { s with lead := v },
  .of "require_year" decodeBoolean fun s v => { s with requireYear := v }]

def guardFields : List (Field GuardSettings) := [
  .of "roots" decodeTexts fun s v => { s with roots := v },
  .of "extensions" decodeTexts fun s v => { s with extensions := v },
  .of "prefix" decodeText fun s v => { s with lead := v }]

def coverageFields : List (Field CoverageSettings) := [
  .of "lines" decodeThreshold fun s v => { s with lines := v },
  .of "functions" decodeThreshold fun s v => { s with functions := v },
  .of "mode" decodeMode fun s v => { s with mode := v },
  .of "lines_row" decodeIndex fun s v => { s with linesRow := v },
  .of "functions_row" decodeIndex fun s v => { s with functionsRow := v }]

def sections : List (Field Settings) := [
  .of "copyright" (decodeRecord copyrightFields .default) fun s v => { s with copyright := v },
  .of "guards" (decodeRecord guardFields .default) fun s v => { s with guards := v },
  .of "coverage" (decodeRecord coverageFields .default) fun s v => { s with coverage := v }]

/-- The settings in a document, valid or not. -/
def ofTable? (document : Table) : Option Settings := decodeTable sections document .default

/-- The settings in a text. `origin` names the text in errors. -/
def ofText? (text : Text) (origin : Path) : Except SettingsError Settings :=
  match (Table.ofText? text).bind ofTable? with
  | none => .error (.malformed origin)
  | some settings =>
    match settings.validate with
    | .ok () => .ok settings
    | .error e => .error e

end SourceAudit.Settings
