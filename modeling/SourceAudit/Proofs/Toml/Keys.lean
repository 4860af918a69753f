import SourceAudit.Toml.Reader

/-!
# Documents whose keys are distinct

A document has every key once, in every table that it holds. Statements put keys into a draft, and
what puts a key replaces what the key had: so a draft has every key once as well, and it keeps its
keys when it is finished. Inline tables are drafts that are finished where they end.

    entries.IsKeyed → draft.IsKeyed → (put key draft entries).IsKeyed          (IsKeyed.put)
    takeValue? depth fuel t = some (v, rest) → v.IsKeyed                       (isKeyed_takeValue?)
    Table.ofText? t = some document → Table.IsKeyed document                   (isKeyed_ofText?)
-/

namespace SourceAudit.Toml

/-! ## The rule -/

/-- In every table of the value a key stands once. -/
inductive Value.IsKeyed : Value → Prop
  | text (t : Text) : IsKeyed (.text t)
  | integer (n : Int) : IsKeyed (.integer n)
  | float (x : Binary64) : IsKeyed (.float x)
  | overflow : IsKeyed .overflow
  | boolean (b : Bool) : IsKeyed (.boolean b)
  | moment (t : Text) : IsKeyed (.moment t)
  | array {items : List Value} (each : ∀ item ∈ items, IsKeyed item) : IsKeyed (.array items)
  | table {entries : List (Text × Value)} (nodup : (entries.map Prod.fst).Nodup)
    (each : ∀ entry ∈ entries, IsKeyed entry.2) : IsKeyed (.table entries)

structure Table.IsKeyed (entries : Table) : Prop where
  nodup : (entries.map Prod.fst).Nodup
  each : ∀ entry ∈ entries, entry.2.IsKeyed

inductive Draft.IsKeyed : Draft → Prop
  | done {value : Value} (h : value.IsKeyed) : IsKeyed (.done value)
  | table {origin : Origin} {entries : List (Text × Draft)} (nodup : (entries.map Prod.fst).Nodup)
    (each : ∀ entry ∈ entries, IsKeyed entry.2) : IsKeyed (.table origin entries)
  | tables {items : List (List (Text × Draft))}
    (nodup : ∀ entries ∈ items, (entries.map Prod.fst).Nodup)
    (each : ∀ entries ∈ items, ∀ entry ∈ entries, IsKeyed entry.2) : IsKeyed (.tables items)

structure DraftTable.IsKeyed (entries : DraftTable) : Prop where
  nodup : (entries.map Prod.fst).Nodup
  each : ∀ entry ∈ entries, entry.2.IsKeyed

/-- The value of an assignment is keyed. -/
def Statement.IsKeyed : Statement → Prop
  | .assignment _ value => value.IsKeyed
  | _ => True

/-! ## Finished drafts -/

theorem finishTable_eq_map (entries : List (Text × Draft)) :
    finishTable entries = entries.map fun entry => (entry.1, entry.2.finish) := by
  induction entries with
  | nil => rfl
  | cons entry rest ih => rw [finishTable, ih, List.map_cons]

theorem finishTables_eq_map (items : List (List (Text × Draft))) :
    finishTables items = items.map fun entries => .table (finishTable entries) := by
  induction items with
  | nil => rfl
  | cons entries rest ih => rw [finishTables, ih, List.map_cons]

theorem keys_finishTable (entries : List (Text × Draft)) :
    (finishTable entries).map Prod.fst = entries.map Prod.fst := by
  rw [finishTable_eq_map, List.map_map]
  rfl

theorem isKeyed_finishTable_of_each {entries : List (Text × Draft)}
    (nodup : (entries.map Prod.fst).Nodup) (each : ∀ entry ∈ entries, entry.2.finish.IsKeyed) :
    Table.IsKeyed (finishTable entries) := by
  refine ⟨?_, ?_⟩
  · rwa [keys_finishTable]
  · rw [finishTable_eq_map]
    exact List.forall_mem_map.2 each

theorem Draft.IsKeyed.finish {draft : Draft} (h : draft.IsKeyed) : draft.finish.IsKeyed := by
  induction h with
  | done h => exact h
  | table nodup _ ih =>
    obtain ⟨nodup, each⟩ := isKeyed_finishTable_of_each nodup ih
    exact .table nodup each
  | tables nodup _ ih =>
    rw [Draft.finish, finishTables_eq_map]
    refine .array (List.forall_mem_map.2 fun entries hentries => ?_)
    obtain ⟨nodup, each⟩ :=
      isKeyed_finishTable_of_each (nodup entries hentries) (ih entries hentries)
    exact .table nodup each

theorem DraftTable.IsKeyed.finish {entries : DraftTable} (h : entries.IsKeyed) :
    Table.IsKeyed (finishTable entries) :=
  isKeyed_finishTable_of_each h.nodup fun entry hentry => (h.each entry hentry).finish

/-! ## Drafts in the making -/

namespace DraftTable

variable {key : Text} {draft : Draft} {entries : DraftTable}

theorem keys_put (key : Text) (draft : Draft) (entries : DraftTable) :
    (put key draft entries).map Prod.fst =
      if key ∈ entries.map Prod.fst then entries.map Prod.fst
      else entries.map Prod.fst ++ [key] := by
  induction entries with
  | nil => rfl
  | cons entry rest ih =>
    obtain ⟨k, d⟩ := entry
    rw [put]
    by_cases hk : k = key
    · simp [hk]
    · have hne : key ≠ k := Ne.symm hk
      rw [if_neg hk, List.map_cons, ih]
      by_cases hmem : key ∈ rest.map Prod.fst <;> simp [hmem, hne]

theorem eq_or_mem_of_mem_put {entry : Text × Draft} (h : entry ∈ put key draft entries) :
    entry = (key, draft) ∨ entry ∈ entries := by
  induction entries with
  | nil => exact Or.inl (List.mem_singleton.1 h)
  | cons first rest ih =>
    obtain ⟨k, d⟩ := first
    rw [put] at h
    split at h
    · rcases List.mem_cons.1 h with heq | hmem
      · exact Or.inl heq
      · exact Or.inr (List.mem_cons_of_mem _ hmem)
    · rcases List.mem_cons.1 h with heq | hmem
      · exact Or.inr (heq ▸ List.mem_cons_self)
      · exact (ih hmem).imp_right (List.mem_cons_of_mem _)

namespace IsKeyed

theorem nil : IsKeyed [] := ⟨List.nodup_nil, nofun⟩

theorem put (h : entries.IsKeyed) (hdraft : draft.IsKeyed) :
    (DraftTable.put key draft entries).IsKeyed := by
  refine ⟨?_, fun entry hentry => ?_⟩
  · rw [keys_put]
    split
    · exact h.nodup
    · next hnew =>
      refine List.nodup_append.2 ⟨h.nodup, List.pairwise_singleton _ _, fun k hk other hother => ?_⟩
      obtain rfl := List.mem_singleton.1 hother
      rintro rfl
      exact hnew hk
  · rcases eq_or_mem_of_mem_put hentry with rfl | hmem
    · exact hdraft
    · exact h.each entry hmem

theorem lookup (h : entries.IsKeyed) (hlookup : entries.lookup key = some draft) :
    draft.IsKeyed := by
  obtain ⟨before, after, rfl, -⟩ := List.lookup_eq_some_iff.1 hlookup
  exact h.each (key, draft) (List.mem_append_right _ List.mem_cons_self)

theorem table {origin : Origin} (h : entries.IsKeyed) : (Draft.table origin entries).IsKeyed :=
  .table h.nodup h.each

theorem of_table {origin : Origin} (h : (Draft.table origin entries).IsKeyed) :
    entries.IsKeyed := by
  cases h with
  | table nodup each => exact ⟨nodup, each⟩

theorem tables {items : List DraftTable} (h : ∀ entries ∈ items, entries.IsKeyed) :
    (Draft.tables items).IsKeyed :=
  .tables (fun entries hentries => (h entries hentries).nodup)
    fun entries hentries => (h entries hentries).each

theorem of_tables {items : List DraftTable} (h : (Draft.tables items).IsKeyed) :
    ∀ entries ∈ items, entries.IsKeyed := by
  cases h with
  | tables nodup each =>
    exact fun entries hentries => ⟨nodup entries hentries, each entries hentries⟩

theorem assign {path : List Text} {after : DraftTable} (h : entries.IsKeyed)
    (hdraft : draft.IsKeyed) (hassign : DraftTable.assign draft path entries = some after) :
    after.IsKeyed := by
  fun_induction DraftTable.assign draft path entries generalizing after with
  | case1 => cases hassign
  | case2 => cases hassign
  | case3 entries key hlookup =>
    obtain rfl := Option.some.inj hassign
    exact h.put hdraft
  | case4 entries key next path hlookup ih =>
    obtain ⟨inner, hinner, rfl⟩ := Option.map_eq_some_iff.1 hassign
    exact h.put (ih .nil hinner).table
  | case5 entries key next path inner hlookup ih =>
    obtain ⟨changed, hchanged, rfl⟩ := Option.map_eq_some_iff.1 hassign
    exact h.put (ih (of_table (h.lookup hlookup)) hchanged).table
  | case6 => cases hassign

/-- What keeps the keys of one table apart keeps those of a document apart when it changes a table
of it. -/
theorem within {change : DraftTable → Option DraftTable}
    (hchange : ∀ entries after, entries.IsKeyed → change entries = some after → after.IsKeyed)
    {path : List Text} {after : DraftTable} (h : entries.IsKeyed)
    (hwithin : DraftTable.within change path entries = some after) : after.IsKeyed := by
  fun_induction DraftTable.within change path entries generalizing after with
  | case1 entries => exact hchange entries after h hwithin
  | case2 entries key path hlookup ih =>
    obtain ⟨inner, hinner, rfl⟩ := Option.map_eq_some_iff.1 hwithin
    exact h.put (ih .nil hinner).table
  | case3 entries key path origin inner hlookup ih =>
    obtain ⟨changed, hchanged, rfl⟩ := Option.map_eq_some_iff.1 hwithin
    exact h.put (ih (of_table (h.lookup hlookup)) hchanged).table
  | case4 => cases hwithin
  | case5 entries key path items hlookup last hlast ih =>
    obtain ⟨changed, hchanged, rfl⟩ := Option.map_eq_some_iff.1 hwithin
    have hitems := of_tables (h.lookup hlookup)
    have hkept := ih (hitems last (List.mem_of_getLast? hlast)) hchanged
    refine h.put (tables fun item hitem => ?_)
    rcases List.mem_append.1 hitem with hitem | hitem
    · exact hitems item ((List.dropLast_prefix items).subset hitem)
    · exact List.mem_singleton.1 hitem ▸ hkept
  | case6 => cases hwithin

theorem declare {after : DraftTable} (h : entries.IsKeyed)
    (hdeclare : DraftTable.declare key entries = some after) : after.IsKeyed := by
  unfold DraftTable.declare at hdeclare
  split at hdeclare
  · obtain rfl := Option.some.inj hdeclare
    exact h.put IsKeyed.nil.table
  · next inner hlookup =>
    obtain rfl := Option.some.inj hdeclare
    exact h.put (of_table (h.lookup hlookup)).table
  · cases hdeclare

theorem declareItem {after : DraftTable} (h : entries.IsKeyed)
    (hdeclare : DraftTable.declareItem key entries = some after) : after.IsKeyed := by
  unfold DraftTable.declareItem at hdeclare
  split at hdeclare
  · obtain rfl := Option.some.inj hdeclare
    exact h.put (tables (List.forall_mem_singleton.2 .nil))
  · next items hlookup =>
    obtain rfl := Option.some.inj hdeclare
    refine h.put (tables (List.forall_mem_append.2 ⟨of_tables (h.lookup hlookup), ?_⟩))
    exact List.forall_mem_singleton.2 .nil
  · cases hdeclare

end IsKeyed

end DraftTable

/-! ## Statements -/

/-- One statement keeps the keys of a document apart. -/
theorem DraftDocument.isKeyed_step {d after : DraftDocument} {statement : Statement}
    (h : d.entries.IsKeyed) (hstatement : statement.IsKeyed)
    (hstep : d.step statement = some after) : after.entries.IsKeyed := by
  cases statement with
  | header path =>
    obtain ⟨entries, hentries, rfl⟩ := Option.map_eq_some_iff.1 hstep
    exact h.within (fun _ _ => DraftTable.IsKeyed.declare) hentries
  | itemHeader path =>
    obtain ⟨entries, hentries, rfl⟩ := Option.map_eq_some_iff.1 hstep
    exact h.within (fun _ _ => DraftTable.IsKeyed.declareItem) hentries
  | assignment path value =>
    obtain ⟨entries, hentries, rfl⟩ := Option.map_eq_some_iff.1 hstep
    exact h.within (fun _ _ hkeyed => hkeyed.assign (.done hstatement)) hentries

theorem DraftDocument.isKeyed_steps {d after : DraftDocument} {statements : List Statement}
    (h : d.entries.IsKeyed) (hstatements : ∀ statement ∈ statements, statement.IsKeyed)
    (hsteps : statements.foldlM DraftDocument.step d = some after) : after.entries.IsKeyed := by
  induction statements generalizing d with
  | nil =>
    obtain rfl := Option.some.inj hsteps
    exact h
  | cons statement rest ih =>
    obtain ⟨next, hnext, hrest⟩ := Option.bind_eq_some_iff.1 hsteps
    obtain ⟨hfirst, hothers⟩ := List.forall_mem_cons.1 hstatements
    exact ih (isKeyed_step h hfirst hnext) hothers hrest

theorem isKeyed_ofStatements? {statements : List Statement} {document : Table}
    (hstatements : ∀ statement ∈ statements, statement.IsKeyed)
    (h : Table.ofStatements? statements = some document) : Table.IsKeyed document := by
  obtain ⟨d, hd, hdocument⟩ := Option.bind_eq_some_iff.1 h
  obtain rfl := Option.some.inj hdocument
  exact (DraftDocument.isKeyed_steps .nil hstatements hd).finish

theorem isKeyed_ofAssignments? {assignments : List (List Text × Value)} {entries : Table}
    (hassignments : ∀ assignment ∈ assignments, assignment.2.IsKeyed)
    (h : Table.ofAssignments? assignments = some entries) : Table.IsKeyed entries := by
  have hall : ∀ {start after : DraftTable}, start.IsKeyed →
      assignments.foldlM (fun (t : DraftTable) (a : List Text × Value) =>
        t.assign (.done a.2) a.1) start = some after → after.IsKeyed := by
    intro start after hstart hafter
    clear h
    induction assignments generalizing start with
    | nil =>
      obtain rfl := Option.some.inj hafter
      exact hstart
    | cons assignment rest ih =>
      obtain ⟨next, hnext, hrest⟩ := Option.bind_eq_some_iff.1 hafter
      obtain ⟨hfirst, hothers⟩ := List.forall_mem_cons.1 hassignments
      exact ih hothers (hstart.assign (.done hfirst) hnext) hrest
  obtain ⟨draft, hdraft, hentries⟩ := Option.bind_eq_some_iff.1 h
  obtain rfl := Option.some.inj hentries
  exact (hall .nil hdraft).finish

/-! ## What is read -/

theorem isKeyed_readFloat? {t : Text} {value : Value} (h : readFloat? t = some value) :
    value.IsKeyed := by
  have hrounded : ∀ x : Binary64,
      (if x.isInfinite then Value.overflow else Value.float x).IsKeyed := by
    intro x
    split
    · exact .overflow
    · exact .float x
  unfold readFloat? at h
  generalize Decimal.splitSign t = split at h
  obtain ⟨negative, rest⟩ := split
  dsimp only at h
  split at h
  · exact Option.some.inj h ▸ .float _
  · split at h
    · exact Option.some.inj h ▸ .float _
    · obtain ⟨exponent, -, h⟩ := Option.bind_eq_some_iff.1 h
      obtain ⟨whole, -, h⟩ := Option.bind_eq_some_iff.1 h
      split at h
      · obtain ⟨part, -, h⟩ := Option.bind_eq_some_iff.1 h
        exact Option.some.inj h ▸ hrounded _
      · obtain ⟨part, -, h⟩ := Option.bind_eq_some_iff.1 h
        exact Option.some.inj h ▸ hrounded _

theorem isKeyed_readScalar? {t : Text} {value : Value} (h : readScalar? t = some value) :
    value.IsKeyed := by
  unfold readScalar? at h
  split at h
  · exact Option.some.inj h ▸ .boolean true
  · split at h
    · exact Option.some.inj h ▸ .boolean false
    · split at h
      · exact Option.some.inj h ▸ .integer _
      · split at h
        · next hfloat => exact Option.some.inj h ▸ isKeyed_readFloat? hfloat
        · split at h
          · exact Option.some.inj h ▸ .moment t
          · cases h

theorem isKeyed_takeScalar? {t rest : Text} {value : Value}
    (h : takeScalar? t = some (value, rest)) : value.IsKeyed := by
  have hread : ∀ {token after : Text},
      (readScalar? token).map (·, after) = some (value, rest) → value.IsKeyed := by
    intro token after hmap
    obtain ⟨v, hv, heq⟩ := Option.map_eq_some_iff.1 hmap
    obtain rfl := congrArg Prod.fst heq
    exact isKeyed_readScalar? hv
  unfold takeScalar? at h
  dsimp only at h
  split at h <;> split at h <;> exact hread h

/-- What is read with some fuel is keyed: a value, the items of an array, the pairs of a table. -/
structure ReadsKeyed (fuel : Nat) : Prop where
  value : ∀ {depth t v rest}, takeValue? depth fuel t = some (v, rest) → v.IsKeyed
  items : ∀ {depth t items rest}, takeItems? depth fuel t = some (items, rest) →
    ∀ item ∈ items, item.IsKeyed
  pairs : ∀ {depth t pairs rest}, takePairs? depth fuel t = some (pairs, rest) →
    ∀ pair ∈ pairs, pair.2.IsKeyed

theorem isKeyed_takeString? {t rest : Text} {value : Value}
    (h : (takeString? t).map (fun (s, rest) => (Value.text s, rest)) = some (value, rest)) :
    value.IsKeyed := by
  obtain ⟨⟨s, rest⟩, -, heq⟩ := Option.map_eq_some_iff.1 h
  obtain rfl := congrArg Prod.fst heq
  exact .text s

theorem ReadsKeyed.takeValue?_succ {fuel : Nat} (ih : ReadsKeyed fuel) {depth : Nat}
    {t rest : Text} {value : Value} (h : takeValue? depth (fuel + 1) t = some (value, rest)) :
    value.IsKeyed := by
  unfold takeValue? at h
  split at h
  · split at h
    · cases h
    · obtain ⟨⟨items, rest⟩, hitems, heq⟩ := Option.map_eq_some_iff.1 h
      obtain rfl := congrArg Prod.fst heq
      exact .array (ih.items hitems)
  · split at h
    · cases h
    · obtain ⟨⟨pairs, rest⟩, hpairs, h⟩ := Option.bind_eq_some_iff.1 h
      obtain ⟨entries, hentries, h⟩ := Option.bind_eq_some_iff.1 h
      obtain rfl := congrArg Prod.fst (Option.some.inj h)
      obtain ⟨nodup, each⟩ := isKeyed_ofAssignments? (ih.pairs hpairs) hentries
      exact .table nodup each
  · exact isKeyed_takeString? h
  · exact isKeyed_takeString? h
  · exact isKeyed_takeScalar? h

theorem ReadsKeyed.takeItems?_succ {fuel : Nat} (ih : ReadsKeyed fuel) {depth : Nat}
    {t rest : Text} {items : List Value}
    (h : takeItems? depth (fuel + 1) t = some (items, rest)) : ∀ item ∈ items, item.IsKeyed := by
  unfold takeItems? at h
  split at h
  · obtain rfl := congrArg Prod.fst (Option.some.inj h)
    exact nofun
  · obtain ⟨⟨item, rest⟩, hitem, h⟩ := Option.bind_eq_some_iff.1 h
    dsimp only at h
    split at h
    · obtain ⟨⟨others, rest⟩, hothers, h⟩ := Option.bind_eq_some_iff.1 h
      obtain rfl := congrArg Prod.fst (Option.some.inj h)
      exact List.forall_mem_cons.2 ⟨ih.value hitem, ih.items hothers⟩
    · obtain rfl := congrArg Prod.fst (Option.some.inj h)
      exact List.forall_mem_singleton.2 (ih.value hitem)
    · cases h

theorem ReadsKeyed.takePairs?_succ {fuel : Nat} (ih : ReadsKeyed fuel) {depth : Nat}
    {t rest : Text} {pairs : List (List Text × Value)}
    (h : takePairs? depth (fuel + 1) t = some (pairs, rest)) :
    ∀ pair ∈ pairs, pair.2.IsKeyed := by
  unfold takePairs? at h
  split at h
  · obtain rfl := congrArg Prod.fst (Option.some.inj h)
    exact nofun
  · obtain ⟨⟨path, rest⟩, -, h⟩ := Option.bind_eq_some_iff.1 h
    obtain ⟨rest, -, h⟩ := Option.bind_eq_some_iff.1 h
    obtain ⟨⟨value, rest⟩, hvalue, h⟩ := Option.bind_eq_some_iff.1 h
    dsimp only at h
    split at h
    · obtain ⟨⟨others, rest⟩, hothers, h⟩ := Option.bind_eq_some_iff.1 h
      obtain rfl := congrArg Prod.fst (Option.some.inj h)
      exact List.forall_mem_cons.2 ⟨ih.value hvalue, ih.pairs hothers⟩
    · obtain rfl := congrArg Prod.fst (Option.some.inj h)
      exact List.forall_mem_singleton.2 (ih.value hvalue)
    · cases h

theorem readsKeyed (fuel : Nat) : ReadsKeyed fuel := by
  induction fuel with
  | zero => exact ⟨nofun, nofun, nofun⟩
  | succ fuel ih => exact ⟨ih.takeValue?_succ, ih.takeItems?_succ, ih.takePairs?_succ⟩

theorem isKeyed_takeStatement? {t rest : Text} {statement : Statement}
    (h : takeStatement? t = some (statement, rest)) : statement.IsKeyed := by
  unfold takeStatement? at h
  split at h
  · obtain ⟨⟨path, rest⟩, -, h⟩ := Option.bind_eq_some_iff.1 h
    obtain ⟨rest, -, h⟩ := Option.bind_eq_some_iff.1 h
    obtain rfl := congrArg Prod.fst (Option.some.inj h)
    exact True.intro
  · obtain ⟨⟨path, rest⟩, -, h⟩ := Option.bind_eq_some_iff.1 h
    obtain ⟨rest, -, h⟩ := Option.bind_eq_some_iff.1 h
    obtain rfl := congrArg Prod.fst (Option.some.inj h)
    exact True.intro
  · obtain ⟨⟨path, rest⟩, -, h⟩ := Option.bind_eq_some_iff.1 h
    obtain ⟨rest, -, h⟩ := Option.bind_eq_some_iff.1 h
    obtain ⟨⟨value, rest⟩, hvalue, h⟩ := Option.bind_eq_some_iff.1 h
    obtain rfl := congrArg Prod.fst (Option.some.inj h)
    exact (readsKeyed _).value hvalue

theorem isKeyed_readStatements? {fuel : Nat} {t : Text} {statements : List Statement}
    (h : readStatements? fuel t = some statements) :
    ∀ statement ∈ statements, statement.IsKeyed := by
  induction fuel generalizing t statements with
  | zero => cases h
  | succ fuel ih =>
    unfold readStatements? at h
    split at h
    · obtain rfl := Option.some.inj h
      exact nofun
    · obtain ⟨⟨statement, rest⟩, hstatement, h⟩ := Option.bind_eq_some_iff.1 h
      obtain ⟨rest, -, h⟩ := Option.bind_eq_some_iff.1 h
      obtain ⟨others, hothers, h⟩ := Option.bind_eq_some_iff.1 h
      obtain rfl := Option.some.inj h
      exact List.forall_mem_cons.2 ⟨isKeyed_takeStatement? hstatement, ih hothers⟩

/-- The document that a text is has every key once, in every table. -/
theorem isKeyed_ofText? {t : Text} {document : Table} (h : Table.ofText? t = some document) :
    Table.IsKeyed document := by
  obtain ⟨statements, hstatements, h⟩ := Option.bind_eq_some_iff.1 h
  exact isKeyed_ofStatements? (isKeyed_readStatements? hstatements) h

end SourceAudit.Toml
