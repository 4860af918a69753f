import SourceAudit.Proofs.Check.Guard
import SourceAudit.Proofs.Check.Header
import SourceAudit.Proofs.Path.Names
import SourceAudit.Proofs.Text.Letter
import SourceAudit.Proofs.Text.Lines
import SourceAudit.Proofs.Text.Utf8

/-!
# What some text satisfies

A check that no text passes says nothing about the texts it refuses. A template can be met just
when its lead has no newline, for the lead must stand on one line and every other line of the
template already is one. A guard symbol that ends in a letter or digit can be guarded by just when
it has no newline.

    (∃ content, t.check content = .ok ()) ↔ '\n' ∉ t.rule.lead               (exists_check_iff)
    Path.IsPlain t → ((∃ content, checkGuard content (guardSymbol (encode t) lead) = .ok ()) ↔
      '\n' ∉ lead)                                                       (exists_checkGuard_iff)
-/

namespace SourceAudit

/-! ## Headers -/

namespace HeaderTemplate

variable {t : HeaderTemplate}

/-- Every line of a template could stand in a file. -/
def LinesTrimmed (t : HeaderTemplate) : Prop :=
  ∀ line ∈ t.lines, '\n' ∉ line ∧ Text.trimEnd line = line

/-- The lines of a template with a copyright line in the slot, and a blank line. -/
def sampleLines (t : HeaderTemplate) : List Text :=
  t.lines.set t.slot (t.rule.lead ++ "2000") ++ [[]]

theorem linesTrimmed_of_ofText? {text : Text} {slot : Nat} {rule : CopyrightRule}
    (h : ofText? text slot rule = .ok t) : t.LinesTrimmed := by
  intro line hline
  rw [(ofText?_eq_ok_iff.1 h).2.2.2] at hline
  obtain ⟨piece, hpiece, rfl⟩ := List.mem_map.1 hline
  refine ⟨fun hmem => ?_, Text.trimEnd_trimEnd piece⟩
  exact (Text.mem_of_mem_splitOn hpiece).1 ((Text.isPrefix_trimEnd piece).subset hmem)

theorem allows_lead (rule : CopyrightRule) : rule.Allows (rule.lead ++ "2000") := by
  refine ⟨_, rfl, fun _ => ⟨"2000".toList, [], rfl, rfl, List.all_eq_true.1 ?_, nofun⟩⟩
  decide

theorem lines_sample (h : t.LinesTrimmed) (hlead : '\n' ∉ t.rule.lead) :
    Text.lines (Text.unlines t.sampleLines) = t.sampleLines := by
  have hline : ∀ line ∈ t.sampleLines, '\n' ∉ line ∧ Text.withoutReturn line = line := by
    intro line hline
    rcases List.mem_append.1 hline with hline | hline
    · rcases List.mem_or_eq_of_mem_set hline with hline | rfl
      · exact ⟨(h line hline).1, Text.withoutReturn_of_trimEnd_eq (h line hline).2⟩
      · refine ⟨?_, ?_⟩
        · rw [List.mem_append, not_or]
          exact ⟨hlead, by decide⟩
        · have hlast : t.rule.lead ++ "2000".toList = t.rule.lead ++ "200".toList ++ ['0'] := by
            rw [List.append_assoc]
            rfl
          rw [hlast]
          exact Text.withoutReturn_concat (by decide) _
    · obtain rfl := List.mem_singleton.1 hline
      exact ⟨List.not_mem_nil, rfl⟩
  rw [Text.lines_unlines fun line hl => (hline line hl).1]
  exact (List.map_congr_left fun line hl => (hline line hl).2).trans (List.map_id _)

/-- A text opens with a header when its lines do: those of the template, with a copyright line in
the slot, and then an empty one. -/
theorem opens_of_lines {content copyright : Text} {rest : List Text} (h : t.LinesTrimmed)
    (hcopyright : t.rule.Allows copyright)
    (hlines : Text.lines content = t.lines.set t.slot copyright ++ [] :: rest) :
    t.Opens content := by
  intro i hi
  rw [Meets, hlines]
  rcases Nat.lt_or_eq_of_le hi with hlt | rfl
  · have hset : (t.lines.set t.slot copyright ++ [] :: rest)[i]? =
        if t.slot = i then some copyright else t.lines[i]? := by
      rw [List.getElem?_append_left (by rwa [List.length_set]), List.getElem?_set]
      split
      · rw [if_pos t.slot_lt]
      · rfl
    rw [hset, List.getElem?_eq_getElem hlt]
    by_cases hslot : t.slot = i
    · rw [if_pos hslot]
      exact ⟨_, rfl, fun _ => hcopyright, fun hne => absurd hslot.symm hne⟩
    · rw [if_neg hslot]
      refine ⟨_, rfl, fun heq => absurd heq.symm hslot, fun _ => ?_⟩
      exact (h _ (List.getElem_mem hlt)).2
  · refine ⟨[], ?_, ?_⟩
    · rw [List.getElem?_append_right (Nat.le_of_eq List.length_set), List.length_set, Nat.sub_self]
      rfl
    · rw [List.getElem?_eq_none (Nat.le_refl _)]
      exact nofun

theorem opens_sample (h : t.LinesTrimmed) (hlead : '\n' ∉ t.rule.lead) :
    t.Opens (Text.unlines t.sampleLines) :=
  opens_of_lines h (allows_lead t.rule) (lines_sample h hlead)

theorem exists_check_iff (h : t.LinesTrimmed) :
    (∃ content, t.check content = .ok ()) ↔ '\n' ∉ t.rule.lead := by
  simp only [check_eq_ok_iff]
  constructor
  · rintro ⟨content, hopens⟩ hlead
    obtain ⟨line, hline, hmeets⟩ := hopens t.slot (Nat.le_of_lt t.slot_lt)
    rw [List.getElem?_eq_getElem t.slot_lt] at hmeets
    obtain ⟨rest, rfl, -⟩ := hmeets.1 rfl
    exact Text.newline_not_mem_of_mem_lines (List.mem_of_getElem? hline)
      (List.mem_append_left _ hlead)
  · exact fun hlead => ⟨_, opens_sample h hlead⟩

end HeaderTemplate

/-! ## Guard symbols -/

namespace Path

/-- Letters, digits, underscores, slashes and dots, and a letter or digit at the end. -/
def IsPlain (t : Text) : Prop :=
  t.all (fun c => c.isAlphanum || c == '_' || c == '/' || c == '.') = true ∧
    ∃ c, t.getLast? = some c ∧ c.isAlphanum = true

end Path

/-- The last name of a plain path ends as the path does. -/
theorem Path.IsPlain.exists_names {t : Text} (h : IsPlain t) :
    ∃ front name, ∃ c : Char, names (Utf8.encode t) = front ++ [name ++ [.ofNat c.toNat]] ∧
      c.isAlphanum = true := by
  obtain ⟨-, c, hlast, hc⟩ := h
  obtain ⟨before, rfl⟩ := List.getLast?_eq_some_iff.1 hlast
  have hascii := Text.toNat_lt_of_isAlphanum hc
  have hne (b : UInt8) (hb : (Char.ofNat b.toNat).isAlphanum = false) :
      UInt8.ofNat c.toNat ≠ b := by
    rintro rfl
    rw [Utf8.toNat_ofNat (by omega), Char.ofNat_toNat, hc] at hb
    cases hb
  have hencode : Utf8.encode (before ++ [c]) = Utf8.encode before ++ [.ofNat c.toNat] := by
    rw [Utf8.encode, List.flatMap_append, List.flatMap_singleton,
      Utf8.utf8EncodeChar_one (by omega)]
    rfl
  obtain ⟨pieces, piece, hsplit⟩ :=
    Text.splitOn_concat (hne Path.slash (by decide)) (Utf8.encode before)
  have hcomponent : component? (piece ++ [.ofNat c.toNat]) =
      some (.entry (piece ++ [.ofNat c.toNat])) := by
    have hdot : ∀ front : List UInt8, piece ++ [.ofNat c.toNat] ≠ front ++ [dot] :=
      fun front he => hne dot (by decide) (List.append_singleton_inj.1 he).2
    have hone : piece ++ [.ofNat c.toNat] ≠ [dot] := hdot []
    have htwo : piece ++ [.ofNat c.toNat] ≠ [dot, dot] := hdot [dot]
    rw [component?, if_neg (not_or.2 ⟨by simp, hone⟩), if_neg htwo]
  refine ⟨(pieces.filterMap component?).filterMap Component.name?, piece, c, ?_, hc⟩
  rw [hencode, names_eq, hsplit, List.filterMap_append, List.filterMap_append,
    List.filterMap_cons, hcomponent]
  rfl

/-! ## Guards -/

/-- The lead, then no newline but the lead's, and in the end the capital of a letter or digit. -/
theorem exists_guardSymbol_eq_of_names {p : Path} {front : List (List UInt8)} {name : List UInt8}
    {c : Char} (hnames : Path.names p = front ++ [name ++ [.ofNat c.toNat]])
    (hc : c.isAlphanum = true) (hnewline : ∀ n ∈ Path.names p, 0x0a ∉ n) (lead : Text) :
    ∃ symbol d, guardSymbol p lead = symbol ++ [d] ∧ Text.isBlank d = false ∧
      ('\n' ∈ symbol ++ [d] ↔ '\n' ∈ lead) := by
  have hshown : Utf8.lossy (name ++ [.ofNat c.toNat]) = Utf8.lossy name ++ [c] := by
    have hascii := Text.toNat_lt_of_isAlphanum hc
    have hnat : (UInt8.ofNat c.toNat).toNat = c.toNat := Utf8.toNat_ofNat (by omega)
    rw [Utf8.lossy_append_ascii name (by omega), hnat, Char.ofNat_toNat]
    rfl
  obtain ⟨before, hbefore⟩ :=
    Path.exists_intercalate_concat ['_'] (Utf8.lossy name ++ [c]) (front.map Utf8.lossy)
  obtain ⟨d, hd, hblank⟩ := Text.upperChar_of_isAlphanum hc
  have hdot : c ≠ '.' := by
    rintro rfl
    cases hc
  have hjoined : Text.replaceChar '.' '_'
      (List.intercalate ['_'] ((Path.names p).map Utf8.lossy)) =
        Text.replaceChar '.' '_' (before ++ Utf8.lossy name) ++ [c] := by
    rw [hnames, List.map_append, List.map_singleton, hshown, hbefore, ← List.append_assoc,
      Text.replaceChar, List.map_append, List.map_singleton, if_neg hdot]
    rfl
  have hsymbol : guardSymbol p lead =
      Text.upper (lead ++ Text.replaceChar '.' '_' (before ++ Utf8.lossy name)) ++ [d] := by
    rw [guardSymbol, hjoined, ← List.append_assoc, Text.upper_append, Text.upper_singleton, hd]
  have huncased : Text.IsUncased '\n' := Text.isUncased_of_mem (by decide)
  refine ⟨_, d, hsymbol, hblank, ?_⟩
  rw [← hsymbol, guardSymbol, huncased.mem_upper_iff, List.mem_append]
  refine or_iff_left fun hmem => ?_
  -- a newline behind the lead would be one of the names
  obtain ⟨e, he, heq⟩ := List.mem_map.1 hmem
  have hten : e = '\n' := by
    split at heq
    · cases heq
    · exact heq
  rw [hten] at he
  rcases Path.mem_of_mem_intercalate he with he | ⟨shown, hshown, he⟩
  · revert he
    decide
  · obtain ⟨found, hfound, rfl⟩ := List.mem_map.1 hshown
    exact hnewline found hfound ((Utf8.mem_lossy_iff (by decide)).1 he)

theorem exists_guardSymbol_eq {t : Text} (h : Path.IsPlain t) (lead : Text) :
    ∃ symbol d, guardSymbol (Utf8.encode t) lead = symbol ++ [d] ∧ Text.isBlank d = false ∧
      ('\n' ∈ symbol ++ [d] ↔ '\n' ∈ lead) := by
  obtain ⟨front, name, c, hnames, hc⟩ := h.exists_names
  refine exists_guardSymbol_eq_of_names hnames hc ?_ lead
  intro n hn hnewline
  have hmem : '\n' ∈ t :=
    (Utf8.mem_encode_iff (c := '\n') (by decide)).1 (Path.subset_of_mem_names hn hnewline)
  have hplain := List.all_eq_true.1 h.1 _ hmem
  revert hplain
  decide

def GuardLines.lines (g : GuardLines) : List Text := [g.opening, g.definition, g.closing]

theorem GuardLines.forall_mem_lines {g : GuardLines} {p : Text → Prop} :
    (∀ line ∈ g.lines, p line) ↔ p g.opening ∧ p g.definition ∧ p g.closing := by
  simp [GuardLines.lines]

/-- The lines of a guard whose symbol does not end in a blank could stand in a file. -/
theorem GuardLines.trimmed_expected {symbol : Text} {c : Char} (hc : Text.isBlank c = false)
    (h : '\n' ∉ symbol ++ [c]) :
    ∀ line ∈ (GuardLines.expected (symbol ++ [c])).lines, '\n' ∉ line ∧
      Text.trimEnd line = line := by
  have hword : ∀ word : Text, '\n' ∉ word → '\n' ∉ word ++ (symbol ++ [c]) ∧
      Text.trimEnd (word ++ (symbol ++ [c])) = word ++ (symbol ++ [c]) := by
    intro word hword
    refine ⟨by rw [List.mem_append]; exact not_or.2 ⟨hword, h⟩, ?_⟩
    rw [← List.append_assoc, Text.trimEnd_concat hc]
  refine GuardLines.forall_mem_lines.2 ⟨?_, ?_, ?_⟩
  · exact hword "#ifndef " (by decide)
  · exact hword "#define " (by decide)
  · exact hword "#endif  // " (by decide)

/-- The lines of a guard are what is read of a text that holds nothing else. -/
theorem guardedLines_sample {symbol : Text} {c : Char} (hc : Text.isBlank c = false)
    (h : '\n' ∉ symbol ++ [c]) :
    guardedLines (Text.unlines (GuardLines.expected (symbol ++ [c])).lines) =
      (GuardLines.expected (symbol ++ [c])).lines := by
  have hline := GuardLines.trimmed_expected hc h
  rw [guardedLines, Text.lines_unlines fun line hl => (hline line hl).1, List.map_map]
  refine (List.map_congr_left fun line hl => ?_).trans (List.map_id _)
  rw [Function.comp, Text.trimEnd_withoutReturn, (hline line hl).2, id]

theorem newline_not_mem_of_guardedBy {symbol content : Text} (h : GuardedBy symbol content) :
    '\n' ∉ symbol := by
  obtain ⟨⟨before, after, hlines, -⟩, -⟩ := h
  have hmem : (GuardLines.expected symbol).opening ∈ guardedLines content := by
    rw [hlines]
    exact List.mem_append_right _ List.mem_cons_self
  obtain ⟨line, hline, htrim⟩ := List.mem_map.1 hmem
  intro hnewline
  refine Text.newline_not_mem_of_mem_lines hline ((Text.isPrefix_trimEnd line).subset ?_)
  rw [htrim]
  exact List.mem_append_right _ hnewline

theorem exists_checkGuard_iff {t : Text} (h : Path.IsPlain t) {lead : Text} :
    (∃ content, checkGuard content (guardSymbol (Utf8.encode t) lead) = .ok ()) ↔
      '\n' ∉ lead := by
  obtain ⟨symbol, c, hsymbol, hc, hnewline⟩ := exists_guardSymbol_eq h lead
  simp only [checkGuard_eq_ok_iff, hsymbol]
  rw [← hnewline]
  constructor
  · rintro ⟨content, hguarded⟩
    exact newline_not_mem_of_guardedBy hguarded
  · intro hnot
    refine ⟨Text.unlines (GuardLines.expected (symbol ++ [c])).lines, ?_⟩
    rw [GuardedBy, guardedLines_sample hc hnot]
    exact ⟨⟨[], _, rfl, List.not_mem_nil⟩, rfl⟩

end SourceAudit
