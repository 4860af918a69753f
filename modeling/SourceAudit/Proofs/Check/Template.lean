import SourceAudit.Proofs.Check.Deviation
import SourceAudit.Proofs.Check.Satisfiable
import SourceAudit.Proofs.Text.LineEnds
import Mathlib.Data.List.DropRight

/-!
# What a template takes from its text

The lines of a template are those of its text, right-trimmed, up to the last that is not blank. So a
template can be made just when some line at the slot or behind it is not blank, blanks at the ends
of lines and blank lines at the end of the text do not matter, and the lines of a template make the
same template again. What stands in the slot matters for nothing else: it is not compared.

    ofText? text slot rule = ofLines? (templateLines text) slot rule                  (ofText?_eq)
    (templateLines text).length ≤ k ↔ every line of the text from k on is blank
                                                                  (length_templateLines_le_iff)
    t.Normal → ofText? (unlines t.lines) t.slot t.rule = .ok t             (Normal.ofText?_unlines)
    expected and other differ only in the slot → checkFrom gives the same for both
                                                                     (checkFrom_eq_of_outside_slot)
-/

namespace SourceAudit

/-! ## The rule -/

namespace Text

/-- The lines of a text without the blanks at their ends. -/
def trimmedLines (text : Text) : List Text := (splitOn '\n' text).map trimEnd

/-- Right-trimmed, two texts have the same lines up to empty ones at the end. -/
def SameLines (s t : Text) : Prop :=
  ∃ front m n, trimmedLines s = front ++ List.replicate m [] ∧
    trimmedLines t = front ++ List.replicate n []

/-- The same lines, a line at `slot` aside. Where both texts have one they have equally many. -/
def SameOutside (slot : Nat) (s t : Text) : Prop :=
  ∀ i, i ≠ slot → (splitOn '\n' s)[i]? = (splitOn '\n' t)[i]?

/-- The lines that a template takes from a text. -/
def templateLines (text : Text) : List Text := (trimmedLines text).rdropWhile List.isEmpty

end Text

namespace HeaderTemplate

/-- A template with these lines, if there are any and the slot is one of them. -/
def ofLines? (lines : List Text) (slot : Nat) (rule : CopyrightRule) :
    Except TemplateError HeaderTemplate :=
  if lines = [] then .error .empty
  else if h : slot < lines.length then .ok ⟨lines, slot, rule, h⟩
  else .error (.slotOutOfRange slot lines.length)

/-- No line holds a newline or ends in a blank, and the last line is not blank. -/
structure Normal (t : HeaderTemplate) : Prop where
  newline_not_mem : ∀ line ∈ t.lines, '\n' ∉ line
  ends : ∀ line ∈ t.lines, ∀ c, line.getLast? = some c → Text.isBlank c = false
  last : ∃ last, t.lines.getLast? = some last ∧ ∃ c ∈ last, Text.isBlank c = false

end HeaderTemplate

/-! ## Lists without an end that does not count -/

section Lists

variable {α : Type} {p : α → Bool}

theorem rdropWhile_append_replicate {a : α} (h : p a = true) (l : List α) (n : Nat) :
    (l ++ List.replicate n a).rdropWhile p = l.rdropWhile p := by
  induction n with
  | zero => rw [List.replicate_zero, List.append_nil]
  | succ n ih =>
    rw [List.replicate_succ', ← List.append_assoc, List.rdropWhile_concat_pos p _ a h, ih]

theorem length_rdropWhile_le_iff {l : List α} {k : Nat} :
    (l.rdropWhile p).length ≤ k ↔ ∀ a ∈ l.drop k, p a = true := by
  induction l using List.reverseRecOn with
  | nil => simp
  | append_singleton l a ih =>
    rw [List.rdropWhile_concat, List.drop_append, List.forall_mem_append]
    by_cases hk : k ≤ l.length
    · rw [Nat.sub_eq_zero_of_le hk, List.drop_zero, List.forall_mem_singleton]
      split
      · next ha => rw [ih, and_iff_left ha]
      · next ha =>
        refine iff_of_false ?_ fun hall => ha hall.2
        rw [List.length_append, List.length_singleton]
        omega
    · have hend : [a].drop (k - l.length) = [] := List.drop_of_length_le (by simp; omega)
      have hfront : l.drop k = [] := List.drop_of_length_le (by omega)
      rw [hend, hfront]
      refine iff_of_true ?_ ⟨nofun, nofun⟩
      split
      · refine ih.2 ?_
        rw [hfront]
        exact nofun
      · rw [List.length_append, List.length_singleton]
        omega

end Lists

/-! ## Lines of a text -/

namespace Text

theorem trimmedLines_newline (t : Text) : trimmedLines ('\n' :: t) = [] :: trimmedLines t := rfl

theorem trimmedLines_ne_nil (t : Text) : trimmedLines t ≠ [] :=
  mt List.map_eq_nil_iff.1 (splitOn_ne_nil '\n' t)

/-- A character goes to the first line. There it counts if a line or no blank comes with it. -/
theorem trimmedLines_cons_of_ne {c : Char} (h : c ≠ '\n') {t first : Text} {more : List Text}
    (ht : trimmedLines t = first :: more) :
    trimmedLines (c :: t) =
      (if first = [] ∧ isBlank c = true then [] else c :: first) :: more := by
  obtain ⟨piece, pieces, hsplit, hcons⟩ := splitOn_cons_of_ne h t
  rw [trimmedLines, hsplit, List.map_cons] at ht
  injection ht with hfirst hmore
  rw [trimmedLines, hcons, List.map_cons, trimEnd_cons, hfirst, hmore]

theorem trimmedLines_append_blank {s : Text} (h : ∀ c ∈ s, isBlank c = true) (t : Text) :
    ∃ n, trimmedLines (t ++ s) = trimmedLines t ++ List.replicate n [] := by
  induction t with
  | nil =>
    have hall : ∀ line ∈ trimmedLines s, line = [] := by
      intro line hline
      obtain ⟨piece, hpiece, rfl⟩ := List.mem_map.1 hline
      exact trimEnd_eq_nil_iff.2 fun c hc => h c ((mem_of_mem_splitOn hpiece).2 hc)
    obtain ⟨first, more, hlines⟩ := List.exists_cons_of_ne_nil (trimmedLines_ne_nil s)
    rw [hlines, List.forall_mem_cons] at hall
    refine ⟨more.length, ?_⟩
    rw [List.nil_append, hlines, hall.1, ← List.eq_replicate_of_mem hall.2]
    rfl
  | cons c t ih =>
    obtain ⟨n, hn⟩ := ih
    refine ⟨n, ?_⟩
    rw [List.cons_append]
    by_cases hc : c = '\n'
    · rw [hc, trimmedLines_newline, trimmedLines_newline, hn, List.cons_append]
    · obtain ⟨first, more, ht⟩ := List.exists_cons_of_ne_nil (trimmedLines_ne_nil t)
      rw [ht, List.cons_append] at hn
      rw [trimmedLines_cons_of_ne hc hn, trimmedLines_cons_of_ne hc ht, List.cons_append]

theorem trimmedLines_withReturns (t : Text) : trimmedLines (withReturns t) = trimmedLines t := by
  induction t with
  | nil => rfl
  | cons c t ih =>
    by_cases hc : c = '\n'
    · have hreturn : ('\r' : Char) ≠ '\n' := by decide
      rw [hc, withReturns_newline,
        trimmedLines_cons_of_ne hreturn (trimmedLines_newline (withReturns t)),
        trimmedLines_newline, ih, if_pos ⟨rfl, rfl⟩]
    · obtain ⟨first, more, ht⟩ := List.exists_cons_of_ne_nil (trimmedLines_ne_nil t)
      rw [withReturns_cons_of_ne hc, trimmedLines_cons_of_ne hc ht,
        trimmedLines_cons_of_ne hc (ih.trans ht)]

/-! ## Lines of a template -/

theorem templateLines_append_blank {s : Text} (h : ∀ c ∈ s, isBlank c = true) (t : Text) :
    templateLines (t ++ s) = templateLines t := by
  obtain ⟨n, hn⟩ := trimmedLines_append_blank h t
  rw [templateLines, hn, rdropWhile_append_replicate List.isEmpty_nil, templateLines]

theorem templateLines_trimEnd (t : Text) : templateLines (trimEnd t) = templateLines t := by
  obtain ⟨blanks, ht, hblanks⟩ := exists_eq_trimEnd_append t
  have happend := templateLines_append_blank hblanks (trimEnd t)
  rw [← ht] at happend
  exact happend.symm

theorem templateLines_of_sameLines {s t : Text} (h : SameLines s t) :
    templateLines s = templateLines t := by
  obtain ⟨front, m, n, hs, ht⟩ := h
  rw [templateLines, templateLines, hs, ht, rdropWhile_append_replicate List.isEmpty_nil,
    rdropWhile_append_replicate List.isEmpty_nil]

/-- Of a text that ends in no blank all lines are taken. -/
theorem templateLines_eq_trimmedLines {t : Text} (h : trimEnd t = t) (hne : t ≠ []) :
    templateLines t = trimmedLines t := by
  obtain ⟨front, c, rfl⟩ := (List.eq_nil_or_concat' t).resolve_left hne
  have hblank : isBlank c = false := trimEnd_eq_self_iff.1 h c List.getLast?_concat
  have hc : c ≠ '\n' := by
    rintro rfl
    cases hblank
  obtain ⟨pieces, piece, hsplit⟩ := splitOn_concat hc front
  rw [templateLines, trimmedLines, hsplit, List.map_append, List.map_singleton,
    trimEnd_concat hblank, List.rdropWhile_concat_neg _ _ _ (by simp)]

theorem templateLines_eq_nil_iff {t : Text} :
    templateLines t = [] ↔ ∀ c ∈ t, isBlank c = true := by
  rw [← trimEnd_eq_nil_iff, ← templateLines_trimEnd]
  by_cases h : trimEnd t = []
  · rw [h]
    exact iff_of_true rfl rfl
  · rw [templateLines_eq_trimmedLines (trimEnd_trimEnd t) h]
    exact iff_of_false (trimmedLines_ne_nil _) h

theorem length_templateLines_le_iff {t : Text} {k : Nat} :
    (templateLines t).length ≤ k ↔
      ∀ line ∈ (splitOn '\n' t).drop k, ∀ c ∈ line, isBlank c = true := by
  rw [templateLines, length_rdropWhile_le_iff, trimmedLines, ← List.map_drop, List.forall_mem_map]
  simp only [List.isEmpty_iff, trimEnd_eq_nil_iff]

theorem getElem?_templateLines {t : Text} {i : Nat} (h : i < (templateLines t).length) :
    (templateLines t)[i]? = (trimmedLines t)[i]? := by
  obtain ⟨more, hmore⟩ := List.rdropWhile_prefix List.isEmpty (trimmedLines t)
  rw [templateLines] at h ⊢
  rw [← List.getElem?_append_left h, hmore]

/-- Lines behind line `k` decide how many lines are taken, if they are more than `k`. -/
theorem length_templateLines_le_of_drop_eq {s t : Text} {k : Nat}
    (h : (splitOn '\n' s).drop k = (splitOn '\n' t).drop k) (hk : k ≤ (templateLines t).length) :
    (templateLines s).length ≤ (templateLines t).length := by
  obtain ⟨m, hm⟩ := Nat.exists_eq_add_of_le hk
  rw [hm, length_templateLines_le_iff, ← List.drop_drop, h, List.drop_drop, ← hm,
    ← length_templateLines_le_iff]

end Text

/-! ## Templates -/

namespace HeaderTemplate

variable {text other : Text} {slot : Nat} {rule : CopyrightRule} {t u : HeaderTemplate}

theorem lines_ne_nil (t : HeaderTemplate) : t.lines ≠ [] :=
  List.ne_nil_of_length_pos (Nat.zero_lt_of_lt t.slot_lt)

theorem ofLines?_eq_ok_iff {lines : List Text} :
    ofLines? lines slot rule = .ok t ↔ t.lines = lines ∧ t.slot = slot ∧ t.rule = rule := by
  rw [ofLines?]
  constructor
  · intro h
    split at h
    · cases h
    · split at h
      · injection h with h
        subst h
        exact ⟨rfl, rfl, rfl⟩
      · cases h
  · rintro ⟨rfl, rfl, rfl⟩
    rw [if_neg t.lines_ne_nil, dif_pos t.slot_lt]

theorem exists_ofLines?_eq_error_iff {lines : List Text} :
    (∃ e, ofLines? lines slot rule = .error e) ↔ lines.length ≤ slot := by
  rw [ofLines?]
  split
  · next hnil => exact iff_of_true ⟨_, rfl⟩ (hnil ▸ Nat.zero_le slot)
  · split
    · next hslot =>
      refine iff_of_false ?_ (Nat.not_le_of_lt hslot)
      rintro ⟨e, h⟩
      cases h
    · next hslot => exact iff_of_true ⟨_, rfl⟩ (Nat.le_of_not_lt hslot)

theorem ofLines?_eq_error_empty_iff {lines : List Text} :
    ofLines? lines slot rule = .error .empty ↔ lines = [] := by
  rw [ofLines?]
  split
  · next hnil => exact iff_of_true rfl hnil
  · next hne =>
    refine iff_of_false (fun h => ?_) hne
    split at h <;> cases h

theorem ofText?_eq (text : Text) (slot : Nat) (rule : CopyrightRule) :
    ofText? text slot rule = ofLines? (Text.templateLines text) slot rule := by
  by_cases h : Text.trimEnd text = []
  · have hnil := Text.templateLines_eq_nil_iff.2 (Text.trimEnd_eq_nil_iff.1 h)
    rw [hnil, ofText?, h]
    rfl
  · have hlines : Text.templateLines text = Text.trimmedLines (Text.trimEnd text) := by
      rw [← Text.templateLines_trimEnd,
        Text.templateLines_eq_trimmedLines (Text.trimEnd_trimEnd text) h]
    rw [ofText?, ofLines?, hlines, if_neg h, if_neg (Text.trimmedLines_ne_nil _)]
    rfl

theorem ofText?_eq_ok_iff_templateLines :
    ofText? text slot rule = .ok t ↔
      t.lines = Text.templateLines text ∧ t.slot = slot ∧ t.rule = rule := by
  rw [ofText?_eq, ofLines?_eq_ok_iff]

theorem normal_of_linesTrimmed (h : t.LinesTrimmed) (hlast : t.lines.getLast? ≠ some []) :
    t.Normal := by
  have hends : ∀ line ∈ t.lines, ∀ c, line.getLast? = some c → Text.isBlank c = false :=
    fun line hline => Text.trimEnd_eq_self_iff.1 (h line hline).2
  refine ⟨fun line hline => (h line hline).1, hends, ?_⟩
  rw [List.getLast?_eq_some_getLast t.lines_ne_nil, Ne, Option.some_inj] at hlast
  exact ⟨_, List.getLast?_eq_some_getLast t.lines_ne_nil, _, List.getLast_mem hlast,
    hends _ (List.getLast_mem t.lines_ne_nil) _ (List.getLast?_eq_some_getLast hlast)⟩

theorem normal_of_ofText? (h : ofText? text slot rule = .ok t) : t.Normal := by
  refine normal_of_linesTrimmed (linesTrimmed_of_ofText? h) ?_
  have hlast := List.rdropWhile_last_not List.isEmpty (Text.trimmedLines text)
  rw [← Text.templateLines, ← (ofText?_eq_ok_iff_templateLines.1 h).1] at hlast
  rw [List.getLast?_eq_some_getLast t.lines_ne_nil, Ne, Option.some_inj]
  exact mt List.isEmpty_iff.2 (hlast t.lines_ne_nil)

/-- In normal form the lines of a template are those of the text that joins them. -/
theorem Normal.templateLines_intercalate (h : t.Normal) :
    Text.templateLines (List.intercalate ['\n'] t.lines) = t.lines := by
  obtain ⟨last, hlast, c, hc, -⟩ := h.last
  have htrimmed : Text.trimmedLines (List.intercalate ['\n'] t.lines) = t.lines := by
    rw [Text.trimmedLines, Text.splitOn_intercalate h.newline_not_mem t.lines_ne_nil]
    refine (List.map_congr_left fun line hline => ?_).trans (List.map_id _)
    exact Text.trimEnd_eq_self_iff.2 (h.ends line hline)
  rw [Text.templateLines, htrimmed, List.rdropWhile_eq_self_iff]
  intro hne
  rw [List.getLast?_eq_some_getLast hne, Option.some_inj] at hlast
  rw [hlast, List.isEmpty_iff]
  exact List.ne_nil_of_mem hc

theorem Normal.ofText?_unlines (h : t.Normal) :
    ofText? (Text.unlines t.lines) t.slot t.rule = .ok t := by
  have hblank : ∀ c ∈ ['\n'], Text.isBlank c = true := List.forall_mem_singleton.2 rfl
  rw [ofText?_eq_ok_iff_templateLines, Text.unlines_eq_intercalate_append t.lines_ne_nil,
    Text.templateLines_append_blank hblank, h.templateLines_intercalate]
  exact ⟨rfl, rfl, rfl⟩

theorem checkFrom_eq_of_outside_slot {n : Nat} {expected other : List Text}
    (hlength : expected.length = other.length)
    (h : ∀ i, n + i ≠ slot → expected[i]? = other[i]?) (content : List Text) :
    checkFrom slot rule n expected content = checkFrom slot rule n other content := by
  induction expected generalizing n other content with
  | nil => rw [List.length_eq_zero_iff.1 hlength.symm]
  | cons e more ih =>
    cases other with
    | nil => cases hlength
    | cons o rest =>
      cases content with
      | nil => rfl
      | cons line content =>
        have hmore : ∀ i, n + 1 + i ≠ slot → more[i]? = rest[i]? := by
          intro i hi
          exact h (i + 1) (by omega)
        rw [checkFrom, checkFrom, ih (Nat.succ.inj hlength) hmore]
        by_cases hn : n = slot
        · rw [if_pos hn, if_pos hn]
        · rw [Option.some.inj (h 0 hn)]

/-- Behind the slot the texts have the same lines, so they have the same last line that counts. -/
theorem length_lines_le_of_sameOutside (ht : ofText? text slot rule = .ok t)
    (hu : ofText? other slot rule = .ok u) (h : Text.SameOutside slot text other) :
    t.lines.length ≤ u.lines.length := by
  obtain ⟨hlines, -, -⟩ := ofText?_eq_ok_iff_templateLines.1 ht
  obtain ⟨hlines', hslot, -⟩ := ofText?_eq_ok_iff_templateLines.1 hu
  have hdrop : (Text.splitOn '\n' text).drop (slot + 1) =
      (Text.splitOn '\n' other).drop (slot + 1) := by
    refine List.ext_getElem? fun i => ?_
    rw [List.getElem?_drop, List.getElem?_drop, h _ (by omega)]
  have hlt := u.slot_lt
  rw [hslot, hlines'] at hlt
  rw [hlines, hlines']
  exact Text.length_templateLines_le_of_drop_eq hdrop hlt

theorem check_eq_of_sameOutside (ht : ofText? text slot rule = .ok t)
    (hu : ofText? other slot rule = .ok u) (h : Text.SameOutside slot text other)
    (content : Text) : t.check content = u.check content := by
  have hlength : t.lines.length = u.lines.length :=
    Nat.le_antisymm (length_lines_le_of_sameOutside ht hu h)
      (length_lines_le_of_sameOutside hu ht fun i hi => (h i hi).symm)
  obtain ⟨hlines, hslot, hrule⟩ := ofText?_eq_ok_iff_templateLines.1 ht
  obtain ⟨hlines', hslot', hrule'⟩ := ofText?_eq_ok_iff_templateLines.1 hu
  rw [check, check, hslot, hslot', hrule, hrule']
  refine checkFrom_eq_of_outside_slot hlength (fun i hi => ?_) _
  rw [Nat.zero_add] at hi
  by_cases hlt : i < t.lines.length
  · rw [hlines, hlines', Text.getElem?_templateLines (hlines ▸ hlt),
      Text.getElem?_templateLines (hlines' ▸ hlength ▸ hlt), Text.trimmedLines, Text.trimmedLines,
      List.getElem?_map, List.getElem?_map, h i hi]
  · rw [List.getElem?_eq_none (Nat.le_of_not_lt hlt),
      List.getElem?_eq_none (hlength ▸ Nat.le_of_not_lt hlt)]

end HeaderTemplate

/-! ## Top theorem -/

/-- A text makes a template unless all of it from the slot on is blank. The template is in normal
form and makes itself again, texts with the same right-trimmed lines make the same template, and of
texts that differ in the slot only the templates accept the same. -/
theorem template_normalises_and_ignores_slot (text : Text) (slot : Nat) (rule : CopyrightRule) :
    ((∃ e, HeaderTemplate.ofText? text slot rule = .error e) ↔
      ∀ line ∈ (Text.splitOn '\n' text).drop slot, ∀ c ∈ line, Text.isBlank c = true) ∧
    (HeaderTemplate.ofText? text slot rule = .error .empty ↔ ∀ c ∈ text, Text.isBlank c = true) ∧
    (∀ t, HeaderTemplate.ofText? text slot rule = .ok t →
      t.Normal ∧ t.slot = slot ∧ t.rule = rule ∧ slot < t.lines.length ∧
        HeaderTemplate.ofText? (List.intercalate ['\n'] t.lines) slot rule = .ok t) ∧
    (∀ other, Text.SameLines text other →
      HeaderTemplate.ofText? other slot rule = HeaderTemplate.ofText? text slot rule) ∧
    Text.SameLines text (Text.withReturns text) ∧
    ∀ other, Text.SameOutside slot text other →
      ∀ t u, HeaderTemplate.ofText? text slot rule = .ok t →
        HeaderTemplate.ofText? other slot rule = .ok u →
          ∀ content, t.check content = u.check content := by
  refine ⟨?_, ?_, fun t ht => ?_, fun other hother => ?_, ?_, fun other hother t u ht hu => ?_⟩
  · rw [HeaderTemplate.ofText?_eq, HeaderTemplate.exists_ofLines?_eq_error_iff,
      Text.length_templateLines_le_iff]
  · rw [HeaderTemplate.ofText?_eq, HeaderTemplate.ofLines?_eq_error_empty_iff,
      Text.templateLines_eq_nil_iff]
  · have hnormal := HeaderTemplate.normal_of_ofText? ht
    obtain ⟨-, hslot, hrule⟩ := HeaderTemplate.ofText?_eq_ok_iff_templateLines.1 ht
    refine ⟨hnormal, hslot, hrule, hslot ▸ t.slot_lt, ?_⟩
    exact HeaderTemplate.ofText?_eq_ok_iff_templateLines.2
      ⟨hnormal.templateLines_intercalate.symm, hslot, hrule⟩
  · rw [HeaderTemplate.ofText?_eq, HeaderTemplate.ofText?_eq,
      Text.templateLines_of_sameLines hother]
  · refine ⟨Text.trimmedLines text, 0, 0, ?_, ?_⟩
    · rw [List.replicate_zero, List.append_nil]
    · rw [Text.trimmedLines_withReturns, List.replicate_zero, List.append_nil]
  · exact HeaderTemplate.check_eq_of_sameOutside ht hu hother

/-- Another text in the slot gives another template, and it accepts the same. -/
theorem template_normalises_and_ignores_slot_notice :
    HeaderTemplate.ofText? "// kept \n//\n\n" 1 noticeTemplate.rule = .ok noticeTemplate ∧
    noticeTemplate.Normal ∧
    Text.SameLines "// kept \n//\n\n" "// kept\n//" ∧
    Text.SameOutside 1 "// kept \n//\n\n" "// kept \n// other\n\n" ∧
    HeaderTemplate.ofText? "// kept\n//" 1 noticeTemplate.rule =
      HeaderTemplate.ofText? "// kept \n//\n\n" 1 noticeTemplate.rule ∧
    ∃ u, HeaderTemplate.ofText? "// kept \n// other\n\n" 1 noticeTemplate.rule = .ok u ∧
      u ≠ noticeTemplate ∧ ∀ content, noticeTemplate.check content = u.check content := by
  have hok : HeaderTemplate.ofText? "// kept \n//\n\n" 1 noticeTemplate.rule =
      .ok noticeTemplate := by decide +kernel
  have hsame : Text.SameLines "// kept \n//\n\n" "// kept\n//" :=
    ⟨["// kept", "//"], 2, 0, by decide +kernel, by decide +kernel⟩
  have houtside : Text.SameOutside 1 "// kept \n//\n\n" "// kept \n// other\n\n" := by
    intro i hi
    rcases i with _ | _ | i
    · rfl
    · exact absurd rfl hi
    · rfl
  obtain ⟨-, -, hnormal, hlines, -, hslot⟩ :=
    template_normalises_and_ignores_slot "// kept \n//\n\n" 1 noticeTemplate.rule
  obtain ⟨u, hu, hne⟩ : ∃ u, HeaderTemplate.ofText? "// kept \n// other\n\n" 1
      noticeTemplate.rule = .ok u ∧ u ≠ noticeTemplate :=
    ⟨⟨["// kept", "// other"], 1, noticeTemplate.rule, Nat.lt_succ_self 1⟩,
      by decide +kernel, by decide +kernel⟩
  exact ⟨hok, (hnormal _ hok).1, hsame, houtside, hlines _ hsame, u, hu, hne,
    hslot _ houtside _ _ hok hu⟩

end SourceAudit
