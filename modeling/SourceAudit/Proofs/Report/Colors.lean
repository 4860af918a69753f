import SourceAudit.Proofs.Report.Junit
import SourceAudit.Proofs.Text.Lines
import SourceAudit.Report.Terminal

/-!
# Reports with their colours taken out

A colour sequence is an escape and a bracket, numbers with semicolons between them, and `m`. Where
the texts of a report have no escape in them, every sequence in the coloured report is one that sets
or resets the colour of a label, and without them it is the report that was never coloured.

    escape ∉ s → withoutColors (s ++ t) = s ++ withoutColors t                 (decolors_of_free)
    Decolors (colored code t) t                                                (decolors_colored)
    r.IsEscapeFree → withoutColors (r.terminal coloured _) = r.terminal uncoloured _
                                                                     (withoutColors_terminal)
-/

namespace SourceAudit

/-! ## The rule -/

def escape : Char := '\x1b'

/-- What follows the colour sequence that a text begins with. -/
def dropColor? : Text → Option Text
  | '\x1b' :: '[' :: rest =>
    match rest.dropWhile fun c => c.isDigit || c == ';' with
    | 'm' :: rest => some rest
    | _ => none
  | _ => none

theorem length_lt_of_dropColor? {t rest : Text} (h : dropColor? t = some rest) :
    rest.length < t.length := by
  unfold dropColor? at h
  split at h
  · next body =>
    split at h
    · next after hafter =>
      obtain rfl := Option.some.inj h
      have hle : (body.dropWhile fun c => c.isDigit || c == ';').length ≤ body.length :=
        (List.dropWhile_suffix _).length_le
      rw [hafter] at hle
      simp only [List.length_cons] at hle ⊢
      omega
    · cases h
  · cases h

/-- The text with every colour sequence deleted. -/
def withoutColors (t : Text) : Text :=
  match _h : dropColor? t with
  | some rest => withoutColors rest
  | none =>
    match t with
    | [] => []
    | c :: rest => c :: withoutColors rest
termination_by t.length
decreasing_by
  · exact length_lt_of_dropColor? _h
  · exact Nat.lt_succ_self _

/-- In front of every text the first becomes the second when the colours are taken out. -/
def Decolors (t plain : Text) : Prop :=
  ∀ rest, withoutColors (t ++ rest) = plain ++ withoutColors rest

/-- The texts that a report is given have no escape in them. -/
structure Report.IsEscapeFree (r : Report) : Prop where
  baseDir : escape ∉ r.baseDir
  findings : ∀ f ∈ r.findings, ∀ t ∈ f.texts, escape ∉ t

/-! ## Taking colours out -/

theorem withoutColors_nil : withoutColors [] = [] := by
  rw [withoutColors]
  rfl

theorem withoutColors_cons {c : Char} (hc : c ≠ escape) (rest : Text) :
    withoutColors (c :: rest) = c :: withoutColors rest := by
  have hnone : dropColor? (c :: rest) = none := by
    unfold dropColor?
    split
    · next heq => exact absurd (List.cons.inj heq).1 hc
    · rfl
  rw [withoutColors]
  split
  · next hsome => rw [hnone] at hsome; cases hsome
  · rfl

theorem withoutColors_of_dropColor? {t rest : Text} (h : dropColor? t = some rest) :
    withoutColors t = withoutColors rest := by
  rw [withoutColors]
  split
  · next hsome => rw [Option.some.inj (hsome.symm.trans h)]
  · next hnone => rw [h] at hnone; cases hnone

namespace Decolors

variable {s s' t t' : Text}

theorem eq (h : Decolors t t') : withoutColors t = t' := by
  have hend := h []
  rwa [List.append_nil, withoutColors_nil, List.append_nil] at hend

theorem append (hs : Decolors s s') (ht : Decolors t t') : Decolors (s ++ t) (s' ++ t') := by
  intro rest
  rw [List.append_assoc, hs, ht, List.append_assoc]

theorem flatMap {α : Type} {items : List α} {f g : α → Text}
    (h : ∀ a ∈ items, Decolors (f a) (g a)) : Decolors (items.flatMap f) (items.flatMap g) := by
  induction items with
  | nil => exact fun rest => rfl
  | cons a items ih =>
    obtain ⟨ha, hitems⟩ := List.forall_mem_cons.1 h
    exact ha.append (ih hitems)

end Decolors

theorem decolors_of_free {t : Text} (h : escape ∉ t) : Decolors t t := by
  intro rest
  induction t with
  | nil => rfl
  | cons c t ih =>
    rw [List.mem_cons, not_or] at h
    rw [List.cons_append, withoutColors_cons (Ne.symm h.1), ih h.2, List.cons_append]

theorem dropColor?_sequence {code : Text} (hcode : code.all Char.isDigit = true) (rest : Text) :
    dropColor? ('\x1b' :: '[' :: (code ++ 'm' :: rest)) = some rest := by
  have hnumbers : ∀ c ∈ code, (c.isDigit || c == ';') = true := fun c hc => by
    rw [List.all_eq_true.1 hcode c hc, Bool.true_or]
  rw [dropColor?, List.dropWhile_append_of_pos hnumbers, List.dropWhile_cons_of_neg (by decide)]
  rfl

/-- A coloured text without an escape of its own. -/
theorem decolors_colored {code t : Text} (hcode : code.all Char.isDigit = true)
    (ht : escape ∉ t) : Decolors (colored code t) t := by
  intro rest
  have hset : colored code t ++ rest = '\x1b' :: '[' :: (code ++ 'm' :: (t ++
      ('\x1b' :: '[' :: (['0'] ++ 'm' :: rest)))) := by
    simp [colored]
  rw [hset, withoutColors_of_dropColor? (dropColor?_sequence hcode _), decolors_of_free ht,
    withoutColors_of_dropColor? (dropColor?_sequence (by decide) _)]

/-! ## The pieces of a report -/

/-- An escape is none of the characters that a document may have. -/
theorem escape_not_mem_of_allowed {t : Text} (h : Markup.Allowed t) : escape ∉ t := by
  intro hmem
  have hallowed := Markup.allowed_iff.1 h escape hmem
  revert hallowed
  decide

theorem escape_not_mem_ofNat (n : Nat) : escape ∉ Text.ofNat n :=
  escape_not_mem_of_allowed (allowed_ofNat n)

theorem escape_not_mem_timestamp (t : Instant) : escape ∉ t.timestamp.plain := by
  have htwo : ∀ n, escape ∉ twoDigits n := fun n =>
    escape_not_mem_of_allowed (allowed_padStart 2 n)
  have hyear : ∀ year, escape ∉ yearText year := by
    intro year
    have hdigits := escape_not_mem_of_allowed (allowed_padStart 4 year.natAbs)
    have hminus : escape ≠ '-' := by decide
    have hplus : escape ≠ '+' := by decide
    unfold yearText
    dsimp only
    split
    · simp [hdigits, hminus]
    · split
      · simp [hdigits, hplus]
      · exact hdigits
  have hmarks : escape ∉ ("-T:Z" : Text) := by decide
  simp only [String.reduceToList, List.mem_cons, List.not_mem_nil, or_false, not_or] at hmarks
  simp [Instant.timestamp, Instant.clockText, Date.text, htwo, hyear, hmarks]

theorem escape_not_mem_indented {t : Text} (h : escape ∉ t) : escape ∉ indented t := by
  intro hmem
  obtain ⟨line, hline, hmem⟩ := List.mem_flatMap.1 hmem
  rw [List.mem_append, List.mem_append] at hmem
  rcases hmem with (hmem | hmem) | hmem
  · exact absurd hmem (by decide)
  · exact h (Text.subset_of_mem_lines hline hmem)
  · exact absurd hmem (by decide)

namespace TerminalStyle

variable (style : TerminalStyle)

def withColor : TerminalStyle := { style with color := true }

def withoutColor : TerminalStyle := { style with color := false }

theorem escape_not_mem_timeNote (time : UInt64) : escape ∉ style.timeNote time := by
  have hopening : escape ∉ (" (" : Text) := by decide
  have hclosing : escape ∉ ("ms)" : Text) := by decide
  unfold timeNote
  split
  · simp only [List.mem_append, hopening, escape_not_mem_ofNat, hclosing, or_self,
      not_false_eq_true]
  · exact List.not_mem_nil

theorem escape_not_mem_content {f : Finding} (h : ∀ t ∈ f.texts, escape ∉ t) :
    escape ∉ (style.content f).1 ∧ escape ∉ (style.content f).2 := by
  have hcolon : escape ≠ ':' ∧ escape ≠ ' ' := by decide
  have hnote := style.escape_not_mem_timeNote
  obtain ⟨kind, target, outcome⟩ := f
  cases outcome <;>
    simp only [Finding.texts, Outcome.texts, List.forall_mem_cons] at h <;>
    unfold content <;>
    dsimp only
  case pass message time =>
    obtain ⟨htarget, hmessage, -⟩ := h
    refine ⟨?_, List.not_mem_nil⟩
    split <;> simp [htarget, hcolon, hmessage, hnote]
  case warn message details =>
    obtain ⟨htarget, hmessage, hdetails, -⟩ := h
    refine ⟨by simp [htarget, hcolon, hmessage], ?_⟩
    split <;> simp [hdetails]
  case fail message details time =>
    obtain ⟨-, hmessage, hdetails, -⟩ := h
    exact ⟨by simp [hmessage, hnote], hdetails⟩
  case skip reason =>
    obtain ⟨htarget, hreason, -⟩ := h
    exact ⟨by simp [htarget, hcolon, hreason], List.not_mem_nil⟩

theorem decolors_label (o : Outcome) :
    Decolors (style.withColor.label o) (style.withoutColor.label o) := by
  have hcode : o.colorCode.all Char.isDigit = true := by
    cases o <;> rfl
  have hlabel : escape ∉ o.label := by
    cases o <;> exact of_decide_eq_true rfl
  exact decolors_colored hcode hlabel

theorem decolors_entry {f : Finding} (h : ∀ t ∈ f.texts, escape ∉ t) :
    Decolors (style.withColor.entry f) (style.withoutColor.entry f) := by
  obtain ⟨hline, hbelow⟩ := style.escape_not_mem_content h
  have hspaces : escape ∉ ("  " : Text) := by decide
  have hspace : escape ∉ (" " : Text) := by decide
  have hnewline : escape ∉ ("\n" : Text) := by decide
  exact (((((decolors_of_free hspaces).append (style.decolors_label f.outcome)).append
    (decolors_of_free hspace)).append (decolors_of_free hline)).append
    (decolors_of_free hnewline)).append (decolors_of_free (escape_not_mem_indented hbelow))

theorem decolors_sectionOf (kind : CheckKind) {findings : List Finding}
    (h : ∀ f ∈ findings, ∀ t ∈ f.texts, escape ∉ t) :
    Decolors (style.withColor.sectionOf kind findings)
      (style.withoutColor.sectionOf kind findings) := by
  have hshows : style.withColor.shows = style.withoutColor.shows := rfl
  rw [sectionOf_eq, sectionOf_eq, hshows]
  split
  · exact fun rest => rfl
  · have hheading : escape ∉ kind.heading := by
      cases kind <;> decide
    have hnewline : escape ∉ ("\n" : Text) := by decide
    have hshown : ∀ f ∈ findings.filter style.withoutColor.shows,
        Decolors (style.withColor.entry f) (style.withoutColor.entry f) :=
      fun f hf => style.decolors_entry (h f (List.mem_filter.1 hf).1)
    exact (((decolors_of_free hheading).append (decolors_of_free hnewline)).append
      (Decolors.flatMap hshown)).append (decolors_of_free hnewline)

end TerminalStyle

namespace Report

variable {r : Report}

theorem escape_not_mem_divider : escape ∉ divider := fun hmem => by
  cases List.eq_of_mem_replicate hmem

theorem escape_not_mem_terminalHead (h : escape ∉ r.baseDir) (t : Instant) :
    escape ∉ r.terminalHead t.timestamp := by
  unfold terminalHead
  simp only [List.mem_append, not_or, and_assoc]
  exact ⟨escape_not_mem_divider, by decide, h, by decide, escape_not_mem_timestamp t, by decide,
    escape_not_mem_divider, by decide⟩

theorem escape_not_mem_terminalFoot (r : Report) : escape ∉ r.terminalFoot := by
  have hseconds : escape ∉ secondsText 1 r.time :=
    escape_not_mem_of_allowed (allowed_secondsText 1 r.time)
  have hverdict : escape ∉ r.summary.verdict := by
    unfold Summary.verdict
    split <;> decide
  unfold terminalFoot
  simp only [List.mem_append, not_or, and_assoc]
  exact ⟨escape_not_mem_divider, by decide, escape_not_mem_ofNat _, by decide,
    escape_not_mem_ofNat _, by decide, escape_not_mem_ofNat _, by decide, escape_not_mem_ofNat _,
    by decide, hseconds, by decide, escape_not_mem_ofNat _, by decide, hverdict, by decide,
    escape_not_mem_divider⟩

/-- Without its colours a report is the report that has none. -/
theorem withoutColors_terminal (h : r.IsEscapeFree) (style : TerminalStyle) (t : Instant) :
    withoutColors (r.terminal style.withColor t.timestamp) =
      r.terminal style.withoutColor t.timestamp := by
  have hbody : Decolors (r.terminalBody style.withColor) (r.terminalBody style.withoutColor) :=
    Decolors.flatMap fun kind _ => style.decolors_sectionOf kind fun f hf =>
      h.findings f ((List.mem_filter.1 hf).1)
  exact (((decolors_of_free (escape_not_mem_terminalHead h.baseDir t)).append hbody).append
    (decolors_of_free (escape_not_mem_terminalFoot r))).eq

end Report

end SourceAudit
