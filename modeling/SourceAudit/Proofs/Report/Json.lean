import SourceAudit.Proofs.Json.Reading
import SourceAudit.Report.Json

/-!
# A report comes back from its document

All numbers of a report are whole and written without a zero in front, so either layout of its
document is read as the same value, and the value tells the report: where it ran, how long it took
and every finding with all that its outcome says. Two reports that differ have no document in
common.

    ∃ j, read? pretty = some j ∧ read? compact = some j ∧ Report.ofJson? j = some r
                                                                          (report_of_document)
-/

namespace SourceAudit

/-- The counts that a document tells. -/
def Summary.ofJson? (j : Json) : Option Summary := do
  let count (key : Text) : Option UInt32 := j.member? key >>= Json.uint32?
  return ⟨← count "passed", ← count "warned", ← count "failed", ← count "skipped",
    ← count "total", ← j.member? "total_duration_ms" >>= Json.uint64?⟩

/-- Is this a layout of the document of a report? -/
def Report.WrittenAs (r : Report) (document : Text) : Prop :=
  ∃ timestamp, document = (r.toJson timestamp).pretty ∨ document = (r.toJson timestamp).compact

/-! ## Numerals -/

/-- Only nought begins with a nought. -/
theorem Text.head?_ofNat_ne {n : Nat} (h : n ≠ 0) : (Text.ofNat n).head? ≠ some '0' := by
  induction n using Nat.strongRecOn with
  | ind n ih =>
    rw [Text.ofNat]
    by_cases hlt : n < 10
    · have hdigit : ∀ m < 10, m ≠ 0 → [Nat.digitChar m].head? ≠ some '0' := by decide
      rw [Nat.toDigits_of_lt_base hlt]
      exact hdigit n hlt h
    · have hfront : (Nat.toDigits 10 (n / 10)).head? ≠ some '0' :=
        ih (n / 10) (by omega) (by omega)
      obtain ⟨c, rest, hc⟩ : ∃ c rest, Nat.toDigits 10 (n / 10) = c :: rest :=
        List.exists_cons_of_ne_nil Nat.toDigits_ne_nil
      rw [Nat.toDigits_of_base_le (by decide) (by omega), hc, List.cons_append]
      rwa [hc] at hfront

theorem Text.isDigit_of_mem_ofNat {n : Nat} {c : Char} (h : c ∈ Text.ofNat n) :
    c.isDigit = true :=
  Nat.isDigit_of_mem_toDigits (by decide) (by decide) h

namespace Json

theorem isWhole_ofNat (n : Nat) : isWhole (Text.ofNat n) = true := by
  have hempty : (Text.ofNat n).isEmpty = false := List.isEmpty_eq_false_iff.2 Nat.toDigits_ne_nil
  have hdigits : isDigits (Text.ofNat n) = true := by
    rw [isDigits, hempty]
    exact List.all_eq_true.2 fun c hc => Text.isDigit_of_mem_ofNat hc
  rw [isWhole, hdigits, Bool.true_and]
  by_cases hn : n = 0
  · rw [hn]
    rfl
  · rw [bne_iff_ne.2 (Text.head?_ofNat_ne hn), Bool.or_true]

theorem isNumeral_ofNat (n : Nat) : isNumeral (Text.ofNat n) = true := by
  have hdigits : ∀ c ∈ Text.ofNat n, c.isDigit = true := fun c => Text.isDigit_of_mem_ofNat
  have hmagnitude : isMagnitude (Text.ofNat n) = true := by
    have htake : (Text.ofNat n ++ []).takeWhile Char.isDigit = Text.ofNat n ++ [] :=
      List.takeWhile_append_of_pos hdigits
    have hdrop : (Text.ofNat n ++ []).dropWhile Char.isDigit = [] :=
      List.dropWhile_append_of_pos hdigits
    rw [List.append_nil] at htake hdrop
    rw [isMagnitude, htake, hdrop, isWhole_ofNat]
    rfl
  unfold isNumeral
  split
  · next rest h =>
    have hminus := hdigits '-' (h ▸ List.mem_cons_self)
    cases hminus
  · exact hmagnitude

theorem numeric_ofNat (n : Nat) : (ofNat n).Numeric := .number (isNumeral_ofNat n)

end Json

/-! ## The numbers of a report -/

theorem Outcome.numeric_toJson (o : Outcome) : o.toJson.Numeric := by
  cases o with
  | pass message time =>
    refine .object ?_
    simp only [List.forall_mem_cons]
    exact ⟨.text _, .text _, Json.numeric_ofNat time.toNat, nofun⟩
  | warn message details =>
    refine .object ?_
    simp only [List.forall_mem_cons]
    exact ⟨.text _, .text _, .text _, nofun⟩
  | fail message details time =>
    refine .object ?_
    simp only [List.forall_mem_cons]
    exact ⟨.text _, .text _, .text _, Json.numeric_ofNat time.toNat, nofun⟩
  | skip reason =>
    refine .object ?_
    simp only [List.forall_mem_cons]
    exact ⟨.text _, .text _, nofun⟩

theorem Finding.numeric_toJson (f : Finding) : f.toJson.Numeric := by
  refine .object ?_
  simp only [List.forall_mem_cons]
  exact ⟨.text _, .text _, f.outcome.numeric_toJson, nofun⟩

theorem Summary.numeric_toJson (s : Summary) : s.toJson.Numeric := by
  refine .object ?_
  simp only [List.forall_mem_cons]
  exact ⟨Json.numeric_ofNat _, Json.numeric_ofNat _, Json.numeric_ofNat _, Json.numeric_ofNat _,
    Json.numeric_ofNat _, Json.numeric_ofNat _, nofun⟩

theorem Report.numeric_toJson (r : Report) (timestamp : Timestamp) :
    (r.toJson timestamp).Numeric := by
  refine .object ?_
  simp only [List.forall_mem_cons]
  refine ⟨.text _, .text _, Json.numeric_ofNat _, .boolean _, r.summary.numeric_toJson,
    .array ?_, nofun⟩
  intro item hitem
  obtain ⟨f, -, rfl⟩ := List.mem_map.1 hitem
  exact f.numeric_toJson

/-! ## The verdict in a document -/

theorem Summary.ofJson?_toJson (s : Summary) : Summary.ofJson? s.toJson = some s := by
  show ((Json.ofNat s.passed.toNat).uint32?.bind fun passed =>
    (Json.ofNat s.warned.toNat).uint32?.bind fun warned =>
    (Json.ofNat s.failed.toNat).uint32?.bind fun failed =>
    (Json.ofNat s.skipped.toNat).uint32?.bind fun skipped =>
    (Json.ofNat s.total.toNat).uint32?.bind fun total =>
    (Json.ofNat s.time.toNat).uint64?.bind fun time =>
      some (Summary.mk passed warned failed skipped total time)) = _
  simp only [Json.uint32?_toNat, Json.uint64?_toNat, Option.bind_some]

theorem Report.member?_passed (r : Report) (timestamp : Timestamp) :
    ((r.toJson timestamp).member? "passed" >>= Json.boolean?) = some r.passed := rfl

theorem Report.member?_summary (r : Report) (timestamp : Timestamp) :
    ((r.toJson timestamp).member? "summary" >>= Summary.ofJson?) = some r.summary :=
  r.summary.ofJson?_toJson

theorem Report.WrittenAs.read? {r : Report} {document : Text} (h : r.WrittenAs document) :
    ∃ timestamp, Json.read? document = some (r.toJson timestamp) := by
  obtain ⟨timestamp, rfl | rfl⟩ := h
  · exact ⟨timestamp, Json.read?_pretty (r.numeric_toJson timestamp)⟩
  · exact ⟨timestamp, Json.read?_compact (r.numeric_toJson timestamp)⟩

/-! ## Top theorem -/

/-- Both layouts of a report's document are read as one value, which tells the report and, beside
it, the report's own verdict and counts. No document, in whatever layout and with whatever
timestamp, is that of two reports. -/
theorem report_of_document (r : Report) (timestamp : Timestamp) :
    (∃ j, Json.read? (r.toJson timestamp).pretty = some j ∧
      Json.read? (r.toJson timestamp).compact = some j ∧
      Report.ofJson? j = some r ∧
      (j.member? "passed" >>= Json.boolean?) = some r.passed ∧
      (j.member? "summary" >>= Summary.ofJson?) = some (Summary.ofFindings r.findings)) ∧
    ∀ s : Report, (∃ document, r.WrittenAs document ∧ s.WrittenAs document) ↔ r = s := by
  have hnumeric := r.numeric_toJson timestamp
  refine ⟨⟨r.toJson timestamp, Json.read?_pretty hnumeric, Json.read?_compact hnumeric,
    r.ofJson?_toJson timestamp, r.member?_passed timestamp, r.member?_summary timestamp⟩, ?_⟩
  intro s
  constructor
  · rintro ⟨document, hr, hs⟩
    obtain ⟨earlier, hearlier⟩ := hr.read?
    obtain ⟨later, hlater⟩ := hs.read?
    have hsame : r.toJson earlier = s.toJson later := Option.some.inj (hearlier.symm.trans hlater)
    have hback := r.ofJson?_toJson earlier
    rw [hsame, s.ofJson?_toJson later] at hback
    exact (Option.some.inj hback).symm
  · rintro rfl
    exact ⟨_, ⟨timestamp, Or.inl rfl⟩, ⟨timestamp, Or.inl rfl⟩⟩

end SourceAudit
