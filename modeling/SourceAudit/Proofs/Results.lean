import Mathlib.Data.List.Forall2
import Mathlib.Data.Option.Basic

/-!
# Results that may be failures

A list of results is the failure of the first that fails, or else all of them. Two results agree
when they are the same, or failures that tell the same in their own words.

    l.mapM f = .error e ↔ `e` is the failure of the first that fails           (mapM_eq_error_iff)
    (∀ x ∈ l, Agree R (f x) (g x)) → Agree R (l.mapM f) (l.mapM g)                   (Agree.mapM)
-/

namespace SourceAudit

/-- What is told of a result shows that there is one. -/
theorem exists_ok_of_toOption_map {α β ε : Type} {x : Except ε α} {f : α → β} {b : β}
    (h : x.toOption.map f = some b) : ∃ a, x = .ok a ∧ f a = b := by
  cases x with
  | ok a => exact ⟨a, rfl, Option.some.inj h⟩
  | error e => cases h

/-! ## Lists -/

section Lists

variable {α β ε : Type} {f g : α → Except ε β} {l : List α}

theorem mapM_congr_of_mem (h : ∀ x ∈ l, f x = g x) : l.mapM f = l.mapM g := by
  induction l with
  | nil => rfl
  | cons x rest ih =>
    rw [List.mapM_cons, List.mapM_cons, h x List.mem_cons_self,
      ih fun y hy => h y (List.mem_cons_of_mem x hy)]

theorem mapM_eq_ok_iff {ys : List β} :
    l.mapM f = .ok ys ↔ List.Forall₂ (fun x y => f x = .ok y) l ys := by
  induction l generalizing ys with
  | nil =>
    rw [List.mapM_nil, List.forall₂_nil_left_iff]
    constructor
    · intro h
      injection h with h
      exact h.symm
    · rintro rfl
      rfl
  | cons x rest ih =>
    rw [List.mapM_cons, List.forall₂_cons_left_iff]
    constructor
    · intro h
      cases hx : f x with
      | error e =>
        rw [hx] at h
        cases h
      | ok y =>
        rw [hx] at h
        cases hrest : rest.mapM f with
        | error e =>
          rw [hrest] at h
          cases h
        | ok zs =>
          rw [hrest] at h
          injection h with h
          exact ⟨y, zs, rfl, ih.1 hrest, h.symm⟩
    · rintro ⟨y, zs, hy, hzs, rfl⟩
      rw [hy, ih.2 hzs]
      rfl

/-- The first failure is the failure of the list. -/
theorem mapM_eq_error_iff {e : ε} :
    l.mapM f = .error e ↔ ∃ front x rest, l = front ++ x :: rest ∧
      (∀ y ∈ front, ∃ z, f y = .ok z) ∧ f x = .error e := by
  induction l with
  | nil =>
    refine iff_of_false nofun ?_
    rintro ⟨front, x, rest, h, -⟩
    simp at h
  | cons a l ih =>
    rw [List.mapM_cons]
    constructor
    · intro h
      cases ha : f a with
      | error d =>
        rw [ha] at h
        injection h with h
        exact ⟨[], a, l, rfl, nofun, by rw [ha, h]⟩
      | ok y =>
        rw [ha] at h
        cases hl : l.mapM f with
        | ok ys =>
          rw [hl] at h
          cases h
        | error d =>
          rw [hl] at h
          injection h with h
          rw [h] at hl
          obtain ⟨front, x, rest, rfl, hfront, hx⟩ := ih.1 hl
          exact ⟨a :: front, x, rest, rfl, List.forall_mem_cons.2 ⟨⟨y, ha⟩, hfront⟩, hx⟩
    · rintro ⟨front, x, rest, heq, hfront, hx⟩
      cases front with
      | nil =>
        injection heq with hax _
        rw [hax, hx]
        rfl
      | cons b front =>
        injection heq with hab heq
        obtain ⟨⟨y, hy⟩, hmore⟩ := List.forall_mem_cons.1 hfront
        have herror : l.mapM f = .error e := ih.2 ⟨front, x, rest, heq, hmore, hx⟩
        rw [hab, hy, herror]
        rfl

theorem exists_of_mem_mapM {ys : List β} (h : l.mapM f = .ok ys) {y : β} (hy : y ∈ ys) :
    ∃ x ∈ l, f x = .ok y := by
  obtain ⟨i, hi, rfl⟩ := List.mem_iff_getElem.1 hy
  obtain ⟨hlength, hget⟩ := List.forall₂_iff_get.1 (mapM_eq_ok_iff.1 h)
  exact ⟨l[i], List.getElem_mem _, hget i (by omega) hi⟩

theorem exists_mapM_eq_ok_iff : (∃ ys, l.mapM f = .ok ys) ↔ ∀ x ∈ l, ∃ y, f x = .ok y := by
  constructor
  · rintro ⟨ys, h⟩ x hx
    obtain ⟨i, hi, rfl⟩ := List.mem_iff_getElem.1 hx
    obtain ⟨hlength, hget⟩ := List.forall₂_iff_get.1 (mapM_eq_ok_iff.1 h)
    exact ⟨ys[i], hget i hi (by omega)⟩
  · intro hall
    cases h : l.mapM f with
    | ok ys => exact ⟨ys, rfl⟩
    | error e =>
      obtain ⟨front, x, rest, rfl, -, hx⟩ := mapM_eq_error_iff.1 h
      obtain ⟨y, hy⟩ := hall x (by simp)
      rw [hx] at hy
      cases hy

/-- Where something stops at the first of a list, the list has no result but a failure. -/
theorem mapM_eq_elim {stop : α → Option ε} {value : α → β}
    (h : ∀ x, f x = (stop x).elim (.ok (value x)) .error) (l : List α) :
    l.mapM f = (l.findSome? stop).elim (.ok (l.map value)) .error := by
  induction l with
  | nil => rfl
  | cons x rest ih =>
    rw [List.mapM_cons, h, List.findSome?_cons]
    cases stop x with
    | some e => rfl
    | none =>
      rw [ih]
      cases rest.findSome? stop <;> rfl

/-- Related ways to stop at the first of a list stop there in related ways. -/
theorem rel_findSome? {stop other : α → Option ε} {R : ε → ε → Prop}
    (h : ∀ x ∈ l, Option.Rel R (stop x) (other x)) :
    Option.Rel R (l.findSome? stop) (l.findSome? other) := by
  induction l with
  | nil => exact .none
  | cons x rest ih =>
    obtain ⟨hx, hrest⟩ := List.forall_mem_cons.1 h
    rw [List.findSome?_cons, List.findSome?_cons]
    generalize stop x = first at hx ⊢
    generalize other x = second at hx ⊢
    cases hx with
    | some hR => exact .some hR
    | none => exact ih hrest

end Lists

/-! ## Agreement -/

/-- The same result, or two failures of which the one is what the other is. -/
inductive Agree {ε α : Type} (R : ε → ε → Prop) : Except ε α → Except ε α → Prop
  | ok (x : α) : Agree R (.ok x) (.ok x)
  | error {e d : ε} (h : R e d) : Agree R (.error e) (.error d)

namespace Agree

variable {ε α β : Type} {R : ε → ε → Prop} {x y : Except ε α}

theorem map (h : Agree R x y) (f : α → β) : Agree R (f <$> x) (f <$> y) := by
  cases h with
  | ok value => exact .ok (f value)
  | error h => exact .error h

theorem bind (h : Agree R x y) {f g : α → Except ε β} (hfg : ∀ value, Agree R (f value) (g value)) :
    Agree R (x >>= f) (y >>= g) := by
  cases h with
  | ok value => exact hfg value
  | error h => exact .error h

theorem mapM {f g : α → Except ε β} {l : List α} (h : ∀ x ∈ l, Agree R (f x) (g x)) :
    Agree R (l.mapM f) (l.mapM g) := by
  induction l with
  | nil => exact .ok []
  | cons x rest ih =>
    rw [List.mapM_cons, List.mapM_cons]
    refine (h x List.mem_cons_self).bind fun value => ?_
    exact (ih fun z hz => h z (List.mem_cons_of_mem x hz)).bind fun values => .ok _

theorem ok_iff (h : Agree R x y) {value : α} : x = .ok value ↔ y = .ok value := by
  cases h with
  | ok value => exact Iff.rfl
  | error h => exact iff_of_false nofun nofun

theorem exists_error (h : Agree R x y) {e : ε} (hx : x = .error e) : ∃ d, y = .error d ∧ R e d := by
  cases h with
  | ok value => cases hx
  | error h =>
    injection hx with hx
    exact ⟨_, rfl, hx ▸ h⟩

/-- Failures that are told in the same words are the same. -/
theorem eq (h : Agree R x y) (hR : ∀ e d, R e d → e = d) : x = y := by
  cases h with
  | ok value => rfl
  | error h => rw [hR _ _ h]

end Agree

end SourceAudit
