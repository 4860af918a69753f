import SourceAudit.Run.Basic
import Mathlib.Data.List.Basic

/-!
# Chunks by position

A list that is cut into chunks of `size` elements has its element `i` in chunk `i / size`, and that
chunk begins at position `i / size * size`. So what is done chunk by chunk can be told element by
element.

    (chunks size l)[k]? = the piece of `l` at k * size, if `l` goes so far        (getElem?_chunks)
    (chunks size l).flatMap (fun chunk => chunk.map (f chunk)) =
      l.mapIdx fun i x => f (chunkAt size i l) x                               (flatMap_chunks_map)
-/

namespace SourceAudit

variable {α β : Type} {size : Nat}

/-- The chunk that holds position `i`. -/
def chunkAt (size i : Nat) (l : List α) : List α := (l.drop (i / size * size)).take size

/-! ## Lemmas -/

theorem chunks_eq_cons (hs : 0 < size) {l : List α} (hl : l ≠ []) :
    chunks size l = l.take size :: chunks size (l.drop size) := by
  obtain ⟨x, rest, rfl⟩ := List.exists_cons_of_ne_nil hl
  have hsize : size = size - 1 + 1 := by omega
  rw [chunks, hsize, List.take_succ_cons, List.drop_succ_cons]
  rfl

theorem getElem?_chunks (hs : 0 < size) (l : List α) (k : Nat) :
    (chunks size l)[k]? =
      if k * size < l.length then some ((l.drop (k * size)).take size) else none := by
  induction k generalizing l with
  | zero =>
    by_cases hl : l = []
    · simp [hl, chunks]
    · have hpos : 0 < l.length := List.length_pos_iff.2 hl
      simp [chunks_eq_cons hs hl, hpos]
  | succ k ih =>
    have hmul : (k + 1) * size = k * size + size := Nat.succ_mul k size
    by_cases hl : l = []
    · simp [hl, chunks]
    · rw [chunks_eq_cons hs hl, List.getElem?_cons_succ, ih, List.drop_drop, List.length_drop, hmul,
        Nat.add_comm size]
      by_cases hlt : k * size + size < l.length
      · rw [if_pos hlt, if_pos (by omega)]
      · rw [if_neg hlt, if_neg (by omega)]

/-- There are as many chunks as multiples of their size below the length of the list. -/
theorem lt_length_chunks_iff (hs : 0 < size) {l : List α} {k : Nat} :
    k < (chunks size l).length ↔ k * size < l.length := by
  rw [← not_iff_not, Nat.not_lt, ← List.getElem?_eq_none_iff, getElem?_chunks hs]
  by_cases hk : k * size < l.length
  · simp [hk]
  · simp [hk]

/-- A chunk is the one of each position that it holds. -/
theorem getElem?_chunks_div (hs : 0 < size) {l : List α} {i : Nat} (hi : i < l.length) :
    (chunks size l)[i / size]? = some (chunkAt size i l) := by
  have hle : i / size * size ≤ i := Nat.div_mul_le_self i size
  rw [getElem?_chunks hs, if_pos (by omega)]
  rfl

theorem chunkAt_of_lt {i : Nat} (hi : i < size) (l : List α) : chunkAt size i l = l.take size := by
  rw [chunkAt, Nat.div_eq_of_lt hi, Nat.zero_mul, List.drop_zero]

theorem chunkAt_drop {i : Nat} (hs : 0 < size) (hi : size ≤ i) (l : List α) :
    chunkAt size (i - size) (l.drop size) = chunkAt size i l := by
  have hstart : size + (i - size) / size * size = i / size * size := by
    have hdiv : i / size = (i - size) / size + 1 := Nat.div_eq_sub_div hs hi
    rw [hdiv, Nat.succ_mul, Nat.add_comm]
  rw [chunkAt, List.drop_drop, hstart]
  rfl

theorem chunkAt_map (f : α → β) (size i : Nat) (l : List α) :
    chunkAt size i (l.map f) = (chunkAt size i l).map f := by
  rw [chunkAt, chunkAt, ← List.map_drop, ← List.map_take]

theorem mem_chunkAt (hs : 0 < size) {l : List α} {i : Nat} {x : α} (h : l[i]? = some x) :
    x ∈ chunkAt size i l := by
  have hsplit : i / size * size + i % size = i := Nat.div_add_mod' i size
  have hmod : i % size < size := Nat.mod_lt i hs
  apply List.mem_of_getElem? (i := i % size)
  rw [chunkAt, List.getElem?_take_of_lt hmod, List.getElem?_drop, hsplit, h]

theorem flatMap_chunks_map (hs : 0 < size) (f : List α → α → β) (l : List α) :
    (chunks size l).flatMap (fun chunk => chunk.map (f chunk)) =
      l.mapIdx fun i x => f (chunkAt size i l) x := by
  -- the first chunk, and then what is left of the list behind it
  induction hn : l.length using Nat.strongRecOn generalizing l with
  | _ n ih =>
    by_cases hl : l = []
    · simp [hl, chunks]
    · have hpos : 0 < l.length := List.length_pos_iff.2 hl
      have hrest := ih (l.drop size).length (by rw [List.length_drop]; omega) (l.drop size) rfl
      rw [chunks_eq_cons hs hl, List.flatMap_cons, hrest]
      apply List.ext_getElem?
      intro i
      rw [List.getElem?_append, List.length_map, List.length_take, List.getElem?_mapIdx,
        List.getElem?_mapIdx]
      by_cases hi : i < size
      · rw [chunkAt_of_lt hi]
        by_cases hlen : i < l.length
        · rw [if_pos (by omega), List.getElem?_map, List.getElem?_take_of_lt hi]
        · have hdrop : l.drop size = [] := List.drop_eq_nil_of_le (by omega)
          have hnone : l[i]? = none := List.getElem?_eq_none (by omega)
          rw [if_neg (by omega), hdrop, List.getElem?_nil, hnone]
          rfl
      · rw [if_neg (by omega), List.getElem?_drop]
        by_cases hlen : size ≤ l.length
        · have hmin : min size l.length = size := by omega
          rw [hmin, chunkAt_drop hs (by omega)]
          congr 2
          omega
        · have hnone : l[i]? = none := List.getElem?_eq_none (by omega)
          rw [hnone, List.getElem?_eq_none (by omega)]
          rfl

end SourceAudit
