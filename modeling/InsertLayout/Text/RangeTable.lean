/-!
# Tables of code point ranges

A property of characters is written down as the list of its code point ranges, in ascending order.
`RangeTable.contains_iff` says that looking up a code point in such a table finds it exactly when
one of the ranges covers it, and `covers_clip_iff` what is left of a table between two code points.
-/

set_option autoImplicit false

namespace InsertLayout

/-- Ranges of code points, each given by its first and its last member, in ascending order. -/
abbrev RangeTable := List (Nat × Nat)

namespace RangeTable

/-- Whether a range covers the code point; the search ends at the first range above it. -/
def contains : RangeTable → Nat → Bool
  | [], _ => false
  | (first, last) :: table, n =>
    if n < first then false else if n ≤ last then true else contains table n

/-- The parts of the ranges between two code points, both included. -/
def clip (table : RangeTable) (first last : Nat) : RangeTable :=
  (table.map fun r => (max r.1 first, min r.2 last)).filter fun r => r.1 ≤ r.2

/-- One of the ranges covers the code point. -/
def Covers (table : RangeTable) (n : Nat) : Prop := ∃ r ∈ table, r.1 ≤ n ∧ n ≤ r.2

/-- No range starts below the bound or ends before it starts, and each one ends before the next. -/
def ascendsFrom : Nat → RangeTable → Bool
  | _, [] => true
  | bound, (first, last) :: table =>
    bound ≤ first && first ≤ last && ascendsFrom (last + 1) table

theorem not_covers_nil (n : Nat) : ¬ Covers [] n := fun ⟨_, hr, _⟩ => List.not_mem_nil hr

theorem covers_cons_iff {first last : Nat} {table : RangeTable} {n : Nat} :
    Covers ((first, last) :: table) n ↔ (first ≤ n ∧ n ≤ last) ∨ Covers table n := by
  simp only [Covers, List.mem_cons, or_and_right, exists_or, exists_eq_left]

theorem ascendsFrom_cons_iff {bound first last : Nat} {table : RangeTable} :
    ascendsFrom bound ((first, last) :: table) = true ↔
      bound ≤ first ∧ first ≤ last ∧ ascendsFrom (last + 1) table = true := by
  simp only [ascendsFrom, Bool.and_eq_true, decide_eq_true_eq, and_assoc]

theorem le_of_covers {bound n : Nat} {table : RangeTable} (h : table.ascendsFrom bound = true)
    (hn : table.Covers n) : bound ≤ n := by
  induction table generalizing bound with
  | nil => exact absurd hn (not_covers_nil n)
  | cons r table ih =>
    obtain ⟨hbound, hrange, htable⟩ := ascendsFrom_cons_iff.1 h
    rcases covers_cons_iff.1 hn with hn | hn
    · omega
    · have hlast := ih htable hn
      omega

/-- In a table in ascending order, nothing is missed behind the first range above a code point. -/
theorem contains_iff {bound : Nat} {table : RangeTable} (h : table.ascendsFrom bound = true)
    (n : Nat) : table.contains n = true ↔ table.Covers n := by
  induction table generalizing bound with
  | nil => exact iff_of_false Bool.false_ne_true (not_covers_nil n)
  | cons r table ih =>
    obtain ⟨first, last⟩ := r
    obtain ⟨-, hrange, htable⟩ := ascendsFrom_cons_iff.1 h
    rw [contains, covers_cons_iff]
    split
    · have hbehind : ¬ Covers table n := fun hn => by
        have hlast := le_of_covers htable hn
        omega
      simp only [Bool.false_eq_true, hbehind, or_false, false_iff]
      omega
    · split
      · simp only [true_iff]
        exact .inl (by omega)
      · rw [ih htable]
        exact (or_iff_right (by omega)).symm

/-- A clipped table covers what the table covers between the two code points. -/
theorem covers_clip_iff {table : RangeTable} {first last n : Nat} :
    (table.clip first last).Covers n ↔ table.Covers n ∧ first ≤ n ∧ n ≤ last := by
  induction table with
  | nil => exact iff_of_false (not_covers_nil n) fun h => not_covers_nil n h.1
  | cons r table ih =>
    obtain ⟨start, stop⟩ := r
    unfold clip at ih ⊢
    rw [List.map_cons, List.filter_cons]
    split
    · have hrange : max start first ≤ n ∧ n ≤ min stop last ↔
          (start ≤ n ∧ n ≤ stop) ∧ first ≤ n ∧ n ≤ last := by omega
      rw [covers_cons_iff, covers_cons_iff, ih, hrange, or_and_right]
    · rename_i hempty
      have hnot : ¬ ((start ≤ n ∧ n ≤ stop) ∧ first ≤ n ∧ n ≤ last) := by
        simp only [decide_eq_true_eq] at hempty
        omega
      rw [covers_cons_iff, ih, or_and_right, or_iff_right hnot]

end RangeTable

end InsertLayout
