import InsertLayout.Proofs.Seek
import Mathlib.Order.Bounds.Basic

/-!
# Places of one scan

`Text.UnquotedAt quotes t p rest`: one scan of the whole text `t` is outside quotes at the byte
offset `p`, where `rest` is left. `Text.places` are the offsets of that scan at which what is left
has a property. A search starts a scan of its own, outside quotes; where it starts at a place that
is unquoted in the one scan, it finds the first place from there on (`isLeast_places_of_seek?`) or
there is none (`places_eq_empty_of_seek?`).
-/

set_option autoImplicit false

namespace InsertLayout

open Text

variable {β : Type} {quotes : QuoteSet} {P : Text → Prop} {accept? : Text → Option β}

/-! ## Unquoted offsets -/

namespace Text

/-- A scan of the whole text is outside quotes at a byte offset, with `rest` behind it. -/
def UnquotedAt (quotes : QuoteSet) (t : Text) (p : Nat) (rest : Text) : Prop :=
  ∃ front, t = front ++ rest ∧ front.byteLength = p ∧ Balanced quotes front

/-- The unquoted byte offsets at which what is left of the text has a property. -/
def places (quotes : QuoteSet) (P : Text → Prop) (t : Text) : Set Nat :=
  {p | ∃ rest, t.UnquotedAt quotes p rest ∧ P rest}

/-- What is left at an offset is determined. -/
theorem UnquotedAt.unique {t rest rest' : Text} {p : Nat} (h : t.UnquotedAt quotes p rest)
    (h' : t.UnquotedAt quotes p rest') : rest = rest' := by
  obtain ⟨front, rfl, rfl, -⟩ := h
  obtain ⟨front', heq, hlength, -⟩ := h'
  obtain ⟨v, rfl, rfl⟩ := exists_append_of_byteLength_le heq.symm hlength.le
  rw [byteLength_append] at hlength
  have hv := length_le_byteLength v
  obtain rfl : v = [] := List.length_eq_zero_iff.1 (by omega)
  rfl

theorem unquotedAt_of_balanced {front : Text} (hfront : Balanced quotes front) (rest : Text) :
    (front ++ rest).UnquotedAt quotes front.byteLength rest := ⟨front, rfl, rfl, hfront⟩

/-- Behind a balanced part of what is left at an unquoted offset stands another one. -/
theorem UnquotedAt.behind {t s rest : Text} {p : Nat} (h : t.UnquotedAt quotes p (s ++ rest))
    (hs : Balanced quotes s) : t.UnquotedAt quotes (p + s.byteLength) rest := by
  obtain ⟨front, rfl, rfl, hfront⟩ := h
  exact ⟨front ++ s, by simp, byteLength_append _ _, hfront.append hs⟩

/-- Behind an unquoted offset, the one scan is a scan of what is left there. -/
theorem UnquotedAt.exists_append {front t rest : Text} (hfront : Balanced quotes front) {p : Nat}
    (h : (front ++ t).UnquotedAt quotes p rest) (hp : front.byteLength ≤ p) :
    ∃ s, t = s ++ rest ∧ p = (front ++ s).byteLength ∧ Balanced quotes s := by
  obtain ⟨front', heq, rfl, hbalanced⟩ := h
  obtain ⟨s, rfl, rfl⟩ := exists_append_of_byteLength_le heq hp
  exact ⟨s, rfl, rfl, (balanced_append_iff hfront).1 hbalanced⟩

end Text

/-! ## Searches -/

section
variable {front t : Text} (hfront : Balanced quotes front)
include hfront

/-- No place stands in a part of the text in which a search misses everything. -/
theorem Misses.le_of_mem_places {rest : Text} (h : Misses quotes accept? .unquoted t rest)
    (hP : ∀ r, P r → ∃ found, accept? r = some found) {p : Nat}
    (hp : p ∈ (front ++ t ++ rest).places quotes P) (hle : front.byteLength ≤ p) :
    (front ++ t).byteLength ≤ p := by
  obtain ⟨r, hr, hrP⟩ := hp
  rw [List.append_assoc] at hr
  obtain ⟨s, heq, rfl, hs⟩ := hr.exists_append hfront hle
  rcases List.append_eq_append_iff.1 heq with ⟨v, rfl, -⟩ | ⟨v, rfl, rfl⟩
  · simp only [byteLength_append]
    omega
  · cases v with
    | nil => simp
    | cons c v =>
      obtain ⟨found, hfound⟩ := hP _ hrP
      rw [h s (c :: v) rfl (by simp) hs] at hfound
      cases hfound

variable (hP : ∀ r, P r ↔ ∃ found, accept? r = some found)
include hP

/-- A search from an unquoted place on finds the first place of the one scan from there on. -/
theorem isLeast_places_of_seek? {before : Text} {found : β}
    (h : seek? quotes accept? .unquoted t = some (before, found)) :
    IsLeast ((front ++ t).places quotes P ∩ Set.Ici front.byteLength)
      (front ++ before).byteLength := by
  obtain ⟨rest, rfl, -, hmiss, hbefore, hfound⟩ := seek?_eq_some_iff.1 h
  rw [← List.append_assoc]
  refine ⟨⟨?_, ?_⟩, ?_⟩
  · exact ⟨rest, unquotedAt_of_balanced (hfront.append hbefore) rest, (hP rest).2 ⟨found, hfound⟩⟩
  · simp
  · rintro p ⟨hp, hle⟩
    exact hmiss.le_of_mem_places hfront (fun r => (hP r).1) hp hle

/-- If it finds none, there is none. -/
theorem places_eq_empty_of_seek? (hnil : ¬ P [])
    (h : seek? quotes accept? .unquoted t = none) :
    (front ++ t).places quotes P ∩ Set.Ici front.byteLength = ∅ := by
  refine Set.eq_empty_iff_forall_notMem.2 ?_
  rintro p ⟨⟨r, hr, hrP⟩, hle⟩
  obtain ⟨s, rfl, rfl, hs⟩ := hr.exists_append hfront hle
  have hne : r ≠ [] := by
    rintro rfl
    exact hnil hrP
  obtain ⟨x, hx⟩ := (hP r).1 hrP
  have hnone := seek?_eq_none_iff.1 h s r rfl hne hs
  rw [List.append_nil, hx] at hnone
  cases hnone

end

end InsertLayout
