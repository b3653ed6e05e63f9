import InsertLayout.Proofs.Seek
import InsertLayout.Quote.Needle

/-!
# Unquoted occurrences of a text, and splitting at a character

`Text.Avoids quotes n t`: the text `n` occurs nowhere unquoted in `t`. `cut?_char_eq_some_iff` says
where a text is cut at a character; `split_append_cons` and `split_of_avoids` are the equations of
splitting at one, over which `split_induction` goes. Each piece stands in the text between balanced
surroundings (`exists_of_mem_split`).
-/

set_option autoImplicit false

namespace InsertLayout

variable {quotes : QuoteSet}

/-- A character between two joined texts stands in one of them. -/
theorem append_eq_append_cons {u v a z : Text} {c : Char} (h : u ++ v = a ++ c :: z) :
    (∃ z', u = a ++ c :: z' ∧ z = z' ++ v) ∨ ∃ a', a = u ++ a' ∧ v = a' ++ c :: z := by
  rcases List.append_eq_append_iff.1 h with ⟨a', ha, hv⟩ | ⟨b, rfl, hb⟩
  · exact .inr ⟨a', ha, hv⟩
  · rcases List.cons_eq_append_iff.1 hb with ⟨rfl, rfl⟩ | ⟨z', rfl, rfl⟩
    · exact .inr ⟨[], by simp, rfl⟩
    · exact .inl ⟨z', rfl, rfl⟩

/-! ## Texts that another one avoids -/

/-- The text `n` occurs nowhere outside quotes. -/
def Text.Avoids (quotes : QuoteSet) (n t : Text) : Prop :=
  ∀ a b, t = a ++ n ++ b → ¬ Balanced quotes a

namespace Text

theorem Avoids.left {n s t : Text} (h : Avoids quotes n (s ++ t)) : Avoids quotes n s :=
  fun a b he => h a (b ++ t) (by rw [he]; simp)

theorem Avoids.right {n s t : Text} (hs : Balanced quotes s) (h : Avoids quotes n (s ++ t)) :
    Avoids quotes n t :=
  fun a b he ha => h (s ++ a) b (by rw [he]; simp) (hs.append ha)

theorem avoids_of_notMem {c : Char} {n t : Text} (hc : c ∈ n) (h : c ∉ t) : Avoids quotes n t :=
  fun a b he _ => h (by rw [he]; simp [hc])

theorem Avoids.append_char {c : Char} {s t : Text} (hb : Balanced quotes s)
    (hs : Avoids quotes [c] s) (ht : Avoids quotes [c] t) : Avoids quotes [c] (s ++ t) := by
  intro a b he ha
  rw [List.append_assoc] at he
  rcases append_eq_append_cons he with ⟨v, rfl, -⟩ | ⟨u, rfl, hu⟩
  · exact hs a v (by simp) ha
  · exact ht u b (by simpa using hu) ((balanced_append_iff hb).1 ha)

theorem Avoids.append_notMem {c : Char} {s t : Text} (hs : Avoids quotes [c] s) (ht : c ∉ t) :
    Avoids quotes [c] (s ++ t) := by
  intro a b he ha
  rw [List.append_assoc] at he
  rcases append_eq_append_cons he with ⟨v, rfl, -⟩ | ⟨u, -, hu⟩
  · exact hs a v (by simp) ha
  · exact ht (by rw [hu]; simp)

/-- The end of a statement does not arise where two texts meet, unless the first one ends with its
parenthesis and the second one starts with its semicolon. -/
theorem Avoids.append_end {s t : Text} (hb : Balanced quotes s)
    (hs : Avoids quotes [')', ';'] s) (ht : Avoids quotes [')', ';'] t)
    (hmeet : t.head? ≠ some ';' ∨ s.getLast? ≠ some ')') : Avoids quotes [')', ';'] (s ++ t) := by
  intro a b he ha
  rw [List.append_assoc] at he
  rcases List.append_eq_append_iff.1 he with ⟨u, rfl, hu⟩ | ⟨u, rfl, hu⟩
  · exact ht u b (by simpa using hu) ((balanced_append_iff hb).1 ha)
  · rcases u with _ | ⟨x, _ | ⟨y, u⟩⟩
    · exact ht [] b hu.symm rfl
    · obtain ⟨rfl, rfl⟩ := by simpa using hu
      rcases hmeet with hhead | hlast
      · exact hhead rfl
      · exact hlast (by simp)
    · obtain ⟨rfl, rfl, hu⟩ := by simpa using hu
      exact hs a u (by simp) ha

end Text

open Text

/-! ## Needles compared exactly -/

namespace Needle

theorem afterChars?_append {needle : Needle} (hcase : needle.ignoreCase = false) (n t : Text) :
    needle.afterChars? n (n ++ t) = some t := by
  induction n with
  | nil => rfl
  | cons a n ih => simpa [afterChars?, same, hcase] using ih

theorem after?_eq_some_iff {needle : Needle} (hcase : needle.ignoreCase = false)
    (hne : needle.chars ≠ []) {t rest : Text} :
    needle.after? t = some rest ↔ t = needle.chars ++ rest := by
  refine ⟨eq_append_of_after? hcase, ?_⟩
  rintro rfl
  rw [after?, if_neg (by simpa using hne), afterChars?_append hcase]

/-- A needle is found at the front of the texts that start with it. -/
theorem prefix_iff {needle : Needle} (hcase : needle.ignoreCase = false)
    (hne : needle.chars ≠ []) (t : Text) :
    needle.chars <+: t ↔ ∃ rest, needle.after? t = some rest := by
  constructor
  · rintro ⟨rest, rfl⟩
    exact ⟨rest, (after?_eq_some_iff hcase hne).2 rfl⟩
  · rintro ⟨rest, h⟩
    exact ⟨rest, ((after?_eq_some_iff hcase hne).1 h).symm⟩

/-- A needle of one character is missed by the texts that avoid it. -/
theorem misses_char_iff {c : Char} {t rest : Text} :
    Misses quotes (Needle.char c).after? .unquoted t rest ↔ Avoids quotes [c] t := by
  have hafter := @after?_eq_some_iff (Needle.char c) rfl (by simp [Needle.char])
  constructor
  · intro h a b he ha
    have hnone := h a (c :: b) (by rw [he]; simp) (by simp) ha
    rw [hafter.2 (by rfl : c :: b ++ rest = [c] ++ (b ++ rest))] at hnone
    cases hnone
  · intro h a b he hb ha
    cases hsome : (Needle.char c).after? (b ++ rest) with
    | none => rfl
    | some r =>
      obtain ⟨d, b, rfl⟩ := List.exists_cons_of_ne_nil hb
      obtain ⟨rfl, -⟩ : d = c ∧ _ := by simpa [Needle.char] using hafter.1 hsome
      exact absurd ha (h a b (by rw [he]; simp))

theorem cut?_char_eq_none_iff {c : Char} {t : Text} :
    (Needle.char c).cut? quotes t = none ↔ Avoids quotes [c] t :=
  seek?_eq_none_iff.trans misses_char_iff

instance (c : Char) (t : Text) : Decidable (Avoids quotes [c] t) :=
  decidable_of_iff _ cut?_char_eq_none_iff

theorem cut?_char_eq_some_iff {c : Char} {t before rest : Text} :
    (Needle.char c).cut? quotes t = some (before, rest) ↔
      t = before ++ c :: rest ∧ Balanced quotes before ∧ Avoids quotes [c] before := by
  have hafter := @after?_eq_some_iff (Needle.char c) rfl (by simp [Needle.char])
  constructor
  · intro h
    obtain ⟨u, rfl, -, hmiss, hscan, hu⟩ := seek?_eq_some_iff.1 h
    exact ⟨by rw [hafter.1 hu]; rfl, hscan, misses_char_iff.1 hmiss⟩
  · rintro ⟨rfl, hbal, havoid⟩
    exact seek?_eq_some_iff.2
      ⟨c :: rest, rfl, by simp, misses_char_iff.2 havoid, hbal, hafter.2 rfl⟩

/-! ## Splitting at a character -/

theorem split_of_avoids {c : Char} {t : Text} (h : Avoids quotes [c] t) :
    (Needle.char c).split quotes t = [t] := by
  have hnone : ((Needle.char c).cutter quotes).next? t = none := cut?_char_eq_none_iff.2 h
  rw [split, Cutter.run_of_none hnone]
  rfl

theorem split_append_cons {c : Char} {a : Text} (ha : Balanced quotes a)
    (havoid : Avoids quotes [c] a) (t : Text) :
    (Needle.char c).split quotes (a ++ c :: t) = a :: (Needle.char c).split quotes t := by
  have hsome : ((Needle.char c).cutter quotes).next? (a ++ c :: t) = some (a, t) :=
    cut?_char_eq_some_iff.2 ⟨rfl, ha, havoid⟩
  rw [split, Cutter.run_of_some hsome]
  rfl

/-- Induction along the unquoted occurrences of a character. -/
theorem split_induction (quotes : QuoteSet) (c : Char) {motive : Text → Prop}
    (last : ∀ t, Avoids quotes [c] t → motive t)
    (more : ∀ a t, Balanced quotes a → Avoids quotes [c] a → motive t → motive (a ++ c :: t))
    (t : Text) : motive t := by
  induction h : t.length using Nat.strongRecOn generalizing t with
  | ind n ih =>
    subst h
    cases hcut : (Needle.char c).cut? quotes t with
    | none => exact last t (cut?_char_eq_none_iff.1 hcut)
    | some p =>
      obtain ⟨rfl, hbal, havoid⟩ := cut?_char_eq_some_iff.1 hcut
      exact more _ _ hbal havoid (ih _ (length_lt_of_cut? hcut) _ rfl)

theorem split_ne_nil (c : Char) (t : Text) : (Needle.char c).split quotes t ≠ [] := by
  induction t using split_induction quotes c with
  | last t h => simp [split_of_avoids h]
  | more a t ha havoid _ => simp [split_append_cons ha havoid]

/-- A piece that is not the last one ends where the character stands. -/
theorem exists_of_mem_dropLast_split {c : Char} (hc : c ∉ quotes) {t p : Text}
    (h : p ∈ ((Needle.char c).split quotes t).dropLast) :
    ∃ x y, t = x ++ p ++ c :: y ∧ Balanced quotes x ∧ Balanced quotes p := by
  induction t using split_induction quotes c with
  | last t havoid => simp [split_of_avoids havoid] at h
  | more a t ha havoid ih =>
    rw [split_append_cons ha havoid, List.dropLast_cons_of_ne_nil (split_ne_nil c t)] at h
    rcases List.mem_cons.1 h with rfl | h
    · exact ⟨[], t, rfl, rfl, ha⟩
    · obtain ⟨x, y, rfl, hx, hp⟩ := ih h
      exact ⟨a ++ c :: x, y, by simp, ha.append ((balanced_cons_iff hc).2 hx), hp⟩

/-- A piece stands in the text behind a balanced part, and ends at the character or the end. -/
theorem exists_of_mem_split {c : Char} (hc : c ∉ quotes) {t p : Text}
    (h : p ∈ (Needle.char c).split quotes t) :
    Avoids quotes [c] p ∧ ∃ x y, t = x ++ p ++ y ∧ Balanced quotes x ∧
      (y = [] ∨ Balanced quotes p ∧ y.head? = some c) := by
  induction t using split_induction quotes c with
  | last t havoid =>
    obtain rfl : p = t := by simpa [split_of_avoids havoid] using h
    exact ⟨havoid, [], [], by simp, rfl, .inl rfl⟩
  | more a t ha havoid ih =>
    rw [split_append_cons ha havoid] at h
    rcases List.mem_cons.1 h with rfl | h
    · exact ⟨havoid, [], c :: t, rfl, rfl, .inr ⟨ha, rfl⟩⟩
    · obtain ⟨hp, x, y, rfl, hx, hy⟩ := ih h
      exact ⟨hp, a ++ c :: x, y, by simp, ha.append ((balanced_cons_iff hc).2 hx), hy⟩

/-- The pieces of a balanced text are balanced. -/
theorem balanced_of_mem_split {c : Char} (hc : c ∉ quotes) {t p : Text} (ht : Balanced quotes t)
    (h : p ∈ (Needle.char c).split quotes t) : Balanced quotes p := by
  obtain ⟨-, x, y, rfl, hx, rfl | ⟨hp, -⟩⟩ := exists_of_mem_split hc h
  · rw [List.append_nil] at ht
    exact (balanced_append_iff hx).1 ht
  · exact hp

/-- Blanks behind a text only go to its last piece. -/
theorem map_trim_split_append {c : Char} (hc : isBlank c = false) {b : Text} (hb : Blank b)
    (t : Text) :
    ((Needle.char c).split quotes (t ++ b)).map trim =
      ((Needle.char c).split quotes t).map trim := by
  induction t using split_induction quotes c with
  | last t h =>
    rw [split_of_avoids h, split_of_avoids (h.append_notMem (hb.notMem hc))]
    simp [trim_append hb]
  | more a t ha h ih =>
    rw [List.append_assoc, List.cons_append, split_append_cons ha h, split_append_cons ha h,
      List.map_cons, List.map_cons, ih]

end Needle

end InsertLayout
