import InsertLayout.Text.Blank
import InsertLayout.Text.Width

/-!
# Trimming

`Text.Blank t`: the text `t` consists of blanks. A text is its trimmed form between two such runs
(`exists_trim`), and no other text without blanks at its ends is (`trim_eq`); so blanks around a
text do not matter to trimming (`trim_blanks`).
-/

set_option autoImplicit false

namespace InsertLayout

namespace Text

/-- Only blanks. -/
def Blank (t : Text) : Prop := ∀ c ∈ t, isBlank c = true

instance (t : Text) : Decidable t.Blank := decidable_of_iff (t.all isBlank) List.all_eq_true

theorem Blank.nil : Blank [] := fun _ h => absurd h List.not_mem_nil

theorem Blank.cons {c : Char} {t : Text} (hc : isBlank c = true) (ht : Blank t) : Blank (c :: t) :=
  List.forall_mem_cons.2 ⟨hc, ht⟩

theorem Blank.append {s t : Text} (hs : Blank s) (ht : Blank t) : Blank (s ++ t) := fun c hc =>
  (List.mem_append.1 hc).elim (hs c) (ht c)

theorem Blank.spaces (n : Nat) : Blank (spaces n) := fun c hc => by
  obtain rfl := List.eq_of_mem_replicate hc
  decide

theorem Blank.notMem {c : Char} {t : Text} (ht : Blank t) (hc : isBlank c = false) : c ∉ t :=
  fun h => by simp [ht c h] at hc

theorem blank_leadingBlanks (t : Text) : Blank t.leadingBlanks := fun c hc =>
  List.all_eq_true.1 List.all_takeWhile c hc

/-! ## The front -/

theorem trimLeft_append {b : Text} (hb : Blank b) (t : Text) : (b ++ t).trimLeft = t.trimLeft :=
  List.dropWhile_append_of_pos hb

theorem trimLeft_cons {c : Char} (h : isBlank c = false) (t : Text) :
    trimLeft (c :: t) = c :: t := by
  simp [trimLeft, h]

theorem trimLeft_blank {b : Text} (hb : Blank b) : b.trimLeft = [] := by
  simpa [trimLeft] using trimLeft_append hb []

/-- What is left starts with no blank. -/
theorem isBlank_of_trimLeft {t s : Text} {c : Char} (h : t.trimLeft = c :: s) :
    isBlank c = false := by
  have hd := List.head?_dropWhile_not isBlank t
  rw [show t.dropWhile isBlank = c :: s from h] at hd
  simpa using hd

theorem exists_trimLeft (t : Text) : ∃ b, Blank b ∧ t = b ++ t.trimLeft :=
  ⟨_, blank_leadingBlanks t, (leadingBlanks_append_trimLeft t).symm⟩

/-- Trimming the front leaves everything from a character that is no blank on. -/
theorem trimLeft_append_cons {c : Char} (h : isBlank c = false) (s t : Text) :
    (s ++ c :: t).trimLeft = s.trimLeft ++ c :: t := by
  obtain ⟨b, hb, hs⟩ := exists_trimLeft s
  rw [hs, List.append_assoc, trimLeft_append hb, trimLeft_append hb]
  cases hl : s.trimLeft with
  | nil => exact trimLeft_cons h t
  | cons d u =>
    have hd := isBlank_of_trimLeft hl
    rw [List.cons_append, trimLeft_cons hd, trimLeft_cons hd, List.cons_append]

/-! ## The end -/

theorem trimRight_eq (t : Text) : t.trimRight = (trimLeft t.reverse).reverse := rfl

theorem trimRight_append {b : Text} (hb : Blank b) (t : Text) :
    (t ++ b).trimRight = t.trimRight := by
  have hb' : Blank b.reverse := fun c hc => hb c (List.mem_reverse.1 hc)
  rw [trimRight_eq, List.reverse_append, trimLeft_append hb', trimRight_eq]

theorem trimRight_concat {c : Char} (h : isBlank c = false) (t : Text) :
    (t ++ [c]).trimRight = t ++ [c] := by
  rw [trimRight_eq, List.reverse_append, List.reverse_singleton, List.singleton_append,
    trimLeft_cons h]
  simp

/-- What is left ends with no blank. -/
theorem isBlank_of_trimRight {t s : Text} {c : Char} (h : t.trimRight = s ++ [c]) :
    isBlank c = false := by
  refine isBlank_of_trimLeft (t := t.reverse) (s := s.reverse) ?_
  rw [trimRight_eq] at h
  simpa using congrArg List.reverse h

theorem exists_trimRight (t : Text) : ∃ b, Blank b ∧ t = t.trimRight ++ b := by
  obtain ⟨b, hb, ht⟩ := exists_trimLeft t.reverse
  refine ⟨b.reverse, fun c hc => hb c (List.mem_reverse.1 hc), ?_⟩
  rw [trimRight_eq, ← List.reverse_append, ← ht, List.reverse_reverse]

/-! ## Both ends -/

/-- No blank at either end, in terms of the characters there. -/
structure Bounded (t : Text) : Prop where
  head : ∀ c s, t = c :: s → isBlank c = false
  last : ∀ s c, t = s ++ [c] → isBlank c = false

/-- The only text without blanks at its ends that another one is between two runs of blanks is
its trimmed form. -/
theorem trim_eq {a b t : Text} (ha : Blank a) (hb : Blank b) (ht : t.Bounded) :
    (a ++ t ++ b).trim = t := by
  rw [trim, List.append_assoc, trimLeft_append ha]
  rcases List.eq_nil_or_concat t with rfl | ⟨s, c, rfl⟩
  · rw [List.nil_append, trimLeft_blank hb]; rfl
  · have hl : trimLeft (s.concat c ++ b) = s.concat c ++ b := by
      cases s with
      | nil => exact trimLeft_cons (ht.head _ _ rfl) _
      | cons d s => exact trimLeft_cons (ht.head _ _ rfl) _
    rw [hl, trimRight_append hb, List.concat_eq_append,
      trimRight_concat (ht.last _ _ (List.concat_eq_append ..))]

theorem bounded_trim (t : Text) : t.trim.Bounded where
  head c s h := by
    obtain ⟨b, -, hb⟩ := exists_trimRight t.trimLeft
    exact isBlank_of_trimLeft (hb.trans (congrArg (· ++ b) h))
  last _ _ h := isBlank_of_trimRight h

theorem exists_trim (t : Text) : ∃ a b, Blank a ∧ Blank b ∧ t = a ++ t.trim ++ b := by
  obtain ⟨a, ha, hat⟩ := exists_trimLeft t
  obtain ⟨b, hb, hbt⟩ := exists_trimRight t.trimLeft
  exact ⟨a, b, ha, hb, by rw [trim, List.append_assoc, ← hbt, ← hat]⟩

theorem trimmed_iff {t : Text} : t.Trimmed ↔ t.Bounded := by
  constructor
  · intro h
    rw [← show t.trim = t from h]
    exact bounded_trim t
  · intro h
    simpa [Trimmed] using trim_eq Blank.nil Blank.nil h

theorem trimmed_trim (t : Text) : t.trim.Trimmed := trimmed_iff.2 (bounded_trim t)

/-- Blanks around a text do not matter. -/
theorem trim_blanks {a b : Text} (ha : Blank a) (hb : Blank b) (t : Text) :
    (a ++ t ++ b).trim = t.trim := by
  obtain ⟨a', b', ha', hb', ht⟩ := exists_trim t
  have heq : a ++ t ++ b = (a ++ a') ++ t.trim ++ (b' ++ b) := by
    calc a ++ t ++ b = a ++ (a' ++ t.trim ++ b') ++ b := by rw [← ht]
      _ = (a ++ a') ++ t.trim ++ (b' ++ b) := by simp only [List.append_assoc]
  rw [heq]
  exact trim_eq (ha.append ha') (hb'.append hb) (bounded_trim t)

theorem trim_append {b : Text} (hb : Blank b) (t : Text) : (t ++ b).trim = t.trim :=
  trim_blanks Blank.nil hb t

theorem trim_prepend {a : Text} (ha : Blank a) (t : Text) : (a ++ t).trim = t.trim := by
  simpa using trim_blanks ha Blank.nil t

/-- Blanks that have been removed from the front make no difference. -/
theorem trim_trimLeft (t : Text) : t.trimLeft.trim = t.trim := by
  have h := trim_prepend (blank_leadingBlanks t) t.trimLeft
  rw [leadingBlanks_append_trimLeft] at h
  exact h.symm

theorem isInfix_trim (t : Text) : t.trim <:+: t := by
  obtain ⟨a, b, -, -, h⟩ := exists_trim t
  exact ⟨a, b, h.symm⟩

theorem trim_blank {t : Text} (ht : Blank t) : t.trim = [] := by
  rw [show t = [] ++ t from rfl, trim_append ht]; rfl

/-- Trimming the end keeps the front. -/
theorem head?_trim (t : Text) : t.trim.head? = t.trimLeft.head? := by
  obtain ⟨b, hb, ht⟩ := exists_trimRight t.trimLeft
  unfold trim
  cases hr : t.trimLeft.trimRight with
  | cons c u =>
    rw [hr] at ht
    rw [ht]
    rfl
  | nil =>
    rw [hr, List.nil_append] at ht
    cases hl : t.trimLeft with
    | nil => rfl
    | cons c u =>
      have := hb c (by rw [← ht, hl]; simp)
      simp [isBlank_of_trimLeft hl] at this

/-- Trimming keeps what stands at the front without blanks in it. -/
theorem exists_trim_append {w : Text} (hw : ∀ c ∈ w, isBlank c = false) (t : Text) :
    ∃ u, (w ++ t).trim = w ++ u := by
  obtain ⟨a, b, ha, hb, ht⟩ := exists_trim (w ++ t)
  cases w with
  | nil => exact ⟨_, rfl⟩
  | cons c w =>
    cases a with
    | cons d a =>
      obtain ⟨rfl, -⟩ := List.cons.inj ht
      have := ha c List.mem_cons_self
      simp [hw c List.mem_cons_self] at this
    | nil =>
      rcases List.append_eq_append_iff.1 ht.symm with ⟨v, hv, hbv⟩ | ⟨v, hv, -⟩
      · cases v with
        | nil => exact ⟨[], by simpa using hv.symm⟩
        | cons d v =>
          have := hb d (by rw [hbv]; simp)
          simp [hw d (by rw [hv]; simp)] at this
      · exact ⟨v, hv⟩

end Text

end InsertLayout
