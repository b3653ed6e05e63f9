import InsertLayout.Proofs.Split
import InsertLayout.Statement.Parse

/-!
# The parts of a statement

`keyword?_eq_some_iff` says where the keyword is found, and `cutParts_eq_ok_iff` that a statement is
cut into its parts exactly at the first unquoted `(` and the first unquoted `)` behind it that the
keyword follows; parsing reads these parts (`parse_eq_ok_iff`). A keyword that a text ends with
stays one whatever follows the text, unless a word goes on there (`keyword?_append`), and none
arises where two texts meet, unless the second one starts with a letter
(`keyword?_append_eq_none`).
-/

set_option autoImplicit false

namespace InsertLayout

open Text

/-! ## Letters, blanks and word characters -/

/-- Only letters become letters in lower case. -/
theorem isAlpha_of_toLower {c : Char} (h : c.toLower.isAlpha = true) : c.isAlpha = true := by
  unfold Char.toLower at h
  split at h
  · rename_i hc
    have hup : c.isUpper = true := decide_eq_true hc
    exact Bool.or_eq_true_iff.2 (.inl hup)
  · exact h

/-- No letter of a keyword is a blank. -/
theorem isBlank_of_letter {c : Char} (h : isKeywordLetter c = true) : isBlank c = false := by
  have hc : (65 ≤ c.toNat ∧ c.toNat ≤ 90) ∨ (97 ≤ c.toNat ∧ c.toNat ≤ 122) ∨ c.toNat = 383 := by
    rcases Bool.or_eq_true_iff.1 h with halpha | hs
    · rcases Bool.or_eq_true_iff.1 halpha with hupper | hlower
      · exact .inl (of_decide_eq_true hupper)
      · obtain ⟨ha, hz⟩ := Bool.and_eq_true_iff.1 hlower
        exact .inr (.inl ⟨of_decide_eq_true ha, of_decide_eq_true hz⟩)
    · obtain rfl := eq_of_beq hs
      exact .inr (.inr rfl)
  simp only [isBlank, Bool.or_eq_false_iff, Bool.and_eq_false_iff, decide_eq_false_iff_not,
    beq_eq_false_iff_ne]
  omega

/-- No blank continues a word. -/
theorem isWordChar_of_blank {c : Char} (h : isBlank c = true) : isWordChar c = false := by
  have hapart : ∀ r ∈ wordRanges, ∀ blanks ∈ [(0x09, 0x0D), (0x20, 0x20), (0x85, 0x85),
      (0xA0, 0xA0), (0x1680, 0x1680), (0x2000, 0x200A), (0x2028, 0x2029), (0x202F, 0x202F),
      (0x205F, 0x205F), (0x3000, 0x3000)], blanks.2 < r.1 ∨ r.2 < blanks.1 := by decide +kernel
  rw [← Bool.not_eq_true, isWordChar_iff]
  rintro ⟨r, hr, hfirst, hlast⟩
  have hr := hapart r hr
  simp only [isBlank, Bool.or_eq_true, Bool.and_eq_true, decide_eq_true_eq, beq_iff_eq] at h
  simp only [List.forall_mem_cons, List.not_mem_nil, false_implies, implies_true, and_true] at hr
  omega

namespace Statement

/-! ## The keyword -/

theorem length_of_isValuesKeyword {k : Text} (h : isValuesKeyword k = true) : k.length = 6 := by
  simpa using congrArg List.length (eq_of_beq h)

theorem isKeywordLetter_of_mem {k : Text} (h : isValuesKeyword k = true) {c : Char} (hc : c ∈ k) :
    isKeywordLetter c = true := by
  have hmem : foldCase c ∈ ['v', 'a', 'l', 'u', 'e', 's'] := by
    rw [← eq_of_beq h]
    exact List.mem_map_of_mem hc
  rw [isKeywordLetter, Bool.or_eq_true, beq_iff_eq]
  rw [foldCase] at hmem
  split at hmem
  · exact .inr ‹_›
  · refine .inl (isAlpha_of_toLower ?_)
    have hall : ∀ d ∈ ['v', 'a', 'l', 'u', 'e', 's'], d.isAlpha = true :=
      List.all_eq_true.1 (by decide)
    exact hall _ hmem

theorem trimLeft_keyword {k : Text} (h : isValuesKeyword k = true) (t : Text) :
    trimLeft (k ++ t) = k ++ t := by
  cases k with
  | nil => cases h
  | cons c k => exact trimLeft_cons (isBlank_of_letter (isKeywordLetter_of_mem h (by simp))) _

theorem keyword?_eq_some_iff {t k rest : Text} :
    keyword? t = some (k, rest) ↔
      isValuesKeyword k = true ∧ continuesWord rest = false ∧
        ∃ b, Blank b ∧ t = b ++ k ++ rest := by
  simp only [keyword?, List.splitAt_eq]
  constructor
  · intro h
    split at h
    · rename_i hk
      obtain ⟨rfl, rfl⟩ := by simpa using h
      simp only [Bool.and_eq_true, Bool.not_eq_true'] at hk
      refine ⟨hk.1, hk.2, t.leadingBlanks, blank_leadingBlanks t, ?_⟩
      rw [List.append_assoc, List.take_append_drop, leadingBlanks_append_trimLeft]
    · cases h
  · rintro ⟨hk, hrest, b, hb, rfl⟩
    rw [List.append_assoc, trimLeft_append hb, trimLeft_keyword hk,
      List.take_left' (length_of_isValuesKeyword hk),
      List.drop_left' (length_of_isValuesKeyword hk)]
    simp [hk, hrest]

theorem continuesWord_append {s t : Text} (hs : continuesWord s = false)
    (ht : continuesWord t = false) : continuesWord (s ++ t) = false := by
  cases s with
  | nil => exact ht
  | cons c s => exact hs

theorem continuesWord_left {s t : Text} (h : continuesWord (s ++ t) = false) :
    continuesWord s = false := by
  cases s with
  | nil => rfl
  | cons c s => exact h

theorem keyword?_append {t k rest : Text} (h : keyword? t = some (k, rest)) {u : Text}
    (hu : continuesWord u = false) : keyword? (t ++ u) = some (k, rest ++ u) := by
  obtain ⟨hk, hrest, b, hb, rfl⟩ := keyword?_eq_some_iff.1 h
  exact keyword?_eq_some_iff.2 ⟨hk, continuesWord_append hrest hu, b, hb, by simp⟩

/-- No keyword starts or goes on behind the blanks at the front of a text. -/
def NoLetter (t : Text) : Prop := ∀ c s, t.trimLeft = c :: s → isKeywordLetter c = false

/-- No word goes on at the front of a text, and none starts behind the blanks there. -/
structure NoWord (t : Text) : Prop where
  continues : continuesWord t = false
  starts : NoLetter t

theorem NoWord.nil : NoWord [] := ⟨rfl, fun _ _ h => by cases h⟩

theorem noWord_append_cons {b : Text} (hb : Blank b) {c : Char} (hc : c ∈ [',', ')']) (s : Text) :
    NoWord (b ++ c :: s) := by
  obtain ⟨hblank, hword, hletter⟩ :
      isBlank c = false ∧ isWordChar c = false ∧ isKeywordLetter c = false := by
    obtain rfl | rfl : c = ',' ∨ c = ')' := by simpa using hc
    · decide +kernel
    · decide +kernel
  refine ⟨?_, fun d u h => ?_⟩
  · cases b with
    | nil => exact hword
    | cons d b => exact isWordChar_of_blank (hb d List.mem_cons_self)
  · rw [trimLeft_append hb, trimLeft_cons hblank] at h
    rwa [← (List.cons.inj h).1]

theorem blank_noWord {b : Text} (hb : Blank b) : NoWord b where
  continues := by
    cases b with
    | nil => rfl
    | cons c b => exact isWordChar_of_blank (hb c List.mem_cons_self)
  starts c s h := by rw [trimLeft_blank hb] at h; cases h

theorem not_noLetter {b : Text} (hb : Blank b) {c : Char} (hc : isKeywordLetter c = true)
    (s : Text) : ¬ NoLetter (b ++ c :: s) := fun h => by
  have := h c s (by rw [trimLeft_append hb, trimLeft_cons (isBlank_of_letter hc)])
  simp [hc] at this

theorem keyword?_append_eq_none {t u : Text} (ht : keyword? t = none) (hu : NoLetter u) :
    keyword? (t ++ u) = none := by
  rw [Option.eq_none_iff_forall_ne_some]
  rintro ⟨k, rest⟩ h
  obtain ⟨hk, hrest, b, hb, he⟩ := keyword?_eq_some_iff.1 h
  have habsurd (r : Text) (hr : continuesWord r = false) (ht' : t = b ++ k ++ r) : False := by
    have hsome := keyword?_eq_some_iff.2 ⟨hk, hr, b, hb, ht'⟩
    rw [ht] at hsome
    cases hsome
  rcases List.append_eq_append_iff.1 he with ⟨v, hv, rfl⟩ | ⟨v, hv, rfl⟩
  · rcases List.append_eq_append_iff.1 hv.symm with ⟨w, rfl, rfl⟩ | ⟨w, rfl, rfl⟩
    · -- The whole keyword stands in `u`.
      obtain ⟨c, k, rfl⟩ := List.exists_cons_of_ne_nil (l := k) (by rintro rfl; cases hk)
      have hw : Blank w := fun d hd => hb d (List.mem_append_right _ hd)
      refine not_noLetter hw (isKeywordLetter_of_mem hk List.mem_cons_self) (k ++ rest) ?_
      simpa using hu
    · -- The keyword starts in `t`, and `u` starts with the rest of it.
      cases v with
      | nil => exact habsurd [] rfl (by simp)
      | cons c v =>
        exact not_noLetter Blank.nil (isKeywordLetter_of_mem hk (by simp)) (v ++ rest) hu
  · exact habsurd v (continuesWord_left hrest) hv

/-! ## The end of the list of columns -/

theorem columnsEnd?_eq_none_of_ne {c : Char} {t : Text} (h : c ≠ ')') :
    columnsEnd? (c :: t) = none := by
  rw [columnsEnd?]
  rintro t' he
  exact h (by simpa using (List.cons.inj he).1)

theorem columnsEnd?_eq_some_iff {t : Text} {p : Text × Text} :
    columnsEnd? t = some p ↔ ∃ u, t = ')' :: u ∧ keyword? u = some p := by
  constructor
  · intro h
    rw [columnsEnd?.eq_def] at h
    split at h
    · exact ⟨_, rfl, h⟩
    · cases h
  · rintro ⟨u, rfl, h⟩
    exact h

section
variable {quotes : QuoteSet}

/-- No unquoted `)` of a text is followed by the keyword. -/
def AvoidsKeyword (quotes : QuoteSet) (t : Text) : Prop :=
  ∀ a b, t = a ++ ')' :: b → Balanced quotes a → keyword? b = none

theorem misses_columnsEnd?_iff {t rest : Text} (hrest : NoWord rest) :
    Misses quotes columnsEnd? .unquoted t rest ↔ AvoidsKeyword quotes t := by
  constructor
  · intro h a b he ha
    have hnone : keyword? (b ++ rest) = none := h a (')' :: b) he (by simp) ha
    cases hb : keyword? b with
    | none => rfl
    | some p => rw [keyword?_append hb hrest.continues] at hnone; cases hnone
  · intro h a b he hb ha
    obtain ⟨c, b, rfl⟩ := List.exists_cons_of_ne_nil hb
    by_cases hc : c = ')'
    · subst hc
      exact keyword?_append_eq_none (h a b he ha) hrest.starts
    · exact columnsEnd?_eq_none_of_ne hc

instance (t : Text) : Decidable (AvoidsKeyword quotes t) :=
  decidable_of_iff (seek? quotes columnsEnd? .unquoted t = none)
    (seek?_eq_none_iff.trans (misses_columnsEnd?_iff NoWord.nil))

theorem AvoidsKeyword.left {s t : Text} (h : AvoidsKeyword quotes (s ++ t))
    (ht : continuesWord t = false) : AvoidsKeyword quotes s := by
  intro a b he ha
  have hnone := h a (b ++ t) (by rw [he]; simp) ha
  cases hb : keyword? b with
  | none => rfl
  | some p => rw [keyword?_append hb ht] at hnone; cases hnone

theorem AvoidsKeyword.right {s t : Text} (hs : Balanced quotes s)
    (h : AvoidsKeyword quotes (s ++ t)) : AvoidsKeyword quotes t :=
  fun a b he ha => h (s ++ a) b (by rw [he]; simp) (hs.append ha)

theorem AvoidsKeyword.append {s t : Text} (hb : Balanced quotes s) (hs : AvoidsKeyword quotes s)
    (ht : AvoidsKeyword quotes t) (hword : NoLetter t) : AvoidsKeyword quotes (s ++ t) := by
  intro a b he ha
  rcases append_eq_append_cons he with ⟨v, rfl, rfl⟩ | ⟨u, rfl, hu⟩
  · exact keyword?_append_eq_none (hs a v rfl ha) hword
  · exact ht u b hu ((balanced_append_iff hb).1 ha)

theorem avoidsKeyword_cons {c : Char} {t : Text} (hc : c ∉ quotes) (hne : c ≠ ')')
    (h : AvoidsKeyword quotes t) : AvoidsKeyword quotes (c :: t) := by
  intro a b he ha
  cases a with
  | nil => exact absurd (List.cons.inj he).1 hne
  | cons d a =>
    obtain ⟨rfl, rfl⟩ := List.cons.inj he
    exact h a b rfl ((balanced_cons_iff hc).1 ha)

/-! ## Cutting -/

/-- How a statement is made up of its parts, with blanks before the keyword and a rest behind it. -/
structure MadeOf (quotes : QuoteSet) (t : Text) (p : Parts) (blanks rest : Text) : Prop where
  eq : t = p.clause ++ '(' :: (p.columns ++ ')' :: (blanks ++ p.keyword ++ rest))
  clause_balanced : Balanced quotes p.clause
  clause_avoids : Avoids quotes ['('] p.clause
  columns_balanced : Balanced quotes p.columns
  columns_avoid : AvoidsKeyword quotes p.columns
  blank : Blank blanks
  keyword : isValuesKeyword p.keyword = true
  rest_word : continuesWord rest = false
  values : p.values = rest.trim
  starts : startsWithRow p.values = true

/-- A text is parsed exactly if it can be cut, into the statement that has its parts. -/
theorem parse_eq_ok_iff {options : Options} {t : Text} {s : Statement} :
    parse options t = .ok s ↔
      ∃ p, cutParts options.quotes t = .ok p ∧ ofParts options p = s := by
  unfold parse
  cases cutParts options.quotes t <;> simp [Except.map]

theorem cutParts_eq_ok_iff (hq : quotes.Plain) {t : Text} {p : Parts} :
    cutParts quotes t = .ok p ↔ ∃ blanks rest, MadeOf quotes t p blanks rest := by
  have hclose (u : Text) : NoWord (')' :: u) := noWord_append_cons Blank.nil (by simp) u
  constructor
  · intro h
    unfold cutParts at h
    rw [hq.without_eq] at h
    split at h
    · cases h
    · rename_i clause after hclause
      obtain ⟨rfl, hcb, hca⟩ := Needle.cut?_char_eq_some_iff.1 hclause
      split at h
      · cases h
      · rename_i columns keyword rest hcolumns
        obtain ⟨u, rfl, -, hmiss, hbal, hu⟩ := seek?_eq_some_iff.1 hcolumns
        obtain ⟨u, rfl, hkey⟩ := columnsEnd?_eq_some_iff.1 hu
        obtain ⟨hk, hword, b, hb, rfl⟩ := keyword?_eq_some_iff.1 hkey
        dsimp only at h
        split at h
        · rename_i hstarts
          obtain rfl := Except.ok.inj h
          exact ⟨b, rest, rfl, hcb, hca, hbal, (misses_columnsEnd?_iff (hclose _)).1 hmiss, hb, hk,
            hword, rfl, hstarts⟩
        · cases h
  · rintro ⟨b, rest, h⟩
    have hclause := Needle.cut?_char_eq_some_iff.2 ⟨h.eq, h.clause_balanced, h.clause_avoids⟩
    have hkey := keyword?_eq_some_iff.2 ⟨h.keyword, h.rest_word, b, h.blank, rfl⟩
    have hcolumns := seek?_eq_some_iff.2 ⟨_, rfl, by simp,
      (misses_columnsEnd?_iff (hclose (b ++ p.keyword ++ rest))).2 h.columns_avoid,
      h.columns_balanced, columnsEnd?_eq_some_iff.2 ⟨_, rfl, hkey⟩⟩
    unfold cutParts
    rw [hq.without_eq, hclause]
    simp only [hcolumns, ← h.values, h.starts, if_true]

end

end Statement

end InsertLayout
