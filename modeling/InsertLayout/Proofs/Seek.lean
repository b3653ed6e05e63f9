import InsertLayout.Proofs.Trim
import InsertLayout.Quote.Seek

/-!
# Places outside quotes

`Text.Balanced quotes t`: scanning `t` from outside quotes ends outside quotes, so that what
follows `t` reads as it would on its own. `Misses quotes accept? state t rest`: no unquoted place
of `t`, with `rest` behind it, is accepted. In these terms `seek?_eq_some_iff` and
`seek?_eq_none_iff` say what a search returns, and `misses_append_iff` cuts a search in two.

Most of the theory is about quote sets that keep clear of the syntax (`QuoteSet.Plain`): there the
blanks, the punctuation and the letters of the keywords never open a quoted region.
-/

set_option autoImplicit false

namespace InsertLayout

/-! ## Quote sets apart from the syntax -/

/-- The alphabetic characters that a keyword can be written with: the ASCII letters and the long s,
a form of the letter s. -/
def isKeywordLetter (c : Char) : Bool := c.isAlpha || c == 'ſ'

/-- No quote is a blank, a parenthesis, a comma, a semicolon or a letter of a keyword. -/
structure QuoteSet.Plain (quotes : QuoteSet) : Prop where
  not_blank : ∀ c ∈ quotes, isBlank c = false
  not_punctuation : ∀ c ∈ quotes, c ∉ ['(', ')', ',', ';']
  not_letter : ∀ c ∈ quotes, isKeywordLetter c = false

instance (quotes : QuoteSet) : Decidable quotes.Plain :=
  decidable_of_iff
    (quotes.chars.all fun c =>
      !isBlank c && c ∉ ['(', ')', ',', ';'] && !isKeywordLetter c) <| by
    simp only [List.all_eq_true, Bool.and_eq_true, Bool.not_eq_true', decide_eq_true_eq]
    constructor
    · intro h
      exact ⟨fun c hc => (h c hc).1.1, fun c hc => (h c hc).1.2, fun c hc => (h c hc).2⟩
    · intro h c hc
      exact ⟨⟨h.not_blank c hc, h.not_punctuation c hc⟩, h.not_letter c hc⟩

section
variable {quotes : QuoteSet}

theorem QuoteSet.Plain.notMem_of_blank (hq : quotes.Plain) {c : Char} (h : isBlank c = true) :
    c ∉ quotes := fun hc => by simp [hq.not_blank c hc] at h

theorem QuoteSet.Plain.notMem (hq : quotes.Plain) {c : Char} (h : c ∈ ['(', ')', ',', ';']) :
    c ∉ quotes := fun hc => hq.not_punctuation c hc h

theorem QuoteSet.Plain.notMem_of_letter (hq : quotes.Plain) {c : Char}
    (h : isKeywordLetter c = true) : c ∉ quotes := fun hc => by simp [hq.not_letter c hc] at h

theorem QuoteSet.Plain.open_notMem (hq : quotes.Plain) : '(' ∉ quotes := hq.notMem (by decide)

theorem QuoteSet.Plain.close_notMem (hq : quotes.Plain) : ')' ∉ quotes := hq.notMem (by decide)

theorem QuoteSet.Plain.comma_notMem (hq : quotes.Plain) : ',' ∉ quotes := hq.notMem (by decide)

theorem QuoteSet.Plain.semicolon_notMem (hq : quotes.Plain) : ';' ∉ quotes :=
  hq.notMem (by decide)

theorem QuoteSet.Plain.notMem_of_mem_blank (hq : quotes.Plain) {t : Text} (ht : t.Blank) :
    ∀ c ∈ t, c ∉ quotes := fun c hc => hq.notMem_of_blank (ht c hc)

theorem QuoteSet.Plain.notMem_of_mem_end (hq : quotes.Plain) : ∀ c ∈ [')', ';'], c ∉ quotes := by
  intro c hc
  obtain rfl | rfl : c = ')' ∨ c = ';' := by simpa using hc
  · exact hq.close_notMem
  · exact hq.semicolon_notMem

theorem QuoteSet.Plain.without_eq (hq : quotes.Plain) : quotes.without ')' = quotes :=
  QuoteSet.without_of_not_mem hq.close_notMem

/-! ## Balanced texts -/

/-- A scan from outside quotes ends outside quotes. -/
def Text.Balanced (quotes : QuoteSet) (t : Text) : Prop :=
  QuoteState.unquoted.scan quotes t = .unquoted

instance (t : Text) : Decidable (t.Balanced quotes) := inferInstanceAs (Decidable (_ = _))

namespace Text

@[simp] theorem balanced_nil : Balanced quotes [] := rfl

theorem Balanced.scan_append {s : Text} (hs : Balanced quotes s) (t : Text) :
    QuoteState.unquoted.scan quotes (s ++ t) = QuoteState.unquoted.scan quotes t := by
  rw [QuoteState.scan_append, show QuoteState.unquoted.scan quotes s = _ from hs]

theorem balanced_append_iff {s t : Text} (hs : Balanced quotes s) :
    Balanced quotes (s ++ t) ↔ Balanced quotes t := by
  rw [Balanced, hs.scan_append, Balanced]

theorem Balanced.append {s t : Text} (hs : Balanced quotes s) (ht : Balanced quotes t) :
    Balanced quotes (s ++ t) := (balanced_append_iff hs).2 ht

theorem balanced_of_notMem {t : Text} (h : ∀ c ∈ t, c ∉ quotes) : Balanced quotes t := by
  induction t with
  | nil => rfl
  | cons c t ih =>
    have hc : c ∉ quotes := h c List.mem_cons_self
    rw [Balanced, QuoteState.scan_cons, QuoteState.step, if_neg hc]
    exact ih fun d hd => h d (List.mem_cons_of_mem _ hd)

theorem balanced_singleton {c : Char} (hc : c ∉ quotes) : Balanced quotes [c] :=
  balanced_of_notMem (by simpa using hc)

theorem balanced_cons_iff {c : Char} {t : Text} (h : c ∉ quotes) :
    Balanced quotes (c :: t) ↔ Balanced quotes t :=
  balanced_append_iff (balanced_singleton h)

theorem balanced_blank (hq : quotes.Plain) {t : Text} (ht : Blank t) : Balanced quotes t :=
  balanced_of_notMem (hq.notMem_of_mem_blank ht)

theorem balanced_end (hq : quotes.Plain) : Balanced quotes [')', ';'] :=
  balanced_of_notMem hq.notMem_of_mem_end

/-- The state in which a text without quotes leaves off is the one it started in. -/
theorem scan_of_notMem {t : Text} (h : ∀ c ∈ t, c ∉ quotes) {state : QuoteState}
    (hs : ∀ q, state = .quotedBy q → q ∈ quotes) : state.scan quotes t = state := by
  induction t with
  | nil => rfl
  | cons c t ih =>
    have hc : c ∉ quotes := h c List.mem_cons_self
    have hstep : state.step quotes c = state := by
      cases state with
      | unquoted => rw [QuoteState.step, if_neg hc]
      | quotedBy q => rw [QuoteState.step, if_neg fun he : c = q => hc (he ▸ hs q rfl)]
    rw [QuoteState.scan_cons, hstep]
    exact ih fun d hd => h d (List.mem_cons_of_mem _ hd)

/-- Only a quote closes a region. -/
theorem scan_quotedBy_mem (t : Text) {state : QuoteState}
    (hs : ∀ q, state = .quotedBy q → q ∈ quotes) :
    ∀ q, state.scan quotes t = .quotedBy q → q ∈ quotes := by
  induction t generalizing state with
  | nil => exact hs
  | cons c t ih =>
    refine ih fun q hstep => ?_
    cases state with
    | unquoted =>
      rw [QuoteState.step] at hstep
      split at hstep
      · rename_i hc
        obtain rfl := by simpa using hstep
        exact hc
      · cases hstep
    | quotedBy p =>
      rw [QuoteState.step] at hstep
      split at hstep
      · cases hstep
      · exact hs q hstep

/-- Taking out a character that is no quote does not change the state. -/
theorem scan_filter {w : Char} (hw : w ∉ quotes) {t : Text} {state : QuoteState}
    (hs : ∀ q, state = .quotedBy q → q ∈ quotes) :
    state.scan quotes (t.filter (· != w)) = state.scan quotes t := by
  induction t generalizing state with
  | nil => rfl
  | cons c t ih =>
    have hnext := scan_quotedBy_mem [c] hs
    by_cases hc : c = w
    · subst hc
      have hstep : state.scan quotes [c] = state := scan_of_notMem (by simpa using hw) hs
      rw [List.filter_cons_of_neg (by simp), ih hs, QuoteState.scan_cons,
        show state.step quotes c = state from hstep]
    · rw [List.filter_cons_of_pos (by simpa using hc), QuoteState.scan_cons, QuoteState.scan_cons]
      exact ih hnext

/-- Text without quotes at the end of a balanced text can be taken off it. -/
theorem Balanced.of_append_notMem {s t : Text} (h : Balanced quotes (s ++ t))
    (ht : ∀ c ∈ t, c ∉ quotes) : Balanced quotes s := by
  rw [Balanced, QuoteState.scan_append] at h
  have hmem : ∀ q, QuoteState.unquoted.scan quotes s = .quotedBy q → q ∈ quotes :=
    scan_quotedBy_mem s fun _ h => by cases h
  rwa [scan_of_notMem ht hmem] at h

theorem Balanced.trim (hq : quotes.Plain) {t : Text} (h : Balanced quotes t) :
    Balanced quotes t.trim := by
  obtain ⟨a, b, ha, hb, ht⟩ := exists_trim t
  rw [ht, List.append_assoc, balanced_append_iff (balanced_blank hq ha)] at h
  exact h.of_append_notMem (hq.notMem_of_mem_blank hb)

end Text

end

/-! ## Searches -/

variable {β : Type} {quotes : QuoteSet} {accept? : Text → Option β}

/-- No unquoted place of a text, with some rest behind it, is accepted. -/
def Misses (quotes : QuoteSet) (accept? : Text → Option β) (state : QuoteState) (t rest : Text) :
    Prop :=
  ∀ a b, t = a ++ b → b ≠ [] → state.scan quotes a = .unquoted → accept? (b ++ rest) = none

theorem misses_nil (state : QuoteState) (rest : Text) : Misses quotes accept? state [] rest :=
  fun _ _ h hb => absurd (List.append_eq_nil_iff.1 h.symm).2 hb

theorem misses_cons_iff {state : QuoteState} {c : Char} {t rest : Text} :
    Misses quotes accept? state (c :: t) rest ↔
      (state = .unquoted → accept? (c :: t ++ rest) = none) ∧
        Misses quotes accept? (state.step quotes c) t rest := by
  constructor
  · intro h
    refine ⟨fun hs => h [] (c :: t) rfl (by simp) hs, fun a b he hb hs => ?_⟩
    exact h (c :: a) b (by rw [he]; rfl) hb hs
  · rintro ⟨h0, h⟩ a b he hb hs
    cases a with
    | nil => obtain rfl : c :: t = b := he; exact h0 hs
    | cons d a =>
      obtain ⟨rfl, rfl⟩ := by simpa using he
      exact h a b rfl hb hs

theorem misses_append_iff {state : QuoteState} {s t rest : Text} :
    Misses quotes accept? state (s ++ t) rest ↔
      Misses quotes accept? state s (t ++ rest) ∧
        Misses quotes accept? (state.scan quotes s) t rest := by
  induction s generalizing state with
  | nil => simp [misses_nil]
  | cons c s ih =>
    rw [List.cons_append, misses_cons_iff, ih, misses_cons_iff, QuoteState.scan_cons]
    simp [and_assoc]

/-- A search passes over a text in which it misses everything. -/
theorem seek?_append {state : QuoteState} {t rest : Text}
    (h : Misses quotes accept? state t rest) :
    seek? quotes accept? state (t ++ rest) =
      (seek? quotes accept? (state.scan quotes t) rest).map fun p => (t ++ p.1, p.2) := by
  induction t generalizing state with
  | nil => simp
  | cons c t ih =>
    obtain ⟨h0, h⟩ := misses_cons_iff.1 h
    have hnone : (if state.isQuoted then none else accept? (c :: (t ++ rest))) = none := by
      split
      · rfl
      · rename_i hs
        exact h0 (QuoteState.isQuoted_eq_false.1 (by simpa using hs))
    rw [List.cons_append, seek?_cons, hnone, ih h, QuoteState.scan_cons]
    cases seek? quotes accept? ((state.step quotes c).scan quotes t) rest <;> rfl

theorem seek?_eq_none_iff {state : QuoteState} {t : Text} :
    seek? quotes accept? state t = none ↔ Misses quotes accept? state t [] := by
  constructor
  · intro h
    induction t generalizing state with
    | nil => exact misses_nil _ _
    | cons c t ih =>
      rw [seek?_cons] at h
      split at h
      · cases h
      · rename_i hnone
        refine misses_cons_iff.2 ⟨fun hs => ?_, ih (by simpa using h)⟩
        simpa [hs, QuoteState.isQuoted] using hnone
  · intro h
    simpa using seek?_append h

/-- What a search finds: the first unquoted place that is accepted. -/
theorem seek?_eq_some_iff {state : QuoteState} {t before : Text} {found : β} :
    seek? quotes accept? state t = some (before, found) ↔
      ∃ rest, t = before ++ rest ∧ rest ≠ [] ∧ Misses quotes accept? state before rest ∧
        state.scan quotes before = .unquoted ∧ accept? rest = some found := by
  constructor
  · intro h
    induction t generalizing before state with
    | nil => simp at h
    | cons c t ih =>
      rw [seek?_cons] at h
      split at h
      · rename_i found' hacc
        obtain ⟨rfl, rfl⟩ := by simpa using h
        split at hacc
        · cases hacc
        · rename_i hs
          exact ⟨c :: t, rfl, by simp, misses_nil _ _,
            QuoteState.isQuoted_eq_false.1 (by simpa using hs), hacc⟩
      · rename_i hnone
        obtain ⟨⟨before', found'⟩, hfound, heq⟩ := Option.map_eq_some_iff.1 h
        obtain ⟨rfl, rfl⟩ := by simpa using heq
        obtain ⟨rest, rfl, hne, hmiss, hscan, hacc⟩ := ih hfound
        refine ⟨rest, rfl, hne, misses_cons_iff.2 ⟨fun hs => ?_, hmiss⟩, hscan, hacc⟩
        simpa [hs, QuoteState.isQuoted] using hnone
  · rintro ⟨rest, rfl, hne, hmiss, hscan, hacc⟩
    obtain ⟨c, rest, rfl⟩ := List.exists_cons_of_ne_nil hne
    rw [seek?_append hmiss, hscan, seek?_cons]
    simp [QuoteState.isQuoted, hacc]

end InsertLayout
