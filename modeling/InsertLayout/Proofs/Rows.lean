import InsertLayout.Proofs.Parts

/-!
# The rows of a list of values

A list of values that ends a statement consists of the texts of its rows, each closed by a
parenthesis that a comma follows, or that the end of the statement does (`ValueList`). Every text
with the end of a statement behind a balanced part is such a list (`exists_valueList`), and the rows
read from it are the fields of those texts (`ValueList.parseRows_eq`).
-/

set_option autoImplicit false

namespace InsertLayout

open Text

namespace Statement

variable {quotes : QuoteSet}

/-! ## The end of a row -/

theorem rowEnd?_eq_some_iff {t b rest : Text} :
    rowEnd? t = some (b, rest) ↔ Blank b ∧ t = ')' :: (b ++ ',' :: rest) := by
  constructor
  · intro h
    rw [rowEnd?.eq_def] at h
    split at h
    · rename_i u
      split at h
      · rename_i heq
        obtain ⟨rfl, rfl⟩ := by simpa using h
        exact ⟨blank_leadingBlanks u, by rw [← heq, leadingBlanks_append_trimLeft]⟩
      · cases h
    · cases h
  · rintro ⟨hb, rfl⟩
    have hleft : trimLeft (b ++ ',' :: rest) = ',' :: rest := by
      rw [trimLeft_append hb, trimLeft_cons (by decide)]
    have hlead : leadingBlanks (b ++ ',' :: rest) = b := by
      have := leadingBlanks_append_trimLeft (b ++ ',' :: rest)
      rw [hleft] at this
      exact List.append_cancel_right this
    rw [rowEnd?, hleft, hlead]
    rfl

theorem rowEnd?_eq_none_of_ne {c : Char} {t : Text} (h : c ≠ ')') : rowEnd? (c :: t) = none := by
  rw [Option.eq_none_iff_forall_ne_some]
  rintro ⟨b, rest⟩ hsome
  exact h (List.cons.inj (rowEnd?_eq_some_iff.1 hsome).2).1

/-- No unquoted `)` of a text is followed by a comma, blanks aside. -/
def AvoidsRowEnd (quotes : QuoteSet) (t : Text) : Prop :=
  ∀ a b, t = a ++ ')' :: b → Balanced quotes a → (trimLeft b).head? ≠ some ','

theorem head?_trimLeft_append (s t : Text) :
    (s ++ t).trimLeft.head? = s.trimLeft.head?.or t.trimLeft.head? := by
  obtain ⟨b, hb, hs⟩ := exists_trimLeft s
  cases hl : s.trimLeft with
  | nil =>
    rw [hl, List.append_nil] at hs
    rw [hs, trimLeft_append hb]
    rfl
  | cons c u =>
    rw [hs, hl, List.append_assoc, trimLeft_append hb, List.cons_append,
      trimLeft_cons (isBlank_of_trimLeft hl)]
    rfl

theorem misses_rowEnd?_iff {t rest : Text} (hrest : rest.trimLeft.head? ≠ some ',') :
    Misses quotes rowEnd? .unquoted t rest ↔ AvoidsRowEnd quotes t := by
  constructor
  · intro h a b he ha hcomma
    have hnone := h a (')' :: b) he (by simp) ha
    have hhead : (trimLeft (b ++ rest)).head? = some ',' := by
      rw [head?_trimLeft_append, hcomma]; rfl
    obtain ⟨u, hu⟩ := List.head?_eq_some_iff.1 hhead
    have hsome := rowEnd?_eq_some_iff.2 ⟨blank_leadingBlanks (b ++ rest),
      show ')' :: (b ++ rest) = ')' :: (_ ++ ',' :: u) by
        rw [← hu, leadingBlanks_append_trimLeft]⟩
    rw [List.cons_append, hsome] at hnone
    cases hnone
  · intro h a b he hb ha
    obtain ⟨c, b, rfl⟩ := List.exists_cons_of_ne_nil hb
    by_cases hc : c = ')'
    · subst hc
      rw [Option.eq_none_iff_forall_ne_some]
      rintro ⟨blanks, u⟩ hsome
      obtain ⟨hblank, heq⟩ := rowEnd?_eq_some_iff.1 hsome
      have htail : b ++ rest = blanks ++ ',' :: u := (List.cons.inj heq).2
      have hhead : (trimLeft (b ++ rest)).head? = some ',' := by
        rw [htail, trimLeft_append hblank, trimLeft_cons (by decide)]; rfl
      rw [head?_trimLeft_append] at hhead
      cases hl : (trimLeft b).head? with
      | none => rw [hl] at hhead; exact hrest hhead
      | some d => rw [hl] at hhead; exact h a b he ha (by rw [hl]; exact hhead)
    · exact rowEnd?_eq_none_of_ne hc

/-- No row ends where no parenthesis stands. -/
theorem misses_rowEnd?_of_notMem {t : Text} (h : ')' ∉ t) (state : QuoteState) (rest : Text) :
    Misses quotes rowEnd? state t rest := by
  intro a b he hb _
  obtain ⟨c, b, rfl⟩ := List.exists_cons_of_ne_nil hb
  refine rowEnd?_eq_none_of_ne fun hc => h ?_
  rw [he, hc]
  simp

/-- Induction along the ends of the rows of a text. -/
theorem rows_induction (quotes : QuoteSet) {motive : Text → Prop}
    (last : ∀ t, AvoidsRowEnd quotes t → motive t)
    (more : ∀ x b t, Balanced quotes x → AvoidsRowEnd quotes x → Blank b → motive t →
      motive (x ++ ')' :: (b ++ ',' :: t)))
    (t : Text) : motive t := by
  induction h : t.length using Nat.strongRecOn generalizing t with
  | ind n ih =>
    subst h
    cases hseek : seek? quotes rowEnd? .unquoted t with
    | none =>
      exact last t ((misses_rowEnd?_iff (by simp [trimLeft])).1 (seek?_eq_none_iff.1 hseek))
    | some p =>
      obtain ⟨x, b, rest⟩ := p
      obtain ⟨r, rfl, -, hmiss, hx, hr⟩ := seek?_eq_some_iff.1 hseek
      obtain ⟨hb, rfl⟩ := rowEnd?_eq_some_iff.1 hr
      have havoid := (misses_rowEnd?_iff (by simp [trimLeft, isBlank])).1 hmiss
      exact more x b rest hx havoid hb (ih _ (by simp; omega) rest rfl)

theorem AvoidsRowEnd.left {s t : Text} (h : AvoidsRowEnd quotes (s ++ t)) :
    AvoidsRowEnd quotes s := by
  intro a b he ha hcomma
  refine h a (b ++ t) (by rw [he]; simp) ha ?_
  rw [head?_trimLeft_append, hcomma]
  rfl

theorem AvoidsRowEnd.right {s t : Text} (hs : Balanced quotes s)
    (h : AvoidsRowEnd quotes (s ++ t)) : AvoidsRowEnd quotes t :=
  fun a b he ha => h (s ++ a) b (by rw [he]; simp) (hs.append ha)

/-- No end of a row arises where two texts meet if the second one does not start with a comma, or
the first one does not end with a parenthesis. -/
theorem AvoidsRowEnd.append {s t : Text} (hb : Balanced quotes s) (hs : AvoidsRowEnd quotes s)
    (ht : AvoidsRowEnd quotes t)
    (hmeet : t.trimLeft.head? ≠ some ',' ∨ ∀ a b, s = a ++ ')' :: b → ¬ Blank b) :
    AvoidsRowEnd quotes (s ++ t) := by
  intro a b he ha
  rcases append_eq_append_cons he with ⟨v, rfl, rfl⟩ | ⟨u, rfl, hu⟩
  · rw [head?_trimLeft_append]
    cases hl : Text.trimLeft v with
    | nil =>
      rcases hmeet with hcomma | hblank
      · exact hcomma
      · refine absurd (fun c hc => ?_) (hblank a v rfl)
        obtain ⟨w, hw, hv⟩ := exists_trimLeft v
        rw [hl, List.append_nil] at hv
        exact hw c (hv ▸ hc)
    | cons c w =>
      have := hs a v rfl ha
      rwa [hl] at this
  · exact ht u b hu ((balanced_append_iff hb).1 ha)

/-- A text without unquoted commas has no end of a row in it. -/
theorem avoidsRowEnd_of_avoids (hq : quotes.Plain) {t : Text} (h : Avoids quotes [','] t) :
    AvoidsRowEnd quotes t := by
  intro a b he ha hcomma
  obtain ⟨u, hu⟩ := List.head?_eq_some_iff.1 hcomma
  obtain ⟨w, hw, hb⟩ := exists_trimLeft b
  rw [hu] at hb
  refine h (a ++ ')' :: w) u (by rw [he, hb]; simp) (ha.append ?_)
  exact (balanced_cons_iff hq.close_notMem).2 (balanced_blank hq hw)

/-! ## Lists of values -/

/-- A list of values that ends a statement, and the texts of its rows. -/
inductive ValueList (quotes : QuoteSet) : Text → List Text → Prop
  | last {x : Text} : Balanced quotes x → AvoidsRowEnd quotes x →
      ValueList quotes (x ++ [')', ';']) [x]
  | more {x b t : Text} {xs : List Text} : Balanced quotes x → AvoidsRowEnd quotes x → Blank b →
      ValueList quotes t xs → ValueList quotes (x ++ ')' :: (b ++ ',' :: t)) (x :: xs)

theorem ValueList.ne_nil {t : Text} {xs : List Text} (h : ValueList quotes t xs) : t ≠ [] := by
  cases h <;> simp

theorem ValueList.rows_ne_nil {t : Text} {xs : List Text} (h : ValueList quotes t xs) :
    xs ≠ [] := by
  cases h <;> simp

/-- What separates two rows opens no quoted region. -/
theorem balanced_separator (hq : quotes.Plain) {b : Text} (hb : Blank b) :
    Balanced quotes (')' :: (b ++ [','])) :=
  (balanced_cons_iff hq.close_notMem).2 <| (balanced_blank hq hb).append <|
    balanced_singleton hq.comma_notMem

/-- The end of a statement stands behind a part that ends in neither of its characters. -/
theorem exists_of_append_eq_end {p t u : Text} (h : p ++ t = u ++ [')', ';'])
    (hp : ∀ q c, p = q ++ [c] → c ∉ [')', ';']) : ∃ w, u = p ++ w ∧ t = w ++ [')', ';'] := by
  rcases List.append_eq_append_iff.1 h with hw | ⟨w, hw, hend⟩
  · exact hw
  · rcases List.eq_nil_or_concat w with rfl | ⟨w, c, rfl⟩
    · exact ⟨[], by simpa using hw.symm, by simpa using hend.symm⟩
    · refine absurd ?_ (hp (u ++ w) c (by simpa using hw))
      rw [hend]
      simp

theorem not_end_of_comma (x b : Text) :
    ∀ q c, x ++ ')' :: (b ++ [',']) = q ++ [c] → c ∉ [')', ';'] := by
  intro q c h
  have heq : (x ++ ')' :: b) ++ [','] = q ++ [c] := by simpa using h
  obtain rfl : ',' = c := by simpa using (List.append_inj' heq rfl).2
  decide

theorem exists_valueList (hq : quotes.Plain) {u : Text} (hu : Balanced quotes u) :
    ∃ xs, ValueList quotes (u ++ [')', ';']) xs := by
  generalize ht : u ++ [')', ';'] = t
  induction t using rows_induction quotes generalizing u with
  | last t havoid =>
    subst ht
    exact ⟨[u], .last hu havoid.left⟩
  | more x b t hx havoid hb ih =>
    have hsplit : (x ++ ')' :: (b ++ [','])) ++ t = u ++ [')', ';'] := by rw [ht]; simp
    obtain ⟨w, rfl, rfl⟩ := exists_of_append_eq_end hsplit (not_end_of_comma x b)
    have hw := (balanced_append_iff (Balanced.append hx (balanced_separator hq hb))).1 hu
    obtain ⟨xs, hxs⟩ := ih hw rfl
    exact ⟨x :: xs, .more hx havoid hb hxs⟩

/-- No row text has the end of a statement in it, if only the list of values ends with one. -/
theorem ValueList.avoids_end (hq : quotes.Plain) {t : Text} {xs : List Text}
    (h : ValueList quotes t xs) {u : Text} (ht : t = u ++ [')', ';'])
    (hu : Avoids quotes [')', ';'] u) : ∀ x ∈ xs, Avoids quotes [')', ';'] x := by
  induction h generalizing u with
  | @last x hx havoid =>
    obtain rfl : x = u := List.append_cancel_right ht
    simpa using hu
  | @more x b t xs hx havoid hb hxs ih =>
    have hsplit : (x ++ ')' :: (b ++ [','])) ++ t = u ++ [')', ';'] := by rw [← ht]; simp
    obtain ⟨w, rfl, rfl⟩ := exists_of_append_eq_end hsplit (not_end_of_comma x b)
    have hw := Avoids.right (Balanced.append hx (balanced_separator hq hb)) hu
    exact List.forall_mem_cons.2 ⟨hu.left.left, ih rfl hw⟩

theorem ValueList.balanced {t : Text} {xs : List Text} (h : ValueList quotes t xs) :
    ∀ x ∈ xs, Balanced quotes x := by
  induction h with
  | last hx => simpa using hx
  | more hx _ _ _ ih => exact List.forall_mem_cons.2 ⟨hx, ih⟩

theorem ValueList.avoidsRowEnd {t : Text} {xs : List Text} (h : ValueList quotes t xs) :
    ∀ x ∈ xs, AvoidsRowEnd quotes x := by
  induction h with
  | last _ hx => simpa using hx
  | more _ hx _ _ ih => exact List.forall_mem_cons.2 ⟨hx, ih⟩

/-! ## Reading the rows -/

theorem nextRow?_eq_none (hq : quotes.Plain) {t : Text} (h : AvoidsRowEnd quotes t) :
    nextRow? quotes (.unquoted, t) = none := by
  have hnone := seek?_eq_none_iff.2 ((misses_rowEnd?_iff (by simp [trimLeft])).2 h)
  rw [nextRow?, hq.without_eq, hnone]
  rfl

theorem nextRow?_append (hq : quotes.Plain) {x b : Text} (hx : Balanced quotes x)
    (h : AvoidsRowEnd quotes x) (hb : Blank b) (t : Text) :
    nextRow? quotes (.unquoted, x ++ ')' :: (b ++ ',' :: t)) = some (x, .unquoted, t) := by
  have hsome := seek?_eq_some_iff.2 ⟨')' :: (b ++ ',' :: t), rfl, by simp,
    (misses_rowEnd?_iff (by simp [trimLeft, isBlank])).2 h, hx, rowEnd?_eq_some_iff.2 ⟨hb, rfl⟩⟩
  have hscan : QuoteState.unquoted.scan quotes (b ++ [',']) = .unquoted :=
    (balanced_cons_iff hq.close_notMem).1 (balanced_separator hq hb)
  rw [nextRow?, hq.without_eq, hsome]
  simp [hscan]

theorem exists_stripOpen (t : Text) : ∃ o, (o = [] ∨ o = ['(']) ∧ t = o ++ stripOpen t := by
  fun_cases stripOpen t with
  | case1 t => exact ⟨['('], .inr rfl, rfl⟩
  | case2 => exact ⟨[], .inl rfl, rfl⟩

theorem stripOpen_of_ne {c : Char} (h : c ≠ '(') (t : Text) : stripOpen (c :: t) = c :: t := by
  rw [stripOpen]
  rintro u he
  exact h (List.cons.inj he).1

theorem stripOpen_append {t u : Text} (h : t ≠ [] ∨ u.head? ≠ some '(') :
    stripOpen (t ++ u) = stripOpen t ++ u := by
  cases t with
  | nil =>
    cases u with
    | nil => rfl
    | cons c u => exact stripOpen_of_ne (by simpa using h) u
  | cons c t =>
    by_cases hc : c = '('
    · subst hc; rfl
    · rw [List.cons_append, stripOpen_of_ne hc, stripOpen_of_ne hc, List.cons_append]

theorem stripEnd?_append (s t : Text) : stripEnd? s (t ++ s) = some t := by
  simp [stripEnd?]

/-- The text of a row without an end of statement in it loses the parenthesis that opens it. -/
theorem innerRow_eq (hq : quotes.Plain) {x : Text} (hx : Balanced quotes x)
    (h : Avoids quotes [')', ';'] x) : innerRow x = stripOpen x.trim := by
  have hnone : stripEnd? [')', ';'] (stripOpen x.trim) = none := by
    rw [stripEnd?, if_neg]
    intro hsuffix
    obtain ⟨y, hy⟩ := List.isSuffixOf_iff_suffix.1 hsuffix
    obtain ⟨a, b, -, hb, hxa⟩ := exists_trim x
    obtain ⟨o, -, ho⟩ := exists_stripOpen x.trim
    rw [ho, ← hy] at hxa
    have hxa : x = (a ++ (o ++ y)) ++ [')', ';'] ++ b := by rw [hxa]; simp
    refine h _ _ hxa ?_
    have hbal : Balanced quotes ((a ++ (o ++ y)) ++ [')', ';']) :=
      Balanced.of_append_notMem (hxa ▸ hx) (hq.notMem_of_mem_blank hb)
    exact hbal.of_append_notMem hq.notMem_of_mem_end
  rw [innerRow, hnone]
  rfl

theorem lastRow_eq (x : Text) : lastRow (x ++ [')', ';']) = stripOpen x.trimLeft := by
  have htrim : trim (x ++ [')', ';']) = x.trimLeft ++ [')', ';'] := by
    rw [trim, trimLeft_append_cons (by decide),
      show x.trimLeft ++ [')', ';'] = (x.trimLeft ++ [')']) ++ [';'] by simp,
      trimRight_concat (by decide)]
  rw [lastRow, htrim, stripOpen_append (by simp), stripEnd?_append]
  rfl

/-- The fields in the text of a row. -/
def rowFields (quotes : QuoteSet) (x : Text) : List Text :=
  parseFields quotes (stripOpen x.trimLeft)

theorem parseFields_append {b : Text} (hb : Blank b) (t : Text) :
    parseFields quotes (t ++ b) = parseFields quotes t :=
  Needle.map_trim_split_append (by decide) hb t

theorem parseFields_innerRow (hq : quotes.Plain) {x : Text} (hx : Balanced quotes x)
    (h : Avoids quotes [')', ';'] x) : parseFields quotes (innerRow x) = rowFields quotes x := by
  obtain ⟨b, hb, hxb⟩ := exists_trimRight x.trimLeft
  have hopen : b.head? ≠ some '(' := fun h => hb.notMem (by decide) (List.mem_of_mem_head? h)
  rw [innerRow_eq hq hx h, rowFields, hxb, stripOpen_append (.inr hopen), parseFields_append hb]
  rfl

/-- The rows of a list of values are the fields of its row texts. -/
theorem ValueList.parseRows_eq (hq : quotes.Plain) {t : Text} {xs : List Text}
    (h : ValueList quotes t xs) (hend : ∀ x ∈ xs, Avoids quotes [')', ';'] x) :
    parseRows quotes t = xs.map (rowFields quotes) := by
  induction h with
  | @last x hx havoid =>
    have hmiss : AvoidsRowEnd quotes (x ++ [')', ';']) := by
      have hend : AvoidsRowEnd quotes [')', ';'] :=
        avoidsRowEnd_of_avoids hq (avoids_of_notMem List.mem_cons_self (by decide))
      exact havoid.append hx hend (.inl (by decide))
    have hnext : (rowCutter quotes).next? (.unquoted, x ++ [')', ';']) = none :=
      nextRow?_eq_none hq hmiss
    have hrun := Cutter.run_of_none hnext
    rw [parseRows, if_neg (by simp), hrun]
    simp [lastRow_eq, rowFields]
  | @more x b t xs hx havoid hb ht ih =>
    have hnext : (rowCutter quotes).next? (.unquoted, x ++ ')' :: (b ++ ',' :: t)) =
        some (x, .unquoted, t) := nextRow?_append hq hx havoid hb t
    have hrun := Cutter.run_of_some hnext
    obtain ⟨hxe, hend⟩ := List.forall_mem_cons.1 hend
    have ih := ih hend
    rw [parseRows, if_neg (by simpa using ht.ne_nil)] at ih
    rw [parseRows, if_neg (by simp), hrun, List.map_cons, ← ih]
    simp only [List.map_cons, List.cons_append, Function.comp_apply, parseFields_innerRow hq hx hxe]

end Statement

end InsertLayout
