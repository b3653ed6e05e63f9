import InsertLayout.Proofs.Cuts
import InsertLayout.Proofs.Offsets.Search

/-!
# Parsing with byte offsets

The parts of a statement and the texts of its rows, cut out by the offsets of its parentheses. Every
closing parenthesis that stands outside quotes is looked at; what the library does instead, to seek
for the one that the keyword or a comma follows, takes the same parentheses for the ends, also where
the parenthesis, a blank or the comma is a quote (`keywordBehind_eq`, `rowTextsFrom_eq`). So parsing
with offsets meets no fault and yields what `Statement.parse` does (`Offsets.parse_eq`).
-/

set_option autoImplicit false

namespace InsertLayout

open Text Statement

variable {quotes : QuoteSet}

/-! ## The places of a character that is a quote -/

/-- Where a character is sought, it is found before it can open a quoted region. -/
theorem seek?_char_without (c : Char) (state : QuoteState) (t : Text) :
    seek? (quotes.without c) (Needle.char c).after? state t =
      seek? quotes (Needle.char c).after? state t := by
  induction t generalizing state with
  | nil => rfl
  | cons d t ih =>
    rw [seek?_cons, seek?_cons, ih]
    split
    · rfl
    · rename_i hnone
      have hstep : state.step (quotes.without c) d = state.step quotes d := by
        cases state with
        | quotedBy q => rfl
        | unquoted =>
          have hne : d ≠ c := by
            rintro rfl
            simp [QuoteState.isQuoted, Needle.after?, Needle.afterChars?, Needle.char,
              Needle.same] at hnone
          simp [QuoteState.step, QuoteSet.mem_without, hne]
      rw [hstep]

theorem Needle.offsetsFrom_char_without (c : Char) (start : Nat) (state : QuoteState) (t : Text) :
    (Needle.char c).offsetsFrom (quotes.without c) start state t =
      (Needle.char c).offsetsFrom quotes start state t := by
  have hcutter : (Needle.char c).cutter (quotes.without c) = (Needle.char c).cutter quotes := by
    unfold Needle.cutter
    congr 1
    funext t
    exact seek?_char_without c .unquoted t
  unfold Needle.offsetsFrom
  rw [seek?_char_without, hcutter]

/-- A search that accepts nothing but what starts with a character misses what has none. -/
theorem Misses.of_char {β : Type} {accept? : Text → Option β} {c : Char}
    (haccept : ∀ d u, d ≠ c → accept? (d :: u) = none) {state : QuoteState} {t rest : Text}
    (h : Misses quotes (Needle.char c).after? state t rest) :
    Misses quotes accept? state t rest := by
  intro a b he hb hs
  obtain ⟨d, b, rfl⟩ := List.exists_cons_of_ne_nil hb
  refine haccept d (b ++ rest) ?_
  rintro rfl
  have hnone := h a _ he hb hs
  simp [Needle.after?, Needle.afterChars?, Needle.char, Needle.same] at hnone

theorem misses_char_of_notMem {c : Char} {t : Text} (h : c ∉ t) (state : QuoteState)
    (rest : Text) : Misses quotes (Needle.char c).after? state t rest := by
  intro a b he hb _
  obtain ⟨d, b, rfl⟩ := List.exists_cons_of_ne_nil hb
  have hne : c ≠ d := by
    rintro rfl
    exact h (by rw [he]; simp)
  simp [Needle.after?, Needle.afterChars?, Needle.char, Needle.same, hne]

/-- Where a search accepts nothing but what starts with a character that is no quote, it looks at
the places of that character one after another. -/
theorem seek?_of_char {β : Type} {accept? : Text → Option β} {c : Char} (hc : c ∉ quotes)
    (haccept : ∀ d u, d ≠ c → accept? (d :: u) = none) {state : QuoteState} {a t : Text}
    (hmiss : Misses quotes (Needle.char c).after? state a (c :: t))
    (hscan : state.scan quotes a = .unquoted) :
    seek? quotes accept? state (a ++ c :: t) =
      match accept? (c :: t) with
      | some found => some (a, found)
      | none => (seek? quotes accept? .unquoted t).map fun p => (a ++ c :: p.1, p.2) := by
  have hstep : QuoteState.unquoted.step quotes c = .unquoted := if_neg hc
  rw [seek?_append (Misses.of_char haccept hmiss), hscan, seek?_cons, hstep]
  simp only [QuoteState.isQuoted, Bool.false_eq_true, if_false]
  cases accept? (c :: t) with
  | none => simp [Function.comp_def]
  | some found => simp

/-- The first offset is that of the first unquoted place of a character. -/
theorem Needle.offsetsFrom_char {c : Char} {state : QuoteState} {a t : Text}
    (hmiss : Misses quotes (Needle.char c).after? state a (c :: t))
    (hscan : state.scan quotes a = .unquoted) (start : Nat) :
    (Needle.char c).offsetsFrom quotes start state (a ++ c :: t) =
      (start + a.byteLength) ::
        (Needle.char c).offsetsFrom quotes (start + a.byteLength + c.utf8Size) .unquoted t := by
  have hafter : (Needle.char c).after? (c :: t) = some t :=
    (Needle.after?_eq_some_iff rfl (by simp [Needle.char])).2 rfl
  rw [Needle.offsetsFrom_append hmiss, hscan, Needle.offsetsFrom_of_after? hafter]
  rfl

theorem Text.Fits.of_strips {s t : Text} (ht : t.Fits) (h : Strips t s) : s.Fits := by
  obtain ⟨front, rest, rfl, -, -⟩ := h
  exact ht.of_infix ⟨front, rest, rfl⟩

namespace Offsets

/-! ## Parsing -/

/-- Where the keyword at the front of a text starts and stops, and where the blanks behind it do. -/
def keywordRange? (t : Text) : Option (Nat × Nat × Nat) :=
  (keyword? t).map fun (word, rest) =>
    let first := t.leadingBlanks.byteLength
    let last := first + word.byteLength
    (first, last, last + rest.leadingBlanks.byteLength)

/-- The first of several parentheses that the keyword follows: its offset, the keyword, and the
offset behind the blanks that follow it. -/
def keywordBehind (t : Text) : List Nat → Checked (Option (Nat × Text × Nat))
  | [] => return none
  | close :: others => do
    let behind ← sum close 1
    let rest ← partFrom behind t
    match keywordRange? rest with
    | none => keywordBehind t others
    | some (first, last, whole) =>
      let word ← part first last rest
      return some (close, word, ← sum behind whole)

/-- The texts of the rows from an offset on, given the offsets of the parentheses that may end
one. -/
def rowTextsFrom (t : Text) (start : Nat) : List Nat → Checked (List Text)
  | [] => do return [← partFrom start t]
  | close :: others => do
    let behind ← sum close 1
    let after ← partFrom behind t
    let gap ← difference after.byteLength after.trimLeft.byteLength
    if (← partFrom gap after).head? = some ',' then
      let row ← part start close t
      let next ← sum (← sum behind gap) 1
      return row :: (← rowTextsFrom t next others)
    else rowTextsFrom t start others

/-- The texts of the rows of a list of values. -/
def rowTexts (quotes : QuoteSet) (t : Text) : Checked (List Text) := do
  rowTextsFrom t 0 (← occurrences (.char ')') quotes 0 t)

/-- The fields of rows whose texts are given, with the indices of the first one and of the last. -/
def fieldsFrom (quotes : QuoteSet) (last : Nat) : Nat → List Text → Checked (List (List Text))
  | _, [] => return []
  | index, row :: rows => do
    let fields ← split [','] quotes (if index = last then lastRow row else innerRow row)
    return fields.map trim :: (← fieldsFrom quotes last (index + 1) rows)

/-- The rows of a list of values. -/
def parseRows (quotes : QuoteSet) (t : Text) : Checked (List (List Text)) :=
  if t.isEmpty then return []
  else do
    let rows ← rowTexts quotes t
    fieldsFrom quotes (← difference rows.length 1) 0 rows

/-- Takes a statement apart. -/
def parse (options : Options) (t : Text) : Checked (Except ParseError Statement) := do
  match ← find (.char '(') options.quotes 0 t with
  | none => return .error (.missingColumns t)
  | some first =>
    let inside ← sum first 1
    match ← keywordBehind t (← occurrences (.char ')') options.quotes inside t) with
    | none => return .error (.missingKeyword t)
    | some (close, keyword, start) =>
      let values := (← partFrom start t).trim
      if startsWithRow values then
        let columns ← split [','] options.quotes (← part inside close t)
        let clause ← partTo first t
        return .ok {
          clause := clause.trim
          columns := ((columns.map trim).filter (!·.isEmpty)).map (wrapColumn options.columnWrap)
          keyword
          rows := ← parseRows options.quotes values
          quotes := options.quotes }
      else return .error (.malformedValues values)

/-! ## The keyword -/

theorem eq_append_of_keyword? {t word rest : Text} (h : keyword? t = some (word, rest)) :
    t = t.leadingBlanks ++ word ++ rest := by
  simp only [keyword?, List.splitAt_eq] at h
  split at h
  · obtain ⟨rfl, rfl⟩ := by simpa using h
    rw [List.append_assoc, List.take_append_drop, leadingBlanks_append_trimLeft]
  · cases h

/-- The first parenthesis that the keyword follows is the one that a search for both finds. -/
theorem keywordBehind_eq (hclose : ')' ∉ quotes) (front u : Text) (h : (front ++ u).Fits) :
    keywordBehind (front ++ u)
        ((Needle.char ')').offsetsFrom quotes front.byteLength .unquoted u) =
      .ok ((seek? quotes columnsEnd? .unquoted u).map fun p =>
        ((front ++ p.1).byteLength, p.2.1,
          (front ++ u).byteLength - p.2.2.trimLeft.byteLength)) := by
  have haccept (d : Char) (u : Text) (hd : d ≠ ')') := columnsEnd?_eq_none_of_ne (t := u) hd
  induction u using Needle.split_induction quotes ')' generalizing front with
  | last u havoid =>
    have hmiss : Misses quotes (Needle.char ')').after? .unquoted u [] :=
      Needle.misses_char_iff.2 havoid
    rw [Needle.offsetsFrom_eq_nil hmiss, seek?_eq_none_iff.2 (Misses.of_char haccept hmiss)]
    rfl
  | more a t ha havoid ih =>
    have hmiss : Misses quotes (Needle.char ')').after? .unquoted a (')' :: t) :=
      Needle.misses_char_iff.2 havoid
    have hsum : sum (front ++ a).byteLength 1 = .ok (front ++ a ++ [')']).byteLength :=
      sum_one ')' t rfl (by simpa using h)
    have hrest := partFrom_eq (front ++ a ++ [')']) t
    have hgo := ih (front ++ a ++ [')']) (by simpa using h)
    have hbehind : front.byteLength + a.byteLength + Char.utf8Size ')' =
        (front ++ a ++ [')']).byteLength := by simp [Nat.add_assoc]
    rw [show front ++ a ++ [')'] ++ t = front ++ (a ++ ')' :: t) by simp] at hrest hgo
    rw [Needle.offsetsFrom_char hmiss ha, hbehind, ← byteLength_append, keywordBehind, hsum,
      ok_bind, hrest, ok_bind, seek?_of_char hclose haccept hmiss ha]
    simp only [columnsEnd?, keywordRange?]
    cases hkey : keyword? t with
    | none =>
      simp only [Option.map_none, hgo, Option.map_map]
      congr
      funext p
      simp
    | some p =>
      obtain ⟨word, rest⟩ := p
      have ht := eq_append_of_keyword? hkey
      have hword := part_eq t.leadingBlanks word rest
      rw [← ht, byteLength_append] at hword
      have hstart : (front ++ (a ++ ')' :: t)).byteLength = (front ++ a ++ [')']).byteLength +
          (t.leadingBlanks.byteLength + word.byteLength + rest.leadingBlanks.byteLength) +
            rest.trimLeft.byteLength := by
        have hlength := congrArg byteLength ht
        have hblanks := congrArg byteLength (leadingBlanks_append_trimLeft rest)
        simp only [byteLength_append, byteLength_cons, byteLength_nil] at hlength hblanks ⊢
        omega
      unfold Fits at h
      simp only [Option.map_some, hword, ok_bind]
      rw [sum_eq (by omega), hstart, Nat.add_sub_cancel]
      rfl

/-! ## Rows -/

/-- The texts of the rows that are left, with a scan in some state at the front of a text. -/
def rowsLeft (quotes : QuoteSet) (state : QuoteState) (t : Text) : List Text :=
  let (rows, _, last) := (rowCutter quotes).run (state, t)
  rows ++ [last]

theorem rowsLeft_of_none {state : QuoteState} {t : Text}
    (h : nextRow? quotes (state, t) = none) : rowsLeft quotes state t = [t] := by
  rw [rowsLeft, show (rowCutter quotes).run (state, t) = _ from Cutter.run_of_none h]
  rfl

theorem rowsLeft_of_some {state state' : QuoteState} {t row rest : Text}
    (h : nextRow? quotes (state, t) = some (row, state', rest)) :
    rowsLeft quotes state t = row :: rowsLeft quotes state' rest := by
  rw [rowsLeft, show (rowCutter quotes).run (state, t) = _ from Cutter.run_of_some h]
  rfl

/-- The gap between two rows has no parenthesis in it, but what stands there may be a quote. -/
theorem offsetsFrom_gap {blanks : Text} (hblanks : Blank blanks) (start : Nat) (rest : Text) :
    (Needle.char ')').offsetsFrom quotes start .unquoted (blanks ++ ',' :: rest) =
      (Needle.char ')').offsetsFrom quotes (start + (blanks ++ [',']).byteLength)
        (QuoteState.unquoted.scan quotes (blanks ++ [','])) rest := by
  have hgap : Misses quotes (Needle.char ')').after? .unquoted (blanks ++ [',']) rest := by
    refine misses_char_of_notMem ?_ _ _
    simp [hblanks.notMem (c := ')') (by decide)]
  have hoffsets := Needle.offsetsFrom_append hgap start
  rwa [List.append_assoc, List.singleton_append] at hoffsets

/-- Where no row ends, one row is left. -/
theorem rowsLeft_of_misses {state : QuoteState} {t : Text}
    (h : Misses (quotes.without ')') rowEnd? state t []) : rowsLeft quotes state t = [t] := by
  apply rowsLeft_of_none
  rw [nextRow?, seek?_eq_none_iff.2 h]
  rfl

theorem rowEnd?_eq_none {t : Text} (h : t.trimLeft.head? ≠ some ',') :
    rowEnd? (')' :: t) = none := by
  rw [Option.eq_none_iff_forall_ne_some]
  rintro ⟨blanks, rest⟩ hsome
  obtain ⟨hblanks, heq⟩ := rowEnd?_eq_some_iff.1 hsome
  rw [(List.cons.inj heq).2, trimLeft_append hblanks, trimLeft_cons (by decide)] at h
  exact h rfl

/-- The next row ends at a parenthesis that a comma follows, if none ends before. -/
theorem nextRow?_of_misses {state : QuoteState} {row blanks rest : Text}
    (hmiss : Misses (quotes.without ')') rowEnd? state row (')' :: (blanks ++ ',' :: rest)))
    (hscan : state.scan (quotes.without ')') row = .unquoted) (hblanks : Blank blanks) :
    nextRow? quotes (state, row ++ ')' :: (blanks ++ ',' :: rest)) =
      some (row, QuoteState.unquoted.scan (quotes.without ')') (blanks ++ [',']), rest) := by
  have hseek : seek? (quotes.without ')') rowEnd? state (row ++ ')' :: (blanks ++ ',' :: rest)) =
      some (row, blanks, rest) :=
    seek?_eq_some_iff.2 ⟨_, rfl, by simp, hmiss, hscan, rowEnd?_eq_some_iff.2 ⟨hblanks, rfl⟩⟩
  rw [nextRow?, hseek]
  rfl

/-- What is done at the offset of a parenthesis: a row is cut out if it ends there. -/
theorem rowTextsFrom_cons (front row rest : Text) {t : Text}
    (ht : t = front ++ (row ++ ')' :: rest)) (h : t.Fits) (others : List Nat) :
    rowTextsFrom t front.byteLength ((front ++ row).byteLength :: others) =
      if rest.trimLeft.head? = some ',' then do
        let next := front ++ (row ++ ')' :: (rest.leadingBlanks ++ [',']))
        return row :: (← rowTextsFrom t next.byteLength others)
      else rowTextsFrom t front.byteLength others := by
  subst ht
  have hclose : sum (front ++ row).byteLength 1 = .ok (front ++ row ++ [')']).byteLength :=
    sum_one ')' rest rfl (by simpa using h)
  have hrest := partFrom_eq (front ++ row ++ [')']) rest
  rw [show front ++ row ++ [')'] ++ rest = front ++ (row ++ ')' :: rest) by simp] at hrest
  have hblanks : rest.byteLength = rest.leadingBlanks.byteLength + rest.trimLeft.byteLength := by
    rw [← byteLength_append, leadingBlanks_append_trimLeft]
  have hgap : difference rest.byteLength rest.trimLeft.byteLength =
      .ok rest.leadingBlanks.byteLength := by
    rw [difference_eq (by omega), hblanks, Nat.add_sub_cancel]
  have hleft := partFrom_eq rest.leadingBlanks rest.trimLeft
  rw [leadingBlanks_append_trimLeft] at hleft
  rw [rowTextsFrom, hclose, ok_bind, hrest, ok_bind, hgap, ok_bind, hleft, ok_bind]
  split
  · rename_i hcomma
    obtain ⟨after, hafter⟩ := List.head?_eq_some_iff.1 hcomma
    have hpart := part_eq front row (')' :: rest)
    rw [List.append_assoc] at hpart
    have hsize : (front ++ (row ++ ')' :: rest)).byteLength = (front ++ row ++ [')']).byteLength +
        (rest.leadingBlanks.byteLength + (1 + Text.byteLength after)) := by
      rw [hafter, byteLength_cons, show Char.utf8Size ',' = 1 from rfl] at hblanks
      simp [hblanks, Nat.add_assoc]
    unfold Fits at h
    rw [hpart, ok_bind, sum_eq (by omega), ok_bind, sum_eq (by omega), ok_bind]
    simp [Nat.add_assoc, show Char.utf8Size ',' = 1 from rfl]
  · rfl

/-- Of a text in which no row ends, the rows go on behind the offsets of the parentheses in what
follows it: they end where a search for both the parenthesis and the comma ends them. -/
theorem rowTextsFrom_eq (quotes : QuoteSet) (front done u : Text) (state : QuoteState)
    (h : (front ++ (done ++ u)).Fits)
    (hdone : Misses (quotes.without ')') rowEnd? state done u) :
    rowTextsFrom (front ++ (done ++ u)) front.byteLength
        ((Needle.char ')').offsetsFrom (quotes.without ')') (front ++ done).byteLength
          (state.scan (quotes.without ')') done) u) =
      .ok (rowsLeft quotes state (done ++ u)) := by
  have haccept (d : Char) (u : Text) (hd : d ≠ ')') := rowEnd?_eq_none_of_ne (t := u) hd
  have hclose : ')' ∉ quotes.without ')' := by simp [QuoteSet.mem_without]
  induction hlength : u.length using Nat.strongRecOn generalizing front done u state with
  | ind n ih =>
    subst hlength
    cases hseek : seek? (quotes.without ')') (Needle.char ')').after?
        (state.scan (quotes.without ')') done) u with
    | none =>
      have hmiss := seek?_eq_none_iff.1 hseek
      have hrows : Misses (quotes.without ')') rowEnd? state (done ++ u) [] :=
        misses_append_iff.2 ⟨by rwa [List.append_nil], Misses.of_char haccept hmiss⟩
      rw [Needle.offsetsFrom_eq_nil hmiss, rowTextsFrom, partFrom_eq, ok_bind,
        rowsLeft_of_misses hrows]
      rfl
    | some p =>
      obtain ⟨before, rest⟩ := p
      obtain ⟨r, rfl, -, hmiss, hscan, hr⟩ := seek?_eq_some_iff.1 hseek
      obtain rfl : r = ')' :: rest :=
        (@Needle.after?_eq_some_iff (.char ')') rfl (by simp [Needle.char]) _ _).1 hr
      have hrow : Misses (quotes.without ')') rowEnd? state (done ++ before) (')' :: rest) :=
        misses_append_iff.2 ⟨hdone, Misses.of_char haccept hmiss⟩
      have hstep := rowTextsFrom_cons front (done ++ before) rest (by simp) h
      have hbehind : (front ++ done).byteLength + before.byteLength =
          (front ++ (done ++ before)).byteLength := by simp [Nat.add_assoc]
      rw [Needle.offsetsFrom_char hmiss hscan, hbehind, hstep]
      by_cases hcomma : rest.trimLeft.head? = some ','
      · -- The next row starts behind the comma, in the state in which the gap leaves the scan.
        obtain ⟨after, hafter⟩ := List.head?_eq_some_iff.1 hcomma
        have hblanks := blank_leadingBlanks rest
        have hrest := leadingBlanks_append_trimLeft rest
        rw [hafter] at hrest
        rw [if_pos hcomma]
        generalize rest.leadingBlanks = blanks at hblanks hrest ⊢
        subst hrest
        have hnext := nextRow?_of_misses hrow
          (by rw [QuoteState.scan_append, hscan]) hblanks
        have hrest := ih after.length (by simp; omega)
          (front ++ (done ++ before ++ ')' :: (blanks ++ [',']))) [] after _ (by simpa using h)
          (misses_nil (QuoteState.unquoted.scan (quotes.without ')') (blanks ++ [','])) _) rfl
        have hsize : (front ++ (done ++ before)).byteLength + Char.utf8Size ')' +
            byteLength (blanks ++ [',']) =
              (front ++ (done ++ (before ++ ')' :: (blanks ++ [','])))).byteLength := by
          simp [Nat.add_assoc]
        simp only [List.append_assoc, List.cons_append, List.nil_append, List.append_nil,
          QuoteState.scan_nil] at hnext hrest ⊢
        rw [offsetsFrom_gap hblanks, hsize, hrest, rowsLeft_of_some hnext]
        rfl
      · -- No row ends at the parenthesis, and the text of this one goes on behind it.
        have hdone' : Misses (quotes.without ')') rowEnd? state (done ++ before ++ [')']) rest :=
          misses_append_iff.2 ⟨hrow, misses_cons_iff.2 ⟨fun _ => rowEnd?_eq_none hcomma,
            misses_nil _ _⟩⟩
        have hscan' : state.scan (quotes.without ')') (done ++ before ++ [')']) = .unquoted := by
          rw [QuoteState.scan_append, QuoteState.scan_append, hscan]
          exact if_neg hclose
        have hrest := ih rest.length (by simp; omega) front (done ++ before ++ [')']) rest state
          (by simpa using h) hdone' rfl
        rw [if_neg hcomma]
        rw [hscan'] at hrest
        simpa [Nat.add_assoc] using hrest

/-- Where a scan starts outside quotes, the places of a character are those that a search in the
rest of the text finds, whether or not the character is a quote. -/
theorem occurrences_char (quotes : QuoteSet) (c : Char) (front u : Text) :
    (Needle.char c).occurrences quotes front.byteLength (front ++ u) =
      (Needle.char c).offsetsFrom (quotes.without c) front.byteLength .unquoted u := by
  rw [Needle.offsetsFrom_char_without, Needle.offsetsFrom_unquoted, Needle.occurrences,
    dropBytes?_byteLength]

theorem rowTexts_eq {t : Text} (h : t.Fits) :
    rowTexts quotes t = .ok (rowsLeft quotes .unquoted t) := by
  have hclose : (Needle.char ')').chars.Fits := by decide
  have hrows := rowTextsFrom_eq quotes [] [] t .unquoted h (misses_nil _ _)
  have hplaces := occurrences_char quotes ')' [] t
  unfold rowTexts
  rw [occurrences_eq hclose h, ok_bind]
  rw [List.nil_append] at hrows hplaces
  rw [← byteLength_nil, hplaces]
  exact hrows

/-- The text of each row is a part of the text. -/
theorem infix_of_mem_rowsLeft {state : QuoteState} {t row : Text}
    (h : row ∈ rowsLeft quotes state t) : row <:+: t := by
  induction hlength : t.length using Nat.strongRecOn generalizing state t with
  | ind n ih =>
    subst hlength
    cases hnext : nextRow? quotes (state, t) with
    | none =>
      rw [rowsLeft_of_none hnext] at h
      exact (List.mem_singleton.1 h) ▸ List.infix_refl _
    | some p =>
      obtain ⟨row', state', rest⟩ := p
      have hlt : rest.length < t.length := length_lt_of_nextRow? hnext
      rw [rowsLeft_of_some hnext] at h
      simp only [nextRow?, bind, Option.bind_eq_some_iff, pure] at hnext
      obtain ⟨⟨before, blanks, after⟩, hseek, heq⟩ := hnext
      obtain ⟨rfl, -, rfl⟩ := by simpa using heq
      obtain ⟨r, rfl, hend, -⟩ := exists_of_seek? hseek
      obtain ⟨-, rfl⟩ := rowEnd?_eq_some_iff.1 hend
      rcases List.mem_cons.1 h with rfl | hmem
      · exact (List.prefix_append _ _).isInfix
      · refine (ih _ hlt hmem rfl).trans ⟨before ++ ')' :: (blanks ++ [',']), [], by simp⟩

/-- The fields of each row are those of its text, which is stripped differently for the last one. -/
theorem fieldsFrom_eq (quotes : QuoteSet) (rows : List Text) (row : Text) (index : Nat)
    (h : ∀ x ∈ rows ++ [row], Fits x) :
    fieldsFrom quotes (index + rows.length) index (rows ++ [row]) =
      .ok (rows.map (parseFields quotes ∘ innerRow) ++ [parseFields quotes (lastRow row)]) := by
  have hcomma : Fits [','] := by decide
  have hfields {x : Text} (hx : x.Fits) :
      split [','] quotes x = .ok ((Needle.char ',').split quotes x) := split_eq hcomma hx
  induction rows generalizing index with
  | nil =>
    have hlast : (lastRow row).Fits := (h row (by simp)).of_strips (strips_lastRow row)
    simp [fieldsFrom, hfields hlast, parseFields, pure, Except.pure]
  | cons x rows ih =>
    have hinner : (innerRow x).Fits := (h x (by simp)).of_strips (strips_innerRow x)
    have hrest := ih (index + 1) fun y hy => h y (List.mem_cons_of_mem _ hy)
    have hne : index ≠ index + (x :: rows).length := by simp
    rw [show index + 1 + rows.length = index + (x :: rows).length by simp; omega] at hrest
    rw [List.cons_append, fieldsFrom, if_neg hne, hfields hinner, ok_bind, hrest]
    rfl

/-- The rows of a list of values are parsed without a fault. -/
theorem parseRows_eq {t : Text} (h : t.Fits) :
    parseRows quotes t = .ok (Statement.parseRows quotes t) := by
  unfold parseRows Statement.parseRows
  split
  · rfl
  · rw [rowTexts_eq h, ok_bind]
    have hfits (x : Text) (hx : x ∈ rowsLeft quotes .unquoted t) : x.Fits :=
      h.of_infix (infix_of_mem_rowsLeft hx)
    unfold rowsLeft at hfits ⊢
    generalize (rowCutter quotes).run (.unquoted, t) = p at hfits ⊢
    obtain ⟨rows, state, last⟩ := p
    have hfields := fieldsFrom_eq quotes rows last 0 hfits
    rw [Nat.zero_add] at hfields
    rw [difference_eq (by simp), ok_bind, List.length_append, List.length_singleton,
      Nat.add_sub_cancel, hfields]

/-! ## Statements -/

/-- A statement is parsed without a fault. -/
theorem parse_eq (options : Options) {t : Text} (h : t.Fits) :
    parse options t = .ok (Statement.parse options t) := by
  have hopen : (Needle.char '(').chars.Fits := by decide
  have hcomma : Fits [','] := by decide
  have hfind := Needle.find?_append (.char '(') options.quotes [] t
  rw [byteLength_nil, List.nil_append] at hfind
  unfold parse Statement.parse cutParts
  rw [find_eq hopen h, ok_bind, hfind]
  cases hcut : (Needle.char '(').cut? options.quotes t with
  | none => rfl
  | some p =>
    obtain ⟨clause, rest⟩ := p
    obtain ⟨rfl, -⟩ := Needle.cut?_char_eq_some_iff.1 hcut
    have hclose : ')' ∉ options.quotes.without ')' := by simp [QuoteSet.mem_without]
    have hinside : sum clause.byteLength 1 = .ok (clause ++ ['(']).byteLength :=
      sum_one '(' rest rfl h
    have hplaces := @occurrences_eq options.quotes (.char ')') (by decide) _ h
      (clause ++ ['(']).byteLength
    have hchar := occurrences_char options.quotes ')' (clause ++ ['(']) rest
    have hkeyword := keywordBehind_eq hclose (clause ++ ['(']) rest (by simpa using h)
    rw [List.append_assoc, List.singleton_append] at hchar hkeyword
    simp only [Option.map_some, List.nil_append, hinside, ok_bind, hplaces, hchar, hkeyword]
    cases hseek : seek? (options.quotes.without ')') columnsEnd? .unquoted rest with
    | none => rfl
    | some p =>
      obtain ⟨columns, keyword, behind⟩ := p
      obtain ⟨r, rfl, hend, -⟩ := exists_of_seek? hseek
      obtain ⟨r, rfl, hkey⟩ := columnsEnd?_eq_some_iff.1 hend
      have hcolumns := part_eq (clause ++ ['(']) columns (')' :: r)
      have hclause := partTo_eq clause ('(' :: (columns ++ ')' :: r))
      have hbehind : behind <:+ clause ++ '(' :: (columns ++ ')' :: r) :=
        ⟨clause ++ '(' :: (columns ++ ')' :: (leadingBlanks r ++ keyword)), by
          conv_rhs => rw [eq_append_of_keyword? hkey]
          simp⟩
      have hstart : behind.trimLeft <:+ clause ++ '(' :: (columns ++ ')' :: r) :=
        (List.dropWhile_suffix _).trans hbehind
      rw [show clause ++ ['('] ++ columns ++ ')' :: r = clause ++ '(' :: (columns ++ ')' :: r) by
        simp] at hcolumns
      have hcolumns' : columns.Fits := h.of_infix ⟨clause ++ ['('], ')' :: r, by simp⟩
      have hvalues : behind.trim.Fits := h.of_infix ((isInfix_trim behind).trans hbehind.isInfix)
      simp only [Option.map_some, partFrom_suffix hstart, ok_bind, trim_trimLeft, hcolumns, hclause,
        split_eq hcomma hcolumns', parseRows_eq hvalues]
      split
      · rfl
      · rfl

end Offsets

end InsertLayout
