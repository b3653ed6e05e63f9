import InsertLayout.Proofs.Cuts
import InsertLayout.Proofs.Sound

/-!
# The outcome of parsing in one scan

A text is taken apart by searches, each of which starts a scan of its own, and so does each cut of a
list. All of them start at unquoted places of one scan of the whole text. `Outcome` says in terms of
that scan what taking a text apart yields, a statement or an error (`outcome_parse`), and
`parse_cuts` says when it yields which.
-/

set_option autoImplicit false

namespace InsertLayout

open Text

namespace Statement

variable {quotes : QuoteSet} {options : Options}

/-! ## Places -/

/-- The unquoted places of one scan at which a list of columns may start. -/
def openPlaces (quotes : QuoteSet) (t : Text) : Set Nat := t.places quotes (['('] <+: ·)

/-- At an unquoted parenthesis of one scan the list of columns may end: the keyword follows it as a
word of its own, behind blanks or none, and ends at the offset `behind`. -/
structure KeywordAt (quotes : QuoteSet) (t : Text) (closing : Nat) (keyword : Text) (behind : Nat)
    (rest : Text) : Prop where
  place : ∃ blanks, Blank blanks ∧
    t.UnquotedAt quotes closing (')' :: (blanks ++ keyword ++ rest)) ∧
      behind = closing + byteLength (')' :: (blanks ++ keyword))
  keyword : isValuesKeyword keyword = true
  rest_word : continuesWord rest = false

/-- The places at which a list of columns may end. -/
def closePlaces (quotes : QuoteSet) (t : Text) : Set Nat :=
  {p | ∃ keyword behind rest, KeywordAt quotes t p keyword behind rest}

/-- The keyword at a place is determined. -/
theorem KeywordAt.unique {t keyword keyword' rest rest' : Text} {closing behind behind' : Nat}
    (h : KeywordAt quotes t closing keyword behind rest)
    (h' : KeywordAt quotes t closing keyword' behind' rest') :
    keyword = keyword' ∧ behind = behind' ∧ rest = rest' := by
  obtain ⟨⟨b, hb, hplace, rfl⟩, hk, hword⟩ := h
  obtain ⟨⟨b', hb', hplace', rfl⟩, hk', hword'⟩ := h'
  have heq : b ++ keyword ++ rest = b' ++ keyword' ++ rest' :=
    (List.cons.inj (hplace.unique hplace')).2
  have hkey := keyword?_eq_some_iff.2 ⟨hk, hword, b, hb, rfl⟩
  rw [heq, keyword?_eq_some_iff.2 ⟨hk', hword', b', hb', rfl⟩] at hkey
  obtain ⟨rfl, rfl⟩ := Prod.mk.inj (Option.some.inj hkey)
  obtain rfl := List.append_cancel_right (List.append_cancel_right heq)
  exact ⟨rfl, rfl, rfl⟩

theorem closePlaces_eq (t : Text) : closePlaces quotes t =
    t.places quotes fun r => ∃ found, columnsEnd? r = some found := by
  ext p
  constructor
  · rintro ⟨k, behind, rest, ⟨b, hb, hplace, -⟩, hk, hword⟩
    refine ⟨_, hplace, (k, rest), columnsEnd?_eq_some_iff.2 ⟨_, rfl, ?_⟩⟩
    exact keyword?_eq_some_iff.2 ⟨hk, hword, b, hb, rfl⟩
  · rintro ⟨r, hr, ⟨k, rest⟩, hend⟩
    obtain ⟨u, rfl, hkey⟩ := columnsEnd?_eq_some_iff.1 hend
    obtain ⟨hk, hword, b, hb, rfl⟩ := keyword?_eq_some_iff.1 hkey
    exact ⟨k, _, rest, ⟨b, hb, hr, rfl⟩, hk, hword⟩

/-- A statement is cut out of a text along one scan: its list of columns stands between two offsets
and its rows behind a third one, where `rest` is left. -/
structure CutOut (options : Options) (t : Text) (opening closing behind : Nat) (rest : Text)
    (s : Statement) : Prop where
  clause : ∃ front, t.takeBytes? opening = some front ∧ s.clause = front.trim
  columns : ∃ names, FieldsAt options.quotes t id ⟨opening + 1, closing⟩ names ∧
    s.columns = (names.filter (!·.isEmpty)).map (wrapColumn options.columnWrap)
  rows : if rest.trim = [] then s.rows = [] else
    RowsAt options.quotes t ⟨behind, t.byteLength⟩ (trimmedExtent behind rest) s.rows
  quotes : s.quotes = options.quotes

/-- What taking a text apart yields, in terms of one scan. -/
inductive Outcome (options : Options) (t : Text) : Except ParseError Statement → Prop where
  | noColumns : openPlaces options.quotes t = ∅ → Outcome options t (.error (.missingColumns t))
  | noKeyword {opening : Nat} : IsLeast (openPlaces options.quotes t) opening →
      closePlaces options.quotes t ∩ Set.Ioi opening = ∅ →
        Outcome options t (.error (.missingKeyword t))
  | malformed {opening closing behind : Nat} {keyword rest : Text} :
      IsLeast (openPlaces options.quotes t) opening →
        IsLeast (closePlaces options.quotes t ∩ Set.Ioi opening) closing →
          KeywordAt options.quotes t closing keyword behind rest →
            startsWithRow rest.trim = false →
              Outcome options t (.error (.malformedValues rest.trim))
  | parsed {opening closing behind : Nat} {rest : Text} {s : Statement} :
      IsLeast (openPlaces options.quotes t) opening →
        IsLeast (closePlaces options.quotes t ∩ Set.Ioi opening) closing →
          KeywordAt options.quotes t closing s.keyword behind rest →
            startsWithRow rest.trim = true → CutOut options t opening closing behind rest s →
              Outcome options t (.ok s)

theorem startsWithRow_iff (t : Text) :
    startsWithRow t = true ↔ t = [] ∨ t.head? = some '(' := by
  cases t with
  | nil => simp [startsWithRow]
  | cons c t => simp [startsWithRow]

/-- Where the list of columns and the keyword stand, the statement is cut out along the one scan. -/
theorem cutOut_ofParts (hq : options.quotes.Plain) {clause columns blanks keyword rest : Text}
    (hclause : Balanced options.quotes clause) (hcolumns : Balanced options.quotes columns)
    (hblank : Blank blanks) (hkeyword : isValuesKeyword keyword = true) :
    CutOut options (clause ++ ['('] ++ columns ++ ')' :: (blanks ++ keyword) ++ rest)
      clause.byteLength (clause ++ ['('] ++ columns).byteLength
      (clause ++ ['('] ++ columns ++ ')' :: (blanks ++ keyword)).byteLength rest
      (ofParts options ⟨clause, columns, keyword, rest.trim⟩) where
  clause := by
    refine ⟨clause, ?_, rfl⟩
    simpa using takeBytes?_byteLength clause
      ('(' :: (columns ++ ')' :: (blanks ++ keyword) ++ rest))
  columns := by
    refine ⟨parseFields options.quotes columns, ?_, rfl⟩
    have hopen := hclause.append (balanced_singleton hq.open_notMem)
    have hfields : FieldsAt options.quotes _ id _ (parseFields options.quotes (id columns)) :=
      fieldsAt_of_strips hopen hq (strips_refl columns) (')' :: (blanks ++ keyword) ++ rest)
    rw [← List.append_assoc, Extent.behind, byteLength_append clause] at hfields
    exact hfields
  rows := by
    have hfront : Balanced options.quotes
        (clause ++ ['('] ++ columns ++ ')' :: (blanks ++ keyword)) := by
      refine ((hclause.append (balanced_singleton hq.open_notMem)).append hcolumns).append ?_
      refine (balanced_cons_iff hq.close_notMem).2 ?_
      exact (balanced_blank hq hblank).append (balanced_keyword hq hkeyword)
    split
    · rename_i hnone
      rw [ofParts, hnone]
      rfl
    · rename_i hsome
      exact rowsAt_parseRows hq hfront hsome
  quotes := rfl

/-- The first parenthesis that a search finds is the first one of the one scan. -/
theorem isLeast_openPlaces {t clause rest : Text}
    (h : (Needle.char '(').cut? quotes t = some (clause, rest)) :
    IsLeast (openPlaces quotes t) clause.byteLength := by
  have hleast := isLeast_places_of_seek? balanced_nil (Needle.prefix_iff rfl (by decide)) h
  exact ⟨hleast.1.1, fun p hp => hleast.2 ⟨hp, Nat.zero_le p⟩⟩

theorem openPlaces_eq_empty {t : Text} (h : (Needle.char '(').cut? quotes t = none) :
    openPlaces quotes t = ∅ := by
  have hnone :=
    places_eq_empty_of_seek? balanced_nil (Needle.prefix_iff rfl (by decide)) (by decide) h
  refine Set.eq_empty_iff_forall_notMem.2 fun p hp => ?_
  exact Set.eq_empty_iff_forall_notMem.1 hnone p ⟨hp, Nat.zero_le p⟩

section
variable (hq : quotes.Plain) {clause rest : Text} (hclause : Balanced quotes clause)
include hq hclause

/-- So is the first end of a list of columns behind it. -/
theorem isLeast_closePlaces {columns : Text} {found : Text × Text}
    (h : seek? quotes columnsEnd? .unquoted rest = some (columns, found)) :
    IsLeast (closePlaces quotes (clause ++ '(' :: rest) ∩ Set.Ioi clause.byteLength)
      (clause ++ ['('] ++ columns).byteLength := by
  have hfront := hclause.append (balanced_singleton hq.open_notMem)
  have hleast := isLeast_places_of_seek? hfront (fun _ => Iff.rfl) h
  rw [← closePlaces_eq, List.append_assoc, byteLength_append clause] at hleast
  exact hleast

theorem closePlaces_eq_empty (h : seek? quotes columnsEnd? .unquoted rest = none) :
    closePlaces quotes (clause ++ '(' :: rest) ∩ Set.Ioi clause.byteLength = ∅ := by
  have hfront := hclause.append (balanced_singleton hq.open_notMem)
  have hnil : ¬ ∃ found, columnsEnd? [] = some found := by
    rintro ⟨_, hfound⟩
    cases hfound
  have hnone := places_eq_empty_of_seek? hfront (fun _ => Iff.rfl) hnil h
  rw [← closePlaces_eq, List.append_assoc, byteLength_append clause] at hnone
  exact hnone

end

/-- Taking a text apart yields what one scan of it shows. -/
theorem outcome_parse (hq : options.quotes.Plain) (t : Text) :
    Outcome options t (parse options t) := by
  unfold parse cutParts
  rw [hq.without_eq]
  cases hopen : (Needle.char '(').cut? options.quotes t with
  | none => exact .noColumns (openPlaces_eq_empty hopen)
  | some p =>
    obtain ⟨clause, rest⟩ := p
    have hopening := isLeast_openPlaces hopen
    obtain ⟨rfl, hclause, -⟩ := Needle.cut?_char_eq_some_iff.1 hopen
    cases hclose : seek? options.quotes columnsEnd? .unquoted rest with
    | none =>
      simp only [hclose]
      exact .noKeyword hopening (closePlaces_eq_empty hq hclause hclose)
    | some q =>
      obtain ⟨columns, keyword, rest⟩ := q
      have hclosing := isLeast_closePlaces hq hclause hclose
      obtain ⟨r, rfl, -, -, hcolumns, hend⟩ := seek?_eq_some_iff.1 hclose
      obtain ⟨u, rfl, hkey⟩ := columnsEnd?_eq_some_iff.1 hend
      obtain ⟨hk, hword, b, hb, rfl⟩ := keyword?_eq_some_iff.1 hkey
      have hfront := (hclause.append (balanced_singleton hq.open_notMem)).append hcolumns
      have hplace := unquotedAt_of_balanced hfront (')' :: (b ++ keyword ++ rest))
      have hcut : CutOut options _ _ _ _ rest _ := cutOut_ofParts hq hclause hcolumns hb hk
      have htext : clause ++ ['('] ++ columns ++ ')' :: (b ++ keyword ++ rest) =
          clause ++ '(' :: (columns ++ ')' :: (b ++ keyword ++ rest)) := by simp
      rw [htext] at hplace
      rw [List.append_assoc, List.cons_append, htext] at hcut
      have hkeyword : KeywordAt options.quotes _ _ keyword _ rest :=
        ⟨⟨b, hb, hplace, byteLength_append _ _⟩, hk, hword⟩
      simp only [hclose]
      cases hstarts : startsWithRow rest.trim with
      | false => exact .malformed hopening hclosing hkeyword hstarts
      | true => exact .parsed hopening hclosing hkeyword hstarts hcut

namespace Outcome

variable {t : Text} {result : Except ParseError Statement} (h : Outcome options t result)
include h

theorem eq_of_openPlaces (hnone : openPlaces options.quotes t = ∅) :
    result = .error (.missingColumns t) := by
  cases h with
  | noColumns _ => rfl
  | noKeyword hopening _ | malformed hopening _ _ _ | parsed hopening _ _ _ _ =>
    exact absurd hopening.1 (by simp [hnone])

variable {opening : Nat} (hopening : IsLeast (openPlaces options.quotes t) opening)
include hopening

theorem eq_of_closePlaces (hnone : closePlaces options.quotes t ∩ Set.Ioi opening = ∅) :
    result = .error (.missingKeyword t) := by
  cases h with
  | noColumns hnone' => exact absurd hopening.1 (by simp [hnone'])
  | noKeyword _ _ => rfl
  | malformed hopening' hclosing _ _ | parsed hopening' hclosing _ _ _ =>
    obtain rfl := hopening.unique hopening'
    exact absurd hclosing.1 (by simp [hnone])

theorem of_keywordAt {closing behind : Nat} {keyword rest : Text}
    (hclosing : IsLeast (closePlaces options.quotes t ∩ Set.Ioi opening) closing)
    (hkeyword : KeywordAt options.quotes t closing keyword behind rest) :
    startsWithRow rest.trim = false ∧ result = .error (.malformedValues rest.trim) ∨
      startsWithRow rest.trim = true ∧ ∃ s, result = .ok s ∧ s.keyword = keyword ∧
        CutOut options t opening closing behind rest s := by
  cases h with
  | noColumns hnone => exact absurd hopening.1 (by simp [hnone])
  | noKeyword hopening' hnone =>
    obtain rfl := hopening.unique hopening'
    exact absurd hclosing.1 (by simp [hnone])
  | malformed hopening' hclosing' hkeyword' hstarts =>
    obtain rfl := hopening.unique hopening'
    obtain rfl := hclosing.unique hclosing'
    obtain ⟨-, -, rfl⟩ := hkeyword.unique hkeyword'
    exact .inl ⟨hstarts, rfl⟩
  | @parsed _ _ _ _ s hopening' hclosing' hkeyword' hstarts hcut =>
    obtain rfl := hopening.unique hopening'
    obtain rfl := hclosing.unique hclosing'
    obtain ⟨rfl, rfl, rfl⟩ := hkeyword.unique hkeyword'
    exact .inr ⟨hstarts, s, rfl, rfl, hcut⟩

end Outcome

/-- A text is taken apart at the places that one scan of it shows. It has no list of columns exactly
if no parenthesis opens outside quotes, and lacks the keyword exactly if none follows a parenthesis
outside quotes behind the first one. What follows the keyword is malformed exactly if it is not
empty and does not start with a row, blanks aside. Otherwise the list of columns is cut at all
commas outside quotes between the two parentheses, the rows at all parentheses outside quotes behind
the keyword that a comma follows, and the fields of a row at all other commas outside quotes in
it. -/
theorem parse_cuts (hq : options.quotes.Plain) (t : Text) :
    (∀ x, parse options t = .error (.missingColumns x) ↔
      x = t ∧ openPlaces options.quotes t = ∅) ∧
    ∀ opening, IsLeast (openPlaces options.quotes t) opening →
      (∀ x, parse options t = .error (.missingKeyword x) ↔
        x = t ∧ closePlaces options.quotes t ∩ Set.Ioi opening = ∅) ∧
      ∀ closing, IsLeast (closePlaces options.quotes t ∩ Set.Ioi opening) closing →
        ∀ keyword behind rest, KeywordAt options.quotes t closing keyword behind rest →
          (∀ x, parse options t = .error (.malformedValues x) ↔
            x = rest.trim ∧ rest.trim ≠ [] ∧ rest.trim.head? ≠ some '(') ∧
          (rest.trim = [] ∨ rest.trim.head? = some '(' →
            ∃ s, parse options t = .ok s ∧ s.keyword = keyword ∧
              CutOut options t opening closing behind rest s) := by
  have houtcome := outcome_parse hq t
  refine ⟨fun x => ⟨fun h => ?_, ?_⟩, fun opening hopening => ⟨fun x => ⟨fun h => ?_, ?_⟩, ?_⟩⟩
  · rw [h] at houtcome
    cases houtcome with
    | noColumns hnone => exact ⟨rfl, hnone⟩
  · rintro ⟨rfl, hnone⟩
    exact houtcome.eq_of_openPlaces hnone
  · rw [h] at houtcome
    cases houtcome with
    | noKeyword hopening' hnone =>
      obtain rfl := hopening.unique hopening'
      exact ⟨rfl, hnone⟩
  · rintro ⟨rfl, hnone⟩
    exact houtcome.eq_of_closePlaces hopening hnone
  · intro closing hclosing keyword behind rest hkeyword
    have hstarts := startsWithRow_iff rest.trim
    rcases houtcome.of_keywordAt hopening hclosing hkeyword with ⟨hrow, heq⟩ | ⟨hrow, s, heq, hs⟩
    · have hnot : ¬ (rest.trim = [] ∨ rest.trim.head? = some '(') := by simp [← hstarts, hrow]
      refine ⟨fun x => ⟨fun h => ?_, ?_⟩, fun hrow' => absurd hrow' hnot⟩
      · rw [heq] at h
        cases h
        exact ⟨rfl, not_or.1 hnot⟩
      · rintro ⟨rfl, -⟩
        exact heq
    · refine ⟨fun x => ⟨fun h => ?_, ?_⟩, fun _ => ⟨s, heq, hs⟩⟩
      · rw [heq] at h
        cases h
      · rintro ⟨-, hnot⟩
        exact absurd (hstarts.1 hrow) (not_or.2 hnot)

/-- A statement with parentheses, commas and the keyword between quotes. -/
def quotedSyntax : Text :=
  "insert \"é(\" (a, \"b) VALUES\") Values ('),', 1) , (')', f(2));".toList

/-- What stands between quotes is no place for a cut, and neither is the end of a call. -/
theorem parse_cuts_quotedSyntax :
    QuoteSet.Plain .standard ∧ IsLeast (openPlaces .standard quotedSyntax) 13 ∧
      IsLeast (closePlaces .standard quotedSyntax ∩ Set.Ioi 13) 28 ∧
      ∃ rest s, KeywordAt .standard quotedSyntax 28 "Values".toList 36 rest ∧
        parse {} quotedSyntax = .ok s ∧ CutOut {} quotedSyntax 13 28 36 rest s ∧
          s.rows = [["'),'".toList, "1".toList], ["')'".toList, "f(2)".toList]] := by
  have hplain : QuoteSet.Plain .standard := by decide
  have htext : quotedSyntax = "insert \"é(\" ".toList ++ '(' ::
      "a, \"b) VALUES\") Values ('),', 1) , (')', f(2));".toList := by decide +kernel
  have hclause : Balanced .standard "insert \"é(\" ".toList := by decide +kernel
  have hclose : seek? .standard columnsEnd? .unquoted
      "a, \"b) VALUES\") Values ('),', 1) , (')', f(2));".toList =
        some ("a, \"b) VALUES\"".toList, "Values".toList, " ('),', 1) , (')', f(2));".toList) := by
    decide +kernel
  have hfirst : byteLength "insert \"é(\" ".toList = 13 := by decide +kernel
  have hlast : byteLength ("insert \"é(\" ".toList ++ ['('] ++ "a, \"b) VALUES\"".toList) = 28 := by
    decide +kernel
  have hopening :=
    isLeast_openPlaces (Needle.cut?_char_eq_some_iff.2 ⟨htext, hclause, by decide +kernel⟩)
  have hclosing := isLeast_closePlaces hplain hclause hclose
  rw [hfirst] at hopening
  rw [hfirst, hlast, ← htext] at hclosing
  have hkeyword : KeywordAt .standard quotedSyntax 28 "Values".toList 36
      " ('),', 1) , (')', f(2));".toList := by
    refine ⟨⟨[' '], by decide, ⟨"insert \"é(\" (a, \"b) VALUES\"".toList, ?_, ?_, ?_⟩, ?_⟩, ?_, ?_⟩
    all_goals decide +kernel
  obtain ⟨-, hopen⟩ := @parse_cuts {} hplain quotedSyntax
  obtain ⟨-, hclosed⟩ := hopen 13 hopening
  obtain ⟨-, hrows⟩ := hclosed 28 hclosing _ _ _ hkeyword
  obtain ⟨s, hs, -, hcut⟩ := hrows (.inr (by decide +kernel))
  refine ⟨hplain, hopening, hclosing, _, s, hkeyword, hs, hcut, ?_⟩
  have hvalues : (parse {} quotedSyntax).toOption.map Statement.rows =
      some [["'),'".toList, "1".toList], ["')'".toList, "f(2)".toList]] := by decide +kernel
  rw [hs] at hvalues
  exact Option.some.inj hvalues

end Statement

end InsertLayout
