import InsertLayout.Options.OfJson
import Mathlib.Data.List.Basic

/-!
# Accepted options

`Fits`: a field that options may be written with; `Misfit`: why another one is refused. A value
gives options exactly if it is an object of fields that fit and what they give, together with the
defaults for what they leave out, is valid (`ofJson?_exact`). The fields are read one after another,
the first one that does not fit is reported (`setAll_eq_error_iff`), and only then are the options
as a whole checked.
-/

set_option autoImplicit false

namespace InsertLayout

/-! ## Quote sets of texts -/

/-- The set lists the characters of a text, each of them once and in the order in which they first
occur. -/
structure QuoteSet.Lists (quotes : QuoteSet) (t : Text) : Prop where
  mem_iff : ∀ c, c ∈ quotes ↔ c ∈ t
  nodup : quotes.chars.Nodup
  ordered : quotes.chars.Pairwise fun a b => t.idxOf a < t.idxOf b

namespace QuoteSet

variable {quotes : QuoteSet} {t : Text}

theorem pairwise_firstOccurrences (t : Text) :
    (firstOccurrences t).Pairwise fun a b => t.idxOf a < t.idxOf b := by
  induction t with
  | nil => exact List.Pairwise.nil
  | cons c t ih =>
    have hbehind : ∀ d ∈ (firstOccurrences t).filter (· != c),
        (c :: t).idxOf d = t.idxOf d + 1 := by
      intro d hd
      have hne : d ≠ c := by simpa using (List.mem_filter.1 hd).2
      exact List.idxOf_cons_ne t hne.symm
    refine List.pairwise_cons.2 ⟨fun d hd => ?_, ?_⟩
    · rw [List.idxOf_cons_self, hbehind d hd]
      omega
    · refine (ih.filter _).imp_of_mem fun {a b} ha hb hlt => ?_
      rw [hbehind a ha, hbehind b hb]
      omega

theorem lists_ofText (t : Text) : (ofText t).Lists t where
  mem_iff _ := mem_ofText
  nodup := nodup_firstOccurrences t
  ordered := pairwise_firstOccurrences t

/-- There is one such set for each text. -/
theorem Lists.eq_ofText (h : quotes.Lists t) : quotes = ofText t := by
  have hperm : quotes.chars.Perm (ofText t).chars :=
    (List.perm_ext_iff_of_nodup h.nodup (ofText t).nodup).2 fun c =>
      (h.mem_iff c).trans mem_ofText.symm
  ext1
  exact hperm.eq_of_pairwise (fun a b _ _ hab hba => by omega) h.ordered (lists_ofText t).ordered

theorem Lists.isEmpty_eq_false_iff (h : quotes.Lists t) : quotes.isEmpty = false ↔ t ≠ [] := by
  obtain rfl := h.eq_ofText
  cases t <;> simp [isEmpty, ofText, firstOccurrences]

end QuoteSet

namespace Options

/-! ## Fields -/

/-- The fields that options may be written with. -/
inductive Fits : Text × Json → Prop where
  | quotes (t : Text) : Fits ("quotes".toList, .str t)
  | columnWrap (c : Char) : Fits ("column_wrap".toList, .str [c])
  | noColumnWrap : Fits ("column_wrap".toList, .null)

/-- Why a field is refused. -/
inductive Misfit : Text × Json → Mismatch → Prop where
  | key {key : Text} {value : Json} : key ≠ "quotes".toList → key ≠ "column_wrap".toList →
      Misfit (key, value) (.unknownField key)
  | quotes {value : Json} : (∀ t, value ≠ .str t) →
      Misfit ("quotes".toList, value) (.wrongType value .string)
  | columnWrap {value : Json} : value ≠ .null → (∀ t, value ≠ .str t) →
      Misfit ("column_wrap".toList, value) (.wrongType value .character)
  | length {t : Text} : t.length ≠ 1 → Misfit ("column_wrap".toList, .str t) (.wrongLength t)

/-- The value that an object has for a key: the last one, if several are written. -/
def given? (key : Text) (fields : List (Text × Json)) : Option Json := fields.reverse.lookup key

/-- The quotes in the value of a field that fits. -/
def quotesFrom : Json → QuoteSet
  | .str t => .ofText t
  | _ => .standard

/-- The wrap character in the value of a field that fits. -/
def columnWrapFrom : Json → Option Char
  | .str [c] => some c
  | _ => none

/-- Options with the fields of an object put in. -/
def withFields (options : Options) (fields : List (Text × Json)) : Options where
  quotes := (given? "quotes".toList fields).elim options.quotes quotesFrom
  columnWrap := (given? "column_wrap".toList fields).elim options.columnWrap columnWrapFrom

theorem given?_cons (key k : Text) (value : Json) (fields : List (Text × Json)) :
    given? key ((k, value) :: fields) =
      (given? key fields).or (if key = k then some value else none) := by
  unfold given?
  rw [List.reverse_cons, List.lookup_append, List.lookup_cons]
  by_cases h : key = k
  · simp [h]
  · simp [h, beq_eq_false_iff_ne.2 h]

theorem fits_or_misfit (field : Text × Json) : Fits field ∨ ∃ reason, Misfit field reason := by
  obtain ⟨key, value⟩ := field
  by_cases hquotes : key = "quotes".toList
  · subst hquotes
    cases value with
    | str t => exact .inl (.quotes t)
    | _ => exact .inr ⟨_, .quotes (by simp)⟩
  · by_cases hwrap : key = "column_wrap".toList
    · subst hwrap
      cases value with
      | null => exact .inl .noColumnWrap
      | str t =>
        by_cases ht : t.length = 1
        · obtain ⟨c, rfl⟩ := List.length_eq_one_iff.1 ht
          exact .inl (.columnWrap c)
        · exact .inr ⟨_, .length ht⟩
      | _ => exact .inr ⟨_, .columnWrap (by simp) (by simp)⟩
    · exact .inr ⟨_, .key hquotes hwrap⟩

theorem set_quotes (options : Options) (value : Json) :
    options.set "quotes".toList value =
      (quotesOf? value).map fun quotes => { options with quotes } := if_pos rfl

theorem set_columnWrap (options : Options) (value : Json) :
    options.set "column_wrap".toList value =
      (columnWrapOf? value).map fun columnWrap => { options with columnWrap } := by
  rw [set, if_neg (by decide), if_pos rfl]

/-- A field that fits is put in. -/
theorem set_of_fits {key : Text} {value : Json} (h : Fits (key, value)) (options : Options) :
    options.set key value = .ok (options.withFields [(key, value)]) := by
  cases h with
  | quotes t => exact set_quotes options (.str t)
  | columnWrap c => exact set_columnWrap options (.str [c])
  | noColumnWrap => exact set_columnWrap options .null

/-- A field that does not fit is refused, whatever the options are. -/
theorem set_of_misfit {key : Text} {value : Json} {reason : Mismatch}
    (h : Misfit (key, value) reason) (options : Options) :
    options.set key value = .error reason := by
  cases h with
  | key hquotes hwrap => rw [set, if_neg hquotes, if_neg hwrap]
  | quotes hvalue =>
    rw [set_quotes]
    cases value with
    | str t => exact absurd rfl (hvalue t)
    | _ => rfl
  | columnWrap hnull hvalue =>
    rw [set_columnWrap]
    cases value with
    | null => exact absurd rfl hnull
    | str t => exact absurd rfl (hvalue t)
    | _ => rfl
  | @length t ht =>
    rw [set_columnWrap]
    rcases t with _ | ⟨c, _ | ⟨d, t⟩⟩
    · rfl
    · exact absurd rfl ht
    · rfl

theorem not_fits_of_misfit {field : Text × Json} {reason : Mismatch} (h : Misfit field reason) :
    ¬ Fits field := by
  intro hfits
  have hok := set_of_fits hfits default
  rw [set_of_misfit h] at hok
  cases hok

/-- Fields are put in one after another. -/
theorem withFields_cons (options : Options) (field : Text × Json) (fields : List (Text × Json)) :
    (options.withFields [field]).withFields fields = options.withFields (field :: fields) := by
  obtain ⟨key, value⟩ := field
  have hnil (k : Text) : given? k [] = none := rfl
  simp only [withFields, given?_cons, hnil, Option.none_or, Options.mk.injEq]
  constructor
  · cases given? "quotes".toList fields with
    | none => rw [Option.none_or, Option.elim_none]
    | some v => rw [Option.some_or, Option.elim_some, Option.elim_some]
  · cases given? "column_wrap".toList fields with
    | none => rw [Option.none_or, Option.elim_none]
    | some v => rw [Option.some_or, Option.elim_some, Option.elim_some]

/-- All fields are put in if they fit; otherwise the first one that does not is reported. -/
theorem setAll_eq_ok_iff {options result : Options} {fields : List (Text × Json)} :
    setAll options fields = .ok result ↔
      (∀ field ∈ fields, Fits field) ∧ result = options.withFields fields := by
  induction fields generalizing options with
  | nil =>
    rw [setAll]
    simp [withFields, given?, eq_comm]
  | cons field fields ih =>
    obtain ⟨key, value⟩ := field
    rw [setAll, List.forall_mem_cons]
    rcases fits_or_misfit (key, value) with hfits | ⟨reason, hmisfit⟩
    · rw [set_of_fits hfits, ← withFields_cons options (key, value) fields]
      simp only [ih, hfits, true_and]
    · rw [set_of_misfit hmisfit]
      simp [not_fits_of_misfit hmisfit]

/-- The first field that does not fit is reported. -/
theorem setAll_eq_error_iff {options : Options} {reason : Mismatch}
    {fields : List (Text × Json)} : setAll options fields = .error reason ↔
      ∃ before field behind, fields = before ++ field :: behind ∧
        (∀ other ∈ before, Fits other) ∧ Misfit field reason := by
  induction fields generalizing options with
  | nil =>
    rw [setAll]
    simp
  | cons field fields ih =>
    obtain ⟨key, value⟩ := field
    rw [setAll]
    rcases fits_or_misfit (key, value) with hfits | ⟨first, hmisfit⟩
    · rw [set_of_fits hfits]
      simp only [ih]
      constructor
      · rintro ⟨before, field, behind, rfl, hbefore, hfield⟩
        exact ⟨_ :: before, field, behind, rfl, List.forall_mem_cons.2 ⟨hfits, hbefore⟩, hfield⟩
      · rintro ⟨before, field, behind, heq, hbefore, hfield⟩
        cases before with
        | nil =>
          obtain ⟨rfl, -⟩ := List.cons.inj heq
          exact absurd hfits (not_fits_of_misfit hfield)
        | cons other before =>
          obtain ⟨-, rfl⟩ := List.cons.inj heq
          exact ⟨before, field, behind, rfl, (List.forall_mem_cons.1 hbefore).2, hfield⟩
    · rw [set_of_misfit hmisfit]
      constructor
      · intro heq
        obtain rfl : first = reason := by simpa using heq
        exact ⟨[], _, fields, rfl, by simp, hmisfit⟩
      · rintro ⟨before, field, behind, heq, hbefore, hfield⟩
        cases before with
        | nil =>
          obtain ⟨rfl, -⟩ := List.cons.inj heq
          rw [← set_of_misfit hmisfit options, set_of_misfit hfield options]
        | cons other before =>
          obtain ⟨rfl, -⟩ := List.cons.inj heq
          exact absurd (hbefore _ List.mem_cons_self) (not_fits_of_misfit hmisfit)

/-! ## Values -/

/-- Options are what the fields of an object give, with the defaults for those that it does not
have. -/
structure Gives (fields : List (Text × Json)) (options : Options) : Prop where
  quotes : ∀ t, given? "quotes".toList fields = some (.str t) → options.quotes.Lists t
  noQuotes : given? "quotes".toList fields = none → options.quotes.Lists ['\'', '"']
  columnWrap : ∀ c, given? "column_wrap".toList fields = some (.str [c]) →
    options.columnWrap = some c
  nullWrap : given? "column_wrap".toList fields = some .null → options.columnWrap = none
  noColumnWrap : given? "column_wrap".toList fields = none → options.columnWrap = some '`'

theorem mem_of_given? {key : Text} {value : Json} {fields : List (Text × Json)}
    (h : given? key fields = some value) : (key, value) ∈ fields := by
  obtain ⟨before, behind, heq, -⟩ := List.lookup_eq_some_iff.1 h
  rw [← List.mem_reverse, heq]
  simp

/-- The value that is given for a key belongs to a field that fits. -/
theorem value_of_fits {key : Text} {value : Json} {fields : List (Text × Json)}
    (hfits : ∀ field ∈ fields, Fits field) (h : given? key fields = some value) :
    (key = "quotes".toList ∧ ∃ t, value = .str t) ∨
      (key = "column_wrap".toList ∧ (value = .null ∨ ∃ c, value = .str [c])) := by
  cases hfits _ (mem_of_given? h) with
  | quotes t => exact .inl ⟨rfl, t, rfl⟩
  | columnWrap c => exact .inr ⟨rfl, .inr ⟨c, rfl⟩⟩
  | noColumnWrap => exact .inr ⟨rfl, .inl rfl⟩

theorem gives_iff {fields : List (Text × Json)} (hfits : ∀ field ∈ fields, Fits field)
    {options : Options} : Gives fields options ↔ options = withFields {} fields := by
  constructor
  · intro h
    obtain ⟨quotes, wrap⟩ := options
    unfold withFields
    rw [Options.mk.injEq]
    constructor
    · cases hgiven : given? "quotes".toList fields with
      | none => exact (h.noQuotes hgiven).eq_ofText
      | some v =>
        rcases value_of_fits hfits hgiven with ⟨-, t, rfl⟩ | ⟨hkey, -⟩
        · exact (h.quotes t hgiven).eq_ofText
        · exact absurd hkey (by decide)
    · cases hgiven : given? "column_wrap".toList fields with
      | none => exact h.noColumnWrap hgiven
      | some v =>
        rcases value_of_fits hfits hgiven with ⟨hkey, -⟩ | ⟨-, rfl | ⟨c, rfl⟩⟩
        · exact absurd hkey (by decide)
        · exact h.nullWrap hgiven
        · exact h.columnWrap c hgiven
  · rintro rfl
    refine ⟨fun t h => ?_, fun h => ?_, fun c h => ?_, fun h => ?_, fun h => ?_⟩
    · rw [withFields, h]
      exact QuoteSet.lists_ofText t
    · rw [withFields, h]
      exact QuoteSet.lists_ofText ['\'', '"']
    all_goals rw [withFields, h]; rfl

/-- Options that fields give have no quotes exactly if the fields say so. -/
theorem Gives.isEmpty_eq_false_iff {fields : List (Text × Json)} {options : Options}
    (hfits : ∀ field ∈ fields, Fits field) (h : Gives fields options) :
    options.quotes.isEmpty = false ↔ given? "quotes".toList fields ≠ some (.str []) := by
  cases hgiven : given? "quotes".toList fields with
  | none => simp [(h.noQuotes hgiven).isEmpty_eq_false_iff]
  | some v =>
    rcases value_of_fits hfits hgiven with ⟨-, t, rfl⟩ | ⟨hkey, -⟩
    · simp [(h.quotes t hgiven).isEmpty_eq_false_iff]
    · exact absurd hkey (by decide)

theorem ofJson?_of_fits {fields : List (Text × Json)} (hfits : ∀ field ∈ fields, Fits field) :
    ofJson? (.obj fields) = match (withFields {} fields).validate with
      | .error reason => .error (.invalid reason)
      | .ok () => .ok (withFields {} fields) := by
  have hset : setAll {} fields = .ok (withFields {} fields) := setAll_eq_ok_iff.2 ⟨hfits, rfl⟩
  rcases hvalid : (withFields {} fields).validate with reason | ⟨⟩
  · simp only [ofJson?, hset, hvalid]
  · simp only [ofJson?, hset, hvalid]

theorem ofJson?_of_misfit {before behind : List (Text × Json)} {field : Text × Json}
    {reason : Mismatch} (hbefore : ∀ other ∈ before, Fits other) (h : Misfit field reason) :
    ofJson? (.obj (before ++ field :: behind)) = .error (.mismatch reason) := by
  rw [ofJson?, setAll_eq_error_iff.2 ⟨before, field, behind, rfl, hbefore, h⟩]

/-- Where a field does not fit, one of them is the first. -/
theorem exists_first_misfit {fields : List (Text × Json)} (h : ∃ field ∈ fields, ¬ Fits field) :
    ∃ before field behind reason, fields = before ++ field :: behind ∧
      (∀ other ∈ before, Fits other) ∧ Misfit field reason := by
  cases hset : setAll {} fields with
  | error reason =>
    obtain ⟨before, field, behind, hfirst⟩ := setAll_eq_error_iff.1 hset
    exact ⟨before, field, behind, reason, hfirst⟩
  | ok options =>
    obtain ⟨field, hfield, hnot⟩ := h
    exact absurd ((setAll_eq_ok_iff.1 hset).1 field hfield) hnot

theorem ofJson?_eq_ok_iff {value : Json} {options : Options} : ofJson? value = .ok options ↔
    ∃ fields, value = .obj fields ∧ (∀ field ∈ fields, Fits field) ∧ Gives fields options ∧
      options.validate = .ok () := by
  constructor
  · intro h
    cases value with
    | obj fields =>
      by_cases hfits : ∀ field ∈ fields, Fits field
      · rw [ofJson?_of_fits hfits] at h
        split at h
        · cases h
        · rename_i hvalid
          obtain rfl := Except.ok.inj h
          exact ⟨fields, rfl, hfits, (gives_iff hfits).2 rfl, hvalid⟩
      · obtain ⟨before, field, behind, reason, rfl, hbefore, hmisfit⟩ :=
          exists_first_misfit (by simpa only [not_forall, exists_prop] using hfits)
        rw [ofJson?_of_misfit hbefore hmisfit] at h
        cases h
    | _ => cases h
  · rintro ⟨fields, rfl, hfits, hgives, hvalid⟩
    obtain rfl := (gives_iff hfits).1 hgives
    rw [ofJson?_of_fits hfits, hvalid]

/-- Options are read from a value exactly if it is an object whose fields all fit, and what they
give is valid together with the defaults: there are quotes, and the wrap character is none of them.
Of an object with a field that does not fit, the first such field is reported, also if the options
are not valid either. -/
theorem ofJson?_exact (value : Json) :
    (∀ options, ofJson? value = .ok options ↔ ∃ fields, value = .obj fields ∧
      (∀ field ∈ fields, Fits field) ∧ Gives fields options ∧
        given? "quotes".toList fields ≠ some (.str []) ∧
          ∀ wrap, options.columnWrap = some wrap → wrap ∉ options.quotes) ∧
    (∀ options, ofJson? value = .ok options → options.validate = .ok ()) ∧
    ((∀ fields, value ≠ .obj fields) → ofJson? value = .error (.notObject value)) ∧
    ∀ fields, value = .obj fields →
      ((∃ field ∈ fields, ¬ Fits field) → ∃ before field behind reason,
        fields = before ++ field :: behind ∧ (∀ other ∈ before, Fits other) ∧
          Misfit field reason ∧ ofJson? value = .error (.mismatch reason)) ∧
      ∀ error, ofJson? value = .error error → (∀ field ∈ fields, Fits field) →
        ∃ options reason, Gives fields options ∧ options.validate = .error reason ∧
          error = .invalid reason := by
  refine ⟨fun options => ?_, fun options h => ?_, fun hnot => ?_, ?_⟩
  · rw [ofJson?_eq_ok_iff]
    refine exists_congr fun fields => and_congr_right fun _ => and_congr_right fun hfits =>
      and_congr_right fun hgives => ?_
    rw [validate_eq_ok_iff, hgives.isEmpty_eq_false_iff hfits]
  · obtain ⟨_, -, -, -, hvalid⟩ := ofJson?_eq_ok_iff.1 h
    exact hvalid
  · cases value with
    | obj fields => exact absurd rfl (hnot fields)
    | _ => rfl
  · rintro fields rfl
    refine ⟨fun hmisfit => ?_, fun error herror hfits => ?_⟩
    · obtain ⟨before, field, behind, reason, rfl, hbefore, hreason⟩ := exists_first_misfit hmisfit
      exact ⟨before, field, behind, reason, rfl, hbefore, hreason,
        ofJson?_of_misfit hbefore hreason⟩
    · rw [ofJson?_of_fits hfits] at herror
      split at herror
      · rename_i reason hinvalid
        obtain rfl := Except.error.inj herror
        exact ⟨_, reason, (gives_iff hfits).2 rfl, hinvalid, rfl⟩
      · cases herror

/-- Quotes of which one is the default wrap character. -/
def clashing : List (Text × Json) := [("quotes".toList, .str "'`'".toList)]

/-- They are refused with that default and accepted without a wrap character; an unknown field is
reported before a set without quotes. -/
theorem ofJson?_exact_clashing :
    (∀ field ∈ clashing, Fits field) ∧
      ofJson? (.obj clashing) = .error (.invalid (.wrapIsQuote '`')) ∧
      (∃ options, Gives clashing options ∧ options.validate = .error (.wrapIsQuote '`')) ∧
      (∃ options, ofJson? (.obj (("column_wrap".toList, .null) :: clashing)) = .ok options ∧
        options.validate = .ok ()) ∧
      (∃ field ∈ [("indent".toList, .int 4), ("quotes".toList, .str [])], ¬ Fits field) ∧
      (∃ reason, ofJson? (.obj [("indent".toList, .int 4), ("quotes".toList, .str [])]) =
        .error (.mismatch reason)) ∧
      (∀ fields, Json.str [] ≠ .obj fields) ∧
      ofJson? (.str []) = .error (.notObject (.str [])) := by
  have hfits : ∀ field ∈ clashing, Fits field := by
    intro field hfield
    obtain rfl := List.mem_singleton.1 hfield
    exact .quotes _
  have hclash : ofJson? (.obj clashing) = .error (.invalid (.wrapIsQuote '`')) := by rfl
  have hbare : ofJson? (.obj (("column_wrap".toList, .null) :: clashing)) =
      .ok { quotes := .ofText "'`'".toList, columnWrap := none } := by rfl
  have hunknown : ∃ field ∈ [("indent".toList, .int 4), ("quotes".toList, .str [])],
      ¬ Fits field :=
    ⟨_, List.mem_cons_self, not_fits_of_misfit (.key (by decide) (by decide))⟩
  obtain ⟨-, -, -, hobject⟩ := ofJson?_exact (.obj clashing)
  obtain ⟨options, reason, hgives, hinvalid, hreason⟩ := (hobject _ rfl).2 _ hclash hfits
  obtain ⟨-, hvalid, -⟩ := ofJson?_exact (.obj (("column_wrap".toList, .null) :: clashing))
  obtain ⟨-, -, -, hmisfit⟩ :=
    ofJson?_exact (.obj [("indent".toList, .int 4), ("quotes".toList, .str [])])
  obtain ⟨_, _, _, mismatch, -, -, -, hmismatch⟩ := (hmisfit _ rfl).1 hunknown
  obtain ⟨-, -, hother, -⟩ := ofJson?_exact (.str [])
  cases hreason
  exact ⟨hfits, hclash, ⟨options, hgives, hinvalid⟩, ⟨_, hbare, hvalid _ hbare⟩, hunknown,
    ⟨mismatch, hmismatch⟩, by simp, hother (by simp)⟩

end Options

end InsertLayout
