import InsertLayout.Proofs.Offsets.Statement
import InsertLayout.Proofs.Selection
import InsertLayout.Proofs.Splice

/-!
# Formatting with byte offsets

The next statement of a text, the loop that replaces one statement after another, and the formatting
of a selection, with the offsets of what they read. Together with the searches and the parser these
are all the places at which a text is cut by its offsets. `no_fault` says that none of them meets a
fault, for no options, no offset and no needle or delimiter, and that their results are those of the
library; a selection is refused exactly if its bounds are out of order, behind the end or inside a
character.
-/

set_option autoImplicit false

namespace InsertLayout

open Text Statement Document

variable {quotes : QuoteSet} {options : Options}

namespace Offsets

/-! ## Formatting -/

/-- The first statement from an offset on. -/
def next (quotes : QuoteSet) (start : Nat) (t : Text) : Checked (Option Span) := do
  match ← find insertKeyword quotes start t with
  | none => return none
  | some first =>
    match ← find statementEnd quotes first t with
    | none => return none
    | some close =>
      let stop ← sum close statementEnd.chars.byteLength
      return some ⟨first, stop, ← part first stop t⟩

/-- The rendering of a statement, or the statement as it stands if it cannot be parsed. -/
def formatStatement (options : Options) (t : Text) : Checked Text := do
  match ← parse options t with
  | .ok statement => return statement.render
  | .error _ => return t

/-- A statement is found in the text, behind the offset from which it is searched for. -/
theorem lt_of_next {start : Nat} {t : Text} {span : Span}
    (h : next quotes start t = .ok (some span)) :
    start < span.stop ∧ span.stop ≤ t.byteLength := by
  obtain ⟨first, hfirst, h⟩ := bind_eq_ok_iff.1 h
  cases first with
  | none => cases h
  | some first =>
    obtain ⟨close, hclose, h⟩ := bind_eq_ok_iff.1 h
    cases close with
    | none => cases h
    | some close =>
      obtain ⟨stop, hstop, h⟩ := bind_eq_ok_iff.1 h
      obtain ⟨raw, hraw, h⟩ := bind_eq_ok_iff.1 h
      obtain rfl := Option.some.inj (Except.ok.inj h)
      obtain ⟨-, hle, -⟩ := (part_eq_ok_iff _ _ _).1 ⟨raw, hraw⟩
      have hgap := le_of_find hfirst
      have hbody := le_of_find hclose
      obtain rfl := eq_add_of_sum hstop
      have hend : statementEnd.chars.byteLength = 2 := by decide
      exact ⟨by dsimp only; omega, hle⟩

/-- Copies the text from an offset on, with every statement formatted, behind what has been written.
Yields what is written in the end, whether some statement has changed, and the offset behind the
last one. -/
def rewriteFrom (options : Options) (t : Text) (cursor : Nat) (output : Text) (changed : Bool) :
    Checked (Text × Bool × Nat) :=
  match _hnext : next options.quotes cursor t with
  | .error fault => .error fault
  | .ok none => .ok (output, changed, cursor)
  | .ok (some span) => do
    let gap ← part cursor span.start t
    let formatted ← formatStatement options span.raw
    rewriteFrom options t span.stop (output ++ gap ++ formatted) (changed || formatted != span.raw)
termination_by t.byteLength - cursor
decreasing_by
  have hlt := lt_of_next _hnext
  omega

/-- The text after formatting, if some statement in it changed. -/
def reformat (options : Options) (t : Text) : Checked (Option Text) := do
  let (output, changed, cursor) ← rewriteFrom options t 0 [] false
  if changed then return some (output ++ (← partFrom cursor t)) else return none

/-- The document after the text between two offsets has been formatted. -/
def formatSelection (options : Options) (start stop : Nat) (t : Text) :
    Checked (Except InvalidSelection Text) :=
  match t.slice? start stop with
  | none => return .error ⟨start, stop, t.byteLength⟩
  | some selected => do
    let formatted := (← reformat options selected).getD selected
    let before ← partTo start t
    let after ← partFrom stop t
    return .ok (before ++ formatted ++ after)

/-! ## What formatting yields -/

theorem next_eq {t : Text} (h : t.Fits) (start : Nat) :
    next quotes start t = .ok (Span.next? quotes start t) := by
  have hinsert : insertKeyword.chars.Fits := by decide
  have hend : statementEnd.chars.Fits := by decide
  unfold next
  rw [find_eq hinsert h, ok_bind]
  cases hdrop : t.dropBytes? start with
  | none => simp [Needle.find?, Span.next?, hdrop, pure, Except.pure]
  | some u =>
    obtain ⟨front, rfl, rfl⟩ := eq_append_of_dropBytes? hdrop
    rw [insertKeyword_find?_append]
    cases hseek : seekInsert? quotes u with
    | none => simp [Span.next?, nextPiece?, hdrop, hseek, pure, Except.pure]
    | some p =>
      obtain ⟨gap, rest⟩ := p
      obtain rfl := eq_append_of_seekInsert? hseek
      have hfind := Needle.find?_append statementEnd quotes (front ++ gap) rest
      rw [List.append_assoc] at hfind
      simp only [Option.map_some, ← byteLength_append, find_eq hend h, ok_bind, hfind]
      cases hcut : statementEnd.cut? quotes rest with
      | none => simp [Span.next?, nextPiece?, hdrop, hseek, hcut, pure, Except.pure]
      | some p =>
        obtain ⟨body, after⟩ := p
        obtain ⟨rfl, -⟩ := statementEnd_cut?_eq_some_iff.1 hcut
        have hpiece : nextPiece? quotes (gap ++ (body ++ [')', ';'] ++ after)) =
            some (⟨gap, body ++ [')', ';']⟩, after) := by
          simp only [nextPiece?, hseek, hcut, bind, Option.bind_some]
          rfl
        have hspan : Span.next? quotes front.byteLength
            (front ++ (gap ++ (body ++ [')', ';'] ++ after))) =
              some ⟨(front ++ gap).byteLength, (front ++ gap ++ (body ++ [')', ';'])).byteLength,
                body ++ [')', ';']⟩ := by
          simp only [Span.next?, hdrop, hpiece, bind, Option.bind_some, spansFrom, List.head?_cons,
            byteLength_append (front ++ gap), byteLength_append front]
        have hraw := part_eq (front ++ gap) (body ++ [')', ';']) after
        have hsize := byteLength_append (front ++ gap ++ (body ++ [')', ';'])) after
        rw [show front ++ gap ++ (body ++ [')', ';']) ++ after =
          front ++ (gap ++ (body ++ [')', ';'] ++ after)) by simp] at hraw hsize
        have hstop : (front ++ gap ++ body).byteLength + statementEnd.chars.byteLength =
            (front ++ gap ++ (body ++ [')', ';'])).byteLength := by
          rw [← List.append_assoc _ body, byteLength_append _ [')', ';']]
          rfl
        unfold Fits at h
        rw [Option.map_some]
        simp only [hspan]
        rw [sum_eq (by omega), hstop, ok_bind, hraw]
        rfl

theorem formatStatement_eq {t : Text} (h : t.Fits) :
    formatStatement options t = .ok (InsertLayout.formatStatement options t) := by
  unfold formatStatement InsertLayout.formatStatement renderStatement
  rw [parse_eq options h, ok_bind]
  cases Statement.parse options t <;> rfl

theorem rewriteFrom_of_none {t output : Text} {cursor : Nat} {changed : Bool}
    (h : next options.quotes cursor t = .ok none) :
    rewriteFrom options t cursor output changed = .ok (output, changed, cursor) := by
  rw [rewriteFrom]
  split <;> simp_all

theorem rewriteFrom_of_some {t output : Text} {cursor : Nat} {changed : Bool} {span : Span}
    (h : next options.quotes cursor t = .ok (some span)) :
    rewriteFrom options t cursor output changed = (do
      let gap ← part cursor span.start t
      let formatted ← formatStatement options span.raw
      rewriteFrom options t span.stop (output ++ gap ++ formatted)
        (changed || formatted != span.raw)) := by
  rw [rewriteFrom]
  split
  · simp_all
  · simp_all
  · rename_i hnext
    rw [h] at hnext
    obtain rfl := by simpa using hnext
    rfl

/-- The loop writes the gaps and the formatted statements, and stops behind the last one. -/
theorem rewriteFrom_eq (options : Options) (front u output : Text) (changed : Bool)
    (h : (front ++ u).Fits) :
    rewriteFrom options (front ++ u) front.byteLength output changed =
      .ok (output ++ (ofText options.quotes u).pieces.flatMap
          fun p => p.gap ++ InsertLayout.formatStatement options p.statement,
        changed || (ofText options.quotes u).pieces.any
          fun p => InsertLayout.formatStatement options p.statement != p.statement,
        (front ++ (ofText options.quotes u).pieces.flatMap
          fun p => p.gap ++ p.statement).byteLength) := by
  induction u using ofText_induction options.quotes generalizing front output changed with
  | last u hnone =>
    have hnext : next options.quotes front.byteLength (front ++ u) = .ok none := by
      rw [next_eq h, Span.next?, dropBytes?_byteLength]
      simp [hnone]
    rw [rewriteFrom_of_none hnext, ofText_of_none hnone]
    simp
  | more gap w u rest hlocated ih =>
    rw [ofText_of_located hlocated]
    obtain ⟨raw, hraw⟩ : ∃ raw, raw = w ++ u ++ [')', ';'] := ⟨_, rfl⟩
    rw [← hraw] at h ⊢
    have hgap := part_eq front gap (raw ++ rest)
    have hbehind := ih (front ++ gap ++ raw)
      (output ++ gap ++ InsertLayout.formatStatement options raw)
      (changed || InsertLayout.formatStatement options raw != raw) (by simpa using h)
    have hformatted : formatStatement options raw =
        .ok (InsertLayout.formatStatement options raw) :=
      formatStatement_eq (h.of_infix ⟨front ++ gap, rest, by simp⟩)
    rw [show front ++ gap ++ (raw ++ rest) = front ++ (gap ++ raw ++ rest) by simp] at hgap
    rw [show front ++ gap ++ raw ++ rest = front ++ (gap ++ raw ++ rest) by simp] at hbehind
    have hspan : Span.next? options.quotes front.byteLength (front ++ (gap ++ raw ++ rest)) =
        some ⟨(front ++ gap).byteLength, (front ++ gap ++ raw).byteLength, raw⟩ :=
      Span.next?_eq_some_iff.2 ⟨front, gap, w, u, rest, by simp, hlocated, hraw, rfl, rfl, rfl⟩
    rw [rewriteFrom_of_some ((next_eq h _).trans (congrArg Except.ok hspan)), hgap, ok_bind,
      hformatted, ok_bind, hbehind]
    simp [Bool.or_assoc]

/-- Formatting a text meets no fault. -/
theorem reformat_eq (options : Options) {t : Text} (h : t.Fits) :
    reformat options t = .ok (reformat? options t) := by
  have hloop := rewriteFrom_eq options [] t [] false h
  have htail : partFrom (byteLength ((ofText options.quotes t).pieces.flatMap
      fun p => p.gap ++ p.statement)) t = .ok (ofText options.quotes t).tail := by
    conv_lhs => arg 2; rw [← toText_ofText options.quotes t]
    exact partFrom_eq _ _
  have hchanged : ((ofText options.quotes t).pieces.any
      fun p => InsertLayout.formatStatement options p.statement != p.statement) = true ↔
        ¬ (ofText options.quotes t).format options = ofText options.quotes t := by
    rw [Document.format_eq_iff]
    simp
  have hnew : ((ofText options.quotes t).format options).toText =
      ((ofText options.quotes t).pieces.flatMap
        fun p => p.gap ++ InsertLayout.formatStatement options p.statement) ++
          (ofText options.quotes t).tail := by
    unfold Document.format toText
    rw [List.flatMap_map]
  unfold reformat InsertLayout.reformat? Document.reformat?
  rw [List.nil_append, byteLength_nil] at hloop
  rw [hloop, ok_bind]
  simp only [List.nil_append, Bool.false_or, hchanged, htail, ok_bind, hnew, ite_not]
  split <;> rfl

end Offsets

/-- A selection without a text between its bounds is refused. -/
theorem formatSelection_of_none {start stop : Nat} {t : Text} (h : t.slice? start stop = none) :
    formatSelection options start stop t = .error ⟨start, stop, t.byteLength⟩ := by
  unfold formatSelection
  rw [h]
  split
  · simp_all
  · rfl

/-- Formatting a selection meets no fault, whatever its bounds are. -/
theorem Offsets.formatSelection_eq (options : Options) {t : Text} (h : t.Fits) (start stop : Nat) :
    formatSelection options start stop t =
      .ok (InsertLayout.formatSelection options start stop t) := by
  unfold formatSelection
  cases hslice : t.slice? start stop with
  | none => rw [formatSelection_of_none hslice]; rfl
  | some selected =>
    obtain ⟨front, rest, rfl, rfl, rfl⟩ := slice?_eq_some_iff.1 hslice
    have hbefore := partTo_eq front (selected ++ rest)
    have hafter := partFrom_eq (front ++ selected) rest
    have hselected : selected.Fits := h.of_infix ⟨front, rest, rfl⟩
    rw [← List.append_assoc] at hbefore
    rw [formatSelection_append]
    simp only [reformat_eq options hselected, ok_bind, hbefore, hafter]
    rfl

/-- A selection is refused exactly if its bounds are out of order, behind the end of the document or
inside a character. -/
theorem formatSelection_eq_error_iff (options : Options) (start stop : Nat) (t : Text)
    (e : InvalidSelection) : formatSelection options start stop t = .error e ↔
      e = ⟨start, stop, t.byteLength⟩ ∧
        (stop < start ∨ t.byteLength < stop ∨ ¬ t.IsBoundary start ∨ ¬ t.IsBoundary stop) := by
  have hpart := Offsets.part_eq_ok_iff start stop t
  cases hslice : t.slice? start stop with
  | none =>
    have hbounds : ¬ (start ≤ stop ∧ stop ≤ t.byteLength ∧ t.IsBoundary start ∧
        t.IsBoundary stop) := by
      rw [← hpart, Offsets.part, hslice]
      simp
    rw [formatSelection_of_none hslice, Except.error.injEq, eq_comm, iff_self_and]
    intro _
    simpa only [not_and_or, Nat.not_le] using hbounds
  | some selected =>
    obtain ⟨front, rest, rfl, rfl, rfl⟩ := slice?_eq_some_iff.1 hslice
    obtain ⟨hle, hstop, hfirst, hlast⟩ := hpart.1 ⟨selected, Offsets.part_eq front selected rest⟩
    rw [formatSelection_append]
    simp only [reduceCtorEq, false_iff, not_and, not_or, not_not, Nat.not_lt]
    exact fun _ => ⟨hle, hstop, hfirst, hlast⟩

/-- A part of a text is cut out without a fault exactly between two boundaries in order. For all
options, also such as are not valid, none of the searches, of the parsers and of the formatters
meets a fault, whatever the needle, the delimiter and the offsets are: each of them yields what the
library does. A selection is refused exactly if its bounds are out of order, behind the end or
inside a character. -/
theorem no_fault (options : Options) {t : Text} (h : t.Fits) :
    (∀ start stop, (∃ s, Offsets.part start stop t = .ok s) ↔
      start ≤ stop ∧ stop ≤ t.byteLength ∧ t.IsBoundary start ∧ t.IsBoundary stop) ∧
    (∀ needle : Needle, needle.chars.Fits → ∀ start,
      Offsets.occurrences needle options.quotes start t =
        .ok (needle.occurrences options.quotes start t)) ∧
    (∀ delimiter : Text, delimiter.Fits → Offsets.split delimiter options.quotes t =
      .ok (Needle.split { chars := delimiter } options.quotes t)) ∧
    (∀ start, Offsets.next options.quotes start t = .ok (Span.next? options.quotes start t)) ∧
    Offsets.parse options t = .ok (Statement.parse options t) ∧
    Offsets.rowTexts options.quotes t = .ok (Offsets.rowsLeft options.quotes .unquoted t) ∧
    Offsets.parseRows options.quotes t = .ok (Statement.parseRows options.quotes t) ∧
    Offsets.reformat options t = .ok (reformat? options t) ∧
    ∀ start stop,
      Offsets.formatSelection options start stop t = .ok (formatSelection options start stop t) ∧
        ∀ e, formatSelection options start stop t = .error e ↔ e = ⟨start, stop, t.byteLength⟩ ∧
          (stop < start ∨ t.byteLength < stop ∨ ¬ t.IsBoundary start ∨ ¬ t.IsBoundary stop) := by
  refine ⟨fun start stop => Offsets.part_eq_ok_iff start stop t,
    fun _ hneedle => Offsets.occurrences_eq hneedle h,
    fun _ hdelimiter => Offsets.split_eq hdelimiter h, Offsets.next_eq h,
    Offsets.parse_eq options h, Offsets.rowTexts_eq h, Offsets.parseRows_eq h,
    Offsets.reformat_eq options h, fun start stop => ⟨?_, ?_⟩⟩
  · exact Offsets.formatSelection_eq options h start stop
  · exact formatSelection_eq_error_iff options start stop t

/-- Options that are not valid: the closing parenthesis is a quote and the wrap character. -/
def quotedParenthesis : Options := { quotes := .ofText [')', '\'', 'ü'], columnWrap := some ')' }

/-- A statement with characters and blanks of several bytes around its parentheses. -/
def wideBlanks : Text := "ü-ü INSERT t (ä)\u3000VALUES ('ö')\u3000, (2);".toList

theorem no_fault_wideBlanks :
    wideBlanks.Fits ∧
      Offsets.occurrences { chars := "é".toList } quotedParenthesis.quotes (UInt64.size - 1)
        wideBlanks = .ok [] ∧
      Offsets.split "ü".toList quotedParenthesis.quotes wideBlanks =
        .ok [[], "-".toList, " INSERT t (ä)\u3000VALUES ('ö')\u3000, (2);".toList] ∧
      Offsets.reformat quotedParenthesis wideBlanks =
        .ok (some "ü-ü INSERT t\n()ä))\nVALUES\n('ö'),\n(  2);".toList) ∧
      Offsets.formatSelection quotedParenthesis 1 5 wideBlanks = .ok (.error ⟨1, 5, 44⟩) := by
  have hfits : wideBlanks.Fits := by decide +kernel
  obtain ⟨-, hfound, hsplit, -, -, -, -, hformat, hselect⟩ := no_fault quotedParenthesis hfits
  have hinside : ¬ wideBlanks.IsBoundary 1 := by
    rw [← isSome_dropBytes?_iff]
    decide +kernel
  refine ⟨hfits, ?_, ?_, ?_, ?_⟩
  · rw [hfound { chars := "é".toList } (by decide)]
    decide +kernel
  · rw [hsplit "ü".toList (by decide)]
    decide +kernel
  · rw [hformat]
    decide +kernel
  · have hsize : wideBlanks.byteLength = 44 := by decide +kernel
    have hrefused := ((hselect 1 5).2 _).2 ⟨rfl, .inr (.inr (.inl hinside))⟩
    rw [(hselect 1 5).1, hrefused, hsize]

end InsertLayout
