import InsertLayout.Proofs.Compose
import InsertLayout.Proofs.Idempotence

/-!
# Formatting selections

A selection between two boundaries of a text, each of them its front, its back or the end of a
statement, can be formatted, and formatting the whole text afterwards gives what formatting it at
once gives: the text before the selection is complete, what is formatted stays complete, and so each
of the three parts is formatted on its own (`Selected.format_eq`). The boundaries around a selection
stay boundaries. Hence formatting such selections one after another makes no difference to the
formatted text either (`format_formatSelection`).
-/

set_option autoImplicit false

namespace InsertLayout

open Text Statement Document

variable {quotes : QuoteSet} {options : Options}

/-! ## Boundaries -/

/-- A place at which a selection may start or end: the front or the back of a text, or the end of a
statement. -/
inductive Boundary (quotes : QuoteSet) (t : Text) : Nat → Prop where
  | front : Boundary quotes t 0
  | back : Boundary quotes t t.byteLength
  | stop {span : Span} : span ∈ (ofText quotes t).spans → Boundary quotes t span.stop

theorem spansFrom_append (offset : Nat) (pieces others : List Piece) :
    spansFrom offset (pieces ++ others) = spansFrom offset pieces ++
      spansFrom (offset + byteLength (pieces.flatMap fun p => p.gap ++ p.statement)) others := by
  induction pieces generalizing offset with
  | nil => rfl
  | cons p pieces ih =>
    rw [List.cons_append, spansFrom, spansFrom, ih, List.flatMap_cons, byteLength_append,
      byteLength_append, List.cons_append]
    simp only [Nat.add_assoc]

/-- A complete text ends at a boundary, whatever follows it. -/
theorem Complete.boundary {s : Text} (hs : Complete quotes s) (t : Text) :
    Boundary quotes (s ++ t) s.byteLength := by
  have hstop := getLast?_spansFrom 0 (ofText quotes s).pieces
  have htext := toText_ofText quotes s
  unfold toText at htext
  rw [show (ofText quotes s).tail = [] from hs, List.append_nil] at htext
  rw [htext, Nat.zero_add] at hstop
  cases hlast : (spansFrom 0 (ofText quotes s).pieces).getLast? with
  | none =>
    rw [hlast] at hstop
    rw [← show 0 = s.byteLength from hstop]
    exact Boundary.front
  | some span =>
    rw [hlast] at hstop
    rw [← show span.stop = s.byteLength from hstop]
    apply Boundary.stop
    unfold Document.spans
    rw [hs.ofText_append, spansFrom_append]
    exact List.mem_append_left _ (List.mem_of_getLast? hlast)

/-- A boundary is the back of a text or stands behind a complete part of it. -/
theorem boundary_iff {t : Text} {n : Nat} : Boundary quotes t n ↔
    ∃ s r, t = s ++ r ∧ s.byteLength = n ∧ (Complete quotes s ∨ r = []) := by
  constructor
  · intro h
    cases h with
    | front => exact ⟨[], t, rfl, rfl, .inl complete_nil⟩
    | back => exact ⟨t, [], by simp, rfl, .inr rfl⟩
    | stop hspan =>
      obtain ⟨s, r, ht, hstop, hs⟩ := exists_complete_of_mem_spans hspan
      exact ⟨s, r, ht, by omega, .inl hs⟩
  · rintro ⟨s, r, rfl, rfl, hs | rfl⟩
    · exact hs.boundary r
    · rw [List.append_nil]
      exact Boundary.back

theorem Complete.append_iff {s : Text} (hs : Complete quotes s) {t : Text} :
    Complete quotes (s ++ t) ↔ Complete quotes t := by
  unfold Complete
  rw [hs.ofText_append]

/-! ## One selection -/

theorem format_nil (options : Options) : format options [] = [] := format_of_none rfl

/-- The three parts into which a selection between two boundaries cuts a text: what stands before
the selection is complete, and so is what stands up to its end, unless nothing follows. -/
structure Selected (quotes : QuoteSet) (before selected after : Text) : Prop where
  before_complete : Complete quotes before ∨ selected ++ after = []
  complete : Complete quotes (before ++ selected) ∨ after = []

/-- Two boundaries cut a text into three parts. -/
theorem exists_selected {t : Text} {start stop : Nat} (hstart : Boundary quotes t start)
    (hstop : Boundary quotes t stop) (hle : start ≤ stop) :
    ∃ before selected after, t = before ++ selected ++ after ∧ before.byteLength = start ∧
      (before ++ selected).byteLength = stop ∧ Selected quotes before selected after := by
  obtain ⟨s, r, rfl, rfl, hs⟩ := boundary_iff.1 hstart
  obtain ⟨s', r', heq, rfl, hs'⟩ := boundary_iff.1 hstop
  obtain ⟨v, rfl, rfl⟩ := exists_append_of_byteLength_le heq hle
  exact ⟨s, v, r', by simp, rfl, rfl, hs, hs'⟩

theorem formatSelection_append (options : Options) (before selected after : Text) :
    formatSelection options before.byteLength (before ++ selected).byteLength
        (before ++ selected ++ after) =
      .ok (before ++ format options selected ++ after) := by
  have hbefore := takeBytes?_byteLength before (selected ++ after)
  rw [← List.append_assoc] at hbefore
  unfold formatSelection
  rw [hbefore, slice?_byteLength, dropBytes?_byteLength]

section
variable (hq : options.quotes.Plain) (hwrap : options.columnWrap = none)
include hq hwrap

/-- A formatted text stays as it is. -/
theorem format_format_bare (t : Text) : format options (format options t) = format options t :=
  (format_of_settled (format_ofText_format hq (wrapsSoundly_of_none hq hwrap))).1

/-- A complete text stays complete when it is formatted. -/
theorem Complete.format {t : Text} (ht : Complete options.quotes t) :
    Complete options.quotes (format options t) := by
  unfold Complete
  rw [(ofText_format hq (wrapsSoundly_of_none hq hwrap)).1]
  exact ht

variable {before selected after : Text} (h : Selected options.quotes before selected after)
include h

/-- Formatting the selection first makes no difference. -/
theorem Selected.format_eq : format options (before ++ format options selected ++ after) =
    format options (before ++ selected ++ after) := by
  rcases h.before_complete with hbefore | hnone
  · rw [List.append_assoc, List.append_assoc, format_append hbefore.closed,
      format_append hbefore.closed]
    congr 1
    rcases h.complete with hthrough | rfl
    · have hselected := hbefore.append_iff.1 hthrough
      rw [format_append (hselected.format hq hwrap).closed, format_append hselected.closed,
        format_format_bare hq hwrap]
    · rw [List.append_nil, List.append_nil, format_format_bare hq hwrap]
  · obtain ⟨rfl, rfl⟩ := List.append_eq_nil_iff.1 hnone
    rw [format_nil]

omit hq hwrap in
/-- A boundary before the selection is one of the new text. -/
theorem Selected.boundary_before {n : Nat}
    (hn : Boundary options.quotes (before ++ selected ++ after) n) (hle : n ≤ before.byteLength) :
    Boundary options.quotes (before ++ format options selected ++ after) n := by
  obtain ⟨s, r, heq, rfl, hs⟩ := boundary_iff.1 hn
  rw [List.append_assoc] at heq
  obtain ⟨v, rfl, rfl⟩ := exists_append_of_byteLength_le heq.symm hle
  refine boundary_iff.2 ⟨s, v ++ (format options selected ++ after), by simp, rfl, ?_⟩
  refine hs.imp_right fun hnone => ?_
  obtain ⟨rfl, hrest⟩ := List.append_eq_nil_iff.1 hnone
  obtain ⟨rfl, rfl⟩ := List.append_eq_nil_iff.1 hrest
  rw [format_nil]
  rfl

/-- A boundary behind the selection moves with the text behind it. -/
theorem Selected.boundary_behind {n : Nat}
    (hn : Boundary options.quotes (before ++ selected ++ after) n)
    (hle : (before ++ selected).byteLength ≤ n) :
    Boundary options.quotes (before ++ format options selected ++ after)
      (n + (format options selected).byteLength - selected.byteLength) := by
  obtain ⟨s, r, heq, rfl, hs⟩ := boundary_iff.1 hn
  obtain ⟨v, rfl, rfl⟩ := exists_append_of_byteLength_le heq hle
  have hplace : (before ++ selected ++ v).byteLength + (format options selected).byteLength -
      selected.byteLength = (before ++ format options selected ++ v).byteLength := by
    simp only [byteLength_append]
    omega
  rw [hplace]
  refine boundary_iff.2 ⟨before ++ format options selected ++ v, r, by simp, rfl, ?_⟩
  rcases hs with hs | hnone
  · rcases h.complete with hthrough | hnone
    · rcases h.before_complete with hbefore | hnone
      · have hselected := (hbefore.append_iff.1 hthrough).format hq hwrap
        exact .inl ((hbefore.append_iff.2 hselected).append_iff.2 (hthrough.append_iff.1 hs))
      · exact .inr (List.append_eq_nil_iff.1 (List.append_eq_nil_iff.1 hnone).2).2
    · exact .inr (List.append_eq_nil_iff.1 hnone).2
  · exact .inr hnone

end

/-! ## Selections one after another -/

/-- The texts to which selections lead, each of which starts and ends at boundaries of the text that
the one before has left. -/
inductive Selections (options : Options) (t : Text) : Text → Prop where
  | none : Selections options t t
  | more {r r' : Text} {start stop : Nat} : Selections options t r →
      Boundary options.quotes r start → Boundary options.quotes r stop → start ≤ stop →
        formatSelection options start stop r = .ok r' → Selections options t r'

/-- A selection between two boundaries can be formatted, and that makes no difference to the
formatted text; the boundaries around it stay where they are in the text around it. So no number of
such selections, in any order, makes a difference. -/
theorem format_formatSelection (hq : options.quotes.Plain) (hwrap : options.columnWrap = none)
    (t : Text) :
    (∀ start stop, Boundary options.quotes t start → Boundary options.quotes t stop →
      start ≤ stop → ∃ r, formatSelection options start stop t = .ok r ∧
        format options r = format options t ∧
        (∀ n, Boundary options.quotes t n → n ≤ start → Boundary options.quotes r n) ∧
        ∀ n, Boundary options.quotes t n → stop ≤ n →
          Boundary options.quotes r (n + r.byteLength - t.byteLength)) ∧
    ∀ r, Selections options t r → format options r = format options t := by
  constructor
  · intro start stop hstart hstop hle
    obtain ⟨before, selected, after, rfl, rfl, rfl, h⟩ := exists_selected hstart hstop hle
    refine ⟨_, formatSelection_append options before selected after, h.format_eq hq hwrap, ?_, ?_⟩
    · intro n hn hbefore
      exact h.boundary_before hn hbefore
    · intro n hn hbehind
      have hplace := h.boundary_behind hq hwrap hn hbehind
      simp only [byteLength_append] at hplace hbehind ⊢
      convert hplace using 1
      omega
  · intro r hr
    induction hr with
    | none => rfl
    | more _ hstart hstop hle hnext ih =>
      obtain ⟨before, selected, after, rfl, rfl, rfl, h⟩ := exists_selected hstart hstop hle
      rw [formatSelection_append] at hnext
      obtain rfl := Except.ok.inj hnext
      rw [h.format_eq hq hwrap, ih]

/-- Two statements with text around them. -/
def twoStatements : Text :=
  "a\nInsert u (b) values ('é;'), (3);\n-- x\ninsert v(c) values (f(3), 4) ;);".toList

/-- The second statement and what follows it are formatted before the whole, behind a character of
two bytes. -/
theorem format_formatSelection_second :
    QuoteSet.Plain .standard ∧ Boundary .standard twoStatements 35 ∧
      Boundary .standard twoStatements twoStatements.byteLength ∧
      ∃ r,
        formatSelection { columnWrap := none } 35 twoStatements.byteLength twoStatements = .ok r ∧
        r ≠ twoStatements ∧
        Selections { columnWrap := none } twoStatements r ∧
        format { columnWrap := none } r = format { columnWrap := none } twoStatements := by
  have hplain : QuoteSet.Plain .standard := by decide
  have hstart : Boundary .standard twoStatements 35 := by
    have hspan : (⟨2, 35, "Insert u (b) values ('é;'), (3);".toList⟩ : Span) ∈
        (ofText .standard twoStatements).spans := by decide +kernel
    exact Boundary.stop hspan
  have hstop : Boundary .standard twoStatements twoStatements.byteLength := Boundary.back
  obtain ⟨hone, hall⟩ :=
    @format_formatSelection { columnWrap := none } hplain rfl twoStatements
  obtain ⟨r, hr, -, -, -⟩ := hone _ _ hstart hstop (by decide +kernel)
  have hselections : Selections { columnWrap := none } twoStatements r :=
    .more .none hstart hstop (by decide +kernel) hr
  have hchanged : formatSelection { columnWrap := none } 35 twoStatements.byteLength
      twoStatements ≠ .ok twoStatements := by decide +kernel
  exact ⟨hplain, hstart, hstop, r, hr, fun he => hchanged (he ▸ hr), hselections,
    hall r hselections⟩

end InsertLayout
