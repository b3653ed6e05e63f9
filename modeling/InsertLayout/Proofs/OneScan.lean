import InsertLayout.Proofs.Places
import InsertLayout.Proofs.Splice

/-!
# Spans in one scan

A span is looked for with two searches, each of which starts outside quotes. They start at unquoted
places of one scan of the whole text, so that the spans are those that this scan shows: `Greedy`
takes the first keyword from a place on, then the first end of a statement behind it, and goes on
from there (`foundFrom_iff_greedy`).
-/

set_option autoImplicit false

namespace InsertLayout

open Text Statement Document

variable {quotes : QuoteSet}

/-! ## Keywords and ends -/

/-- The unquoted places of one scan at which a statement may start. -/
def insertPlaces (quotes : QuoteSet) (t : Text) : Set Nat :=
  t.places quotes fun rest => ∃ w, InsertWord w ∧ w <+: rest

/-- The unquoted places of one scan at which the end of a statement stands. -/
def endPlaces (quotes : QuoteSet) (t : Text) : Set Nat := t.places quotes ([')', ';'] <+: ·)

theorem prefix_insert_iff (r : Text) : (∃ w, InsertWord w ∧ w <+: r) ↔ ∃ found,
    (if (insertKeyword.after? r).isSome then some r else none) = some found := by
  constructor
  · rintro ⟨w, hw, u, rfl⟩
    exact ⟨w ++ u, by rw [insertKeyword_after?_iff.2 ⟨w, hw, rfl⟩]; rfl⟩
  · rintro ⟨found, hfound⟩
    split at hfound
    · rename_i hsome
      obtain ⟨u, hu⟩ := Option.isSome_iff_exists.1 hsome
      obtain ⟨w, hw, rfl⟩ := insertKeyword_after?_iff.1 hu
      exact ⟨w, hw, u, rfl⟩
    · cases hfound

theorem not_prefix_insert_nil : ¬ ∃ w, InsertWord w ∧ w <+: [] := by
  rintro ⟨w, hw, hprefix⟩
  have hlength := hw.length
  rw [List.prefix_nil.1 hprefix] at hlength
  cases hlength

section
variable {front t : Text} (hfront : Balanced quotes front)
include hfront

theorem isLeast_insertPlaces {gap rest : Text} (h : seekInsert? quotes t = some (gap, rest)) :
    IsLeast (insertPlaces quotes (front ++ t) ∩ Set.Ici front.byteLength)
      (front ++ gap).byteLength :=
  isLeast_places_of_seek? hfront prefix_insert_iff h

theorem insertPlaces_eq_empty (h : seekInsert? quotes t = none) :
    insertPlaces quotes (front ++ t) ∩ Set.Ici front.byteLength = ∅ :=
  places_eq_empty_of_seek? hfront prefix_insert_iff not_prefix_insert_nil h

theorem isLeast_endPlaces {body rest : Text}
    (h : statementEnd.cut? quotes t = some (body, rest)) :
    IsLeast (endPlaces quotes (front ++ t) ∩ Set.Ici front.byteLength)
      (front ++ body).byteLength :=
  isLeast_places_of_seek? hfront (@Needle.prefix_iff statementEnd rfl (by decide)) h

theorem endPlaces_eq_empty (h : statementEnd.cut? quotes t = none) :
    endPlaces quotes (front ++ t) ∩ Set.Ici front.byteLength = ∅ :=
  places_eq_empty_of_seek? hfront (@Needle.prefix_iff statementEnd rfl (by decide)) (by decide) h

end

/-! ## Spans -/

/-- The spans that one scan of a text shows from a byte offset on: each one starts at the first
keyword behind the one before and ends with the first end of a statement behind that keyword. -/
inductive Greedy (quotes : QuoteSet) (t : Text) : Nat → List Span → Prop where
  | noInsert {start : Nat} : insertPlaces quotes t ∩ Set.Ici start = ∅ → Greedy quotes t start []
  | noEnd {start first : Nat} : IsLeast (insertPlaces quotes t ∩ Set.Ici start) first →
      endPlaces quotes t ∩ Set.Ici first = ∅ → Greedy quotes t start []
  | more {start last : Nat} {span : Span} {spans : List Span} :
      IsLeast (insertPlaces quotes t ∩ Set.Ici start) span.start →
        IsLeast (endPlaces quotes t ∩ Set.Ici span.start) last → span.stop = last + 2 →
          t.slice? span.start span.stop = some span.raw → Greedy quotes t span.stop spans →
            Greedy quotes t start (span :: spans)

namespace Greedy

variable {t : Text} {start : Nat} {spans : List Span}

theorem unique (h : Greedy quotes t start spans) {others : List Span}
    (h' : Greedy quotes t start others) : spans = others := by
  induction h generalizing others with
  | noInsert hnone =>
    cases h' with
    | noInsert _ | noEnd _ _ => rfl
    | more hfirst _ _ _ _ => exact absurd hfirst.1 (by simp [hnone])
  | noEnd hfirst hnone =>
    cases h' with
    | noInsert _ | noEnd _ _ => rfl
    | more hfirst' hlast _ _ _ =>
      rw [hfirst'.unique hfirst, hnone] at hlast
      exact absurd hlast.1 (Set.notMem_empty _)
  | @more start last span spans hfirst hlast hstop hraw _ ih =>
    cases h' with
    | noInsert hnone => exact absurd hfirst.1 (by simp [hnone])
    | noEnd hfirst' hnone =>
      rw [hfirst.unique hfirst', hnone] at hlast
      exact absurd hlast.1 (Set.notMem_empty _)
    | @more _ last' span' spans' hfirst' hlast' hstop' hraw' htail =>
      obtain ⟨first, stop, raw⟩ := span
      obtain ⟨first', stop', raw'⟩ := span'
      dsimp only at *
      obtain rfl := hfirst.unique hfirst'
      obtain rfl := hlast.unique hlast'
      obtain rfl := hstop.trans hstop'.symm
      obtain rfl := Option.some.inj (hraw.symm.trans hraw')
      rw [ih htail]

/-- A span starts and ends outside quotes, and no end of a statement comes before its own. -/
theorem spec (hq : quotes.Plain) (h : Greedy quotes t start spans) : ∀ span ∈ spans,
    (∃ rest, t.UnquotedAt quotes span.start rest) ∧ (∃ rest, t.UnquotedAt quotes span.stop rest) ∧
      ∀ p ∈ endPlaces quotes t, span.start ≤ p → span.stop ≤ p + 2 := by
  induction h with
  | noInsert _ | noEnd _ _ => intro span hspan; cases hspan
  | more hfirst hlast hstop _ _ ih =>
    intro span hspan
    rcases List.mem_cons.1 hspan with rfl | hspan
    · obtain ⟨⟨rest, hstart, -⟩, -⟩ := hfirst.1
      obtain ⟨⟨_, hend, u, rfl⟩, -⟩ := hlast.1
      refine ⟨⟨rest, hstart⟩, ⟨u, ?_⟩, fun p hp hle => ?_⟩
      · rw [hstop]
        exact hend.behind (balanced_end hq)
      · have hleast := hlast.2 ⟨hp, hle⟩
        omega
    · exact ih span hspan

end Greedy

/-- The statements of a text behind a balanced front are those that one scan of the whole shows. -/
theorem greedy_spansFrom (hq : quotes.Plain) {front : Text} (hfront : Balanced quotes front)
    (t : Text) : Greedy quotes (front ++ t) front.byteLength
      (spansFrom front.byteLength (ofText quotes t).pieces) := by
  induction t using ofText_induction quotes generalizing front with
  | last t h =>
    rw [ofText_of_none h]
    cases hseek : seekInsert? quotes t with
    | none => exact .noInsert (insertPlaces_eq_empty hfront hseek)
    | some p =>
      obtain ⟨gap, rest⟩ := p
      have hcut : statementEnd.cut? quotes rest = none := by
        cases hcut : statementEnd.cut? quotes rest with
        | none => rfl
        | some p => simp [nextPiece?, hseek, hcut] at h
      obtain ⟨rfl, hgap, -⟩ := seekInsert?_eq_some_iff.1 hseek
      have hnone := endPlaces_eq_empty (hfront.append hgap) hcut
      rw [List.append_assoc] at hnone
      exact .noEnd (isLeast_insertPlaces hfront hseek) hnone
  | more gap w u rest h ih =>
    have hseek : seekInsert? quotes (gap ++ (w ++ u ++ [')', ';']) ++ rest) =
        some (gap, w ++ u ++ [')', ';'] ++ rest) :=
      seekInsert?_eq_some_iff.2 ⟨by simp, h.gap_balanced, by simpa using h.gap_misses, w,
        u ++ [')', ';'] ++ rest, h.word, by simp⟩
    have hcut : statementEnd.cut? quotes (w ++ u ++ [')', ';'] ++ rest) = some (w ++ u, rest) :=
      statementEnd_cut?_eq_some_iff.2 ⟨rfl, h.balanced, h.avoids⟩
    have hfirst := isLeast_insertPlaces hfront hseek
    have hlast := isLeast_endPlaces (hfront.append h.gap_balanced) hcut
    have hslice := slice?_byteLength (front ++ gap) (w ++ u ++ [')', ';']) rest
    have htail := ih (hfront.append (h.gap_balanced.append (h.balanced.append (balanced_end hq))))
    rw [ofText_of_located h, spansFrom]
    simp only [List.append_assoc, byteLength_append, ← Nat.add_assoc] at hfirst hlast hslice htail ⊢
    exact .more hfirst hlast rfl hslice htail

/-- The spans that are found one after another, with two searches for each of them, are those that
one scan of the whole text shows. No span starts or ends inside quotes, and none has an unquoted end
of a statement before its own. -/
theorem foundFrom_iff_greedy (hq : quotes.Plain) (t : Text) :
    (∀ spans, FoundFrom quotes t 0 spans ↔ spans = (ofText quotes t).spans) ∧
    (∀ spans, Greedy quotes t 0 spans ↔ spans = (ofText quotes t).spans) ∧
    ∀ span ∈ (ofText quotes t).spans,
      (∃ rest, t.UnquotedAt quotes span.start rest) ∧
      (∃ rest, t.UnquotedAt quotes span.stop rest) ∧
        ∀ p ∈ endPlaces quotes t, span.start ≤ p → span.stop ≤ p + 2 := by
  have hgreedy : Greedy quotes t 0 (ofText quotes t).spans :=
    greedy_spansFrom hq balanced_nil t
  refine ⟨fun spans => foundFrom_iff, fun spans => ⟨fun h => h.unique hgreedy, ?_⟩, ?_⟩
  · rintro rfl
    exact hgreedy
  · exact hgreedy.spec hq

/-- A text with a keyword and an end between quotes, and a quote in its second statement that is not
closed. -/
def openQuote : Text :=
  "-- é 'INSERT);'\ninsert t (a) values (');', 1);x);\nINSERT u (b) VALUES ('open);".toList

/-- What stands between quotes does not count, and no span starts where the end is hidden. -/
theorem foundFrom_iff_greedy_openQuote :
    QuoteSet.Plain .standard ∧
      (∀ spans, FoundFrom .standard openQuote 0 spans ↔ Greedy .standard openQuote 0 spans) ∧
      Greedy .standard openQuote 0 [⟨17, 47, "insert t (a) values (');', 1);".toList⟩] ∧
      ∀ p ∈ endPlaces .standard openQuote, 17 ≤ p → 47 ≤ p + 2 := by
  have hplain : QuoteSet.Plain .standard := by decide
  have hspans : (ofText .standard openQuote).spans =
      [⟨17, 47, "insert t (a) values (');', 1);".toList⟩] := by decide +kernel
  obtain ⟨hfound, hgreedy, hspec⟩ := foundFrom_iff_greedy hplain openQuote
  rw [hspans] at hfound hgreedy hspec
  refine ⟨hplain, fun spans => (hfound spans).trans (hgreedy spans).symm, (hgreedy _).2 rfl, ?_⟩
  exact (hspec _ List.mem_cons_self).2.2

end InsertLayout
