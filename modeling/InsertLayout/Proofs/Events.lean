import InsertLayout.Proofs.Splice

/-!
# Events and spans

The events of formatting follow the spans of a text: one event with the place of each statement, in
order, behind the reason for which the statement stays as it is, and at the end one event for a
statement that does not end (`events_eq`). So the places are those of the spans, the reasons those
for which spans cannot be parsed, and the last event is there exactly if a keyword is found behind
the last span (`events_exact`).
-/

set_option autoImplicit false

namespace InsertLayout

open Text Statement Document

variable {quotes : QuoteSet} {options : Options} {t : Text}

/-! ## The tail -/

theorem nextPiece?_tail (quotes : QuoteSet) (t : Text) :
    nextPiece? quotes (ofText quotes t).tail = none :=
  (pieceCutter quotes).next?_run t

/-- A keyword in the tail belongs to a statement that does not end. -/
theorem unterminated?_tail (quotes : QuoteSet) (t : Text) :
    unterminated? quotes (ofText quotes t).tail =
      (seekInsert? quotes (ofText quotes t).tail).map Prod.fst := by
  have hnext := nextPiece?_tail quotes t
  unfold unterminated?
  cases hseek : seekInsert? quotes (ofText quotes t).tail with
  | none => rfl
  | some p =>
    obtain ⟨gap, rest⟩ := p
    cases hcut : statementEnd.cut? quotes rest with
    | none => simp [hcut]
    | some p => simp [nextPiece?, hseek, hcut] at hnext

/-- The tail starts where the last statement ends. -/
theorem lastStop_add_tail (quotes : QuoteSet) (t : Text) :
    (ofText quotes t).lastStop + (ofText quotes t).tail.byteLength = t.byteLength := by
  obtain ⟨front, ht, hfront⟩ := eq_append_of_dropBytes? (dropBytes?_lastStop quotes t)
  rw [← hfront, ← byteLength_append, ← ht]

theorem find?_lastStop (quotes : QuoteSet) (t : Text) :
    insertKeyword.find? quotes (ofText quotes t).lastStop t =
      (unterminated? quotes (ofText quotes t).tail).map fun gap =>
        (ofText quotes t).lastStop + gap.byteLength := by
  obtain ⟨front, ht, hfront⟩ := eq_append_of_dropBytes? (dropBytes?_lastStop quotes t)
  have hfind := @insertKeyword_find?_append quotes front (ofText quotes t).tail
  rw [← ht, hfront] at hfind
  rw [hfind, unterminated?_tail, Option.map_map]
  rfl

/-! ## All events -/

/-- The events are those of the spans, one after another, and that of a keyword behind them. -/
theorem events_eq {spans : List Span} (h : FoundFrom options.quotes t 0 spans) :
    (ofText options.quotes t).events options = spans.flatMap (Span.events options) ++
      ((insertKeyword.find? options.quotes (ofText options.quotes t).lastStop t).map
        Event.unterminated).toList := by
  obtain rfl := foundFrom_iff.1 h
  have htail := lastStop_add_tail options.quotes t
  unfold Document.events
  rw [toText_ofText, find?_lastStop, ← htail, Nat.add_sub_cancel]
  cases unterminated? options.quotes (ofText options.quotes t).tail <;> rfl

/-! ## Places and reasons -/

/-- The place that an event gives for a statement. -/
def Event.place? : Event → Option (Nat × Nat)
  | .formatted start stop => some (start, stop)
  | _ => none

/-- The reason that an event gives for a statement that stays as it is. -/
def Event.reason? : Event → Option ParseError
  | .unchanged e => some e
  | _ => none

/-- Why a statement cannot be parsed. -/
def Span.refusal? (options : Options) (span : Span) : Option ParseError :=
  match parse options span.raw with
  | .ok _ => none
  | .error e => some e

theorem Span.places_events (options : Options) (span : Span) :
    (span.events options).filterMap Event.place? = [(span.start, span.stop)] := by
  unfold Span.events
  cases renderStatement options span.raw <;> rfl

theorem Span.reasons_events (options : Options) (span : Span) :
    (span.events options).filterMap Event.reason? = (span.refusal? options).toList := by
  unfold Span.events Span.refusal? renderStatement
  cases parse options span.raw <;> rfl

theorem Span.not_unterminated_mem_events (options : Options) (span : Span) (start : Nat) :
    .unterminated start ∉ span.events options := by
  unfold Span.events
  cases renderStatement options span.raw <;> simp

/-- Every span that is found gives one event with its place, and if it cannot be parsed one with the
reason, in the order of the spans. An event for a statement that does not end is there exactly if
behind the last span a keyword is found, and no end of a statement is found behind it. -/
theorem events_exact {spans : List Span} (h : FoundFrom options.quotes t 0 spans) :
    (((ofText options.quotes t).events options).filterMap Event.place? =
      spans.map fun span => (span.start, span.stop)) ∧
    (((ofText options.quotes t).events options).filterMap Event.reason? =
      spans.filterMap (Span.refusal? options)) ∧
    ∀ start, .unterminated start ∈ (ofText options.quotes t).events options ↔
      insertKeyword.find? options.quotes ((spans.getLast?.map Span.stop).getD 0) t = some start ∧
        statementEnd.find? options.quotes start t = none := by
  obtain rfl := foundFrom_iff.1 h
  rw [events_eq h]
  simp only [List.filterMap_append, List.filterMap_flatMap, Span.places_events,
    Span.reasons_events, ← List.map_eq_flatMap, ← List.filterMap_eq_flatMap_toList]
  have hlast : ((ofText options.quotes t).spans.getLast?.map Span.stop).getD 0 =
      (ofText options.quotes t).lastStop := rfl
  rw [hlast]
  cases hfind : insertKeyword.find? options.quotes (ofText options.quotes t).lastStop t with
  | none =>
    refine ⟨List.append_nil _, List.append_nil _, fun start => ?_⟩
    simp [Span.not_unterminated_mem_events]
  | some first =>
    have hnoEnd := Span.find?_end_of_next?_eq_none h.next?_eq_none hfind
    refine ⟨List.append_nil _, List.append_nil _, fun start => ?_⟩
    simp only [Option.map_some, Option.toList_some, List.mem_append, List.mem_flatMap,
      Span.not_unterminated_mem_events, and_false, exists_false, false_or, List.mem_singleton,
      Event.unterminated.injEq, Option.some.injEq]
    constructor
    · rintro rfl
      exact ⟨rfl, hnoEnd⟩
    · rintro ⟨rfl, -⟩
      rfl

end InsertLayout
