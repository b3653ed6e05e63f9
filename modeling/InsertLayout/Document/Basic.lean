import InsertLayout.Quote.Needle

/-!
# Documents

A document is cut into the statements that start with an unquoted `INSERT` and end with the next
unquoted `);`, each with the gap before it, and the tail behind the last one. Each search starts
outside quotes. A statement that does not end is part of the tail. `Document.toText_ofText` says
that the parts of a document make up its text.
-/

set_option autoImplicit false

namespace InsertLayout

/-- A statement with the text between it and the statement before. -/
structure Piece where
  gap : Text
  statement : Text
  deriving DecidableEq

/-- A text cut at its statements. -/
structure Document where
  pieces : List Piece
  /-- What stands behind the last statement. -/
  tail : Text
  deriving DecidableEq

/-- A statement and the byte offsets at which it starts and ends. -/
structure Span where
  start : Nat
  stop : Nat
  raw : Text
  deriving DecidableEq

/-- The keyword with which a statement starts, in any case. -/
def insertKeyword : Needle := { chars := "INSERT".toList, ignoreCase := true }

/-- The end of a statement. -/
def statementEnd : Needle := { chars := [')', ';'] }

/-- The text before the first unquoted keyword, and the text from it on. -/
def seekInsert? (quotes : QuoteSet) (t : Text) : Option (Text × Text) :=
  seek? quotes (fun rest => if (insertKeyword.after? rest).isSome then some rest else none)
    .unquoted t

/-- The next statement, with the gap before it, and the text behind it. -/
def nextPiece? (quotes : QuoteSet) (t : Text) : Option (Piece × Text) := do
  let (gap, rest) ← seekInsert? quotes t
  let (body, rest) ← statementEnd.cut? quotes rest
  return (⟨gap, body ++ statementEnd.chars⟩, rest)

/-- The text before a statement that starts and does not end. -/
def unterminated? (quotes : QuoteSet) (t : Text) : Option Text := do
  let (gap, rest) ← seekInsert? quotes t
  if (statementEnd.cut? quotes rest).isNone then some gap else none

theorem eq_append_of_seekInsert? {quotes : QuoteSet} {t gap rest : Text}
    (h : seekInsert? quotes t = some (gap, rest)) : t = gap ++ rest := by
  obtain ⟨found, hfound, haccept, -⟩ := exists_of_seek? h
  split at haccept
  · obtain rfl : found = rest := by simpa using haccept
    exact hfound
  · cases haccept

/-- A statement, the gap before it and the rest make up the text. -/
theorem eq_append_of_nextPiece? {quotes : QuoteSet} {t rest : Text} {piece : Piece}
    (h : nextPiece? quotes t = some (piece, rest)) :
    t = piece.gap ++ piece.statement ++ rest := by
  simp only [nextPiece?, bind, Option.bind_eq_some_iff, pure] at h
  obtain ⟨⟨gap, t₁⟩, h₁, ⟨body, t₂⟩, h₂, he⟩ := h
  obtain ⟨rfl, rfl⟩ := by simpa using he
  obtain ⟨found, rfl, hafter, -⟩ := exists_of_seek? h₂
  rw [eq_append_of_seekInsert? h₁, Needle.eq_append_of_after? rfl hafter]
  simp

theorem length_lt_of_nextPiece? {quotes : QuoteSet} {t rest : Text} {piece : Piece}
    (h : nextPiece? quotes t = some (piece, rest)) : rest.length < t.length := by
  simp only [nextPiece?, bind, Option.bind_eq_some_iff, pure] at h
  obtain ⟨⟨gap, t₁⟩, h₁, ⟨body, t₂⟩, h₂, he⟩ := h
  obtain ⟨-, rfl⟩ := by simpa using he
  have hlt : t₂.length < t₁.length := Needle.length_lt_of_cut? h₂
  have := congrArg List.length (eq_append_of_seekInsert? h₁)
  simp at this; omega

/-- Takes the statements of a text. -/
def pieceCutter (quotes : QuoteSet) : Cutter Text Piece where
  size := List.length
  next? := nextPiece? quotes
  size_lt := length_lt_of_nextPiece?

namespace Document

/-- Cuts a text at its statements. -/
def ofText (quotes : QuoteSet) (t : Text) : Document :=
  let (pieces, tail) := (pieceCutter quotes).run t
  ⟨pieces, tail⟩

/-- The text of a document. -/
def toText (d : Document) : Text := d.pieces.flatMap (fun p => p.gap ++ p.statement) ++ d.tail

/-- The places of statements behind a byte offset. -/
def spansFrom (offset : Nat) : List Piece → List Span
  | [] => []
  | piece :: pieces =>
    let start := offset + piece.gap.byteLength
    let stop := start + piece.statement.byteLength
    ⟨start, stop, piece.statement⟩ :: spansFrom stop pieces

/-- The places of the statements. -/
def spans (d : Document) : List Span := spansFrom 0 d.pieces

theorem toText_ofText (quotes : QuoteSet) (t : Text) : (ofText quotes t).toText = t := by
  induction h : t.length using Nat.strongRecOn generalizing t with
  | ind n ih =>
    subst h
    cases hnext : (pieceCutter quotes).next? t with
    | none => simp [ofText, Cutter.run_of_none hnext, toText]
    | some p =>
      have ih := ih _ (length_lt_of_nextPiece? hnext) p.2 rfl
      simp only [ofText, toText] at ih
      simp only [ofText, Cutter.run_of_some hnext, toText, List.flatMap_cons, List.append_assoc, ih]
      simpa using (eq_append_of_nextPiece? hnext).symm

end Document

/-- The first statement from a byte offset on. -/
def Span.next? (quotes : QuoteSet) (start : Nat) (t : Text) : Option Span := do
  let rest ← t.dropBytes? start
  let (piece, _) ← nextPiece? quotes rest
  (Document.spansFrom start [piece]).head?

end InsertLayout
