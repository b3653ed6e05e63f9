import InsertLayout.Quote.Seek
import InsertLayout.Text.Cutter

/-!
# Occurrences of a needle outside quotes

A needle is a text to look for, compared exactly or up to the case of ASCII letters; quotes are
never subject to case. `Needle.find?` is its first unquoted occurrence and `Needle.occurrences`
are all of them, none overlapping another: the search goes on behind each one, outside quotes
again, so the characters of an occurrence open no quote. `Needle.split` cuts a text at them.
`intercalate_split` says that putting the needle back between the pieces gives the text again.
-/

set_option autoImplicit false

namespace InsertLayout

/-- A text to look for. -/
structure Needle where
  chars : Text
  /-- Whether letters that differ in ASCII case only count as equal. -/
  ignoreCase : Bool := false
  deriving DecidableEq

namespace Needle

/-- The needle of one character. -/
def char (c : Char) : Needle := { chars := [c] }

/-- Whether a character of the needle matches one of the text. -/
def same (needle : Needle) (a b : Char) : Bool :=
  if needle.ignoreCase then a.toLower == b.toLower else a == b

/-- What follows a text that the rest of a needle matches. -/
def afterChars? (needle : Needle) : Text → Text → Option Text
  | [], t => some t
  | _ :: _, [] => none
  | a :: rest, b :: t => if needle.same a b then afterChars? needle rest t else none

/-- What follows the needle in a text that starts with it; an empty needle starts no text. -/
def after? (needle : Needle) (t : Text) : Option Text :=
  if needle.chars.isEmpty then none else needle.afterChars? needle.chars t

/-- The text before the first unquoted occurrence and the text behind it. -/
def cut? (needle : Needle) (quotes : QuoteSet) (t : Text) : Option (Text × Text) :=
  seek? quotes needle.after? .unquoted t

theorem length_of_afterChars? {needle : Needle} {n t rest : Text}
    (h : needle.afterChars? n t = some rest) : t.length = n.length + rest.length := by
  induction n generalizing t with
  | nil => simp_all [afterChars?]
  | cons a n ih =>
    cases t with
    | nil => simp [afterChars?] at h
    | cons b t =>
      rw [afterChars?] at h
      split at h
      · simp [ih h]; omega
      · cases h

theorem length_lt_of_after? {needle : Needle} {t rest : Text} (h : needle.after? t = some rest) :
    rest.length < t.length := by
  rw [after?] at h
  split at h
  · cases h
  · rename_i hne
    have := length_of_afterChars? h
    cases hn : needle.chars with
    | nil => simp [hn] at hne
    | cons a n => simp [hn] at this; omega

theorem length_lt_of_cut? {needle : Needle} {quotes : QuoteSet} {t before rest : Text}
    (h : needle.cut? quotes t = some (before, rest)) : rest.length < t.length := by
  obtain ⟨r, rfl, hr, -⟩ := exists_of_seek? h
  have := length_lt_of_after? hr
  simp; omega

/-- Takes the text before the next occurrence. -/
def cutter (needle : Needle) (quotes : QuoteSet) : Cutter Text Text where
  size := List.length
  next? := needle.cut? quotes
  size_lt := length_lt_of_cut?

/-- The pieces of a text between the unquoted occurrences of the needle, as they stand. -/
def split (needle : Needle) (quotes : QuoteSet) (t : Text) : List Text :=
  let (pieces, rest) := (needle.cutter quotes).run t
  pieces ++ [rest]

/-- The byte offsets of the occurrences that stand behind each of several pieces, the first of which
starts at a given offset. -/
def offsets (needle : Needle) (start : Nat) : List Text → List Nat
  | [] => []
  | piece :: pieces =>
    let here := start + piece.byteLength
    here :: offsets needle (here + needle.chars.byteLength) pieces

/-- The byte offsets of all unquoted occurrences from a byte offset on; there are none if it is no
character boundary. -/
def occurrences (needle : Needle) (quotes : QuoteSet) (start : Nat) (t : Text) : List Nat :=
  match t.dropBytes? start with
  | none => []
  | some rest => needle.offsets start ((needle.cutter quotes).run rest).1

/-- The byte offset of the first unquoted occurrence from a byte offset on. -/
def find? (needle : Needle) (quotes : QuoteSet) (start : Nat) (t : Text) : Option Nat := do
  let rest ← t.dropBytes? start
  let (before, _) ← needle.cut? quotes rest
  return start + before.byteLength

/-- A needle compared exactly is what stands before the text behind it. -/
theorem eq_append_of_after? {needle : Needle} (hcase : needle.ignoreCase = false) {t rest : Text}
    (h : needle.after? t = some rest) : t = needle.chars ++ rest := by
  have key : ∀ n u : Text, needle.afterChars? n u = some rest → u = n ++ rest := by
    intro n
    induction n with
    | nil => simp [afterChars?]
    | cons a n ih =>
      intro u hu
      cases u with
      | nil => simp [afterChars?] at hu
      | cons b u =>
        rw [afterChars?] at hu
        split at hu
        · rename_i hab
          rw [same, hcase] at hab
          have hab : a = b := by simpa using hab
          simp [hab, ih u hu]
        · cases hu
  rw [after?] at h
  split at h
  · cases h
  · exact key _ _ h

theorem intercalate_split (needle : Needle) (hcase : needle.ignoreCase = false)
    (quotes : QuoteSet) (t : Text) : needle.chars.intercalate (needle.split quotes t) = t := by
  induction h : t.length using Nat.strongRecOn generalizing t with
  | ind n ih =>
    subst h
    cases hcut : (needle.cutter quotes).next? t with
    | none => simp [split, Cutter.run_of_none hcut]
    | some p =>
      obtain ⟨before, rest⟩ := p
      have hlt : rest.length < t.length := length_lt_of_cut? hcut
      have hjoin := ih _ hlt rest rfl
      obtain ⟨found, rfl, hafter, -⟩ := exists_of_seek? hcut
      simp only [split, Cutter.run_of_some hcut, List.cons_append] at hjoin ⊢
      rw [List.intercalate_cons_of_ne_nil (by simp), hjoin, eq_append_of_after? hcase hafter,
        List.append_assoc]

end Needle

end InsertLayout
