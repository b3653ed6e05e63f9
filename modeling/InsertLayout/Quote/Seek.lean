import InsertLayout.Quote.Basic

/-!
# Seeking outside quotes

`seek? quotes accept? state t` walks over `t` and stops at the first place outside a quoted region
where `accept?` accepts what is left of the text. `exists_of_seek?` says that what it returns is
such a place; `seek?_cons` and `seek?_nil` are its equations.
-/

set_option autoImplicit false

namespace InsertLayout

variable {β : Type}

/-- Walks on from a place, with the text before it in reverse. -/
def seekFrom? (quotes : QuoteSet) (accept? : Text → Option β) (seen : Text) :
    QuoteState → Text → Option (Text × β)
  | _, [] => none
  | state, c :: t =>
    match if state.isQuoted then none else accept? (c :: t) with
    | some found => some (seen.reverse, found)
    | none => seekFrom? quotes accept? (c :: seen) (state.step quotes c) t

/-- The text before the first unquoted place whose remaining text is accepted, and what that
acceptance yields. -/
def seek? (quotes : QuoteSet) (accept? : Text → Option β) (state : QuoteState) (t : Text) :
    Option (Text × β) :=
  seekFrom? quotes accept? [] state t

theorem seekFrom?_eq (quotes : QuoteSet) (accept? : Text → Option β) (seen : Text)
    (state : QuoteState) (t : Text) :
    seekFrom? quotes accept? seen state t =
      (seek? quotes accept? state t).map fun p => (seen.reverse ++ p.1, p.2) := by
  induction t generalizing seen state with
  | nil => rfl
  | cons c t ih =>
    simp only [seek?, seekFrom?]
    split
    · simp
    · rw [ih, ih [c]]
      cases seek? quotes accept? (state.step quotes c) t <;> simp

@[simp] theorem seek?_nil (quotes : QuoteSet) (accept? : Text → Option β) (state : QuoteState) :
    seek? quotes accept? state [] = none := rfl

theorem seek?_cons (quotes : QuoteSet) (accept? : Text → Option β) (state : QuoteState) (c : Char)
    (t : Text) :
    seek? quotes accept? state (c :: t) =
      match if state.isQuoted then none else accept? (c :: t) with
      | some found => some ([], found)
      | none => (seek? quotes accept? (state.step quotes c) t).map fun p => (c :: p.1, p.2) := by
  rw [seek?, seekFrom?]
  split
  · rfl
  · rw [seekFrom?_eq]; rfl

/-- What is found stands outside quotes and is accepted together with the text after it. -/
theorem exists_of_seek? {quotes : QuoteSet} {accept? : Text → Option β} {state : QuoteState}
    {t before : Text} {found : β} (h : seek? quotes accept? state t = some (before, found)) :
    ∃ rest, t = before ++ rest ∧ accept? rest = some found ∧
      state.scan quotes before = .unquoted := by
  induction t generalizing before state with
  | nil => simp at h
  | cons c t ih =>
    rw [seek?_cons] at h
    split at h
    · rename_i found' hacc
      obtain ⟨rfl, rfl⟩ : [] = before ∧ found' = found := by simpa using h
      refine ⟨c :: t, rfl, ?_, ?_⟩ <;> cases state <;> simp_all [QuoteState.isQuoted]
    · obtain ⟨⟨before', found'⟩, hfound, heq⟩ := Option.map_eq_some_iff.1 h
      obtain ⟨rfl, rfl⟩ : c :: before' = before ∧ found' = found := by simpa using heq
      obtain ⟨rest, rfl, hacc, hscan⟩ := ih hfound
      exact ⟨rest, rfl, hacc, hscan⟩

end InsertLayout
