import InsertLayout.Text.Basic

/-!
# Quotes

A quote set holds the characters that open a quoted region; a region ends at the next occurrence
of the character that opened it, so at most one quote is open at a time and there are no escapes.
`QuoteState.scan` is the state in which a text is left; `mem_ofText` says that building a set
keeps its members, of which each is listed once.
-/

set_option autoImplicit false

namespace InsertLayout

/-- Characters that each open and close a quoted region of their own, without repetitions. -/
@[ext] structure QuoteSet where
  chars : Text
  nodup : chars.Nodup
  deriving DecidableEq

namespace QuoteSet

/-- Each character of a text once, where it first occurs. -/
def firstOccurrences : Text → Text
  | [] => []
  | c :: t => c :: (firstOccurrences t).filter (· != c)

theorem mem_firstOccurrences {c : Char} {t : Text} : c ∈ firstOccurrences t ↔ c ∈ t := by
  induction t with
  | nil => rfl
  | cons d t ih => by_cases h : c = d <;> simp [firstOccurrences, ih, h]

theorem nodup_firstOccurrences (t : Text) : (firstOccurrences t).Nodup := by
  induction t with
  | nil => exact List.nodup_nil
  | cons d t ih => exact List.nodup_cons.2 ⟨by simp, ih.filter _⟩

/-- The characters of a text as a quote set. -/
def ofText (t : Text) : QuoteSet := ⟨firstOccurrences t, nodup_firstOccurrences t⟩

/-- The quotes of string literals and of identifiers. -/
def standard : QuoteSet := ofText ['\'', '"']

instance : Inhabited QuoteSet := ⟨standard⟩

instance : Membership Char QuoteSet := ⟨fun quotes c => c ∈ quotes.chars⟩

instance (c : Char) (quotes : QuoteSet) : Decidable (c ∈ quotes) :=
  inferInstanceAs (Decidable (c ∈ quotes.chars))

/-- Whether the set has no member. -/
def isEmpty (quotes : QuoteSet) : Bool := quotes.chars.isEmpty

/-- Whether a member of the set occurs in a text. -/
def occursIn (quotes : QuoteSet) (t : Text) : Bool := t.any (· ∈ quotes)

/-- The set without one character. -/
def without (quotes : QuoteSet) (c : Char) : QuoteSet :=
  ⟨quotes.chars.filter (· != c), quotes.nodup.filter _⟩

theorem mem_ofText {c : Char} {t : Text} : c ∈ ofText t ↔ c ∈ t := mem_firstOccurrences

theorem mem_without {c d : Char} {quotes : QuoteSet} :
    c ∈ quotes.without d ↔ c ∈ quotes ∧ c ≠ d := by
  show c ∈ quotes.chars.filter (· != d) ↔ c ∈ quotes.chars ∧ c ≠ d
  simp

/-- A character that is no quote is not missed. -/
theorem without_of_not_mem {c : Char} {quotes : QuoteSet} (h : c ∉ quotes) :
    quotes.without c = quotes := by
  ext1
  exact List.filter_eq_self.2 fun d hd => by simpa using fun he : d = c => h (he ▸ hd)

end QuoteSet

/-- Whether a quoted region is open, and which character closes it. -/
inductive QuoteState where
  | unquoted
  | quotedBy (quote : Char)
  deriving DecidableEq, Repr, Inhabited

namespace QuoteState

/-- The state after one more character. -/
def step (quotes : QuoteSet) : QuoteState → Char → QuoteState
  | unquoted, c => if c ∈ quotes then quotedBy c else unquoted
  | quotedBy q, c => if c = q then unquoted else quotedBy q

/-- Whether a quoted region is open. -/
def isQuoted : QuoteState → Bool
  | unquoted => false
  | quotedBy _ => true

/-- The state after a text. -/
def scan (quotes : QuoteSet) (state : QuoteState) (t : Text) : QuoteState :=
  t.foldl (step quotes) state

/-- The states after each character of a text. -/
def states (quotes : QuoteSet) : QuoteState → Text → List QuoteState
  | _, [] => []
  | state, c :: t => state.step quotes c :: states quotes (state.step quotes c) t

@[simp] theorem scan_nil (quotes : QuoteSet) (state : QuoteState) :
    state.scan quotes [] = state := rfl

@[simp] theorem scan_cons (quotes : QuoteSet) (state : QuoteState) (c : Char) (t : Text) :
    state.scan quotes (c :: t) = (state.step quotes c).scan quotes t := rfl

theorem scan_append (quotes : QuoteSet) (state : QuoteState) (s t : Text) :
    state.scan quotes (s ++ t) = (state.scan quotes s).scan quotes t :=
  List.foldl_append

theorem isQuoted_eq_false {state : QuoteState} : state.isQuoted = false ↔ state = unquoted := by
  cases state <;> simp [isQuoted]

end QuoteState

end InsertLayout
