import InsertLayout.Text.Basic
import InsertLayout.Text.Wide

/-!
# Display width and padding

The width of a text is the number of terminal columns it takes. Padding adds spaces at one end up
to a width and never cuts: `width_padLeft` and `width_padRight`.
-/

set_option autoImplicit false

namespace InsertLayout

/-- The columns that a character takes: two if it is wide and one otherwise. -/
def charWidth (c : Char) : Nat := if isWide c then 2 else 1

namespace Text

/-- The columns that a text takes. -/
def width (t : Text) : Nat := t.foldr (fun c n => charWidth c + n) 0

/-- A run of spaces. -/
def spaces (n : Nat) : Text := List.replicate n ' '

/-- The text with spaces after it, up to a width. -/
def padRight (t : Text) (columns : Nat) : Text := t ++ spaces (columns - t.width)

/-- The text with spaces before it, up to a width. -/
def padLeft (t : Text) (columns : Nat) : Text := spaces (columns - t.width) ++ t

@[simp] theorem width_nil : width [] = 0 := rfl

@[simp] theorem width_cons (c : Char) (t : Text) : width (c :: t) = charWidth c + width t := rfl

@[simp] theorem width_append (s t : Text) : width (s ++ t) = width s + width t := by
  induction s with
  | nil => simp
  | cons c s ih => simp [ih, Nat.add_assoc]

@[simp] theorem width_spaces (n : Nat) : width (spaces n) = n := by
  have h : charWidth ' ' = 1 := by decide
  induction n with
  | zero => rfl
  | succ n ih => rw [spaces, List.replicate_succ, width_cons, h, ← spaces, ih, Nat.add_comm]

theorem width_padRight (t : Text) (columns : Nat) :
    width (t.padRight columns) = max t.width columns := by
  simp [padRight]; omega

theorem width_padLeft (t : Text) (columns : Nat) :
    width (t.padLeft columns) = max t.width columns := by
  simp [padLeft]; omega

end Text

end InsertLayout
