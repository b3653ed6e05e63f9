import InsertLayout.Text.Basic

/-!
# Blanks

A blank is a character with the Unicode property `White_Space`. Trimming removes blanks from the
ends of a text and nothing else; `Trimmed` says that there are none to remove.
-/

set_option autoImplicit false

namespace InsertLayout

/-- The characters of the Unicode property `White_Space`. -/
def isBlank (c : Char) : Bool :=
  (0x0009 ≤ c.toNat && c.toNat ≤ 0x000D) || c.toNat == 0x0020 || c.toNat == 0x0085
    || c.toNat == 0x00A0 || c.toNat == 0x1680 || (0x2000 ≤ c.toNat && c.toNat ≤ 0x200A)
    || c.toNat == 0x2028 || c.toNat == 0x2029 || c.toNat == 0x202F || c.toNat == 0x205F
    || c.toNat == 0x3000

namespace Text

/-- The blanks at the front. -/
def leadingBlanks (t : Text) : Text := t.takeWhile isBlank

/-- The text without the blanks at its front. -/
def trimLeft (t : Text) : Text := t.dropWhile isBlank

/-- The text without the blanks at its end. -/
def trimRight (t : Text) : Text := (t.reverse.dropWhile isBlank).reverse

/-- The text without the blanks at its two ends. -/
def trim (t : Text) : Text := t.trimLeft.trimRight

/-- No blank stands at either end. -/
def Trimmed (t : Text) : Prop := t.trim = t

instance (t : Text) : Decidable t.Trimmed := inferInstanceAs (Decidable (_ = _))

theorem leadingBlanks_append_trimLeft (t : Text) : t.leadingBlanks ++ t.trimLeft = t :=
  List.takeWhile_append_dropWhile

end Text

end InsertLayout
