import InsertLayout.Text.Basic
import Mathlib.Data.List.Basic

/-!
# Texts as bytes

`Text.utf8` is the encoding of a text. Where the bytes of a text start with those of another one, so
do its characters (`utf8_prefix_iff`), and lower case can be taken before or after encoding
(`utf8_map_toLower`); so a text is found in the bytes of another one exactly where it stands in it.
The boundaries are the offsets at which the first byte of a character stands, and the end
(`isBoundary_iff_utf8`).
-/

set_option autoImplicit false

namespace InsertLayout

/-- A byte in lower case, if it is an ASCII letter. -/
def lowerByte (b : UInt8) : UInt8 := if 0x41 ≤ b ∧ b ≤ 0x5A then b + 0x20 else b

namespace Text

/-- The encoding of a text. -/
def utf8 (t : Text) : List UInt8 := t.flatMap String.utf8EncodeChar

@[simp] theorem utf8_nil : utf8 [] = [] := rfl

@[simp] theorem utf8_cons (c : Char) (t : Text) :
    utf8 (c :: t) = String.utf8EncodeChar c ++ utf8 t := List.flatMap_cons

@[simp] theorem utf8_append (s t : Text) : utf8 (s ++ t) = utf8 s ++ utf8 t := List.flatMap_append

@[simp] theorem length_utf8 (t : Text) : (utf8 t).length = t.byteLength := by
  induction t with
  | nil => rfl
  | cons c t ih =>
    rw [utf8_cons, List.length_append, String.length_utf8EncodeChar, ih, byteLength_cons]

/-! ## Prefixes -/

/-- The first character of an encoding is determined, and so is what follows it. -/
theorem utf8EncodeChar_append_inj {c d : Char} {x y : List UInt8}
    (h : String.utf8EncodeChar c ++ x = String.utf8EncodeChar d ++ y) : c = d ∧ x = y := by
  have hdecode (e : Char) (z : List UInt8) :
      (String.utf8EncodeChar e ++ z).toByteArray.utf8DecodeChar? 0 = some e := by
    rw [List.toByteArray_append]
    exact ByteArray.utf8DecodeChar?_utf8EncodeChar_append
  have hchar := hdecode c x
  rw [h, hdecode d y] at hchar
  obtain rfl := Option.some.inj hchar
  exact ⟨rfl, List.append_cancel_left h⟩

/-- Where the bytes of a text start with those of another one, so do its characters. -/
theorem utf8_prefix_iff {s t : Text} : s.utf8 <+: t.utf8 ↔ s <+: t := by
  constructor
  · intro h
    induction s generalizing t with
    | nil => exact List.nil_prefix
    | cons c s ih =>
      obtain ⟨x, hx⟩ := h
      rw [utf8_cons, List.append_assoc] at hx
      cases t with
      | nil => simp at hx
      | cons d t =>
        obtain ⟨rfl, hrest⟩ := utf8EncodeChar_append_inj hx
        exact (List.prefix_cons_inj c).2 (ih ⟨x, hrest⟩)
  · rintro ⟨x, rfl⟩
    exact ⟨utf8 x, (utf8_append s x).symm⟩

/-! ## Lower case -/

/-- Bytes that are not ASCII stay as they are. -/
theorem lowerByte_of_ge {b : UInt8} (h : 0x80 ≤ b) : lowerByte b = b := by
  refine if_neg fun hupper => ?_
  have hle : (0x80 : UInt8) ≤ 0x5A := UInt8.le_trans h hupper.2
  exact absurd hle (by decide)

theorem utf8EncodeChar_ascii {c : Char} (h : c.val.toNat ≤ 127) :
    String.utf8EncodeChar c = [UInt8.ofNat c.val.toNat] := by
  unfold String.utf8EncodeChar
  simp only [if_pos h]

/-- The bytes of a character that is not ASCII are not either. -/
theorem le_of_mem_utf8EncodeChar {c : Char} (h : ¬ c.val.toNat ≤ 127) :
    ∀ b ∈ String.utf8EncodeChar c, 0x80 ≤ b := by
  intro b hb
  unfold String.utf8EncodeChar at hb
  simp only [if_neg h] at hb
  rw [UInt8.le_iff_toNat_le]
  split at hb
  · simp only [List.mem_cons, List.not_mem_nil, or_false] at hb
    rcases hb with rfl | rfl <;> simp <;> omega
  · split at hb
    · simp only [List.mem_cons, List.not_mem_nil, or_false] at hb
      rcases hb with rfl | rfl | rfl <;> simp <;> omega
    · simp only [List.mem_cons, List.not_mem_nil, or_false] at hb
      rcases hb with rfl | rfl | rfl | rfl <;> simp <;> omega

/-- A change of case is a change of the bytes. -/
theorem utf8EncodeChar_toLower (c : Char) :
    String.utf8EncodeChar c.toLower = (String.utf8EncodeChar c).map lowerByte := by
  by_cases h : c.val.toNat ≤ 127
  · have hbyte : (UInt8.ofNat c.val.toNat).toNat = c.val.toNat := by
      rw [UInt8.toNat_ofNat']
      exact Nat.mod_eq_of_lt (by omega)
    have hupper : (0x41 ≤ UInt8.ofNat c.val.toNat ∧ UInt8.ofNat c.val.toNat ≤ 0x5A) ↔
        c.val ≥ 'A'.val ∧ c.val ≤ 'Z'.val := by
      rw [UInt8.le_iff_toNat_le, UInt8.le_iff_toNat_le, hbyte]
      exact Iff.rfl
    rw [utf8EncodeChar_ascii h, List.map_singleton, lowerByte]
    unfold Char.toLower
    split
    · rename_i hc
      have hle : c.val.toNat ≤ 90 := hc.2
      have hsum : (c.val + 32).toNat = c.val.toNat + 32 := by
        rw [UInt32.toNat_add, show (32 : UInt32).toNat = 32 from rfl]
        omega
      rw [if_pos (hupper.2 hc), utf8EncodeChar_ascii (show (c.val + 32).toNat ≤ 127 by omega)]
      show [UInt8.ofNat (c.val + 32).toNat] = _
      rw [hsum, UInt8.ofNat_add]
      rfl
    · rename_i hc
      rw [if_neg fun h => hc (hupper.1 h), utf8EncodeChar_ascii h]
  · have hlower : c.toLower = c := by
      unfold Char.toLower
      split
      · rename_i hc
        have hle : c.val.toNat ≤ 90 := hc.2
        omega
      · rfl
    have hkeep := List.map_congr_left fun b hb =>
      lowerByte_of_ge (le_of_mem_utf8EncodeChar h b hb)
    rw [hlower, hkeep, List.map_id'' fun _ => rfl]

/-- A change of case keeps the size of a character. -/
theorem utf8Size_toLower (c : Char) : c.toLower.utf8Size = c.utf8Size := by
  rw [← String.length_utf8EncodeChar, utf8EncodeChar_toLower, List.length_map,
    String.length_utf8EncodeChar]

theorem utf8_map_toLower (t : Text) : utf8 (t.map Char.toLower) = (utf8 t).map lowerByte := by
  induction t with
  | nil => rfl
  | cons c t ih =>
    rw [List.map_cons, utf8_cons, utf8_cons, utf8EncodeChar_toLower, ih, List.map_append]

/-! ## Boundaries -/

theorem isBoundary_zero (t : Text) : t.IsBoundary 0 := ⟨[], t, rfl, rfl⟩

theorem isBoundary_cons_iff {c : Char} {t : Text} {n : Nat} :
    IsBoundary (c :: t) n ↔ n = 0 ∨ c.utf8Size ≤ n ∧ t.IsBoundary (n - c.utf8Size) := by
  constructor
  · rintro ⟨front, rest, heq, rfl⟩
    cases front with
    | nil => exact .inl rfl
    | cons d front =>
      obtain ⟨rfl, rfl⟩ := List.cons.inj heq
      exact .inr ⟨by simp, front, rest, rfl, by simp⟩
  · rintro (rfl | ⟨hle, front, rest, rfl, hn⟩)
    · exact isBoundary_zero _
    · exact ⟨c :: front, rest, rfl, by rw [byteLength_cons]; omega⟩

/-- A boundary is the end of the text or an offset at which the first byte of a character stands. -/
theorem isBoundary_iff_utf8 {t : Text} {n : Nat} : t.IsBoundary n ↔
    n = t.byteLength ∨ ∃ b, t.utf8[n]? = some b ∧ b.IsUTF8FirstByte := by
  induction t generalizing n with
  | nil =>
    constructor
    · intro h
      exact .inl (Nat.le_zero.1 h.le)
    · rintro (rfl | ⟨b, hb, -⟩)
      · exact isBoundary_zero []
      · cases hb
  | cons c t ih =>
    have hpos : 0 < c.utf8Size := c.utf8Size_pos
    have hsize := String.length_utf8EncodeChar c
    rw [isBoundary_cons_iff, utf8_cons, byteLength_cons]
    rcases Nat.lt_or_ge n c.utf8Size with hlt | hge
    · -- Of the bytes of a character, only the first one is a first byte.
      have hlt' : n < (String.utf8EncodeChar c).length := by omega
      rw [List.getElem?_append_left hlt', List.getElem?_eq_getElem hlt']
      simp only [Option.some.injEq, exists_eq_left', UInt8.isUTF8FirstByte_getElem_utf8EncodeChar]
      omega
    · have hne : n ≠ 0 := by omega
      have hend : n - c.utf8Size = byteLength t ↔ n = c.utf8Size + byteLength t := by
        omega
      rw [List.getElem?_append_right (by omega), hsize, ih]
      simp only [hne, hge, hend, true_and, false_or]

end Text

end InsertLayout
