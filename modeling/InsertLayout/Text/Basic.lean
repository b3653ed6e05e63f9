/-!
# Text and byte offsets

A text is a list of characters; positions in it are given from outside as byte offsets of its
UTF-8 encoding. `Text.dropBytes?`, `Text.takeBytes?` and `Text.slice?` cut a text at such offsets
and refuse an offset that lies past the end or inside a character: `dropBytes?_byteLength`,
`takeBytes?_byteLength` and `slice?_byteLength` say that the offsets they accept are the byte
lengths of the text's leading parts.
-/

set_option autoImplicit false

namespace InsertLayout

/-- A sequence of Unicode scalar values. -/
abbrev Text := List Char

namespace Text

/-- The size of the UTF-8 encoding. -/
def byteLength (t : Text) : Nat := t.foldr (fun c n => c.utf8Size + n) 0

/-- The decimal digits of a number. -/
def ofNat (n : Nat) : Text := Nat.toDigits 10 n

/-- The text from a byte offset on, if the offset is a character boundary. -/
def dropBytes? : Nat → Text → Option Text
  | 0, t => some t
  | _ + 1, [] => none
  | n + 1, c :: t => if c.utf8Size ≤ n + 1 then dropBytes? (n + 1 - c.utf8Size) t else none

/-- The text up to a byte offset, if the offset is a character boundary. -/
def takeBytes? (n : Nat) (t : Text) : Option Text :=
  (dropBytes? n t).map fun rest => t.take (t.length - rest.length)

/-- The text between two byte offsets, if both are character boundaries in this order. -/
def slice? (start stop : Nat) (t : Text) : Option Text :=
  if start ≤ stop then (takeBytes? stop t).bind (dropBytes? start) else none

/-- A byte offset at which a character of the text starts, or the text ends. -/
def IsBoundary (t : Text) (n : Nat) : Prop :=
  ∃ front rest, t = front ++ rest ∧ byteLength front = n

@[simp] theorem byteLength_nil : byteLength [] = 0 := rfl

@[simp] theorem byteLength_cons (c : Char) (t : Text) :
    byteLength (c :: t) = c.utf8Size + byteLength t := rfl

@[simp] theorem byteLength_append (s t : Text) :
    byteLength (s ++ t) = byteLength s + byteLength t := by
  induction s with
  | nil => simp
  | cons c s ih => simp [ih, Nat.add_assoc]

/-- A character takes up at least a byte. -/
theorem length_le_byteLength (t : Text) : t.length ≤ t.byteLength := by
  induction t with
  | nil => simp
  | cons c t ih =>
    have hpos : 0 < c.utf8Size := c.utf8Size_pos
    rw [List.length_cons, byteLength_cons]
    omega

/-- Of two leading parts of a text, the shorter one is a leading part of the longer one. -/
theorem exists_append_of_byteLength_le {s r s' r' : Text} (h : s ++ r = s' ++ r')
    (hle : s.byteLength ≤ s'.byteLength) : ∃ v, s' = s ++ v ∧ r = v ++ r' := by
  rcases List.append_eq_append_iff.1 h with ⟨v, rfl, rfl⟩ | ⟨v, rfl, rfl⟩
  · exact ⟨v, rfl, rfl⟩
  · have hlength := length_le_byteLength v
    rw [byteLength_append] at hle
    obtain rfl : v = [] := List.length_eq_zero_iff.1 (by omega)
    exact ⟨[], by simp, rfl⟩

@[simp] theorem dropBytes?_zero (t : Text) : dropBytes? 0 t = some t := by cases t <;> rfl

/-- A leading part is dropped by the offset at which it ends. -/
theorem dropBytes?_byteLength (s t : Text) : dropBytes? (byteLength s) (s ++ t) = some t := by
  induction s with
  | nil => simp
  | cons c s ih =>
    have hpos : 0 < c.utf8Size := c.utf8Size_pos
    obtain ⟨k, hk⟩ : ∃ k, c.utf8Size = k + 1 := ⟨c.utf8Size - 1, by omega⟩
    have : byteLength (c :: s) = (k + byteLength s) + 1 := by simp [hk]; omega
    rw [this, List.cons_append, dropBytes?, if_pos (by omega)]
    rwa [show k + byteLength s + 1 - c.utf8Size = byteLength s by omega]

/-- It is also what is taken up to that offset. -/
theorem takeBytes?_byteLength (s t : Text) : takeBytes? (byteLength s) (s ++ t) = some s := by
  simp [takeBytes?, dropBytes?_byteLength]

/-- The part between two such offsets is what stands between the leading parts. -/
theorem slice?_byteLength (s t r : Text) :
    slice? (byteLength s) (byteLength (s ++ t)) (s ++ t ++ r) = some t := by
  have hle : byteLength s ≤ byteLength (s ++ t) := by
    rw [byteLength_append]
    omega
  rw [slice?, if_pos hle, takeBytes?_byteLength, Option.bind_some, dropBytes?_byteLength]

/-- What is left after a byte offset is a trailing part, and the offset is where it starts. -/
theorem eq_append_of_dropBytes? {n : Nat} {t rest : Text} (h : dropBytes? n t = some rest) :
    ∃ s, t = s ++ rest ∧ byteLength s = n := by
  induction t generalizing n with
  | nil =>
    cases n with
    | zero => simp only [dropBytes?, Option.some.injEq] at h; exact ⟨[], by simp [h], rfl⟩
    | succ n => simp [dropBytes?] at h
  | cons c t ih =>
    cases n with
    | zero => simp only [dropBytes?, Option.some.injEq] at h; exact ⟨[], by simp [h], rfl⟩
    | succ n =>
      rw [dropBytes?] at h
      split at h
      · obtain ⟨s, hs, hn⟩ := ih h
        exact ⟨c :: s, by simp [hs], by simp [hn]; omega⟩
      · cases h

theorem dropBytes?_eq_some_iff {n : Nat} {t rest : Text} :
    dropBytes? n t = some rest ↔ ∃ s, t = s ++ rest ∧ byteLength s = n := by
  refine ⟨eq_append_of_dropBytes?, ?_⟩
  rintro ⟨s, rfl, rfl⟩
  exact dropBytes?_byteLength s rest

/-- What may be cut off a text ends at a boundary. -/
theorem isSome_dropBytes?_iff {n : Nat} {t : Text} :
    (dropBytes? n t).isSome ↔ t.IsBoundary n := by
  rw [Option.isSome_iff_exists]
  constructor
  · rintro ⟨rest, h⟩
    obtain ⟨s, hs, hn⟩ := eq_append_of_dropBytes? h
    exact ⟨s, rest, hs, hn⟩
  · rintro ⟨s, rest, hs, hn⟩
    exact ⟨rest, dropBytes?_eq_some_iff.2 ⟨s, hs, hn⟩⟩

theorem IsBoundary.le {n : Nat} {t : Text} (h : t.IsBoundary n) : n ≤ t.byteLength := by
  obtain ⟨front, rest, rfl, rfl⟩ := h
  rw [byteLength_append]
  omega

theorem takeBytes?_eq_some_iff {n : Nat} {t s : Text} :
    takeBytes? n t = some s ↔ ∃ rest, t = s ++ rest ∧ byteLength s = n := by
  constructor
  · intro h
    obtain ⟨rest, hdrop, htake⟩ := Option.map_eq_some_iff.1 h
    obtain ⟨s', rfl, hn⟩ := eq_append_of_dropBytes? hdrop
    obtain rfl : s' = s := by simpa using htake
    exact ⟨rest, rfl, hn⟩
  · rintro ⟨rest, rfl, rfl⟩
    exact takeBytes?_byteLength s rest

/-- Two offsets have a text between them exactly if they are where it starts and where it ends. -/
theorem slice?_eq_some_iff {start stop : Nat} {t s : Text} :
    slice? start stop t = some s ↔ ∃ front rest, t = front ++ s ++ rest ∧
      byteLength front = start ∧ byteLength (front ++ s) = stop := by
  constructor
  · intro h
    unfold slice? at h
    split at h
    · obtain ⟨u, htake, hdrop⟩ := Option.bind_eq_some_iff.1 h
      obtain ⟨rest, rfl, rfl⟩ := takeBytes?_eq_some_iff.1 htake
      obtain ⟨front, rfl, rfl⟩ := eq_append_of_dropBytes? hdrop
      exact ⟨front, rest, rfl, rfl, rfl⟩
    · cases h
  · rintro ⟨front, rest, rfl, rfl, rfl⟩
    exact slice?_byteLength front s rest

end Text

end InsertLayout
