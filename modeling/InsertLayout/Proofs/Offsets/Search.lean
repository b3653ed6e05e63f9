import InsertLayout.Proofs.Occurrences

/-!
# Searches with byte offsets

The searches of this library go on with what is left of a text. A program that keeps a byte offset
instead, in a word of the machine, adds up offsets, compares bytes and cuts out parts of the text by
their bounds, and each of these can fail with a `Fault`. `Offsets.occurrences` and `Offsets.split`
are the searches in this form, made of `Offsets.move`, what a search does at one offset. No fault
arises for texts that fit into memory, and what they find is what the searches of the library find
(`Offsets.occurrences_eq`, `Offsets.split_eq`).
-/

set_option autoImplicit false

namespace InsertLayout

/-- What goes wrong with offsets. -/
inductive Fault where
  /-- A sum that is no word of the machine. -/
  | overflow
  /-- A difference below zero. -/
  | underflow
  /-- A part of a text whose bounds are out of order, behind its end or inside a character. -/
  | outside
  deriving DecidableEq

/-- The result of a computation with offsets, if nothing goes wrong. -/
abbrev Checked := Except Fault

/-- A text that fits into memory, as any text does that a program holds: no object of the machine is
larger than a signed word can count. -/
def Text.Fits (t : Text) : Prop := t.byteLength < UInt64.size / 2

instance (t : Text) : Decidable t.Fits := inferInstanceAs (Decidable (_ < _))

/-- A part of a text fits into memory with it. -/
theorem Text.Fits.of_infix {s t : Text} (ht : t.Fits) (h : s <:+: t) : s.Fits := by
  obtain ⟨front, rest, rfl⟩ := h
  unfold Fits at ht ⊢
  rw [byteLength_append, byteLength_append] at ht
  omega

/-! ## The offsets in a text that goes on -/

/-- The offsets of the unquoted occurrences in a text that starts at an offset, with a scan that is
in some state there. -/
def Needle.offsetsFrom (needle : Needle) (quotes : QuoteSet) (start : Nat) (state : QuoteState)
    (t : Text) : List Nat :=
  match seek? quotes needle.after? state t with
  | none => []
  | some (before, rest) => needle.offsets start (before :: ((needle.cutter quotes).run rest).1)

namespace Needle

open Text

variable {quotes : QuoteSet} {needle : Needle}

theorem offsetsFrom_unquoted (start : Nat) (t : Text) :
    needle.offsetsFrom quotes start .unquoted t =
      needle.offsets start ((needle.cutter quotes).run t).1 := by
  unfold offsetsFrom
  split
  · rename_i hseek
    rw [run_cutter_of_none hseek, offsets]
  · rename_i hseek
    rw [run_cutter_of_some hseek]

/-- The offsets behind a part that has no occurrence. -/
theorem offsetsFrom_append {state : QuoteState} {s t : Text}
    (h : Misses quotes needle.after? state s t) (start : Nat) :
    needle.offsetsFrom quotes start state (s ++ t) =
      needle.offsetsFrom quotes (start + s.byteLength) (state.scan quotes s) t := by
  unfold offsetsFrom
  rw [seek?_append h]
  cases seek? quotes needle.after? (state.scan quotes s) t with
  | none => rfl
  | some p => simp [offsets, Nat.add_assoc]

/-- The first offset is that of the text itself if it starts with the needle. -/
theorem offsetsFrom_of_after? {t rest : Text} (h : needle.after? t = some rest) (start : Nat) :
    needle.offsetsFrom quotes start .unquoted t =
      start :: needle.offsetsFrom quotes (start + needle.chars.byteLength) .unquoted rest := by
  have hseek : seek? quotes needle.after? .unquoted t = some ([], rest) := by
    obtain ⟨hne, w, hw, rfl⟩ := after?_iff.1 h
    exact seek?_eq_some_iff.2 ⟨w ++ rest, rfl, by simp [hw.ne_nil hne], misses_nil _ _, rfl, h⟩
  rw [offsetsFrom_unquoted (start + needle.chars.byteLength), offsetsFrom, hseek]
  rfl

/-- There is none if a text has no occurrence. -/
theorem offsetsFrom_eq_nil {state : QuoteState} {t : Text}
    (h : Misses quotes needle.after? state t []) (start : Nat) :
    needle.offsetsFrom quotes start state t = [] := by
  unfold offsetsFrom
  rw [seek?_eq_none_iff.2 h]

/-- What is searched for behind a leading part of a text is searched for in what follows it. -/
theorem find?_append (needle : Needle) (quotes : QuoteSet) (front t : Text) :
    needle.find? quotes front.byteLength (front ++ t) =
      (needle.cut? quotes t).map fun p => (front ++ p.1).byteLength := by
  unfold find?
  rw [dropBytes?_byteLength]
  cases hcut : needle.cut? quotes t <;> simp [hcut]

end Needle

namespace Offsets

open Text

variable {quotes : QuoteSet} {needle : Needle}

/-! ## Sums, differences and parts -/

@[simp] theorem ok_bind {α β : Type} (a : α) (next : α → Checked β) :
    (Except.ok a >>= next) = next a := rfl

theorem bind_eq_ok_iff {α β : Type} {first : Checked α} {next : α → Checked β} {b : β} :
    (first >>= next) = .ok b ↔ ∃ a, first = .ok a ∧ next a = .ok b := by
  cases first with
  | error fault => simp [bind, Except.bind]
  | ok a => simp

/-- The sum of two offsets, if it is a word. -/
def sum (a b : Nat) : Checked Nat := if a + b < UInt64.size then .ok (a + b) else .error .overflow

/-- The difference of two offsets, if it is not negative. -/
def difference (a b : Nat) : Checked Nat := if b ≤ a then .ok (a - b) else .error .underflow

theorem sum_eq {a b : Nat} (h : a + b < UInt64.size) : sum a b = .ok (a + b) := if_pos h

theorem eq_add_of_sum {a b c : Nat} (h : sum a b = .ok c) : c = a + b := by
  unfold sum at h
  split at h
  · exact (Except.ok.inj h).symm
  · cases h

theorem difference_eq {a b : Nat} (h : b ≤ a) : difference a b = .ok (a - b) := if_pos h

/-- The part of a text between two offsets. -/
def part (start stop : Nat) (t : Text) : Checked Text :=
  match t.slice? start stop with
  | some s => .ok s
  | none => .error .outside

/-- The part of a text from an offset on. -/
def partFrom (start : Nat) (t : Text) : Checked Text := part start t.byteLength t

/-- The part of a text up to an offset. -/
def partTo (stop : Nat) (t : Text) : Checked Text := part 0 stop t

theorem part_eq (front s rest : Text) :
    part front.byteLength (front ++ s).byteLength (front ++ s ++ rest) = .ok s := by
  rw [part, slice?_byteLength]

theorem partFrom_eq (front rest : Text) :
    partFrom front.byteLength (front ++ rest) = .ok rest := by
  simpa [partFrom] using part_eq front rest []

theorem partFrom_suffix {t rest : Text} (h : rest <:+ t) :
    partFrom (t.byteLength - rest.byteLength) t = .ok rest := by
  obtain ⟨front, rfl⟩ := h
  rw [byteLength_append, Nat.add_sub_cancel]
  exact partFrom_eq front rest

theorem partTo_eq (front rest : Text) : partTo front.byteLength (front ++ rest) = .ok front := by
  simpa [partTo] using part_eq [] front rest

/-- The offset behind a character of one byte. -/
theorem sum_one {front : Text} (c : Char) (rest : Text) (hc : c.utf8Size = 1)
    (h : (front ++ c :: rest).Fits) :
    sum front.byteLength 1 = .ok (front ++ [c]).byteLength := by
  unfold Fits at h
  rw [byteLength_append, byteLength_cons] at h
  rw [sum_eq (by omega)]
  simp [hc]

/-- A part can be cut out exactly between two boundaries in order, none of them behind the end. -/
theorem part_eq_ok_iff (start stop : Nat) (t : Text) : (∃ s, part start stop t = .ok s) ↔
    start ≤ stop ∧ stop ≤ t.byteLength ∧ t.IsBoundary start ∧ t.IsBoundary stop := by
  constructor
  · rintro ⟨s, h⟩
    unfold part at h
    split at h
    · rename_i s' hslice
      obtain rfl : s' = s := Except.ok.inj h
      obtain ⟨front, rest, rfl, rfl, rfl⟩ := slice?_eq_some_iff.1 hslice
      have hstop : IsBoundary (front ++ s' ++ rest) (front ++ s').byteLength := ⟨_, _, rfl, rfl⟩
      refine ⟨?_, hstop.le, ⟨front, s' ++ rest, List.append_assoc .., rfl⟩, hstop⟩
      rw [byteLength_append]
      omega
    · cases h
  · rintro ⟨hle, -, ⟨front, rest, rfl, rfl⟩, ⟨front', rest', heq, rfl⟩⟩
    obtain ⟨s, rfl, rfl⟩ := exists_append_of_byteLength_le heq hle
    rw [← List.append_assoc]
    exact ⟨s, part_eq front s rest'⟩

/-! ## One offset -/

/-- Whether the bytes from an offset on are those of a needle, up to ASCII case if it does not
count. -/
def standsAt (needle : Needle) (t : Text) (offset : Nat) : Checked Bool := do
  let stop ← sum offset needle.chars.byteLength
  let bytes := (t.utf8.take stop).drop offset
  return stop ≤ t.byteLength &&
    if needle.ignoreCase then bytes.map lowerByte == needle.chars.utf8.map lowerByte
    else bytes == needle.chars.utf8

/-- Whether a search finds a needle at an offset: bytes are compared outside quotes only. -/
def findsAt (needle : Needle) (t : Text) (offset : Nat) (state : QuoteState) : Checked Bool :=
  if state.isQuoted then return false else standsAt needle t offset

/-- What a search does at an offset: whether it finds the needle there, and where and in which state
it goes on. At the end of a text it does nothing. -/
def move (needle : Needle) (quotes : QuoteSet) (t : Text) (offset : Nat) (state : QuoteState) :
    Checked (Option (Bool × Nat × QuoteState)) :=
  if needle.chars.isEmpty then return none
  else match t.dropBytes? offset with
    | none | some [] => return none
    | some (c :: _) => do
      if ← findsAt needle t offset state then
        return some (true, ← sum offset needle.chars.byteLength, state)
      else
        return some (false, ← sum offset c.utf8Size, state.step quotes c)

/-- A text starts with a needle exactly if its bytes start with those of the needle. -/
theorem isSome_after?_iff (hne : needle.chars ≠ []) {rest : Text} : (needle.after? rest).isSome ↔
    if needle.ignoreCase then needle.chars.utf8.map lowerByte <+: rest.utf8.map lowerByte
    else needle.chars.utf8 <+: rest.utf8 := by
  have hwritten : (needle.after? rest).isSome ↔ ∃ w, needle.Written w ∧ w <+: rest := by
    rw [Option.isSome_iff_exists]
    constructor
    · rintro ⟨r, hr⟩
      obtain ⟨-, w, hw, rfl⟩ := Needle.after?_iff.1 hr
      exact ⟨w, hw, r, rfl⟩
    · rintro ⟨w, hw, r, rfl⟩
      exact ⟨r, Needle.after?_iff.2 ⟨hne, w, hw, rfl⟩⟩
  rw [hwritten]
  unfold Needle.Written
  split
  · rw [← utf8_map_toLower, ← utf8_map_toLower, utf8_prefix_iff, List.prefix_map_iff]
    simp only [and_comm, eq_comm]
  · rw [utf8_prefix_iff, exists_eq_left]

/-- The bytes of a needle stand where the needle does. -/
theorem standsAt_eq (hne : needle.chars ≠ []) (hneedle : needle.chars.Fits) {front rest : Text}
    (h : (front ++ rest).Fits) :
    standsAt needle (front ++ rest) front.byteLength = .ok (needle.after? rest).isSome := by
  unfold Fits at h hneedle
  rw [byteLength_append] at h
  have hsum : front.byteLength + needle.chars.byteLength < UInt64.size := by omega
  have hwindow : ((front ++ rest).utf8.take (front.byteLength + needle.chars.byteLength)).drop
      front.byteLength = rest.utf8.take needle.chars.utf8.length := by
    rw [utf8_append, ← length_utf8 front, length_utf8 needle.chars, List.take_length_add_append,
      List.drop_left]
  rw [standsAt, sum_eq hsum, ok_bind, hwindow]
  refine congrArg Except.ok (Bool.eq_iff_iff.2 ?_)
  rw [isSome_after?_iff hne, Bool.and_eq_true, decide_eq_true_iff, byteLength_append,
    Nat.add_le_add_iff_left]
  -- Bytes that start with those of the needle are as many as these, at least.
  split
  · rw [beq_iff_eq, List.map_take, eq_comm (a := List.take _ _), ← length_utf8 needle.chars,
      ← length_utf8 rest, ← List.length_map lowerByte, ← @List.length_map _ _ rest.utf8 lowerByte,
      ← List.prefix_iff_eq_take]
    exact and_iff_right_of_imp List.IsPrefix.length_le
  · rw [beq_iff_eq, eq_comm (a := List.take _ _), ← length_utf8 needle.chars, ← length_utf8 rest,
      ← List.prefix_iff_eq_take]
    exact and_iff_right_of_imp List.IsPrefix.length_le

/-- A search goes on behind an offset, if that is one in the text. -/
theorem lt_of_move {t : Text} {offset next : Nat} {state state' : QuoteState} {found : Bool}
    (h : move needle quotes t offset state = .ok (some (found, next, state'))) :
    offset < next ∧ offset < t.byteLength := by
  unfold move at h
  split at h
  · cases h
  · rename_i hne
    split at h
    · cases h
    · cases h
    · rename_i c rest hdrop
      have hchar : 0 < c.utf8Size := c.utf8Size_pos
      have hneedle : 0 < needle.chars.byteLength := by
        have hlength : 0 < needle.chars.length := by simpa [List.length_pos_iff] using hne
        exact Nat.lt_of_lt_of_le hlength (length_le_byteLength _)
      obtain ⟨front, rfl, rfl⟩ := eq_append_of_dropBytes? hdrop
      obtain ⟨here, -, h⟩ := bind_eq_ok_iff.1 h
      rw [byteLength_append, byteLength_cons]
      split at h
      all_goals
        obtain ⟨behind, hsum, h⟩ := bind_eq_ok_iff.1 h
        obtain rfl := eq_add_of_sum hsum
        obtain ⟨-, rfl, -⟩ := by simpa using h
        omega

/-- At the end of a text nothing is left to do. -/
theorem move_end (needle : Needle) (quotes : QuoteSet) (t : Text) (state : QuoteState) :
    move needle quotes t t.byteLength state = .ok none := by
  have hdrop := dropBytes?_byteLength t []
  rw [List.append_nil] at hdrop
  unfold move
  rw [hdrop]
  split <;> rfl

theorem findsAt_eq (hne : needle.chars ≠ []) (hneedle : needle.chars.Fits) {front rest : Text}
    (h : (front ++ rest).Fits) (state : QuoteState) :
    findsAt needle (front ++ rest) front.byteLength state =
      .ok (!state.isQuoted && (needle.after? rest).isSome) := by
  unfold findsAt
  rw [standsAt_eq hne hneedle h]
  cases state.isQuoted <;> rfl

/-- At an offset in a text, a needle is found as by a search that goes on with the text from it
on. -/
theorem move_eq (hne : needle.chars ≠ []) (hneedle : needle.chars.Fits) {front rest : Text}
    {c : Char} (h : (front ++ c :: rest).Fits) (quotes : QuoteSet) (state : QuoteState) :
    move needle quotes (front ++ c :: rest) front.byteLength state =
      .ok (some (if !state.isQuoted && (needle.after? (c :: rest)).isSome then
        (true, front.byteLength + needle.chars.byteLength, state)
      else (false, (front ++ [c]).byteLength, state.step quotes c))) := by
  unfold move
  rw [if_neg (by simpa using hne), dropBytes?_byteLength]
  simp only [findsAt_eq hne hneedle h, ok_bind]
  unfold Fits at h hneedle
  rw [byteLength_append, byteLength_cons] at h
  rw [sum_eq (by omega), sum_eq (by omega)]
  split
  · rfl
  · rw [byteLength_append]
    rfl

/-! ## All offsets -/

/-- The offsets at which a search that is in some state at an offset finds a needle. -/
def occurrencesFrom (needle : Needle) (quotes : QuoteSet) (t : Text) (offset : Nat)
    (state : QuoteState) : Checked (List Nat) :=
  match _hmove : move needle quotes t offset state with
  | .error fault => .error fault
  | .ok none => .ok []
  | .ok (some (found, next, state')) => do
    let others ← occurrencesFrom needle quotes t next state'
    return if found then offset :: others else others
termination_by t.byteLength - offset
decreasing_by
  have hlt := lt_of_move _hmove
  omega

/-- The offsets of all unquoted occurrences from an offset on. -/
def occurrences (needle : Needle) (quotes : QuoteSet) (start : Nat) (t : Text) :
    Checked (List Nat) :=
  occurrencesFrom needle quotes t start .unquoted

/-- The offset of the first unquoted occurrence from an offset on. The offsets behind it are
computed too, so that it has a fault wherever a search has one that stops there. -/
def find (needle : Needle) (quotes : QuoteSet) (start : Nat) (t : Text) : Checked (Option Nat) := do
  return (← occurrences needle quotes start t).head?

theorem occurrencesFrom_of_none {t : Text} {offset : Nat} {state : QuoteState}
    (h : move needle quotes t offset state = .ok none) :
    occurrencesFrom needle quotes t offset state = .ok [] := by
  rw [occurrencesFrom]
  split <;> simp_all

theorem occurrencesFrom_of_some {t : Text} {offset next : Nat} {state state' : QuoteState}
    {found : Bool} (h : move needle quotes t offset state = .ok (some (found, next, state'))) :
    occurrencesFrom needle quotes t offset state = (do
      let others ← occurrencesFrom needle quotes t next state'
      return if found then offset :: others else others) := by
  rw [occurrencesFrom]
  split
  · simp_all
  · simp_all
  · rename_i hmove
    rw [h] at hmove
    obtain ⟨rfl, rfl, rfl⟩ := by simpa using hmove
    rfl

/-- No occurrence is found before the offset from which it is searched for. -/
theorem le_of_mem_occurrencesFrom {t : Text} {offset p : Nat} {state : QuoteState}
    {offsets : List Nat} (h : occurrencesFrom needle quotes t offset state = .ok offsets)
    (hp : p ∈ offsets) : offset ≤ p := by
  induction hn : t.byteLength - offset using Nat.strongRecOn generalizing offset state offsets with
  | ind n ih =>
    subst hn
    cases hmove : move needle quotes t offset state with
    | error fault =>
      rw [occurrencesFrom] at h
      split at h <;> simp_all
    | ok m =>
      cases m with
      | none =>
        rw [occurrencesFrom_of_none hmove] at h
        obtain rfl := Except.ok.inj h
        cases hp
      | some m =>
        obtain ⟨found, next, state'⟩ := m
        have hlt := lt_of_move hmove
        rw [occurrencesFrom_of_some hmove] at h
        obtain ⟨others, hothers, h⟩ := bind_eq_ok_iff.1 h
        obtain rfl := Except.ok.inj h
        have hrest (hmem : p ∈ others) : offset ≤ p := by
          have hle := ih _ (by omega) hothers hmem rfl
          omega
        split at hp
        · rcases List.mem_cons.1 hp with rfl | hmem
          · exact Nat.le_refl _
          · exact hrest hmem
        · exact hrest hp

theorem le_of_find {t : Text} {start p : Nat} (h : find needle quotes start t = .ok (some p)) :
    start ≤ p := by
  obtain ⟨offsets, hoffsets, h⟩ := bind_eq_ok_iff.1 h
  exact le_of_mem_occurrencesFrom hoffsets (List.mem_of_mem_head? (Except.ok.inj h))

/-! ## What is found -/

/-- From any state on, the offsets are those of the search that goes on with the text. -/
theorem occurrencesFrom_eq (hneedle : needle.chars.Fits) (front rest : Text)
    (h : (front ++ rest).Fits) (state : QuoteState) :
    occurrencesFrom needle quotes (front ++ rest) front.byteLength state =
      .ok (needle.offsetsFrom quotes front.byteLength state rest) := by
  by_cases hne : needle.chars = []
  · have hmove : move needle quotes (front ++ rest) front.byteLength state = .ok none := by
      simp [move, hne, pure, Except.pure]
    have hmiss : Misses quotes needle.after? state rest [] := fun a b _ _ _ => by
      simp [Needle.after?, hne]
    rw [occurrencesFrom_of_none hmove, Needle.offsetsFrom_eq_nil hmiss]
  · induction hlength : rest.length using Nat.strongRecOn generalizing front rest state with
    | ind n ih =>
      subst hlength
      cases rest with
      | nil =>
        rw [Needle.offsetsFrom_eq_nil (misses_nil _ _), occurrencesFrom_of_none]
        have hmove := move_end needle quotes (front ++ []) state
        rwa [List.append_nil] at hmove ⊢
      | cons c t =>
        have hmove := move_eq hne hneedle h quotes state
        split at hmove
        · -- The needle stands here, outside quotes.
          rename_i hfound
          obtain ⟨hstate, hsome⟩ : state = .unquoted ∧ (needle.after? (c :: t)).isSome := by
            simpa [QuoteState.isQuoted_eq_false] using hfound
          subst hstate
          obtain ⟨behind, hafter⟩ := Option.isSome_iff_exists.1 hsome
          obtain ⟨-, w, hw, heq⟩ := Needle.after?_iff.1 hafter
          have hlt := Needle.length_lt_of_after? hafter
          rw [heq, ← List.append_assoc] at h
          have hrest := ih _ hlt (front ++ w) behind h .unquoted rfl
          rw [occurrencesFrom_of_some hmove, Needle.offsetsFrom_of_after? hafter]
          rw [List.append_assoc, ← heq, byteLength_append, hw.byteLength] at hrest
          rw [hrest]
          rfl
        · -- The search goes on behind the character.
          rename_i hfound
          have hmiss : Misses quotes needle.after? state [c] t := by
            refine misses_cons_iff.2 ⟨fun hstate => ?_, misses_nil _ _⟩
            subst hstate
            simpa [QuoteState.isQuoted] using hfound
          have hrest := ih t.length (by simp) (front ++ [c]) t (by simpa using h)
            (state.step quotes c) rfl
          have hoffsets := Needle.offsetsFrom_append hmiss front.byteLength
          rw [occurrencesFrom_of_some hmove]
          rw [List.append_assoc, List.singleton_append] at hrest
          rw [List.singleton_append, ← byteLength_append] at hoffsets
          rw [hrest, hoffsets]
          rfl

/-- The occurrences that are found with offsets are those of the search that goes on with what is
left of a text, whatever the offset is from which they are searched for. -/
theorem occurrences_eq (hneedle : needle.chars.Fits) {t : Text} (h : t.Fits) (start : Nat) :
    occurrences needle quotes start t = .ok (needle.occurrences quotes start t) := by
  unfold occurrences Needle.occurrences
  cases hdrop : t.dropBytes? start with
  | none =>
    apply occurrencesFrom_of_none
    unfold move
    rw [hdrop]
    split <;> rfl
  | some rest =>
    obtain ⟨front, rfl, rfl⟩ := eq_append_of_dropBytes? hdrop
    rw [occurrencesFrom_eq hneedle front rest h, Needle.offsetsFrom_unquoted]

theorem find_eq (hneedle : needle.chars.Fits) {t : Text} (h : t.Fits) (start : Nat) :
    find needle quotes start t = .ok (needle.find? quotes start t) := by
  unfold find
  rw [occurrences_eq hneedle h, ok_bind, Needle.head?_occurrences]
  rfl

/-! ## Splitting -/

/-- The pieces of a text from an offset on between the offsets at which a delimiter stands. -/
def piecesFrom (delimiter t : Text) (start : Nat) : List Nat → Checked (List Text)
  | [] => do return [← partFrom start t]
  | stop :: stops => do
    let piece ← part start stop t
    let next ← sum stop delimiter.byteLength
    return piece :: (← piecesFrom delimiter t next stops)

/-- The pieces of a text between the unquoted occurrences of a delimiter. -/
def split (delimiter : Text) (quotes : QuoteSet) (t : Text) : Checked (List Text) := do
  piecesFrom delimiter t 0 (← occurrences { chars := delimiter } quotes 0 t)

theorem piecesFrom_eq (delimiter front t : Text) (h : (front ++ t).Fits) :
    piecesFrom delimiter (front ++ t) front.byteLength
      (Needle.offsets { chars := delimiter } front.byteLength
        ((Needle.cutter { chars := delimiter } quotes).run t).1) =
      .ok (Needle.split { chars := delimiter } quotes t) := by
  induction t using Needle.cut_induction { chars := delimiter } quotes generalizing front with
  | last t hcut =>
    rw [Needle.split, Needle.run_cutter_of_none hcut]
    simp [Needle.offsets, piecesFrom, partFrom_eq, pure, Except.pure]
  | more before w rest hcut hw ih =>
    have hbehind : (front ++ before ++ w).byteLength =
        (front ++ before).byteLength + delimiter.byteLength := by
      rw [byteLength_append, hw.byteLength]
    have hpiece := part_eq front before (w ++ rest)
    have hrest := ih (front ++ before ++ w) (by simpa using h)
    rw [hbehind] at hrest
    simp only [List.append_assoc] at hpiece hrest
    have hsum : sum (front ++ before).byteLength delimiter.byteLength =
        .ok ((front ++ before).byteLength + delimiter.byteLength) := by
      apply sum_eq
      unfold Fits at h
      rw [← List.append_assoc, ← List.append_assoc, byteLength_append, hbehind] at h
      omega
    rw [Needle.split, Needle.run_cutter_of_some hcut]
    rw [Needle.offsets, piecesFrom, ← byteLength_append, hpiece, ok_bind, hsum, ok_bind, hrest]
    rfl

theorem split_eq {delimiter : Text} (hdelimiter : delimiter.Fits) {t : Text} (h : t.Fits) :
    split delimiter quotes t = .ok (Needle.split { chars := delimiter } quotes t) := by
  unfold split
  rw [@occurrences_eq _ { chars := delimiter } hdelimiter t h, ok_bind]
  unfold Needle.occurrences
  rw [dropBytes?_zero]
  exact piecesFrom_eq delimiter [] t h

end Offsets

end InsertLayout
