import InsertLayout.Proofs.Locate
import InsertLayout.Proofs.Utf8
import Mathlib.Order.Bounds.Basic

/-!
# All unquoted occurrences, and splitting at them

`Needle.Written needle w`: the text `w` is a way to write the needle. `Needle.candidates` are the
offsets behind a place at which the needle stands and a scan from that place on is outside quotes.
The search yields candidates that do not overlap, and passes over another one only where it overlaps
one that it has yielded (`occurrences_exact`): `Yields` is this relation between a text and a list
of offsets, and `yields_offsets` follows the search from each occurrence to the next.

A text is cut into pieces that avoid the needle, also when they are read on their own, and pieces
that avoid a character are what a text joined from them is split into (`split_inverse`).
-/

set_option autoImplicit false

namespace InsertLayout

open Text

variable {quotes : QuoteSet}

namespace Needle

variable {needle : Needle}

/-! ## Ways to write a needle -/

/-- A way to write the needle: as it is or, if case does not count, with any letters in the other
case. -/
def Written (needle : Needle) (w : Text) : Prop :=
  if needle.ignoreCase then w.map Char.toLower = needle.chars.map Char.toLower
  else w = needle.chars

instance (w : Text) : Decidable (needle.Written w) :=
  inferInstanceAs <| Decidable <| if needle.ignoreCase then
    w.map Char.toLower = needle.chars.map Char.toLower else w = needle.chars

theorem after?_iff {t rest : Text} : needle.after? t = some rest ↔
    needle.chars ≠ [] ∧ ∃ w, needle.Written w ∧ t = w ++ rest := by
  by_cases hne : needle.chars = []
  · simp [after?, hne]
  · cases hcase : needle.ignoreCase with
    | false => simp [after?_eq_some_iff hcase hne, hne, Written, hcase]
    | true =>
      rw [after?, if_neg (by simpa using hne), afterChars?_ignoreCase_iff hcase]
      simp [hne, Written, hcase]

theorem Written.length {w : Text} (h : needle.Written w) : w.length = needle.chars.length := by
  unfold Written at h
  split at h
  · simpa using congrArg List.length h
  · rw [h]

/-- All ways to write a needle take up the same number of bytes. -/
theorem Written.byteLength {w : Text} (h : needle.Written w) :
    w.byteLength = needle.chars.byteLength := by
  have hlower (t : Text) : Text.byteLength (t.map Char.toLower) = t.byteLength := by
    induction t with
    | nil => rfl
    | cons c t ih => rw [List.map_cons, byteLength_cons, byteLength_cons, utf8Size_toLower, ih]
  unfold Written at h
  split at h
  · rw [← hlower w, h, hlower]
  · rw [h]

theorem Written.ne_nil {w : Text} (h : needle.Written w) (hne : needle.chars ≠ []) : w ≠ [] := by
  rintro rfl
  exact hne (List.length_eq_zero_iff.1 h.length.symm)

theorem cut?_eq_some_iff {t before rest : Text} : needle.cut? quotes t = some (before, rest) ↔
    ∃ w, t = before ++ (w ++ rest) ∧ needle.chars ≠ [] ∧ needle.Written w ∧
      Balanced quotes before ∧ Misses quotes needle.after? .unquoted before (w ++ rest) := by
  unfold cut?
  rw [seek?_eq_some_iff]
  constructor
  · rintro ⟨r, rfl, -, hmiss, hbalanced, hafter⟩
    obtain ⟨hne, w, hw, rfl⟩ := after?_iff.1 hafter
    exact ⟨w, rfl, hne, hw, hbalanced, hmiss⟩
  · rintro ⟨w, rfl, hne, hw, hbalanced, hmiss⟩
    refine ⟨w ++ rest, rfl, ?_, hmiss, hbalanced, after?_iff.2 ⟨hne, w, hw, rfl⟩⟩
    simp [hw.ne_nil hne]

/-- Nothing is cut off a text without an occurrence. -/
theorem run_cutter_of_none {t : Text} (h : needle.cut? quotes t = none) :
    (needle.cutter quotes).run t = ([], t) := Cutter.run_of_none h

/-- Cutting goes on behind the first occurrence. -/
theorem run_cutter_of_some {t before rest : Text}
    (h : needle.cut? quotes t = some (before, rest)) : (needle.cutter quotes).run t =
      (before :: ((needle.cutter quotes).run rest).1, ((needle.cutter quotes).run rest).2) :=
  Cutter.run_of_some h

/-- Induction along the unquoted occurrences of a needle. -/
theorem cut_induction (needle : Needle) (quotes : QuoteSet) {motive : Text → Prop}
    (last : ∀ t, needle.cut? quotes t = none → motive t)
    (more : ∀ before w rest, needle.cut? quotes (before ++ (w ++ rest)) = some (before, rest) →
      needle.Written w → motive rest → motive (before ++ (w ++ rest)))
    (t : Text) : motive t := by
  induction h : t.length using Nat.strongRecOn generalizing t with
  | ind n ih =>
    subst h
    cases hcut : needle.cut? quotes t with
    | none => exact last t hcut
    | some p =>
      obtain ⟨before, rest⟩ := p
      obtain ⟨w, rfl, -, hw, -⟩ := cut?_eq_some_iff.1 hcut
      exact more before w rest hcut hw (ih _ (length_lt_of_cut? hcut) rest rfl)

/-! ## Candidates -/

/-- The byte offsets from `start` on at which the needle stands, such that a scan that starts
outside quotes at `start` is outside quotes there. -/
def candidates (needle : Needle) (quotes : QuoteSet) (start : Nat) (t : Text) : Set Nat :=
  {p | ∃ between w rest, t.slice? start p = some between ∧ t.dropBytes? p = some (w ++ rest) ∧
    Balanced quotes between ∧ needle.Written w}

theorem mem_candidates_iff {front t : Text} {p : Nat} :
    p ∈ needle.candidates quotes front.byteLength (front ++ t) ↔
      ∃ s w rest, t = s ++ (w ++ rest) ∧ p = (front ++ s).byteLength ∧ Balanced quotes s ∧
        needle.Written w := by
  constructor
  · rintro ⟨s, w, rest, hslice, hdrop, hs, hw⟩
    obtain ⟨front', behind, htext, hfront, rfl⟩ := slice?_eq_some_iff.1 hslice
    rw [htext, dropBytes?_byteLength] at hdrop
    obtain rfl := Option.some.inj hdrop
    have htail := dropBytes?_byteLength front t
    rw [htext, ← hfront, List.append_assoc, dropBytes?_byteLength] at htail
    obtain rfl := Option.some.inj htail
    exact ⟨s, w, rest, rfl, by rw [byteLength_append, byteLength_append, hfront], hs, hw⟩
  · rintro ⟨s, w, rest, rfl, rfl, hs, hw⟩
    have hslice := slice?_byteLength front s (w ++ rest)
    have hdrop := dropBytes?_byteLength (front ++ s) (w ++ rest)
    rw [List.append_assoc] at hslice hdrop
    exact ⟨s, w, rest, hslice, hdrop, hs, hw⟩

/-- Where a search misses everything up to an occurrence, no candidate comes before it. -/
theorem exists_of_misses {before r s w rest : Text}
    (hmiss : Misses quotes needle.after? .unquoted before r) (hne : needle.chars ≠ [])
    (h : before ++ r = s ++ (w ++ rest)) (hs : Balanced quotes s) (hw : needle.Written w) :
    ∃ v, s = before ++ v ∧ r = v ++ (w ++ rest) := by
  rcases List.append_eq_append_iff.1 h with ⟨v, rfl, hv⟩ | ⟨v, rfl, hv⟩
  · exact ⟨v, rfl, hv⟩
  · cases v with
    | nil => exact ⟨[], by simp, hv.symm⟩
    | cons c v =>
      have hnone := hmiss s (c :: v) rfl (by simp) hs
      rw [← hv, after?_iff.2 ⟨hne, w, hw, rfl⟩] at hnone
      cases hnone

/-- No character that a needle can be written with is a quote. -/
def ApartFrom (needle : Needle) (quotes : QuoteSet) : Prop :=
  ∀ c ∈ needle.chars, ∀ d, needle.same c d = true → d ∉ quotes

theorem Written.notMem {w : Text} (h : needle.Written w) (hquotes : needle.ApartFrom quotes) :
    ∀ d ∈ w, d ∉ quotes := by
  intro d hd
  unfold Written at h
  split at h
  · rename_i hcase
    have hlower : d.toLower ∈ needle.chars.map Char.toLower := h ▸ List.mem_map_of_mem hd
    obtain ⟨c, hc, heq⟩ := List.mem_map.1 hlower
    exact hquotes c hc d (by simp [same, hcase, heq])
  · rename_i hcase
    exact hquotes d (h ▸ hd) d (by simp [same, hcase])

/-! ## What the search yields -/

/-- Of the candidates of a text, a search yields those at some offsets: they do not overlap, and
another candidate overlaps one of them that comes before it. -/
structure Yields (needle : Needle) (quotes : QuoteSet) (start : Nat) (t : Text)
    (offsets : List Nat) : Prop where
  candidate : ∀ p ∈ offsets, p ∈ needle.candidates quotes start t
  apart : offsets.Pairwise fun p q => p + needle.chars.byteLength ≤ q
  complete : ∀ p ∈ needle.candidates quotes start t,
    p ∈ offsets ∨ ∃ q ∈ offsets, q < p ∧ p < q + needle.chars.byteLength

theorem yields_nil {front t : Text} (h : needle.cut? quotes t = none) (hne : needle.chars ≠ []) :
    needle.Yields quotes front.byteLength (front ++ t) [] where
  candidate _ hp := by cases hp
  apart := List.Pairwise.nil
  complete p hp := by
    obtain ⟨s, w, rest, rfl, -, hs, hw⟩ := mem_candidates_iff.1 hp
    have hnone := seek?_eq_none_iff.1 h s (w ++ rest) rfl (by simp [hw.ne_nil hne]) hs
    rw [List.append_nil, after?_iff.2 ⟨hne, w, hw, rfl⟩] at hnone
    cases hnone

/-- What is yielded behind an occurrence is yielded after it. -/
theorem Yields.cons {front before w rest : Text} {offsets : List Nat}
    (hcut : needle.cut? quotes (before ++ (w ++ rest)) = some (before, rest))
    (hw : needle.Written w) (hquotes : needle.ApartFrom quotes)
    (h : needle.Yields quotes (front ++ (before ++ w)).byteLength (front ++ (before ++ w) ++ rest)
      offsets) :
    needle.Yields quotes front.byteLength (front ++ (before ++ (w ++ rest)))
      ((front ++ before).byteLength :: offsets) := by
  obtain ⟨w', hsame, hne, -, hbefore, hmiss⟩ := cut?_eq_some_iff.1 hcut
  obtain rfl : w = w' := List.append_cancel_right (List.append_cancel_left hsame)
  have hend : (front ++ (before ++ w)).byteLength =
      (front ++ before).byteLength + needle.chars.byteLength := by
    rw [← List.append_assoc, byteLength_append _ w, hw.byteLength]
  have hbalanced : Balanced quotes (before ++ w) :=
    hbefore.append (balanced_of_notMem (hw.notMem hquotes))
  refine ⟨fun p hp => ?_, ?_, fun p hp => ?_⟩
  · rcases List.mem_cons.1 hp with rfl | hp
    · exact mem_candidates_iff.2 ⟨before, w, rest, rfl, rfl, hbefore, hw⟩
    · obtain ⟨s, u, r, rfl, rfl, hs, hu⟩ := mem_candidates_iff.1 (h.candidate p hp)
      exact mem_candidates_iff.2
        ⟨before ++ w ++ s, u, r, by simp, by simp, hbalanced.append hs, hu⟩
  · refine List.pairwise_cons.2 ⟨fun q hq => ?_, h.apart⟩
    obtain ⟨s, u, r, -, rfl, -, -⟩ := mem_candidates_iff.1 (h.candidate q hq)
    rw [byteLength_append _ s, hend]
    omega
  · obtain ⟨s, u, r, heq, rfl, hs, hu⟩ := mem_candidates_iff.1 hp
    obtain ⟨v, rfl, hv⟩ := exists_of_misses hmiss hne heq hs hu
    have hoffset : (front ++ (before ++ v)).byteLength =
        (front ++ before).byteLength + v.byteLength := by
      rw [← List.append_assoc, byteLength_append _ v]
    rcases Nat.lt_or_ge v.byteLength w.byteLength with hlt | hge
    · -- The candidate is this occurrence or overlaps it.
      cases v with
      | nil => exact .inl (by simp)
      | cons c v =>
        have hpos : 0 < c.utf8Size := c.utf8Size_pos
        refine .inr ⟨_, List.mem_cons_self, ?_, ?_⟩
        · rw [hoffset, byteLength_cons]
          omega
        · rw [hoffset, ← hw.byteLength]
          omega
    · -- It stands behind this occurrence.
      obtain ⟨s, rfl, rfl⟩ := exists_append_of_byteLength_le hv hge
      have hs' : Balanced quotes s := by
        rw [← List.append_assoc] at hs
        exact (balanced_append_iff hbalanced).1 hs
      rcases h.complete _ (mem_candidates_iff.2 ⟨s, u, r, rfl, rfl, hs', hu⟩) with hmem | hover
      · rw [← List.append_assoc before, ← List.append_assoc front]
        exact .inl (List.mem_cons_of_mem _ hmem)
      · obtain ⟨q, hq, hlt, hover⟩ := hover
        rw [← List.append_assoc before, ← List.append_assoc front]
        exact .inr ⟨q, List.mem_cons_of_mem _ hq, hlt, hover⟩

/-- The search yields its offsets one after another. -/
theorem yields_offsets (hne : needle.chars ≠ []) (hquotes : needle.ApartFrom quotes)
    (front t : Text) : needle.Yields quotes front.byteLength (front ++ t)
      (needle.offsets front.byteLength ((needle.cutter quotes).run t).1) := by
  induction t using cut_induction needle quotes generalizing front with
  | last t h =>
    rw [run_cutter_of_none h]
    exact yields_nil h hne
  | more before w rest h hw ih =>
    rw [run_cutter_of_some h, offsets]
    have hrest := Yields.cons h hw hquotes (ih (front ++ (before ++ w)))
    rwa [← List.append_assoc front before w, byteLength_append (front ++ before) w,
      byteLength_append front before, hw.byteLength] at hrest

/-- The search for the first occurrence finds the first one that is yielded. -/
theorem head?_occurrences (needle : Needle) (quotes : QuoteSet) (start : Nat) (t : Text) :
    (needle.occurrences quotes start t).head? = needle.find? quotes start t := by
  unfold occurrences find?
  cases t.dropBytes? start with
  | none => rfl
  | some rest =>
    cases hcut : needle.cut? quotes rest with
    | none => simp [run_cutter_of_none hcut, hcut, offsets]
    | some p => simp [run_cutter_of_some hcut, hcut, offsets]

/-- What is yielded first is the least candidate. -/
theorem Yields.head?_eq_some_iff {start p : Nat} {t : Text} {offsets : List Nat}
    (h : needle.Yields quotes start t offsets) :
    offsets.head? = some p ↔ IsLeast (needle.candidates quotes start t) p := by
  have hleast : ∀ q, offsets.head? = some q → IsLeast (needle.candidates quotes start t) q := by
    intro q hq
    obtain ⟨others, rfl⟩ := List.head?_eq_some_iff.1 hq
    have hfirst : ∀ r ∈ q :: others, q ≤ r := by
      intro r hr
      rcases List.mem_cons.1 hr with rfl | hr
      · exact Nat.le_refl _
      · have happart := (List.pairwise_cons.1 h.apart).1 r hr
        omega
    refine ⟨h.candidate q List.mem_cons_self, fun r hr => ?_⟩
    rcases h.complete r hr with hmem | ⟨q', hq', hlt, -⟩
    · exact hfirst r hmem
    · have hle := hfirst q' hq'
      omega
  refine ⟨hleast p, fun hp => ?_⟩
  cases hhead : offsets.head? with
  | some q => rw [(hleast q hhead).unique hp]
  | none =>
    rw [List.head?_eq_none_iff] at hhead
    subst hhead
    rcases h.complete p hp.1 with hmem | ⟨q, hq, -⟩
    · cases hmem
    · cases hq

/-- The occurrences of a needle that has no quote in it are candidates. Each one stands at least the
length of the needle behind the one before, and a candidate that is passed over overlaps one that
comes before it. There is none from an offset on that is no boundary, and the first one is the least
candidate. -/
theorem occurrences_exact (hne : needle.chars ≠ []) (hquotes : needle.ApartFrom quotes)
    (start : Nat) (t : Text) :
    (∀ p ∈ needle.occurrences quotes start t, p ∈ needle.candidates quotes start t) ∧
    (needle.occurrences quotes start t).Pairwise
      (fun p q => p < q ∧ p + needle.chars.byteLength ≤ q) ∧
    (∀ p ∈ needle.candidates quotes start t, p ∉ needle.occurrences quotes start t →
      ∃ q ∈ needle.occurrences quotes start t, q < p ∧ p < q + needle.chars.byteLength) ∧
    (t.byteLength < start ∨ ¬ t.IsBoundary start → needle.occurrences quotes start t = []) ∧
    ∀ p, needle.find? quotes start t = some p ↔ IsLeast (needle.candidates quotes start t) p := by
  have hyields : needle.Yields quotes start t (needle.occurrences quotes start t) := by
    unfold occurrences
    cases hdrop : t.dropBytes? start with
    | some rest =>
      obtain ⟨front, rfl, rfl⟩ := eq_append_of_dropBytes? hdrop
      exact yields_offsets hne hquotes front rest
    | none =>
      refine ⟨fun p hp => (by cases hp), List.Pairwise.nil, fun p hp => ?_⟩
      obtain ⟨_, _, _, hslice, -⟩ := hp
      obtain ⟨front, rest, rfl, rfl, -⟩ := slice?_eq_some_iff.1 hslice
      rw [List.append_assoc, dropBytes?_byteLength] at hdrop
      cases hdrop
  have hpos : 0 < needle.chars.byteLength := by
    have hlength := List.length_pos_iff.2 hne
    have hle := length_le_byteLength needle.chars
    omega
  refine ⟨hyields.candidate, ?_, ?_, fun hstart => ?_, fun p => ?_⟩
  · exact hyields.apart.imp fun hle => ⟨by omega, hle⟩
  · intro p hp hnot
    exact (hyields.complete p hp).resolve_left hnot
  · have hnone : ¬ t.IsBoundary start :=
      hstart.elim (fun hlt h => absurd h.le (by omega)) id
    unfold occurrences
    rw [← isSome_dropBytes?_iff, Option.not_isSome_iff_eq_none] at hnone
    rw [hnone]
  · rw [← head?_occurrences]
    exact hyields.head?_eq_some_iff

/-- A text with the needle between quotes, with occurrences that overlap, and with a quote that is
not closed. -/
def overlapping : Text := "é'aba' ABAbaba 'aba".toList

/-- Of the three candidates, the one in the middle overlaps the other two and is passed over. -/
theorem occurrences_exact_overlapping :
    let needle : Needle := { chars := "aba".toList, ignoreCase := true }
    needle.chars ≠ [] ∧ needle.ApartFrom .standard ∧
      needle.occurrences .standard 2 overlapping = [8, 12] ∧
      10 ∈ needle.candidates .standard 2 overlapping ∧
      (∃ q ∈ needle.occurrences .standard 2 overlapping, q < 10 ∧ 10 < q + 3) ∧
      IsLeast (needle.candidates .standard 2 overlapping) 8 ∧
      needle.occurrences .standard 1 overlapping = [] := by
  intro needle
  have hne : needle.chars ≠ [] := by decide
  have hquotes : needle.ApartFrom .standard := by
    intro c hc d hd hmem
    have hquote : d ∈ ['\'', '"'] := QuoteSet.mem_ofText.1 hmem
    have hnone : ("aba".toList.all fun c => ['\'', '"'].all fun d => !needle.same c d) = true := by
      decide
    simp only [List.all_eq_true, Bool.not_eq_true'] at hnone
    rw [hnone c hc d hquote] at hd
    cases hd
  have hyielded : needle.occurrences .standard 2 overlapping = [8, 12] := by decide +kernel
  have hmiddle : 10 ∈ needle.candidates .standard 2 overlapping := by
    refine ⟨"'aba' AB".toList, "Aba".toList, "ba 'aba".toList, ?_, ?_, ?_, ?_⟩
    all_goals decide +kernel
  have hfind : needle.find? .standard 2 overlapping = some 8 := by decide +kernel
  have hinside : ¬ overlapping.IsBoundary 1 := by
    rw [← isSome_dropBytes?_iff]
    decide +kernel
  obtain ⟨-, -, hpassed, -, hleast⟩ := occurrences_exact hne hquotes 2 overlapping
  obtain ⟨-, -, -, hoff, -⟩ := occurrences_exact hne hquotes 1 overlapping
  refine ⟨hne, hquotes, hyielded, hmiddle, ?_, (hleast 8).1 hfind, hoff (.inr hinside)⟩
  exact hpassed 10 hmiddle (by rw [hyielded]; decide)

/-! ## Splitting and joining -/

/-- What a search misses, whatever stands behind it, avoids the needle. -/
theorem avoids_of_misses (hcase : needle.ignoreCase = false) (hne : needle.chars ≠ [])
    {t rest : Text} (h : Misses quotes needle.after? .unquoted t rest) :
    Avoids quotes needle.chars t := by
  rintro a b rfl ha
  have hnone := h a (needle.chars ++ b) (by simp) (by simp [hne]) ha
  rw [(after?_eq_some_iff hcase hne).2 (List.append_assoc ..)] at hnone
  cases hnone

/-- Read on its own, no piece has the needle outside quotes. -/
theorem avoids_of_mem_split (hcase : needle.ignoreCase = false) (hne : needle.chars ≠ [])
    (t : Text) : ∀ piece ∈ needle.split quotes t, Avoids quotes needle.chars piece := by
  induction t using cut_induction needle quotes with
  | last t h =>
    intro piece hpiece
    rw [split, run_cutter_of_none h] at hpiece
    obtain rfl : piece = t := by simpa using hpiece
    exact avoids_of_misses hcase hne (seek?_eq_none_iff.1 h)
  | more before w rest h hw ih =>
    intro piece hpiece
    rw [split, run_cutter_of_some h] at hpiece
    rcases List.mem_cons.1 hpiece with rfl | hrest
    · obtain ⟨_, -, -, -, -, hmiss⟩ := cut?_eq_some_iff.1 h
      exact avoids_of_misses hcase hne hmiss
    · exact ih piece hrest

/-- Balanced pieces without a character are what a text joined with it is split into. -/
theorem split_intercalate {c : Char} {pieces : List Text} (hne : pieces ≠ [])
    (h : ∀ piece ∈ pieces, Balanced quotes piece ∧ Avoids quotes [c] piece) :
    (Needle.char c).split quotes ([c].intercalate pieces) = pieces := by
  induction pieces with
  | nil => exact absurd rfl hne
  | cons piece pieces ih =>
    obtain ⟨hbalanced, havoid⟩ := h piece List.mem_cons_self
    cases pieces with
    | nil =>
      rw [List.intercalate_singleton]
      exact split_of_avoids havoid
    | cons other pieces =>
      have hrest := ih (by simp) fun p hp => h p (List.mem_cons_of_mem _ hp)
      rw [List.intercalate_cons_cons, List.append_assoc, List.singleton_append,
        split_append_cons hbalanced havoid, hrest]

/-- Joining the pieces of a text with what it was split at gives the text again, and no piece has it
outside quotes when it is read on its own. Conversely, pieces in which every quote is closed and
which have no unquoted `c` are the pieces of the text that is joined from them with `c`. -/
theorem split_inverse (quotes : QuoteSet) :
    (∀ delimiter t : Text,
      delimiter.intercalate (split { chars := delimiter } quotes t) = t ∧
        (delimiter ≠ [] → ∀ piece ∈ split { chars := delimiter } quotes t,
          Avoids quotes delimiter piece)) ∧
    ∀ (c : Char) (pieces : List Text), pieces ≠ [] →
      (∀ piece ∈ pieces, Balanced quotes piece ∧ Avoids quotes [c] piece) →
        split { chars := [c] } quotes ([c].intercalate pieces) = pieces := by
  refine ⟨fun delimiter t => ⟨?_, fun hne => ?_⟩, fun c pieces hne h => ?_⟩
  · exact intercalate_split { chars := delimiter } rfl quotes t
  · exact @avoids_of_mem_split _ { chars := delimiter } rfl hne t
  · exact split_intercalate hne h

/-- A delimiter with a quote in it leaves a last piece that has it between quotes; pieces are joined
of which one is empty and one has the delimiter between quotes. -/
theorem split_inverse_quoted :
    split { chars := "a'".toList } .standard "xa'ya'z'a'".toList =
        ["x".toList, "y".toList, "z'a'".toList] ∧
      (∀ piece ∈ ["x".toList, "y".toList, "z'a'".toList],
        Avoids .standard "a'".toList piece) ∧
      (∀ piece ∈ ["1".toList, [], "'a,b'".toList],
        Balanced .standard piece ∧ Avoids .standard [','] piece) ∧
      split { chars := [','] } .standard ([','].intercalate ["1".toList, [], "'a,b'".toList]) =
        ["1".toList, [], "'a,b'".toList] := by
  have hsplit : split { chars := "a'".toList } .standard "xa'ya'z'a'".toList =
      ["x".toList, "y".toList, "z'a'".toList] := by decide +kernel
  have hpieces : ∀ piece ∈ ["1".toList, [], "'a,b'".toList],
      Balanced .standard piece ∧ Avoids .standard [','] piece := by decide +kernel
  obtain ⟨hcut, hjoined⟩ := split_inverse .standard
  have havoid := (hcut "a'".toList "xa'ya'z'a'".toList).2 (by decide)
  rw [hsplit] at havoid
  exact ⟨hsplit, havoid, hpieces, hjoined ',' _ (by simp) hpieces⟩

end Needle

end InsertLayout
