import InsertLayout.Proofs.Places
import InsertLayout.Proofs.Rows
import Mathlib.Data.List.Forall2

/-!
# Cuts in one scan

An extent is a part of a text between two byte offsets, and `Cuts` are all the cuts of a kind that
lie in one. A list of columns, the values of a statement and the text of each row are cut by scans
of their own. These start at unquoted places of one scan of the whole text, so that fields and rows
are cut exactly where this scan shows commas (`fieldsAt_of_strips`) and ends of rows
(`rowsAt_parseRows`).
-/

set_option autoImplicit false

namespace InsertLayout

open Text

/-! ## Extents and cuts -/

/-- A part of a text, from one byte offset up to another one. -/
@[ext] structure Extent where
  start : Nat
  stop : Nat

namespace Extent

/-- The text in an extent, if it is one of this text. -/
def text? (t : Text) (e : Extent) : Option Text := t.slice? e.start e.stop

/-- What cuts leave of an extent: the parts before, between and behind them. -/
def between : Extent → List Extent → List Extent
  | whole, [] => [whole]
  | whole, cut :: cuts => ⟨whole.start, cut.start⟩ :: between ⟨cut.stop, whole.stop⟩ cuts

/-- The texts of several extents. -/
def Texts (t : Text) : List Extent → List Text → Prop :=
  List.Forall₂ fun e piece => e.text? t = some piece

/-- The extent of a text behind another one. -/
def behind (front t : Text) : Extent := ⟨front.byteLength, (front ++ t).byteLength⟩

theorem text?_behind (front t rest : Text) :
    (behind front t).text? (front ++ t ++ rest) = some t := slice?_byteLength front t rest

theorem between_behind (front a c t : Text) (cuts : List Extent) :
    (behind front (a ++ (c ++ t))).between (behind (front ++ a) c :: cuts) =
      behind front a :: (behind (front ++ (a ++ c)) t).between cuts := by
  simp [behind, between]

end Extent

/-- The cuts of a kind that lie in an extent: all of them, one behind the other. -/
structure Cuts (cut : Extent → Prop) (whole : Extent) (cuts : List Extent) : Prop where
  sorted : cuts.Pairwise fun a b => a.stop ≤ b.start
  mem_iff : ∀ c, c ∈ cuts ↔ cut c ∧ whole.start ≤ c.start ∧ c.stop ≤ whole.stop

namespace Cuts

variable {cut : Extent → Prop} {whole : Extent} {cuts : List Extent}

theorem nil (h : ∀ d, cut d → whole.start ≤ d.start → whole.stop < d.stop) :
    Cuts cut whole [] where
  sorted := List.Pairwise.nil
  mem_iff d := by
    constructor
    · intro hd
      cases hd
    · rintro ⟨hd, hstart, hstop⟩
      have hlt := h d hd hstart
      omega

/-- A cut comes first if every other one stands behind it. -/
theorem cons {front a c t : Text} (hc : cut (.behind (front ++ a) c))
    (hfirst : ∀ d, cut d → front.byteLength ≤ d.start →
      d = .behind (front ++ a) c ∨ (front ++ (a ++ c)).byteLength ≤ d.start)
    (hrest : Cuts cut (.behind (front ++ (a ++ c)) t) cuts) :
    Cuts cut (.behind front (a ++ (c ++ t))) (.behind (front ++ a) c :: cuts) where
  sorted := by
    refine List.pairwise_cons.2 ⟨fun d hd => ?_, hrest.sorted⟩
    have hbehind := ((hrest.mem_iff d).1 hd).2.1
    rwa [← List.append_assoc] at hbehind
  mem_iff d := by
    rw [List.mem_cons, hrest.mem_iff]
    simp only [Extent.behind, byteLength_append] at hc hfirst ⊢
    constructor
    · rintro (rfl | ⟨hd, hbehind, hend⟩)
      · exact ⟨hc, by dsimp only; omega, by dsimp only; omega⟩
      · exact ⟨hd, by omega, by omega⟩
    · rintro ⟨hd, hbehind, hend⟩
      exact (hfirst d hd hbehind).imp_right fun h => ⟨hd, h, by omega⟩

/-- An extent may be made wider where there are no cuts. -/
theorem widen {inner : Extent} (h : Cuts cut inner cuts) (hstart : whole.start ≤ inner.start)
    (hstop : inner.stop ≤ whole.stop)
    (hnone : ∀ d, cut d → whole.start ≤ d.start → d.stop ≤ whole.stop →
      inner.start ≤ d.start ∧ d.stop ≤ inner.stop) : Cuts cut whole cuts where
  sorted := h.sorted
  mem_iff d := by
    rw [h.mem_iff]
    constructor
    · rintro ⟨hd, hbehind, hend⟩
      exact ⟨hd, by omega, by omega⟩
    · rintro ⟨hd, hbehind, hend⟩
      exact ⟨hd, hnone d hd hbehind hend⟩

end Cuts

namespace Statement

variable {quotes : QuoteSet} {options : Options}

/-! ## Commas -/

/-- A cut at an unquoted comma of one scan. -/
def CommaAt (quotes : QuoteSet) (t : Text) (c : Extent) : Prop :=
  c.start ∈ t.places quotes ([','] <+: ·) ∧ c.stop = c.start + 1

/-- A text is stripped of some of what may stand around its fields: blanks and parentheses, and the
end of the statement. -/
def Strips (x y : Text) : Prop :=
  ∃ o c, x = o ++ y ++ c ∧ (∀ d ∈ o, isBlank d = true ∨ d = '(') ∧
    ∀ d ∈ c, isBlank d = true ∨ d ∈ [')', ';']

theorem strips_refl (x : Text) : Strips x x := ⟨[], [], by simp, by simp, by simp⟩

/-- Fields are cut from the text of an extent, which `strip` strips: exactly at the unquoted commas
of one scan that stand in the extent. -/
def FieldsAt (quotes : QuoteSet) (t : Text) (strip : Text → Text) (whole : Extent)
    (fields : List Text) : Prop :=
  ∃ (text : Text) (inner : Extent) (commas : List Extent) (pieces : List Text),
    whole.text? t = some text ∧ Strips text (strip text) ∧ inner.text? t = some (strip text) ∧
      whole.start ≤ inner.start ∧ inner.stop ≤ whole.stop ∧ Cuts (CommaAt quotes t) whole commas ∧
        Extent.Texts t (inner.between commas) pieces ∧ fields = pieces.map trim

/-- A comma up to the end of a part without commas stands in front of this part. -/
theorem le_of_comma {s c rest f r : Text} (h : s ++ c ++ rest = f ++ ',' :: r) (hc : ',' ∉ c)
    (hle : (f ++ [',']).byteLength ≤ (s ++ c).byteLength) :
    (f ++ [',']).byteLength ≤ s.byteLength := by
  have hsize : byteLength [','] = 1 := rfl
  rw [byteLength_append, hsize] at hle ⊢
  rcases Nat.lt_or_ge f.byteLength s.byteLength with hlt | hge
  · exact hlt
  · rw [List.append_assoc] at h
    obtain ⟨v, rfl, hv⟩ := exists_append_of_byteLength_le h hge
    rcases append_eq_append_cons hv with ⟨w, rfl, -⟩ | ⟨w, rfl, -⟩
    · simp at hc
    · simp only [byteLength_append] at hle
      omega

theorem CommaAt.stop_le {s c rest : Text} {d : Extent} (h : CommaAt quotes (s ++ c ++ rest) d)
    (hc : ',' ∉ c) (hle : d.stop ≤ (s ++ c).byteLength) : d.stop ≤ s.byteLength := by
  obtain ⟨⟨_, ⟨f, heq, hstart, -⟩, r, rfl⟩, hstop⟩ := h
  have hstop' : d.stop = (f ++ [',']).byteLength := by
    rw [hstop, ← hstart, byteLength_append]
    rfl
  rw [hstop'] at hle ⊢
  exact le_of_comma heq hc hle

section
variable {front : Text} (hfront : Balanced quotes front)
include hfront

/-- No comma stands in a text that avoids it. -/
theorem CommaAt.le {t rest : Text} {c : Extent} (hc : CommaAt quotes (front ++ t ++ rest) c)
    (ht : Avoids quotes [','] t) (hle : front.byteLength ≤ c.start) :
    (front ++ t).byteLength ≤ c.start := by
  have hmiss : Misses quotes (Needle.char ',').after? .unquoted t rest :=
    Needle.misses_char_iff.2 ht
  have hcomma (r : Text) := (@Needle.prefix_iff (.char ',') rfl (by decide) r).1
  exact hmiss.le_of_mem_places hfront hcomma hc.1 hle

/-- Splitting a text cuts it at the commas of the one scan. -/
theorem exists_cuts_split (hcomma : ',' ∉ quotes) (t rest : Text) :
    ∃ commas, Cuts (CommaAt quotes (front ++ t ++ rest)) (.behind front t) commas ∧
      Extent.Texts (front ++ t ++ rest) ((Extent.behind front t).between commas)
        ((Needle.char ',').split quotes t) := by
  induction t using Needle.split_induction quotes ',' generalizing front with
  | last t havoid =>
    refine ⟨[], .nil fun d hd hle => ?_, ?_⟩
    · have hbehind := hd.le hfront havoid hle
      have hstop := hd.2
      unfold Extent.behind
      dsimp only
      omega
    · rw [Needle.split_of_avoids havoid]
      exact .cons (Extent.text?_behind front t rest) .nil
  | more a t ha havoid ih =>
    obtain ⟨commas, hcuts, hpieces⟩ := ih (hfront.append (ha.append (balanced_singleton hcomma)))
    have htext : front ++ (a ++ ',' :: t) ++ rest = front ++ (a ++ [',']) ++ t ++ rest := by simp
    rw [Needle.split_append_cons ha havoid, htext,
      show a ++ ',' :: t = a ++ ([','] ++ t) from rfl]
    have hsize : byteLength [','] = 1 := rfl
    refine ⟨.behind (front ++ a) [','] :: commas, .cons ?_ (fun d hd hle => ?_) hcuts, ?_⟩
    · refine ⟨⟨[','] ++ (t ++ rest), ⟨front ++ a, by simp, rfl, hfront.append ha⟩, by simp⟩, ?_⟩
      rw [Extent.behind, byteLength_append _ [','], hsize]
    · have hd' : CommaAt quotes (front ++ a ++ (',' :: (t ++ rest))) d := by simpa using hd
      have hstop := hd.2
      rcases (hd'.le hfront havoid hle).eq_or_lt with heq | hlt
      · refine .inl (Extent.ext heq.symm ?_)
        rw [Extent.behind, byteLength_append _ [','], hsize, heq, hstop]
      · rw [← List.append_assoc, byteLength_append _ [','], hsize]
        exact .inr hlt
    · rw [Extent.between_behind]
      refine .cons ?_ hpieces
      have hfirst := Extent.text?_behind front a (',' :: (t ++ rest))
      simpa using hfirst

/-- The fields of a part of a text are cut from it along the one scan. -/
theorem fieldsAt_of_strips (hq : quotes.Plain) {strip : Text → Text} {x : Text}
    (h : Strips x (strip x)) (rest : Text) : FieldsAt quotes (front ++ x ++ rest) strip
      (.behind front x) (parseFields quotes (strip x)) := by
  have hstrips := h
  generalize hy : strip x = y at h
  obtain ⟨o, c, rfl, ho, hc⟩ := h
  have hopen : Balanced quotes o := by
    refine balanced_of_notMem fun d hd => ?_
    rcases ho d hd with hblank | rfl
    · exact hq.notMem_of_blank hblank
    · exact hq.open_notMem
  -- What is stripped off holds no comma, so the cuts of the inner part are those of the whole.
  have ho' : ',' ∉ o := fun hmem => absurd (ho _ hmem) (by decide)
  have hc' : ',' ∉ c := fun hmem => absurd (hc _ hmem) (by decide)
  have htext : front ++ (o ++ y ++ c) ++ rest = front ++ o ++ y ++ (c ++ rest) := by simp
  obtain ⟨commas, hcuts, hpieces⟩ :=
    exists_cuts_split (hfront.append hopen) hq.comma_notMem y (c ++ rest)
  have hwhole := Extent.text?_behind front (o ++ y ++ c) rest
  rw [htext] at hwhole ⊢
  have hinner : (Extent.behind (front ++ o) y).text? (front ++ o ++ y ++ (c ++ rest)) =
      some (strip (o ++ y ++ c)) := by
    rw [hy]
    exact Extent.text?_behind (front ++ o) y (c ++ rest)
  have hstart : front.byteLength ≤ (front ++ o).byteLength := by simp
  have hstop : (front ++ o ++ y).byteLength ≤ (front ++ (o ++ y ++ c)).byteLength := by simp
  refine ⟨_, .behind (front ++ o) y, commas, _, hwhole, hstrips, hinner, hstart, hstop,
    hcuts.widen hstart hstop fun d hd hle hend => ⟨?_, ?_⟩, hpieces, rfl⟩
  · rw [List.append_assoc _ y] at hd
    exact hd.le hfront (avoids_of_notMem List.mem_cons_self ho') hle
  · have hend' : d.stop ≤ (front ++ o ++ y ++ c).byteLength := by
      simpa [Extent.behind] using hend
    rw [← List.append_assoc] at hd
    exact hd.stop_le hc' hend'

end

/-! ## Rows -/

/-- A cut at an unquoted parenthesis of one scan that a comma follows, behind blanks or none. -/
def RowEndAt (quotes : QuoteSet) (t : Text) (c : Extent) : Prop :=
  ∃ b rest, t.UnquotedAt quotes c.start (')' :: (b ++ ',' :: rest)) ∧ Blank b ∧
    c.stop = c.start + byteLength (')' :: (b ++ [',']))

/-- Rows are cut from an extent, of which `inner` is the part without blanks at its ends: exactly at
the ends of rows of one scan. Their fields are cut from these parts. -/
def RowsAt (quotes : QuoteSet) (t : Text) (whole inner : Extent) (rows : List (List Text)) : Prop :=
  ∃ (ends extents : List Extent) (last : Extent) (fields : List (List Text))
      (lastFields : List Text),
    Cuts (RowEndAt quotes t) whole ends ∧ inner.between ends = extents ++ [last] ∧
      rows = fields ++ [lastFields] ∧ List.Forall₂ (FieldsAt quotes t innerRow) extents fields ∧
        FieldsAt quotes t lastRow last lastFields

theorem eq_append_of_stripEnd? {s t u : Text} (h : stripEnd? s t = some u) : t = u ++ s := by
  unfold stripEnd? at h
  split at h
  · rename_i hsuffix
    obtain ⟨v, rfl⟩ := List.isSuffixOf_iff_suffix.1 hsuffix
    simpa [eq_comm] using h
  · cases h

/-- What may be taken off the text of a row holds no comma. -/
theorem strips_getD {x : Text} {stripped : Option Text}
    (h : ∀ y, stripped = some y → ∃ e, stripOpen x.trim = y ++ e ∧ ∀ d ∈ e, d ∈ [')', ';']) :
    Strips x (stripped.getD (stripOpen x.trim)) := by
  have hend : ∃ e, stripOpen x.trim = stripped.getD (stripOpen x.trim) ++ e ∧
      ∀ d ∈ e, d ∈ [')', ';'] := by
    cases stripped with
    | none => exact ⟨[], by simp, by simp⟩
    | some y => exact h y rfl
  obtain ⟨e, he, hmem⟩ := hend
  obtain ⟨a, b, ha, hb, hx⟩ := exists_trim x
  obtain ⟨o, ho, hopen⟩ := exists_stripOpen x.trim
  refine ⟨a ++ o, e ++ b, ?_, fun d hd => ?_, fun d hd => ?_⟩
  · calc x = a ++ (o ++ (stripped.getD (stripOpen x.trim) ++ e)) ++ b := by rw [← he, ← hopen, ← hx]
      _ = a ++ o ++ stripped.getD (stripOpen x.trim) ++ (e ++ b) := by simp
  · rcases List.mem_append.1 hd with hd | hd
    · exact .inl (ha d hd)
    · rcases ho with rfl | rfl
      · cases hd
      · exact .inr (List.mem_singleton.1 hd)
  · exact (List.mem_append.1 hd).symm.imp (hb d) (hmem d)

theorem strips_innerRow (x : Text) : Strips x (innerRow x) :=
  strips_getD fun _ hy => ⟨_, eq_append_of_stripEnd? hy, by simp⟩

theorem strips_lastRow (x : Text) : Strips x (lastRow x) := by
  refine strips_getD fun y hy => ?_
  rcases Option.or_eq_some_iff.1 hy with hy | ⟨-, hy⟩
  · exact ⟨_, eq_append_of_stripEnd? hy, by simp⟩
  · exact ⟨_, eq_append_of_stripEnd? hy, by simp⟩

theorem RowEndAt.stop_le {s c rest : Text} {d : Extent} (h : RowEndAt quotes (s ++ c ++ rest) d)
    (hc : ',' ∉ c) (hle : d.stop ≤ (s ++ c).byteLength) : d.stop ≤ s.byteLength := by
  obtain ⟨b, r, ⟨f, heq, hstart, -⟩, -, hstop⟩ := h
  have hstop' : d.stop = (f ++ ')' :: b ++ [',']).byteLength := by
    rw [hstop, ← hstart]
    simp
  rw [hstop'] at hle ⊢
  exact le_of_comma (by simpa using heq) hc hle

section
variable {front : Text} (hfront : Balanced quotes front)
include hfront

theorem RowEndAt.le {t rest : Text} {d : Extent} (hd : RowEndAt quotes (front ++ t ++ rest) d)
    (h : Misses quotes rowEnd? .unquoted t rest) (hle : front.byteLength ≤ d.start) :
    (front ++ t).byteLength ≤ d.start := by
  obtain ⟨b, r, hplace, hb, -⟩ := hd
  have hp : d.start ∈ (front ++ t ++ rest).places quotes fun r => ∃ found, rowEnd? r = some found :=
    ⟨_, hplace, _, rowEnd?_eq_some_iff.2 ⟨hb, rfl⟩⟩
  exact h.le_of_mem_places hfront (fun _ hr => hr) hp hle

/-- Behind a text without the end of a row stands the first one. -/
theorem RowEndAt.eq_or_le (hq : quotes.Plain) {x b rest : Text} (hx : Balanced quotes x)
    (havoid : AvoidsRowEnd quotes x) (hb : Blank b) {d : Extent}
    (hd : RowEndAt quotes (front ++ (x ++ ')' :: (b ++ [','])) ++ rest) d)
    (hle : front.byteLength ≤ d.start) : d = .behind (front ++ x) (')' :: (b ++ [','])) ∨
      (front ++ (x ++ ')' :: (b ++ [',']))).byteLength ≤ d.start := by
  have hfirst : RowEndAt quotes (front ++ x ++ ')' :: (b ++ ',' :: rest)) d := by simpa using hd
  have hmiss : Misses quotes rowEnd? .unquoted x (')' :: (b ++ ',' :: rest)) :=
    (misses_rowEnd?_iff (by simp [trimLeft, isBlank])).2 havoid
  rcases (hfirst.le hfront hmiss hle).eq_or_lt with heq | hlt
  · -- What is left at one offset is the same text, so the two ends have the same blanks.
    left
    obtain ⟨b', r, hplace, hb', hstop⟩ := hfirst
    have hsame := hplace.unique (heq ▸ unquotedAt_of_balanced (hfront.append hx) _)
    have hend := rowEnd?_eq_some_iff.2 ⟨hb, hsame⟩
    rw [rowEnd?_eq_some_iff.2 ⟨hb', rfl⟩] at hend
    obtain ⟨rfl, -⟩ := Prod.mk.inj (Option.some.inj hend)
    refine Extent.ext heq.symm ?_
    rw [hstop, ← heq, Extent.behind, byteLength_append _ (')' :: _)]
  · -- No other parenthesis stands between this one and its comma.
    right
    have hbehind : RowEndAt quotes (front ++ x ++ [')'] ++ (b ++ [',']) ++ rest) d := by
      simpa using hd
    have hnone : ')' ∉ b ++ [','] := by simp [hb.notMem (show isBlank ')' = false by decide)]
    have hnext : (front ++ x ++ [')']).byteLength ≤ d.start := by
      rw [byteLength_append _ [')'], show byteLength [')'] = 1 from rfl]
      exact hlt
    have hstart := hbehind.le ((hfront.append hx).append (balanced_singleton hq.close_notMem))
      (misses_rowEnd?_of_notMem hnone _ _) hnext
    simpa using hstart

/-- The rows of a text are cut from it along the one scan. -/
theorem exists_rowsAt (hq : quotes.Plain) (t : Text) {rest : Text} (hrest : Blank rest) :
    ∃ ends extents last,
      Cuts (RowEndAt quotes (front ++ t ++ rest)) (.behind front t) ends ∧
        (Extent.behind front t).between ends = extents ++ [last] ∧
        List.Forall₂ (FieldsAt quotes (front ++ t ++ rest) innerRow) extents
          (((rowCutter quotes).run (.unquoted, t)).1.map (parseFields quotes ∘ innerRow)) ∧
        FieldsAt quotes (front ++ t ++ rest) lastRow last
          (parseFields quotes (lastRow ((rowCutter quotes).run (.unquoted, t)).2.2)) := by
  induction t using rows_induction quotes generalizing front with
  | last t havoid =>
    have hnext : (rowCutter quotes).next? (.unquoted, t) = none := nextRow?_eq_none hq havoid
    rw [Cutter.run_of_none hnext]
    refine ⟨[], [], .behind front t, .nil fun d hd hle => ?_, rfl, .nil,
      fieldsAt_of_strips hfront hq (strips_lastRow t) rest⟩
    have hmiss := (misses_rowEnd?_iff (by rw [trimLeft_blank hrest]; simp)).2 havoid
    have hbehind := hd.le hfront hmiss hle
    obtain ⟨b, r, -, -, hstop⟩ := hd
    rw [byteLength_cons] at hstop
    have hpos : 0 < Char.utf8Size ')' := Char.utf8Size_pos _
    unfold Extent.behind
    dsimp only
    omega
  | more x b t hx havoid hb ih =>
    have hnext : (rowCutter quotes).next? (.unquoted, x ++ ')' :: (b ++ ',' :: t)) =
        some (x, .unquoted, t) := nextRow?_append hq hx havoid hb t
    rw [Cutter.run_of_some hnext]
    obtain ⟨ends, extents, last, hcuts, hbetween, hinner, hlast⟩ :=
      ih (hfront.append (hx.append (balanced_separator hq hb)))
    have htext : front ++ (x ++ ')' :: (b ++ ',' :: t)) ++ rest =
        front ++ (x ++ ')' :: (b ++ [','])) ++ t ++ rest := by simp
    rw [htext, show x ++ ')' :: (b ++ ',' :: t) = x ++ (')' :: (b ++ [',']) ++ t) by simp]
    refine ⟨.behind (front ++ x) (')' :: (b ++ [','])) :: ends, .behind front x :: extents, last,
      .cons ?_ (fun d hd hle => ?_) hcuts, ?_, .cons ?_ hinner, hlast⟩
    · refine ⟨b, t ++ rest, ⟨front ++ x, by simp, rfl, hfront.append hx⟩, hb, ?_⟩
      rw [Extent.behind, byteLength_append _ (')' :: _)]
    · rw [List.append_assoc _ t] at hd
      exact hd.eq_or_le hfront hq hx havoid hb hle
    · rw [Extent.between_behind, hbetween]
      rfl
    · have hfields := fieldsAt_of_strips hfront hq (strips_innerRow x)
        (')' :: (b ++ ',' :: (t ++ rest)))
      simpa using hfields

end

/-- Where a text stands that is left at an offset, without blanks at its ends. -/
def trimmedExtent (offset : Nat) (rest : Text) : Extent :=
  let start := offset + rest.leadingBlanks.byteLength
  ⟨start, start + rest.trim.byteLength⟩

/-- The rows behind a balanced front are cut out along the one scan. -/
theorem rowsAt_parseRows (hq : quotes.Plain) {front : Text} (hfront : Balanced quotes front)
    {rest : Text} (hrest : rest.trim ≠ []) :
    RowsAt quotes (front ++ rest) ⟨front.byteLength, (front ++ rest).byteLength⟩
      (trimmedExtent front.byteLength rest) (parseRows quotes rest.trim) := by
  obtain ⟨trail, htrail, htrim⟩ := exists_trimRight rest.trimLeft
  have hlead := blank_leadingBlanks rest
  have heq : rest = rest.leadingBlanks ++ (rest.trim ++ trail) := by
    conv_lhs => rw [← leadingBlanks_append_trimLeft rest, htrim]
    rfl
  have htext : front ++ rest = front ++ rest.leadingBlanks ++ rest.trim ++ trail := by
    conv_lhs => rw [heq]
    simp
  have hinner : trimmedExtent front.byteLength rest =
      .behind (front ++ rest.leadingBlanks) rest.trim := by
    simp [trimmedExtent, Extent.behind, Nat.add_assoc]
  obtain ⟨ends, extents, last, hcuts, hbetween, hrows, hlast⟩ :=
    exists_rowsAt (hfront.append (balanced_blank hq hlead)) hq rest.trim htrail
  rw [hinner, htext]
  refine ⟨ends, extents, last, _, _, hcuts.widen ?_ ?_ fun d hd hle hend => ⟨?_, ?_⟩, hbetween, ?_,
    hrows, hlast⟩
  · simp [Extent.behind]
  · simp [Extent.behind]
  · have hnone : ')' ∉ rest.leadingBlanks := hlead.notMem (by decide)
    rw [List.append_assoc _ rest.trim] at hd
    exact hd.le hfront (misses_rowEnd?_of_notMem hnone _ _) hle
  · have hnone : ',' ∉ trail := htrail.notMem (by decide)
    rw [← List.append_nil (_ ++ trail)] at hd
    exact hd.stop_le hnone hend
  · rw [parseRows, if_neg (by simpa using hrest)]

end Statement

end InsertLayout
