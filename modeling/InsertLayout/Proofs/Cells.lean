import InsertLayout.Proofs.Rows
import Mathlib.Data.List.Forall2

/-!
# Cells between commas

`Joined cells t`: the text `t` writes the cells with a comma between each two and blanks around
each. Such a text is split into these cells again (`Joined.map_trim_split`), and every text is
joined from the cells that it is split into (`joined_split`). What the cells avoid, a text joined
from them avoids too; an end of a row arises in it only behind a cell that is not the last one
(`Joined.avoidsRowEnd`).
-/

set_option autoImplicit false

namespace InsertLayout

open Text Statement

variable {quotes : QuoteSet}

/-! ## Blanks around a text -/

/-- The text `x` is the text `f` between blanks. -/
def Text.Padded (f x : Text) : Prop := ∃ a b, Blank a ∧ Blank b ∧ x = a ++ f ++ b

namespace Text

theorem padded_trim (t : Text) : Padded t.trim t := exists_trim t

theorem padded_padRight (t : Text) (columns : Nat) : Padded t (t.padRight columns) :=
  ⟨[], _, Blank.nil, Blank.spaces _, rfl⟩

theorem padded_padLeft (t : Text) (columns : Nat) : Padded t (t.padLeft columns) :=
  ⟨spaces (columns - t.width), [], Blank.spaces _, Blank.nil, by simp [padLeft]⟩

theorem Padded.trim {f x : Text} (h : Padded f x) : x.trim = f.trim := by
  obtain ⟨a, b, ha, hb, rfl⟩ := h
  exact trim_blanks ha hb f

theorem Padded.prepend {f x b : Text} (h : Padded f x) (hb : Blank b) : Padded f (b ++ x) := by
  obtain ⟨a, c, ha, hc, rfl⟩ := h
  exact ⟨b ++ a, c, hb.append ha, hc, by simp⟩

theorem Padded.balanced (hq : quotes.Plain) {f x : Text} (h : Padded f x)
    (hf : Balanced quotes f) : Balanced quotes x := by
  obtain ⟨a, b, ha, hb, rfl⟩ := h
  exact ((balanced_blank hq ha).append hf).append (balanced_blank hq hb)

/-- Blanks around a text add no occurrence of a character other than a blank. -/
theorem Padded.avoids_char (hq : quotes.Plain) {c : Char} (hc : isBlank c = false) {f x : Text}
    (h : Padded f x) (hf : Avoids quotes [c] f) : Avoids quotes [c] x := by
  obtain ⟨a, b, ha, hb, rfl⟩ := h
  refine Avoids.append_notMem ?_ (hb.notMem hc)
  have hleft : Avoids quotes [c] a := avoids_of_notMem List.mem_cons_self (ha.notMem hc)
  exact hleft.append_char (balanced_blank hq ha) hf

theorem Blank.avoids {n t : Text} {c : Char} (ht : Blank t) (hc : c ∈ n)
    (hblank : isBlank c = false) : Avoids quotes n t := avoids_of_notMem hc (ht.notMem hblank)

theorem Padded.avoids_end (hq : quotes.Plain) {f x : Text} (h : Padded f x)
    (hf : Balanced quotes f) (havoid : Avoids quotes [')', ';'] f) :
    Avoids quotes [')', ';'] x := by
  obtain ⟨a, b, ha, hb, rfl⟩ := h
  have hend : ∀ {u : Text}, Blank u → Avoids quotes [')', ';'] u := fun hu =>
    hu.avoids List.mem_cons_self (by decide)
  have hlast : a.getLast? ≠ some ')' := fun h =>
    ha.notMem (by decide) (List.mem_of_mem_getLast? h)
  have hhead : b.head? ≠ some ';' := fun h => hb.notMem (by decide) (List.mem_of_mem_head? h)
  have hleft := (hend ha).append_end (balanced_blank hq ha) havoid (.inr hlast)
  exact hleft.append_end ((balanced_blank hq ha).append hf) (hend hb) (.inl hhead)

/-- What a text avoids, it avoids without the blanks around it. -/
theorem Avoids.trim (hq : quotes.Plain) {n t : Text} (h : Avoids quotes n t) :
    Avoids quotes n t.trim := by
  obtain ⟨a, b, ha, -, ht⟩ := exists_trim t
  rw [ht] at h
  exact h.left.right (balanced_blank hq ha)

end Text

theorem Text.Padded.avoidsKeyword (hq : quotes.Plain) {f x : Text} (h : Padded f x)
    (hf : Balanced quotes f) (havoid : AvoidsKeyword quotes f) : AvoidsKeyword quotes x := by
  obtain ⟨a, b, ha, hb, rfl⟩ := h
  intro p r he hp
  have hclose : ∀ {u : Text}, Blank u → ')' ∉ u := fun hu => hu.notMem (by decide)
  rw [List.append_assoc] at he
  -- The parenthesis stands in `f`, and only blanks come behind `f`.
  rcases append_eq_append_cons he with ⟨v, rfl, -⟩ | ⟨u, rfl, hu⟩
  · exact absurd (List.mem_append_right p List.mem_cons_self) (hclose ha)
  · rcases append_eq_append_cons hu with ⟨v, rfl, rfl⟩ | ⟨v, -, hv⟩
    · have hu : Balanced quotes u := (balanced_append_iff (balanced_blank hq ha)).1 hp
      exact keyword?_append_eq_none (havoid u v rfl hu) (blank_noWord hb).starts
    · exact absurd (show ')' ∈ b by rw [hv]; simp) (hclose hb)

/-! ## Joined cells -/

/-- Cells with a comma between each two, and blanks around each. -/
inductive Joined : List Text → Text → Prop
  | last {f x : Text} : Padded f x → Joined [f] x
  | more {f x t : Text} {fs : List Text} :
      Padded f x → Joined fs t → Joined (f :: fs) (x ++ ',' :: t)

/-- A cell: trimmed, with every quote closed and no unquoted comma. -/
structure Cell (quotes : QuoteSet) (f : Text) : Prop where
  trimmed : f.Trimmed
  balanced : Balanced quotes f
  avoids_comma : Avoids quotes [','] f

instance (f : Text) : Decidable (Cell quotes f) :=
  decidable_of_iff (f.Trimmed ∧ Balanced quotes f ∧ Avoids quotes [','] f)
    ⟨fun ⟨ht, hb, ha⟩ => ⟨ht, hb, ha⟩, fun ⟨ht, hb, ha⟩ => ⟨ht, hb, ha⟩⟩

theorem Joined.ne_nil {fs : List Text} {t : Text} (h : Joined fs t) : fs ≠ [] := by
  cases h <;> simp

theorem Joined.prepend {fs : List Text} {t b : Text} (h : Joined fs t) (hb : Blank b) :
    Joined fs (b ++ t) := by
  cases h with
  | last hx => exact .last (hx.prepend hb)
  | more hx ht =>
    rw [← List.append_assoc]
    exact .more (hx.prepend hb) ht

/-- Cells that are padded and then joined with a comma and a space. -/
theorem joined_intercalate {fs cells : List Text} (h : List.Forall₂ Padded fs cells)
    (hne : fs ≠ []) : Joined fs (List.intercalate [',', ' '] cells) := by
  induction h with
  | nil => exact absurd rfl hne
  | @cons f x fs cells hx hcells ih =>
    cases hcells with
    | nil => rw [List.intercalate_singleton]; exact .last hx
    | @cons g y fs cells hy hcells =>
      have hjoined := (ih (by simp)).prepend (Blank.spaces 1)
      rw [List.intercalate_cons_cons]
      simpa [spaces] using Joined.more hx hjoined

/-- A text is joined from its trimmed pieces. -/
theorem joined_split (quotes : QuoteSet) (t : Text) :
    Joined (((Needle.char ',').split quotes t).map trim) t := by
  induction t using Needle.split_induction quotes ',' with
  | last t h =>
    rw [Needle.split_of_avoids h]
    exact .last (padded_trim t)
  | more a t ha h ih =>
    rw [Needle.split_append_cons ha h]
    exact .more (padded_trim a) ih

/-- The trimmed pieces of a balanced text are cells. -/
theorem cell_of_mem_split (hq : quotes.Plain) {t f : Text} (ht : Balanced quotes t)
    (hf : f ∈ ((Needle.char ',').split quotes t).map trim) : Cell quotes f := by
  obtain ⟨p, hp, rfl⟩ := List.mem_map.1 hf
  have hbal := Needle.balanced_of_mem_split hq.comma_notMem ht hp
  obtain ⟨havoid, -⟩ := Needle.exists_of_mem_split hq.comma_notMem hp
  exact ⟨trimmed_trim p, hbal.trim hq, havoid.trim hq⟩

/-- A cell stands behind a balanced part, and no word goes on behind it. -/
theorem Joined.exists_of_mem (hq : quotes.Plain) {fs : List Text} {t f : Text} (h : Joined fs t)
    (hfs : ∀ f ∈ fs, Balanced quotes f) (hf : f ∈ fs) :
    ∃ a b, t = a ++ f ++ b ∧ Balanced quotes a ∧ continuesWord b = false := by
  induction h with
  | last hx =>
    obtain rfl := List.mem_singleton.1 hf
    obtain ⟨a, b, ha, hb, rfl⟩ := hx
    exact ⟨a, b, rfl, balanced_blank hq ha, (blank_noWord hb).continues⟩
  | @more g x t fs hx _ ih =>
    obtain ⟨hg, hfs⟩ := List.forall_mem_cons.1 hfs
    rcases List.mem_cons.1 hf with rfl | hf
    · obtain ⟨a, b, ha, hb, rfl⟩ := hx
      exact ⟨a, b ++ ',' :: t, by simp, balanced_blank hq ha,
        (noWord_append_cons hb (by simp) t).continues⟩
    · obtain ⟨a, b, rfl, ha, hb⟩ := ih hfs hf
      exact ⟨x ++ ',' :: a, b, by simp,
        (hx.balanced hq hg).append ((balanced_cons_iff hq.comma_notMem).2 ha), hb⟩

section
variable (hq : quotes.Plain) {fs : List Text} {t : Text} (h : Joined fs t)
include hq h

/-- Splitting undoes joining. -/
theorem Joined.map_trim_split (hfs : ∀ f ∈ fs, Cell quotes f) :
    ((Needle.char ',').split quotes t).map trim = fs := by
  induction h with
  | @last f x hx =>
    have hf := hfs f List.mem_cons_self
    rw [Needle.split_of_avoids (hx.avoids_char hq (by decide) hf.avoids_comma), List.map_singleton,
      hx.trim, hf.trimmed]
  | @more f x t fs hx ht ih =>
    obtain ⟨hf, hfs⟩ := List.forall_mem_cons.1 hfs
    rw [Needle.split_append_cons (hx.balanced hq hf.balanced)
      (hx.avoids_char hq (by decide) hf.avoids_comma), List.map_cons, ih hfs, hx.trim, hf.trimmed]

theorem Joined.balanced (hfs : ∀ f ∈ fs, Balanced quotes f) : Balanced quotes t := by
  induction h with
  | last hx => exact hx.balanced hq (hfs _ List.mem_cons_self)
  | more hx ht ih =>
    obtain ⟨hf, hfs⟩ := List.forall_mem_cons.1 hfs
    exact (hx.balanced hq hf).append ((balanced_cons_iff hq.comma_notMem).2 (ih hfs))

theorem Joined.avoids_end (hfs : ∀ f ∈ fs, Balanced quotes f)
    (havoid : ∀ f ∈ fs, Avoids quotes [')', ';'] f) : Avoids quotes [')', ';'] t := by
  induction h with
  | last hx => exact hx.avoids_end hq (hfs _ List.mem_cons_self) (havoid _ List.mem_cons_self)
  | @more f x t fs hx ht ih =>
    obtain ⟨hf, hfs⟩ := List.forall_mem_cons.1 hfs
    obtain ⟨hfa, havoid⟩ := List.forall_mem_cons.1 havoid
    have hx' := hx.balanced hq hf
    have hcomma : Avoids quotes [')', ';'] (x ++ [',']) :=
      (hx.avoids_end hq hf hfa).append_end hx' (avoids_of_notMem List.mem_cons_self (by decide))
        (.inl (by decide))
    have hbal : Balanced quotes (x ++ [',']) :=
      hx'.append (balanced_singleton hq.comma_notMem)
    simpa using hcomma.append_end hbal (ih hfs havoid) (.inr (by simp))

theorem Joined.avoidsKeyword (hfs : ∀ f ∈ fs, Balanced quotes f)
    (havoid : ∀ f ∈ fs, AvoidsKeyword quotes f) : AvoidsKeyword quotes t := by
  induction h with
  | last hx => exact hx.avoidsKeyword hq (hfs _ List.mem_cons_self) (havoid _ List.mem_cons_self)
  | @more f x t fs hx ht ih =>
    obtain ⟨hf, hfs⟩ := List.forall_mem_cons.1 hfs
    obtain ⟨hfa, havoid⟩ := List.forall_mem_cons.1 havoid
    have hcomma : AvoidsKeyword quotes (',' :: t) :=
      avoidsKeyword_cons hq.comma_notMem (by decide) (ih hfs havoid)
    exact (hx.avoidsKeyword hq hf hfa).append (hx.balanced hq hf) hcomma
      (noWord_append_cons Blank.nil (by simp) t).starts

/-- No end of a row stands in a text joined from cells of which only the last one may end with a
parenthesis. -/
theorem Joined.avoidsRowEnd (hfs : ∀ f ∈ fs, Cell quotes f)
    (hclosed : ∀ f ∈ fs.dropLast, ∀ g, f ≠ g ++ [')']) : AvoidsRowEnd quotes t := by
  induction h with
  | last hx =>
    exact avoidsRowEnd_of_avoids hq
      (hx.avoids_char hq (by decide) (hfs _ List.mem_cons_self).avoids_comma)
  | @more f x t fs hx ht ih =>
    obtain ⟨hf, hfs⟩ := List.forall_mem_cons.1 hfs
    rw [List.dropLast_cons_of_ne_nil ht.ne_nil] at hclosed
    obtain ⟨hfc, hclosed⟩ := List.forall_mem_cons.1 hclosed
    have hx' := hx.balanced hq hf.balanced
    have hxa := avoidsRowEnd_of_avoids hq (hx.avoids_char hq (by decide) hf.avoids_comma)
    have hcomma : AvoidsRowEnd quotes [','] := by
      intro a b he _
      cases a <;> simp at he
    -- Behind the last parenthesis of `x`, more than blanks stand in `x`.
    have hmeet : ∀ a b, x = a ++ ')' :: b → ¬ Blank b := by
      intro a b he hb
      have hclose : (a ++ [')']).trim = a.trimLeft ++ [')'] := by
        rw [trim, trimLeft_append_cons (by decide), trimRight_concat (by decide)]
      refine hfc a.trimLeft ?_
      calc f = x.trim := by rw [hx.trim, hf.trimmed]
        _ = ((a ++ [')']) ++ b).trim := by rw [he]; simp
        _ = a.trimLeft ++ [')'] := by rw [trim_append hb, hclose]
    have hleft : AvoidsRowEnd quotes (x ++ [',']) := hxa.append hx' hcomma (.inr hmeet)
    have hbal : Balanced quotes (x ++ [',']) :=
      hx'.append (balanced_singleton hq.comma_notMem)
    have hlast : ∀ a b, x ++ [','] = a ++ ')' :: b → ¬ Blank b := by
      intro a b he hb
      rcases List.eq_nil_or_concat b with rfl | ⟨b, c, rfl⟩
      · simpa using congrArg List.getLast? he
      · rw [List.concat_eq_append] at he hb
        have heq : x ++ [','] = (a ++ ')' :: b) ++ [c] := by simpa using he
        obtain rfl : ',' = c := by simpa using (List.append_inj' heq rfl).2
        exact hb.notMem (by decide) (show ',' ∈ b ++ [','] by simp)
    simpa using hleft.append hbal (ih hfs hclosed) (.inr hlast)

end

end InsertLayout
