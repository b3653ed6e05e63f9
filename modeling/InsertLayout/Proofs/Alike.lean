import InsertLayout.Proofs.Literals

/-!
# Texts that differ only in quoted contents

`Alike quotes t t'`: the texts differ at most in the contents of their quoted regions, and there not
in the width. This is to have the same skeleton and contents of the same widths
(`sameShape_iff_alike`). Whatever one of two such texts is cut into outside quotes, the other one is
cut into likewise (`Alike.exists_append`), so that they avoid, split and parse alike: the statement
at the same place (`Alike.exists_located`), the same parts of it (`Alike.exists_dissection`).
-/

set_option autoImplicit false

namespace InsertLayout

open Text Statement

variable {quotes : QuoteSet}

/-! ## The relation -/

/-- The texts are the same outside quotes, and in each quoted region as wide as each other. -/
inductive Alike (quotes : QuoteSet) : Text → Text → Prop
  | nil : Alike quotes [] []
  | cons {c : Char} {t t' : Text} : c ∉ quotes → Alike quotes t t' →
      Alike quotes (c :: t) (c :: t')
  | region {q : Char} {x x' t t' : Text} : q ∈ quotes → q ∉ x → q ∉ x' → x.width = x'.width →
      Alike quotes t t' → Alike quotes (q :: (x ++ q :: t)) (q :: (x' ++ q :: t'))
  | opened {q : Char} {x x' : Text} : q ∈ quotes → q ∉ x → q ∉ x' → x.width = x'.width →
      Alike quotes (q :: x) (q :: x')

/-- The same skeleton, and region by region the same width. -/
structure SameShape (quotes : QuoteSet) (t t' : Text) : Prop where
  skeleton_eq : skeleton quotes t = skeleton quotes t'
  widths_eq : (contents quotes t).map width = (contents quotes t').map width

instance (t t' : Text) : Decidable (SameShape quotes t t') :=
  decidable_of_iff
    (skeleton quotes t = skeleton quotes t' ∧
      (contents quotes t).map width = (contents quotes t').map width)
    ⟨fun h => ⟨h.1, h.2⟩, fun h => ⟨h.1, h.2⟩⟩

theorem Alike.sameShape {t t' : Text} (h : Alike quotes t t') : SameShape quotes t t' := by
  induction h with
  | nil => exact ⟨rfl, rfl⟩
  | cons hc _ ih =>
    exact ⟨by rw [skeleton_cons hc, skeleton_cons hc, ih.skeleton_eq],
      by rw [contents_cons hc, contents_cons hc, ih.widths_eq]⟩
  | region hq hx hx' hwidth _ ih =>
    exact ⟨by rw [skeleton_region hq hx, skeleton_region hq hx', ih.skeleton_eq],
      by rw [contents_region hq hx, contents_region hq hx', List.map_cons, List.map_cons, hwidth,
        ih.widths_eq]⟩
  | opened hq hx hx' hwidth =>
    exact ⟨by rw [skeleton_opened hq hx, skeleton_opened hq hx'],
      by rw [contents_opened hq hx, contents_opened hq hx', List.map_singleton,
        List.map_singleton, hwidth]⟩

/-! ## What a skeleton tells of its text -/

theorem eq_nil_of_skeleton {t : Text} (h : skeleton quotes t = []) : t = [] := by
  cases t using regions_induction quotes with
  | nil => rfl
  | char c t hc => simp [skeleton_cons hc] at h
  | region q x t hq hx => simp [skeleton_region hq hx] at h
  | opened q x hq hx => simp [skeleton_opened hq hx] at h

theorem exists_of_skeleton_char {c : Char} (hc : c ∉ quotes) {t s : Text}
    (h : skeleton quotes t = c :: s) : ∃ t', t = c :: t' ∧ skeleton quotes t' = s := by
  cases t using regions_induction quotes with
  | nil => simp at h
  | char d t hd =>
    rw [skeleton_cons hd] at h
    obtain ⟨rfl, hs⟩ := List.cons.inj h
    exact ⟨t, rfl, hs⟩
  | region q x t hq hx =>
    rw [skeleton_region hq hx] at h
    exact absurd hq ((List.cons.inj h).1 ▸ hc)
  | opened q x hq hx =>
    rw [skeleton_opened hq hx] at h
    exact absurd hq ((List.cons.inj h).1 ▸ hc)

theorem exists_of_skeleton_region {q : Char} (hq : q ∈ quotes) {t s : Text}
    (h : skeleton quotes t = q :: q :: s) :
    ∃ x t', q ∉ x ∧ t = q :: (x ++ q :: t') ∧ skeleton quotes t' = s := by
  cases t using regions_induction quotes with
  | nil => simp at h
  | char d t hd =>
    rw [skeleton_cons hd] at h
    exact absurd hq ((List.cons.inj h).1 ▸ hd)
  | region q' x t hq' hx =>
    rw [skeleton_region hq' hx] at h
    obtain ⟨rfl, hs⟩ := List.cons.inj h
    exact ⟨x, t, hx, rfl, (List.cons.inj hs).2⟩
  | opened q' x hq' hx => simp [skeleton_opened hq' hx] at h

theorem exists_of_skeleton_opened {q : Char} (hq : q ∈ quotes) {t : Text}
    (h : skeleton quotes t = [q]) : ∃ x, q ∉ x ∧ t = q :: x := by
  cases t using regions_induction quotes with
  | nil => simp at h
  | char d t hd =>
    rw [skeleton_cons hd] at h
    exact absurd hq ((List.cons.inj h).1 ▸ hd)
  | region q' x t hq' hx => simp [skeleton_region hq' hx] at h
  | opened q' x hq' hx =>
    rw [skeleton_opened hq' hx] at h
    obtain ⟨rfl, -⟩ := List.cons.inj h
    exact ⟨x, hx, rfl⟩

theorem SameShape.alike {t t' : Text} (h : SameShape quotes t t') : Alike quotes t t' := by
  obtain ⟨hs, hw⟩ := h
  induction t using regions_induction quotes generalizing t' with
  | nil =>
    obtain rfl := eq_nil_of_skeleton hs.symm
    exact .nil
  | char c t hc ih =>
    rw [skeleton_cons hc] at hs
    obtain ⟨t', rfl, hs'⟩ := exists_of_skeleton_char hc hs.symm
    rw [contents_cons hc, contents_cons hc] at hw
    exact .cons hc (ih hs'.symm hw)
  | region q x t hq hx ih =>
    rw [skeleton_region hq hx] at hs
    obtain ⟨x', t', hx', rfl, hs'⟩ := exists_of_skeleton_region hq hs.symm
    rw [contents_region hq hx, contents_region hq hx', List.map_cons, List.map_cons] at hw
    obtain ⟨hwidth, hrest⟩ := List.cons.inj hw
    exact .region hq hx hx' hwidth (ih hs'.symm hrest)
  | opened q x hq hx =>
    rw [skeleton_opened hq hx] at hs
    obtain ⟨x', hx', rfl⟩ := exists_of_skeleton_opened hq hs.symm
    rw [contents_opened hq hx, contents_opened hq hx'] at hw
    exact .opened hq hx hx' (List.cons.inj hw).1

theorem sameShape_iff_alike {t t' : Text} : SameShape quotes t t' ↔ Alike quotes t t' :=
  ⟨SameShape.alike, Alike.sameShape⟩

/-! ## Cuts outside quotes -/

namespace Alike

theorem symm {t t' : Text} (h : Alike quotes t t') : Alike quotes t' t := by
  induction h with
  | nil => exact .nil
  | cons hc _ ih => exact .cons hc ih
  | region hq hx hx' hwidth _ ih => exact .region hq hx' hx hwidth.symm ih
  | opened hq hx hx' hwidth => exact .opened hq hx' hx hwidth.symm

theorem of_notMem {t : Text} (h : ∀ c ∈ t, c ∉ quotes) : Alike quotes t t := by
  induction t with
  | nil => exact .nil
  | cons c t ih =>
    obtain ⟨hc, ht⟩ := List.forall_mem_cons.1 h
    exact .cons hc (ih ht)

theorem width_eq {t t' : Text} (h : Alike quotes t t') : t.width = t'.width := by
  induction h with
  | nil => rfl
  | cons _ _ ih => rw [width_cons, width_cons, ih]
  | region _ _ _ hwidth _ ih =>
    rw [width_cons, width_cons, width_append, width_append, hwidth, width_cons, width_cons, ih]
  | opened _ _ _ hwidth => rw [width_cons, width_cons, hwidth]

theorem occursIn_eq {t t' : Text} (h : Alike quotes t t') :
    quotes.occursIn t = quotes.occursIn t' := by
  induction h with
  | nil => rfl
  | cons _ _ ih => simpa [QuoteSet.occursIn] using congrArg (_ || ·) ih
  | region hq => simp [QuoteSet.occursIn, hq]
  | opened hq => simp [QuoteSet.occursIn, hq]

theorem head?_eq {t t' : Text} (h : Alike quotes t t') : t.head? = t'.head? := by
  cases h <;> rfl

theorem balanced {t t' : Text} (h : Alike quotes t t') (ht : Balanced quotes t) :
    Balanced quotes t' := by
  induction h with
  | nil => exact ht
  | cons hc _ ih => exact (balanced_cons_iff hc).2 (ih ((balanced_cons_iff hc).1 ht))
  | region hq hx hx' _ _ ih =>
    exact (balanced_region_iff hq hx').2 (ih ((balanced_region_iff hq hx).1 ht))
  | opened hq hx => exact absurd ht (not_balanced_opened hq hx)

theorem append {s s' t t' : Text} (hs : Alike quotes s s') (hb : Balanced quotes s)
    (ht : Alike quotes t t') : Alike quotes (s ++ t) (s' ++ t') := by
  induction hs with
  | nil => exact ht
  | cons hc _ ih => exact .cons hc (ih ((balanced_cons_iff hc).1 hb))
  | region hq hx hx' hwidth _ ih =>
    simpa using Alike.region hq hx hx' hwidth (ih ((balanced_region_iff hq hx).1 hb))
  | opened hq hx => exact absurd hb (not_balanced_opened hq hx)

/-- A cut outside quotes has a counterpart. -/
theorem exists_append {s t u : Text} (h : Alike quotes (s ++ t) u) (hs : Balanced quotes s) :
    ∃ s' t', u = s' ++ t' ∧ Alike quotes s s' ∧ Alike quotes t t' := by
  generalize hv : s ++ t = v at h
  induction h generalizing s with
  | nil =>
    obtain ⟨rfl, rfl⟩ := List.append_eq_nil_iff.1 hv
    exact ⟨[], [], rfl, .nil, .nil⟩
  | @cons c r r' hc hr ih =>
    rcases List.append_eq_cons_iff.1 hv with ⟨rfl, rfl⟩ | ⟨s, rfl, rfl⟩
    · exact ⟨[], c :: r', rfl, .nil, .cons hc hr⟩
    · obtain ⟨s', t', rfl, hs', ht'⟩ := ih ((balanced_cons_iff hc).1 hs) rfl
      exact ⟨c :: s', t', rfl, .cons hc hs', ht'⟩
  | @region q x x' r r' hq hx hx' hwidth hr ih =>
    rcases List.append_eq_cons_iff.1 hv with ⟨rfl, rfl⟩ | ⟨s, rfl, he⟩
    · exact ⟨[], _, rfl, .nil, .region hq hx hx' hwidth hr⟩
    · have hopened (y : Text) (hy : x = s ++ y) : False :=
        not_balanced_opened hq (fun hmem => hx (hy ▸ List.mem_append_left y hmem)) hs
      rcases List.append_eq_append_iff.1 he with ⟨y, rfl, hy⟩ | ⟨y, hy, -⟩
      · -- The region starts and ends in `s`, or `s` ends where it does.
        rcases List.cons_eq_append_iff.1 hy with ⟨rfl, -⟩ | ⟨y, rfl, rfl⟩
        · exact (hopened [] (by simp)).elim
        · obtain ⟨s', t', rfl, hs', ht'⟩ := ih ((balanced_region_iff hq hx).1 hs) rfl
          exact ⟨q :: (x' ++ q :: s'), t', by simp, .region hq hx hx' hwidth hs', ht'⟩
      · exact (hopened y hy).elim
  | @opened q x x' hq hx hx' hwidth =>
    rcases List.append_eq_cons_iff.1 hv with ⟨rfl, rfl⟩ | ⟨s, rfl, rfl⟩
    · exact ⟨[], _, rfl, .nil, .opened hq hx hx' hwidth⟩
    · exact absurd hs (not_balanced_opened hq fun hmem => hx (List.mem_append_left t hmem))

/-- Text without quotes stands in both texts. -/
theorem exists_notMem {n t u : Text} (h : Alike quotes (n ++ t) u) (hn : ∀ c ∈ n, c ∉ quotes) :
    ∃ t', u = n ++ t' ∧ Alike quotes t t' := by
  induction n generalizing u with
  | nil => exact ⟨u, rfl, h⟩
  | cons c n ih =>
    obtain ⟨hc, hn⟩ := List.forall_mem_cons.1 hn
    rw [List.cons_append] at h
    generalize hv : n ++ t = v at h
    cases h with
    | cons _ h =>
      obtain ⟨t', rfl, ht⟩ := ih (hv ▸ h) hn
      exact ⟨t', rfl, ht⟩
    | region hq => exact absurd hq hc
    | opened hq => exact absurd hq hc

theorem exists_cons {c : Char} {t u : Text} (h : Alike quotes (c :: t) u) (hc : c ∉ quotes) :
    ∃ t', u = c :: t' ∧ Alike quotes t t' :=
  exists_notMem (n := [c]) h (by simpa using hc)

theorem eq_of_notMem {n u : Text} (h : Alike quotes n u) (hn : ∀ c ∈ n, c ∉ quotes) : u = n := by
  rw [← List.append_nil n] at h
  obtain ⟨t', rfl, ht⟩ := h.exists_notMem hn
  cases ht
  exact List.append_nil n

end Alike

/-! ## Texts with closed quotes -/

/-- The texts are alike, and close their quotes. -/
structure Twin (quotes : QuoteSet) (t t' : Text) : Prop where
  alike : Alike quotes t t'
  balanced : Balanced quotes t

namespace Twin

theorem symm {t t' : Text} (h : Twin quotes t t') : Twin quotes t' t :=
  ⟨h.alike.symm, h.alike.balanced h.balanced⟩

theorem of_notMem {t : Text} (h : ∀ c ∈ t, c ∉ quotes) : Twin quotes t t :=
  ⟨.of_notMem h, balanced_of_notMem h⟩

theorem append {s s' t t' : Text} (hs : Twin quotes s s') (ht : Twin quotes t t') :
    Twin quotes (s ++ t) (s' ++ t') :=
  ⟨hs.alike.append hs.balanced ht.alike, hs.balanced.append ht.balanced⟩

theorem cons {c : Char} (hc : c ∉ quotes) {t t' : Text} (h : Twin quotes t t') :
    Twin quotes (c :: t) (c :: t') := ⟨.cons hc h.alike, (balanced_cons_iff hc).2 h.balanced⟩

theorem singleton {c : Char} (hc : c ∉ quotes) : Twin quotes [c] [c] :=
  of_notMem (by simpa using hc)

/-- What is left behind a part without open quotes. -/
theorem of_append {s s' t t' : Text} (h : Twin quotes (s ++ t) (s' ++ t'))
    (hs : Twin quotes s s') (ht : Alike quotes t t') : Twin quotes t t' :=
  ⟨ht, (balanced_append_iff hs.balanced).1 h.balanced⟩

end Twin

theorem Alike.exists_twin {s t u : Text} (h : Alike quotes (s ++ t) u) (hs : Balanced quotes s) :
    ∃ s' t', u = s' ++ t' ∧ Twin quotes s s' ∧ Alike quotes t t' := by
  obtain ⟨s', t', rfl, hs', ht⟩ := h.exists_append hs
  exact ⟨s', t', rfl, ⟨hs', hs⟩, ht⟩

/-- An unquoted place of one text is one of the other, too. -/
theorem Alike.exists_place {t a' b' : Text} (h : Alike quotes t (a' ++ b'))
    (ha : Balanced quotes a') : ∃ a b, t = a ++ b ∧ Twin quotes a a' ∧ Alike quotes b b' := by
  obtain ⟨a, b, rfl, ha, hb⟩ := h.symm.exists_twin ha
  exact ⟨a, b, rfl, ha.symm, hb.symm⟩

/-! ## Searching and trimming -/

theorem Alike.avoids {n t t' : Text} (h : Alike quotes t t') (hn : ∀ c ∈ n, c ∉ quotes)
    (havoid : Avoids quotes n t) : Avoids quotes n t' := by
  rintro a' b' rfl ha'
  rw [List.append_assoc] at h
  obtain ⟨a, r, rfl, ha, hr⟩ := h.exists_place ha'
  obtain ⟨b, rfl, -⟩ := hr.symm.exists_notMem hn
  exact havoid a b (by simp) ha.balanced

theorem Alike.continuesWord_eq {t t' : Text} (h : Alike quotes t t') :
    continuesWord t = continuesWord t' := by
  cases h <;> rfl

theorem Alike.startsWithRow_eq {t t' : Text} (h : Alike quotes t t') :
    startsWithRow t = startsWithRow t' := by
  cases h <;> rfl

section
variable (hq : quotes.Plain)
include hq

theorem Alike.keyword?_eq_none {t t' : Text} (h : Alike quotes t t') (hnone : keyword? t = none) :
    keyword? t' = none := by
  rw [Option.eq_none_iff_forall_ne_some]
  rintro ⟨k, rest'⟩ hsome
  obtain ⟨hk, hword, b, hb, rfl⟩ := keyword?_eq_some_iff.1 hsome
  obtain ⟨rest, rfl, hrest⟩ := h.symm.exists_notMem fun c hc => by
    rcases List.mem_append.1 hc with hc | hc
    · exact hq.notMem_of_mem_blank hb c hc
    · exact hq.notMem_of_letter (isKeywordLetter_of_mem hk hc)
  rw [keyword?_eq_some_iff.2 ⟨hk, hrest.continuesWord_eq ▸ hword, b, hb, rfl⟩] at hnone
  cases hnone

theorem Alike.avoidsKeyword {t t' : Text} (h : Alike quotes t t')
    (havoid : AvoidsKeyword quotes t) : AvoidsKeyword quotes t' := by
  rintro a' b' rfl ha'
  obtain ⟨a, r, rfl, ha, hr⟩ := h.exists_place ha'
  obtain ⟨b, rfl, hb⟩ := hr.symm.exists_cons hq.close_notMem
  exact hb.symm.keyword?_eq_none hq (havoid a b rfl ha.balanced)

theorem Alike.trimLeft {t t' : Text} (h : Alike quotes t t') :
    Alike quotes t.trimLeft t'.trimLeft := by
  obtain ⟨b, hb, ht⟩ := exists_trimLeft t
  rw [ht] at h
  obtain ⟨r, rfl, hr⟩ := h.exists_notMem (hq.notMem_of_mem_blank hb)
  have hleft : r.trimLeft = r := by
    cases r with
    | nil => rfl
    | cons c r =>
      obtain ⟨s, hs⟩ := List.head?_eq_some_iff.1 hr.head?_eq
      exact trimLeft_cons (isBlank_of_trimLeft hs) r
  rwa [trimLeft_append hb, hleft]

theorem Alike.avoidsRowEnd {t t' : Text} (h : Alike quotes t t')
    (havoid : AvoidsRowEnd quotes t) : AvoidsRowEnd quotes t' := by
  rintro a' b' rfl ha'
  obtain ⟨a, r, rfl, ha, hr⟩ := h.exists_place ha'
  obtain ⟨b, rfl, hb⟩ := hr.symm.exists_cons hq.close_notMem
  rw [(hb.trimLeft hq).head?_eq]
  exact havoid a b rfl ha.balanced

theorem Twin.bounded {t t' : Text} (h : Twin quotes t t') (ht : t.Bounded) : t'.Bounded where
  head c s hs := by
    obtain ⟨u, hu⟩ := List.head?_eq_some_iff.1 (h.alike.head?_eq.trans (by rw [hs]; rfl))
    exact ht.head c u hu
  last s c hs := by
    by_contra hblank
    have hc : ∀ d ∈ [c], d ∉ quotes := by
      simpa using hq.notMem_of_blank (Bool.not_eq_false _ ▸ hblank)
    have halike := h.alike
    rw [hs] at halike
    obtain ⟨a, r, rfl, -, hr⟩ := halike.exists_place ((hs ▸ h.symm.balanced).of_append_notMem hc)
    obtain rfl := hr.symm.eq_of_notMem hc
    exact hblank (ht.last a c rfl)

theorem Twin.trim {t t' : Text} (h : Twin quotes t t') : Twin quotes t.trim t'.trim := by
  obtain ⟨a, b, ha, hb, ht⟩ := exists_trim t
  have halike := h.alike
  rw [ht, List.append_assoc] at halike
  obtain ⟨r, rfl, hr⟩ := halike.exists_notMem (hq.notMem_of_mem_blank ha)
  obtain ⟨m, b', rfl, hm, hb'⟩ := hr.exists_twin (h.balanced.trim hq)
  obtain rfl := hb'.eq_of_notMem (hq.notMem_of_mem_blank hb)
  rwa [← List.append_assoc, trim_eq ha hb (hm.bounded hq (bounded_trim t))]

/-- The pieces between commas correspond. -/
theorem Twin.forall₂_split {t t' : Text} (h : Twin quotes t t') :
    List.Forall₂ (Twin quotes) ((Needle.char ',').split quotes t)
      ((Needle.char ',').split quotes t') := by
  have hcomma : ',' ∉ quotes := hq.comma_notMem
  induction t using Needle.split_induction quotes ',' generalizing t' with
  | last t havoid =>
    rw [Needle.split_of_avoids havoid,
      Needle.split_of_avoids (h.alike.avoids (by simpa using hcomma) havoid)]
    exact .cons h .nil
  | more a t ha havoid ih =>
    obtain ⟨a', r, rfl, ha', hr⟩ := h.alike.exists_twin ha
    obtain ⟨t', rfl, ht⟩ := hr.exists_cons hcomma
    have hbal : Balanced quotes t :=
      (balanced_cons_iff hcomma).1 ((balanced_append_iff ha).1 h.balanced)
    rw [Needle.split_append_cons ha havoid, Needle.split_append_cons ha'.symm.balanced
      (ha'.alike.avoids (by simpa using hcomma) havoid)]
    exact .cons ha' (ih ⟨ht, hbal⟩)

/-- The fields of a row correspond. -/
theorem Twin.forall₂_rowFields {x x' : Text} (h : Twin quotes x x') :
    List.Forall₂ (Twin quotes) (rowFields quotes x) (rowFields quotes x') := by
  have hleft := h.alike.trimLeft hq
  have hopening : rowOpening x' = rowOpening x := by
    unfold rowOpening
    rw [hleft.head?_eq]
  have hnotMem : ∀ c ∈ rowOpening x, c ∉ quotes := by
    unfold rowOpening
    split
    · simpa using hq.open_notMem
    · simp
  have hbal : Balanced quotes (stripOpen x.trimLeft) := by
    obtain ⟨b, hb, hx⟩ := exists_trimLeft x
    have hx' := h.balanced
    rw [hx, rowOpening_append, balanced_append_iff (balanced_blank hq hb)] at hx'
    exact (balanced_append_iff (balanced_of_notMem hnotMem)).1 hx'
  rw [rowOpening_append x, rowOpening_append x', hopening] at hleft
  obtain ⟨u, hu, hstrip⟩ := hleft.exists_notMem hnotMem
  obtain rfl := List.append_cancel_left hu
  exact List.rel_map (fun _ _ h => h.trim hq) (Twin.forall₂_split hq ⟨hstrip, hbal⟩)

end

end InsertLayout
