import InsertLayout.Proofs.Outline

/-!
# The order of paths

Texts are compared by their first characters that differ, and paths by their first steps that
differ: both are instances of `lexLe`. It is a total order if that of the elements is one
(`lexLe_total`, `lexLe_antisymm`, `lexLe_trans`), and so the files that a walk finds stand in the
order of their paths (`FileTree.pairwise_filesAt`).
-/

set_option autoImplicit false

namespace InsertLayout

namespace Path

/-! ## Lists compared by their first difference -/

/-- Whether a list comes before another one or equals it, by the first elements that differ. -/
def lexLe {α : Type} [DecidableEq α] (le : α → α → Bool) : List α → List α → Bool
  | [], _ => true
  | _ :: _, [] => false
  | a :: s, b :: t => if a = b then lexLe le s t else le a b

section
variable {α : Type} [DecidableEq α] {le : α → α → Bool}

theorem lexLe_total (total : ∀ a b, (le a b || le b a) = true) (s t : List α) :
    (lexLe le s t || lexLe le t s) = true := by
  induction s generalizing t with
  | nil => rfl
  | cons a s ih =>
    cases t with
    | nil => simp [lexLe]
    | cons b t =>
      unfold lexLe
      by_cases h : a = b
      · rw [if_pos h, if_pos h.symm]
        exact ih t
      · rw [if_neg h, if_neg (Ne.symm h)]
        exact total a b

theorem lexLe_antisymm (antisymm : ∀ a b, le a b = true → le b a = true → a = b) {s t : List α}
    (hst : lexLe le s t = true) (hts : lexLe le t s = true) : s = t := by
  induction s generalizing t with
  | nil =>
    cases t with
    | nil => rfl
    | cons b t => cases hts
  | cons a s ih =>
    cases t with
    | nil => cases hst
    | cons b t =>
      unfold lexLe at hst hts
      by_cases h : a = b
      · rw [if_pos h] at hst
        rw [if_pos h.symm] at hts
        rw [h, ih hst hts]
      · rw [if_neg h] at hst
        rw [if_neg (Ne.symm h)] at hts
        exact absurd (antisymm a b hst hts) h

theorem lexLe_trans (antisymm : ∀ a b, le a b = true → le b a = true → a = b)
    (trans : ∀ a b c, le a b = true → le b c = true → le a c = true) {s t u : List α}
    (hst : lexLe le s t = true) (htu : lexLe le t u = true) : lexLe le s u = true := by
  induction s generalizing t u with
  | nil => rfl
  | cons a s ih =>
    cases t with
    | nil => cases hst
    | cons b t =>
      cases u with
      | nil => cases htu
      | cons c u =>
        unfold lexLe at hst htu ⊢
        by_cases hab : a = b
        · subst hab
          rw [if_pos rfl] at hst
          by_cases hac : a = c
          · rw [if_pos hac] at htu ⊢
            exact ih hst htu
          · rwa [if_neg hac] at htu ⊢
        · rw [if_neg hab] at hst
          by_cases hbc : b = c
          · subst hbc
            rwa [if_neg hab]
          · rw [if_neg hbc] at htu
            -- Only here do the first differences stand at the same index.
            have hac : a ≠ c := fun h => hbc (antisymm b c htu (h ▸ hst))
            rw [if_neg hac]
            exact trans a b c hst htu

end

/-! ## Texts -/

theorem textLe_eq (s t : Text) :
    textLe s t = lexLe (fun a b => decide (a.toNat ≤ b.toNat)) s t := by
  fun_induction textLe s t with
  | case1 | case2 => simp [lexLe]
  | case3 s b t ih => simpa [lexLe] using ih
  | case4 a s b t h =>
    have hne : a.toNat ≠ b.toNat := fun he => h (Char.toNat_inj.1 he)
    simp only [lexLe, if_neg h, decide_eq_decide]
    omega

theorem toNat_antisymm (a b : Char) (hab : decide (a.toNat ≤ b.toNat) = true)
    (hba : decide (b.toNat ≤ a.toNat) = true) : a = b :=
  Char.toNat_inj.1 (Nat.le_antisymm (of_decide_eq_true hab) (of_decide_eq_true hba))

theorem textLe_total (s t : Text) : (textLe s t || textLe t s) = true := by
  rw [textLe_eq, textLe_eq]
  refine lexLe_total (fun a b => ?_) s t
  simpa using Nat.le_total a.toNat b.toNat

theorem textLe_antisymm {s t : Text} (hst : textLe s t = true) (hts : textLe t s = true) :
    s = t := by
  rw [textLe_eq] at hst hts
  exact lexLe_antisymm toNat_antisymm hst hts

theorem textLe_trans {s t u : Text} (hst : textLe s t = true) (htu : textLe t u = true) :
    textLe s u = true := by
  rw [textLe_eq] at hst htu ⊢
  refine lexLe_trans toNat_antisymm (fun a b c hab hbc => ?_) hst htu
  simp only [decide_eq_true_eq] at hab hbc ⊢
  omega

/-! ## Paths -/

theorem Component.le_total (a b : Component) : (a.le b || b.le a) = true := by
  cases a <;> cases b <;> simp [le, textLe_total]

theorem Component.le_antisymm (a b : Component) (hab : a.le b = true) (hba : b.le a = true) :
    a = b := by
  cases a <;> cases b <;> simp_all [le]
  exact textLe_antisymm hab hba

theorem Component.le_trans (a b c : Component) (hab : a.le b = true) (hbc : b.le c = true) :
    a.le c = true := by
  cases a <;> cases b <;> cases c <;> simp_all [le]
  exact textLe_trans hab hbc

theorem componentsLe_eq (p q : List Component) : componentsLe p q = lexLe Component.le p q := by
  fun_induction componentsLe p q with
  | case1 | case2 => simp [lexLe]
  | case3 s b t ih => simpa [lexLe] using ih
  | case4 a s b t h => simp [lexLe, h]

theorem le_total (p q : Path) : (le p q || le q p) = true := by
  unfold le
  rw [componentsLe_eq, componentsLe_eq]
  exact lexLe_total Component.le_total _ _

theorem le_trans (p q r : Path) (hpq : le p q = true) (hqr : le q r = true) : le p r = true := by
  unfold le at hpq hqr ⊢
  rw [componentsLe_eq] at hpq hqr ⊢
  exact lexLe_trans Component.le_antisymm Component.le_trans hpq hqr

end Path

/-- The files that a path stands for are in the order of their paths. -/
theorem FileTree.pairwise_filesAt {tree : FileTree} {path : Path} {files : List Path}
    (h : tree.filesAt path = .ok files) : files.Pairwise fun a b => Path.le a b = true := by
  unfold filesAt sqlFiles at h
  split at h
  · cases hresolve : tree.resolve path with
    | error e =>
      rw [hresolve] at h
      cases h
    | ok location =>
      rw [hresolve] at h
      dsimp only at h
      cases hcollect : tree.collect [] path location tree.depthBound with
      | error e =>
        rw [hcollect] at h
        cases h
      | ok found =>
        rw [hcollect] at h
        obtain rfl := Except.ok.inj h
        exact List.pairwise_mergeSort Path.le_trans Path.le_total found
  · obtain rfl := Except.ok.inj h
    exact List.pairwise_singleton _ _

end InsertLayout
