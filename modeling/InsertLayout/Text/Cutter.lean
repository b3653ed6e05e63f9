/-!
# Cutting into pieces

A cutter takes one piece after another off a state that shrinks with each piece. `Cutter.run`
repeats it to the end and returns the pieces in order, with the state from which no more can be
taken; `run_of_none` and `run_of_some` are its equations.
-/

set_option autoImplicit false

namespace InsertLayout

/-- A step that takes a piece and leaves a smaller state. -/
structure Cutter (σ α : Type) where
  /-- What every step decreases. -/
  size : σ → Nat
  /-- The next piece and the state after it. -/
  next? : σ → Option (α × σ)
  size_lt : ∀ {s s' : σ} {a : α}, next? s = some (a, s') → size s' < size s

namespace Cutter

variable {σ α : Type}

/-- Goes on cutting, with the pieces so far in reverse. -/
def runFrom (cutter : Cutter σ α) (done : List α) (s : σ) : List α × σ :=
  match _hnext : cutter.next? s with
  | none => (done.reverse, s)
  | some (a, s') => runFrom cutter (a :: done) s'
termination_by cutter.size s
decreasing_by exact cutter.size_lt _hnext

/-- All pieces in order, and the state that is left. -/
def run (cutter : Cutter σ α) (s : σ) : List α × σ := cutter.runFrom [] s

theorem runFrom_eq (cutter : Cutter σ α) (done : List α) (s : σ) :
    cutter.runFrom done s = (done.reverse ++ (cutter.run s).1, (cutter.run s).2) := by
  induction h : cutter.size s using Nat.strongRecOn generalizing done s with
  | ind n ih =>
    subst h
    rw [run, runFrom, runFrom]
    split
    · simp
    · rename_i a s' hs
      have hlt := cutter.size_lt hs
      rw [ih _ hlt (a :: done) s' rfl, ih _ hlt [a] s' rfl]
      simp

theorem run_of_none {cutter : Cutter σ α} {s : σ} (h : cutter.next? s = none) :
    cutter.run s = ([], s) := by
  rw [run, runFrom]
  split
  · rfl
  · simp_all

theorem run_of_some {cutter : Cutter σ α} {s s' : σ} {a : α} (h : cutter.next? s = some (a, s')) :
    cutter.run s = (a :: (cutter.run s').1, (cutter.run s').2) := by
  rw [run, runFrom]
  split
  · simp_all
  · rename_i hs
    rw [h] at hs
    obtain ⟨rfl, rfl⟩ := by simpa using hs
    rw [runFrom_eq]
    rfl

/-- No piece can be taken off what is left. -/
theorem next?_run (cutter : Cutter σ α) (s : σ) : cutter.next? (cutter.run s).2 = none := by
  induction h : cutter.size s using Nat.strongRecOn generalizing s with
  | ind n ih =>
    subst h
    cases hs : cutter.next? s with
    | none => rw [run_of_none hs]; exact hs
    | some p =>
      rw [run_of_some hs]
      exact ih _ (cutter.size_lt hs) p.2 rfl

theorem size_run_le (cutter : Cutter σ α) (s : σ) :
    cutter.size (cutter.run s).2 ≤ cutter.size s := by
  induction h : cutter.size s using Nat.strongRecOn generalizing s with
  | ind n ih =>
    subst h
    cases hs : cutter.next? s with
    | none => exact Nat.le_of_eq (congrArg (cutter.size ·.2) (run_of_none hs))
    | some p =>
      have hlt := cutter.size_lt hs
      rw [run_of_some hs]
      exact Nat.le_trans (ih _ hlt p.2 rfl) (Nat.le_of_lt hlt)

end Cutter

end InsertLayout
