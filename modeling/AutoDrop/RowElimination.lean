import Mathlib.Algebra.BigOperators.Fin
import Mathlib.Algebra.BigOperators.Ring.Finset
import Mathlib.Algebra.Field.Basic
import Mathlib.LinearAlgebra.Matrix.Block
import Mathlib.LinearAlgebra.Matrix.ToLinearEquiv

/-!
Systems of linear equations as rows that hold the right side in their last column. A row
swap and the elimination of a column keep the solutions, and back substitution solves what
is left.
-/

namespace RowElimination

variable {K : Type*} [Field K] {n : Nat}

def Solves (rows : Fin n → Fin (n + 1) → K) (x : Fin n → K) : Prop :=
  ∀ r, ∑ c, rows r c.castSucc * x c = rows r (Fin.last n)

def swapRows (rows : Fin n → Fin (n + 1) → K) (i j : Fin n) : Fin n → Fin (n + 1) → K :=
  fun r => rows (Equiv.swap i j r)

/-- Takes multiples of row `i` from the rows below it, from column `i` on. -/
def clearBelow (rows : Fin n → Fin (n + 1) → K) (i : Fin n) : Fin n → Fin (n + 1) → K :=
  fun k j =>
    if i < k ∧ i.castSucc ≤ j then
      rows k j - rows k i.castSucc / rows i i.castSucc * rows i j
    else rows k j

/-- The columns before `count` are zero below the diagonal. -/
def Cleared (rows : Fin n → Fin (n + 1) → K) (count : Nat) : Prop :=
  ∀ r c : Fin n, c.val < count → c < r → rows r c.castSucc = 0

/-- What row `i` gives for its variable once the variables behind it are known. -/
def rowValue (rows : Fin n → Fin (n + 1) → K) (x : Fin n → K) (i : Fin n) : K :=
  (rows i (Fin.last n) - ∑ j with i < j, rows i j.castSucc * x j) / rows i i.castSucc

variable {rows : Fin n → Fin (n + 1) → K} {x : Fin n → K} {i j k : Fin n}

theorem solves_swapRows_iff : Solves (swapRows rows i j) x ↔ Solves rows x := by
  constructor
  · intro solves r
    have row := solves (Equiv.swap i j r)
    simp only [swapRows, Equiv.swap_apply_self] at row
    exact row
  · intro solves r
    exact solves (Equiv.swap i j r)

theorem cleared_zero : Cleared rows 0 := fun _ _ before => absurd before (Nat.not_lt_zero _)

/-- Rows that are not yet used as pivots are zero in all cleared columns. -/
theorem Cleared.left (cleared : Cleared rows i) (below : i ≤ k) (before : j < i) :
    rows k j.castSucc = 0 :=
  cleared k j before (before.trans_le below)

theorem Cleared.swapRows (cleared : Cleared rows i) (below : i ≤ j) :
    Cleared (swapRows rows i j) i := by
  intro r c before under
  by_cases first : r = i
  · rw [RowElimination.swapRows, first, Equiv.swap_apply_left]
    exact cleared.left below before
  · by_cases second : r = j
    · rw [RowElimination.swapRows, second, Equiv.swap_apply_right]
      exact cleared.left le_rfl before
    · rw [RowElimination.swapRows, Equiv.swap_apply_of_ne_of_ne first second]
      exact cleared r c before under

theorem clearBelow_below (cleared : Cleared rows i) (below : i < k) (j : Fin (n + 1)) :
    clearBelow rows i k j =
      rows k j - rows k i.castSucc / rows i i.castSucc * rows i j := by
  unfold clearBelow
  split
  · rfl
  · rename_i before
    have column : j < i.castSucc := by simpa [below] using before
    have bound : j.val < n := Nat.lt_trans column i.isLt
    have zero : rows i (⟨j.val, bound⟩ : Fin n).castSucc = 0 := cleared.left le_rfl column
    have same : (⟨j.val, bound⟩ : Fin n).castSucc = j := rfl
    rw [same] at zero
    rw [zero, mul_zero, sub_zero]

theorem clearBelow_kept (notBelow : ¬i < k) : clearBelow rows i k = rows k := by
  funext j
  exact if_neg fun both => notBelow both.1

theorem Cleared.clearBelow (cleared : Cleared rows i)
    (pivot : (∃ k, i < k) → rows i i.castSucc ≠ 0) :
    Cleared (clearBelow rows i) (i + 1) := by
  intro r c before under
  by_cases below : i < r
  · rw [clearBelow_below cleared below]
    rcases Nat.lt_succ_iff_lt_or_eq.mp before with earlier | same
    · rw [cleared r c earlier under, cleared.left le_rfl earlier, mul_zero, sub_zero]
    · obtain rfl : c = i := Fin.ext same
      rw [div_mul_cancel₀ _ (pivot ⟨r, below⟩), sub_self]
  · rw [clearBelow_kept below]
    exact cleared r c (by omega) under

theorem solves_clearBelow_iff (cleared : Cleared rows i) :
    Solves (clearBelow rows i) x ↔ Solves rows x := by
  have pivotRow : clearBelow rows i i = rows i := clearBelow_kept (lt_irrefl i)
  have sums (k : Fin n) (below : i < k) :
      ∑ c, clearBelow rows i k c.castSucc * x c =
        ∑ c, rows k c.castSucc * x c -
          rows k i.castSucc / rows i i.castSucc * ∑ c, rows i c.castSucc * x c := by
    rw [Finset.mul_sum, ← Finset.sum_sub_distrib]
    refine Finset.sum_congr rfl fun c _ => ?_
    rw [clearBelow_below cleared below, sub_mul, mul_assoc]
  constructor
  · intro solves k
    have pivot := solves i
    rw [pivotRow] at pivot
    have row := solves k
    by_cases below : i < k
    · rw [sums k below, clearBelow_below cleared below, pivot] at row
      exact sub_left_inj.mp row
    · rw [clearBelow_kept below] at row
      exact row
  · intro solves k
    by_cases below : i < k
    · rw [sums k below, clearBelow_below cleared below, solves k, solves i]
    · rw [clearBelow_kept below]
      exact solves k

/-- In a cleared system a row is a matter of its own variable and those behind it. -/
theorem sum_of_cleared (cleared : Cleared rows n) (x : Fin n → K) (i : Fin n) :
    ∑ c, rows i c.castSucc * x c =
      rows i i.castSucc * x i + ∑ j with i < j, rows i j.castSucc * x j := by
  rw [← Finset.sum_filter_add_sum_filter_not Finset.univ (i < ·), add_comm]
  congr 1
  refine Finset.sum_eq_single i (fun c member other => ?_) (fun absent => ?_)
  · have before : c < i := by
      simp only [Finset.mem_filter, Finset.mem_univ, true_and, not_lt] at member
      exact lt_of_le_of_ne member other
    rw [cleared i c c.isLt before, zero_mul]
  · simp at absent

theorem solves_of_rowValue (cleared : Cleared rows n) (pivots : ∀ i, rows i i.castSucc ≠ 0)
    (values : ∀ i, x i = rowValue rows x i) : Solves rows x := by
  intro i
  rw [sum_of_cleared cleared, values i, rowValue, mul_div_cancel₀ _ (pivots i), sub_add_cancel]

theorem rowValue_update (x : Fin n → K) (value : K) (before : j ≤ i) :
    rowValue rows (Function.update x j value) i = rowValue rows x i := by
  unfold rowValue
  congr 2
  refine Finset.sum_congr rfl fun c member => ?_
  have behind : i < c := by simpa using member
  rw [Function.update_of_ne (before.trans_lt behind).ne']

def coefficientMatrix (rows : Fin n → Fin (n + 1) → K) : Matrix (Fin n) (Fin n) K :=
  fun r c => rows r c.castSucc

theorem solves_iff_mulVec :
    Solves rows x ↔ (coefficientMatrix rows).mulVec x = fun r => rows r (Fin.last n) :=
  funext_iff.symm

theorem det_ne_zero_of_unique (only : ∃! x, Solves rows x) : (coefficientMatrix rows).det ≠ 0 := by
  intro singular
  obtain ⟨y, nonzero, kernel⟩ := Matrix.exists_mulVec_eq_zero_iff.mpr singular
  obtain ⟨x, solves, unique⟩ := only
  have other : Solves rows (x + y) := by
    rw [solves_iff_mulVec, Matrix.mulVec_add, kernel, add_zero]
    exact solves_iff_mulVec.mp solves
  exact nonzero (add_eq_left.mp (unique _ other))

/-- Among the rows that are not yet used as pivots one has an entry in the next column. -/
theorem Cleared.exists_pivot (cleared : Cleared rows i) (only : ∃! x, Solves rows x) :
    ∃ k, i ≤ k ∧ rows k i.castSucc ≠ 0 := by
  by_contra absent
  push Not at absent
  refine det_ne_zero_of_unique only ?_
  have corner (r : Fin n) (left : ¬r < i) (c : Fin n) (used : c < i) :
      coefficientMatrix rows r c = 0 := cleared.left (not_lt.mp left) used
  have block : ((coefficientMatrix rows).toSquareBlockProp fun r => ¬r < i).det = 0 :=
    Matrix.det_eq_zero_of_column_eq_zero ⟨i, lt_irrefl i⟩ fun r => absent r (not_lt.mp r.property)
  rw [Matrix.twoBlockTriangular_det _ (· < i) corner, block, mul_zero]

theorem Cleared.diagonal_ne_zero (cleared : Cleared rows n) (only : ∃! x, Solves rows x)
    (i : Fin n) : rows i i.castSucc ≠ 0 := by
  have earlier : Cleared rows i := fun r c before => cleared r c (by omega)
  obtain ⟨k, below, nonzero⟩ := earlier.exists_pivot only
  obtain rfl : i = k := by
    by_contra other
    exact nonzero (cleared k i i.isLt (lt_of_le_of_ne below other))
  exact nonzero

end RowElimination
