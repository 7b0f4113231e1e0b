import AutoDrop.SgFilterLaw

/-!
`solveSystem` on nonsingular systems: partial pivoting never ends up with a zero on the
diagonal, as the rows keep their one solution through the elimination.
-/

namespace AutoDrop.RealTimeSGFilter

open RowElimination RunningExtremum

variable {n : Nat} {augmented rows : Fin n → Fin (n + 1) → ℚ} {i k : Fin n} {count : Nat}

theorem abs_le_maxRow (augmented : Fin n → Fin (n + 1) → ℚ) (below : i ≤ k) :
    |augmented k i.castSucc| ≤ |augmented (maxRow augmented i) i.castSucc| := by
  rw [maxRow_eq]
  rcases below.eq_or_lt with rfl | behind
  · exact size_start_le _ _ (fun k => |augmented k i.castSucc|) i _
  · exact size_take_le _ _ (fun k => |augmented k i.castSucc|) i (List.mem_finRange k) behind

theorem eliminate_total (cleared : Cleared augmented i) (only : ∃! x, Solves augmented x) :
    ∃ rows, eliminate augmented i = some rows := by
  obtain ⟨k, below, nonzero⟩ := cleared.exists_pivot only
  have pivot : swapRows augmented i (maxRow augmented i) i i.castSucc ≠ 0 := by
    rw [swapRows, Equiv.swap_apply_left]
    intro zero
    have bound := abs_le_maxRow augmented below
    rw [zero, abs_zero] at bound
    exact nonzero (abs_nonpos_iff.mp bound)
  exact ⟨_, if_neg fun both => pivot both.2⟩

theorem forward_total (only : ∃! x, Solves augmented x) (bound : count ≤ n) :
    ∃ rows, forward augmented count = some rows := by
  induction count with
  | zero => exact ⟨augmented, rfl⟩
  | succ count ih =>
      obtain ⟨before, earlier⟩ := ih (by omega)
      obtain ⟨cleared, same⟩ := forward_spec (by omega) earlier
      have inside : count < n := by omega
      have still : ∃! x, Solves before x := by simpa only [same] using only
      have clearedHere : Cleared before (⟨count, inside⟩ : Fin n) := cleared
      obtain ⟨rows, taken⟩ := eliminate_total clearedHere still
      exact ⟨rows, by rw [forward, earlier, Option.bind_some, dif_pos inside, taken]⟩

theorem backward_total (pivots : ∀ i, rows i i.castSucc ≠ 0) (count : Nat) (x : Fin n → ℚ) :
    ∃ solution, backward rows count x = some solution := by
  induction count generalizing x with
  | zero => exact ⟨x, rfl⟩
  | succ count ih =>
      unfold backward
      split
      · dsimp only
        rw [if_neg (pivots _)]
        exact ih _
      · exact ih x

theorem unique_of_det_ne_zero (A : Matrix (Fin n) (Fin n) ℚ) (nonsingular : A.det ≠ 0)
    (b : Fin n → ℚ) : ∃! x, A.mulVec x = b := by
  have unit : IsUnit A.det := isUnit_iff_ne_zero.mpr nonsingular
  refine ⟨A⁻¹.mulVec b, ?_, fun x solves => ?_⟩
  · dsimp only
    rw [Matrix.mulVec_mulVec, Matrix.mul_nonsing_inv _ unit, Matrix.one_mulVec]
  · rw [← solves, Matrix.mulVec_mulVec, Matrix.nonsing_inv_mul _ unit, Matrix.one_mulVec]

def augment (A : Matrix (Fin n) (Fin n) ℚ) (b : Fin n → ℚ) : Fin n → Fin (n + 1) → ℚ :=
  fun i j => if column : j.val < n then A i ⟨j, column⟩ else b i

theorem solves_augment_iff (A : Matrix (Fin n) (Fin n) ℚ) (b x : Fin n → ℚ) :
    Solves (augment A b) x ↔ A.mulVec x = b := by
  have left : coefficientMatrix (augment A b) = A := by
    funext r c
    exact dif_pos c.isLt
  have right : (fun r => augment A b r (Fin.last n)) = b := by
    funext r
    exact dif_neg (lt_irrefl n)
  rw [solves_iff_mulVec, left, right]

/-- Every nonsingular system is solved, without a division by zero on the way. -/
theorem solveSystem_spec (A : Matrix (Fin n) (Fin n) ℚ) (b : Fin n → ℚ)
    (nonsingular : A.det ≠ 0) : ∃ x, solveSystem A b = some x ∧ A.mulVec x = b := by
  have only : ∃! x, Solves (augment A b) x := by
    simpa only [solves_augment_iff] using unique_of_det_ne_zero A nonsingular b
  obtain ⟨rows, eliminated⟩ := forward_total only le_rfl
  obtain ⟨cleared, same⟩ := forward_spec le_rfl eliminated
  have still : ∃! x, Solves rows x := by simpa only [same] using only
  obtain ⟨x, substituted⟩ := backward_total (cleared.diagonal_ne_zero still) n fun _ => 0
  have taken : solveSystem A b = some x := by
    unfold solveSystem
    rw [dif_pos le_rfl]
    exact Option.bind_eq_some_iff.mpr ⟨rows, eliminated, substituted⟩
  obtain ⟨_, solves⟩ := solveSystem_sound taken
  exact ⟨x, taken, funext solves⟩

/-- The first pivot is zero before the rows are swapped. -/
theorem solveSystem_spec_swapped :
    ∃ x, solveSystem !![0, 1; 1, 0] ![2, 3] = some x ∧ !![0, 1; 1, 0].mulVec x = ![2, 3] :=
  solveSystem_spec !![0, 1; 1, 0] ![2, 3] (by simp [Matrix.det_fin_two])

end AutoDrop.RealTimeSGFilter
