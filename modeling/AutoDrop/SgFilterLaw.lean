import AutoDrop.RunningExtremum
import AutoDrop.SgFilterCore
import Mathlib.Algebra.Polynomial.BigOperators
import Mathlib.Algebra.Polynomial.Eval.Degree

/-!
Which windows `RealTimeSGFilter` smooths as its name says: polynomials up to its order should
come out unchanged, at the centre of the window.
-/

namespace AutoDrop.RealTimeSGFilter

open InputMemory RowElimination RunningExtremum Polynomial

section Solving

variable {n : Nat} {augmented rows : Fin n → Fin (n + 1) → ℚ} {x solution : Fin n → ℚ}
  {i : Fin n} {count : Nat}

theorem maxRow_eq (augmented : Fin n → Fin (n + 1) → ℚ) (i : Fin n) :
    maxRow augmented i =
      runningMax (i < ·) id (fun k => |augmented k i.castSucc|) i (List.finRange n) := rfl

theorem le_maxRow (augmented : Fin n → Fin (n + 1) → ℚ) (i : Fin n) : i ≤ maxRow augmented i := by
  rw [maxRow_eq]
  rcases runningMax_cases (i < ·) id (fun k => |augmented k i.castSucc|) i (List.finRange n) with
    kept | ⟨k, -, behind, taken⟩
  · rw [kept]
  · rw [taken]
    exact behind.le

theorem eliminate_spec (cleared : Cleared augmented i) (taken : eliminate augmented i = some rows) :
    Cleared rows (i + 1) ∧ ∀ x, Solves rows x ↔ Solves augmented x := by
  have swapped := cleared.swapRows (le_maxRow augmented i)
  simp only [eliminate, Option.ite_none_left_eq_some, Option.some.injEq, not_and] at taken
  obtain ⟨pivot, rfl⟩ := taken
  refine ⟨swapped.clearBelow ?_, fun x => ?_⟩
  · rintro ⟨k, below⟩
    exact pivot (by omega)
  · rw [solves_clearBelow_iff swapped, solves_swapRows_iff]

theorem forward_spec (bound : count ≤ n) (taken : forward augmented count = some rows) :
    Cleared rows count ∧ ∀ x, Solves rows x ↔ Solves augmented x := by
  induction count generalizing rows with
  | zero =>
      obtain rfl := Option.some.inj taken
      exact ⟨cleared_zero, fun _ => Iff.rfl⟩
  | succ count ih =>
      obtain ⟨before, earlier, next⟩ := Option.bind_eq_some_iff.mp taken
      obtain ⟨cleared, same⟩ := ih (by omega) earlier
      rw [dif_pos (show count < n by omega)] at next
      obtain ⟨further, still⟩ := eliminate_spec cleared next
      exact ⟨further, fun x => (still x).trans (same x)⟩

/-- The rows from `count` on are solved, and the rows before them do not matter for it. -/
theorem backward_spec (solved : ∀ i : Fin n, count ≤ i →
      rows i i.castSucc ≠ 0 ∧ x i = rowValue rows x i)
    (taken : backward rows count x = some solution) (i : Fin n) :
    rows i i.castSucc ≠ 0 ∧ solution i = rowValue rows solution i := by
  induction count generalizing x with
  | zero =>
      obtain rfl := Option.some.inj taken
      exact solved i (Nat.zero_le _)
  | succ count ih =>
      unfold backward at taken
      split at taken
      · rename_i inside
        simp only [Option.ite_none_left_eq_some] at taken
        obtain ⟨pivot, rest⟩ := taken
        refine ih (fun k from_ => ?_) rest
        by_cases same : k = ⟨count, inside⟩
        · subst k
          rw [rowValue_update _ _ le_rfl, Function.update_self]
          exact ⟨pivot, rfl⟩
        · have behind : (⟨count, inside⟩ : Fin n) < k :=
            lt_of_le_of_ne from_ fun equal => same equal.symm
          rw [rowValue_update _ _ behind.le, Function.update_of_ne same]
          exact solved k behind
      · rename_i outside
        exact ih (fun k from_ => absurd k.isLt (by omega)) taken

theorem solveSystem_sound {height : Nat} {A : Fin n → Fin n → ℚ} {b : Fin height → ℚ}
    (taken : solveSystem A b = some x) :
    ∃ inside : n ≤ height, ∀ i, ∑ c, A i c * x c = b (Fin.castLE inside i) := by
  unfold solveSystem at taken
  split at taken
  · rename_i inside
    obtain ⟨rows, eliminated, substituted⟩ := Option.bind_eq_some_iff.mp taken
    obtain ⟨cleared, same⟩ := forward_spec le_rfl eliminated
    have solved := backward_spec (fun i from_ => absurd i.isLt (by omega)) substituted
    have solves := (same x).mp
      (solves_of_rowValue cleared (fun i => (solved i).1) fun i => (solved i).2)
    refine ⟨inside, fun i => ?_⟩
    have row := solves i
    simp only [Fin.val_castSucc, Fin.is_lt, ↓reduceDIte, Fin.eta, Fin.val_last,
      lt_self_iff_false] at row
    exact row
  · cases taken

end Solving

section Runs

variable {filter : RealTimeSGFilter} {inputs results : List ℚ} {windowSize polyOrder : Nat}

noncomputable def samples (q : ℚ[X]) (first : ℤ) (count : Nat) : List ℚ :=
  (List.range count).map fun k : Nat => q.eval ((first : ℚ) + (k : ℚ))

/-- From the call on that fills the window, each result is the value of the polynomial at
the centre. -/
def Smooths (windowSize polyOrder : Nat) : Prop :=
  ∃ filter, create windowSize polyOrder = .ok filter ∧
    ∀ q : ℚ[X], q.natDegree ≤ polyOrder → ∀ (first : ℤ) (count : Nat), windowSize ≤ count →
      ∃ results, filter.processAll (samples q first count) = some results ∧
        ∀ k < count, windowSize ≤ k + 1 →
          results[k]? = some (q.eval ((first : ℚ) + k - halfWindow windowSize))

theorem create_eq_ok (created : create windowSize polyOrder = .ok filter) :
    ∃ coefficients, calculateCoefficients windowSize polyOrder = some coefficients ∧
      filter = ⟨[], coefficients, windowSize⟩ := by
  unfold create at created
  split at created
  · cases created
  · split at created
    · cases created
    · split at created
      · cases created
      · rename_i coefficients calculated
        exact ⟨coefficients, calculated, (Except.ok.inj created).symm⟩

theorem calculateCoefficients_eq_some {coefficients : List ℚ}
    (taken : calculateCoefficients windowSize polyOrder = some coefficients) :
    ∃ (column : halfWindow windowSize < polyOrder + 1) (inside : polyOrder + 1 ≤ windowSize)
      (x : Fin (polyOrder + 1) → ℚ), coefficients = List.ofFn x ∧
        ∀ i, ∑ c, normalMatrix windowSize polyOrder i c * x c =
          designMatrix windowSize polyOrder (Fin.castLE inside i) ⟨_, column⟩ := by
  obtain ⟨b, extracted, solved⟩ := Option.bind_eq_some_iff.mp taken
  obtain ⟨x, solution, rfl⟩ := Option.map_eq_some_iff.mp solved
  unfold extractColumn at extracted
  split at extracted
  · rename_i column
    obtain rfl := Option.some.inj extracted
    obtain ⟨inside, solves⟩ := solveSystem_sound solution
    exact ⟨column, inside, x, rfl, solves⟩
  · cases extracted

theorem foldlM_eq_some {coefficients values : List ℚ} {count : Nat} {total result : ℚ}
    (taken : (List.range count).foldlM (fun result i =>
      (coefficients[i]?).bind fun coefficient =>
        (values[i]?).map fun value => result + coefficient * value) total = some result) :
    count ≤ coefficients.length ∧ result =
      total + ∑ i ∈ Finset.range count, coefficients.getD i 0 * values.getD i 0 := by
  induction count generalizing result with
  | zero =>
      simp only [List.range_zero, List.foldlM_nil, Option.pure_def, Option.some.injEq] at taken
      simp [taken]
  | succ count ih =>
      rw [List.range_succ, List.foldlM_append] at taken
      obtain ⟨middle, before, last⟩ := Option.bind_eq_some_iff.mp taken
      obtain ⟨-, rfl⟩ := ih before
      obtain ⟨_, first, last⟩ := Option.bind_eq_some_iff.mp last
      obtain rfl := Option.some.inj last
      obtain ⟨coefficient, there, rest⟩ := Option.bind_eq_some_iff.mp first
      obtain ⟨value, given, rfl⟩ := Option.map_eq_some_iff.mp rest
      have bound : count < coefficients.length := (List.getElem?_eq_some_iff.mp there).1
      refine ⟨bound, ?_⟩
      rw [Finset.sum_range_succ, List.getD_eq_getElem?_getD, List.getD_eq_getElem?_getD, there,
        given, Option.getD_some, Option.getD_some, add_assoc]

theorem pushBounded_room {window : List ℚ} {input : ℚ} (room : window.length < windowSize) :
    pushBounded windowSize window input = window ++ [input] :=
  if_neg (by rw [List.length_append, List.length_singleton]; omega)

theorem processAll_fills {before : List ℚ} {input : ℚ}
    (fills : filter.dataWindow.length + before.length + 1 = filter.windowSize)
    (taken : filter.processAll (before ++ [input]) = some results) :
    { filter with dataWindow := filter.dataWindow ++ (before ++ [input]) }.applyFilter =
      results[before.length]? := by
  induction before generalizing filter results with
  | nil =>
      simp only [List.length_nil, Nat.add_zero] at fills
      obtain ⟨⟨next, result⟩, processed, rest⟩ := Option.bind_eq_some_iff.mp taken
      obtain ⟨others, -, rfl⟩ := Option.map_eq_some_iff.mp rest
      rw [process, pushBounded_room (by omega)] at processed
      simp only [List.length_append, List.length_singleton, fills, lt_self_iff_false,
        ↓reduceIte] at processed
      obtain ⟨value, applied, same⟩ := Option.map_eq_some_iff.mp processed
      obtain ⟨rfl, rfl⟩ := Prod.mk.inj same
      exact applied
  | cons early before ih =>
      simp only [List.length_cons] at fills
      have longer : (filter.dataWindow ++ [early]).length = filter.dataWindow.length + 1 := by
        rw [List.length_append, List.length_singleton]
      obtain ⟨⟨next, result⟩, processed, rest⟩ := Option.bind_eq_some_iff.mp taken
      obtain ⟨others, later, rfl⟩ := Option.map_eq_some_iff.mp rest
      rw [process, pushBounded_room (by omega)] at processed
      dsimp only at processed
      rw [if_pos (by omega)] at processed
      obtain ⟨rfl, rfl⟩ := Prod.mk.inj (Option.some.inj processed)
      have applied := ih (by dsimp only; omega) later
      simpa using applied

theorem samples_succ (q : ℚ[X]) (first : ℤ) (count : Nat) :
    samples q first (count + 1) = samples q first count ++ [q.eval ((first : ℚ) + count)] := by
  rw [samples, List.range_succ, List.map_append, List.map_singleton, samples]

theorem getD_samples {q : ℚ[X]} {first : ℤ} {count i : Nat} (bound : i < count) :
    (samples q first count).getD i 0 = q.eval ((first : ℚ) + i) := by
  simp [samples, List.getD_eq_getElem?_getD, bound]

theorem sum_of_processAll {q : ℚ[X]} {first : ℤ} {coefficients : List ℚ} {value : ℚ} {last : Nat}
    (taken : (RealTimeSGFilter.mk [] coefficients (last + 1)).processAll
      (samples q first (last + 1)) = some results)
    (there : results[last]? = some value) :
    last + 1 ≤ coefficients.length ∧
      ∑ i ∈ Finset.range (last + 1), coefficients.getD i 0 * q.eval ((first : ℚ) + i) = value := by
  have length : (samples q first last).length = last := by simp [samples]
  rw [samples_succ] at taken
  have applied := processAll_fills (by simp [length]) taken
  rw [length, there, ← samples_succ, List.nil_append] at applied
  obtain ⟨bound, rfl⟩ := foldlM_eq_some applied
  refine ⟨bound, ?_⟩
  rw [zero_add]
  refine Finset.sum_congr rfl fun i member => ?_
  rw [getD_samples (Finset.mem_range.mp member)]

/-- A filter that smooths has a coefficient for each value of its window, and weighs each
polynomial to its value in the middle. -/
theorem weights_of_smooths (odd : windowSize % 2 = 1) (smooths : Smooths windowSize polyOrder) :
    windowSize = polyOrder + 1 ∧ ∃ (column : halfWindow windowSize < polyOrder + 1)
      (inside : polyOrder + 1 ≤ windowSize) (x : Fin (polyOrder + 1) → ℚ),
      (∀ i, ∑ c, normalMatrix windowSize polyOrder i c * x c =
        designMatrix windowSize polyOrder (Fin.castLE inside i) ⟨_, column⟩) ∧
      ∀ q : ℚ[X], q.natDegree ≤ polyOrder →
        ∑ i, x i * q.eval ((i : ℚ) - halfWindow windowSize) = q.eval 0 := by
  obtain ⟨filter, created, law⟩ := smooths
  obtain ⟨coefficients, calculated, rfl⟩ := create_eq_ok created
  obtain ⟨column, inside, x, rfl, solves⟩ := calculateCoefficients_eq_some calculated
  obtain ⟨last, rfl⟩ : ∃ last, windowSize = last + 1 := ⟨windowSize - 1, by omega⟩
  have twice : last = halfWindow (last + 1) + halfWindow (last + 1) := by
    unfold halfWindow
    omega
  generalize halfWindow (last + 1) = half at *
  have weighs (q : ℚ[X]) (small : q.natDegree ≤ polyOrder) : last + 1 ≤ polyOrder + 1 ∧
      ∑ i ∈ Finset.range (last + 1), (List.ofFn x).getD i 0 * q.eval ((i : ℚ) - half) =
        q.eval 0 := by
    obtain ⟨results, run, values⟩ := law q small (-half) (last + 1) le_rfl
    have centre := values last (Nat.lt_succ_self last) le_rfl
    obtain ⟨bound, sum⟩ := sum_of_processAll run centre
    have middle : (last : ℚ) = half + half := by exact_mod_cast twice
    rw [List.length_ofFn] at bound
    simp only [Int.cast_neg, Int.cast_natCast, neg_add_eq_sub, middle, add_sub_cancel_right,
      sub_self] at sum
    exact ⟨bound, sum⟩
  have size : last + 1 = polyOrder + 1 := le_antisymm (weighs 0 (by simp)).1 inside
  refine ⟨size, column, inside, x, solves, fun q small => ?_⟩
  rw [← (weighs q small).2, size, Finset.sum_range]
  refine Finset.sum_congr rfl fun i _ => ?_
  rw [List.getD_eq_getElem?_getD, List.getElem?_ofFn, dif_pos i.isLt, Option.getD_some]

end Runs

section Law

variable {order : Nat} {x : Fin (order + 1) → ℚ} {half : Nat}

/-- The polynomial that is zero at every node but `r`. -/
noncomputable def basis (order half : Nat) (r : Fin (order + 1)) : ℚ[X] :=
  ∏ s ∈ Finset.univ.erase r, (X - C ((s : ℚ) - half))

theorem natDegree_basis (r : Fin (order + 1)) : (basis order half r).natDegree ≤ order := by
  rw [basis, natDegree_finsetProd_X_sub_C_eq_card]
  simp

theorem eval_basis (r : Fin (order + 1)) (value : ℚ) :
    (basis order half r).eval value = ∏ s ∈ Finset.univ.erase r, (value - ((s : ℚ) - half)) := by
  simp [basis, eval_prod]

theorem eval_basis_other {r s : Fin (order + 1)} (other : s ≠ r) :
    (basis order half r).eval ((s : ℚ) - half) = 0 := by
  rw [eval_basis]
  exact Finset.prod_eq_zero (Finset.mem_erase.mpr ⟨other, Finset.mem_univ s⟩) (sub_self _)

theorem eval_basis_self (r : Fin (order + 1)) :
    (basis order half r).eval ((r : ℚ) - half) ≠ 0 := by
  rw [eval_basis, Finset.prod_ne_zero_iff]
  intro s member
  have apart : (r : ℚ) ≠ s := by
    intro same
    exact (Finset.mem_erase.mp member).1 (Fin.ext (by exact_mod_cast same.symm))
  rw [sub_sub_sub_cancel_right]
  exact sub_ne_zero.mpr apart

/-- Weights that take each polynomial to its value in the middle look at nothing else. -/
theorem eq_single_of_weights (column : half < order + 1)
    (weighs : ∀ q : ℚ[X], q.natDegree ≤ order → ∑ i, x i * q.eval ((i : ℚ) - half) = q.eval 0)
    (r : Fin (order + 1)) : x r = if r = ⟨half, column⟩ then 1 else 0 := by
  have only := weighs (basis order half r) (natDegree_basis r)
  rw [Finset.sum_eq_single r (fun s _ other => by rw [eval_basis_other other, mul_zero])
    (fun absent => absurd (Finset.mem_univ r) absent)] at only
  have middle : (0 : ℚ) = ((⟨half, column⟩ : Fin (order + 1)) : ℚ) - half := (sub_self _).symm
  have nonzero : (basis order half r).eval ((r : ℚ) - half) ≠ 0 := eval_basis_self r
  split
  · rename_i same
    subst r
    rw [middle] at only
    exact (mul_eq_right₀ nonzero).mp only
  · rename_i other
    rw [middle, eval_basis_other (Ne.symm other)] at only
    exact (mul_eq_zero.mp only).resolve_right nonzero

/-- The equation of the middle column sums squares, and its right side is zero. -/
theorem window_of_smooths {windowSize polyOrder : Nat} (odd : windowSize % 2 = 1)
    (smooths : Smooths windowSize polyOrder) : windowSize = 1 := by
  obtain ⟨rfl, column, inside, x, solves, weighs⟩ := weights_of_smooths odd smooths
  have single := eq_single_of_weights column weighs
  have row := solves ⟨_, column⟩
  rw [Finset.sum_eq_single ⟨_, column⟩ (fun c _ other => by rw [single, if_neg other, mul_zero])
    (fun absent => absurd (Finset.mem_univ _) absent), single, if_pos rfl, mul_one] at row
  by_contra wide
  have positive : halfWindow (polyOrder + 1) ≠ 0 := by
    unfold halfWindow
    omega
  have right : designMatrix (polyOrder + 1) polyOrder (Fin.castLE inside ⟨_, column⟩)
      ⟨_, column⟩ = 0 := by
    simp [designMatrix, positive]
  rw [right, normalMatrix, Finset.sum_eq_zero_iff_of_nonneg fun k _ => mul_self_nonneg _] at row
  have first := mul_self_eq_zero.mp (row ⟨0, by omega⟩ (Finset.mem_univ _))
  simp [designMatrix, positive] at first

theorem calculateCoefficients_one : calculateCoefficients 1 0 = some [1] := by
  simp [calculateCoefficients, extractColumn, halfWindow, solveSystem, forward, backward,
    eliminate, designMatrix, normalMatrix, clearBelow, swapRows, rowValue]

theorem processAll_one (dataWindow inputs : List ℚ) (room : dataWindow.length ≤ 1) :
    (RealTimeSGFilter.mk dataWindow [1] 1).processAll inputs = some inputs := by
  induction inputs generalizing dataWindow with
  | nil => rfl
  | cons input rest ih =>
      have pushed : pushBounded 1 dataWindow input = [input] := by
        cases dataWindow with
        | nil => rfl
        | cons value more =>
            obtain rfl : more = [] := List.eq_nil_of_length_eq_zero (by simpa using room)
            rfl
      have next := ih [input] le_rfl
      simp [processAll, process, pushed, applyFilter, next]

theorem smooths_one : Smooths 1 0 := by
  have created : create 1 0 = .ok ⟨[], [1], 1⟩ := by
    rw [create, calculateCoefficients_one]
    rfl
  refine ⟨_, created, fun q _ first count _ => ⟨_, processAll_one [] _ (Nat.zero_le 1), ?_⟩⟩
  intro k bound _
  simp [samples, halfWindow, bound]

/-- Of all windows and orders that the constructor lets through, only the window of a single
value keeps the law. -/
theorem smooths_iff (windowSize polyOrder : Nat) (odd : windowSize % 2 = 1)
    (small : polyOrder < windowSize) : Smooths windowSize polyOrder ↔ windowSize = 1 := by
  constructor
  · exact window_of_smooths odd
  · rintro rfl
    obtain rfl : polyOrder = 0 := by omega
    exact smooths_one

theorem smooths_iff_single : Smooths 1 0 :=
  (smooths_iff 1 0 (by decide) (by decide)).mpr rfl

/-- The filter of the lidar driver: the column is taken from behind the rows. -/
theorem smooths_fails : create 11 2 = .error .undefinedBehaviour ∧ ¬Smooths 11 2 := by
  have created : create 11 2 = .error .undefinedBehaviour := by rfl
  refine ⟨created, ?_⟩
  rintro ⟨filter, other, -⟩
  rw [created] at other
  cases other

end Law

end AutoDrop.RealTimeSGFilter
