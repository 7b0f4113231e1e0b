import AutoDrop.RdDriverStay
import Mathlib.Algebra.BigOperators.Group.List.Basic
import Mathlib.Algebra.Order.Field.Basic
import Mathlib.Algebra.Order.Field.Rat
import Mathlib.Data.List.MinMax
import Mathlib.Tactic.GCongr
import Mathlib.Tactic.Ring

/-!
What the outputs of the two selectable filters are over any sequence of inputs, with resets in
between: a mix of the inputs since the last reset, and the mean of the latest inputs.
-/

namespace AutoDrop

open InputMemory

section Hull

variable {K : Type*} [Field K] [LinearOrder K] [IsStrictOrderedRing K]
  {values : List K} {alpha input prev low high : K}

/-- Between the least and the greatest of the values. -/
def InHull (values : List K) (x : K) : Prop :=
  values.minimum ≤ x ∧ x ≤ values.maximum

omit [Field K] [IsStrictOrderedRing K] in
theorem inHull_iff {x : K} :
    InHull values x ↔ (∃ low ∈ values, low ≤ x) ∧ ∃ high ∈ values, x ≤ high :=
  and_congr List.minimum_le_coe_iff List.coe_le_maximum_iff

omit [Field K] [IsStrictOrderedRing K] in
theorem InHull.mono {more : List K} {x : K} (inside : InHull values x)
    (covered : values ⊆ more) : InHull more x := by
  rw [inHull_iff] at inside ⊢
  obtain ⟨⟨low, lowMem, below⟩, high, highMem, above⟩ := inside
  exact ⟨⟨low, covered lowMem, below⟩, high, covered highMem, above⟩

omit [Field K] [IsStrictOrderedRing K] in
theorem inHull_of_mem {x : K} (member : x ∈ values) : InHull values x :=
  inHull_iff.mpr ⟨⟨x, member, le_rfl⟩, x, member, le_rfl⟩

theorem le_mix (nonneg : 0 ≤ alpha) (atMostOne : alpha ≤ 1) (first : low ≤ input)
    (second : low ≤ prev) : low ≤ alpha * input + (1 - alpha) * prev := by
  have rest : 0 ≤ 1 - alpha := sub_nonneg.mpr atMostOne
  calc
    low = alpha * low + (1 - alpha) * low := by ring
    _ ≤ alpha * input + (1 - alpha) * prev := by gcongr

theorem mix_le (nonneg : 0 ≤ alpha) (atMostOne : alpha ≤ 1) (first : input ≤ high)
    (second : prev ≤ high) : alpha * input + (1 - alpha) * prev ≤ high := by
  have rest : 0 ≤ 1 - alpha := sub_nonneg.mpr atMostOne
  calc
    alpha * input + (1 - alpha) * prev ≤ alpha * high + (1 - alpha) * high := by gcongr
    _ = high := by ring

theorem InHull.mix (nonneg : 0 ≤ alpha) (atMostOne : alpha ≤ 1) (first : InHull values input)
    (second : InHull values prev) : InHull values (alpha * input + (1 - alpha) * prev) := by
  constructor
  · rcases le_total input prev with order | order
    · exact first.1.trans (WithTop.coe_le_coe.mpr (le_mix nonneg atMostOne le_rfl order))
    · exact second.1.trans (WithTop.coe_le_coe.mpr (le_mix nonneg atMostOne order le_rfl))
  · rcases le_total input prev with order | order
    · exact (WithBot.coe_le_coe.mpr (mix_le nonneg atMostOne order le_rfl)).trans second.2
    · exact (WithBot.coe_le_coe.mpr (mix_le nonneg atMostOne le_rfl order)).trans first.2

end Hull

section Runs

variable {F D : Type*} [Add F] [Div F] [Zero F] [NatCast F]
  [Add D] [Sub D] [Mul D] [Zero D] [One D]

/-- The low pass over inputs, each with whether the filter is reset before it, and its last
output. -/
def LowPassFilter.run (alpha : D) (inputs : List (Bool × D)) : LowPassFilter D × D :=
  inputs.foldl
    (fun reached input =>
      (if input.1 then LowPassFilter.reset else reached.1).filter alpha input.2)
    (LowPassFilter.reset, 0)

/-- The calls of `calc_filtered_full_offset`, with the resets between them. -/
def filtersRun (config : RdConfig F D) (inputs : List (Bool × F)) : RdFilters F D × F :=
  inputs.foldl
    (fun reached input =>
      calcFilteredFullOffset config (if input.1 then reached.1.reset else reached.1) input.2)
    (RdFilters.initial, 0)

omit [Add F] [Div F] [Zero F] [NatCast F] in
theorem LowPassFilter.run_concat (alpha : D) (inputs : List (Bool × D)) (input : Bool × D) :
    LowPassFilter.run alpha (inputs ++ [input]) =
      (if input.1 then LowPassFilter.reset else (LowPassFilter.run alpha inputs).1).filter alpha
        input.2 :=
  List.foldl_concat _ _ _ _

theorem filtersRun_concat (config : RdConfig F D) (inputs : List (Bool × F)) (input : Bool × F) :
    filtersRun config (inputs ++ [input]) =
      calcFilteredFullOffset config
        (if input.1 then (filtersRun config inputs).1.reset else (filtersRun config inputs).1)
        input.2 :=
  List.foldl_concat _ _ _ _

/-- No reset reaches the array, so the filter over it takes all inputs as one sequence. -/
theorem filtersRun_several {config : RdConfig F D} (several : 1 < config.filterLength)
    (inputs : List (Bool × F)) :
    (filtersRun config inputs).1.SameSelected config
        (filterFromReset config (inputs.map Prod.snd)).1 ∧
      (filtersRun config inputs).2 = (filterFromReset config (inputs.map Prod.snd)).2 := by
  induction inputs using List.reverseRecOn with
  | nil => exact ⟨RdFilters.sameSelected_refl _, rfl⟩
  | append_singleton inputs input ih =>
      obtain ⟨same, -⟩ := ih
      rw [List.map_append, List.map_singleton, filterFromReset_concat, filtersRun_concat]
      apply RdFilters.SameSelected.calc
      by_cases reset : input.1 = true
      · have kept := same.reset
        rw [if_pos several] at kept
        rwa [if_pos reset]
      · rwa [if_neg reset]

theorem filtersRun_array {config : RdConfig F D} (several : 1 < config.filterLength)
    (inputs : List (Bool × F)) :
    (filtersRun config inputs).1.fullOffsetArray =
      (inputs.map Prod.snd).rtake config.filterLength.toNat := by
  have other : config.filterLength ≠ 1 := by omega
  have same := (filtersRun_several several inputs).1
  rw [RdFilters.SameSelected, if_neg other, if_pos several] at same
  rw [same, filterFromReset_array several]

theorem filtersRun_mean {config : RdConfig F D} (several : 1 < config.filterLength)
    {inputs : List (Bool × F)} (nonempty : inputs ≠ []) :
    (filtersRun config inputs).2 =
      meanOf ((inputs.map Prod.snd).rtake config.filterLength.toNat) := by
  have fed : inputs.map Prod.snd ≠ [] := by simpa using nonempty
  rw [(filtersRun_several several inputs).2, filterFromReset_mean several fed]

end Runs

section LowPass

variable {K : Type*} [Field K] [LinearOrder K] [IsStrictOrderedRing K] {alpha : K}

/-- The first output behind a reset is the input itself, and each later one mixes the next
input into the last output. -/
theorem LowPassFilter.run_inHull (nonneg : 0 ≤ alpha) (atMostOne : alpha ≤ 1)
    {inputs : List (Bool × K)} (nonempty : inputs ≠ []) :
    (LowPassFilter.run alpha inputs).1 = ⟨(LowPassFilter.run alpha inputs).2, true⟩ ∧
      InHull (sinceReset inputs) (LowPassFilter.run alpha inputs).2 := by
  induction inputs using List.reverseRecOn with
  | nil => exact absurd rfl nonempty
  | append_singleton inputs input ih =>
      obtain ⟨reset, input⟩ := input
      rw [LowPassFilter.run_concat, sinceReset_concat]
      refine ⟨rfl, ?_⟩
      have own (kept : List K) : InHull (kept ++ [input]) input := inHull_of_mem (by simp)
      have first (kept : List K) : InHull (kept ++ [input])
          (LowPassFilter.reset.filter alpha input).2 :=
        (own kept).mix nonneg atMostOne (own kept)
      cases reset with
      | true => exact first _
      | false =>
          rcases inputs.eq_nil_or_concat' with rfl | ⟨before, last, split⟩
          · exact first _
          · obtain ⟨held, inside⟩ := ih (by simp [split])
            have prev := inside.mono (List.subset_append_left _ [input])
            have mixed := (own _).mix nonneg atMostOne prev
            rwa [if_neg Bool.false_ne_true, if_neg Bool.false_ne_true, held]

end LowPass

theorem length_latest (inputs : List (Bool × ℚ)) (bound : Nat) :
    ((inputs.map Prod.snd).rtake bound).length = min inputs.length bound := by
  rw [List.rtake, List.length_drop, List.length_map]
  omega

/-- In exact arithmetic the low pass stays between the inputs since its last reset, and the
filter over the array is the mean of the latest inputs, as many as the array holds. -/
theorem filter_outputs (config : RdConfig ℚ ℚ) (inputs : List (Bool × ℚ)) :
    (∀ alpha, 0 ≤ alpha → alpha ≤ 1 → inputs ≠ [] →
      InHull (sinceReset inputs) (LowPassFilter.run alpha inputs).2) ∧
    (1 < config.filterLength →
      (inputs ≠ [] → (filtersRun config inputs).2 =
        ((inputs.map Prod.snd).rtake config.filterLength.toNat).sum /
          (min inputs.length config.filterLength.toNat : Nat)) ∧
      (filtersRun config inputs).1.fullOffsetArray.length ≤ config.filterLength) := by
  constructor
  · intro alpha nonneg atMostOne nonempty
    exact (LowPassFilter.run_inHull nonneg atMostOne nonempty).2
  · intro several
    constructor
    · intro nonempty
      rw [filtersRun_mean several nonempty, meanOf, length_latest, ← List.sum_eq_foldl]
    · rw [filtersRun_array several, length_latest]
      omega

/-- Three inputs with a reset before the second, through both filters. -/
theorem filter_outputs_three :
    InHull [3, 5] (LowPassFilter.run (1 / 20 : ℚ) [(false, 1), (true, 3), (false, 5)]).2 ∧
      (filtersRun (flatConfig 2) [(false, 1), (true, 3), (false, 5)]).2 = 4 ∧
      (filtersRun (flatConfig 2) [(false, 1), (true, 3), (false, 5)]).1.fullOffsetArray.length ≤
        (2 : Int) := by
  have both := filter_outputs (flatConfig 2) [(false, 1), (true, 3), (false, 5)]
  refine ⟨both.1 (1 / 20) (by decide +kernel) (by decide +kernel) (by decide), ?_, ?_⟩
  · apply ((both.2 (by decide)).1 (by decide)).trans
    decide +kernel
  · exact (both.2 (by decide)).2

end AutoDrop
