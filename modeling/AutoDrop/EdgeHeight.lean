import AutoDrop.CloudPickup
import Mathlib.Algebra.BigOperators.Ring.Finset
import Mathlib.Algebra.Order.BigOperators.Group.Finset
import Mathlib.Algebra.Order.Ring.Rat
import Mathlib.Tactic.Linarith
import Mathlib.Tactic.NormNum

/-!
`find_max_or_min_z_point` in exact arithmetic: the edge of a cloud as the average of what
thirty slots along the x axis hold. A slot starts at a sentinel and is filled by the points
near its position.
-/

namespace AutoDrop

open RunningExtremum

/-- `std::numeric_limits<float>::max()`; `lowest()` is its negative. -/
def floatMax : ℚ := 2 ^ 128 - 2 ^ 104

namespace EdgeHeight

def slots : Nat := 30

structure Extent where
  xMin : ℚ
  xMax : ℚ
  yBar : ℚ

def Extent.add (extent : Extent) (point : MyPoint ℚ) : Extent where
  xMin := if point.x < extent.xMin then point.x else extent.xMin
  xMax := if extent.xMax < point.x then point.x else extent.xMax
  yBar := extent.yBar + point.y

def extentOf (points : List (MyPoint ℚ)) : Extent :=
  points.foldl Extent.add ⟨floatMax, -floatMax, 0⟩

def Extent.position (extent : Extent) (i : Nat) : ℚ :=
  extent.xMin + (extent.xMax - extent.xMin) * i / slots

def sentinel (isMin : Bool) : ℚ :=
  if isMin then floatMax else -floatMax

/-- One turn of the inner loop over the points. -/
def fillSlot (position threshold : ℚ) (isMin : Bool) (slot : ℚ) (point : MyPoint ℚ) : ℚ :=
  if |point.x - position| < threshold then
    if isMin = false ∧ slot < point.z then point.z
    else if isMin = true ∧ point.z < slot then point.z
    else slot
  else slot

def allZ (points : List (MyPoint ℚ)) (threshold : ℚ) (isMin : Bool) (i : Nat) : ℚ :=
  points.foldl (fillSlot ((extentOf points).position i) threshold isMin) (sentinel isMin)

def findMaxOrMinZPoint (points : List (MyPoint ℚ)) (threshold : ℚ) (isMin : Bool) : MyPoint ℚ where
  x := 0
  y := (extentOf points).yBar / points.length
  z := (∑ i ∈ Finset.range slots, allZ points threshold isMin i) / slots
  r := 0
  g := 0
  b := 0

/-- The coordinates of a cloud are finite values of `float`. -/
structure ExactCloud where
  points : List (MyPoint ℚ)
  inRange : ∀ point ∈ points, |point.x| ≤ floatMax ∧ |point.y| ≤ floatMax ∧ |point.z| ≤ floatMax

def HeightInside (points : List (MyPoint ℚ)) (z : ℚ) : Prop :=
  (∃ point ∈ points, point.z ≤ z) ∧ ∃ point ∈ points, z ≤ point.z

/-- Each of the thirty positions between the leftmost and the rightmost point is near a point. -/
def Covered (points : List (MyPoint ℚ)) (threshold : ℚ) : Prop :=
  ∀ left ∈ points, ∀ right ∈ points, (∀ point ∈ points, left.x ≤ point.x ∧ point.x ≤ right.x) →
    ∀ i < slots, ∃ point ∈ points,
      |point.x - (left.x + (right.x - left.x) * i / slots)| < threshold

instance (points : List (MyPoint ℚ)) (z : ℚ) : Decidable (HeightInside points z) :=
  inferInstanceAs (Decidable (_ ∧ _))

instance (points : List (MyPoint ℚ)) (threshold : ℚ) : Decidable (Covered points threshold) :=
  inferInstanceAs (Decidable (∀ left ∈ points, ∀ right ∈ points, _))

section Slots

variable {points : List (MyPoint ℚ)} {point : MyPoint ℚ} {threshold bound : ℚ} {isMin : Bool}
  {i : Nat}

theorem floatMax_pos : 0 < floatMax := by norm_num [floatMax]

/-- A minimum is a maximum of the negated values. -/
def sign (isMin : Bool) : ℚ :=
  if isMin then -1 else 1

theorem sign_mul_sentinel (isMin : Bool) : sign isMin * sentinel isMin = -floatMax := by
  cases isMin <;> simp [sign, sentinel]

theorem sign_ne_zero (isMin : Bool) : sign isMin ≠ 0 := by
  cases isMin <;> simp [sign]

theorem abs_sign_mul (isMin : Bool) (z : ℚ) : |sign isMin * z| = |z| := by
  cases isMin <;> simp [sign]

theorem extentOf_xMin (points : List (MyPoint ℚ)) :
    (extentOf points).xMin = runningMax (fun _ => True) MyPoint.x (-·) floatMax points := by
  refine (List.foldl_hom Extent.xMin ?_).symm
  intro extent point
  simp [keepLarger, Extent.add]

theorem extentOf_xMax (points : List (MyPoint ℚ)) :
    (extentOf points).xMax = runningMax (fun _ => True) MyPoint.x id (-floatMax) points := by
  refine (List.foldl_hom Extent.xMax ?_).symm
  intro extent point
  simp [keepLarger, Extent.add]

theorem allZ_eq (points : List (MyPoint ℚ)) (threshold : ℚ) (isMin : Bool) (i : Nat) :
    allZ points threshold isMin i =
      runningMax (fun point => |point.x - (extentOf points).position i| < threshold) MyPoint.z
        (sign isMin * ·) (sentinel isMin) points := by
  have turn : fillSlot ((extentOf points).position i) threshold isMin =
      keepLarger (fun point => |point.x - (extentOf points).position i| < threshold) MyPoint.z
        (sign isMin * ·) := by
    funext slot point
    by_cases near : |point.x - (extentOf points).position i| < threshold
    · cases isMin <;> simp [fillSlot, keepLarger, near, sign]
    · simp [fillSlot, keepLarger, near]
  rw [allZ, turn]
  rfl

theorem allZ_of_none
    (absent : ∀ point ∈ points, ¬|point.x - (extentOf points).position i| < threshold) :
    allZ points threshold isMin i = sentinel isMin := by
  rw [allZ_eq]
  exact runningMax_of_le _ _ _ _ fun point member near => absurd near (absent point member)

theorem allZ_cases (points : List (MyPoint ℚ)) (threshold : ℚ) (isMin : Bool) (i : Nat) :
    allZ points threshold isMin i = sentinel isMin ∨
      ∃ point ∈ points, allZ points threshold isMin i = point.z := by
  rw [allZ_eq]
  rcases runningMax_cases (fun point => |point.x - (extentOf points).position i| < threshold)
    MyPoint.z (sign isMin * ·) (sentinel isMin) points with kept | ⟨point, member, -, taken⟩
  · exact .inl kept
  · exact .inr ⟨point, member, taken⟩

theorem allZ_of_near (inRange : |point.z| ≤ floatMax) (member : point ∈ points)
    (near : |point.x - (extentOf points).position i| < threshold) :
    ∃ point ∈ points, allZ points threshold isMin i = point.z := by
  have above : sign isMin * sentinel isMin ≤ sign isMin * point.z := by
    rw [sign_mul_sentinel]
    rw [← abs_sign_mul isMin] at inRange
    exact (abs_le.mp inRange).1
  obtain ⟨other, found, equal⟩ := exists_size_eq
    (fun point => |point.x - (extentOf points).position i| < threshold) MyPoint.z
    (sign isMin * ·) (sentinel isMin) member near above
  rw [← allZ_eq] at equal
  exact ⟨other, found, mul_left_cancel₀ (sign_ne_zero isMin) equal⟩

theorem exists_left (nonempty : points ≠ []) (inRange : ∀ point ∈ points, |point.x| ≤ floatMax) :
    ∃ left ∈ points, (extentOf points).xMin = left.x ∧ ∀ point ∈ points, left.x ≤ point.x := by
  obtain ⟨point, member⟩ := List.exists_mem_of_ne_nil points nonempty
  have above : -floatMax ≤ -point.x := neg_le_neg (abs_le.mp (inRange point member)).2
  obtain ⟨left, found, equal⟩ :=
    exists_size_eq (fun _ => True) MyPoint.x (-·) floatMax member trivial above
  rw [← extentOf_xMin, neg_inj] at equal
  refine ⟨left, found, equal, fun other there => ?_⟩
  have least := size_take_le (fun _ => True) MyPoint.x (-·) floatMax there trivial
  rw [← extentOf_xMin, equal] at least
  exact neg_le_neg_iff.mp least

theorem exists_right (nonempty : points ≠ []) (inRange : ∀ point ∈ points, |point.x| ≤ floatMax) :
    ∃ right ∈ points, (extentOf points).xMax = right.x ∧ ∀ point ∈ points, point.x ≤ right.x := by
  obtain ⟨point, member⟩ := List.exists_mem_of_ne_nil points nonempty
  obtain ⟨right, found, equal⟩ := exists_size_eq (fun _ => True) MyPoint.x id (-floatMax) member
    trivial (abs_le.mp (inRange point member)).1
  rw [← extentOf_xMax] at equal
  refine ⟨right, found, equal, fun other there => ?_⟩
  have greatest := size_take_le (fun _ => True) MyPoint.x id (-floatMax) there trivial
  rw [← extentOf_xMax] at greatest
  exact greatest.trans_eq equal

theorem covered_iff (nonempty : points ≠ [])
    (inRange : ∀ point ∈ points, |point.x| ≤ floatMax) :
    Covered points threshold ↔
      ∀ i < slots, ∃ point ∈ points, |point.x - (extentOf points).position i| < threshold := by
  obtain ⟨left, leftFound, xMin, least⟩ := exists_left nonempty inRange
  obtain ⟨right, rightFound, xMax, greatest⟩ := exists_right nonempty inRange
  constructor
  · intro covered
    simp only [Extent.position, xMin, xMax]
    exact covered left leftFound right rightFound fun point member =>
      ⟨least point member, greatest point member⟩
  · intro filled first firstFound last lastFound outermost
    have sameLeft : first.x = left.x :=
      le_antisymm (outermost left leftFound).1 (least first firstFound)
    have sameRight : last.x = right.x :=
      le_antisymm (greatest last lastFound) (outermost right rightFound).2
    rw [sameLeft, sameRight, ← xMin, ← xMax]
    exact filled

end Slots

section Average

variable {f : Nat → ℚ} {bound : ℚ}

theorem le_average (above : ∀ i < slots, bound ≤ f i) :
    bound ≤ (∑ i ∈ Finset.range slots, f i) / slots := by
  have total := Finset.card_nsmul_le_sum (Finset.range slots) f bound fun i member =>
    above i (Finset.mem_range.mp member)
  simp only [Finset.card_range, nsmul_eq_mul, slots, Nat.cast_ofNat] at total ⊢
  linarith

theorem average_le (below : ∀ i < slots, f i ≤ bound) :
    (∑ i ∈ Finset.range slots, f i) / slots ≤ bound := by
  have total := Finset.sum_le_card_nsmul (Finset.range slots) f bound fun i member =>
    below i (Finset.mem_range.mp member)
  simp only [Finset.card_range, nsmul_eq_mul, slots, Nat.cast_ofNat] at total ⊢
  linarith

/-- One sentinel outweighs what the other slots hold. -/
theorem average_lt_of_sentinel {k : Nat} (inside : k < slots) (empty : f k = -(60 * bound))
    (positive : 0 < bound) (below : ∀ i < slots, f i ≤ bound) :
    (∑ i ∈ Finset.range slots, f i) / slots < -bound := by
  have found : k ∈ Finset.range slots := Finset.mem_range.mpr inside
  have rest := Finset.sum_le_card_nsmul ((Finset.range slots).erase k) f bound fun i member =>
    below i (Finset.mem_range.mp (Finset.mem_of_mem_erase member))
  rw [Finset.card_erase_of_mem found] at rest
  rw [← Finset.add_sum_erase _ f found, empty]
  simp only [Finset.card_range, nsmul_eq_mul, slots, Nat.cast_ofNat] at rest ⊢
  norm_num at rest
  linarith

end Average

section Edge

variable {cloud : ExactCloud} {threshold : ℚ} {isMin : Bool}

theorem inside_of_covered (nonempty : cloud.points ≠ []) (covered : Covered cloud.points threshold) :
    HeightInside cloud.points (findMaxOrMinZPoint cloud.points threshold isMin).z := by
  have filled (i : Nat) (inside : i ∈ Finset.range slots) :
      ∃ point ∈ cloud.points, allZ cloud.points threshold isMin i = point.z := by
    rw [covered_iff nonempty fun point member => (cloud.inRange point member).1] at covered
    obtain ⟨point, member, near⟩ := covered i (Finset.mem_range.mp inside)
    exact allZ_of_near (cloud.inRange point member).2.2 member near
  have some : (Finset.range slots).Nonempty := ⟨0, by decide⟩
  constructor
  · obtain ⟨i, inside, least⟩ :=
      Finset.exists_min_image _ (allZ cloud.points threshold isMin) some
    obtain ⟨point, member, height⟩ := filled i inside
    refine ⟨point, member, ?_⟩
    rw [← height]
    exact le_average fun j bound => least j (Finset.mem_range.mpr bound)
  · obtain ⟨i, inside, greatest⟩ :=
      Finset.exists_max_image _ (allZ cloud.points threshold isMin) some
    obtain ⟨point, member, height⟩ := filled i inside
    refine ⟨point, member, ?_⟩
    rw [← height]
    exact average_le fun j bound => greatest j (Finset.mem_range.mpr bound)

theorem covered_of_inside (nonempty : cloud.points ≠ [])
    (moderate : ∀ point ∈ cloud.points, |point.z| ≤ floatMax / 60)
    (inside : HeightInside cloud.points (findMaxOrMinZPoint cloud.points threshold isMin).z) :
    Covered cloud.points threshold := by
  rw [covered_iff nonempty fun point member => (cloud.inRange point member).1]
  intro k bound
  by_contra absent
  push Not at absent
  have empty : sign isMin * allZ cloud.points threshold isMin k = -(60 * (floatMax / 60)) := by
    rw [allZ_of_none fun point member near => absurd near (not_lt.mpr (absent point member)),
      sign_mul_sentinel, mul_div_cancel₀ _ (by norm_num)]
  have positive : 0 < floatMax / 60 := div_pos floatMax_pos (by norm_num)
  have heights (point : MyPoint ℚ) (member : point ∈ cloud.points) :
      |sign isMin * point.z| ≤ floatMax / 60 := by
    rw [abs_sign_mul]
    exact moderate point member
  have below (i : Nat) (_ : i < slots) :
      sign isMin * allZ cloud.points threshold isMin i ≤ floatMax / 60 := by
    rcases allZ_cases cloud.points threshold isMin i with unfilled | ⟨point, member, height⟩
    · rw [unfilled, sign_mul_sentinel]
      linarith [floatMax_pos]
    · rw [height]
      exact (abs_le.mp (heights point member)).2
  have low := average_lt_of_sentinel bound empty positive below
  rw [← Finset.mul_sum, mul_div_assoc] at low
  obtain ⟨⟨lower, lowerFound, above⟩, ⟨upper, upperFound, under⟩⟩ := inside
  have lowerBound := (abs_le.mp (heights lower lowerFound)).1
  have upperBound := (abs_le.mp (heights upper upperFound)).1
  cases isMin with
  | false =>
      simp only [sign, Bool.false_eq_true, ↓reduceIte, one_mul, findMaxOrMinZPoint] at *
      linarith
  | true =>
      simp only [sign, ↓reduceIte, neg_mul, one_mul, findMaxOrMinZPoint] at *
      linarith

/-- For heights that a sentinel outweighs, nothing but a slot without a point takes the edge
out of the cloud. -/
theorem heightInside_iff (cloud : ExactCloud) (nonempty : cloud.points ≠ []) (threshold : ℚ)
    (isMin : Bool) :
    (Covered cloud.points threshold →
      HeightInside cloud.points (findMaxOrMinZPoint cloud.points threshold isMin).z) ∧
    ((∀ point ∈ cloud.points, |point.z| ≤ floatMax / 60) →
      HeightInside cloud.points (findMaxOrMinZPoint cloud.points threshold isMin).z →
        Covered cloud.points threshold) :=
  ⟨inside_of_covered nonempty, covered_of_inside nonempty⟩

def twoPoints : ExactCloud where
  points := [⟨0, 0, 1, 0, 0, 0⟩, ⟨30, 0, 1, 0, 0, 0⟩]
  inRange := by
    have bounds : |(0 : ℚ)| ≤ floatMax ∧ |(1 : ℚ)| ≤ floatMax ∧ |(30 : ℚ)| ≤ floatMax := by
      decide +kernel
    intro point member
    simp only [List.mem_cons, List.not_mem_nil, or_false] at member
    rcases member with rfl | rfl
    · exact ⟨bounds.1, bounds.1, bounds.2.1⟩
    · exact ⟨bounds.2.2, bounds.1, bounds.2.1⟩

theorem heightInside_iff_twoPoints :
    HeightInside twoPoints.points (findMaxOrMinZPoint twoPoints.points 31 true).z :=
  (heightInside_iff twoPoints (by decide) 31 true).1 (by decide +kernel)

/-- Only the position of the left point is near a point. -/
theorem heightInside_fails :
    ¬HeightInside twoPoints.points (findMaxOrMinZPoint twoPoints.points (1 / 10) false).z := by
  decide +kernel

end Edge

end EdgeHeight

end AutoDrop
