import AutoDrop.EdgeHeight
import AutoDrop.GapChain
import AutoDrop.RdDriverCore

/-!
`get_key_seg` and `get_position_state_from_cloud` in exact arithmetic: where a vehicle stands, from
the points near the height of its edge. What the source draws into the cloud is left out.
-/

namespace AutoDrop

namespace KeySegment

open EdgeHeight GapChain

/-- `std::sort` by x, which leaves open how points with one x come out. -/
structure SortByX where
  sort : List (MyPoint ℚ) → List (MyPoint ℚ)
  perm : ∀ points, (sort points).Perm points
  sorted : ∀ points, (sort points).Pairwise fun a b => a.x ≤ b.x

def maxZPoint (cloud : List (MyPoint ℚ)) (threshold fullZOffset : ℚ) : MyPoint ℚ :=
  let point := findMaxOrMinZPoint cloud threshold false
  { point with x := 0, z := point.z + fullZOffset }

/-- The points near the line. They are measured at the y of the line, along the x axis, so the
distance is that of the heights. -/
def linePoints (cloud : List (MyPoint ℚ)) (threshold : ℚ) (maxZ : MyPoint ℚ) : List (MyPoint ℚ) :=
  cloud.filter fun itr => |itr.z - maxZ.z| < threshold

def getKeySeg (std : SortByX) (cloud : List (MyPoint ℚ)) (threshold fullYOffset fullZOffset : ℚ) :
    MyPoint ℚ × MyPoint ℚ :=
  let maxZ := maxZPoint cloud threshold fullZOffset
  match std.sort (linePoints cloud threshold maxZ) with
  | [] => (maxZ, maxZ)
  | first :: rest =>
      let last := chainEnd MyPoint.x threshold first (first :: rest)
      ({ first with y := maxZ.y + fullYOffset, z := maxZ.z },
        { last with y := maxZ.y + fullYOffset, z := maxZ.z })

/-- The settings of the section `get_state`. -/
structure PositionConfig where
  threshold : ℚ
  fullZOffset : ℚ
  e0 : ℚ
  e1 : ℚ
  b0 : ℚ
  b1 : ℚ

/-- The state of a vehicle whose edge goes from `ex` to `bx`. -/
def PositionConfig.stateOf (config : PositionConfig) (ex bx : ℚ) : VehiclePositionDetectState :=
  if ex ≤ config.e0 ∧ config.b0 ≤ bx ∧ bx ≤ config.b1 then .vehiclePostionBegin
  else if ex ≤ config.e0 ∧ config.b1 ≤ bx then .vehiclePostionMiddle
  else if config.e0 ≤ ex ∧ ex ≤ config.e1 ∧ config.b1 ≤ bx then .vehiclePostionEnd
  else .vehiclePostionOut

def getPositionStateFromCloud (std : SortByX) (config : PositionConfig)
    (cloud : List (MyPoint ℚ)) : KeySegParams ℚ :=
  let keySeg := getKeySeg std cloud config.threshold 0 config.fullZOffset
  if keySeg.1.x ≠ keySeg.2.x then ⟨keySeg.1.z, config.stateOf keySeg.1.x keySeg.2.x⟩
  else ⟨0, .vehiclePostionOut⟩

/-- From the leftmost of the points to the last that is reached from it by hops below the
threshold. -/
structure IsStretch (line : List (MyPoint ℚ)) (threshold lo hi : ℚ) : Prop where
  leftmost : ∃ first ∈ line, first.x = lo ∧
    ∀ point ∈ line, lo ≤ point.x ∧ (point.x ≤ hi ↔ Reaches MyPoint.x threshold line first point)
  last : ∃ point ∈ line, point.x = hi

variable {line others : List (MyPoint ℚ)} {threshold lo hi lo' hi' : ℚ}

theorem IsStretch.le (stretch : IsStretch line threshold lo hi) : lo ≤ hi := by
  obtain ⟨_, -, -, bounds⟩ := stretch.leftmost
  obtain ⟨point, member, rfl⟩ := stretch.last
  exact (bounds point member).1

theorem IsStretch.of_perm (same : line.Perm others) (stretch : IsStretch line threshold lo hi) :
    IsStretch others threshold lo hi := by
  obtain ⟨first, inLine, level, bounds⟩ := stretch.leftmost
  obtain ⟨point, member, last⟩ := stretch.last
  refine ⟨⟨first, same.mem_iff.mp inLine, level, fun point inside => ?_⟩,
    ⟨point, same.mem_iff.mp member, last⟩⟩
  obtain ⟨least, reached⟩ := bounds point (same.mem_iff.mpr inside)
  refine ⟨least, reached.trans ⟨fun reaches => reaches.of_perm same, fun reaches => ?_⟩⟩
  exact reaches.of_perm same.symm

/-- Several points may be the leftmost; they are one hop apart. -/
theorem IsStretch.le_last (positive : 0 < threshold) (stretch : IsStretch line threshold lo hi)
    (other : IsStretch line threshold lo' hi') : lo ≤ lo' ∧ hi ≤ hi' := by
  obtain ⟨first, inLine, rfl, bounds⟩ := stretch.leftmost
  obtain ⟨first', inOther, rfl, bounds'⟩ := other.leftmost
  have level : first.x = first'.x :=
    le_antisymm (bounds first' inOther).1 (bounds' first inLine).1
  refine ⟨level.le, ?_⟩
  obtain ⟨point, member, rfl⟩ := stretch.last
  have across : Hop MyPoint.x threshold line first' first :=
    ⟨inOther, inLine, by rwa [level, sub_self, abs_zero]⟩
  exact (bounds' point member).2.mpr (.head across ((bounds point member).2.mp le_rfl))

theorem IsStretch.unique (positive : 0 < threshold) (stretch : IsStretch line threshold lo hi)
    (other : IsStretch line threshold lo' hi') : lo = lo' ∧ hi = hi' := by
  obtain ⟨left, right⟩ := stretch.le_last positive other
  obtain ⟨left', right'⟩ := other.le_last positive stretch
  exact ⟨left.antisymm left', right.antisymm right'⟩

theorem stretch_of_sorted {first : MyPoint ℚ} {rest : List (MyPoint ℚ)}
    (positive : 0 < threshold) (same : (first :: rest).Perm line)
    (sorted : (first :: rest).Pairwise fun a b => a.x ≤ b.x) :
    IsStretch line threshold first.x
      (chainEnd MyPoint.x threshold first (first :: rest)).x := by
  have walk : chainEnd MyPoint.x threshold first (first :: rest) =
      chainEnd MyPoint.x threshold first rest := by
    rw [chainEnd, if_pos (by rwa [sub_self])]
  rw [walk]
  constructor
  · refine ⟨first, same.mem_iff.mp List.mem_cons_self, rfl, fun point member => ?_⟩
    have inside := same.mem_iff.mpr member
    constructor
    · rcases List.mem_cons.mp inside with rfl | later
      · exact le_rfl
      · exact (List.pairwise_cons.mp sorted).1 point later
    · rw [le_chainEnd_iff sorted positive inside]
      exact ⟨fun reaches => reaches.of_perm same, fun reaches => reaches.of_perm same.symm⟩
  · exact ⟨_, same.mem_iff.mp (chainEnd_mem rest first), rfl⟩

/-- The key segment is the stretch of the edge, at its height. -/
theorem getKeySeg_stretch (std : SortByX) (cloud : List (MyPoint ℚ))
    (positive : 0 < threshold) (fullYOffset fullZOffset : ℚ)
    (near : linePoints cloud threshold (maxZPoint cloud threshold fullZOffset) ≠ []) :
    let keySeg := getKeySeg std cloud threshold fullYOffset fullZOffset
    IsStretch (linePoints cloud threshold (maxZPoint cloud threshold fullZOffset)) threshold
        keySeg.1.x keySeg.2.x ∧
      keySeg.1.z = (maxZPoint cloud threshold fullZOffset).z := by
  have same := std.perm (linePoints cloud threshold (maxZPoint cloud threshold fullZOffset))
  have sorted := std.sorted (linePoints cloud threshold (maxZPoint cloud threshold fullZOffset))
  cases points : std.sort (linePoints cloud threshold (maxZPoint cloud threshold fullZOffset)) with
  | nil =>
    rw [points] at same
    exact absurd same.symm.eq_nil near
  | cons first rest =>
    rw [points] at same sorted
    simp only [getKeySeg, points]
    exact ⟨stretch_of_sorted positive same sorted, trivial⟩

theorem getKeySeg_of_none (std : SortByX) {cloud : List (MyPoint ℚ)}
    {fullZOffset : ℚ} (fullYOffset : ℚ)
    (none : linePoints cloud threshold (maxZPoint cloud threshold fullZOffset) = []) :
    (getKeySeg std cloud threshold fullYOffset fullZOffset).1 =
      (getKeySeg std cloud threshold fullYOffset fullZOffset).2 := by
  have empty : std.sort (linePoints cloud threshold (maxZPoint cloud threshold fullZOffset)) = [] :=
    ((std.perm _).trans (List.Perm.of_eq none)).eq_nil
  simp only [getKeySeg, empty]

/-- The points near the height of the edge. -/
def edgeLine (config : PositionConfig) (cloud : List (MyPoint ℚ)) : List (MyPoint ℚ) :=
  linePoints cloud config.threshold (maxZPoint cloud config.threshold config.fullZOffset)

theorem position_of_long (std : SortByX) (config : PositionConfig)
    (positive : 0 < config.threshold) {cloud : List (MyPoint ℚ)} {lo hi : ℚ}
    (stretch : IsStretch (edgeLine config cloud) config.threshold lo hi) (long : lo < hi) :
    getPositionStateFromCloud std config cloud =
      ⟨(maxZPoint cloud config.threshold config.fullZOffset).z, config.stateOf lo hi⟩ := by
  have near : edgeLine config cloud ≠ [] := by
    obtain ⟨point, member, -⟩ := stretch.last
    exact List.ne_nil_of_mem member
  obtain ⟨found, height⟩ := getKeySeg_stretch std cloud positive 0 config.fullZOffset near
  obtain ⟨left, right⟩ := found.unique positive stretch
  simp only [getPositionStateFromCloud, left, right, height]
  rw [if_pos (ne_of_lt long)]

theorem position_of_short (std : SortByX) (config : PositionConfig)
    (positive : 0 < config.threshold) {cloud : List (MyPoint ℚ)}
    (none : ¬∃ lo hi, IsStretch (edgeLine config cloud) config.threshold lo hi ∧ lo < hi) :
    getPositionStateFromCloud std config cloud = ⟨0, .vehiclePostionOut⟩ := by
  by_cases near : edgeLine config cloud = []
  · have point := getKeySeg_of_none std 0 near
    simp [getPositionStateFromCloud, point]
  · obtain ⟨found, -⟩ := getKeySeg_stretch std cloud positive 0 config.fullZOffset near
    have short := found.le.antisymm (not_lt.mp fun long => none ⟨_, _, found, long⟩)
    simp only [getPositionStateFromCloud]
    rw [if_neg (not_not.mpr short)]

/-- A stable sort is one of those the source may get. -/
def stableSort : SortByX where
  sort points := points.mergeSort fun a b => decide (a.x ≤ b.x)
  perm points := List.mergeSort_perm points _
  sorted points := by
    have trans (a b c : MyPoint ℚ) (first : decide (a.x ≤ b.x) = true)
        (second : decide (b.x ≤ c.x) = true) : decide (a.x ≤ c.x) = true :=
      decide_eq_true ((of_decide_eq_true first).trans (of_decide_eq_true second))
    have total (a b : MyPoint ℚ) : (decide (a.x ≤ b.x) || decide (b.x ≤ a.x)) = true := by
      simpa using le_total a.x b.x
    exact (List.pairwise_mergeSort trans total points).imp of_decide_eq_true

def gateConfig : PositionConfig := ⟨1 / 10, 0, 1, 2, 3, 4⟩

theorem extentOf_perm {points others : List (MyPoint ℚ)} (same : points.Perm others) :
    extentOf points = extentOf others := by
  have step (extent : Extent) (point : MyPoint ℚ) : extent.add point =
      ⟨min extent.xMin point.x, max extent.xMax point.x, extent.yBar + point.y⟩ := by
    simp only [Extent.add, min_def', max_def]
    congr 1 <;> split <;> split <;> linarith
  refine same.foldl_eq' ?_ _
  intro a _ b _ extent
  rw [step, step, step, step, min_right_comm, max_right_comm, add_right_comm]

theorem maxZPoint_perm {points others : List (MyPoint ℚ)} (same : points.Perm others)
    (threshold fullZOffset : ℚ) :
    maxZPoint points threshold fullZOffset = maxZPoint others threshold fullZOffset := by
  have slots (i : Nat) : allZ points threshold false i = allZ others threshold false i := by
    have step (position slot : ℚ) (point : MyPoint ℚ) :
        fillSlot position threshold false slot point =
          if |point.x - position| < threshold then max slot point.z else slot := by
      by_cases near : |point.x - position| < threshold
      · by_cases larger : slot < point.z
        · simp [fillSlot, near, larger, max_eq_right larger.le]
        · simp [fillSlot, near, larger, max_eq_left (not_lt.mp larger)]
      · simp [fillSlot, near]
    rw [allZ, allZ, extentOf_perm same]
    refine same.foldl_eq' ?_ _
    intro a _ b _ slot
    simp only [step]
    split <;> split <;> simp [max_right_comm]
  simp only [maxZPoint, findMaxOrMinZPoint, slots, extentOf_perm same, same.length_eq]

/-- Neither the order of the points nor what the sort leaves open changes what is detected. -/
theorem position_of_perm (std std' : SortByX) (config : PositionConfig)
    (positive : 0 < config.threshold) {cloud others : List (MyPoint ℚ)}
    (same : cloud.Perm others) :
    getPositionStateFromCloud std config cloud = getPositionStateFromCloud std' config others := by
  have height := maxZPoint_perm same config.threshold config.fullZOffset
  have line : (edgeLine config cloud).Perm (edgeLine config others) := by
    rw [edgeLine, edgeLine, height]
    exact same.filter _
  by_cases long : ∃ lo hi, IsStretch (edgeLine config cloud) config.threshold lo hi ∧ lo < hi
  · obtain ⟨lo, hi, stretch, long⟩ := long
    rw [position_of_long std config positive stretch long,
      position_of_long std' config positive (stretch.of_perm line) long, height]
  · have none : ¬∃ lo hi, IsStretch (edgeLine config others) config.threshold lo hi ∧ lo < hi := by
      rintro ⟨lo, hi, stretch, longer⟩
      exact long ⟨lo, hi, stretch.of_perm line.symm, longer⟩
    rw [position_of_short std config positive long, position_of_short std' config positive none]

theorem position_of_perm_twoPoints :
    getPositionStateFromCloud stableSort gateConfig twoPoints.points =
      getPositionStateFromCloud stableSort gateConfig twoPoints.points.reverse :=
  position_of_perm stableSort stableSort gateConfig (by norm_num [gateConfig])
    (List.reverse_perm _).symm

end KeySegment

end AutoDrop
