import AutoDrop.RunningExtremum
import Mathlib.Algebra.Field.Rat
import Mathlib.Algebra.Order.Ring.Rat
import Mathlib.Data.List.Perm.Basic
import Mathlib.Data.List.Perm.Subperm

/-!
How the lidar driver splits a cloud into what it picks and what is left: the largest cluster
of `find_max_cluster`, and the range of `pickup_pc_from_spec_range`. The clouds of the second
lie on a heap, as it reads and overwrites one through the same pointer.
-/

namespace AutoDrop

open RunningExtremum

/-- `myPoint`, a `pcl::PointXYZRGB`. -/
structure MyPoint (F : Type*) where
  x : F
  y : F
  z : F
  r : UInt8
  g : UInt8
  b : UInt8
deriving DecidableEq

structure PcAfterPickup (Cloud : Type*) where
  last : Cloud
  picked : Cloud

namespace CloudPickup

section Clusters

variable {P F : Type*}

/-- `pcl::EuclideanClusterExtraction` with a tolerance, the least and the greatest size of a
cluster; it returns indices into the cloud. -/
abbrev Extractor (P F : Type*) :=
  F → Int → Int → (points : List P) → List (List (Fin points.length))

def clusterPlanePoints (extract : Extractor P F) (points : List P) (tolerance : F)
    (minSize maxSize : Int) : List (List P) :=
  if points.isEmpty then []
  else (extract tolerance minSize maxSize points).map fun indices => indices.map points.get

/-- One turn of the loop over the other clusters; both branches append the cluster. -/
def compareCluster (ret : PcAfterPickup (List P)) (cluster : List P) : PcAfterPickup (List P) :=
  if ret.picked.length < cluster.length then
    let picked := cluster
    { picked, last := ret.last ++ picked }
  else { ret with last := ret.last ++ cluster }

def findMaxCluster (extract : Extractor P F) (cloud : List P) (distanceThreshold : F)
    (requirePoints : Int) : PcAfterPickup (List P) :=
  match clusterPlanePoints extract cloud distanceThreshold requirePoints 999999999 with
  | [] => { picked := cloud, last := [] }
  | first :: rest => rest.foldl compareCluster { picked := first, last := [] }

/-- A largest cluster is picked, and picked and last hold the points of all clusters. -/
def Selects (clusters : List (List P)) (ret : PcAfterPickup (List P)) : Prop :=
  ret.picked ∈ clusters ∧ (∀ cluster ∈ clusters, cluster.length ≤ ret.picked.length) ∧
    (ret.picked ++ ret.last).Perm clusters.flatten

theorem foldl_compareCluster (rest : List (List P)) (ret : PcAfterPickup (List P)) :
    rest.foldl compareCluster ret =
      ⟨ret.last ++ rest.flatten, runningMax (fun _ => True) id List.length ret.picked rest⟩ := by
  induction rest generalizing ret with
  | nil => simp [runningMax]
  | cons cluster rest ih =>
      rw [List.foldl_cons, ih]
      by_cases larger : ret.picked.length < cluster.length
      · simp [compareCluster, runningMax, keepLarger, larger]
      · simp [compareCluster, runningMax, keepLarger, larger]

theorem findMaxCluster_eq {extract : Extractor P F} {cloud : List P} {distanceThreshold : F}
    {requirePoints : Int} {first : List P} {rest : List (List P)}
    (returned : clusterPlanePoints extract cloud distanceThreshold requirePoints 999999999 =
      first :: rest) :
    findMaxCluster extract cloud distanceThreshold requirePoints =
      ⟨rest.flatten, runningMax (fun _ => True) id List.length first rest⟩ := by
  rw [findMaxCluster, returned]
  exact foldl_compareCluster rest _

theorem picked_greatest {extract : Extractor P F} {cloud : List P} {distanceThreshold : F}
    {requirePoints : Int} {first : List P} {rest : List (List P)}
    (returned : clusterPlanePoints extract cloud distanceThreshold requirePoints 999999999 =
      first :: rest) :
    (findMaxCluster extract cloud distanceThreshold requirePoints).picked ∈ first :: rest ∧
      ∀ cluster ∈ first :: rest, cluster.length ≤
        (findMaxCluster extract cloud distanceThreshold requirePoints).picked.length := by
  rw [findMaxCluster_eq returned]
  constructor
  · rcases runningMax_cases (fun _ => True) id List.length first rest with
      kept | ⟨cluster, member, -, taken⟩
    · rw [kept]
      exact List.mem_cons_self
    · rw [taken]
      exact List.mem_cons_of_mem _ member
  · intro cluster member
    rcases List.mem_cons.mp member with rfl | later
    · exact size_start_le (fun _ => True) id List.length cluster rest
    · exact size_take_le (fun _ => True) id List.length first later trivial

/-- A cluster that is replaced is lost and the new one counted twice. -/
theorem selects_iff (extract : Extractor P F) (cloud : List P) (distanceThreshold : F)
    (requirePoints : Int) (first : List P) (rest : List (List P))
    (returned : clusterPlanePoints extract cloud distanceThreshold requirePoints 999999999 =
      first :: rest) :
    Selects (first :: rest) (findMaxCluster extract cloud distanceThreshold requirePoints) ↔
      ∀ cluster ∈ rest, cluster.length ≤ first.length := by
  obtain ⟨chosen, greatest⟩ := picked_greatest returned
  constructor
  · rintro ⟨-, -, permutation⟩ cluster member
    have total := permutation.length_eq
    rw [findMaxCluster_eq returned] at total greatest
    simp only [List.flatten_cons, List.length_append, Nat.add_right_cancel_iff] at total
    rw [← total]
    exact greatest cluster (List.mem_cons_of_mem _ member)
  · intro largest
    refine ⟨chosen, greatest, ?_⟩
    have kept : runningMax (fun _ => True) id List.length first rest = first :=
      runningMax_of_le _ _ _ _ fun cluster member _ => largest cluster member
    rw [findMaxCluster_eq returned, kept]
    exact List.Perm.refl _

def firstApart : Extractor Nat Unit := fun _ _ _ points =>
  [(List.finRange points.length).take 1, (List.finRange points.length).drop 1]

def firstLast : Extractor Nat Unit := fun tolerance minSize maxSize points =>
  (firstApart tolerance minSize maxSize points).reverse

theorem selects_iff_threePoints :
    Selects [[20, 30], [10]] (findMaxCluster firstLast [10, 20, 30] () 1) :=
  (selects_iff firstLast [10, 20, 30] () 1 [20, 30] [[10]] (by decide)).mpr (by decide)

theorem selects_fails :
    clusterPlanePoints firstApart [10, 20, 30] () 1 999999999 = [[10], [20, 30]] ∧
      (findMaxCluster firstApart [10, 20, 30] () 1).last = [20, 30] ∧
      ¬Selects [[10], [20, 30]] (findMaxCluster firstApart [10, 20, 30] () 1) := by
  refine ⟨by decide, by decide, ?_⟩
  rintro ⟨-, -, permutation⟩
  have total := permutation.length_eq
  revert total
  decide

end Clusters

section Heap

variable {P : Type*}

/-- The clouds by the pointers that hold them. -/
abbrev CloudHeap (P : Type*) := List (List P)

def CloudHeap.read (heap : CloudHeap P) (pointer : Nat) : List P :=
  heap.getD pointer []

/-- `*pointer += *other` -/
def CloudHeap.extend (heap : CloudHeap P) (pointer other : Nat) : CloudHeap P :=
  heap.set pointer (heap.read pointer ++ heap.read other)

variable {heap : CloudHeap P} {pointer other : Nat}

theorem read_append (valid : pointer < heap.length) (more : CloudHeap P) :
    CloudHeap.read (heap ++ more) pointer = heap.read pointer := by
  simp [CloudHeap.read, List.getElem?_append_left valid]

theorem read_new (heap : CloudHeap P) (cloud : List P) :
    CloudHeap.read (heap ++ [cloud]) heap.length = cloud := by
  simp [CloudHeap.read]

theorem read_set_self (valid : pointer < heap.length) (cloud : List P) :
    CloudHeap.read (heap.set pointer cloud) pointer = cloud := by
  simp [CloudHeap.read, valid]

theorem read_set_other (different : other ≠ pointer) (cloud : List P) :
    CloudHeap.read (heap.set pointer cloud) other = heap.read other := by
  simp [CloudHeap.read, different.symm]

end Heap

section Ranges

variable {F : Type*}

inductive FilterField
  | x
  | y
deriving DecidableEq

def FilterField.of : FilterField → MyPoint F → F
  | .x => MyPoint.x
  | .y => MyPoint.y

/-- The output of `pcl::PassThrough` for a field, its limits, the negative flag and an input. -/
abbrev PassThrough (F : Type*) :=
  FilterField → F → F → Bool → List (MyPoint F) → List (MyPoint F)

def splitCloudByPt (pass : PassThrough F) (heap : CloudHeap (MyPoint F)) (cloud : Nat)
    (field : FilterField) (min max : F) (cloudFiltered cloudLast : Nat) : CloudHeap (MyPoint F) :=
  let tmp := heap.length
  let heap := heap ++ [heap.read cloud]
  let heap := heap.set cloudFiltered (pass field min max false (CloudHeap.read heap tmp))
  heap.set cloudLast (pass field min max true (CloudHeap.read heap tmp))

structure SpecRange (F : Type*) where
  xMin : F
  xMax : F
  yMin : F
  yMax : F

/-- `getValue` of the ini library takes a section, a key and a default; `atof` includes the
conversion to `float`. -/
def specRange (getValue : String → String → String → String) (atof : String → F) : SpecRange F where
  xMin := atof (getValue "get_state" "x_min" "0")
  xMax := atof (getValue "get_state" "x_max" "0")
  yMin := atof (getValue "get_state" "y_min" "0")
  yMax := atof (getValue "get_state" "y_max" "0")

def pickupPcFromSpecRange (pass : PassThrough F) (getValue : String → String → String → String)
    (atof : String → F) (heap : CloudHeap (MyPoint F)) (origPc : Nat) :
    CloudHeap (MyPoint F) × PcAfterPickup Nat :=
  let range := specRange getValue atof
  let result : PcAfterPickup Nat := { last := heap.length, picked := heap.length + 1 }
  let tmp := heap.length + 2
  let heap := heap ++ [[], [], []]
  let heap := splitCloudByPt pass heap origPc .x range.xMin range.xMax result.picked tmp
  let heap := CloudHeap.extend heap result.last tmp
  let heap := splitCloudByPt pass heap result.picked .y range.yMin range.yMax result.picked tmp
  (CloudHeap.extend heap result.last tmp, result)

section Split

variable (pass : PassThrough F) (heap : CloudHeap (MyPoint F)) (cloud : Nat)
  (field : FilterField) (min max : F) {filtered last tmp : Nat}

/-- The input is taken before anything is written, so it may be the output too. -/
theorem splitCloudByPt_spec (filteredValid : filtered < heap.length) (tmpValid : tmp < heap.length)
    (apart : filtered ≠ tmp) :
    (splitCloudByPt pass heap cloud field min max filtered tmp).read filtered =
        pass field min max false (heap.read cloud) ∧
      (splitCloudByPt pass heap cloud field min max filtered tmp).read tmp =
        pass field min max true (heap.read cloud) := by
  simp only [splitCloudByPt]
  constructor
  · rw [read_set_other apart, read_set_self (by simp; omega), read_new]
  · rw [read_set_self (by simp; omega), read_set_other (by omega), read_new]

theorem splitCloudByPt_other (valid : last < heap.length) (notFiltered : last ≠ filtered)
    (notTmp : last ≠ tmp) :
    (splitCloudByPt pass heap cloud field min max filtered tmp).read last = heap.read last := by
  simp only [splitCloudByPt]
  rw [read_set_other notTmp, read_set_other notFiltered, read_append valid]

theorem length_splitCloudByPt :
    (splitCloudByPt pass heap cloud field min max filtered tmp).length = heap.length + 1 := by
  simp [splitCloudByPt]

theorem extend_splitCloudByPt (filteredValid : filtered < heap.length)
    (tmpValid : tmp < heap.length) (lastValid : last < heap.length) (apart : filtered ≠ tmp)
    (notFiltered : last ≠ filtered) (notTmp : last ≠ tmp) :
    ((splitCloudByPt pass heap cloud field min max filtered tmp).extend last tmp).read filtered =
        pass field min max false (heap.read cloud) ∧
      ((splitCloudByPt pass heap cloud field min max filtered tmp).extend last tmp).read last =
        heap.read last ++ pass field min max true (heap.read cloud) := by
  obtain ⟨inside, outside⟩ :=
    splitCloudByPt_spec pass heap cloud field min max filteredValid tmpValid apart
  constructor
  · rw [CloudHeap.extend, read_set_other (Ne.symm notFiltered), inside]
  · rw [CloudHeap.extend, read_set_self (by rw [length_splitCloudByPt]; omega),
      splitCloudByPt_other _ _ _ _ _ _ lastValid notFiltered notTmp, outside]

end Split

theorem pickupPcFromSpecRange_spec (pass : PassThrough F)
    (getValue : String → String → String → String) (atof : String → F)
    (heap : CloudHeap (MyPoint F)) (origPc : Fin heap.length) {range : SpecRange F}
    (limits : specRange getValue atof = range) {after : CloudHeap (MyPoint F) × PcAfterPickup Nat}
    (picked : pickupPcFromSpecRange pass getValue atof heap origPc = after) :
    after.1.read after.2.picked = pass .y range.yMin range.yMax false
        (pass .x range.xMin range.xMax false (heap.read origPc)) ∧
      after.1.read after.2.last = pass .x range.xMin range.xMax true (heap.read origPc) ++
        pass .y range.yMin range.yMax true
          (pass .x range.xMin range.xMax false (heap.read origPc)) := by
  subst limits picked
  have size : (heap ++ [[], [], []]).length = heap.length + 3 := by simp
  have orig : CloudHeap.read (heap ++ [[], [], []]) origPc = heap.read origPc :=
    read_append origPc.isLt _
  have empty : CloudHeap.read (heap ++ [[], [], []]) heap.length = [] := by simp [CloudHeap.read]
  obtain ⟨inside, outside⟩ := extend_splitCloudByPt pass (heap ++ [[], [], []]) origPc .x
    (specRange getValue atof).xMin (specRange getValue atof).xMax
    (show heap.length + 1 < _ by omega) (show heap.length + 2 < _ by omega)
    (show heap.length < _ by omega) (by omega) (by omega) (by omega)
  rw [orig] at inside outside
  rw [empty, List.nil_append] at outside
  obtain ⟨first, split⟩ : ∃ first, first = CloudHeap.extend
      (splitCloudByPt pass (heap ++ [[], [], []]) origPc .x (specRange getValue atof).xMin
        (specRange getValue atof).xMax (heap.length + 1) (heap.length + 2))
      heap.length (heap.length + 2) := ⟨_, rfl⟩
  rw [← split] at inside outside
  have grown : first.length = heap.length + 4 := by
    rw [split, CloudHeap.extend, List.length_set, length_splitCloudByPt, size]
  obtain ⟨insideBoth, outsideSecond⟩ := extend_splitCloudByPt pass first (heap.length + 1) .y
    (specRange getValue atof).yMin (specRange getValue atof).yMax
    (show heap.length + 1 < _ by omega) (show heap.length + 2 < _ by omega)
    (show heap.length < _ by omega) (by omega) (by omega) (by omega)
  rw [inside] at insideBoth outsideSecond
  rw [outside] at outsideSecond
  subst split
  exact ⟨insideBoth, outsideSecond⟩

variable [LE F] [DecidableLE F]

def Between (min max value : F) : Prop := min ≤ value ∧ value ≤ max

instance (min max value : F) : Decidable (Between min max value) :=
  inferInstanceAs (Decidable (_ ∧ _))

/-- It keeps, in order, the finite points inside the inclusive limits, and the finite points
outside them when negated. -/
def KeepsFinite (pass : PassThrough F) (finite : MyPoint F → Bool) : Prop :=
  ∀ field min max negative points, pass field min max negative points =
    points.filter fun point =>
      finite point && (decide (Between min max (field.of point)) != negative)

def SpecRange.Holds (range : SpecRange F) (point : MyPoint F) : Prop :=
  Between range.xMin range.xMax point.x ∧ Between range.yMin range.yMax point.y

instance (range : SpecRange F) (point : MyPoint F) : Decidable (range.Holds point) :=
  inferInstanceAs (Decidable (_ ∧ _))

theorem rests_perm {P : Type*} (points : List P) (finite first second : P → Bool) :
    (points.filter (fun point => finite point && !first point) ++
        (points.filter fun point => finite point && first point).filter
          fun point => finite point && !second point).Perm
      (points.filter fun point => finite point && !(first point && second point)) := by
  have split := List.filter_append_perm (fun point => !first point)
    (points.filter fun point => finite point && !(first point && second point))
  simp only [List.filter_filter] at split ⊢
  refine List.Perm.trans (List.Perm.of_eq ?_) split
  congr 1
  · apply List.filter_congr
    intro point _
    cases finite point <;> cases first point <;> rfl
  · apply List.filter_congr
    intro point _
    cases finite point <;> cases first point <;> cases second point <;> rfl

/-- Each finite point of the cloud is in one of the two, once, as the limits have it. -/
theorem pickup_partition {pass : PassThrough F} {finite : MyPoint F → Bool}
    (keeps : KeepsFinite pass finite) (getValue : String → String → String → String)
    (atof : String → F) (heap : CloudHeap (MyPoint F)) (origPc : Fin heap.length)
    {after : CloudHeap (MyPoint F) × PcAfterPickup Nat}
    (picked : pickupPcFromSpecRange pass getValue atof heap origPc = after) :
    after.1.read after.2.picked = (heap.read origPc).filter (fun point =>
        finite point && decide ((specRange getValue atof).Holds point)) ∧
      (after.1.read after.2.last).Perm ((heap.read origPc).filter fun point =>
        finite point && !decide ((specRange getValue atof).Holds point)) := by
  obtain ⟨inside, outside⟩ := pickupPcFromSpecRange_spec pass getValue atof heap origPc rfl picked
  generalize specRange getValue atof = range at inside outside ⊢
  have holds (point : MyPoint F) : decide (range.Holds point) =
      (decide (Between range.xMin range.xMax point.x) &&
        decide (Between range.yMin range.yMax point.y)) :=
    Bool.decide_and _ _
  simp only [keeps _ _ _ _ _, FilterField.of, Bool.bne_false, Bool.bne_true] at inside outside
  simp only [holds]
  constructor
  · rw [inside, List.filter_filter]
    apply List.filter_congr
    intro point _
    cases finite point with
    | false => rfl
    | true => exact Bool.and_comm _ _
  · rw [outside]
    exact rests_perm _ finite _ _

def passFinite : PassThrough ℚ := fun field min max negative points =>
  points.filter fun point => decide (Between min max (field.of point)) != negative

def limitText (_ key default : String) : String :=
  if key = "x_max" then "2" else if key = "y_max" then "1" else default

def limitValue (text : String) : ℚ :=
  if text = "2" then 2 else if text = "1" then 1 else 0

def threePoints : List (MyPoint ℚ) :=
  [⟨1, 1, 0, 0, 0, 0⟩, ⟨1, 3, 0, 0, 0, 0⟩, ⟨4, 1, 0, 0, 0, 0⟩]

theorem pickup_partition_threePoints :
    let after := pickupPcFromSpecRange passFinite limitText limitValue [threePoints] 0
    after.1.read after.2.picked = [⟨1, 1, 0, 0, 0, 0⟩] ∧
      (after.1.read after.2.last).Perm [⟨1, 3, 0, 0, 0, 0⟩, ⟨4, 1, 0, 0, 0, 0⟩] := by
  have keeps : KeepsFinite passFinite fun _ => true := fun _ _ _ _ _ => rfl
  obtain ⟨picked, last⟩ :=
    pickup_partition keeps limitText limitValue [threePoints] ⟨0, by decide⟩ rfl
  exact ⟨picked.trans (by decide), last.trans (List.Perm.of_eq (by decide))⟩

end Ranges

end CloudPickup

end AutoDrop
