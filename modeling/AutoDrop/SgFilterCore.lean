import AutoDrop.InputMemory
import AutoDrop.RowElimination
import Mathlib.Algebra.Field.Rat
import Mathlib.Algebra.Order.Ring.Rat

/-!
`RealTimeSGFilter` in exact arithmetic. An access outside a vector and a division by zero
have no result; the accesses that the loops bound themselves are those of a `Fin`.
-/

namespace AutoDrop

open InputMemory RowElimination

inductive SgFault
  | invalidArgument (what : String)
  | undefinedBehaviour
deriving DecidableEq, Repr

structure RealTimeSGFilter where
  dataWindow : List ℚ
  coefficients : List ℚ
  windowSize : Nat
deriving DecidableEq

namespace RealTimeSGFilter

/-- The middle of the window, `m` in the source. -/
def halfWindow (windowSize : Nat) : Nat := (windowSize - 1) / 2

def designMatrix (windowSize polyOrder : Nat) : Fin windowSize → Fin (polyOrder + 1) → ℚ :=
  fun i j => ((i : ℚ) - halfWindow windowSize) ^ (j : Nat)

def normalMatrix (windowSize polyOrder : Nat) : Fin (polyOrder + 1) → Fin (polyOrder + 1) → ℚ :=
  fun i j => ∑ k, designMatrix windowSize polyOrder k i * designMatrix windowSize polyOrder k j

def extractColumn {height width : Nat} (matrix : Fin height → Fin width → ℚ) (colIndex : Nat) :
    Option (Fin height → ℚ) :=
  if inside : colIndex < width then some fun i => matrix i ⟨colIndex, inside⟩ else none

section Elimination

variable {n : Nat}

/-- The first row from `i` on whose entry in column `i` is largest. -/
def maxRow (augmented : Fin n → Fin (n + 1) → ℚ) (i : Fin n) : Fin n :=
  (List.finRange n).foldl (fun max k =>
    if i < k ∧ |augmented max i.castSucc| < |augmented k i.castSucc| then k else max) i

/-- One turn of the elimination; it divides only if there is a row below. -/
def eliminate (augmented : Fin n → Fin (n + 1) → ℚ) (i : Fin n) :
    Option (Fin n → Fin (n + 1) → ℚ) :=
  let swapped := swapRows augmented i (maxRow augmented i)
  if i.val + 1 < n ∧ swapped i i.castSucc = 0 then none else some (clearBelow swapped i)

/-- The elimination for the first `count` columns. -/
def forward (augmented : Fin n → Fin (n + 1) → ℚ) : Nat → Option (Fin n → Fin (n + 1) → ℚ)
  | 0 => some augmented
  | count + 1 => (forward augmented count).bind fun rows =>
      if inside : count < n then eliminate rows ⟨count, inside⟩ else some rows

/-- The back substitution for the first `count` rows, from the last one on. -/
def backward (augmented : Fin n → Fin (n + 1) → ℚ) : Nat → (Fin n → ℚ) → Option (Fin n → ℚ)
  | 0, x => some x
  | count + 1, x =>
      if inside : count < n then
        let i : Fin n := ⟨count, inside⟩
        if augmented i i.castSucc = 0 then none
        else backward augmented count (Function.update x i (rowValue augmented x i))
      else backward augmented count x

def solveSystem {height : Nat} (A : Fin n → Fin n → ℚ) (b : Fin height → ℚ) :
    Option (Fin n → ℚ) :=
  if inside : n ≤ height then
    let augmented : Fin n → Fin (n + 1) → ℚ := fun i j =>
      if column : j.val < n then A i ⟨j, column⟩ else b (Fin.castLE inside i)
    (forward augmented n).bind fun rows => backward rows n fun _ => 0
  else none

end Elimination

def calculateCoefficients (windowSize polyOrder : Nat) : Option (List ℚ) :=
  (extractColumn (designMatrix windowSize polyOrder) (halfWindow windowSize)).bind fun b =>
    (solveSystem (normalMatrix windowSize polyOrder) b).map List.ofFn

def create (windowSize polyOrder : Nat) : Except SgFault RealTimeSGFilter :=
  if windowSize % 2 = 0 then .error (.invalidArgument "窗口大小必须是奇数")
  else if windowSize ≤ polyOrder then .error (.invalidArgument "多项式阶数必须小于窗口大小")
  else
    match calculateCoefficients windowSize polyOrder with
    | none => .error .undefinedBehaviour
    | some coefficients => .ok ⟨[], coefficients, windowSize⟩

def applyFilter (filter : RealTimeSGFilter) : Option ℚ :=
  (List.range filter.windowSize).foldlM (fun result i =>
    (filter.coefficients[i]?).bind fun coefficient =>
      (filter.dataWindow[i]?).map fun value => result + coefficient * value) 0

def process (filter : RealTimeSGFilter) (input : ℚ) : Option (RealTimeSGFilter × ℚ) :=
  let window := pushBounded filter.windowSize filter.dataWindow input
  let filter := { filter with dataWindow := window }
  if window.length < filter.windowSize then some (filter, input)
  else filter.applyFilter.map fun result => (filter, result)

def processAll : RealTimeSGFilter → List ℚ → Option (List ℚ)
  | _, [] => some []
  | filter, input :: rest => (filter.process input).bind fun (next, result) =>
      (processAll next rest).map (result :: ·)

end RealTimeSGFilter

end AutoDrop
