import AutoDrop.FailureLatch
import AutoDrop.TastekInterlock

/-!
The error state of the `TASTEK_DRIVER`. Reads and writes of the coils share one counter, which
is never above the number of the operations, and `m_error` is a latch behind it.
-/

namespace AutoDrop.Tastek

open FailureLatch LabelledRun

inductive ModbusOp
  | lcGetCoil
  | setCoil (coilAddr : Fin 4) (on : Bool)
deriving DecidableEq

/-- An operation with its outcome. -/
def perform (retryTimes : Int) (driver : Tastek) : ModbusOp × Bool → Tastek
  | (.lcGetCoil, success) => driver.lcGetCoil retryTimes success
  | (.setCoil coilAddr on, success) => driver.setCoil retryTimes coilAddr on success

def performAll (retryTimes : Int) (driver : Tastek) (ops : List (ModbusOp × Bool)) : Tastek :=
  ops.foldl (perform retryTimes) driver

def runningStatusCheck (driver : Tastek) : Bool := driver.error ≠ true

def latch (driver : Tastek) : Latch := ⟨driver.curRetryTimes, driver.error⟩

/-- The coils that a round brings in line, with the outcomes of the writes. -/
def writes (driver : Tastek) (writeOk : Coils) (coils : List (Fin 4)) : List (ModbusOp × Bool) :=
  (coils.filter fun coil => driver.realAddrArray coil ≠ driver.onAddrArray coil).map fun coil =>
    (.setCoil coil (driver.onAddrArray coil), writeOk coil)

def roundOps (retryTimes : Int) (driver : Tastek) (readOk : Bool) (writeOk : Coils) :
    List (ModbusOp × Bool) :=
  (.lcGetCoil, readOk) ::
    writes (driver.lcGetCoil retryTimes readOk) writeOk [0, 1, 2, 3]

variable {retryTimes : Int} {driver next : Tastek} {writeOk : Coils}

theorem latch_challengeError (success : Bool) :
    latch (driver.challengeError retryTimes success) =
      feed retryTimes driver.latch success := by
  cases success with
  | false => rfl
  | true => rfl

theorem latch_perform (op : ModbusOp × Bool) :
    latch (driver.perform retryTimes op) = feed retryTimes driver.latch op.2 := by
  obtain ⟨kind, success⟩ := op
  cases kind with
  | lcGetCoil => exact latch_challengeError success
  | setCoil coilAddr on => exact latch_challengeError success

theorem latch_performAll (ops : List (ModbusOp × Bool)) :
    latch (driver.performAll retryTimes ops) =
      (ops.map Prod.snd).foldl (feed retryTimes) driver.latch := by
  rw [List.foldl_map]
  refine (List.foldl_hom latch ?_).symm
  intro reached op
  exact (latch_perform op).symm

theorem foldl_visitCoil (coils : List (Fin 4)) (driver : Tastek) :
    coils.foldl (visitCoil retryTimes writeOk) driver =
      driver.performAll retryTimes (driver.writes writeOk coils) := by
  induction coils generalizing driver with
  | nil => rfl
  | cons coil rest ih =>
      have same : (driver.visitCoil retryTimes writeOk coil).writes writeOk rest =
          driver.writes writeOk rest := by
        simp only [writes, visitCoil_onAddrArray, visitCoil_realAddrArray]
      rw [List.foldl_cons, ih, same]
      by_cases differs : driver.realAddrArray coil = driver.onAddrArray coil
      · simp [visitCoil, writes, differs]
      · simp [visitCoil, writes, differs, performAll, perform]

/-- A round is a sequence of operations. -/
theorem modbusRound_eq (readOk : Bool) :
    driver.modbusRound retryTimes readOk writeOk =
      driver.performAll retryTimes (driver.roundOps retryTimes readOk writeOk) :=
  foldl_visitCoil [0, 1, 2, 3] _

def outcomes (retryTimes : Int) (driver : Tastek) : TastekLabel → List Bool
  | .relay _ => []
  | .modbusRound readOk writeOk => (driver.roundOps retryTimes readOk writeOk).map Prod.snd

/-- The outcomes of all operations of a run. -/
def runOutcomes (coe retryTimes : Int) : Tastek → List TastekLabel → List Bool
  | _, [] => []
  | driver, label :: rest =>
      driver.outcomes retryTimes label ++
        match step coe retryTimes driver label with
        | none => []
        | some next => runOutcomes coe retryTimes next rest

theorem latch_openCloseLcCmds (cmds : List LcCmd) (driver : Tastek) :
    latch (cmds.foldl openCloseLcCmd driver) = driver.latch := by
  induction cmds generalizing driver with
  | nil => rfl
  | cons cmd rest ih =>
      rw [List.foldl_cons, ih]
      unfold openCloseLcCmd
      split <;> rfl

theorem latch_step {coe : Int} {label : TastekLabel}
    (taken : step coe retryTimes driver label = some next) :
    latch next = (driver.outcomes retryTimes label).foldl (feed retryTimes) driver.latch := by
  cases label with
  | relay label =>
      obtain ⟨⟨relay, cmds⟩, -, rfl⟩ := Option.map_eq_some_iff.mp taken
      exact latch_openCloseLcCmds cmds _
  | modbusRound readOk writeOk =>
      obtain rfl := Option.some.inj taken
      rw [modbusRound_eq, latch_performAll]
      rfl

theorem latch_run {coe : Int} {labels : List TastekLabel} {final : Tastek}
    (run : exec (step coe retryTimes) driver labels = some final) :
    latch final =
      (runOutcomes coe retryTimes driver labels).foldl (feed retryTimes) driver.latch := by
  induction labels generalizing driver with
  | nil =>
      obtain rfl := Option.some.inj run
      rfl
  | cons label rest ih =>
      obtain ⟨next, taken, onward⟩ := exec_cons_eq_some.mp run
      rw [runOutcomes, taken, List.foldl_append, ← latch_step taken]
      exact ih onward

theorem runningStatusCheck_eq_false : runningStatusCheck driver = false ↔ driver.error = true := by
  simp [runningStatusCheck]

theorem error_of_latch {outcomes : List Bool} {final : Tastek}
    (reached : latch final = outcomes.foldl (feed retryTimes) driver.latch)
    (failed : runningStatusCheck driver = false) : runningStatusCheck final = false := by
  rw [runningStatusCheck_eq_false] at failed ⊢
  have before : driver.latch.set = true := failed
  have after := set_foldl_feed retryTimes before outcomes
  rwa [← reached] at after

/-- A run of failures that is longer than the retries sets the error, for good, whichever of
the operations fail. -/
theorem error_iff_failureRun (retryTimes : Nat) (coil2 coil3 : Bool) :
    (∀ ops, (performAll retryTimes (start coil2 coil3) ops).error = true ↔
      FailureRun retryTimes (ops.map Prod.snd)) ∧
    (∀ ops more, runningStatusCheck (performAll retryTimes (start coil2 coil3) ops) = false →
      runningStatusCheck (performAll retryTimes (start coil2 coil3) (ops ++ more)) = false) ∧
    ∀ coe labels final, exec (step coe retryTimes) (start coil2 coil3) labels = some final →
      (final.error = true ↔
        FailureRun retryTimes (runOutcomes coe retryTimes (start coil2 coil3) labels)) ∧
      ∀ more later, runningStatusCheck final = false →
        exec (step coe retryTimes) final more = some later → runningStatusCheck later = false := by
  have set_iff {driver : Tastek} {outcomes : List Bool}
      (reached : latch driver = outcomes.foldl (feed retryTimes) (start coil2 coil3).latch) :
      driver.error = true ↔ FailureRun retryTimes outcomes := by
    rw [← (foldl_feed retryTimes outcomes).2]
    exact iff_of_eq (congrArg (fun latch => latch.set = true) reached)
  refine ⟨?_, ?_, ?_⟩
  · intro ops
    exact set_iff (latch_performAll ops)
  · intro ops more failed
    rw [performAll, List.foldl_append]
    exact error_of_latch (latch_performAll more) failed
  · intro coe labels final run
    refine ⟨set_iff (latch_run run), ?_⟩
    intro more later failed onward
    exact error_of_latch (latch_run onward) failed

/-- A read and a write fail with one retry. -/
theorem error_iff_failureRun_twice :
    runningStatusCheck (performAll 1 (start false false)
      ([(.lcGetCoil, false), (.setCoil 0 true, false)] ++ [(.lcGetCoil, true)])) = false :=
  (error_iff_failureRun 1 false false).2.1
    [(.lcGetCoil, false), (.setCoil 0 true, false)] [(.lcGetCoil, true)] rfl

end AutoDrop.Tastek
