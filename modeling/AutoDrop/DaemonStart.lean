import AutoDrop.SupervisorCore

/-!
`start_device` and `start_sm` with the answer of `fork`. The branch of the child in
`create_sub_process` is taken for every pid that is not positive, so a process whose fork
fails goes on in it and becomes the program that it wanted to start.
-/

namespace AutoDrop

inductive ForkAnswer
  | child
  | error
deriving DecidableEq, Repr

/-- How a call ends for the process that makes it. -/
inductive CallEnd (Value : Type)
  | returns (supervisor : Supervisor) (value : Value)
  | execs (path : String) (argv : List String)

namespace Supervisor

structure DeviceConfig where
  driverName : String
  port : Nat
  argv : List String
  deviceName : String
deriving DecidableEq, Repr, Inhabited

structure SmConfig where
  smName : String
  port : Nat
  argv : List String
deriving DecidableEq, Repr, Inhabited

/-- `start_daemon`; its value is the port. -/
def callStartDaemon (supervisor : Supervisor) (fork : ForkAnswer) (fd : Nat) (path : String)
    (argv : List String) (name : String) : Option (CallEnd Nat) :=
  match fork with
  | .child =>
      if supervisor.pidfd fd = none then
        some (.returns (supervisor.startDaemon fd) supervisor.newPort)
      else none
  | .error => some (.execs ("/bin/" ++ path) (name :: toString supervisor.newPort :: argv))

/-- The end of `start_device` and `start_sm`; where the port is 0 the default value is left. -/
def record {Config : Type} [Inhabited Config] (kind : DaemonKind) (node : Nat)
    (config : Nat → Config) : CallEnd Nat → CallEnd Config
  | .returns supervisor port =>
      if 0 < port then .returns (supervisor.recordStart kind port node) (config port)
      else .returns supervisor default
  | .execs path argv => .execs path argv

def callStartDevice (supervisor : Supervisor) (fork : ForkAnswer) (fd : Nat) (driverName : String)
    (argv : List String) (deviceName : String) : Option (CallEnd DeviceConfig) :=
  (supervisor.callStartDaemon fork fd driverName argv deviceName).map
    (record .device supervisor.nextNode fun port => ⟨driverName, port, argv, deviceName⟩)

def callStartSm (supervisor : Supervisor) (fork : ForkAnswer) (fd : Nat) (smName : String)
    (argv : List String) : Option (CallEnd SmConfig) :=
  (supervisor.callStartDaemon fork fd "sm_daemon" argv smName).map
    (record .sm supervisor.nextNode fun port => ⟨smName, port, argv⟩)

def PortFree (supervisor : Supervisor) : Prop :=
  ∃ port, minPort ≤ port ∧ port < maxPort ∧
    supervisor.configMap .device port = none ∧ supervisor.configMap .sm port = none

/-- The caller gets port 0 back, goes on, and finds everything as it was. -/
def ChangesNothing {Config : Type} (supervisor : Supervisor) (port : Config → Nat)
    (result : CallEnd Config) : Prop :=
  ∃ after config, result = .returns after config ∧ port config = 0 ∧
    after.configMap = supervisor.configMap ∧ after.subprocessMap = supervisor.subprocessMap ∧
      after.sc = supervisor.sc ∧ after.children = supervisor.children ∧
        after.nextPid = supervisor.nextPid

/-- A call without a free port, or whose fork fails, changes nothing. -/
def FailsCleanly {Config : Type} (supervisor : Supervisor) (fork : ForkAnswer)
    (port : Config → Nat) (ended : CallEnd Config) : Prop :=
  ¬supervisor.PortFree ∨ fork = .error → supervisor.ChangesNothing port ended

theorem newPort_pos_iff (supervisor : Supervisor) :
    0 < supervisor.newPort ↔ supervisor.PortFree := by
  have listed (port : Nat) :
      port ∈ List.range' minPort (maxPort - minPort) ↔ minPort ≤ port ∧ port < maxPort := by
    rw [List.mem_range'_1]
    unfold minPort maxPort
    omega
  unfold newPort
  cases found : supervisor.allocPort with
  | none =>
      refine iff_of_false (by simp) ?_
      rintro ⟨port, lower, upper, device, sm⟩
      have taken := List.find?_eq_none.mp found port ((listed port).mpr ⟨lower, upper⟩)
      simp [device, sm] at taken
  | some port =>
      obtain ⟨lower, upper⟩ := (listed port).mp (List.mem_of_find?_eq_some found)
      have free := List.find?_some found
      simp only [Bool.and_eq_true, Option.isNone_iff_eq_none] at free
      have positive : 0 < port := Nat.lt_of_lt_of_le (by decide) lower
      exact iff_of_true positive ⟨port, lower, upper, free⟩

theorem startDevice_eq_call (supervisor : Supervisor) (fd : Nat) (driverName : String)
    (argv : List String) (deviceName : String) :
    supervisor.callStartDevice .child fd driverName argv deviceName =
      (supervisor.startDevice fd).map fun after =>
        .returns after (if 0 < supervisor.newPort
          then ⟨driverName, supervisor.newPort, argv, deviceName⟩ else default) := by
  unfold callStartDevice callStartDaemon startDevice startRun
  by_cases unused : supervisor.pidfd fd = none
  · by_cases free : 0 < supervisor.newPort
    · simp [unused, free, record]
    · simp [unused, free, record]
  · simp [unused]

theorem startSm_eq_call (supervisor : Supervisor) (fd : Nat) (smName : String)
    (argv : List String) :
    supervisor.callStartSm .child fd smName argv =
      (supervisor.startSm fd).map fun after =>
        .returns after (if 0 < supervisor.newPort
          then ⟨smName, supervisor.newPort, argv⟩ else default) := by
  unfold callStartSm callStartDaemon startSm startRun
  by_cases unused : supervisor.pidfd fd = none
  · by_cases free : 0 < supervisor.newPort
    · simp [unused, free, record]
    · simp [unused, free, record]
  · simp [unused]

/-- Without a free port the maps are left alone, but the child has been started. -/
theorem callStartDevice_noPort {supervisor : Supervisor} {fd : Nat} {driverName : String}
    {argv : List String} {deviceName : String} {ended : CallEnd DeviceConfig}
    (full : ¬supervisor.PortFree)
    (called : supervisor.callStartDevice .child fd driverName argv deviceName = some ended) :
    ended = .returns (supervisor.startDaemon fd) default := by
  have zero : ¬0 < supervisor.newPort := fun positive =>
    full (supervisor.newPort_pos_iff.mp positive)
  rw [startDevice_eq_call, startDevice, startRun, if_neg zero, if_neg zero] at called
  split at called
  · exact (Option.some.inj called).symm
  · cases called

/-- The child is there, and its node registered, before anything tests the port. -/
theorem nextPid_of_startRun {supervisor after : Supervisor} {kind : DaemonKind} {fd : Nat}
    (started : supervisor.startRun kind fd = some after) :
    after.nextPid = supervisor.nextPid + 1 := by
  unfold startRun at started
  split at started
  · rw [← Option.some.inj started]
    split
    · rfl
    · rfl
  · cases started

theorem not_changesNothing_of_child {Config : Type} {supervisor : Supervisor} {kind : DaemonKind}
    {fd : Nat} {port : Config → Nat} {config : Config} {ended : CallEnd Config}
    (called : (supervisor.startRun kind fd).map (fun after => .returns after config) =
      some ended) : ¬supervisor.ChangesNothing port ended := by
  obtain ⟨after, started, rfl⟩ := Option.map_eq_some_iff.mp called
  rintro ⟨other, _, same, _, _, _, _, _, pid⟩
  obtain ⟨rfl, _⟩ := CallEnd.returns.inj same
  have created := nextPid_of_startRun started
  omega

theorem not_changesNothing_of_execs {Config : Type} {supervisor : Supervisor}
    {port : Config → Nat} (path : String) (argv : List String) :
    ¬supervisor.ChangesNothing port (.execs path argv) := by
  rintro ⟨after, config, same, _⟩
  cases same

theorem failsCleanly_iff_of_not {Config : Type} {supervisor : Supervisor} {fork : ForkAnswer}
    {port : Config → Nat} {ended : CallEnd Config}
    (changes : ¬supervisor.ChangesNothing port ended) :
    supervisor.FailsCleanly fork port ended ↔ supervisor.PortFree ∧ fork = .child := by
  unfold FailsCleanly
  cases fork with
  | child => simp [changes]
  | error => simp [changes]

/-- No start that fails leaves things as they were: without a free port the child is created
and registered, and without a child the caller gives up its own program. -/
theorem failsCleanly_iff (supervisor : Supervisor) (fork : ForkAnswer) (fd : Nat) :
    (∀ driverName argv deviceName ended,
      supervisor.callStartDevice fork fd driverName argv deviceName = some ended →
        (supervisor.FailsCleanly fork DeviceConfig.port ended ↔
          supervisor.PortFree ∧ fork = .child)) ∧
    ∀ smName argv ended, supervisor.callStartSm fork fd smName argv = some ended →
      (supervisor.FailsCleanly fork SmConfig.port ended ↔
        supervisor.PortFree ∧ fork = .child) := by
  constructor
  · intro driverName argv deviceName ended called
    apply failsCleanly_iff_of_not
    cases fork with
    | child =>
        rw [startDevice_eq_call] at called
        exact not_changesNothing_of_child called
    | error =>
        obtain rfl := Option.some.inj called
        exact not_changesNothing_of_execs _ _
  · intro smName argv ended called
    apply failsCleanly_iff_of_not
    cases fork with
    | child =>
        rw [startSm_eq_call] at called
        exact not_changesNothing_of_child called
    | error =>
        obtain rfl := Option.some.inj called
        exact not_changesNothing_of_execs _ _

theorem failsCleanly_iff_first :
    ¬start.FailsCleanly .error SmConfig.port (.execs "/bin/sm_daemon" ["runner", "50110"]) := by
  intro clean
  have delivered := ((failsCleanly_iff start .error 3).2 "runner" [] _ rfl).mp clean
  exact absurd delivered.2 (by decide)

/-- The first start of all, with a fork that fails. -/
theorem failed_start_execs :
    ¬∀ supervisor fork fd smName argv ended,
      callStartSm supervisor fork fd smName argv = some ended →
        supervisor.FailsCleanly fork SmConfig.port ended := by
  intro all
  have clean := all start .error 3 "runner" [] _ rfl
  obtain ⟨after, config, same, _⟩ := clean (.inr rfl)
  cases same

end Supervisor

end AutoDrop
