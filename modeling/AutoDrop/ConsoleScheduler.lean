import AutoDrop.CoMutexCore
import AutoDrop.LabelledRun

/-!
The console coroutine under `LoopScheduler::Run`. `Post` and `Stop` are called by handlers
while the coroutine is suspended, and by its task while it has the processor. A task may
suspend for reasons of its own, and what then wakes it has one `set_co_state(READY)` left.
-/

namespace AutoDrop

open LabelledRun

/-- Where the coroutine stands; `underrun` is `front()` of an empty queue, and behind it and
behind `ended` there is no step. -/
inductive ConsolePlace
  | created
  | execOne
  | task
  | ended
  | underrun
deriving DecidableEq

structure LoopScheduler (Task : Type*) where
  tasks : List Task
  running : Bool
  -- whether m_tmp_co is set
  tmpCo : Bool
  coState : AcrState
  current : Bool
  place : ConsolePlace
  -- the wakes that are still to come from what the tasks waited for
  sources : Nat
  posted : List Task
  executed : List Task

inductive ConsoleLabel (Task : Type*)
  | resume
  | post (task : Task)
  | stop
  | yieldCo
  | wake
  | finishTask

namespace LoopScheduler

variable {Task : Type*}

def start : LoopScheduler Task where
  tasks := []
  running := true
  tmpCo := false
  coState := .ready
  current := false
  place := .created
  sources := 0
  posted := []
  executed := []

def setReady (console : LoopScheduler Task) : LoopScheduler Task :=
  if console.tmpCo then { console with coState := .ready } else console

def post (console : LoopScheduler Task) (task : Task) : LoopScheduler Task :=
  { console with tasks := console.tasks ++ [task], posted := console.posted ++ [task] }.setReady

def stop (console : LoopScheduler Task) : LoopScheduler Task :=
  { console with running := false }.setReady

/-- `ExecOne` up to its `yield_co`. -/
def enterExecOne (console : LoopScheduler Task) : LoopScheduler Task :=
  { console with tmpCo := true, place := .execOne, coState := .suspend, current := false }

/-- `ExecOne` behind its `yield_co`, up to the call of the task. -/
def takeTask (console : LoopScheduler Task) : LoopScheduler Task :=
  if console.running then
    match console.tasks with
    | [] => { console with place := .underrun }
    | task :: tasks =>
        { console with tasks := tasks, place := .task, executed := console.executed ++ [task] }
  else { console with place := .ended, coState := .dead, current := false }

def resume (console : LoopScheduler Task) : LoopScheduler Task :=
  let resumed := { console with coState := .running, current := true }
  match console.place with
  | .created => resumed.enterExecOne
  | .execOne => resumed.takeTask
  | _ => resumed

def Over (console : LoopScheduler Task) : Prop :=
  console.place = .ended ∨ console.place = .underrun

instance (console : LoopScheduler Task) : Decidable console.Over :=
  inferInstanceAs (Decidable (_ ∨ _))

def step (console : LoopScheduler Task) : ConsoleLabel Task → Option (LoopScheduler Task)
  | .resume =>
      if ¬console.Over ∧ console.coState = .ready ∧ console.current = false then
        some console.resume
      else none
  | .post task => if console.Over then none else some (console.post task)
  | .stop => if console.Over then none else some console.stop
  | .yieldCo =>
      if console.place = .task ∧ console.current = true then
        some { console with
          coState := .suspend, current := false, sources := console.sources + 1 }
      else none
  | .wake =>
      if ¬console.Over ∧ console.current = false ∧ 0 < console.sources then
        some { console with coState := .ready, sources := console.sources - 1 }
      else none
  | .finishTask =>
      if console.place = .task ∧ console.current = true then some console.enterExecOne else none

structure NoLostTask (console : LoopScheduler Task) : Prop where
  idle : console.place = .execOne → console.coState = .suspend →
    console.tasks = [] ∧ console.running = true
  ordered : console.posted = console.executed ++ console.tasks
  finished : console.place = .ended → console.tasks = []
  nonempty : console.place ≠ .underrun

/-- A task is posted, or the console stopped, while it is in `ExecOne` with nothing to do. -/
def Awaited (console : LoopScheduler Task) : ConsoleLabel Task → Prop
  | .post _ => console.place = .execOne ∧ console.tasks = [] ∧ console.running = true
  | .stop => console.place = .execOne ∧ console.tasks = []
  | _ => True

instance (console : LoopScheduler Task) (label : ConsoleLabel Task) :
    Decidable (Awaited console label) :=
  match label with
  | .post _ => inferInstanceAs (Decidable (_ ∧ _ ∧ _))
  | .stop => inferInstanceAs (Decidable (_ ∧ _))
  | .resume => inferInstanceAs (Decidable True)
  | .yieldCo => inferInstanceAs (Decidable True)
  | .wake => inferInstanceAs (Decidable True)
  | .finishTask => inferInstanceAs (Decidable True)

/-- Suspended in `ExecOne`, or behind `Run`. -/
def AtRest (console : LoopScheduler Task) : Prop :=
  console.place = .execOne ∧ console.coState = .suspend ∨ console.place = .ended

/-- What holds while every call is awaited. -/
def Tidy (console : LoopScheduler Task) : Prop :=
  match console.place with
  | .created => console.tasks = [] ∧ console.running = true ∧ console.sources = 0
  | .execOne => console.tmpCo = true ∧ console.sources = 0 ∧
      (console.coState = .suspend ∧ console.tasks = [] ∧ console.running = true ∨
        console.coState = .ready ∧
          console.tasks.length = if console.running then 1 else 0)
  | .task => console.tasks = [] ∧ console.running = true ∧
      (console.sources = 0 ∨
        console.current = false ∧ console.coState = .suspend ∧ console.sources = 1)
  | .ended => console.tasks = []
  | .underrun => False

/-- A task or the stop is left over, behind the one that the console is awake for. -/
def Doomed (console : LoopScheduler Task) : Prop :=
  match console.place with
  | .created => console.tasks ≠ [] ∨ console.running = false
  | .execOne => console.coState = .ready ∧
      (if console.running then 1 else 0) < console.tasks.length
  | .task => console.tasks ≠ [] ∨ console.running = false
  | .ended => False
  | .underrun => False

variable {console next : LoopScheduler Task} {label : ConsoleLabel Task}

@[simp] theorem post_place (task : Task) : (console.post task).place = console.place := by
  unfold post setReady
  split <;> rfl

@[simp] theorem post_tasks (task : Task) :
    (console.post task).tasks = console.tasks ++ [task] := by
  unfold post setReady
  split <;> rfl

@[simp] theorem post_running (task : Task) : (console.post task).running = console.running := by
  unfold post setReady
  split <;> rfl

@[simp] theorem stop_place : console.stop.place = console.place := by
  unfold stop setReady
  split <;> rfl

@[simp] theorem stop_tasks : console.stop.tasks = console.tasks := by
  unfold stop setReady
  split <;> rfl

@[simp] theorem stop_running : console.stop.running = false := by
  unfold stop setReady
  split <;> rfl

def Wakeable (console : LoopScheduler Task) : Prop :=
  console.tmpCo = true ∨ console.coState = .ready

theorem Wakeable.setReady (wakeable : Wakeable console) :
    console.setReady.coState = .ready := by
  unfold LoopScheduler.setReady
  split
  · rfl
  · rename_i unset
    exact wakeable.resolve_left unset

theorem Wakeable.post (wakeable : Wakeable console) (task : Task) :
    (console.post task).coState = .ready :=
  Wakeable.setReady wakeable

theorem Wakeable.stop (wakeable : Wakeable console) : console.stop.coState = .ready :=
  Wakeable.setReady wakeable

/-- What a step finds, and what it leaves. -/
theorem step_cases : step console label = some next →
    match label with
    | .resume => (¬console.Over ∧ console.coState = .ready ∧ console.current = false) ∧
        console.resume = next
    | .post task => ¬console.Over ∧ console.post task = next
    | .stop => ¬console.Over ∧ console.stop = next
    | .yieldCo => (console.place = .task ∧ console.current = true) ∧
        { console with
          coState := .suspend, current := false, sources := console.sources + 1 } = next
    | .wake => (¬console.Over ∧ console.current = false ∧ 0 < console.sources) ∧
        { console with coState := .ready, sources := console.sources - 1 } = next
    | .finishTask => (console.place = .task ∧ console.current = true) ∧
        console.enterExecOne = next := by
  intro taken
  cases label with
  | resume => simpa [step] using taken
  | post task => simpa [step] using taken
  | stop => simpa [step] using taken
  | yieldCo => simpa [step] using taken
  | wake => simpa [step] using taken
  | finishTask => simpa [step] using taken

theorem ordered_takeTask (ordered : console.posted = console.executed ++ console.tasks) :
    console.takeTask.posted = console.takeTask.executed ++ console.takeTask.tasks := by
  unfold takeTask
  cases waiting : console.tasks with
  | nil => split <;> simpa [waiting] using ordered
  | cons task tasks => split <;> simpa [waiting] using ordered

theorem ordered_setReady (ordered : console.posted = console.executed ++ console.tasks) :
    console.setReady.posted = console.setReady.executed ++ console.setReady.tasks := by
  unfold setReady
  split <;> exact ordered

theorem ordered_step (ordered : console.posted = console.executed ++ console.tasks)
    (taken : step console label = some next) : next.posted = next.executed ++ next.tasks := by
  have moved := step_cases taken
  cases label with
  | resume =>
      obtain ⟨-, rfl⟩ := moved
      unfold resume
      split
      · exact ordered
      · exact ordered_takeTask ordered
      · exact ordered
  | post task =>
      obtain ⟨-, rfl⟩ := moved
      apply ordered_setReady
      simp [ordered]
  | stop =>
      obtain ⟨-, rfl⟩ := moved
      exact ordered_setReady ordered
  | yieldCo =>
      obtain ⟨-, rfl⟩ := moved
      exact ordered
  | wake =>
      obtain ⟨-, rfl⟩ := moved
      exact ordered
  | finishTask =>
      obtain ⟨-, rfl⟩ := moved
      exact ordered

theorem tidy_resume (tidy : Tidy console) (ready : console.coState = .ready) :
    Tidy console.resume := by
  cases place : console.place with
  | created =>
      simp only [Tidy, place] at tidy
      simp [Tidy, resume, enterExecOne, place, tidy]
  | execOne =>
      simp only [Tidy, place, ready] at tidy
      obtain ⟨-, sources, ⟨asleep, -⟩ | ⟨-, waiting⟩⟩ := tidy
      · cases asleep
      · cases running : console.running with
        | true =>
            rw [if_pos running] at waiting
            obtain ⟨task, only⟩ := List.length_eq_one_iff.mp waiting
            simp [Tidy, resume, takeTask, *]
        | false =>
            rw [running] at waiting
            have empty : console.tasks = [] := List.eq_nil_of_length_eq_zero waiting
            simp [Tidy, resume, takeTask, *]
  | task =>
      simp only [Tidy, place, ready] at tidy
      obtain ⟨empty, running, sources | ⟨-, asleep, -⟩⟩ := tidy
      · simp [Tidy, resume, *]
      · cases asleep
  | ended =>
      simp only [Tidy, place] at tidy
      simpa [Tidy, resume, place] using tidy
  | underrun =>
      simp only [Tidy, place] at tidy

theorem tidy_wake (tidy : Tidy console) (going : ¬console.Over) (some : 0 < console.sources) :
    Tidy { console with coState := .ready, sources := console.sources - 1 } := by
  cases place : console.place with
  | created =>
      simp only [Tidy, place] at tidy
      omega
  | execOne =>
      simp only [Tidy, place] at tidy
      omega
  | task =>
      simp only [Tidy, place] at tidy ⊢
      obtain ⟨empty, running, sources | ⟨-, -, sources⟩⟩ := tidy
      · omega
      · exact ⟨empty, running, .inl (by omega)⟩
  | ended => exact absurd (.inl place) going
  | underrun => exact absurd (.inr place) going

theorem tidy_step (tidy : Tidy console) (awaited : Awaited console label)
    (taken : step console label = some next) : Tidy next := by
  have moved := step_cases taken
  cases label with
  | resume =>
      obtain ⟨⟨-, ready, -⟩, rfl⟩ := moved
      exact tidy_resume tidy ready
  | post task =>
      obtain ⟨-, rfl⟩ := moved
      obtain ⟨place, empty, running⟩ := awaited
      simp only [Tidy, place] at tidy
      obtain ⟨waiting, sources, -⟩ := tidy
      simp [Tidy, post, setReady, *]
  | stop =>
      obtain ⟨-, rfl⟩ := moved
      obtain ⟨place, empty⟩ := awaited
      simp only [Tidy, place] at tidy
      obtain ⟨waiting, sources, -⟩ := tidy
      simp [Tidy, stop, setReady, *]
  | yieldCo =>
      obtain ⟨⟨place, current⟩, rfl⟩ := moved
      simp only [Tidy, place] at tidy ⊢
      obtain ⟨empty, running, sources | ⟨idle, -⟩⟩ := tidy
      · simp [*]
      · simp [idle] at current
  | wake =>
      obtain ⟨⟨going, -, some⟩, rfl⟩ := moved
      exact tidy_wake tidy going some
  | finishTask =>
      obtain ⟨⟨place, current⟩, rfl⟩ := moved
      simp only [Tidy, place] at tidy
      obtain ⟨empty, running, sources | ⟨idle, -⟩⟩ := tidy
      · simp [Tidy, enterExecOne, *]
      · simp [idle] at current

theorem Tidy.noLostTask (tidy : Tidy console)
    (ordered : console.posted = console.executed ++ console.tasks) : NoLostTask console where
  idle := by
    intro place asleep
    simp only [Tidy, place, asleep] at tidy
    obtain ⟨-, -, ⟨-, empty, running⟩ | ⟨ready, -⟩⟩ := tidy
    · exact ⟨empty, running⟩
    · cases ready
  ordered := ordered
  finished := by
    intro place
    simpa only [Tidy, place] using tidy
  nonempty := by
    intro place
    simp only [Tidy, place] at tidy

theorem doomed_of_left (going : ¬console.Over)
    (left : console.tasks ≠ [] ∨ console.running = false)
    (awake : console.place = .execOne → console.coState = .ready ∧
      (if console.running then 1 else 0) < console.tasks.length) : Doomed console := by
  cases place : console.place with
  | created => simpa only [Doomed, place] using left
  | execOne => simpa only [Doomed, place] using awake place
  | task => simpa only [Doomed, place] using left
  | ended => exact absurd (.inl place) going
  | underrun => exact absurd (.inr place) going

theorem doomed_post (going : ¬console.Over) (task : Task)
    (left : console.place = .execOne →
      Wakeable console ∧ (if console.running then 1 else 0) ≤ console.tasks.length) :
    Doomed (console.post task) := by
  apply doomed_of_left
  · simpa only [Over, post_place] using going
  · left
    simp
  · intro place
    obtain ⟨wakeable, held⟩ := left (by simpa using place)
    simp only [post_tasks, post_running, List.length_append, List.length_singleton]
    exact ⟨wakeable.post task, by omega⟩

theorem doomed_stop (going : ¬console.Over)
    (left : console.place = .execOne → Wakeable console ∧ console.tasks ≠ []) :
    Doomed console.stop := by
  apply doomed_of_left
  · simpa only [Over, stop_place] using going
  · right
    exact stop_running
  · intro place
    obtain ⟨wakeable, held⟩ := left (by simpa using place)
    simp only [stop_tasks, stop_running]
    exact ⟨wakeable.stop, List.length_pos_iff.mpr held⟩

/-- A call that the console does not wait for leaves something over. -/
theorem doomed_of_missed (tidy : Tidy console) (missed : ¬Awaited console label)
    (taken : step console label = some next) : Doomed next := by
  have moved := step_cases taken
  cases label with
  | post task =>
      obtain ⟨going, rfl⟩ := moved
      apply doomed_post going
      intro place
      simp only [Tidy, place] at tidy
      obtain ⟨waiting, -, ⟨-, empty, running⟩ | ⟨-, held⟩⟩ := tidy
      · exact absurd ⟨place, empty, running⟩ missed
      · exact ⟨.inl waiting, by omega⟩
  | stop =>
      obtain ⟨going, rfl⟩ := moved
      apply doomed_stop going
      intro place
      simp only [Tidy, place] at tidy
      exact ⟨.inl tidy.1, fun empty => missed ⟨place, empty⟩⟩
  | resume => exact absurd trivial missed
  | yieldCo => exact absurd trivial missed
  | wake => exact absurd trivial missed
  | finishTask => exact absurd trivial missed

theorem doomed_resume (doomed : Doomed console) (kept : NoLostTask console.resume) :
    Doomed console.resume := by
  cases place : console.place with
  | created =>
      simp only [Doomed, place] at doomed
      have idle := kept.idle
      simp only [resume, place, enterExecOne, forall_const] at idle
      simp [idle] at doomed
  | execOne =>
      simp only [Doomed, place] at doomed
      obtain ⟨-, left⟩ := doomed
      cases running : console.running with
      | true =>
          rw [if_pos running] at left
          cases waiting : console.tasks with
          | nil => simp [waiting] at left
          | cons task tasks =>
              rw [waiting] at left
              have some : tasks ≠ [] := by
                rintro rfl
                simp at left
              simp [Doomed, resume, takeTask, place, running, waiting, some]
      | false =>
          have finished := kept.finished
          simp only [resume, place, takeTask, running, Bool.false_eq_true, if_false,
            forall_const] at finished
          simp [finished] at left
  | task => simpa [Doomed, resume, place] using doomed
  | ended => simp only [Doomed, place] at doomed
  | underrun => simp only [Doomed, place] at doomed

theorem doomed_step (doomed : Doomed console) (taken : step console label = some next)
    (kept : NoLostTask next) : Doomed next := by
  have moved := step_cases taken
  cases label with
  | resume =>
      obtain ⟨-, rfl⟩ := moved
      exact doomed_resume doomed kept
  | post task =>
      obtain ⟨going, rfl⟩ := moved
      apply doomed_post going
      intro place
      simp only [Doomed, place] at doomed
      exact ⟨.inr doomed.1, by omega⟩
  | stop =>
      obtain ⟨going, rfl⟩ := moved
      apply doomed_stop going
      intro place
      simp only [Doomed, place] at doomed
      exact ⟨.inr doomed.1, List.length_pos_iff.mp (by omega)⟩
  | yieldCo =>
      obtain ⟨⟨place, -⟩, rfl⟩ := moved
      simpa only [Doomed, place] using doomed
  | wake =>
      obtain ⟨-, rfl⟩ := moved
      cases place : console.place with
      | execOne =>
          simp only [Doomed, place] at doomed ⊢
          exact ⟨trivial, doomed.2⟩
      | created => simpa only [Doomed, place] using doomed
      | task => simpa only [Doomed, place] using doomed
      | ended => simp only [Doomed, place] at doomed
      | underrun => simp only [Doomed, place] at doomed
  | finishTask =>
      obtain ⟨⟨place, -⟩, rfl⟩ := moved
      obtain ⟨empty, running⟩ : console.tasks = [] ∧ console.running = true := kept.idle rfl rfl
      simp [Doomed, place, empty, running] at doomed

theorem AtRest.not_doomed (rest : AtRest console) : ¬Doomed console := by
  rcases rest with ⟨place, asleep⟩ | place
  · simp [Doomed, place, asleep]
  · simp [Doomed, place]

theorem NoLostTask.executed_eq (kept : NoLostTask console) (rest : AtRest console) :
    console.executed = console.posted := by
  have empty : console.tasks = [] := by
    rcases rest with ⟨place, asleep⟩ | place
    · exact (kept.idle place asleep).1
    · exact kept.finished place
  rw [kept.ordered, empty, List.append_nil]

/-- While every call is awaited no task is lost, and a run that loses none and comes to rest
had no other calls. -/
theorem noLostTask_iff (labels : List (ConsoleLabel Task)) {final : LoopScheduler Task}
    (run : exec step start labels = some final) :
    (Meets step Awaited start labels → Always step NoLostTask start labels ∧
      (AtRest final → final.executed = final.posted)) ∧
      (AtRest final → Always step NoLostTask start labels →
        Meets step Awaited start labels) := by
  have preserved (console : LoopScheduler Task) (label : ConsoleLabel Task)
      (next : LoopScheduler Task) (holds : Tidy console ∧
        console.posted = console.executed ++ console.tasks) (awaited : Awaited console label)
      (taken : step console label = some next) :
      Tidy next ∧ next.posted = next.executed ++ next.tasks :=
    ⟨tidy_step holds.1 awaited taken, ordered_step holds.2 taken⟩
  have initial : Tidy (start : LoopScheduler Task) ∧
      (start : LoopScheduler Task).posted = start.executed ++ start.tasks :=
    ⟨⟨rfl, rfl, rfl⟩, rfl⟩
  constructor
  · intro meets
    have kept : Always step NoLostTask start labels := by
      apply (always_of_meets preserved initial meets).mono
      intro console holds
      exact holds.1.noLostTask holds.2
    exact ⟨kept, (kept.last run).executed_eq⟩
  · intro rest always
    refine meets_of_always preserved ?_ ?_ initial run rest.not_doomed always
    · intro console label next holds missed taken _
      exact doomed_of_missed holds.1 missed taken
    · intro console label next doomed taken kept
      exact doomed_step doomed taken kept

/-- Two tasks, the first of which waits for something, and a stop. -/
theorem noLostTask_twice :
    Always step NoLostTask start [.resume, .post 1, .resume, .yieldCo, .wake, .resume,
      .finishTask, .post 2, .resume, .finishTask, .stop, .resume] :=
  ((noLostTask_iff _ rfl).1 (by decide)).1

/-- `exit` stops the console from inside its task, which then waits for one more task and
leaves it in the queue. -/
theorem noLostTask_fails :
    (exec step start [.resume, .post 1, .resume, .stop, .finishTask]).map
        (fun console => (console.place, console.coState, console.running)) =
      some (.execOne, .suspend, false) ∧
    (exec step start
        [.resume, .post 1, .resume, .stop, .finishTask, .post 2, .resume]).map
        (fun console => (console.place, console.executed, console.tasks)) =
      some (.ended, [1], [2]) ∧
    ¬∀ labels (final : LoopScheduler Nat), exec step start labels = some final →
      NoLostTask final := by
  refine ⟨rfl, rfl, ?_⟩
  intro all
  have kept := all [.resume, .post 1, .resume, .stop, .finishTask] _ rfl
  have stopped := (kept.idle rfl rfl).2
  cases stopped

end LoopScheduler

end AutoDrop
