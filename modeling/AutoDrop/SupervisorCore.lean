import AutoDrop.EventSc
import AutoDrop.LabelledRun
import Mathlib.Data.List.Basic

/-!
The child processes of `config_management_impl`. A call of `start_device` or `start_sm`
makes one `SUBPROCESS_EVENT_SC_NODE`, which stays its node when the child is restarted; the
maps tell that node beside the configuration. A call yields only where `wait_stop_daemon`
waits for the descriptor of the child and where `handleEvent` waits two seconds before a
restart. Stopping sends the child a one-way request, which is no step of its own.
-/

namespace AutoDrop

inductive DaemonKind
  | device
  | sm
deriving DecidableEq, Repr

inductive ChildStatus
  | live
  | exited (ok : Bool)
  | reaped
deriving DecidableEq, Repr

/-- A process by its pid, with the node that created it and the port among its arguments. -/
structure Child where
  node : Nat
  port : Nat
  status : ChildStatus

structure DaemonNode where
  port : Nat
  pid : Nat
  fd : Nat

/-- A call in `wait_stop_daemon`: the node that the port was listed with, and the node that
`m_subprocess_map` had for the port. -/
structure StopCall where
  port : Nat
  started : Nat
  node : Nat
deriving DecidableEq, Repr

inductive FdNode
  | subprocess (node : Nat)
  | coEvent (stop : StopCall)
deriving DecidableEq, Repr

/-- `lastStart` and `stopped` are not kept by the program: the last start of a kind that got
the port, and the starts that a call to stop them has returned from. -/
structure Supervisor where
  configMap : DaemonKind → Nat → Option Nat
  subprocessMap : Nat → Option Nat
  sc : EventSc FdNode
  nodes : Nat → DaemonNode
  nextNode : Nat
  children : Nat → Child
  nextPid : Nat
  pidfd : Nat → Option Nat
  delayed : Nat → Bool
  stops : List StopCall
  lastStart : DaemonKind → Nat → Option Nat
  stopped : Nat → Bool

inductive SupervisorLabel
  | startDevice (fd : Nat)
  | startSm (fd : Nat)
  | stopDevice (port : Nat)
  | stopSm (port : Nat)
  | childExit (pid : Nat) (ok : Bool)
  | handleEvent (fd : Nat) (garbage : Bool)
  | restart (node fd : Nat)
  | destroyNode (node : Nat)
deriving DecidableEq, Repr

namespace Supervisor

def start : Supervisor where
  configMap := fun _ _ => none
  subprocessMap := fun _ => none
  sc := .start
  nodes := fun _ => ⟨0, 0, 0⟩
  nextNode := 0
  children := fun _ => ⟨0, 0, .reaped⟩
  nextPid := 0
  pidfd := fun _ => none
  delayed := fun _ => false
  stops := []
  lastStart := fun _ _ => none
  stopped := fun _ => false

def minPort : Nat := 50110

def maxPort : Nat := 53000

def allocPort (supervisor : Supervisor) : Option Nat :=
  (List.range' minPort (maxPort - minPort)).find? fun port =>
    (supervisor.configMap .device port).isNone && (supervisor.configMap .sm port).isNone

def status (supervisor : Supervisor) (node : Nat) : ChildStatus :=
  (supervisor.children (supervisor.nodes node).pid).status

def listPort (supervisor : Supervisor) (kind : DaemonKind) (port : Nat) (node : Option Nat) :
    Supervisor :=
  { supervisor with
    configMap := Function.update supervisor.configMap kind
      (Function.update (supervisor.configMap kind) port node) }

/-- `create_sub_process` and `pidfd_open` for a node, which then registers itself. -/
def launch (supervisor : Supervisor) (node port fd : Nat) : Supervisor :=
  { supervisor with
    nodes := Function.update supervisor.nodes node ⟨port, supervisor.nextPid, fd⟩
    children := Function.update supervisor.children supervisor.nextPid ⟨node, port, .live⟩
    nextPid := supervisor.nextPid + 1
    pidfd := Function.update supervisor.pidfd fd (some supervisor.nextPid)
    sc := supervisor.sc.registerNode fd (.subprocess node) }

/-- The port is 0 where no port is free; the child is started all the same. -/
def newPort (supervisor : Supervisor) : Nat :=
  supervisor.allocPort.getD 0

def startDaemon (supervisor : Supervisor) (fd : Nat) : Supervisor :=
  { supervisor.launch supervisor.nextNode supervisor.newPort fd with
    nextNode := supervisor.nextNode + 1 }

def recordStart (supervisor : Supervisor) (kind : DaemonKind) (port node : Nat) : Supervisor :=
  { supervisor.listPort kind port (some node) with
    subprocessMap := Function.update supervisor.subprocessMap port (some node)
    lastStart := Function.update supervisor.lastStart kind
      (Function.update (supervisor.lastStart kind) port (some node)) }

/-- The kernel gives a new descriptor a number that is not in use. -/
def startRun (supervisor : Supervisor) (kind : DaemonKind) (fd : Nat) : Option Supervisor :=
  if supervisor.pidfd fd = none then
    some (if 0 < supervisor.newPort then
      (supervisor.startDaemon fd).recordStart kind supervisor.newPort supervisor.nextNode
    else supervisor.startDaemon fd)
  else none

def startDevice (supervisor : Supervisor) (fd : Nat) : Option Supervisor :=
  supervisor.startRun .device fd

def startSm (supervisor : Supervisor) (fd : Nat) : Option Supervisor :=
  supervisor.startRun .sm fd

/-- `wait_stop_daemon` up to its yield; it returns at once where the port has no entry. -/
def waitStopDaemon (supervisor : Supervisor) (port started : Nat) : Supervisor :=
  match supervisor.subprocessMap port with
  | none => { supervisor with stopped := Function.update supervisor.stopped started true }
  | some node =>
      let fd := (supervisor.nodes node).fd
      { supervisor with
        sc := (supervisor.sc.unregisterNode fd).registerNode fd (.coEvent ⟨port, started, node⟩)
        stops := ⟨port, started, node⟩ :: supervisor.stops }

/-- Where the port is not listed the call returns at once, also while another one still waits
for the child. -/
def stopRun (supervisor : Supervisor) (kind : DaemonKind) (port : Nat) : Supervisor :=
  match supervisor.configMap kind port with
  | none =>
      { supervisor with
        stopped := (supervisor.lastStart kind port).elim supervisor.stopped
          (Function.update supervisor.stopped · true) }
  | some started => (supervisor.listPort kind port none).waitStopDaemon port started

def stopDevice (supervisor : Supervisor) (port : Nat) : Supervisor :=
  supervisor.stopRun .device port

def stopSm (supervisor : Supervisor) (port : Nat) : Supervisor :=
  supervisor.stopRun .sm port

def setStatus (supervisor : Supervisor) (pid : Nat) (status : ChildStatus) : Supervisor :=
  { supervisor with
    children := Function.update supervisor.children pid
      { supervisor.children pid with status := status } }

def childExit (supervisor : Supervisor) (pid : Nat) (ok : Bool) : Option Supervisor :=
  if (supervisor.children pid).status = .live then some (supervisor.setStatus pid (.exited ok))
  else none

/-- What `waitpid` with `WNOHANG` does to the children. -/
def reap (children : Nat → Child) (pid : Nat) : Nat → Child :=
  match (children pid).status with
  | .exited _ => Function.update children pid { children pid with status := .reaped }
  | _ => children

/-- Whether the status that `handleEvent` reads is an exit with code 0; where there is none to
read, its variable holds garbage. -/
def exitOk (supervisor : Supervisor) (node : Nat) (garbage : Bool) : Bool :=
  match supervisor.status node with
  | .exited ok => ok
  | _ => garbage

/-- `SUBPROCESS_EVENT_SC_NODE::handleEvent` up to its delay. -/
def subprocessEvent (supervisor : Supervisor) (node : Nat) (garbage : Bool) : Supervisor :=
  { supervisor with
    sc := supervisor.sc.unregisterNode (supervisor.nodes node).fd
    children := reap supervisor.children (supervisor.nodes node).pid
    delayed :=
      if supervisor.exitOk node garbage = true then supervisor.delayed
      else Function.update supervisor.delayed node true }

/-- The end of `wait_stop_daemon`, behind its yield. -/
def coEvent (supervisor : Supervisor) (fd : Nat) (stop : StopCall) : Supervisor :=
  { supervisor with
    sc := supervisor.sc.unregisterNode fd
    children := reap supervisor.children (supervisor.nodes stop.node).pid
    subprocessMap := Function.update supervisor.subprocessMap stop.port none
    stops := supervisor.stops.erase stop
    stopped := Function.update supervisor.stopped stop.started true }

/-- The event loop runs the node of a descriptor whose process has ended. -/
def handleEvent (supervisor : Supervisor) (fd : Nat) (garbage : Bool) : Option Supervisor :=
  match supervisor.sc.watched fd, supervisor.pidfd fd with
  | some node, some pid =>
      if (supervisor.children pid).status = .live then none
      else
        some (match node with
          | .subprocess node => supervisor.subprocessEvent node garbage
          | .coEvent stop => supervisor.coEvent fd stop)
  | _, _ => none

/-- The end of `SUBPROCESS_EVENT_SC_NODE::handleEvent`, behind its delay. -/
def restart (supervisor : Supervisor) (node fd : Nat) : Option Supervisor :=
  let old := (supervisor.nodes node).fd
  let closed := { supervisor with
    pidfd := Function.update supervisor.pidfd old none
    sc := supervisor.sc.closeFd old }
  if supervisor.delayed node = true ∧ closed.pidfd fd = none then
    some { closed.launch node (supervisor.nodes node).port fd with
      delayed := Function.update supervisor.delayed node false }
  else none

/-- The destructor, which closes the descriptor once nothing refers to the node. -/
def destroyNode (supervisor : Supervisor) (node : Nat) : Option Supervisor :=
  let self := supervisor.nodes node
  if node < supervisor.nextNode ∧ supervisor.delayed node = false ∧
      supervisor.sc.fdToNode self.fd ≠ some (.subprocess node) ∧
      (∀ stop ∈ supervisor.stops, stop.node ≠ node) ∧
      supervisor.subprocessMap self.port ≠ some node ∧ supervisor.pidfd self.fd = some self.pid then
    some { supervisor with
      pidfd := Function.update supervisor.pidfd self.fd none
      sc := supervisor.sc.closeFd self.fd }
  else none

def step (supervisor : Supervisor) : SupervisorLabel → Option Supervisor
  | .startDevice fd => supervisor.startDevice fd
  | .startSm fd => supervisor.startSm fd
  | .stopDevice port => some (supervisor.stopDevice port)
  | .stopSm port => some (supervisor.stopSm port)
  | .childExit pid ok => supervisor.childExit pid ok
  | .handleEvent fd garbage => supervisor.handleEvent fd garbage
  | .restart node fd => supervisor.restart node fd
  | .destroyNode node => supervisor.destroyNode node

end Supervisor

end AutoDrop
