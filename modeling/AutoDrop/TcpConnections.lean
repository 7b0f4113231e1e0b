import AutoDrop.DescriptorTable
import AutoDrop.EventLoopOwners

/-!
The data nodes of an `AD_EVENT_SC_TCP_LISTEN_NODE`. A node is numbered like the open file
that `accept` returned with its descriptor; numbers are not used again, descriptors are. The
destructor of a node runs at some time after the listen node's map, the loop's map and the
last coroutine of its handler have let it go. Whatever else the process opens and closes has
the numbers that are no node's, and any running code may call `close_data_node`.
-/

namespace AutoDrop

inductive TcpNode
  | data (node : Nat)
  | listen
  | other
deriving DecidableEq

/-- A `send` of `handleRead`: for which node, the file its bytes came from, the file reached. -/
structure TcpReply where
  node : Nat
  asked : Option Nat
  went : Option Nat
deriving DecidableEq

structure TcpServer (Co : Type*) where
  loop : EventLoop Co TcpNode
  files : DescriptorTable
  -- m_fd of the node
  nodes : Nat → Option Nat
  fdToDataNode : List (Nat × Nat)
  -- the file that the handler has read, from its `recv` on
  asked : Co → Option (Option Nat)
  replies : List TcpReply

inductive TcpLabel (Co : Type*)
  | turn (label : LoopLabel Co TcpNode)
  | accept (fd : Nat)
  | handleRead
  | endOfFile
  | reply
  | closeDataNode (fd : Nat)
  | openFd (fd : Nat)
  | closeFd (file : Nat)
  | destroy (node : Nat)

namespace TcpServer

variable {Co : Type*}

def start (files : DescriptorTable) : TcpServer Co where
  loop := EventLoop.start
  files
  nodes := fun _ => none
  fdToDataNode := []
  asked := fun _ => none
  replies := []

/-- The kernel gives the smallest number that is not in use. -/
def Smallest (files : DescriptorTable) (fd : Nat) : Prop :=
  ¬files.InUse fd ∧ ∀ lower < fd, files.InUse lower

instance (files : DescriptorTable) (fd : Nat) : Decidable (Smallest files fd) :=
  inferInstanceAs (Decidable (_ ∧ _))

/-- The running coroutine and the node whose handler it is. -/
def handler (server : TcpServer Co) : Option (Co × TcpNode) :=
  server.loop.currentCo.bind fun co => (server.loop.task co).map fun node => (co, node)

/-- The running coroutine with the data node whose handler it is and that node's `m_fd`. -/
def dataHandler (server : TcpServer Co) : Option (Co × Nat × Nat) :=
  server.handler.bind fun
    | (co, .data node) => (server.nodes node).map fun fd => (co, node, fd)
    | _ => none

/-- What the loop does by itself, and what coroutines do that are not handlers of data nodes.
Such a handler yields within `handleRead` only, and ends with its `send`. -/
def allows (server : TcpServer Co) : LoopLabel Co TcpNode → Bool
  | .registerNode _ (.data _) => false
  | .yieldCo =>
      match server.handler with
      | some (co, .data _) => (server.asked co).isSome
      | _ => true
  | .finish =>
      match server.handler with
      | some (_, .data _) => false
      | _ => true
  | _ => true

def closeDataNode (server : TcpServer Co) (fd : Nat) : TcpServer Co :=
  match (server.fdToDataNode.lookup fd).bind server.nodes with
  | some own =>
      { server with
        loop := server.loop.unregisterNode own
        fdToDataNode := server.fdToDataNode.filter fun entry => entry.1 ≠ fd }
  | none => server

def endTurn [DecidableEq Co] (server : TcpServer Co) (co : Co) : TcpServer Co :=
  { server with loop := server.loop.leaveTurn co .dead }

/-- `AD_EVENT_SC_TCP_LISTEN_NODE::handleEvent`. -/
def accept (server : TcpServer Co) (fd : Nat) (free : ¬server.files.InUse fd) : TcpServer Co :=
  let node := server.files.next
  { server with
    files := server.files.openFd fd free
    nodes := Function.update server.nodes node (some fd)
    fdToDataNode := (fd, node) :: server.fdToDataNode.filter fun entry => entry.1 ≠ fd
    loop := server.loop.registerNode fd (.data node) }

def handleRead [DecidableEq Co] (server : TcpServer Co) (co : Co) (fd : Nat) :
    TcpServer Co :=
  { server with asked := Function.update server.asked co (some (server.files.holder fd)) }

def send (server : TcpServer Co) (node fd : Nat) (asked : Option Nat) : TcpServer Co :=
  { server with replies := server.replies ++ [⟨node, asked, server.files.holder fd⟩] }

/-- What keeps the node alive. -/
def Refers (server : TcpServer Co) (node : Nat) : Prop :=
  server.loop.Holds (.data node) ∨ ∃ entry ∈ server.fdToDataNode, entry.2 = node

instance (server : TcpServer Co) (node : Nat) : Decidable (server.Refers node) :=
  inferInstanceAs (Decidable (_ ∨ _))

def step [DecidableEq Co] (server : TcpServer Co) : TcpLabel Co → Option (TcpServer Co)
  | .turn label =>
      if server.allows label then
        (server.loop.step label).map fun loop => { server with loop }
      else none
  | .accept fd =>
      server.handler.bind fun
        | (co, .listen) =>
            if smallest : Smallest server.files fd then
              some ((server.accept fd smallest.1).endTurn co)
            else none
        | _ => none
  | .handleRead =>
      server.dataHandler.bind fun (co, _, fd) =>
        if server.asked co = none then some (server.handleRead co fd) else none
  | .endOfFile =>
      server.dataHandler.bind fun (co, _, fd) =>
        if server.asked co = none then some ((server.closeDataNode fd).endTurn co) else none
  | .reply =>
      server.dataHandler.bind fun (co, node, fd) =>
        (server.asked co).map fun asked => (server.send node fd asked).endTurn co
  | .closeDataNode fd => if server.loop.Acting then some (server.closeDataNode fd) else none
  | .openFd fd =>
      if smallest : Smallest server.files fd then
        some { server with files := server.files.openFd fd smallest.1 }
      else none
  | .closeFd file =>
      if server.nodes file = none then
        (server.files.fdOf file).map fun fd => { server with files := server.files.closeFd fd }
      else none
  | .destroy node =>
      (server.nodes node).bind fun fd =>
        if server.Refers node then none
        else some { server with
          nodes := Function.update server.nodes node none
          files := server.files.closeFd fd }

/-- The coroutine has not come to its end. -/
def Unfinished (server : TcpServer Co) (co : Co) : Prop :=
  server.loop.coState co ≠ none ∧ server.loop.coState co ≠ some .dead

/-- Every reply has gone to the connection that was read, which is the one the node was
accepted with; the descriptor of a node whose handler is unfinished is still that open file;
and no two nodes have one descriptor. -/
structure RepliesToAsker (server : TcpServer Co) : Prop where
  sent : ∀ reply ∈ server.replies, reply.asked = some reply.node ∧ reply.went = some reply.node
  kept : ∀ co node, server.loop.task co = some (.data node) → server.Unfinished co →
    ∃ fd, server.nodes node = some fd ∧ server.files.fdOf node = some fd
  single : ∀ fd node other, server.nodes node = some fd → server.nodes other = some fd →
    node = other

/-- Nodes are alive where something refers to them, and a living node has its file open. -/
structure Owned (server : TcpServer Co) : Prop where
  turns : server.loop.LoopInvariant
  listed : server.loop.Listed
  place : ∀ {node fd}, server.nodes node = some fd → server.files.fdOf node = some fd
  mapped : ∀ {fd node}, (fd, node) ∈ server.fdToDataNode → server.nodes node = some fd
  held : ∀ {node}, server.loop.Holds (.data node) → ∃ fd, server.nodes node = some fd
  asks : ∀ {co reached}, server.asked co = some reached → server.loop.coState co ≠ none ∧
    ∃ node, server.loop.task co = some (.data node) ∧ reached = some node
  sent : ∀ reply ∈ server.replies, reply.asked = some reply.node ∧ reply.went = some reply.node

variable {server next : TcpServer Co} {co : Co} {node fd : Nat}

theorem handler_eq_some {task : TcpNode} :
    server.handler = some (co, task) ↔
      server.loop.currentCo = some co ∧ server.loop.task co = some task := by
  simp only [handler, Option.bind_eq_some_iff, Option.map_eq_some_iff, Prod.mk.injEq]
  constructor
  · rintro ⟨_, current, _, handles, rfl, rfl⟩
    exact ⟨current, handles⟩
  · rintro ⟨current, handles⟩
    exact ⟨co, current, task, handles, rfl, rfl⟩

theorem dataHandler_eq_some (handles : server.dataHandler = some (co, node, fd)) :
    server.loop.currentCo = some co ∧ server.loop.task co = some (.data node) ∧
      server.nodes node = some fd := by
  simp only [dataHandler, Option.bind_eq_some_iff] at handles
  obtain ⟨⟨running, task⟩, current, handles⟩ := handles
  cases task with
  | listen | other => cases handles
  | data handled =>
      simp only [Option.map_eq_some_iff, Prod.mk.injEq] at handles
      obtain ⟨own, alive, rfl, rfl, rfl⟩ := handles
      exact ⟨(handler_eq_some.mp current).1, (handler_eq_some.mp current).2, alive⟩

theorem currentCo_closeDataNode (server : TcpServer Co) (fd : Nat) :
    (server.closeDataNode fd).loop.currentCo = server.loop.currentCo := by
  unfold closeDataNode
  split <;> rfl

namespace Owned

theorem start (files : DescriptorTable) : (TcpServer.start files : TcpServer Co).Owned where
  turns := EventLoop.start_loopInvariant
  listed := EventLoop.start_listed
  place alive := nomatch alive
  mapped member := nomatch member
  held holds := by simp [TcpServer.start, EventLoop.start, EventLoop.Holds] at holds
  asks asked := nomatch asked
  sent _ member := nomatch member

theorem turn [DecidableEq Co] {label : LoopLabel Co TcpNode} {loop : EventLoop Co TcpNode}
    (owned : server.Owned) (allowed : server.allows label = true)
    (taken : server.loop.step label = some loop) : { server with loop }.Owned where
  turns := EventLoop.step_loopInvariant owned.turns taken
  listed := owned.listed.step owned.turns taken
  place := owned.place
  mapped := owned.mapped
  held holds := by
    refine owned.held (EventLoop.holds_step ?_ taken holds)
    rintro fd rfl
    cases allowed
  asks asked := by
    obtain ⟨known, node, handles, reached⟩ := owned.asks asked
    have kept := EventLoop.keeps_step known taken
    exact ⟨kept.born, node, kept.task.trans handles, reached⟩
  sent := owned.sent

theorem endTurn [DecidableEq Co] (owned : server.Owned)
    (current : server.loop.currentCo = some co) : (server.endTurn co).Owned where
  turns := EventLoop.leaveTurn_loopInvariant owned.turns current (by simp)
  listed := owned.listed.leaveTurn owned.turns current
  place := owned.place
  mapped := owned.mapped
  held := owned.held
  asks asked := by
    obtain ⟨known, handles⟩ := owned.asks asked
    exact ⟨(EventLoop.keeps_leaveTurn known).born, handles⟩
  sent := owned.sent

theorem ne_next (owned : server.Owned) (alive : server.nodes node = some fd) :
    node ≠ server.files.next :=
  Nat.ne_of_lt (server.files.below (owned.place alive))

theorem accept (owned : server.Owned) (free : ¬server.files.InUse fd) :
    (server.accept fd free).Owned := by
  have older {node own : Nat} (alive : server.nodes node = some own) :
      (server.accept fd free).nodes node = some own :=
    (Function.update_of_ne (owned.ne_next alive) ..).trans alive
  have first : (server.accept fd free).nodes server.files.next = some fd :=
    Function.update_self ..
  exact {
    turns := EventLoop.registerNode_loopInvariant owned.turns
    listed := owned.listed.registerNode
    place := by
      intro node own alive
      refine (DescriptorTable.fdOf_openFd free).trans ?_
      by_cases new : node = server.files.next
      · subst new
        rw [if_pos rfl, ← alive, first]
      · rw [if_neg new]
        exact owned.place ((Function.update_of_ne new ..).symm.trans alive)
    mapped := by
      intro own node member
      rcases List.mem_cons.mp member with new | before
      · cases new
        exact first
      · exact older (owned.mapped (List.mem_filter.mp before).1)
    held := by
      intro node holds
      rcases EventLoop.holds_registerNode holds with before | new
      · obtain ⟨own, alive⟩ := owned.held before
        exact ⟨own, older alive⟩
      · cases new
        exact ⟨fd, first⟩
    asks := by
      intro co reached asked
      obtain ⟨known, node, handles, same⟩ := owned.asks asked
      have kept : server.loop.Keeps (server.loop.registerNode fd (.data server.files.next)) co :=
        EventLoop.keeps_registerNode known
      exact ⟨kept.born, node, kept.task.trans handles, same⟩
    sent := owned.sent }

theorem closeDataNode (owned : server.Owned) (fd : Nat) : (server.closeDataNode fd).Owned := by
  unfold TcpServer.closeDataNode
  split
  · exact {
      turns := EventLoop.unregisterNode_loopInvariant owned.turns
      listed := owned.listed
      place := owned.place
      mapped := fun member => owned.mapped (List.mem_filter.mp member).1
      held := fun holds => owned.held (EventLoop.holds_unregisterNode holds)
      asks := owned.asks
      sent := owned.sent }
  · exact owned

theorem holder (owned : server.Owned) (alive : server.nodes node = some fd) :
    server.files.holder fd = some node :=
  DescriptorTable.holder_eq_some.mpr (owned.place alive)

theorem handleRead [DecidableEq Co] (owned : server.Owned)
    (handles : server.dataHandler = some (co, node, fd)) : (server.handleRead co fd).Owned := by
  obtain ⟨current, task, alive⟩ := dataHandler_eq_some handles
  have running := owned.turns.current co current
  exact { owned with
    asks := by
      intro other reached asked
      change Function.update server.asked co (some (server.files.holder fd)) other = _ at asked
      rw [Function.update_apply] at asked
      split at asked
      · rename_i same
        subst same
        refine ⟨by simp [TcpServer.handleRead, running], node, task, ?_⟩
        rw [← Option.some.inj asked, owned.holder alive]
      · exact owned.asks asked }

theorem send {asked : Option Nat} (owned : server.Owned)
    (handles : server.dataHandler = some (co, node, fd)) (has : server.asked co = some asked) :
    (server.send node fd asked).Owned := by
  obtain ⟨-, task, alive⟩ := dataHandler_eq_some handles
  exact { owned with
    sent := by
      intro reply member
      rcases List.mem_append.mp member with before | last
      · exact owned.sent reply before
      · obtain ⟨-, other, handled, rfl⟩ := owned.asks has
        cases Option.some.inj (task.symm.trans handled)
        rw [List.mem_singleton.mp last]
        exact ⟨rfl, owned.holder alive⟩ }

theorem openFd (owned : server.Owned) (free : ¬server.files.InUse fd) :
    { server with files := server.files.openFd fd free }.Owned :=
  { owned with
    place := fun alive => (DescriptorTable.fdOf_openFd free).trans
      ((if_neg (owned.ne_next alive)).trans (owned.place alive)) }

theorem closeFd {file : Nat} (owned : server.Owned) (foreign : server.nodes file = none)
    (opened : server.files.fdOf file = some fd) :
    { server with files := server.files.closeFd fd }.Owned :=
  { owned with
    place := by
      intro node own alive
      refine DescriptorTable.fdOf_closeFd.mpr ⟨owned.place alive, ?_⟩
      rintro rfl
      rw [server.files.distinct (owned.place alive) opened, foreign] at alive
      cases alive }

theorem destroy (owned : server.Owned) (alive : server.nodes node = some fd)
    (loose : ¬server.Refers node) :
    { server with
      nodes := Function.update server.nodes node none
      files := server.files.closeFd fd }.Owned := by
  have kept {other own : Nat} (apart : other ≠ node) (alive : server.nodes other = some own) :
      Function.update server.nodes node none other = some own :=
    (Function.update_of_ne apart ..).trans alive
  exact { owned with
    place := by
      intro other own there
      change Function.update server.nodes node none other = some own at there
      rw [Function.update_apply, Option.ite_none_left_eq_some] at there
      refine DescriptorTable.fdOf_closeFd.mpr ⟨owned.place there.2, ?_⟩
      rintro rfl
      exact there.1 (server.files.distinct (owned.place there.2) (owned.place alive))
    mapped := by
      intro own other member
      refine kept ?_ (owned.mapped member)
      rintro rfl
      exact loose (.inr ⟨_, member, rfl⟩)
    held := by
      intro other holds
      obtain ⟨own, there⟩ := owned.held holds
      refine ⟨own, kept ?_ there⟩
      rintro rfl
      exact loose (.inl holds) }

theorem step [DecidableEq Co] {label : TcpLabel Co} (owned : server.Owned)
    (taken : server.step label = some next) : next.Owned := by
  cases label with
  | turn label =>
      simp only [TcpServer.step, Option.ite_none_right_eq_some, Option.map_eq_some_iff] at taken
      obtain ⟨allowed, loop, turned, rfl⟩ := taken
      exact owned.turn allowed turned
  | accept fd =>
      simp only [TcpServer.step, Option.bind_eq_some_iff] at taken
      obtain ⟨⟨co, task⟩, handles, taken⟩ := taken
      cases task with
      | data | other => cases taken
      | listen =>
          simp only [Option.dite_none_right_eq_some, Option.some.injEq] at taken
          obtain ⟨smallest, rfl⟩ := taken
          refine (owned.accept smallest.1).endTurn ?_
          exact (EventLoop.currentCo_registerNode ..).trans (handler_eq_some.mp handles).1
  | handleRead =>
      simp only [TcpServer.step, Option.bind_eq_some_iff, Option.ite_none_right_eq_some,
        Option.some.injEq] at taken
      obtain ⟨⟨co, node, fd⟩, handles, -, rfl⟩ := taken
      exact owned.handleRead handles
  | endOfFile =>
      simp only [TcpServer.step, Option.bind_eq_some_iff, Option.ite_none_right_eq_some,
        Option.some.injEq] at taken
      obtain ⟨⟨co, node, fd⟩, handles, -, rfl⟩ := taken
      refine (owned.closeDataNode fd).endTurn ?_
      exact (currentCo_closeDataNode ..).trans (dataHandler_eq_some handles).1
  | reply =>
      simp only [TcpServer.step, Option.bind_eq_some_iff, Option.map_eq_some_iff] at taken
      obtain ⟨⟨co, node, fd⟩, handles, asked, has, rfl⟩ := taken
      exact (owned.send handles has).endTurn (dataHandler_eq_some handles).1
  | closeDataNode fd =>
      simp only [TcpServer.step, Option.ite_none_right_eq_some, Option.some.injEq] at taken
      obtain ⟨-, rfl⟩ := taken
      exact owned.closeDataNode fd
  | openFd fd =>
      simp only [TcpServer.step, Option.dite_none_right_eq_some, Option.some.injEq] at taken
      obtain ⟨smallest, rfl⟩ := taken
      exact owned.openFd smallest.1
  | closeFd file =>
      simp only [TcpServer.step, Option.ite_none_right_eq_some, Option.map_eq_some_iff] at taken
      obtain ⟨foreign, fd, opened, rfl⟩ := taken
      exact owned.closeFd foreign opened
  | destroy node =>
      simp only [TcpServer.step, Option.bind_eq_some_iff, Option.ite_none_left_eq_some,
        Option.some.injEq] at taken
      obtain ⟨fd, alive, loose, rfl⟩ := taken
      exact owned.destroy alive loose

theorem repliesToAsker (owned : server.Owned) : server.RepliesToAsker where
  sent := owned.sent
  kept co node handles unfinished := by
    have member := owned.listed co unfinished.1 unfinished.2
    obtain ⟨fd, alive⟩ := owned.held (.inr ⟨co, member, handles⟩)
    exact ⟨fd, alive, owned.place alive⟩
  single fd node other alive there :=
    server.files.distinct (owned.place alive) (owned.place there)

end Owned

/-- However connections come, are read and end, a reply goes to the connection that asked. -/
theorem reachable_repliesToAsker [DecidableEq Co] {files : DescriptorTable}
    (reached : LabelledRun.Reachable step (start files) server) : server.RepliesToAsker :=
  (LabelledRun.invariant_of_reachable (Owned.start files)
    (fun _ _ _ owned taken => owned.step taken) reached).repliesToAsker

/-- The event of a descriptor, up to the turn of its handler. -/
def event (fd co : Nat) : List (TcpLabel Nat) :=
  [.turn (.epollWait (some (fd, co))), .turn .enter, .turn .collect, .turn .resumeNext]

def quiet : List (TcpLabel Nat) := [.turn .sweep, .turn .collect, .turn .sweep]

/-- While a request is suspended its connection ends and another one is accepted. Behind the
reply the node is destroyed, and its descriptor is given to a third connection. -/
def reuse : List (TcpLabel Nat) :=
  List.flatten [
    [.openFd 0, .turn (.registerNode 0 .listen), .turn .runEventLoop, .turn .enter,
      .turn .collect, .turn .sweep],
    event 0 0, [.accept 1], quiet,
    event 1 1, [.handleRead, .turn .yieldCo], quiet,
    event 1 2, [.endOfFile], quiet,
    event 0 3, [.turn (.setReady 1), .accept 2, .turn .sweep, .turn .collect,
      .turn .resumeNext, .reply], quiet,
    [.destroy 1], event 0 4, [.accept 1]]

theorem reachable_repliesToAsker_reuse :
    ∃ server, LabelledRun.exec step (start .empty) reuse = some server ∧
      server.RepliesToAsker := by
  have ran : (LabelledRun.exec step (start .empty) reuse).isSome := by decide
  obtain ⟨server, run⟩ := Option.isSome_iff_exists.mp ran
  exact ⟨server, run, reachable_repliesToAsker ⟨reuse, run⟩⟩

end TcpServer

end AutoDrop
