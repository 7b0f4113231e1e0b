import Mathlib.Data.List.Basic
import Mathlib.Data.Option.Basic

/-!
Two replicas of one register that are joined by a queue in each direction. A side that is
written to sends the value; a value that arrives overwrites. What a side holds in the end,
when both queues have run empty, is the last value on its way to it.
-/

namespace ReplicaLink

variable {V : Type*}

structure Link (V : Type*) where
  server : Option V
  client : Option V
  up : List V
  down : List V

namespace Link

def serverEnd (link : Link V) : Option V := link.up.getLast?.or link.server

def clientEnd (link : Link V) : Option V := link.down.getLast?.or link.client

/-- Once nothing is on its way, both sides will hold the same. -/
def Together (link : Link V) : Prop := link.clientEnd = link.serverEnd

def writeClient (link : Link V) (value : V) : Link V :=
  { link with client := some value, up := link.up ++ [value] }

def writeServer (link : Link V) (value : V) : Link V :=
  { link with server := some value, down := link.down ++ [value] }

variable {link : Link V} {value : V}

theorem together_of_quiet (up : link.up = []) (down : link.down = []) :
    link.Together ↔ link.client = link.server := by
  simp [Together, clientEnd, serverEnd, up, down]

theorem or_some_eq_some {last : Option V} :
    last.or (some value) = some value ↔ ∀ other ∈ last, other = value := by
  cases last with
  | none => simp
  | some other => simp

theorem together_writeClient :
    (link.writeClient value).Together ↔ ∀ other ∈ link.down.getLast?, other = value := by
  simp only [Together, clientEnd, serverEnd, writeClient, List.getLast?_append,
    List.getLast?_singleton, Option.some_or]
  exact or_some_eq_some

theorem together_writeServer :
    (link.writeServer value).Together ↔ ∀ other ∈ link.up.getLast?, other = value := by
  simp only [Together, clientEnd, serverEnd, writeServer, List.getLast?_append,
    List.getLast?_singleton, Option.some_or]
  rw [eq_comm]
  exact or_some_eq_some

theorem or_getLast?_cons (rest : List V) (held : Option V) :
    rest.getLast?.or (some value) = (value :: rest).getLast?.or held := by
  cases rest with
  | nil => simp
  | cons next others => simp [List.getLast?_cons]

theorem together_arriveServer {rest : List V} (sent : link.up = value :: rest) :
    ({ link with server := some value, up := rest } : Link V).Together ↔ link.Together := by
  simp only [Together, clientEnd, serverEnd, sent, or_getLast?_cons rest link.server]

theorem together_arriveClient {rest : List V} (sent : link.down = value :: rest) :
    ({ link with client := some value, down := rest } : Link V).Together ↔ link.Together := by
  simp only [Together, clientEnd, serverEnd, sent, or_getLast?_cons rest link.client]

/-- A new link begins with the server's value on its way, if it has one. -/
theorem together_connect (up : link.up = []) (down : link.down = link.server.toList) :
    link.Together ↔ (link.server = none → link.client = none) := by
  cases held : link.server with
  | none => simp [Together, clientEnd, serverEnd, up, down, held]
  | some value => simp [Together, clientEnd, serverEnd, up, down, held]

/-- A write that is not sent is undone by a value on its way, and stays without one. -/
theorem together_unsent (up : link.up = []) (down : link.down.getLast? = link.server) :
    ({ link with client := some value } : Link V).Together ↔ link.server ≠ none := by
  cases held : link.server with
  | none => simp [Together, clientEnd, serverEnd, up, down, held]
  | some value => simp [Together, clientEnd, serverEnd, up, down, held]

end Link

end ReplicaLink
