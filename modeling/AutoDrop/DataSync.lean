import AutoDrop.LabelledRun
import Mathlib.Logic.Function.Basic

/-!
The web data store: one `DataSyncServer` and any number of `DataSyncClient`s, with a
connection in order for each of them. A value is what survives `JSON.stringify` and
`JSON.parse`. In `_handleSet` the name `WebSocket` is the global of the runtime, as the
constant of that name ends with the constructor. Where there is no such global, reading its
`OPEN` throws behind the write, which stays: the process logs an uncaught exception and goes
on, and the other clients are told nothing.
-/

namespace AutoDrop

inductive ReadyState
  | connecting
  | opened
  | closing
  | closed
deriving DecidableEq, Repr

/-- A `Map` of the source, which never loses a key. -/
abbrev DataStore (K V : Type*) := K → Option V

inductive DataSyncMessage (K V : Type*)
  | init (data : DataStore K V)
  | update (key : K) (value : V)

structure DataSyncClient (K V : Type*) where
  readyState : ReadyState
  dataStore : DataStore K V

/-- With the `readyState` of the server's end of each connection; `connecting` before the
`connection` event. -/
structure DataSyncServer (ι K V : Type*) where
  clients : List ι
  readyState : ι → ReadyState
  dataStore : DataStore K V

/-- The parties with the messages on their way, the next to arrive first. -/
structure DataSync (ι K V : Type*) where
  server : DataSyncServer ι K V
  client : ι → DataSyncClient K V
  up : ι → List (K × V)
  down : ι → List (DataSyncMessage K V)

inductive DataSyncAction (ι K V : Type*)
  | connection (client : ι)
  | opened (client : ι)
  | clientSet (client : ι) (key : K) (value : V)
  | serverSet (key : K) (value : V)
  | toServer (client : ι)
  | toClient (client : ι)
  | lost (client : ι) (arriving : Nat)
  | closing (client : ι)
  | removed (client : ι)

namespace DataSync

variable {ι K V : Type*} [DecidableEq ι] [DecidableEq K]

def start : DataSync ι K V where
  server := ⟨[], fun _ => .connecting, fun _ => none⟩
  client := fun _ => ⟨.connecting, fun _ => none⟩
  up := fun _ => []
  down := fun _ => []

def set (store : DataStore K V) (key : K) (value : V) : DataStore K V :=
  Function.update store key (some value)

/-- `send` of the server's end, which drops the message where the connection is not open. -/
def send (sync : DataSync ι K V) (client : ι) (message : DataSyncMessage K V) : DataSync ι K V :=
  if sync.server.readyState client = .opened then
    { sync with down := Function.update sync.down client (sync.down client ++ [message]) }
  else sync

def storeData (sync : DataSync ι K V) (key : K) (value : V) : DataSync ι K V :=
  { sync with server := { sync.server with dataStore := set sync.server.dataStore key value } }

def setData (sync : DataSync ι K V) (key : K) (value : V) : DataSync ι K V :=
  sync.server.clients.foldl (fun sent client => sent.send client (.update key value))
    (sync.storeData key value)

/-- The loop of `_handleSet`, with the `OPEN` of the runtime's `WebSocket`; it ends where that
throws. -/
def forward (openState : Option ReadyState) (key : K) (value : V) (sourceWs : ι) :
    List ι → DataSync ι K V → DataSync ι K V
  | [], sent => sent
  | client :: rest, sent =>
      if client = sourceWs then forward openState key value sourceWs rest sent
      else match openState with
        | none => sent
        | some state =>
            forward openState key value sourceWs rest
              (if sent.server.readyState client = state then sent.send client (.update key value)
              else sent)

def handleSet (openState : Option ReadyState) (sync : DataSync ι K V) (key : K) (value : V)
    (sourceWs : ι) : DataSync ι K V :=
  forward openState key value sourceWs sync.server.clients (sync.storeData key value)

def accept (sync : DataSync ι K V) (client : ι) : DataSync ι K V :=
  let accepted := { sync with server := { sync.server with
    clients := sync.server.clients ++ [client]
    readyState := Function.update sync.server.readyState client .opened } }
  accepted.send client (.init sync.server.dataStore)

def onmessage (store : DataStore K V) : DataSyncMessage K V → DataStore K V
  | .init data => fun key => (data key).or (store key)
  | .update key value => set store key value

def withClient (sync : DataSync ι K V) (client : ι) (changed : DataSyncClient K V) :
    DataSync ι K V :=
  { sync with client := Function.update sync.client client changed }

/-- The client's `setData`: `send` throws before the connection is open, and drops the
message behind its end. -/
def clientSetData (sync : DataSync ι K V) (client : ι) (key : K) (value : V) : DataSync ι K V :=
  let party := sync.client client
  let stored := sync.withClient client { party with dataStore := set party.dataStore key value }
  if party.readyState = .opened then
    { stored with up := Function.update sync.up client (sync.up client ++ [(key, value)]) }
  else stored

def withReadyState (sync : DataSync ι K V) (client : ι) (state : ReadyState) : DataSync ι K V :=
  { sync with server := { sync.server with
    readyState := Function.update sync.server.readyState client state } }

/-- `lost` ends the connection on the client's side: only the next messages of the client
still arrive. The server finds out by `closing`, and its set loses the client by `removed`.
A handler that threw leaves the connection as it is. -/
def step (openState : Option ReadyState) (sync : DataSync ι K V) :
    DataSyncAction ι K V → Option (DataSync ι K V)
  | .connection client =>
      if sync.server.readyState client = .connecting then some (sync.accept client) else none
  | .opened client =>
      let party := sync.client client
      if party.readyState = .connecting ∧ sync.server.readyState client ≠ .connecting then
        some (sync.withClient client { party with readyState := .opened })
      else none
  | .clientSet client key value => some (sync.clientSetData client key value)
  | .serverSet key value => some (sync.setData key value)
  | .toServer client =>
      match sync.up client with
      | [] => none
      | (key, value) :: rest =>
          if sync.server.readyState client = .opened then
            some (handleSet openState { sync with up := Function.update sync.up client rest }
              key value client)
          else none
  | .toClient client =>
      let party := sync.client client
      match sync.down client with
      | [] => none
      | message :: rest =>
          let received := { sync with down := Function.update sync.down client rest }
          match party.readyState with
          | .connecting => none
          | .opened => some (received.withClient client
              { party with dataStore := onmessage party.dataStore message })
          | .closing | .closed => some received
  | .lost client arriving =>
      some { sync.withClient client { sync.client client with readyState := .closed } with
        up := Function.update sync.up client ((sync.up client).take arriving)
        down := Function.update sync.down client [] }
  | .closing client =>
      if sync.server.readyState client = .opened ∧
          (sync.client client).readyState = .closed ∧ sync.up client = [] then
        some (sync.withReadyState client .closing)
      else none
  | .removed client =>
      if sync.server.readyState client = .closing then
        let erased := sync.withReadyState client .closed
        some { erased with server := { erased.server with
          clients := sync.server.clients.erase client } }
      else none

def Quiet (sync : DataSync ι K V) : Prop := ∀ client, sync.up client = [] ∧ sync.down client = []

def Connected (sync : DataSync ι K V) (client : ι) : Prop :=
  sync.server.readyState client = .opened ∧ (sync.client client).readyState = .opened

end DataSync

end AutoDrop
