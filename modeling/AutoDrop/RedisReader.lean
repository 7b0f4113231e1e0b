import AutoDrop.CStrings
import AutoDrop.LabelledRun
import AutoDrop.RedisReply

/-!
The connection of an `AD_REDIS_EVENT_NODE`. `register_subscribed_callback` sends a SUBSCRIBE
and takes the next reply for its answer; once all channels are registered, the event loop
handles the socket. TCP brings the bytes on the `wire` to the `socket` in pieces of any size,
and `recv` takes them to hiredis' `reader`. The socket blocks, so the program is within
`redisGetReply` as long as a call is `reading`. `outputs`, `received` and `passed` log what the
server has written, what has arrived and what the callbacks were called with.
-/

namespace AutoDrop

structure RedisMessage where
  channel : List UInt8
  text : List UInt8

/-- What the server writes: how many channels the connection has with the new one, and the
messages on its channels. -/
inductive RedisOutput
  | confirmed (channel : List UInt8) (count : Nat)
  | published (message : RedisMessage)

/-- The channels that are registered one after another, which the server is told as C
strings. -/
structure SubscribedChannels where
  keys : List (List UInt8)
  clean : ∀ channel ∈ keys, 0 ∉ channel

/-- The calls of `redisGetReply`. -/
inductive ReplyTaker
  | registerSubscribedCallback (channel : List UInt8)
  | handleEvent

/-- `obuf` and `commands` hold the SUBSCRIBEs that have not left hiredis, and those that the
server has not served; `callbacks` has the keys of `m_subscribed_callbacks`. -/
structure RedisConnection where
  subscribed : List (List UInt8)
  outputs : List RedisOutput
  wire : List UInt8
  received : List UInt8
  socket : List UInt8
  reader : List UInt8
  obuf : List (List UInt8)
  commands : List (List UInt8)
  unregistered : List (List UInt8)
  callbacks : List (List UInt8)
  reading : Option ReplyTaker
  passed : List RedisMessage
  running : Bool

inductive RedisLabel
  | publish (message : RedisMessage)
  | serve
  | arrive (count : Nat)
  | registerSubscribedCallback
  | handleEvent
  | recv (count : Nat)

namespace RedisMessage

/-- The word `message`. -/
def word : List UInt8 := [109, 101, 115, 115, 97, 103, 101]

/-- The call that the callback of the channel gets. -/
def heard (message : RedisMessage) : RedisMessage := { message with text := cString message.text }

end RedisMessage

namespace RedisOutput

/-- The word `subscribe`. -/
def subscribeWord : List UInt8 := [115, 117, 98, 115, 99, 114, 105, 98, 101]

def elements : RedisOutput → List RedisElement
  | .confirmed channel count => [.string subscribeWord, .string channel, .integer count]
  | .published message => [.string RedisMessage.word, .string message.channel, .string message.text]

def bytes (output : RedisOutput) : List UInt8 := RedisReply.arrayOfElements.encode output.elements

def reply (output : RedisOutput) : RedisReply := .array (output.elements.map RedisElement.reply)

def heard : RedisOutput → Option RedisMessage
  | .confirmed _ _ => none
  | .published message => some message.heard

def confirms : RedisOutput → Option (List UInt8)
  | .confirmed channel _ => some channel
  | .published _ => none

end RedisOutput

def ReplyTaker.awaits : ReplyTaker → List (List UInt8)
  | .registerSubscribedCallback channel => [channel]
  | .handleEvent => []

/-- `redisGetReplyFromReader`. -/
def redisNextReply (reader : List UInt8) : Option (RedisReply × List UInt8) :=
  (RedisReply.arrayOfElements.parse reader).map fun (parts, rest) =>
    (.array (parts.map RedisElement.reply), rest)

/-- Whether the reply is a message that was published. -/
def RedisReply.isMessage : RedisReply → Bool
  | .array (.string word :: _) => word == RedisMessage.word
  | _ => false

namespace RedisConnection

def start (channels : SubscribedChannels) : RedisConnection where
  subscribed := []
  outputs := []
  wire := []
  received := []
  socket := []
  reader := []
  obuf := []
  commands := []
  unregistered := channels.keys
  callbacks := []
  reading := none
  passed := []
  running := true

/-- `handleEvent` behind `redisGetReply`. -/
def handleReply (connection : RedisConnection) : RedisReply → RedisConnection
  | .array [.string _, .string channel, text] =>
      if cString channel ∈ connection.callbacks then
        match text with
        | .string text =>
            { connection with
              passed := connection.passed ++ [⟨cString channel, cString text⟩] }
        -- The `str` of another reply is null, and a `std::string` of it throws.
        | _ => { connection with running := false }
      else connection
  | _ => connection

/-- A registration frees its reply unread. -/
def takeReply (connection : RedisConnection) (reply : RedisReply) : ReplyTaker → RedisConnection
  | .registerSubscribedCallback channel =>
      { connection with callbacks := connection.callbacks ++ [channel] }
  | .handleEvent => connection.handleReply reply

/-- What `redisGetReply` does when it asks the reader: only where nothing whole is held, it
sends what the output buffer has, and reads on. -/
def redisGetReply (connection : RedisConnection) (taker : ReplyTaker) : RedisConnection :=
  match redisNextReply connection.reader with
  | none =>
      { connection with
        commands := connection.commands ++ connection.obuf
        obuf := []
        reading := some taker }
  | some (reply, rest) =>
      { connection with reader := rest, reading := none }.takeReply reply taker

def redisAppendCommand (connection : RedisConnection) (channel : List UInt8) : RedisConnection :=
  { connection with obuf := connection.obuf ++ [channel] }

def redisBufferRead (connection : RedisConnection) (count : Nat) : RedisConnection :=
  { connection with
    reader := connection.reader ++ connection.socket.take count
    socket := connection.socket.drop count }

/-- The server serves a SUBSCRIBE. -/
def subscribe (connection : RedisConnection) (channel : List UInt8) : RedisConnection :=
  { connection with subscribed := connection.subscribed.insert channel }

def write (connection : RedisConnection) (output : RedisOutput) : RedisConnection :=
  { connection with
    outputs := connection.outputs ++ [output]
    wire := connection.wire ++ output.bytes }

/-- The program is between two calls. -/
def Idle (connection : RedisConnection) : Prop :=
  connection.running = true ∧ connection.reading.isNone

instance (connection : RedisConnection) : Decidable connection.Idle :=
  inferInstanceAs (Decidable (_ ∧ _))

def step (connection : RedisConnection) : RedisLabel → Option RedisConnection
  | .publish message =>
      if message.channel ∈ connection.subscribed then some (connection.write (.published message))
      else none
  | .serve =>
      match connection.commands with
      | [] => none
      | channel :: rest =>
          let served := { connection with commands := rest }.subscribe channel
          some (served.write (.confirmed channel served.subscribed.length))
  | .arrive count =>
      if 0 < count ∧ count ≤ connection.wire.length then
        some { connection with
          received := connection.received ++ connection.wire.take count
          socket := connection.socket ++ connection.wire.take count
          wire := connection.wire.drop count }
      else none
  | .registerSubscribedCallback =>
      match connection.unregistered with
      | [] => none
      | channel :: rest =>
          if connection.Idle then
            let appended := { connection with unregistered := rest }.redisAppendCommand channel
            some (appended.redisGetReply (.registerSubscribedCallback channel))
          else none
  | .handleEvent =>
      if connection.Idle ∧ connection.unregistered = [] ∧ connection.socket ≠ [] then
        some (connection.redisGetReply .handleEvent)
      else none
  | .recv count =>
      match connection.reading with
      | none => none
      | some taker =>
          -- The buffer of `redisBufferRead` has 16 KiB.
          if 0 < count ∧ count ≤ connection.socket.length ∧ count ≤ 16384 then
            some ((connection.redisBufferRead count).redisGetReply taker)
          else none

/-- The bytes of replies one after another. -/
def bytesOf (outputs : List RedisOutput) : List UInt8 :=
  RedisReply.arrayOfElements.stream (outputs.map RedisOutput.elements)

/-- The loop may block in `epoll_wait`, and the socket would not wake it. -/
def Waits (connection : RedisConnection) : Prop :=
  connection.Idle ∧ connection.unregistered = [] ∧ connection.socket = []

instance (connection : RedisConnection) : Decidable connection.Waits :=
  inferInstanceAs (Decidable (_ ∧ _))

/-- Where the loop waits, every message that has come whole was passed to its callback. -/
def AllPassed (connection : RedisConnection) : Prop :=
  connection.Waits → ∀ whole, whole <+: connection.outputs →
    bytesOf whole <+: connection.received →
    whole.filterMap RedisOutput.heard <+: connection.passed

/-- No whole reply is held where the loop waits. -/
def Drained (connection : RedisConnection) : Prop :=
  connection.Waits → redisNextReply connection.reader = none

/-- The channel whose registration waits for its answer. -/
def awaited (connection : RedisConnection) : List (List UInt8) :=
  connection.reading.elim [] ReplyTaker.awaits

/-- No registration takes a message for its answer: none begins with a whole reply held, and no
message comes before the confirmation. -/
def AnswersOwn (connection : RedisConnection) : RedisLabel → Prop
  | .registerSubscribedCallback => (redisNextReply connection.reader).isNone
  | .recv count => connection.awaited ≠ [] →
      (redisNextReply (connection.redisBufferRead count).reader).all fun (reply, _) =>
        !reply.isMessage
  | _ => True

/-- A read that empties the socket of the registered node does not complete two replies. -/
def CompletesOne (connection : RedisConnection) : RedisLabel → Prop
  | .recv count => connection.unregistered = [] ∧ count = connection.socket.length →
      (redisNextReply (connection.redisBufferRead count).reader).all fun (_, rest) =>
        (redisNextReply rest).isNone
  | _ => True

instance (connection : RedisConnection) : ∀ label, Decidable (connection.AnswersOwn label)
  | .registerSubscribedCallback => inferInstanceAs (Decidable (_ = true))
  | .recv _ => inferInstanceAs (Decidable (_ ≠ _ → _))
  | .publish _ | .serve | .arrive _ | .handleEvent => .isTrue trivial

instance (connection : RedisConnection) : ∀ label, Decidable (connection.CompletesOne label)
  | .recv _ => inferInstanceAs (Decidable (_ ∧ _ → _))
  | .publish _ | .serve | .arrive _ | .registerSubscribedCallback | .handleEvent => .isTrue trivial

def OneByOne (connection : RedisConnection) (label : RedisLabel) : Prop :=
  connection.AnswersOwn label ∧ connection.CompletesOne label

instance (connection : RedisConnection) (label : RedisLabel) :
    Decidable (connection.OneByOne label) :=
  inferInstanceAs (Decidable (_ ∧ _))

end RedisConnection

end AutoDrop
