import AutoDrop.RedisReader

/-!
When every message that has come is passed. A registration takes the first reply that comes,
be it a message, and the handler takes one reply of those that a read may bring at once; a
message that a registration has taken is lost.
-/

namespace AutoDrop.RedisConnection

/-- The outputs that have left the reader, and those that have not. -/
structure Traced (connection : RedisConnection) (taken pending : List RedisOutput) : Prop where
  split : connection.outputs = taken ++ pending
  received : connection.received = bytesOf taken ++ (connection.reader ++ connection.socket)
  behind : connection.reader ++ (connection.socket ++ connection.wire) = bytesOf pending

@[simp] theorem bytesOf_nil : bytesOf [] = [] := rfl

@[simp] theorem bytesOf_cons (output : RedisOutput) (outputs : List RedisOutput) :
    bytesOf (output :: outputs) = output.bytes ++ bytesOf outputs := rfl

@[simp] theorem bytesOf_append (first second : List RedisOutput) :
    bytesOf (first ++ second) = bytesOf first ++ bytesOf second := by
  rw [bytesOf, List.map_append, PrefixCode.stream_append, bytesOf, bytesOf]

theorem redisNextReply_bytes (output : RedisOutput) (rest : List UInt8) :
    redisNextReply (output.bytes ++ rest) = some (output.reply, rest) := by
  rw [redisNextReply, RedisOutput.bytes, PrefixCode.parse_encode, Option.map_some]
  rfl

theorem isMessage_reply (output : RedisOutput) :
    output.reply.isMessage = output.heard.isSome := by
  cases output with
  | confirmed channel count => rfl
  | published message => rfl

section Replies

variable {connection next : RedisConnection} {taken pending : List RedisOutput}

theorem Traced.nextReply (trace : connection.Traced taken pending) :
    redisNextReply connection.reader = none ∨
      ∃ output later rest, pending = output :: later ∧
        connection.reader = output.bytes ++ rest ∧
        rest ++ (connection.socket ++ connection.wire) = bytesOf later := by
  rcases RedisReply.arrayOfElements.parse_front RedisReply.arrayOfElements_nonempty
    trace.behind with nothing | ⟨elements, later, rest, values, reader, behind, -⟩
  · exact .inl (by rw [redisNextReply, nothing, Option.map_none])
  · obtain ⟨output, outputs, rfl, rfl, rfl⟩ := List.map_eq_cons_iff.mp values
    exact .inr ⟨output, outputs, rest, rfl, reader, behind⟩

/-- A reply changes nothing but what its taker keeps. -/
theorem takeReply_eq (connection : RedisConnection) (reply : RedisReply) (taker : ReplyTaker) :
    ∃ callbacks passed running,
      connection.takeReply reply taker = { connection with callbacks, passed, running } := by
  unfold takeReply
  split
  · exact ⟨_, _, _, rfl⟩
  · unfold handleReply
    split
    · split
      · split
        · exact ⟨_, _, _, rfl⟩
        · exact ⟨_, _, _, rfl⟩
      · exact ⟨_, _, _, rfl⟩
    · exact ⟨_, _, _, rfl⟩

theorem Traced.takeReply (trace : connection.Traced taken pending) (reply : RedisReply)
    (taker : ReplyTaker) : (connection.takeReply reply taker).Traced taken pending := by
  obtain ⟨callbacks, passed, running, same⟩ := connection.takeReply_eq reply taker
  rw [same]
  exact ⟨trace.split, trace.received, trace.behind⟩

/-- The reader has nothing whole and is read on, or the taker gets the first pending reply. -/
theorem Traced.redisGetReply_cases (trace : connection.Traced taken pending)
    (taker : ReplyTaker) :
    (redisNextReply connection.reader = none ∧
      connection.redisGetReply taker = { connection with
        commands := connection.commands ++ connection.obuf
        obuf := []
        reading := some taker }) ∨
    ∃ output later rest, pending = output :: later ∧
      redisNextReply connection.reader = some (output.reply, rest) ∧
      connection.redisGetReply taker =
        { connection with reader := rest, reading := none }.takeReply output.reply taker ∧
      { connection with reader := rest, reading := none }.Traced (taken ++ [output]) later := by
  rcases trace.nextReply with nothing | ⟨output, later, rest, rfl, reader, behind⟩
  · exact .inl ⟨nothing, by rw [redisGetReply, nothing]⟩
  · have found : redisNextReply connection.reader = some (output.reply, rest) := by
      rw [reader, redisNextReply_bytes]
    refine .inr ⟨output, later, rest, rfl, found, by rw [redisGetReply, found], ?_, ?_, behind⟩
    · simp [trace.split]
    · simp [trace.received, reader]

theorem Traced.write (trace : connection.Traced taken pending) (output : RedisOutput) :
    (connection.write output).Traced taken (pending ++ [output]) where
  split := by simp [RedisConnection.write, trace.split]
  received := trace.received
  behind := by
    rw [bytesOf_append, ← trace.behind]
    simp [RedisConnection.write]

theorem Traced.arrive (trace : connection.Traced taken pending) (count : Nat) :
    ({ connection with
        received := connection.received ++ connection.wire.take count
        socket := connection.socket ++ connection.wire.take count
        wire := connection.wire.drop count } : RedisConnection).Traced taken pending where
  split := trace.split
  received := by simp [trace.received]
  behind := by simp [← trace.behind]

theorem Traced.redisBufferRead (trace : connection.Traced taken pending) (count : Nat) :
    (connection.redisBufferRead count).Traced taken pending where
  split := trace.split
  received := by simp [RedisConnection.redisBufferRead, trace.received]
  behind := by
    rw [← trace.behind, RedisConnection.redisBufferRead, List.append_assoc,
      ← List.append_assoc (List.take _ _), List.take_append_drop]

end Replies

section Steps

variable {connection next : RedisConnection}

theorem publish_cases {message : RedisMessage}
    (published : connection.step (.publish message) = some next) :
    message.channel ∈ connection.subscribed ∧ next = connection.write (.published message) := by
  simp only [step, Option.ite_none_right_eq_some, Option.some.injEq] at published
  exact ⟨published.1, published.2.symm⟩

theorem serve_cases (served : connection.step .serve = some next) :
    ∃ channel rest, connection.commands = channel :: rest ∧
      next = ({ connection with commands := rest }.subscribe channel).write
        (.confirmed channel (connection.subscribed.insert channel).length) := by
  simp only [step] at served
  split at served
  · cases served
  · rename_i channel rest sent
    exact ⟨channel, rest, sent, (Option.some.inj served).symm⟩

theorem arrive_cases {count : Nat} (arrived : connection.step (.arrive count) = some next) :
    (0 < count ∧ count ≤ connection.wire.length) ∧
      next = { connection with
        received := connection.received ++ connection.wire.take count
        socket := connection.socket ++ connection.wire.take count
        wire := connection.wire.drop count } := by
  simp only [step, Option.ite_none_right_eq_some, Option.some.injEq] at arrived
  exact ⟨arrived.1, arrived.2.symm⟩

theorem register_cases (registered : connection.step .registerSubscribedCallback = some next) :
    ∃ channel rest, connection.unregistered = channel :: rest ∧ connection.Idle ∧
      next = ({ connection with unregistered := rest }.redisAppendCommand channel).redisGetReply
        (.registerSubscribedCallback channel) := by
  simp only [step] at registered
  split at registered
  · cases registered
  · rename_i channel rest left
    simp only [Option.ite_none_right_eq_some, Option.some.injEq] at registered
    exact ⟨channel, rest, left, registered.1, registered.2.symm⟩

theorem handleEvent_cases (ready : connection.step .handleEvent = some next) :
    connection.Idle ∧ connection.socket ≠ [] ∧
      next = connection.redisGetReply .handleEvent := by
  simp only [step, Option.ite_none_right_eq_some, Option.some.injEq] at ready
  exact ⟨ready.1.1, ready.1.2.2, ready.2.symm⟩

theorem recv_cases {count : Nat} (read : connection.step (.recv count) = some next) :
    ∃ taker, connection.reading = some taker ∧ count ≤ connection.socket.length ∧
      next = (connection.redisBufferRead count).redisGetReply taker := by
  simp only [step] at read
  split at read
  · cases read
  · rename_i taker reading
    simp only [Option.ite_none_right_eq_some, Option.some.injEq] at read
    exact ⟨taker, reading, read.1.2.1, read.2.symm⟩

/-- A message has left the reader that no callback was called with. -/
def Lost (connection : RedisConnection) : Prop :=
  ∃ taken pending, connection.Traced taken pending ∧
    connection.passed.length < (taken.filterMap RedisOutput.heard).length

theorem Lost.not_allPassed (lost : connection.Lost) (waits : connection.Waits) :
    ¬connection.AllPassed := by
  obtain ⟨taken, pending, trace, fewer⟩ := lost
  intro all
  have front := all waits taken ⟨pending, trace.split.symm⟩ ⟨_, trace.received.symm⟩
  exact absurd front.length_le (Nat.not_le.mpr fewer)

theorem handleReply_confirmed (connection : RedisConnection) (channel : List UInt8)
    (count : Nat) : connection.handleReply (RedisOutput.confirmed channel count).reply =
      if cString channel ∈ connection.callbacks then { connection with running := false }
      else connection := rfl

theorem handleReply_published (connection : RedisConnection) (message : RedisMessage) :
    connection.handleReply (RedisOutput.published message).reply =
      if cString message.channel ∈ connection.callbacks then
        { connection with
          passed := connection.passed ++ [⟨cString message.channel, cString message.text⟩] }
      else connection := rfl

theorem passed_takeReply (connection : RedisConnection) (output : RedisOutput)
    (taker : ReplyTaker) : (connection.takeReply output.reply taker).passed.length ≤
      connection.passed.length + output.heard.toList.length := by
  cases taker with
  | registerSubscribedCallback channel => exact Nat.le_add_right _ _
  | handleEvent =>
      cases output with
      | confirmed channel count =>
          rw [takeReply, handleReply_confirmed]
          split
          · exact Nat.le_add_right _ _
          · exact Nat.le_add_right _ _
      | published message =>
          rw [takeReply, handleReply_published]
          split
          · simp [RedisOutput.heard]
          · exact Nat.le_add_right _ _

theorem heard_append (outputs : List RedisOutput) (output : RedisOutput) :
    (outputs ++ [output]).filterMap RedisOutput.heard =
      outputs.filterMap RedisOutput.heard ++ output.heard.toList := by
  cases output with
  | confirmed channel count => simp [RedisOutput.heard]
  | published message => simp [RedisOutput.heard]

theorem Lost.redisGetReply (lost : connection.Lost) (taker : ReplyTaker) :
    (connection.redisGetReply taker).Lost := by
  obtain ⟨taken, pending, trace, fewer⟩ := lost
  rcases trace.redisGetReply_cases taker with ⟨-, same⟩ | ⟨output, later, rest, -, -, same, after⟩
  · rw [same]
    exact ⟨taken, pending, ⟨trace.split, trace.received, trace.behind⟩, fewer⟩
  · rw [same]
    refine ⟨_, later, after.takeReply output.reply taker, ?_⟩
    have most := passed_takeReply { connection with reader := rest, reading := none } output taker
    rw [heard_append, List.length_append]
    exact Nat.lt_of_le_of_lt most (Nat.add_lt_add_right fewer _)

theorem lost_step (connection : RedisConnection) (label : RedisLabel) (next : RedisConnection)
    (lost : connection.Lost) (moved : connection.step label = some next) : next.Lost := by
  cases label with
  | publish message =>
      obtain ⟨-, rfl⟩ := publish_cases moved
      obtain ⟨taken, pending, trace, fewer⟩ := lost
      exact ⟨taken, _, trace.write _, fewer⟩
  | serve =>
      obtain ⟨channel, rest, -, rfl⟩ := serve_cases moved
      obtain ⟨taken, pending, trace, fewer⟩ := lost
      have served : ({ connection with commands := rest }.subscribe channel).Traced taken pending :=
        ⟨trace.split, trace.received, trace.behind⟩
      exact ⟨taken, _, served.write _, fewer⟩
  | arrive count =>
      obtain ⟨-, rfl⟩ := arrive_cases moved
      obtain ⟨taken, pending, trace, fewer⟩ := lost
      exact ⟨taken, pending, trace.arrive count, fewer⟩
  | registerSubscribedCallback =>
      obtain ⟨channel, rest, -, -, rfl⟩ := register_cases moved
      obtain ⟨taken, pending, trace, fewer⟩ := lost
      have appended : ({ connection with unregistered := rest }.redisAppendCommand channel).Lost :=
        ⟨taken, pending, ⟨trace.split, trace.received, trace.behind⟩, fewer⟩
      exact appended.redisGetReply (.registerSubscribedCallback channel)
  | handleEvent =>
      obtain ⟨-, -, rfl⟩ := handleEvent_cases moved
      exact lost.redisGetReply .handleEvent
  | recv count =>
      obtain ⟨taker, -, -, rfl⟩ := recv_cases moved
      obtain ⟨taken, pending, trace, fewer⟩ := lost
      have read : (connection.redisBufferRead count).Lost :=
        ⟨taken, pending, trace.redisBufferRead count, fewer⟩
      exact read.redisGetReply taker

end Steps

/-- Every message that has left the reader was passed, and the confirmation that a registration
waits for is the only one on its way. -/
structure Kept (connection : RedisConnection) (taken pending : List RedisOutput) : Prop where
  trace : connection.Traced taken pending
  passed : connection.passed = taken.filterMap RedisOutput.heard
  running : connection.running = true
  flushed : connection.obuf = []
  due : pending.filterMap RedisOutput.confirms ++ connection.commands = connection.awaited
  known : ∀ channel ∈ connection.subscribed, channel ∈ connection.callbacks ++ connection.awaited
  sent : ∀ message, .published message ∈ pending → message.channel ∈ connection.subscribed
  clean : ∀ channel ∈ connection.callbacks ++ connection.awaited ++ connection.unregistered,
    0 ∉ channel

theorem start_kept (channels : SubscribedChannels) : (start channels).Kept [] [] where
  trace := ⟨rfl, rfl, rfl⟩
  passed := rfl
  running := rfl
  flushed := rfl
  due := rfl
  known := fun _ member => by cases member
  sent := fun _ member => by cases member
  clean := channels.clean

section Keeping

variable {connection next : RedisConnection} {taken pending : List RedisOutput}

theorem awaited_of_idle (idle : connection.Idle) : connection.awaited = [] := by
  rw [awaited, Option.isNone_iff_eq_none.mp idle.2, Option.elim_none]

/-- What comes next where no registration waits is a message. -/
theorem Kept.published (kept : connection.Kept taken pending) (calm : connection.awaited = [])
    {output : RedisOutput} {later : List RedisOutput} (first : pending = output :: later) :
    ∃ message, output = .published message := by
  have due := kept.due
  rw [calm, List.append_eq_nil_iff, first] at due
  cases output with
  | confirmed channel count => simp [RedisOutput.confirms] at due
  | published message => exact ⟨message, rfl⟩

theorem Kept.redisGetReply (kept : connection.Kept taken pending) {taker : ReplyTaker}
    (mine : connection.awaited = taker.awaits)
    (own : taker.awaits ≠ [] → ∀ reply rest,
      redisNextReply connection.reader = some (reply, rest) → reply.isMessage = false) :
    ∃ later others, (connection.redisGetReply taker).Kept later others := by
  have due := kept.due
  have known := kept.known
  have clean := kept.clean
  rw [mine] at due known clean
  rcases kept.trace.redisGetReply_cases taker with
    ⟨-, same⟩ | ⟨output, later, rest, first, found, same, after⟩
  · rw [same]
    have trace := kept.trace
    exact ⟨taken, pending, {
      trace := ⟨trace.split, trace.received, trace.behind⟩
      passed := kept.passed
      running := kept.running
      flushed := rfl
      due := by rw [kept.flushed, List.append_nil]; exact due
      known := known
      sent := kept.sent
      clean := clean }⟩
  · rw [same]
    refine ⟨taken ++ [output], later, ?_⟩
    have sent (message : RedisMessage) (member : .published message ∈ later) :
        message.channel ∈ connection.subscribed :=
      kept.sent message (first ▸ List.mem_cons_of_mem _ member)
    cases taker with
    | registerSubscribedCallback channel =>
        have plain := own (List.cons_ne_nil _ _) _ _ found
        cases output with
        | published message => cases plain
        | confirmed confirmed count =>
            rw [first] at due
            obtain ⟨rfl, rest⟩ := List.cons.inj due
            exact {
              trace := after.takeReply _ _
              passed := by simp [RedisConnection.takeReply, kept.passed, RedisOutput.heard]
              running := kept.running
              flushed := kept.flushed
              due := rest
              known := fun channel member => List.mem_append_left _ (known channel member)
              sent := sent
              clean := fun channel member => clean channel (by
                simpa [awaited, RedisConnection.takeReply, ReplyTaker.awaits] using member) }
    | handleEvent =>
        obtain ⟨message, rfl⟩ := kept.published mine first
        rw [ReplyTaker.awaits, List.append_nil] at known clean
        have listed := known _ (kept.sent message (first ▸ List.mem_cons_self))
        have whole := cString_of_clean (clean _ (List.mem_append_left _ listed))
        have heard : ({ connection with reader := rest, reading := none } :
            RedisConnection).takeReply (RedisOutput.published message).reply .handleEvent =
              { connection with
                reader := rest
                reading := none
                passed := connection.passed ++ [message.heard] } := by
          rw [RedisConnection.takeReply, handleReply_published, whole, if_pos listed]
          rfl
        have traced := after.takeReply (RedisOutput.published message).reply .handleEvent
        rw [heard] at traced ⊢
        exact {
          trace := traced
          passed := by simp [kept.passed, RedisOutput.heard]
          running := kept.running
          flushed := kept.flushed
          due := by rw [first] at due; exact due
          known := fun channel member => List.mem_append_left _ (known channel member)
          sent := sent
          clean := fun channel member => clean channel (by simpa [awaited] using member) }

theorem Kept.redisBufferRead (kept : connection.Kept taken pending) (count : Nat) :
    (connection.redisBufferRead count).Kept taken pending where
  trace := kept.trace.redisBufferRead count
  passed := kept.passed
  running := kept.running
  flushed := kept.flushed
  due := kept.due
  known := kept.known
  sent := kept.sent
  clean := kept.clean

theorem Kept.publish (kept : connection.Kept taken pending) {message : RedisMessage}
    (subscribed : message.channel ∈ connection.subscribed) :
    (connection.write (.published message)).Kept taken (pending ++ [.published message]) where
  trace := kept.trace.write _
  passed := kept.passed
  running := kept.running
  flushed := kept.flushed
  due := by
    simpa [List.filterMap_cons, RedisOutput.confirms, write, awaited] using kept.due
  known := kept.known
  sent := fun other member => by
    rcases List.mem_append.mp member with before | new
    · exact kept.sent other before
    · rw [List.mem_singleton, RedisOutput.published.injEq] at new
      exact new ▸ subscribed
  clean := kept.clean

theorem Kept.serve (kept : connection.Kept taken pending) {channel : List UInt8}
    {rest : List (List UInt8)} (command : connection.commands = channel :: rest) (count : Nat) :
    (({ connection with commands := rest }.subscribe channel).write
      (.confirmed channel count)).Kept taken
        (pending ++ [RedisOutput.confirmed channel count]) where
  trace := by
    have served : ({ connection with commands := rest }.subscribe channel).Traced taken pending :=
      ⟨kept.trace.split, kept.trace.received, kept.trace.behind⟩
    exact served.write _
  passed := kept.passed
  running := kept.running
  flushed := kept.flushed
  due := by
    have due := kept.due
    rw [command] at due
    simpa [List.filterMap_cons, RedisOutput.confirms, write, subscribe, awaited] using due
  known := fun other member => by
    rcases List.mem_insert_iff.mp member with rfl | before
    · have waits : other ∈ connection.awaited := by
        rw [← kept.due, command]
        simp
      exact List.mem_append_right _ waits
    · exact kept.known other before
  sent := fun message member => by
    rcases List.mem_append.mp member with before | new
    · exact List.mem_insert_of_mem (kept.sent message before)
    · rw [List.mem_singleton] at new
      cases new
  clean := kept.clean

theorem Kept.register (kept : connection.Kept taken pending) (idle : connection.Idle)
    {channel : List UInt8} {rest : List (List UInt8)}
    (left : connection.unregistered = channel :: rest)
    (nothing : redisNextReply connection.reader = none) :
    (({ connection with unregistered := rest }.redisAppendCommand channel).redisGetReply
      (.registerSubscribedCallback channel)).Kept taken pending := by
  have due := kept.due
  have known := kept.known
  have clean := kept.clean
  rw [awaited_of_idle idle, List.append_nil] at known clean
  rw [awaited_of_idle idle, List.append_eq_nil_iff] at due
  have trace := kept.trace
  simp only [RedisConnection.redisGetReply, redisAppendCommand, nothing]
  exact {
    trace := ⟨trace.split, trace.received, trace.behind⟩
    passed := kept.passed
    running := kept.running
    flushed := rfl
    due := by simp [due, kept.flushed, awaited, ReplyTaker.awaits]
    known := fun other member => List.mem_append_left _ (known other member)
    sent := kept.sent
    clean := fun other member => clean other (by
      simpa [left, awaited, ReplyTaker.awaits] using member) }

theorem kept_step {label : RedisLabel} (kept : connection.Kept taken pending)
    (answers : connection.AnswersOwn label) (moved : connection.step label = some next) :
    ∃ later others, next.Kept later others := by
  cases label with
  | publish message =>
      obtain ⟨subscribed, rfl⟩ := publish_cases moved
      exact ⟨_, _, kept.publish subscribed⟩
  | serve =>
      obtain ⟨channel, rest, command, rfl⟩ := serve_cases moved
      exact ⟨_, _, kept.serve command _⟩
  | arrive count =>
      obtain ⟨-, rfl⟩ := arrive_cases moved
      exact ⟨taken, pending, {
        trace := kept.trace.arrive count
        passed := kept.passed
        running := kept.running
        flushed := kept.flushed
        due := kept.due
        known := kept.known
        sent := kept.sent
        clean := kept.clean }⟩
  | registerSubscribedCallback =>
      obtain ⟨channel, rest, left, idle, rfl⟩ := register_cases moved
      exact ⟨_, _, kept.register idle left (Option.isNone_iff_eq_none.mp answers)⟩
  | handleEvent =>
      obtain ⟨idle, -, rfl⟩ := handleEvent_cases moved
      exact kept.redisGetReply (awaited_of_idle idle) (fun waits => absurd rfl waits)
  | recv count =>
      obtain ⟨taker, reading, -, rfl⟩ := recv_cases moved
      have mine : connection.awaited = taker.awaits := by rw [awaited, reading, Option.elim_some]
      refine (kept.redisBufferRead count).redisGetReply mine fun waits reply rest found => ?_
      have plain := answers (mine ▸ waits)
      rw [found] at plain
      simpa using plain

/-- A registration that gets a message loses it. -/
theorem Traced.lost_of_message (trace : connection.Traced taken pending)
    (passed : connection.passed = taken.filterMap RedisOutput.heard) (channel : List UInt8)
    {reply : RedisReply} {rest : List UInt8}
    (found : redisNextReply connection.reader = some (reply, rest))
    (message : reply.isMessage = true) :
    (connection.redisGetReply (.registerSubscribedCallback channel)).Lost := by
  rcases trace.redisGetReply_cases (.registerSubscribedCallback channel) with
    ⟨nothing, -⟩ | ⟨output, later, behind, -, held, same, after⟩
  · rw [nothing] at found
    cases found
  · rw [found, Option.some.injEq, Prod.mk.injEq] at held
    rw [held.1, isMessage_reply, Option.isSome_iff_exists] at message
    obtain ⟨heard, is⟩ := message
    rw [same]
    refine ⟨_, later, after.takeReply _ _, ?_⟩
    rw [heard_append, is]
    simp [RedisConnection.takeReply, passed]

theorem lost_of_answersOther {label : RedisLabel} (kept : connection.Kept taken pending)
    (other : ¬connection.AnswersOwn label) (moved : connection.step label = some next) :
    next.Lost := by
  cases label with
  | publish _ | serve | arrive _ | handleEvent => exact absurd trivial other
  | registerSubscribedCallback =>
      obtain ⟨channel, left, -, idle, rfl⟩ := register_cases moved
      have trace := kept.trace
      rcases trace.nextReply with nothing | ⟨output, later, rest, first, reader, -⟩
      · exact absurd (Option.isNone_iff_eq_none.mpr nothing) other
      · obtain ⟨message, rfl⟩ := kept.published (awaited_of_idle idle) first
        have appended : ({ connection with
            unregistered := left }.redisAppendCommand channel).Traced taken pending :=
          ⟨trace.split, trace.received, trace.behind⟩
        exact appended.lost_of_message kept.passed channel
          (by rw [reader]; exact redisNextReply_bytes _ rest) rfl
  | recv count =>
      obtain ⟨taker, reading, -, rfl⟩ := recv_cases moved
      obtain ⟨waits, missed⟩ := Classical.not_imp.mp other
      rw [Bool.not_eq_true, Option.all_eq_false] at missed
      obtain ⟨⟨reply, rest⟩, found, message⟩ := missed
      rw [awaited, reading, Option.elim_some] at waits
      cases taker with
      | registerSubscribedCallback channel =>
          exact (kept.trace.redisBufferRead count).lost_of_message kept.passed channel found
            (by simpa using message)
      | handleEvent => exact absurd rfl waits

end Keeping

section Drained

variable {connection next : RedisConnection} {taken pending : List RedisOutput}

/-- Every message that has come is passed where the loop waits exactly if the reader then has
nothing whole. -/
theorem Kept.allPassed_iff (kept : connection.Kept taken pending) :
    connection.AllPassed ↔ connection.Drained := by
  have trace := kept.trace
  constructor
  · intro all waits
    rcases trace.nextReply with nothing | ⟨output, later, rest, first, reader, -⟩
    · exact nothing
    · obtain ⟨message, rfl⟩ := kept.published (awaited_of_idle waits.1) first
      have front : (taken ++ [RedisOutput.published message]).filterMap RedisOutput.heard <+:
          connection.passed := by
        refine all waits _ ⟨later, by simp [trace.split, first]⟩ ⟨rest, ?_⟩
        rw [trace.received, reader, waits.2.2]
        simp
      have short := front.length_le
      rw [heard_append, kept.passed, List.length_append] at short
      exact absurd short (by simp [RedisOutput.heard])
  · intro drained waits whole front arrived
    rw [kept.passed]
    rcases List.prefix_or_prefix_of_prefix front ⟨pending, trace.split.symm⟩ with
      before | ⟨more, rfl⟩
    · exact before.filterMap _
    · cases more with
      | nil => simp
      | cons output more =>
          rw [trace.received, bytesOf_append, List.prefix_append_right_inj, waits.2.2,
            List.append_nil, bytesOf_cons] at arrived
          obtain ⟨rest, reader⟩ := (List.prefix_append _ _).trans arrived
          have held := redisNextReply_bytes output rest
          rw [reader, drained waits] at held
          cases held

theorem redisGetReply_of_whole (connection : RedisConnection) (taker : ReplyTaker)
    {reply : RedisReply} {rest : List UInt8}
    (found : redisNextReply connection.reader = some (reply, rest)) :
    ∃ callbacks passed running, connection.redisGetReply taker = { connection with
      reader := rest, reading := none, callbacks, passed, running } := by
  rw [redisGetReply, found]
  exact takeReply_eq { connection with reader := rest, reading := none } reply taker

theorem waits_redisGetReply {taker : ReplyTaker} (waits : (connection.redisGetReply taker).Waits) :
    connection.unregistered = [] ∧ connection.socket = [] ∧
      ∃ reply rest, redisNextReply connection.reader = some (reply, rest) ∧
        (connection.redisGetReply taker).reader = rest := by
  cases found : redisNextReply connection.reader with
  | none =>
      rw [redisGetReply, found] at waits
      cases waits.1.2
  | some next =>
      obtain ⟨reply, rest⟩ := next
      obtain ⟨callbacks, passed, running, same⟩ := connection.redisGetReply_of_whole taker found
      rw [same] at waits ⊢
      exact ⟨waits.2.1, waits.2.2, reply, rest, rfl, rfl⟩

theorem drained_step {label : RedisLabel} (drained : connection.Drained)
    (one : connection.OneByOne label) (moved : connection.step label = some next) :
    next.Drained := by
  cases label with
  | publish message =>
      obtain ⟨-, rfl⟩ := publish_cases moved
      exact drained
  | serve =>
      obtain ⟨channel, rest, -, rfl⟩ := serve_cases moved
      exact drained
  | arrive count =>
      obtain ⟨⟨positive, enough⟩, rfl⟩ := arrive_cases moved
      intro waits
      have empty := congrArg List.length waits.2.2
      simp only [List.length_append, List.length_take, List.length_nil] at empty
      omega
  | registerSubscribedCallback =>
      obtain ⟨channel, rest, -, -, rfl⟩ := register_cases moved
      intro waits
      obtain ⟨-, -, reply, behind, found, -⟩ := waits_redisGetReply waits
      have nothing := Option.isNone_iff_eq_none.mp one.1
      rw [show redisNextReply connection.reader = _ from found] at nothing
      cases nothing
  | handleEvent =>
      obtain ⟨-, unread, rfl⟩ := handleEvent_cases moved
      intro waits
      exact absurd (waits_redisGetReply waits).2.1 unread
  | recv count =>
      obtain ⟨taker, -, enough, rfl⟩ := recv_cases moved
      intro waits
      obtain ⟨registered, empty, reply, rest, found, reader⟩ := waits_redisGetReply waits
      have all := one.2 ⟨registered, Nat.le_antisymm enough (List.drop_eq_nil_iff.mp empty)⟩
      rw [found, Option.all_some] at all
      rw [reader]
      exact Option.isNone_iff_eq_none.mp all

/-- A read that empties the socket and completes two replies leaves the second one behind. -/
theorem not_drained_of_two {label : RedisLabel} (kept : next.Kept taken pending)
    (two : ¬connection.CompletesOne label) (moved : connection.step label = some next) :
    ¬next.Drained := by
  cases label with
  | publish _ | serve | arrive _ | handleEvent | registerSubscribedCallback =>
      exact absurd trivial two
  | recv count =>
      obtain ⟨taker, -, enough, rfl⟩ := recv_cases moved
      obtain ⟨⟨registered, whole⟩, missed⟩ := Classical.not_imp.mp two
      rw [Bool.not_eq_true, Option.all_eq_false] at missed
      obtain ⟨⟨reply, rest⟩, found, second⟩ := missed
      obtain ⟨callbacks, passed, running, same⟩ :=
        (connection.redisBufferRead count).redisGetReply_of_whole taker found
      intro drained
      have live := kept.running
      rw [same] at drained live
      have empty := List.drop_eq_nil_iff.mpr (Nat.le_of_eq whole.symm)
      have nothing : redisNextReply rest = none := drained ⟨⟨live, rfl⟩, registered, empty⟩
      simp [nothing] at second

/-- The invariant of the runs in which every registration gets its own answer. -/
def Follows (connection : RedisConnection) : Prop :=
  (∃ taken pending, connection.Kept taken pending) ∧ connection.Drained

theorem Follows.allPassed (follows : connection.Follows) : connection.AllPassed := by
  obtain ⟨⟨_, _, kept⟩, drained⟩ := follows
  exact kept.allPassed_iff.mpr drained

theorem start_follows (channels : SubscribedChannels) : (start channels).Follows :=
  ⟨⟨[], [], start_kept channels⟩, fun _ => rfl⟩

theorem follows_step (connection : RedisConnection) (label : RedisLabel) (next : RedisConnection)
    (follows : connection.Follows) (one : connection.OneByOne label)
    (moved : connection.step label = some next) : next.Follows := by
  obtain ⟨⟨_, _, kept⟩, drained⟩ := follows
  exact ⟨kept_step kept one.1 moved, drained_step drained one moved⟩

/-- A step that misses the condition loses a message, or leaves one behind where the loop
waits. -/
theorem lost_of_missed (connection : RedisConnection) (label : RedisLabel)
    (next : RedisConnection) (follows : connection.Follows)
    (missed : ¬connection.OneByOne label) (moved : connection.step label = some next)
    (all : next.AllPassed) : next.Lost := by
  obtain ⟨⟨_, _, kept⟩, -⟩ := follows
  by_cases answers : connection.AnswersOwn label
  · obtain ⟨_, _, after⟩ := kept_step kept answers moved
    have two : ¬connection.CompletesOne label := fun one => missed ⟨answers, one⟩
    exact absurd (after.allPassed_iff.mp all) (not_drained_of_two after two moved)
  · exact lost_of_answersOther kept answers moved

end Drained

theorem meets_of_allPassed {channels : SubscribedChannels} {final : RedisConnection}
    {labels : List RedisLabel} (run : LabelledRun.exec step (start channels) labels = some final)
    (waits : final.Waits) (always : LabelledRun.Always step AllPassed (start channels) labels) :
    LabelledRun.Meets step OneByOne (start channels) labels := by
  have kept : ¬final.Lost := fun lost => lost.not_allPassed waits (always.last run)
  exact LabelledRun.meets_of_always follows_step lost_of_missed
    (fun state label next lost moved _ => lost_step state label next lost moved)
    (start_follows channels) run kept always

/-- Where no registration takes a message for its answer, and no read that empties the socket
completes two replies, every message is passed; a run that ends where the loop waits passes
every message only so. -/
theorem always_allPassed_iff {channels : SubscribedChannels} {final : RedisConnection}
    {labels : List RedisLabel} (run : LabelledRun.exec step (start channels) labels = some final) :
    (LabelledRun.Meets step OneByOne (start channels) labels →
        LabelledRun.Always step AllPassed (start channels) labels) ∧
      (final.Waits → LabelledRun.Always step AllPassed (start channels) labels →
        LabelledRun.Meets step OneByOne (start channels) labels) := by
  refine ⟨fun meets => ?_, meets_of_allPassed run⟩
  have follows := LabelledRun.always_of_meets follows_step (start_follows channels) meets
  exact follows.mono fun _ => Follows.allPassed

/-- One channel `g`. -/
def gateChannel : SubscribedChannels := ⟨[[103]], by decide⟩

/-- The channel is registered. -/
def registered : List RedisLabel := [.registerSubscribedCallback, .serve, .arrive 30, .recv 30]

/-- A message of 31 bytes that comes in two pieces. -/
def pieces : List RedisLabel :=
  registered ++ [.publish ⟨[103], [49]⟩, .arrive 5, .handleEvent, .recv 5, .arrive 26, .recv 26]

theorem always_allPassed_pieces :
    LabelledRun.Always step AllPassed (start gateChannel) pieces := by
  obtain ⟨final, run⟩ := Option.isSome_iff_exists.mp
    (show (LabelledRun.exec step (start gateChannel) pieces).isSome by decide)
  exact (always_allPassed_iff run).1 (by decide)

/-- Two messages that come together. -/
def together : List RedisLabel :=
  registered ++ [.publish ⟨[103], [49]⟩, .publish ⟨[103], [50]⟩, .arrive 62, .handleEvent, .recv 62]

theorem allPassed_fails :
    ¬ ∀ channels (final : RedisConnection) labels,
      LabelledRun.exec step (start channels) labels = some final →
        LabelledRun.Always step AllPassed (start channels) labels := by
  intro all
  obtain ⟨final, run, waits⟩ := (Option.any_eq_true _ _).mp
    (show (LabelledRun.exec step (start gateChannel) together).any
      (fun connection => decide connection.Waits) = true by decide)
  have always := all gateChannel final together run
  exact absurd (meets_of_allPassed run (of_decide_eq_true waits) always) (by decide)

end AutoDrop.RedisConnection
