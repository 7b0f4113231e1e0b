import AutoDrop.RpcTransportLoop

/-!
The server side of a connection. `AD_EVENT_SC_TCP_DATA_NODE::handleEvent` hands the bytes
of one `recv` to `my_rpc_trans::handleRead`, which reads one message from them through a
transport of its own. The thrift processor is a parameter: a program of `readAll` calls,
each of which may depend on the bytes read before it.
-/

namespace AutoDrop

inductive MessageReader
  | done
  | readAll (len : Nat) (next : Bytes → MessageReader)

/-- The reader takes exactly these bytes as one message. -/
def MessageReader.Accepts : MessageReader → Bytes → Prop
  | .done, message => message = []
  | .readAll len next, message =>
      len ≤ message.length ∧ (next (message.take len)).Accepts (message.drop len)

inductive ReadResult (α : Type)
  | returns (value : α)
  | raises
  | hangs
deriving DecidableEq, Repr

/-- The transport of one `handleRead` call over its `TMemoryBuffer`. -/
structure RecvReader where
  transport : RpcTransport
  buffer : Bytes
deriving DecidableEq, Repr

namespace RecvReader

def copyOut (reader : RecvReader) (len : Nat) : Bytes × RecvReader :=
  ((reader.transport.copyOut len).1, { reader with transport := (reader.transport.copyOut len).2 })

def readVirt (reader : RecvReader) (len : Nat) : Option (Bytes × RecvReader) :=
  if reader.transport.bufferdRecvData = [] then
    (reader.transport.readMore (reader.buffer.take 1024)).map fun transport =>
      copyOut ⟨transport, reader.buffer.drop 1024⟩ len
  else some (reader.copyOut len)

/-- `TTransport::readAll`; every turn that goes on has returned at least one byte. -/
def readAllFrom : Nat → RecvReader → Nat → ReadResult (Bytes × RecvReader)
  | _, reader, 0 => .returns ([], reader)
  | 0, _, _ + 1 => .raises
  | fuel + 1, reader, len + 1 =>
      match reader.readVirt (len + 1) with
      | none => .hangs
      | some (bytes, next) =>
          if bytes.length = 0 then .raises
          else
            match readAllFrom fuel next (len + 1 - bytes.length) with
            | .returns (more, last) => .returns (bytes ++ more, last)
            | .raises => .raises
            | .hangs => .hangs

def process : MessageReader → RecvReader → ReadResult Bytes
  | .done, _ => .returns []
  | .readAll len next, reader =>
      match readAllFrom len reader len with
      | .returns (bytes, rest) =>
          match process (next bytes) rest with
          | .returns message => .returns (bytes ++ message)
          | .raises => .raises
          | .hangs => .hangs
      | .raises => .raises
      | .hangs => .hangs

end RecvReader

/-- The message that one `recv` result makes the processor run with. What the transport
still holds is dropped with it. -/
def handleRead (processor : MessageReader) (recv : Bytes) : ReadResult Bytes :=
  RecvReader.process processor ⟨.fresh, recv⟩

/-- The processor runs of a connection. An exception leaves the coroutine and ends the
daemon; a loop that does not end stops it. -/
def serve (processor : MessageReader) : List Bytes → List (ReadResult Bytes)
  | [] => []
  | recv :: later =>
      match handleRead processor recv with
      | .returns message => .returns message :: serve processor later
      | .raises => [.raises]
      | .hangs => [.hangs]

/-- The `write_virt` calls of one request. `TBinaryProtocol` makes at least one and never
writes an empty buffer. -/
structure RpcRequest (processor : MessageReader) where
  writes : List Bytes
  present : writes ≠ []
  nonempty : ∀ buf ∈ writes, buf ≠ []
  fit : ∀ buf ∈ writes, buf.length < 2 ^ 32 - 4
  accepted : processor.Accepts writes.flatten

namespace RpcRequest

variable {processor : MessageReader}

def wire (request : RpcRequest processor) : Bytes :=
  (request.writes.map RpcTransport.writeVirt).flatten

def message (request : RpcRequest processor) : Bytes :=
  request.writes.flatten

/-- The inner reads of 1024 bytes of a `recv` that holds just this request all end at most
three bytes behind a frame. -/
def CutsNearFrameEnds (request : RpcRequest processor) : Prop :=
  ∀ count, 1024 * count ≤ request.wire.length →
    RpcTransport.NearFrameEnd request.writes (1024 * count)

end RpcRequest

/-- The reader stands inside a request: what it holds and what it can still be sent are
the writes `pending`, and `message` is what it has not been asked for yet. -/
structure Receiving (reader : RecvReader) (pending : List Bytes) (unread message : Bytes) :
    Prop where
  fit : ∀ buf ∈ pending, buf.length < 2 ^ 32 - 4
  nonempty : ∀ buf ∈ pending, buf ≠ []
  wire : rpcLength.stream pending = reader.transport.recvBuf ++ reader.buffer ++ unread
  content : reader.transport.bufferdRecvData ++ pending.flatten = message
  short : reader.transport.recvBuf.length < 4
  few : reader.transport.bufferdRecvData.length < 2 ^ 32

def RecvReader.CutsNear (reader : RecvReader) (pending : List Bytes) : Prop :=
  RpcTransport.CutsNear reader.transport.recvBuf pending
    fun count => reader.buffer.take (1024 * count)

theorem copyOut_receiving {reader : RecvReader} {pending : List Bytes} {unread message : Bytes}
    (receiving : Receiving reader pending unread message) (len : Nat) :
    ∃ rest, message = (reader.copyOut len).1 ++ rest ∧
      Receiving (reader.copyOut len).2 pending unread rest := by
  refine ⟨reader.transport.bufferdRecvData.drop (reader.transport.copyLen len) ++ pending.flatten,
    ?_, ?_⟩
  · rw [← receiving.content, ← List.append_assoc]
    congr 1
    exact (List.take_append_drop _ _).symm
  · constructor
    · exact receiving.fit
    · exact receiving.nonempty
    · exact receiving.wire
    · rfl
    · exact receiving.short
    · have few := receiving.few
      simp only [RecvReader.copyOut, RpcTransport.copyOut, List.length_drop]
      omega

theorem copyOut_nonempty {reader : RecvReader} {len : Nat} (positive : 0 < len)
    (held : reader.transport.bufferdRecvData ≠ [])
    (few : reader.transport.bufferdRecvData.length < 2 ^ 32) :
    (reader.copyOut len).1 ≠ [] :=
  fun empty => held ((RpcTransport.copyOut_eq_nil_iff positive few).mp empty)

theorem readMore_receiving {reader : RecvReader} {pending : List Bytes} {unread message : Bytes}
    (receiving : Receiving reader pending unread message)
    (empty : reader.transport.bufferdRecvData = []) :
    ∃ complete later tail, pending = complete ++ later ∧
      (∀ transport, reader.transport.readMore (reader.buffer.take 1024) = some transport ↔
        tail.length < 4 ∧ transport = ⟨tail, complete.flatten⟩) ∧
      (reader.CutsNear pending ↔ tail.length < 4 ∧
        RecvReader.CutsNear ⟨⟨tail, complete.flatten⟩, reader.buffer.drop 1024⟩ later) ∧
      (tail.length < 4 →
        Receiving ⟨⟨tail, complete.flatten⟩, reader.buffer.drop 1024⟩ later unread message) ∧
      (complete = [] → unread = [] → tail.length < 4 → pending = []) := by
  have wire := receiving.wire
  rw [← List.take_append_drop 1024 reader.buffer, ← List.append_assoc, List.append_assoc] at wire
  obtain ⟨complete, later, tail, rfl, bytes, partialFrame⟩ := rpcLength.stream_cut wire
  have rest : rpcLength.stream later = tail ++ reader.buffer.drop 1024 ++ unread := by
    rw [rpcLength.stream_append, bytes, List.append_assoc] at wire
    simpa using wire
  have sizes := congrArg List.length bytes
  rw [List.length_append, List.length_append, List.length_take] at sizes
  have short := receiving.short
  refine ⟨complete, later, tail, rfl, fun transport => ?_, ?_, fun small => ?_, ?_⟩
  · rw [← RpcTransport.readMoreReturns_iff_readMore,
      RpcTransport.readMoreReturns_cut receiving.fit bytes partialFrame, empty, List.nil_append]
  · apply RpcTransport.cutsNear_cons short bytes partialFrame (by simp) (by simp)
    intro count
    rw [Nat.mul_succ, Nat.add_comm, List.take_add]
  · constructor
    · exact fun buf member => receiving.fit buf (by simp [member])
    · exact fun buf member => receiving.nonempty buf (by simp [member])
    · exact rest
    · rw [← receiving.content, empty, List.flatten_append, List.nil_append]
    · exact small
    · have payloads := rpcLength.flatten_length_le_stream complete
      change complete.flatten.length < 2 ^ 32
      omega
  · rintro rfl rfl small
    -- Without a complete frame the read has taken the whole rest of the buffer.
    have few : (reader.buffer.drop 1024) = [] := by
      apply List.drop_eq_nil_of_le
      simp only [rpcLength.stream_nil, List.length_nil] at sizes
      omega
    rw [few, List.append_nil, List.append_nil] at rest
    cases later with
    | nil => rfl
    | cons buf later =>
        have long := congrArg List.length rest
        rw [LengthField.stream_cons, List.length_append, rpcLength.frame_length,
          show rpcLength.width = 4 from rfl] at long
        omega

theorem copyOut_length_le (reader : RecvReader) (len : Nat) :
    (reader.copyOut len).1.length ≤ len := by
  simp only [RecvReader.copyOut, RpcTransport.copyOut, RpcTransport.copyLen, List.length_take]
  omega

/-! With the rest of the request in the buffer and all cuts near frame ends, every call
makes progress. -/

theorem readVirt_progress {reader : RecvReader} {pending : List Bytes} {message : Bytes} {len : Nat}
    (receiving : Receiving reader pending [] message) (near : reader.CutsNear pending)
    (wanted : message ≠ []) (positive : 0 < len) :
    ∃ bytes next later rest, reader.readVirt len = some (bytes, next) ∧ bytes ≠ [] ∧
      bytes.length ≤ len ∧ message = bytes ++ rest ∧ Receiving next later [] rest ∧
      next.CutsNear later := by
  by_cases empty : reader.transport.bufferdRecvData = []
  · obtain ⟨complete, later, tail, same, reads, cuts, moved, last⟩ :=
      readMore_receiving receiving empty
    obtain ⟨small, nearLater⟩ := cuts.mp near
    have received := moved small
    have someFrame : complete ≠ [] := by
      intro none
      apply wanted
      rw [← receiving.content, empty, last none rfl small]
      rfl
    have held : complete.flatten ≠ [] := by
      obtain ⟨buf, others, rfl⟩ := List.exists_cons_of_ne_nil someFrame
      have full := receiving.nonempty buf (by simp [same])
      simp [full]
    obtain ⟨rest, split, copied⟩ := copyOut_receiving received len
    refine ⟨_, _, later, rest, ?_, copyOut_nonempty positive held received.few,
      copyOut_length_le _ len, split, copied, nearLater⟩
    rw [RecvReader.readVirt, if_pos empty, (reads _).mpr ⟨small, rfl⟩, Option.map_some]
  · obtain ⟨rest, split, copied⟩ := copyOut_receiving receiving len
    exact ⟨_, _, pending, rest, if_neg empty, copyOut_nonempty positive empty receiving.few,
      copyOut_length_le _ len, split, copied, near⟩

theorem readAllFrom_progress {fuel len : Nat} {reader : RecvReader} {pending : List Bytes}
    {message : Bytes} (receiving : Receiving reader pending [] message)
    (near : reader.CutsNear pending) (enough : len ≤ message.length) (fueled : len ≤ fuel) :
    ∃ next later, RecvReader.readAllFrom fuel reader len = .returns (message.take len, next) ∧
      Receiving next later [] (message.drop len) ∧ next.CutsNear later := by
  induction fuel generalizing reader pending message len with
  | zero =>
      obtain rfl : len = 0 := by omega
      exact ⟨reader, pending, rfl, receiving, near⟩
  | succ fuel ih =>
      cases len with
      | zero => exact ⟨reader, pending, rfl, receiving, near⟩
      | succ len =>
          have wanted : message ≠ [] := List.ne_nil_of_length_pos (by omega)
          obtain ⟨bytes, next, later, rest, read, some, few, rfl, copied, nearLater⟩ :=
            readVirt_progress receiving near wanted (Nat.succ_pos len)
          have size := List.length_pos_of_ne_nil some
          rw [List.length_append] at enough
          obtain ⟨last, final, all, done, nearFinal⟩ :=
            ih copied nearLater (show len + 1 - bytes.length ≤ rest.length by omega) (by omega)
          refine ⟨last, final, ?_, ?_, nearFinal⟩
          · simp only [RecvReader.readAllFrom, read, if_neg (show ¬bytes.length = 0 by omega), all,
              List.take_append, List.take_of_length_le few]
          · rwa [List.drop_append, List.drop_of_length_le few, List.nil_append]

theorem process_progress {processor : MessageReader} {reader : RecvReader} {pending : List Bytes}
    {message : Bytes} (receiving : Receiving reader pending [] message)
    (near : reader.CutsNear pending) (accepted : processor.Accepts message) :
    RecvReader.process processor reader = .returns message := by
  induction processor generalizing reader pending message with
  | done =>
      rw [MessageReader.Accepts] at accepted
      rw [accepted, RecvReader.process]
  | readAll len next ih =>
      obtain ⟨enough, others⟩ := accepted
      obtain ⟨rest, later, all, received, nearLater⟩ :=
        readAllFrom_progress receiving near enough (Nat.le_refl len)
      simp only [RecvReader.process, all, ih _ received nearLater others,
        List.take_append_drop]

/-! Conversely, a call that returns has found its bytes, and the inner reads it made ended
near frame ends. -/

theorem readVirt_found {reader next : RecvReader} {pending : List Bytes}
    {unread message bytes : Bytes} {len : Nat}
    (receiving : Receiving reader pending unread message)
    (read : reader.readVirt len = some (bytes, next)) :
    ∃ later rest, message = bytes ++ rest ∧ Receiving next later unread rest ∧
      (next.CutsNear later → reader.CutsNear pending) := by
  rw [RecvReader.readVirt] at read
  split at read
  next empty =>
    obtain ⟨complete, later, tail, same, reads, cuts, moved, _⟩ :=
      readMore_receiving receiving empty
    obtain ⟨transport, found, copied⟩ := Option.map_eq_some_iff.mp read
    obtain ⟨small, rfl⟩ := (reads transport).mp found
    obtain ⟨rest, split, received⟩ := copyOut_receiving (moved small) len
    obtain ⟨rfl, rfl⟩ := Prod.mk.inj copied
    exact ⟨later, rest, split, received, fun near => cuts.mpr ⟨small, near⟩⟩
  next =>
    obtain ⟨rest, split, received⟩ := copyOut_receiving receiving len
    obtain ⟨rfl, rfl⟩ := Prod.mk.inj (Option.some.inj read)
    exact ⟨pending, rest, split, received, id⟩

theorem readAllFrom_zero (fuel : Nat) (reader : RecvReader) :
    RecvReader.readAllFrom fuel reader 0 = .returns ([], reader) := by
  cases fuel with
  | zero => rfl
  | succ fuel => rfl

theorem readAllFrom_cases {fuel len : Nat} {reader next : RecvReader} {bytes : Bytes}
    (read : RecvReader.readAllFrom fuel reader len = .returns (bytes, next)) :
    (bytes = [] ∧ next = reader) ∨ ∃ later first middle more, fuel = later + 1 ∧
      reader.readVirt len = some (first, middle) ∧ bytes = first ++ more ∧
      RecvReader.readAllFrom later middle (len - first.length) = .returns (more, next) := by
  cases len with
  | zero =>
      rw [readAllFrom_zero, ReadResult.returns.injEq, Prod.mk.injEq] at read
      exact .inl ⟨read.1.symm, read.2.symm⟩
  | succ len =>
      cases fuel with
      | zero => simp [RecvReader.readAllFrom] at read
      | succ fuel =>
          rw [RecvReader.readAllFrom] at read
          split at read
          next => simp at read
          next first middle one =>
            split at read
            next => simp at read
            next =>
              split at read
              next more last all =>
                simp only [ReadResult.returns.injEq, Prod.mk.injEq] at read
                obtain ⟨rfl, rfl⟩ := read
                exact .inr ⟨fuel, first, middle, more, rfl, one, rfl, all⟩
              next => simp at read
              next => simp at read

theorem readAllFrom_found {fuel len : Nat} {reader next : RecvReader} {pending : List Bytes}
    {unread message bytes : Bytes} (receiving : Receiving reader pending unread message)
    (read : RecvReader.readAllFrom fuel reader len = .returns (bytes, next)) :
    ∃ later rest, message = bytes ++ rest ∧ Receiving next later unread rest ∧
      (next.CutsNear later → reader.CutsNear pending) := by
  induction fuel generalizing reader pending message bytes len with
  | zero =>
      rcases readAllFrom_cases read with ⟨rfl, rfl⟩ | ⟨later, _, _, _, out, -⟩
      · exact ⟨pending, message, rfl, receiving, id⟩
      · cases out
  | succ fuel ih =>
      rcases readAllFrom_cases read with ⟨rfl, rfl⟩ | ⟨_, first, middle, more, same, one, rfl, all⟩
      · exact ⟨pending, message, rfl, receiving, id⟩
      · obtain rfl := Nat.succ.inj same
        obtain ⟨later, rest, rfl, received, back⟩ := readVirt_found receiving one
        obtain ⟨final, remaining, rfl, done, farther⟩ := ih received all
        exact ⟨final, remaining, by simp, done, fun near => back (farther near)⟩

theorem process_found {processor : MessageReader} {reader : RecvReader} {pending : List Bytes}
    {unread message taken : Bytes} (receiving : Receiving reader pending unread message)
    (read : RecvReader.process processor reader = .returns taken) :
    ∃ last later rest, message = taken ++ rest ∧ Receiving last later unread rest ∧
      (last.CutsNear later → reader.CutsNear pending) := by
  induction processor generalizing reader pending message taken with
  | done =>
      simp only [RecvReader.process, ReadResult.returns.injEq] at read
      exact ⟨reader, pending, message, by simp [← read], receiving, id⟩
  | readAll len next ih =>
      rw [RecvReader.process] at read
      split at read
      next bytes middle all =>
        split at read
        next more others =>
          simp only [ReadResult.returns.injEq] at read
          obtain ⟨later, rest, rfl, received, back⟩ := readAllFrom_found receiving all
          obtain ⟨last, final, remaining, rfl, done, farther⟩ := ih bytes received others
          exact ⟨last, final, remaining, by simp [← read], done, fun near => back (farther near)⟩
        next => simp at read
        next => simp at read
      next => simp at read
      next => simp at read

namespace RpcRequest

variable {processor : MessageReader}

theorem fresh_receiving (request : RpcRequest processor) {recv unread : Bytes}
    (cut : request.wire = recv ++ unread) :
    Receiving ⟨.fresh, recv⟩ request.writes unread request.message :=
  ⟨request.fit, request.nonempty, cut, rfl, Nat.zero_lt_succ 3, Nat.two_pow_pos 32⟩

theorem cutsNearFrameEnds_iff (request : RpcRequest processor) :
    request.CutsNearFrameEnds ↔ RecvReader.CutsNear ⟨.fresh, request.wire⟩ request.writes := by
  have size (count : Nat) :
      (RpcTransport.fresh.recvBuf ++ request.wire.take (1024 * count)).length =
        min (1024 * count) request.wire.length := by
    rw [List.length_append, List.length_take]
    exact Nat.zero_add _
  constructor
  · intro near count
    rw [size]
    rcases Nat.le_total (1024 * count) request.wire.length with inside | beyond
    · rw [Nat.min_eq_left inside]
      exact near count inside
    · rw [Nat.min_eq_right beyond]
      exact ⟨request.writes, [], by simp, Nat.le_refl _, Nat.lt_add_of_pos_right (by decide)⟩
  · intro near count inside
    have cut := near count
    rwa [size, Nat.min_eq_left inside] at cut

/-- The first bytes of a request, alone in a `recv`, make the processor run with the
request exactly when they are all of it and the inner reads end near frames. -/
theorem handleRead_iff (request : RpcRequest processor) {recv unread : Bytes}
    (cut : request.wire = recv ++ unread) :
    handleRead processor recv = .returns request.message ↔
      unread = [] ∧ request.CutsNearFrameEnds := by
  have receiving := request.fresh_receiving cut
  rw [cutsNearFrameEnds_iff]
  constructor
  · intro found
    obtain ⟨last, later, rest, split, done, back⟩ := process_found receiving found
    have noRest : rest = [] := by simpa using split.symm
    have content := done.content
    rw [noRest, List.append_eq_nil_iff] at content
    have noWrites : later = [] := by
      cases later with
      | nil => rfl
      | cons buf later =>
          have empty : buf = [] := List.flatten_eq_nil_iff.mp content.2 buf (by simp)
          exact (done.nonempty buf (by simp) empty).elim
    have wire := done.wire
    rw [noWrites, rpcLength.stream_nil, eq_comm, List.append_eq_nil_iff,
      List.append_eq_nil_iff] at wire
    refine ⟨wire.2, ?_⟩
    have whole : request.wire = recv := by rw [cut, wire.2, List.append_nil]
    rw [whole]
    apply back
    intro count
    rw [wire.1.1, wire.1.2, noWrites]
    exact ⟨[], [], rfl, by simp, by simp⟩
  · rintro ⟨rfl, near⟩
    rw [List.append_nil] at cut
    rw [cut] at near
    exact process_progress receiving near request.accepted

theorem serve_whole {requests : List (RpcRequest processor)}
    (near : ∀ request ∈ requests, request.CutsNearFrameEnds) :
    serve processor (requests.map wire) = requests.map fun request => .returns request.message := by
  induction requests with
  | nil => rfl
  | cons request requests ih =>
      have first : handleRead processor request.wire = .returns request.message :=
        (request.handleRead_iff (List.append_nil _).symm).mpr ⟨rfl, near request (by simp)⟩
      rw [List.map_cons, serve, first, List.map_cons,
        ih fun other member => near other (by simp [member])]

theorem whole_of_serve {requests : List (RpcRequest processor)} {parts : List (List Bytes)}
    (cut : parts.map List.flatten = requests.map wire)
    (nonempty : ∀ part ∈ parts, ∀ recv ∈ part, recv ≠ [])
    (served : serve processor parts.flatten =
      requests.map fun request => .returns request.message) :
    parts.flatten = requests.map wire ∧ ∀ request ∈ requests, request.CutsNearFrameEnds := by
  induction requests generalizing parts with
  | nil =>
      have none : parts = [] := by simpa using cut
      simp [none]
  | cons request requests ih =>
      obtain ⟨part, parts, rfl⟩ : ∃ part others, parts = part :: others := by
        cases parts with
        | nil => simp at cut
        | cons part parts => exact ⟨part, parts, rfl⟩
      simp only [List.map_cons, List.cons.injEq] at cut
      cases part with
      | nil =>
          -- A request always puts at least one header on the wire.
          obtain ⟨buf, writes, same⟩ := List.exists_cons_of_ne_nil request.present
          have size := congrArg List.length cut.1
          simp [wire, same, RpcTransport.writeVirt, htonl] at size
      | cons recv more =>
          rw [List.flatten_cons, List.cons_append, serve] at served
          split at served
          next message found =>
            simp only [List.map_cons, List.cons.injEq, ReadResult.returns.injEq] at served
            rw [served.1] at found
            have whole : request.wire = recv ++ more.flatten := by
              rw [← cut.1, List.flatten_cons]
            obtain ⟨rest, near⟩ := (request.handleRead_iff whole).mp found
            have alone : more = [] := by
              cases more with
              | nil => rfl
              | cons extra more =>
                  have empty := List.flatten_eq_nil_iff.mp rest extra (by simp)
                  exact (nonempty _ List.mem_cons_self extra (by simp) empty).elim
            subst alone
            obtain ⟨same, others⟩ := ih cut.2
              (fun part member => nonempty part (by simp [member])) served.2
            refine ⟨?_, ?_⟩
            · rw [List.flatten_cons, same, List.map_cons, whole]
              simp
            · intro other member
              rcases List.mem_cons.mp member with rfl | later
              · exact near
              · exact others other later
          next => simp at served
          next => simp at served

/-- Every request is delivered once, in order and whole when each `recv` returns exactly one
request whose inner reads end near frames; and only then, unless some `recv` returns
bytes of two requests. -/
theorem serve_delivers (requests : List (RpcRequest processor)) (recvs : List Bytes) :
    (recvs = requests.map wire ∧ (∀ request ∈ requests, request.CutsNearFrameEnds) →
      serve processor recvs = requests.map fun request => .returns request.message) ∧
    ∀ parts : List (List Bytes), parts.flatten = recvs →
      parts.map List.flatten = requests.map wire →
      (∀ part ∈ parts, ∀ recv ∈ part, recv ≠ []) →
      serve processor recvs = (requests.map fun request => .returns request.message) →
      recvs = requests.map wire ∧ ∀ request ∈ requests, request.CutsNearFrameEnds := by
  constructor
  · rintro ⟨rfl, near⟩
    exact serve_whole near
  · rintro parts rfl cut nonempty served
    exact whole_of_serve cut nonempty served

end RpcRequest

/-! A call without arguments, as `TBinaryProtocol` reads it: version and type, the name with
its size, the sequence number, and the stop byte of the empty argument struct. -/

def callWithoutArguments : MessageReader :=
  .readAll 4 fun _ => .readAll 4 fun size => .readAll (ntohl size) fun _ =>
    .readAll 4 fun _ => .readAll 1 fun _ => .done

/-- The one-way call `stop_sm` of the service `runner_sm`. -/
def stopSmCall (seqid : UInt8) : RpcRequest callWithoutArguments where
  writes := [[128, 1, 0, 4], [0, 0, 0, 17],
    [114, 117, 110, 110, 101, 114, 95, 115, 109, 58, 115, 116, 111, 112, 95, 115, 109],
    [0, 0, 0, seqid], [0]]
  present := by simp
  nonempty := by simp
  fit := by simp
  accepted := by simp [MessageReader.Accepts, callWithoutArguments, ntohl]

theorem serve_delivers_stopSm :
    serve callWithoutArguments [(stopSmCall 1).wire, (stopSmCall 2).wire] =
      [.returns (stopSmCall 1).message, .returns (stopSmCall 2).message] := by
  refine (RpcRequest.serve_delivers [stopSmCall 1, stopSmCall 2] _).1 ⟨rfl, ?_⟩
  intro request member count inside
  have small : request.wire.length = 50 := by
    rcases List.mem_cons.mp member with rfl | later
    · rfl
    · rw [List.mem_singleton.mp later]
      rfl
  obtain rfl : count = 0 := by omega
  exact ⟨[], request.writes, rfl, by decide, by decide⟩

/-- Two requests in one `recv`: only the first is run. One request in two: the first piece
never comes back. -/
theorem serve_loses_request :
    serve callWithoutArguments [(stopSmCall 1).wire ++ (stopSmCall 2).wire] =
        [.returns (stopSmCall 1).message] ∧
      serve callWithoutArguments [(stopSmCall 1).wire.take 20, (stopSmCall 1).wire.drop 20] =
        [.hangs] := by
  decide

end AutoDrop
