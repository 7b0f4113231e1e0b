import AutoDrop.EventSc
import AutoDrop.RpcServer
import AutoDrop.RpcTransportFrames
import Mathlib.Data.List.Infix

/-!
What the bytes of one `recv` do to the daemon. The thrift processor of a service is again a
parameter: it reads a message, throws where it refuses one, and calls a method otherwise.
No frame between `handleRead` and `co_routine_func` catches what it throws.
-/

namespace AutoDrop

/-- A processor behind `TMultiplexedProcessor`. `run` is what the called method does to the
registrations of the event loop. -/
structure RpcService (Node : Type*) where
  reader : MessageReader
  rejects : Bytes → Bool
  run : Bytes → EventSc Node → EventSc Node

inductive CoEnd (Node : Type*)
  | dead (sc : EventSc Node)
  | terminated
  | stuck

namespace RpcService

variable {Node : Type*}

/-- `process`, called by `handleRead`. -/
def process (service : RpcService Node) (recv : Bytes) : ReadResult Bytes :=
  match handleRead service.reader recv with
  | .returns message => if service.rejects message then .raises else .returns message
  | .raises => .raises
  | .hangs => .hangs

/-- `co_routine_func` with `AD_EVENT_SC_TCP_DATA_NODE::handleEvent` of the connection `fd`.
An exception that leaves a coroutine function terminates the process. -/
def coRoutine (service : RpcService Node) (sc : EventSc Node) (fd : Nat) (recv : Bytes) :
    CoEnd Node :=
  if recv.length = 0 then .dead (sc.unregisterNode fd)
  else
    match service.process recv with
    | .returns message => .dead (service.run message sc)
    | .raises => .terminated
    | .hangs => .stuck

/-- The coroutine ends, and only the called method has touched the registrations. -/
def Survives (service : RpcService Node) (sc : EventSc Node) (fd : Nat) (recv : Bytes) : Prop :=
  ∃ message, service.coRoutine sc fd recv = .dead (service.run message sc)

end RpcService

/-- The payload bytes that the transport hands out before an inner read brings none. -/
def delivered (recvBuf : Bytes) : Bytes → Bytes
  | [] => []
  | byte :: buffer =>
      match RpcTransport.readMore ⟨recvBuf, []⟩ ((byte :: buffer).take 1024) with
      | none => []
      | some transport =>
          if transport.bufferdRecvData = [] then []
          else transport.bufferdRecvData ++
            delivered transport.recvBuf ((byte :: buffer).drop 1024)
termination_by buffer => buffer.length
decreasing_by
  simp only [List.length_drop, List.length_cons]
  omega

/-- What a reader can still hand out. -/
def RecvReader.undelivered (reader : RecvReader) : Bytes :=
  reader.transport.bufferdRecvData ++ delivered reader.transport.recvBuf reader.buffer

structure RecvReader.Small (reader : RecvReader) : Prop where
  header : reader.transport.recvBuf.length < 4
  buffered : reader.transport.bufferdRecvData.length < 2 ^ 32

theorem delivered_eq (recvBuf buffer : Bytes) (short : recvBuf.length < 4) :
    delivered recvBuf buffer =
      match RpcTransport.readMore ⟨recvBuf, []⟩ (buffer.take 1024) with
      | none => []
      | some transport =>
          if transport.bufferdRecvData = [] then []
          else transport.bufferdRecvData ++ delivered transport.recvBuf (buffer.drop 1024) := by
  cases buffer with
  | nil =>
      have stopped : RpcTransport.readMore ⟨recvBuf, []⟩ [] = some ⟨recvBuf, []⟩ := by
        rw [RpcTransport.readMore, RpcTransport.receive, List.append_nil]
        exact RpcTransport.readMoreLoop_short short _
      simp [delivered, stopped]
  | cons byte buffer => rw [delivered]

theorem delivered_stream (payloads : List Bytes)
    (fit : ∀ payload ∈ payloads, payload.length < 2 ^ 32 - 4)
    (few : (rpcLength.stream payloads).length ≤ 1024) :
    delivered [] (rpcLength.stream payloads) = payloads.flatten := by
  have whole : (rpcLength.stream payloads).take 1024 = rpcLength.stream payloads :=
    List.take_of_length_le few
  have rest : (rpcLength.stream payloads).drop 1024 = [] := List.drop_of_length_le few
  have fits : ∀ payload ∈ payloads ++ [], payload.length < 2 ^ 32 - 4 := by
    simpa using fit
  have read : RpcTransport.readMore ⟨[], []⟩ (rpcLength.stream payloads) =
      some ⟨[], payloads.flatten⟩ := by
    have cut : ([] : Bytes) ++ rpcLength.stream payloads = rpcLength.stream payloads ++ [] := by
      simp
    rw [← RpcTransport.readMoreReturns_iff_readMore,
      RpcTransport.readMoreReturns_cut fits cut fun absurdity => (absurdity rfl).elim]
    exact ⟨by decide, rfl⟩
  rw [delivered_eq [] _ (by decide), whole, read, rest]
  dsimp only
  split
  next nothing => exact nothing.symm
  next => rw [delivered, List.append_nil]

theorem copyOut_undelivered {reader : RecvReader} (small : reader.Small) (len : Nat) :
    reader.undelivered = (reader.copyOut len).1 ++ (reader.copyOut len).2.undelivered ∧
      (reader.copyOut len).2.Small := by
  refine ⟨?_, small.header, ?_⟩
  · simp only [RecvReader.undelivered, RecvReader.copyOut, RpcTransport.copyOut]
    rw [← List.append_assoc, List.take_append_drop]
  · have buffered := small.buffered
    simp only [RecvReader.copyOut, RpcTransport.copyOut, List.length_drop]
    omega

/-- A call for a positive length hands out what is next, and nothing only where nothing is
left. -/
theorem readVirt_undelivered {reader : RecvReader} (small : reader.Small) {len : Nat}
    (positive : 0 < len) :
    (reader.undelivered = [] ∧
        ∀ bytes next, reader.readVirt len = some (bytes, next) → bytes = []) ∨
      ∃ bytes next, reader.readVirt len = some (bytes, next) ∧ bytes ≠ [] ∧ bytes.length ≤ len ∧
        reader.undelivered = bytes ++ next.undelivered ∧ next.Small := by
  by_cases empty : reader.transport.bufferdRecvData = []
  · have bare : reader.transport = ⟨reader.transport.recvBuf, []⟩ := by
      rw [← empty]
    have few : (reader.buffer.take 1024).length ≤ 1024 := List.length_take_le 1024 _
    rw [RecvReader.undelivered, empty, List.nil_append, delivered_eq _ _ small.header, ← bare,
      RecvReader.readVirt, if_pos empty]
    cases found : reader.transport.readMore (reader.buffer.take 1024) with
    | none => exact .inl ⟨rfl, fun bytes next none => by cases none⟩
    | some transport =>
        obtain ⟨header, buffered⟩ := RpcTransport.readMore_size empty small.header few found
        by_cases nothing : transport.bufferdRecvData = []
        · left
          refine ⟨if_pos nothing, fun bytes next some => ?_⟩
          obtain ⟨rfl, _⟩ := Prod.mk.inj (Option.some.inj some)
          simp [RpcTransport.copyOut, nothing]
        · right
          have later : RecvReader.Small ⟨transport, reader.buffer.drop 1024⟩ := ⟨header, buffered⟩
          obtain ⟨split, rest⟩ := copyOut_undelivered later len
          refine ⟨_, _, rfl, copyOut_nonempty positive nothing buffered,
            copyOut_length_le _ len, ?_, rest⟩
          exact (if_neg nothing).trans split
  · obtain ⟨split, rest⟩ := copyOut_undelivered small len
    exact .inr ⟨_, _, if_neg empty, copyOut_nonempty positive empty small.buffered,
      copyOut_length_le _ len, split, rest⟩

theorem readAllFrom_undelivered {fuel len : Nat} {reader : RecvReader} (small : reader.Small)
    (fueled : len ≤ fuel) :
    (len ≤ reader.undelivered.length → ∃ next,
      RecvReader.readAllFrom fuel reader len = .returns (reader.undelivered.take len, next) ∧
        next.undelivered = reader.undelivered.drop len ∧ next.Small) ∧
    (reader.undelivered.length < len → ∀ value,
      RecvReader.readAllFrom fuel reader len ≠ .returns value) := by
  induction fuel generalizing reader len with
  | zero =>
      obtain rfl : len = 0 := by omega
      exact ⟨fun _ => ⟨reader, rfl, rfl, small⟩, fun short => by omega⟩
  | succ fuel ih =>
      cases len with
      | zero => exact ⟨fun _ => ⟨reader, rfl, rfl, small⟩, fun short => by omega⟩
      | succ len =>
          rw [RecvReader.readAllFrom]
          rcases readVirt_undelivered small (Nat.succ_pos len) with
            ⟨none, ends⟩ | ⟨bytes, next, read, some, few, split, later⟩
          · rw [none]
            refine ⟨fun enough => absurd enough (by simp), fun _ value => ?_⟩
            cases read : reader.readVirt (len + 1) with
            | none => simp
            | some answer =>
                have nothing : answer.1.length = 0 := by rw [ends answer.1 answer.2 read]; rfl
                simp only [nothing, ↓reduceIte]
                simp
          · have size := List.length_pos_of_ne_nil some
            obtain ⟨all, short⟩ := ih later (show len + 1 - bytes.length ≤ fuel by omega)
            rw [split, List.length_append, read]
            simp only [if_neg (show ¬bytes.length = 0 by omega)]
            constructor
            · intro enough
              obtain ⟨last, done, rest, final⟩ := all (by omega)
              refine ⟨last, ?_, ?_, final⟩
              · rw [done, List.take_append, List.take_of_length_le few]
              · rw [rest, List.drop_append, List.drop_of_length_le few, List.nil_append]
            · intro missing value
              have fails := short (by omega)
              cases done : RecvReader.readAllFrom fuel next (len + 1 - bytes.length) with
              | returns value => exact (fails value done).elim
              | raises => simp
              | hangs => simp

theorem process_undelivered (processor : MessageReader) {reader : RecvReader}
    (small : reader.Small) (message : Bytes) :
    RecvReader.process processor reader = .returns message ↔
      processor.Accepts message ∧ message <+: reader.undelivered := by
  induction processor generalizing reader message with
  | done =>
      rw [RecvReader.process, MessageReader.Accepts, ReadResult.returns.injEq, eq_comm]
      exact ⟨fun none => ⟨none, none ▸ List.nil_prefix⟩, And.left⟩
  | readAll len next ih =>
      obtain ⟨all, short⟩ := readAllFrom_undelivered small (Nat.le_refl len)
      rw [RecvReader.process, MessageReader.Accepts]
      by_cases enough : len ≤ reader.undelivered.length
      · obtain ⟨rest, read, left, later⟩ := all enough
        have whole := ih (reader.undelivered.take len) later
        rw [left] at whole
        simp only [read]
        constructor
        · intro found
          split at found
          next more others =>
            obtain ⟨accepted, front⟩ := (whole more).mp others
            have size : (reader.undelivered.take len).length = len :=
              List.length_take_of_le enough
            rw [← ReadResult.returns.inj found, List.take_left' size, List.drop_left' size]
            refine ⟨⟨by simp [size], accepted⟩, ?_⟩
            have joined := (List.prefix_append_right_inj (reader.undelivered.take len)).mpr front
            rwa [List.take_append_drop] at joined
          next => cases found
          next => cases found
        · rintro ⟨⟨size, accepted⟩, front⟩
          have head : reader.undelivered.take len = message.take len := by
            obtain ⟨tail, same⟩ := front
            rw [← same, List.take_append_of_le_length size]
          have others :=
            (whole (message.drop len)).mpr ⟨head ▸ accepted, List.IsPrefix.drop front len⟩
          rw [others, head]
          simp
      · have fails := short (by omega)
        constructor
        · intro found
          split at found
          next bytes rest read => exact (fails _ read).elim
          next => cases found
          next => cases found
        · rintro ⟨⟨size, _⟩, front⟩
          have bound := front.length_le
          omega

namespace RpcService

variable {Node : Type*}

theorem handleRead_returns_iff (processor : MessageReader) (recv message : Bytes) :
    handleRead processor recv = .returns message ↔
      processor.Accepts message ∧ message <+: delivered [] recv := by
  have small : RecvReader.Small ⟨.fresh, recv⟩ := ⟨Nat.zero_lt_succ 3, Nat.two_pow_pos 32⟩
  exact process_undelivered processor small message

/-- A received byte string leaves the daemon running exactly if the payload that its frames
deliver begins with a message that the service accepts. -/
theorem survives_iff (service : RpcService Node) (sc : EventSc Node) (fd : Nat) (recv : Bytes)
    (received : recv ≠ []) :
    service.Survives sc fd recv ↔
      ∃ message, service.reader.Accepts message ∧ message <+: delivered [] recv ∧
        service.rejects message = false := by
  have size : ¬recv.length = 0 := fun none => received (List.length_eq_zero_iff.mp none)
  unfold Survives coRoutine
  rw [if_neg size]
  constructor
  · rintro ⟨message, survived⟩
    cases ended : service.process recv with
    | raises => simp [ended] at survived
    | hangs => simp [ended] at survived
    | returns taken =>
        unfold process at ended
        split at ended
        next own read =>
          obtain ⟨accepted, front⟩ := (handleRead_returns_iff _ _ _).mp read
          by_cases refused : service.rejects own = true
          · simp [refused] at ended
          · exact ⟨own, accepted, front, by simpa using refused⟩
        next => cases ended
        next => cases ended
  · rintro ⟨message, accepted, front, welcome⟩
    have read := (handleRead_returns_iff _ _ _).mpr ⟨accepted, front⟩
    refine ⟨message, ?_⟩
    simp [process, read, welcome]

end RpcService

/-- The service `runner_sm` as far as the calls without arguments go. -/
def runnerSmService : RpcService Unit where
  reader := callWithoutArguments
  rejects message :=
    decide ((message.drop 8).take 10 ≠ [114, 117, 110, 110, 101, 114, 95, 115, 109, 58])
  run _ sc := sc

theorem survives_iff_stopSm :
    runnerSmService.Survives .start 7 (stopSmCall 1).wire := by
  have payload : delivered [] (stopSmCall 1).wire = (stopSmCall 1).message :=
    delivered_stream (stopSmCall 1).writes (stopSmCall 1).fit (by decide)
  refine (RpcService.survives_iff runnerSmService .start 7 (stopSmCall 1).wire (by decide)).mpr
    ⟨(stopSmCall 1).message, (stopSmCall 1).accepted, ?_, by decide⟩
  rw [payload]

/-- Three bytes without a whole header: the first `readAll` throws, and the daemon ends. -/
theorem survives_fails :
    ¬∀ (service : RpcService Unit) sc fd recv, recv ≠ [] →
      handleRead service.reader recv ≠ .hangs → service.Survives sc fd recv := by
  intro all
  obtain ⟨message, survived⟩ :=
    all runnerSmService .start 7 [104, 105, 33] (by decide) (by decide)
  have ended : runnerSmService.coRoutine .start 7 [104, 105, 33] = .terminated := rfl
  rw [ended] at survived
  cases survived

end AutoDrop
