import AutoDrop.LabelledRun
import AutoDrop.RpcTransportLoop

/-!
What one pass of the framing loop consumes, and which inner reads leave `read_virt` with
nothing to return. Here a message may have any length that `write_virt` can announce.
-/

namespace AutoDrop

open LabelledRun

namespace RpcTransport

/-- A complete frame is moved whole, an incomplete one is left alone. The sum with the
announced length is the mathematical one. -/
def FrameExact (transport : RpcTransport) : Prop :=
  (4 + transport.msgLen ≤ transport.recvBuf.length →
    ∃ payload, payload.length = transport.msgLen ∧
      transport.recvBuf = transport.recvBuf.take 4 ++ payload ++ transport.readMoreBody.recvBuf ∧
      transport.readMoreBody.bufferdRecvData = transport.bufferdRecvData ++ payload) ∧
  (transport.recvBuf.length < 4 + transport.msgLen → transport.readMoreBody = transport)

theorem readMoreBody_of_le {transport : RpcTransport}
    (taken : transport.frameEnd ≤ transport.recvBuf.length) :
    transport.readMoreBody = ⟨transport.recvBuf.drop transport.frameEnd,
      transport.bufferdRecvData ++ (transport.recvBuf.drop 4).take transport.msgLen⟩ :=
  if_pos taken

theorem frameEnd_wrapped {transport : RpcTransport} (wraps : 2 ^ 32 ≤ 4 + transport.msgLen) :
    transport.frameEnd = 4 + transport.msgLen - 2 ^ 32 ∧ transport.frameEnd < 4 := by
  have bound := transport.msgLen_lt
  have ends : transport.frameEnd = 4 + transport.msgLen - 2 ^ 32 := by
    rw [frameEnd]
    omega
  exact ⟨ends, by omega⟩

theorem frameExact_of_fits {transport : RpcTransport} (fits : 4 + transport.msgLen < 2 ^ 32) :
    FrameExact transport := by
  have ends : transport.frameEnd = 4 + transport.msgLen := Nat.mod_eq_of_lt fits
  constructor
  · intro complete
    have body := readMoreBody_of_le (show transport.frameEnd ≤ transport.recvBuf.length by omega)
    refine ⟨(transport.recvBuf.drop 4).take transport.msgLen, ?_, ?_, ?_⟩
    · rw [List.length_take, List.length_drop]
      omega
    · rw [body, ends, ← List.drop_drop, List.append_assoc, List.take_append_drop,
        List.take_append_drop]
    · rw [body]
  · intro incomplete
    exact if_neg (by omega)

theorem readMoreBody_wrapped {transport : RpcTransport}
    (header : 4 ≤ transport.recvBuf.length) (wraps : 2 ^ 32 ≤ 4 + transport.msgLen) :
    transport.recvBuf.length < transport.readMoreBody.recvBuf.length + 4 ∧
      transport.readMoreBody.bufferdRecvData =
        transport.bufferdRecvData ++ (transport.recvBuf.drop 4).take transport.msgLen := by
  obtain ⟨_, small⟩ := frameEnd_wrapped wraps
  have body := readMoreBody_of_le (show transport.frameEnd ≤ transport.recvBuf.length by omega)
  rw [body]
  refine ⟨?_, rfl⟩
  rw [List.length_drop]
  omega

/-- A pass of the loop is exact for every announced length whose 32-bit sum with the
header does not wrap, and for no other, except that `2^32 - 4` alone in the buffer
changes nothing. -/
theorem frameExact_iff (transport : RpcTransport) (header : 4 ≤ transport.recvBuf.length) :
    FrameExact transport ↔
      transport.msgLen < 2 ^ 32 - 4 ∨
        transport.msgLen = 2 ^ 32 - 4 ∧ transport.recvBuf.length = 4 := by
  constructor
  · intro exact
    by_cases fits : transport.msgLen < 2 ^ 32 - 4
    · exact .inl fits
    · have wraps : 2 ^ 32 ≤ 4 + transport.msgLen := by omega
      obtain ⟨long, appended⟩ := readMoreBody_wrapped header wraps
      have incomplete : transport.recvBuf.length < 4 + transport.msgLen := by
        by_contra complete
        obtain ⟨payload, size, split, _⟩ := exact.1 (by omega)
        have sizes := congrArg List.length split
        rw [List.length_append, List.length_append, List.length_take] at sizes
        omega
      have same := exact.2 incomplete
      rw [same, List.self_eq_append_right] at appended
      have sizes := congrArg List.length appended
      rw [List.length_take, List.length_drop, List.length_nil] at sizes
      have alone : transport.recvBuf.length = 4 := by omega
      refine .inr ⟨?_, alone⟩
      obtain ⟨ends, _⟩ := frameEnd_wrapped wraps
      have body :=
        readMoreBody_of_le (show transport.frameEnd ≤ transport.recvBuf.length by omega)
      have kept := congrArg (fun later => later.recvBuf.length) (body.symm.trans same)
      simp only [List.length_drop] at kept
      omega
  · rintro (fits | ⟨limit, alone⟩)
    · exact frameExact_of_fits (by omega)
    · refine ⟨fun complete => by omega, fun _ => ?_⟩
      have wraps : 2 ^ 32 ≤ 4 + transport.msgLen := by omega
      obtain ⟨ends, _⟩ := frameEnd_wrapped wraps
      have none : transport.frameEnd = 0 := by omega
      have noPayload : transport.recvBuf.drop 4 = [] := List.drop_of_length_le (by omega)
      rw [readMoreBody_of_le (by omega), none, noPayload]
      simp

theorem frameExact_iff_one : FrameExact ⟨[0, 0, 0, 1, 7, 8], []⟩ :=
  (frameExact_iff ⟨[0, 0, 0, 1, 7, 8], []⟩ (by decide)).mpr (.inl (by decide))

/-- Three bytes of the header of a frame of `2^32 - 1` bytes are removed although no byte
of its payload is there. -/
theorem frameExact_fails :
    ¬∀ transport : RpcTransport, 4 ≤ transport.recvBuf.length → FrameExact transport := by
  intro all
  have same := (all ⟨[255, 255, 255, 255], []⟩ (by decide)).2 (by decide)
  exact absurd same (by decide)

/-- Empty frames and then less than a header, or a header alone whose sum wraps. -/
inductive NoPayload : Bytes → Prop
  | short {bytes : Bytes} : bytes.length < 4 → NoPayload bytes
  | empty {rest : Bytes} : NoPayload rest → NoPayload (writeVirt [] ++ rest)
  | wrapped {header : Bytes} : header.length = 4 → 2 ^ 32 < 4 + ntohl header → NoPayload header

theorem NoPayload.head {bytes : Bytes} (nothing : NoPayload bytes) :
    bytes.length ≤ 4 ∨ bytes.take 4 = writeVirt [] := by
  cases nothing with
  | short small => exact .inl (by omega)
  | empty => exact .inr rfl
  | wrapped size => exact .inl (by omega)

theorem ntohl_eq_zero (header : Bytes) (size : header.length = 4) (zero : ntohl header = 0) :
    header = writeVirt [] := by
  match header, size with
  | [first, second, third, last], _ =>
      simp only [ntohl, List.foldl_cons, List.foldl_nil] at zero
      have zeros : first.toNat = 0 ∧ second.toNat = 0 ∧ third.toNat = 0 ∧ last.toNat = 0 := by
        omega
      have byte (value : UInt8) (none : value.toNat = 0) : value = 0 := UInt8.toNat_inj.mp none
      rw [byte first zeros.1, byte second zeros.2.1, byte third zeros.2.2.1,
        byte last zeros.2.2.2]
      rfl

theorem readMoreBody_size (transport : RpcTransport) :
    transport.readMoreBody.recvBuf.length ≤ transport.recvBuf.length ∧
      transport.readMoreBody.bufferdRecvData.length ≤
        transport.bufferdRecvData.length + transport.recvBuf.length := by
  rw [readMoreBody]
  split
  · simp only [List.length_drop, List.length_append, List.length_take]
    omega
  · omega

theorem readMoreLoop_size {passes : Nat} {transport final : RpcTransport}
    (found : readMoreLoop passes transport = some final) :
    final.bufferdRecvData.length ≤
      transport.bufferdRecvData.length + passes * transport.recvBuf.length := by
  induction passes generalizing transport with
  | zero =>
      rw [readMoreLoop] at found
      split at found
      · rw [← Option.some.inj found]
        omega
      · simp at found
  | succ passes ih =>
      rw [readMoreLoop] at found
      split at found
      · rw [← Option.some.inj found]
        omega
      · obtain ⟨shrinks, grows⟩ := transport.readMoreBody_size
        have later := ih found
        have fewer := Nat.mul_le_mul_left passes shrinks
        rw [Nat.succ_mul]
        omega

theorem readMoreLoop_front {passes : Nat} {transport final : RpcTransport}
    (found : readMoreLoop passes transport = some final) (empty : final.bufferdRecvData = []) :
    transport.bufferdRecvData = [] := by
  induction passes generalizing transport with
  | zero =>
      rw [readMoreLoop] at found
      split at found
      · rwa [Option.some.inj found]
      · simp at found
  | succ passes ih =>
      rw [readMoreLoop] at found
      split at found
      · rwa [Option.some.inj found]
      · have later := ih found
        rw [readMoreBody] at later
        split at later
        · exact (List.append_eq_nil_iff.mp later).1
        · exact later

/-- The passes that add nothing to an empty receive buffer. -/
theorem readMoreBody_nothing {bytes : Bytes} (header : 4 ≤ bytes.length)
    (nothing : (readMoreBody ⟨bytes, []⟩).bufferdRecvData = []) :
    (∃ rest, bytes = writeVirt [] ++ rest ∧ readMoreBody ⟨bytes, []⟩ = ⟨rest, []⟩) ∨
      readMoreBody ⟨bytes, []⟩ = ⟨bytes, []⟩ ∨ bytes.length = 4 ∧ 2 ^ 32 < 4 + ntohl bytes := by
  by_cases zero : ntohl (bytes.take 4) = 0
  · have head := ntohl_eq_zero (bytes.take 4) (by rw [List.length_take]; omega) zero
    have split : bytes = writeVirt [] ++ bytes.drop 4 := by
      rw [← head, List.take_append_drop]
    exact .inl ⟨bytes.drop 4, split, readMoreBody_frame (by decide) split⟩
  · by_cases taken : frameEnd ⟨bytes, []⟩ ≤ bytes.length
    · have body : readMoreBody ⟨bytes, []⟩ = ⟨bytes.drop (frameEnd ⟨bytes, []⟩),
          (bytes.drop 4).take (ntohl (bytes.take 4))⟩ := readMoreBody_of_le taken
      have ends : frameEnd ⟨bytes, []⟩ = (4 + ntohl (bytes.take 4)) % 2 ^ 32 := rfl
      rw [body] at nothing ⊢
      have alone := (List.take_eq_nil_iff.mp nothing).resolve_left zero
      have size : bytes.length = 4 := by
        have rest := List.drop_eq_nil_iff.mp alone
        omega
      rw [List.take_of_length_le (by omega)] at ends zero
      have bound := ntohl_lt bytes (by omega)
      by_cases wraps : 2 ^ 32 < 4 + ntohl bytes
      · exact .inr (.inr ⟨size, wraps⟩)
      · have none : frameEnd ⟨bytes, []⟩ = 0 := by omega
        rw [none, alone, List.take_nil]
        exact .inr (.inl rfl)
    · exact .inr (.inl (if_neg taken))

theorem noPayload_of_readMoreLoop {passes : Nat} {bytes : Bytes} {final : RpcTransport}
    (found : readMoreLoop passes ⟨bytes, []⟩ = some final)
    (empty : final.bufferdRecvData = []) : NoPayload bytes := by
  induction passes generalizing bytes with
  | zero =>
      rw [readMoreLoop] at found
      split at found
      next small => exact .short small
      next => simp at found
  | succ passes ih =>
      rw [readMoreLoop] at found
      split at found
      next small => exact .short small
      next header =>
        rcases readMoreBody_nothing (Nat.not_lt.mp header) (readMoreLoop_front found empty) with
          ⟨rest, rfl, body⟩ | stuck | ⟨size, wraps⟩
        · rw [body] at found
          exact .empty (ih found)
        · rw [stuck] at found
          exact ih found
        · exact .wrapped size wraps

theorem readMoreLoop_short {transport : RpcTransport} (small : transport.recvBuf.length < 4)
    (passes : Nat) : readMoreLoop passes transport = some transport := by
  have returned : readMoreLoop 0 transport = some transport := if_pos small
  have longer := readMoreLoop_more returned passes
  rwa [Nat.zero_add] at longer

theorem readMoreLoop_pass {passes : Nat} {transport final : RpcTransport}
    (found : readMoreLoop passes transport = some final)
    (header : 4 ≤ transport.recvBuf.length) :
    readMoreLoop passes transport.readMoreBody = some final := by
  have longer := readMoreLoop_more found 1
  rwa [readMoreLoop, if_neg (by omega)] at longer

theorem bufferd_of_noPayload {passes : Nat} {bytes : Bytes} {final : RpcTransport}
    (noPayload : NoPayload bytes) (found : readMoreLoop passes ⟨bytes, []⟩ = some final) :
    final.bufferdRecvData = [] := by
  induction noPayload with
  | @short bytes small =>
      have stopped : readMoreLoop passes ⟨bytes, []⟩ = some ⟨bytes, []⟩ :=
        readMoreLoop_short small passes
      rw [Option.some.inj (found.symm.trans stopped)]
  | @empty rest _ ih =>
      have body : readMoreBody ⟨writeVirt [] ++ rest, []⟩ = ⟨rest, []⟩ :=
        readMoreBody_frame (by decide) rfl
      have passed := readMoreLoop_pass found (by simp [writeVirt, htonl])
      rw [body] at passed
      exact ih passed
  | @wrapped header size wraps =>
      have whole : header.take 4 = header := List.take_of_length_le (by omega)
      have length : msgLen ⟨header, []⟩ = ntohl header := congrArg ntohl whole
      have exceeds : 2 ^ 32 ≤ 4 + msgLen ⟨header, []⟩ := by
        rw [length]
        omega
      obtain ⟨ends, few⟩ := frameEnd_wrapped exceeds
      rw [length] at ends
      have rest : header.drop 4 = [] := List.drop_of_length_le (by omega)
      have body : readMoreBody ⟨header, []⟩ = ⟨header.drop (frameEnd ⟨header, []⟩), []⟩ := by
        rw [readMoreBody_of_le (show frameEnd ⟨header, []⟩ ≤ header.length by omega), rest]
        simp
      have passed := readMoreLoop_pass found (show 4 ≤ header.length by omega)
      have small : (header.drop (frameEnd ⟨header, []⟩)).length < 4 := by
        rw [List.length_drop]
        omega
      rw [body, readMoreLoop_short small] at passed
      rw [← Option.some.inj passed]

theorem readMore_nothing_iff {transport final : RpcTransport} {received : Bytes}
    (empty : transport.bufferdRecvData = [])
    (found : transport.readMore received = some final) :
    final.bufferdRecvData = [] ↔ NoPayload (transport.recvBuf ++ received) := by
  rw [readMore, receive, empty] at found
  exact ⟨noPayload_of_readMoreLoop found, fun nothing => bufferd_of_noPayload nothing found⟩

theorem readMore_size {transport final : RpcTransport} {received : Bytes}
    (empty : transport.bufferdRecvData = []) (header : transport.recvBuf.length < 4)
    (read : received.length ≤ 1024) (found : transport.readMore received = some final) :
    final.recvBuf.length < 4 ∧ final.bufferdRecvData.length < 2 ^ 32 := by
  refine ⟨(runsDry_of_readMoreLoop found).2, ?_⟩
  have grown := readMoreLoop_size found
  have held : (transport.recvBuf ++ received).length ≤ 1027 := by
    rw [List.length_append]
    omega
  have square := Nat.mul_le_mul held held
  rw [receive_bufferdRecvData, receive_recvBuf, empty, List.length_nil] at grown
  omega

end RpcTransport

/-- One returned call of `read_virt`: the size asked for, the size of the inner read if there
was one, and the bytes handed out. -/
structure ReadOutcome where
  len : Nat
  innerRead : Option Nat
  bytes : Bytes
deriving DecidableEq, Repr

/-- Both ends of one direction of a connection between two calls. -/
structure RpcPipe where
  transport : RpcTransport
  written : List Bytes
  unread : Bytes
  returned : Bytes
  lastRead : Option ReadOutcome
deriving DecidableEq, Repr

inductive RpcPipeLabel
  | writeVirt (buf : Bytes)
  | readVirt (len recvLen : Nat)
deriving DecidableEq, Repr

namespace RpcPipe

def start : RpcPipe :=
  ⟨.fresh, [], [], [], none⟩

def returnFrom (pipe : RpcPipe) (len : Nat) (innerRead : Option Nat) : RpcPipe :=
  { pipe with
    transport := (pipe.transport.copyOut len).2
    returned := pipe.returned ++ (pipe.transport.copyOut len).1
    lastRead := some ⟨len, innerRead, (pipe.transport.copyOut len).1⟩ }

def step (pipe : RpcPipe) : RpcPipeLabel → Option RpcPipe
  | .writeVirt buf =>
      if buf.length < 2 ^ 32 then
        some { pipe with
          written := pipe.written ++ [buf]
          unread := pipe.unread ++ RpcTransport.writeVirt buf
          lastRead := none }
      else none
  | .readVirt len recvLen =>
      if pipe.transport.bufferdRecvData = [] then
        if recvLen ≤ 1024 ∧ recvLen ≤ pipe.unread.length then
          -- a framing loop that does not end never returns from `read_virt`
          (pipe.transport.readMore (pipe.unread.take recvLen)).map fun transport =>
            returnFrom { pipe with transport := transport, unread := pipe.unread.drop recvLen }
              len (some recvLen)
        else none
      else some (pipe.returnFrom len none)

/-- The call that has just returned 0 for a positive length had an inner read of 0 bytes,
or every payload byte written has been returned. -/
def NoFalseEnd (pipe : RpcPipe) : Prop :=
  ∀ outcome, pipe.lastRead = some outcome → 0 < outcome.len → outcome.bytes = [] →
    outcome.innerRead = some 0 ∨ pipe.returned = pipe.written.flatten

/-- A read that gets bytes while payload is outstanding gets some payload with them. -/
def GetsPayload (pipe : RpcPipe) : RpcPipeLabel → Prop
  | .writeVirt _ => True
  | .readVirt len recvLen =>
      0 < len → pipe.transport.bufferdRecvData = [] → recvLen ≠ 0 →
        pipe.returned ≠ pipe.written.flatten →
        ¬RpcTransport.NoPayload (pipe.transport.recvBuf ++ pipe.unread.take recvLen)

structure Small (pipe : RpcPipe) : Prop where
  header : pipe.transport.recvBuf.length < 4
  buffered : pipe.transport.bufferdRecvData.length < 2 ^ 32

theorem returnFrom_small {pipe : RpcPipe} (small : Small pipe) (len : Nat)
    (innerRead : Option Nat) : Small (pipe.returnFrom len innerRead) := by
  have buffered := small.buffered
  constructor
  · exact small.header
  · simp only [returnFrom, RpcTransport.copyOut, List.length_drop]
    omega

theorem returnFrom_noFalseEnd_iff {pipe : RpcPipe} (small : Small pipe) (len : Nat)
    (innerRead : Option Nat) :
    NoFalseEnd (pipe.returnFrom len innerRead) ↔
      (0 < len → pipe.transport.bufferdRecvData = [] →
        innerRead = some 0 ∨ pipe.returned = pipe.written.flatten) := by
  have nothing (positive : 0 < len) := RpcTransport.copyOut_eq_nil_iff positive small.buffered
  constructor
  · intro honest positive empty
    have bytes := (nothing positive).mpr empty
    have answer := honest _ rfl positive bytes
    simpa [returnFrom, bytes] using answer
  · intro honest outcome last positive bytes
    obtain rfl := Option.some.inj last
    have answer := honest positive ((nothing positive).mp bytes)
    simpa [returnFrom, show (pipe.transport.copyOut len).1 = [] from bytes] using answer

theorem step_small {pipe next : RpcPipe} {label : RpcPipeLabel} (small : Small pipe)
    (taken : step pipe label = some next) :
    Small next ∧ (NoFalseEnd next ↔ GetsPayload pipe label) := by
  cases label with
  | writeVirt buf =>
      simp only [step, Option.ite_none_right_eq_some, Option.some.injEq] at taken
      obtain ⟨_, rfl⟩ := taken
      refine ⟨⟨small.header, small.buffered⟩, ?_⟩
      exact iff_of_true (fun outcome none => by simp at none) trivial
  | readVirt len recvLen =>
      rw [step] at taken
      split at taken
      next empty =>
        simp only [Option.ite_none_right_eq_some, Option.map_eq_some_iff] at taken
        obtain ⟨⟨few, _⟩, transport, found, rfl⟩ := taken
        have read : (pipe.unread.take recvLen).length ≤ 1024 := by
          rw [List.length_take]
          omega
        obtain ⟨header, buffered⟩ :=
          RpcTransport.readMore_size empty small.header read found
        have between : Small { pipe with
            transport := transport, unread := pipe.unread.drop recvLen } :=
          ⟨header, buffered⟩
        refine ⟨returnFrom_small between len _, ?_⟩
        rw [returnFrom_noFalseEnd_iff between, GetsPayload,
          RpcTransport.readMore_nothing_iff empty found]
        simp only [Option.some.injEq]
        tauto
      next held =>
        obtain rfl := Option.some.inj taken
        refine ⟨returnFrom_small small len none, ?_⟩
        rw [returnFrom_noFalseEnd_iff small, GetsPayload]
        exact iff_of_true (fun _ empty => (held empty).elim) (fun _ empty => (held empty).elim)

/-- `read_virt` reports no false end of the stream in exactly the runs in which no inner read
brings bytes but no payload while payload is outstanding. -/
theorem noFalseEnd_iff (labels : List RpcPipeLabel) (final : RpcPipe)
    (run : exec step start labels = some final) :
    Always step NoFalseEnd start labels ↔ Meets step GetsPayload start labels := by
  have initial : Small start ∧ NoFalseEnd start :=
    ⟨⟨by decide, by decide⟩, fun outcome none => by simp [start] at none⟩
  refine always_iff_meets (fun pipe => And.right) ?_ ?_ initial run
  · intro pipe label next invariant met taken
    obtain ⟨small, honest⟩ := step_small invariant.1 taken
    exact ⟨small, honest.mpr met⟩
  · intro pipe label next invariant taken honest
    exact (step_small invariant.1 taken).2.mp honest

theorem noFalseEnd_iff_hi :
    Always step NoFalseEnd start [.writeVirt [104, 105], .readVirt 2 6] := by
  refine (noFalseEnd_iff [.writeVirt [104, 105], .readVirt 2 6] _ rfl).mpr ?_
  refine .cons rfl trivial (.cons rfl ?_ trivial)
  intro _ _ _ _ nothing
  exact absurd nothing.head (by decide)

/-- The first two bytes of a header arrive alone: the call returns 0 with both bytes of the
message outstanding. -/
theorem noFalseEnd_fails :
    ¬∀ labels final, exec step start labels = some final → Always step NoFalseEnd start labels := by
  intro all
  have always := all [.writeVirt [104, 105], .readVirt 2 2] _ rfl
  have honest : NoFalseEnd _ := ((always.2 _ rfl).2 _ rfl).head
  exact absurd (honest ⟨2, some 2, []⟩ rfl (by decide) rfl) (by decide)

end RpcPipe

end AutoDrop
