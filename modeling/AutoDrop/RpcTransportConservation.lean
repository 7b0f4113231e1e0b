import AutoDrop.LabelledRun
import AutoDrop.RpcTransportCore

/-!
One direction of a connection over `AD_RPC_TRANSPORT`: messages are written at any time,
inner reads return any piece of at most 1024 bytes of what is on the wire, and
`read_virt` is called with any lengths. Every label of the step is one atomic piece of
the source between two observable points, the head of the framing loop among them.
-/

namespace AutoDrop

open LabelledRun

inductive ReadPhase
  | idle
  | loopHead (len : Nat)
deriving DecidableEq, Repr

structure RpcStream where
  transport : RpcTransport
  phase : ReadPhase
  written : List Bytes
  unread : Bytes
  returned : Bytes
deriving DecidableEq, Repr

inductive RpcStreamLabel
  | writeVirt (buf : Bytes)
  | readVirt (len recvLen : Nat)
  | loopPass
deriving DecidableEq, Repr

namespace RpcStream

def start : RpcStream :=
  ⟨.fresh, .idle, [], [], []⟩

def returnFrom (stream : RpcStream) (len : Nat) : RpcStream :=
  { stream with
    transport := (stream.transport.copyOut len).2
    returned := stream.returned ++ (stream.transport.copyOut len).1
    phase := .idle }

def step (stream : RpcStream) : RpcStreamLabel → Option RpcStream
  | .writeVirt buf =>
      if buf.length < 2 ^ 32 - 4 then
        some { stream with
          written := stream.written ++ [buf]
          unread := stream.unread ++ RpcTransport.writeVirt buf }
      else none
  | .readVirt len recvLen =>
      if stream.phase = .idle then
        if stream.transport.bufferdRecvData = [] then
          if recvLen ≤ 1024 ∧ recvLen ≤ stream.unread.length then
            some { stream with
              transport := stream.transport.receive (stream.unread.take recvLen)
              unread := stream.unread.drop recvLen
              phase := .loopHead len }
          else none
        else some (stream.returnFrom len)
      else none
  | .loopPass =>
      match stream.phase with
      | .idle => none
      | .loopHead len =>
          if stream.transport.recvBuf.length < 4 then some (stream.returnFrom len)
          else some { stream with transport := stream.transport.readMoreBody }

/-- Returned bytes, buffered bytes and the payloads still to be unframed are the written
payloads. -/
def Conserved (stream : RpcStream) : Prop :=
  (rpcLength.unframe (stream.transport.recvBuf ++ stream.unread)).map
    (fun payloads => stream.returned ++ stream.transport.bufferdRecvData ++ payloads.flatten) =
      some stream.written.flatten

structure Framed (stream : RpcStream) (pending : List Bytes) : Prop where
  fit : ∀ payload ∈ pending, payload.length < 2 ^ 32 - 4
  wire : stream.transport.recvBuf ++ stream.unread = rpcLength.stream pending
  content : stream.returned ++ stream.transport.bufferdRecvData ++ pending.flatten =
    stream.written.flatten

theorem Framed.conserved {stream : RpcStream} {pending : List Bytes}
    (framed : Framed stream pending) : Conserved stream := by
  have unframed := rpcLength.unframe_stream pending
    (fun payload member => Nat.lt_of_lt_of_le (framed.fit payload member) (by decide))
  rw [Conserved, framed.wire, unframed, Option.map_some, framed.content]

theorem start_framed : Framed start [] :=
  ⟨by simp, rfl, rfl⟩

theorem writeVirt_framed {stream : RpcStream} {pending : List Bytes} {buf : Bytes}
    (framed : Framed stream pending) (fits : buf.length < 2 ^ 32 - 4) :
    Framed { stream with
      written := stream.written ++ [buf]
      unread := stream.unread ++ RpcTransport.writeVirt buf } (pending ++ [buf]) := by
  constructor
  · intro payload member
    rcases List.mem_append.mp member with old | new
    · exact framed.fit payload old
    · rwa [List.mem_singleton.mp new]
  · rw [← List.append_assoc, framed.wire, rpcLength.stream_append]
    simp [RpcTransport.writeVirt_eq_frame]
  · rw [List.flatten_append, ← List.append_assoc, framed.content]
    simp

theorem receive_framed {stream : RpcStream} {pending : List Bytes} {recvLen len : Nat}
    (framed : Framed stream pending) :
    Framed { stream with
      transport := stream.transport.receive (stream.unread.take recvLen)
      unread := stream.unread.drop recvLen
      phase := .loopHead len } pending := by
  constructor
  · exact framed.fit
  · simpa using framed.wire
  · exact framed.content

theorem returnFrom_framed {stream : RpcStream} {pending : List Bytes} (len : Nat)
    (framed : Framed stream pending) : Framed (stream.returnFrom len) pending := by
  constructor
  · exact framed.fit
  · exact framed.wire
  · have content := framed.content
    rw [← List.take_append_drop (stream.transport.copyLen len)
      stream.transport.bufferdRecvData] at content
    simpa [returnFrom, RpcTransport.copyOut] using content

theorem loopPass_framed {stream : RpcStream} {pending : List Bytes}
    (framed : Framed stream pending) (header : 4 ≤ stream.transport.recvBuf.length) :
    ∃ later, Framed { stream with transport := stream.transport.readMoreBody } later := by
  cases pending with
  | nil =>
      have empty := congrArg List.length framed.wire
      rw [List.length_append, rpcLength.stream_nil, List.length_nil] at empty
      omega
  | cons payload later =>
      have fits := framed.fit payload (by simp)
      have wire := framed.wire
      rw [LengthField.stream_cons] at wire
      rcases List.append_eq_append_iff.mp wire with ⟨missing, cut, rest⟩ | ⟨rest, whole, unread⟩
      · by_cases boundary : missing = []
        · have head : stream.transport.recvBuf = rpcLength.frame payload ++ [] := by
            simpa [boundary] using cut.symm
          refine ⟨later, fun other member => framed.fit other (by simp [member]), ?_, ?_⟩
          · rw [RpcTransport.readMoreBody_frame fits head]
            simpa [boundary] using rest
          · rw [RpcTransport.readMoreBody_frame fits head]
            simpa using framed.content
        · have stuck := RpcTransport.readMoreBody_incomplete fits header cut boundary
          exact ⟨payload :: later, by rw [stuck]; exact framed⟩
      · refine ⟨later, fun other member => framed.fit other (by simp [member]), ?_, ?_⟩
        · rw [RpcTransport.readMoreBody_frame fits whole]
          exact unread.symm
        · rw [RpcTransport.readMoreBody_frame fits whole]
          simpa using framed.content

def Consistent (stream : RpcStream) : Prop :=
  ∃ pending, Framed stream pending

theorem step_consistent {stream next : RpcStream} {label : RpcStreamLabel}
    (consistent : Consistent stream) (taken : step stream label = some next) :
    Consistent next := by
  obtain ⟨pending, framed⟩ := consistent
  cases label with
  | writeVirt buf =>
      simp only [step] at taken
      split at taken
      next fits =>
        simp only [Option.some.injEq] at taken
        exact ⟨pending ++ [buf], taken ▸ writeVirt_framed framed fits⟩
      next => simp at taken
  | readVirt len recvLen =>
      simp only [step] at taken
      split at taken
      · split at taken
        · split at taken
          · simp only [Option.some.injEq] at taken
            exact ⟨pending, taken ▸ receive_framed framed⟩
          · simp at taken
        · simp only [Option.some.injEq] at taken
          exact ⟨pending, taken ▸ returnFrom_framed len framed⟩
      · simp at taken
  | loopPass =>
      simp only [step] at taken
      split at taken
      · simp at taken
      · rename_i len _
        split at taken
        · simp only [Option.some.injEq] at taken
          exact ⟨pending, taken ▸ returnFrom_framed len framed⟩
        · rename_i header
          simp only [Option.some.injEq] at taken
          exact taken ▸ loopPass_framed framed (by omega)

/-- Nothing is lost, duplicated or reordered between `write_virt` and `read_virt`. -/
theorem reachable_conserved (stream : RpcStream) (reached : Reachable step start stream) :
    Conserved stream := by
  have initial : Consistent start := ⟨[], start_framed⟩
  have consistent : Consistent stream :=
    invariant_of_reachable initial (fun _ _ _ before taken => step_consistent before taken) reached
  obtain ⟨pending, framed⟩ := consistent
  exact framed.conserved

theorem reachable_conserved_hi :
    Conserved ⟨⟨[], [105]⟩, .idle, [[104, 105]], [], [104]⟩ :=
  reachable_conserved _ ⟨[.writeVirt [104, 105], .readVirt 1 6, .loopPass, .loopPass], rfl⟩

end RpcStream

end AutoDrop
