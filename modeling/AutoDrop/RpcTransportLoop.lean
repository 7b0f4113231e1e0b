import AutoDrop.RpcTransportCore

/-! When the framing loop of `read_more` comes to its end. -/

namespace AutoDrop.RpcTransport

def Incomplete (bytes : Bytes) : Prop :=
  bytes.length < 4 ∨ bytes.length < 4 + ntohl (bytes.take 4)

/-- Bytes made of complete frames and at most three bytes after the last of them. A length
field from `2^32 - 3` on stands for its own first one to three bytes, because the
32-bit sum wraps. -/
inductive RunsDry : Bytes → Prop
  | short {bytes : Bytes} : bytes.length < 4 → RunsDry bytes
  | frame {bytes : Bytes} : 4 ≤ bytes.length → 4 + ntohl (bytes.take 4) < 2 ^ 32 →
      4 + ntohl (bytes.take 4) ≤ bytes.length →
      RunsDry (bytes.drop (4 + ntohl (bytes.take 4))) → RunsDry bytes
  | wrapped {bytes : Bytes} : 4 ≤ bytes.length → 2 ^ 32 < 4 + ntohl (bytes.take 4) →
      RunsDry (bytes.drop (4 + ntohl (bytes.take 4) - 2 ^ 32)) → RunsDry bytes

theorem ntohl_lt (bytes : Bytes) (header : bytes.length ≤ 4) : ntohl bytes < 2 ^ 32 := by
  have grows (rest : Bytes) : ∀ value,
      rest.foldl (fun value byte => value * 256 + byte.toNat) value <
        (value + 1) * 256 ^ rest.length := by
    induction rest with
    | nil => intro value; simp
    | cons byte rest ih =>
        intro value
        have below := ih (value * 256 + byte.toNat)
        have small := byte.toNat_lt
        refine Nat.lt_of_lt_of_le below ?_
        rw [List.length_cons, Nat.pow_succ, Nat.mul_comm (256 ^ _) 256, ← Nat.mul_assoc]
        exact Nat.mul_le_mul_right _ (by omega)
  refine Nat.lt_of_lt_of_le (grows bytes 0) ?_
  simpa using Nat.pow_le_pow_right (show 0 < 256 by decide) header

theorem msgLen_lt (transport : RpcTransport) : transport.msgLen < 2 ^ 32 :=
  ntohl_lt _ (List.length_take_le 4 _)

theorem readMoreLoop_of_runsDry {bytes : Bytes} (dry : RunsDry bytes) (payloads : Bytes) :
    ∃ passes final, passes ≤ bytes.length ∧ readMoreLoop passes ⟨bytes, payloads⟩ = some final := by
  induction dry generalizing payloads with
  | short small => exact ⟨0, _, Nat.zero_le _, if_pos small⟩
  | @frame bytes header unwrapped complete _ ih =>
      have ends : frameEnd ⟨bytes, payloads⟩ = 4 + ntohl (bytes.take 4) :=
        Nat.mod_eq_of_lt unwrapped
      obtain ⟨passes, final, few, found⟩ :=
        ih (payloads ++ (bytes.drop 4).take (ntohl (bytes.take 4)))
      rw [List.length_drop] at few
      refine ⟨passes + 1, final, by omega, ?_⟩
      rw [readMoreLoop, if_neg (by simpa using header), readMoreBody, ends, if_pos complete]
      exact found
  | @wrapped bytes header wraps _ ih =>
      have bound := ntohl_lt (bytes.take 4) (List.length_take_le 4 _)
      have ends : frameEnd ⟨bytes, payloads⟩ = 4 + ntohl (bytes.take 4) - 2 ^ 32 := by
        change (4 + ntohl (bytes.take 4)) % 2 ^ 32 = _
        omega
      obtain ⟨passes, final, few, found⟩ :=
        ih (payloads ++ (bytes.drop 4).take (ntohl (bytes.take 4)))
      rw [List.length_drop] at few
      refine ⟨passes + 1, final, by omega, ?_⟩
      rw [readMoreLoop, if_neg (by simpa using header), readMoreBody, ends,
        if_pos (by change _ ≤ bytes.length; omega)]
      exact found

theorem runsDry_of_readMoreBody {transport : RpcTransport} (header : 4 ≤ transport.recvBuf.length)
    (dry : RunsDry transport.readMoreBody.recvBuf) : RunsDry transport.recvBuf := by
  have bound := transport.msgLen_lt
  by_cases complete : transport.frameEnd ≤ transport.recvBuf.length
  · rw [readMoreBody, if_pos complete] at dry
    simp only [frameEnd] at complete dry
    rcases Nat.lt_trichotomy (4 + transport.msgLen) (2 ^ 32) with below | equal | above
    · rw [Nat.mod_eq_of_lt below] at complete dry
      exact .frame header below complete dry
    · simpa [equal] using dry
    · rw [show (4 + transport.msgLen) % 2 ^ 32 = 4 + transport.msgLen - 2 ^ 32 by omega] at dry
      exact .wrapped header above dry
  · rwa [readMoreBody, if_neg complete] at dry

theorem runsDry_of_readMoreLoop {passes : Nat} {transport final : RpcTransport}
    (found : readMoreLoop passes transport = some final) :
    RunsDry transport.recvBuf ∧ final.recvBuf.length < 4 := by
  induction passes generalizing transport with
  | zero =>
      rw [readMoreLoop] at found
      split at found
      next small =>
        simp only [Option.some.injEq] at found
        exact ⟨.short small, found ▸ small⟩
      next => simp at found
  | succ passes ih =>
      rw [readMoreLoop] at found
      split at found
      next small =>
        simp only [Option.some.injEq] at found
        exact ⟨.short small, found ▸ small⟩
      next header =>
        obtain ⟨dry, small⟩ := ih found
        exact ⟨runsDry_of_readMoreBody (by omega) dry, small⟩

theorem readMoreReturns_iff_runsDry (transport : RpcTransport) (received : Bytes) :
    (∃ final, ReadMoreReturns transport received final) ↔
      RunsDry (transport.recvBuf ++ received) := by
  constructor
  · rintro ⟨final, passes, found⟩
    exact (runsDry_of_readMoreLoop found).1
  · intro dry
    obtain ⟨passes, final, _, found⟩ := readMoreLoop_of_runsDry dry transport.bufferdRecvData
    exact ⟨final, passes, found⟩

theorem readMoreLoop_more {passes : Nat} {transport final : RpcTransport}
    (found : readMoreLoop passes transport = some final) (more : Nat) :
    readMoreLoop (passes + more) transport = some final := by
  induction passes generalizing transport with
  | zero =>
      rw [readMoreLoop] at found
      split at found
      next small =>
        rw [Nat.zero_add, ← found]
        cases more with
        | zero => exact if_pos small
        | succ more => exact if_pos small
      next => simp at found
  | succ passes ih =>
      rw [Nat.add_right_comm, readMoreLoop]
      rw [readMoreLoop] at found
      split
      next small => rwa [if_pos small] at found
      next header =>
        rw [if_neg header] at found
        exact ih found

theorem ReadMoreReturns.unique {transport first second : RpcTransport} {received : Bytes}
    (left : ReadMoreReturns transport received first)
    (right : ReadMoreReturns transport received second) : first = second := by
  obtain ⟨passes, found⟩ := left
  obtain ⟨others, again⟩ := right
  have longer := readMoreLoop_more found others
  rw [Nat.add_comm, readMoreLoop_more again passes] at longer
  exact (Option.some.inj longer).symm

theorem readMoreReturns_iff_readMore (transport final : RpcTransport) (received : Bytes) :
    ReadMoreReturns transport received final ↔ readMore transport received = some final := by
  constructor
  · intro returns
    have dry := (readMoreReturns_iff_runsDry transport received).mp ⟨final, returns⟩
    obtain ⟨passes, other, few, found⟩ := readMoreLoop_of_runsDry dry transport.bufferdRecvData
    rw [returns.unique ⟨passes, found⟩, readMore,
      show (transport.recvBuf ++ received).length =
        passes + ((transport.recvBuf ++ received).length - passes) by omega]
    exact readMoreLoop_more found _
  · intro found
    exact ⟨_, found⟩

def ReadsReturn : RpcTransport → List Bytes → Prop
  | _, [] => True
  | transport, received :: later =>
      ∃ final, ReadMoreReturns transport received final ∧ ReadsReturn final later

def NearFrameEnd (payloads : List Bytes) (offset : Nat) : Prop :=
  ∃ complete pending, payloads = complete ++ pending ∧
    (rpcLength.stream complete).length ≤ offset ∧ offset < (rpcLength.stream complete).length + 4

theorem readMoreLoop_stream (complete : List Bytes) (tail payloads : Bytes)
    (fit : ∀ payload ∈ complete, payload.length < 2 ^ 32 - 4) (passes : Nat) :
    readMoreLoop (complete.length + passes) ⟨rpcLength.stream complete ++ tail, payloads⟩ =
      readMoreLoop passes ⟨tail, payloads ++ complete.flatten⟩ := by
  induction complete generalizing payloads with
  | nil => simp
  | cons payload complete ih =>
      have long : ¬(rpcLength.stream (payload :: complete) ++ tail).length < 4 := by
        rw [LengthField.stream_cons, List.length_append, List.length_append,
          rpcLength.frame_length]
        change ¬4 + _ + _ + _ < 4
        omega
      have body : readMoreBody ⟨rpcLength.stream (payload :: complete) ++ tail, payloads⟩ =
          ⟨rpcLength.stream complete ++ tail, payloads ++ payload⟩ :=
        readMoreBody_frame (fit payload (by simp))
          (by rw [LengthField.stream_cons, List.append_assoc])
      rw [List.length_cons, Nat.add_right_comm, readMoreLoop, if_neg long, body,
        ih _ (fun other member => fit other (by simp [member]))]
      simp

theorem readMoreLoop_incomplete {transport : RpcTransport} {payload missing : Bytes}
    (fits : payload.length < 2 ^ 32 - 4) (header : 4 ≤ transport.recvBuf.length)
    (cut : rpcLength.frame payload = transport.recvBuf ++ missing) (lost : missing ≠ [])
    (passes : Nat) : readMoreLoop passes transport = none := by
  induction passes with
  | zero => exact if_neg (by omega)
  | succ passes ih =>
      rw [readMoreLoop, if_neg (by omega), readMoreBody_incomplete fits header cut lost, ih]

theorem readMoreReturns_cut {transport final : RpcTransport} {received tail : Bytes}
    {complete pending : List Bytes}
    (fit : ∀ payload ∈ complete ++ pending, payload.length < 2 ^ 32 - 4)
    (bytes : transport.recvBuf ++ received = rpcLength.stream complete ++ tail)
    (partialFrame : tail ≠ [] → ∃ payload others missing, pending = payload :: others ∧
      rpcLength.frame payload = tail ++ missing ∧ missing ≠ []) :
    ReadMoreReturns transport received final ↔
      tail.length < 4 ∧ final = ⟨tail, transport.bufferdRecvData ++ complete.flatten⟩ := by
  have drained (passes : Nat) :
      readMoreLoop (complete.length + passes) (transport.receive received) =
        readMoreLoop passes ⟨tail, transport.bufferdRecvData ++ complete.flatten⟩ := by
    rw [← readMoreLoop_stream complete tail _
      (fun payload member => fit payload (by simp [member])), ← bytes]
    rfl
  constructor
  · rintro ⟨passes, found⟩
    have longer := readMoreLoop_more found complete.length
    rw [Nat.add_comm, drained] at longer
    by_cases small : tail.length < 4
    · refine ⟨small, ?_⟩
      have stops : ReadMoreReturns ⟨tail, transport.bufferdRecvData ++ complete.flatten⟩ []
          ⟨tail, transport.bufferdRecvData ++ complete.flatten⟩ :=
        ⟨0, by simp [readMoreLoop, receive, small]⟩
      exact ReadMoreReturns.unique ⟨passes, by simpa [receive] using longer⟩ stops
    · have present : tail ≠ [] := by
        rintro rfl
        exact small (by simp)
      obtain ⟨payload, others, missing, rfl, cut, lost⟩ := partialFrame present
      rw [readMoreLoop_incomplete (fit payload (by simp)) (by simpa using small) cut lost] at longer
      simp at longer
  · rintro ⟨small, rfl⟩
    exact ⟨complete.length + 0, by rw [drained, readMoreLoop, if_pos small]⟩

theorem nearFrameEnd_append {complete pending : List Bytes} {offset : Nat} :
    NearFrameEnd (complete ++ pending) ((rpcLength.stream complete).length + offset) ↔
      NearFrameEnd pending offset := by
  constructor
  · rintro ⟨first, second, same, lower, upper⟩
    rcases List.append_eq_append_iff.mp same with ⟨middle, whole, rest⟩ | ⟨middle, whole, rest⟩
    · refine ⟨middle, second, rest, ?_, ?_⟩
      · rw [whole, rpcLength.stream_append, List.length_append] at lower
        omega
      · rw [whole, rpcLength.stream_append, List.length_append] at upper
        omega
    · -- A frame end before the last complete frame is at least one header away.
      cases middle with
      | nil =>
          rw [List.append_nil] at whole
          exact ⟨[], pending, rfl, Nat.zero_le _, by rw [← whole] at upper; simpa using upper⟩
      | cons payload middle =>
          rw [whole, rpcLength.stream_append, List.length_append, LengthField.stream_cons,
            List.length_append, rpcLength.frame_length, show rpcLength.width = 4 from rfl] at upper
          omega
  · rintro ⟨first, second, rfl, lower, upper⟩
    refine ⟨complete ++ first, second, by simp, ?_, ?_⟩
    · rw [rpcLength.stream_append, List.length_append]
      omega
    · rw [rpcLength.stream_append, List.length_append]
      omega

theorem nearFrameEnd_cut {complete pending : List Bytes} {tail : Bytes}
    (partialFrame : tail ≠ [] → ∃ payload others missing, pending = payload :: others ∧
      rpcLength.frame payload = tail ++ missing ∧ missing ≠ []) :
    NearFrameEnd (complete ++ pending) (rpcLength.stream complete ++ tail).length ↔
      tail.length < 4 := by
  rw [List.length_append, nearFrameEnd_append]
  constructor
  · rintro ⟨first, second, same, lower, upper⟩
    cases first with
    | nil => simpa using upper
    | cons payload first =>
        by_contra long
        have present : tail ≠ [] := by
          rintro rfl
          exact long (by simp)
        obtain ⟨whole, others, missing, rfl, cut, lost⟩ := partialFrame present
        have sizes := congrArg List.length cut
        have positive := List.length_pos_of_ne_nil lost
        simp only [List.cons_append, List.cons.injEq] at same
        rw [LengthField.stream_cons, List.length_append, ← same.1] at lower
        rw [List.length_append] at sizes
        omega
  · intro small
    exact ⟨[], pending, rfl, Nat.zero_le _, by simpa using small⟩

def CutsNear (recvBuf : Bytes) (payloads : List Bytes) (cut : Nat → Bytes) : Prop :=
  ∀ count, NearFrameEnd payloads (recvBuf ++ cut count).length

theorem cutsNear_cons {recvBuf received tail : Bytes} {complete pending : List Bytes}
    {cut later : Nat → Bytes} (short : recvBuf.length < 4)
    (bytes : recvBuf ++ received = rpcLength.stream complete ++ tail)
    (partialFrame : tail ≠ [] → ∃ payload others missing, pending = payload :: others ∧
      rpcLength.frame payload = tail ++ missing ∧ missing ≠ [])
    (first : cut 0 = []) (laterFirst : later 0 = [])
    (next : ∀ count, cut (count + 1) = received ++ later count) :
    CutsNear recvBuf (complete ++ pending) cut ↔ tail.length < 4 ∧ CutsNear tail pending later := by
  have shifted (count : Nat) : (recvBuf ++ cut (count + 1)).length =
      (rpcLength.stream complete).length + (tail ++ later count).length := by
    rw [next, ← List.append_assoc, bytes, List.append_assoc, List.length_append]
  constructor
  · intro near
    refine ⟨?_, fun count => ?_⟩
    · have one := near 1
      rw [shifted 0, laterFirst, List.append_nil, ← List.length_append] at one
      exact (nearFrameEnd_cut partialFrame).mp one
    · have more := near (count + 1)
      rwa [shifted, nearFrameEnd_append] at more
  · rintro ⟨_, near⟩ count
    cases count with
    | zero => exact ⟨[], complete ++ pending, rfl, Nat.zero_le _, by simpa [first] using short⟩
    | succ count =>
        rw [shifted, nearFrameEnd_append]
        exact near count

theorem readsReturn_iff (transport : RpcTransport) (payloads reads : List Bytes) (unread : Bytes)
    (fit : ∀ payload ∈ payloads, payload.length < 2 ^ 32 - 4)
    (short : transport.recvBuf.length < 4)
    (wire : rpcLength.stream payloads = transport.recvBuf ++ reads.flatten ++ unread) :
    ReadsReturn transport reads ↔
      CutsNear transport.recvBuf payloads fun count => (reads.take count).flatten := by
  induction reads generalizing transport payloads with
  | nil =>
      simp only [ReadsReturn, CutsNear, List.take_nil, List.flatten_nil, List.append_nil,
        forall_const, true_iff]
      exact ⟨[], payloads, rfl, Nat.zero_le _, by simpa using short⟩
  | cons received later ih =>
      rw [List.flatten_cons, ← List.append_assoc, List.append_assoc] at wire
      obtain ⟨complete, pending, tail, rfl, bytes, partialFrame⟩ := rpcLength.stream_cut wire
      have rest : rpcLength.stream pending = tail ++ later.flatten ++ unread := by
        rw [rpcLength.stream_append, bytes, List.append_assoc] at wire
        simpa using wire
      have fitLater : ∀ payload ∈ pending, payload.length < 2 ^ 32 - 4 :=
        fun payload member => fit payload (by simp [member])
      rw [cutsNear_cons short bytes partialFrame rfl rfl (fun _ => rfl)]
      constructor
      · rintro ⟨final, first, others⟩
        obtain ⟨small, rfl⟩ := (readMoreReturns_cut fit bytes partialFrame).mp first
        exact ⟨small, (ih _ pending fitLater small rest).mp others⟩
      · rintro ⟨small, near⟩
        exact ⟨_, (readMoreReturns_cut fit bytes partialFrame).mpr ⟨small, rfl⟩,
          (ih ⟨tail, _⟩ pending fitLater small rest).mpr near⟩

/-- `read_more` returns, with an incomplete frame left over, exactly on the bytes that run
dry. The reads that cut up a written stream all return exactly when every cut falls on
the end of a frame or at most three bytes behind it. -/
theorem readMore_terminates_iff (transport : RpcTransport) (received : Bytes) :
    ((∃ final, ReadMoreReturns transport received final) ∧
        (∀ final, ReadMoreReturns transport received final → Incomplete final.recvBuf) ↔
      RunsDry (transport.recvBuf ++ received)) ∧
    ∀ (written reads : List Bytes) (unread : Bytes),
      (∀ payload ∈ written, payload.length < 2 ^ 32 - 4) →
      (written.map writeVirt).flatten = reads.flatten ++ unread →
      (ReadsReturn fresh reads ↔
        ∀ count, NearFrameEnd written (reads.take count).flatten.length) := by
  refine ⟨?_, fun written reads unread fit wire => ?_⟩
  · rw [readMoreReturns_iff_runsDry, and_iff_left_iff_imp]
    rintro _ final ⟨passes, found⟩
    exact .inl (runsDry_of_readMoreLoop found).2
  · exact readsReturn_iff fresh written reads unread fit (by decide) wire

theorem readMore_terminates_iff_hi :
    ReadsReturn fresh [[0, 0], [0, 2, 104, 105]] := by
  refine ((readMore_terminates_iff fresh []).2 [[104, 105]] [[0, 0], [0, 2, 104, 105]] []
    (by decide) (by decide)).mpr ?_
  intro count
  match count with
  | 0 => exact ⟨[], [[104, 105]], rfl, by decide, by decide⟩
  | 1 => exact ⟨[], [[104, 105]], rfl, by decide, by decide⟩
  | later + 2 =>
      refine ⟨[[104, 105]], [], rfl, ?_, ?_⟩
      · simp [rpcLength, LengthField.stream, LengthField.frame, htonl]
      · simp [rpcLength, LengthField.stream, LengthField.frame, htonl]

/-- A read that ends between the two payload bytes of a written message never comes back. -/
theorem readMore_hangs_inside_payload :
    writeVirt [104, 105] = [0, 0, 0, 2, 104] ++ [105] ∧
      ¬∃ final, ReadMoreReturns fresh [0, 0, 0, 2, 104] final := by
  refine ⟨by decide, ?_⟩
  rintro ⟨final, passes, found⟩
  have cut : rpcLength.frame [104, 105] = (fresh.receive [0, 0, 0, 2, 104]).recvBuf ++ [105] := rfl
  rw [readMoreLoop_incomplete (by decide) (by decide) cut (by decide)] at found
  simp at found

end AutoDrop.RpcTransport
