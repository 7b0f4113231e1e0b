import AutoDrop.LengthPrefix
import Mathlib.Algebra.Ring.Nat

/-!
The framing transport `AD_RPC_TRANSPORT`: the two receive buffers, the framing loop of
`read_more`, and the copy-out of `read_virt`. The loop is given up after a number of
passes, so that `read_more` returns when some number of passes is enough.
-/

namespace AutoDrop

abbrev Bytes := List UInt8

def htonl (count : Nat) : Bytes :=
  [UInt8.ofNat (count / 2 ^ 24), UInt8.ofNat (count / 2 ^ 16), UInt8.ofNat (count / 2 ^ 8),
    UInt8.ofNat count]

def ntohl (bytes : Bytes) : Nat :=
  bytes.foldl (fun value byte => value * 256 + byte.toNat) 0

theorem ntohl_htonl (count : Nat) (bound : count < 2 ^ 32) : ntohl (htonl count) = count := by
  simp only [ntohl, htonl, List.foldl_cons, List.foldl_nil, UInt8.toNat_ofNat']
  omega

def rpcLength : LengthField UInt8 where
  width := 4
  bound := 2 ^ 32
  encode := htonl
  decode := ntohl
  width_pos := by decide
  encode_length := fun _ => rfl
  decode_encode := ntohl_htonl

structure RpcTransport where
  recvBuf : Bytes
  bufferdRecvData : Bytes
deriving DecidableEq, Repr

namespace RpcTransport

def fresh : RpcTransport := ⟨[], []⟩

def writeVirt (buf : Bytes) : Bytes :=
  htonl buf.length ++ buf

def msgLen (transport : RpcTransport) : Nat :=
  ntohl (transport.recvBuf.take 4)

def frameEnd (transport : RpcTransport) : Nat :=
  -- `4 + msg_len` is a sum of `uint32_t` and wraps
  (4 + transport.msgLen) % 2 ^ 32

def readMoreBody (transport : RpcTransport) : RpcTransport :=
  if transport.frameEnd ≤ transport.recvBuf.length then
    { recvBuf := transport.recvBuf.drop transport.frameEnd
      bufferdRecvData :=
        transport.bufferdRecvData ++ (transport.recvBuf.drop 4).take transport.msgLen }
  else transport -- the source has no branch for an incomplete frame

def readMoreLoop : Nat → RpcTransport → Option RpcTransport
  | 0, transport => if transport.recvBuf.length < 4 then some transport else none
  | passes + 1, transport =>
      if transport.recvBuf.length < 4 then some transport
      else readMoreLoop passes transport.readMoreBody

def receive (transport : RpcTransport) (received : Bytes) : RpcTransport :=
  { transport with recvBuf := transport.recvBuf ++ received }

def ReadMoreReturns (transport : RpcTransport) (received : Bytes) (final : RpcTransport) : Prop :=
  ∃ passes, readMoreLoop passes (transport.receive received) = some final

def readMore (transport : RpcTransport) (received : Bytes) : Option RpcTransport :=
  -- a loop that ends removes at least one byte in each pass
  readMoreLoop (transport.recvBuf ++ received).length (transport.receive received)

def copyLen (transport : RpcTransport) (len : Nat) : Nat :=
  min len (transport.bufferdRecvData.length % 2 ^ 32) -- the size is cast to `uint32_t`

def copyOut (transport : RpcTransport) (len : Nat) : Bytes × RpcTransport :=
  (transport.bufferdRecvData.take (transport.copyLen len),
    { transport with bufferdRecvData := transport.bufferdRecvData.drop (transport.copyLen len) })

@[simp] theorem receive_recvBuf (transport : RpcTransport) (received : Bytes) :
    (transport.receive received).recvBuf = transport.recvBuf ++ received := rfl

@[simp] theorem receive_bufferdRecvData (transport : RpcTransport) (received : Bytes) :
    (transport.receive received).bufferdRecvData = transport.bufferdRecvData := rfl

theorem copyOut_eq_nil_iff {transport : RpcTransport} {len : Nat} (positive : 0 < len)
    (few : transport.bufferdRecvData.length < 2 ^ 32) :
    (transport.copyOut len).1 = [] ↔ transport.bufferdRecvData = [] := by
  rw [← List.length_eq_zero_iff, ← List.length_eq_zero_iff]
  simp only [copyOut, copyLen, List.length_take, Nat.mod_eq_of_lt few]
  omega

theorem writeVirt_eq_frame (buf : Bytes) : writeVirt buf = rpcLength.frame buf := rfl

theorem msgLen_eq_announced (transport : RpcTransport) :
    transport.msgLen = rpcLength.announced transport.recvBuf := rfl

theorem readMoreBody_frame {transport : RpcTransport} {payload rest : Bytes}
    (fits : payload.length < 2 ^ 32 - 4)
    (head : transport.recvBuf = rpcLength.frame payload ++ rest) :
    transport.readMoreBody = ⟨rest, transport.bufferdRecvData ++ payload⟩ := by
  have announced : transport.msgLen = payload.length := by
    rw [msgLen_eq_announced, head]
    exact rpcLength.announced_frame (show payload.length < 2 ^ 32 by omega) rest
  have ends : transport.frameEnd = rpcLength.width + payload.length := by
    rw [frameEnd, announced, Nat.mod_eq_of_lt (by omega)]
    rfl
  have dropped := rpcLength.drop_frame payload rest
  have body : transport.recvBuf.drop 4 = payload ++ rest := by
    rw [head]
    exact rpcLength.drop_width_frame payload rest
  have present : transport.frameEnd ≤ transport.recvBuf.length := by
    rw [ends, head, List.length_append, rpcLength.frame_length]
    omega
  rw [readMoreBody, if_pos present, body, announced, ends, head, dropped,
    List.take_left' rfl]

theorem readMoreBody_incomplete {transport : RpcTransport} {payload missing : Bytes}
    (fits : payload.length < 2 ^ 32 - 4) (header : 4 ≤ transport.recvBuf.length)
    (cut : rpcLength.frame payload = transport.recvBuf ++ missing) (lost : missing ≠ []) :
    transport.readMoreBody = transport := by
  have announced : transport.msgLen = payload.length := by
    have whole := rpcLength.announced_frame (show payload.length < 2 ^ 32 by omega) []
    rw [List.append_nil, cut] at whole
    rw [← whole, msgLen_eq_announced, LengthField.announced, LengthField.announced,
      List.take_append_of_le_length (show rpcLength.width ≤ _ from header)]
  have lengths := congrArg List.length cut
  rw [rpcLength.frame_length, List.length_append] at lengths
  have positive := List.length_pos_of_ne_nil lost
  have short : ¬transport.frameEnd ≤ transport.recvBuf.length := by
    rw [frameEnd, announced, Nat.mod_eq_of_lt (by omega)]
    change 4 + payload.length = _ at lengths
    omega
  rw [readMoreBody, if_neg short]

end RpcTransport

end AutoDrop
