import AutoDrop.PrefixCode

/-!
The replies of a connection that subscribes: arrays of bulk strings and integers, as the
server writes them and hiredis reads them.
-/

namespace AutoDrop

inductive RedisReply
  | string (str : List UInt8)
  | integer (value : Nat)
  | array (element : List RedisReply)

/-- The elements of the arrays. -/
inductive RedisElement
  | string (str : List UInt8)
  | integer (value : Nat)
deriving DecidableEq, Repr

def RedisElement.reply : RedisElement → RedisReply
  | .string str => .string str
  | .integer value => .integer value

namespace RedisReply

def digitByte (digit : Char) : UInt8 := UInt8.ofNat digit.toNat

def byteDigit (byte : UInt8) : Char := Char.ofNat byte.toNat

def isDigitByte (byte : UInt8) : Bool := (byteDigit byte).isDigit

theorem byteDigit_digitByte {digit : Char} (decimal : digit.isDigit = true) :
    byteDigit (digitByte digit) = digit := by
  simp only [Char.isDigit, Bool.and_eq_true, decide_eq_true_eq] at decimal
  have last : digit.toNat ≤ 57 := UInt32.le_iff_toNat_le.mp decimal.2
  have small : (UInt8.ofNat digit.toNat).toNat = digit.toNat := by
    rw [UInt8.toNat_ofNat']
    omega
  rw [byteDigit, digitByte, small, Char.ofNat_toNat]

/-- A decimal number up to the end of its line. -/
def decimalLine : PrefixCode UInt8 Nat :=
  ((PrefixCode.terminated isDigitByte 13 (by decide)).bind fun _ => PrefixCode.literal [10]).map
    (fun line => Nat.ofDigitChars 10 (line.1.val.map byteDigit) 0)
    (fun number => ⟨⟨(Nat.toDigits 10 number).map digitByte, by
      intro byte member
      obtain ⟨digit, among, rfl⟩ := List.mem_map.mp member
      have decimal := Nat.isDigit_of_mem_toDigits (by decide) (by decide) among
      rw [isDigitByte, byteDigit_digitByte decimal, decimal]⟩, ()⟩)
    fun number => by
      have same : ((Nat.toDigits 10 number).map digitByte).map byteDigit =
          Nat.toDigits 10 number := by
        rw [List.map_map]
        refine (List.map_congr_left fun digit among => ?_).trans (List.map_id _)
        exact byteDigit_digitByte (Nat.isDigit_of_mem_toDigits (by decide) (by decide) among)
      rw [same, Nat.ofDigitChars_ten_toDigits]

/-- What stands behind the number of a bulk string. -/
def bulkString : PrefixCode UInt8 (List UInt8) :=
  (decimalLine.bind fun size =>
      (PrefixCode.fixed size).bind fun _ => PrefixCode.literal [13, 10]).map
    (fun word => word.2.1.val) (fun str => ⟨str.length, ⟨str, rfl⟩, ()⟩) fun _ => rfl

/-- The type byte `$` or `:`, and what stands behind it. -/
def element : PrefixCode UInt8 RedisElement :=
  (PrefixCode.either 36 58 (by decide) bulkString decimalLine).map
    (fun word => word.elim .string .integer)
    (fun
      | .string str => .inl str
      | .integer value => .inr value)
    fun
      | .string _ => rfl
      | .integer _ => rfl

def arrayOfElements : PrefixCode UInt8 (List RedisElement) :=
  (((PrefixCode.literal [42]).bind fun _ => decimalLine).bind fun line =>
      element.repeated line.2).map
    (fun word => word.2.val) (fun parts => ⟨⟨(), parts.length⟩, parts, rfl⟩) fun _ => rfl

theorem arrayOfElements_nonempty (parts : List RedisElement) :
    arrayOfElements.encode parts ≠ [] := by
  change 42 :: _ ≠ []
  exact List.cons_ne_nil _ _

end RedisReply

end AutoDrop
