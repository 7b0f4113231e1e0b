import AutoDrop.CjsonCore

/-!
The texts of a JSON value: any white space between the tokens, and any escapes in the strings.
The parser reads each of them back.
-/

namespace AutoDrop

namespace Cjson

def Blank (text : List UInt8) : Prop := ∀ ch ∈ text, ch ≠ 0 ∧ Nat.ble ch.toNat 32 = true

/-- Four hexadecimal digits of a number. -/
inductive HexWrites : Nat → List UInt8 → Prop
  | digits {x y z w : UInt8} {a b c d : Nat} (first : hexValue x = some a)
      (second : hexValue y = some b) (third : hexValue z = some c) (fourth : hexValue w = some d) :
      HexWrites (((a * 16 + b) * 16 + c) * 16 + d) [x, y, z, w]

/-- A character as `\u` escapes. A pair is put together with an or, which is right for the
characters of every other plane. -/
inductive Utf16Escape (c : Char) : List UInt8 → Prop
  | single {digits : List UInt8} (positive : c.toNat ≠ 0) (short : c.toNat < 0x10000)
      (hex : HexWrites c.toNat digits) : Utf16Escape c (byte '\\' :: byte 'u' :: digits)
  | pair {high low : List UInt8} (long : 0x10000 ≤ c.toNat)
      (plane : c.toNat / 0x10000 % 2 = 1)
      (first : HexWrites (0xD800 + (c.toNat - 0x10000) / 0x400) high)
      (second : HexWrites (0xDC00 + (c.toNat - 0x10000) % 0x400) low) :
      Utf16Escape c
        (byte '\\' :: byte 'u' :: (high ++ byte '\\' :: byte 'u' :: low))

/-- The bytes between the quotes of a string. -/
inductive StringWrites : List UInt8 → List UInt8 → Prop
  | nil : StringWrites [] []
  | raw {text written : List UInt8} (ch : UInt8) (ends : ch ≠ 0) (quote : ch ≠ byte '"')
      (backslash : ch ≠ byte '\\') (rest : StringWrites text written) :
      StringWrites (ch :: text) (ch :: written)
  | letter {text written : List UInt8} (letter : UInt8) (ends : letter ≠ 0)
      (short : letter ≠ byte 'u')
      (rest : StringWrites text written) :
      StringWrites (unescape letter :: text) (byte '\\' :: letter :: written)
  | unicode {text written code : List UInt8} (c : Char) (escape : Utf16Escape c code)
      (rest : StringWrites text written) :
      StringWrites (String.utf8EncodeChar c ++ text) (code ++ written)

theorem trailing_eq (uc : Nat) : trailing uc = UInt8.ofNat (uc % 64 + 0x80) := by
  have all : ∀ low < 256, (UInt8.ofNat low ||| 0x80) &&& 0xBF = UInt8.ofNat (low % 64 + 0x80) := by
    decide +kernel
  have wrapped : UInt8.ofNat uc = UInt8.ofNat (uc % 256) := by
    apply UInt8.toNat_inj.mp
    simp
  have same : uc % 256 % 64 = uc % 64 := by omega
  rw [trailing, wrapped, all _ (Nat.mod_lt _ (by decide)), same]

theorem toNat_lt_planes (c : Char) : c.toNat < 0x110000 := by
  have valid : c.toNat < 0xD800 ∨ 0xDFFF < c.toNat ∧ c.toNat < 0x110000 := c.valid
  omega

/-- The bytes of a character are those of its UTF-8 encoding. -/
theorem utf8_eq (c : Char) : utf8 c.toNat = String.utf8EncodeChar c := by
  have bound := toNat_lt_planes c
  have one : ∀ low < 0x80, UInt8.ofNat low ||| 0x00 = UInt8.ofNat low := by decide +kernel
  have two : ∀ low < 0x20, UInt8.ofNat low ||| 0xC0 = UInt8.ofNat (low % 0x20 + 0xC0) := by
    decide +kernel
  have three : ∀ low < 0x10, UInt8.ofNat low ||| 0xE0 = UInt8.ofNat (low % 0x10 + 0xE0) := by
    decide +kernel
  have four : ∀ low < 0x08, UInt8.ofNat low ||| 0xF0 = UInt8.ofNat (low % 0x08 + 0xF0) := by
    decide +kernel
  have code : c.val.toNat = c.toNat := rfl
  simp only [utf8, String.utf8EncodeChar, code, trailing_eq, Nat.shiftRight_eq_div_pow]
  generalize c.toNat = uc at bound
  by_cases ascii : uc < 0x80
  · rw [if_pos ascii, if_pos (by omega), one uc ascii]
  rw [if_neg ascii, if_neg (by omega : ¬uc ≤ 0x7f)]
  by_cases twice : uc < 0x800
  · rw [if_pos twice, if_pos (by omega), two _ (by omega)]
  rw [if_neg twice, if_neg (by omega : ¬uc ≤ 0x7ff)]
  by_cases thrice : uc < 0x10000
  · rw [if_pos thrice, if_pos (by omega), three _ (by omega)]
  · rw [if_neg thrice, if_neg (by omega), four _ (by omega)]

theorem hex4_of_writes {value : Nat} {digits : List UInt8} (hex : HexWrites value digits)
    (rest : List UInt8) : hex4 (digits ++ rest) = some (value, rest) := by
  cases hex with
  | digits first second third fourth =>
    simp only [List.cons_append, List.nil_append, hex4, first, second, third, fourth]

/-- An or adds where the bit is clear. -/
theorem bit_or_eq_add (top : Nat) {low width : Nat} (small : low < 2 ^ width) :
    2 ^ width ||| (2 ^ (width + 1) * top + low) = 2 ^ (width + 1) * top + (2 ^ width + low) := by
  have marked : 2 ^ width ||| low = 2 ^ width + low := by
    have sum := Nat.two_pow_add_eq_or_of_lt small 1
    rw [Nat.mul_one] at sum
    exact sum.symm
  have double : 2 ^ (width + 1) = 2 ^ width + 2 ^ width := by rw [Nat.pow_succ, Nat.mul_two]
  rw [Nat.two_pow_add_eq_or_of_lt (by omega), Nat.two_pow_add_eq_or_of_lt (by omega), ← marked,
    ← Nat.or_assoc, ← Nat.or_assoc, Nat.or_comm (2 ^ width)]

/-- An or with a bit that is set adds nothing. -/
theorem mark_or_eq (offset : Nat) :
    0x10000 ||| offset = if offset / 0x10000 % 2 = 0 then 0x10000 + offset else offset := by
  have small : offset % 0x10000 < 2 ^ 16 := Nat.mod_lt _ (by decide)
  have added := bit_or_eq_add (offset / 0x20000) small
  split
  · next clear =>
    have parts : offset = 2 ^ 17 * (offset / 0x20000) + offset % 0x10000 := by omega
    rw [← parts] at added
    have sum : 2 ^ 16 ||| offset = 2 ^ 16 + offset := by omega
    exact sum
  · next set =>
    have parts : offset = 2 ^ 17 * (offset / 0x20000) + (2 ^ 16 + offset % 0x10000) := by omega
    rw [← parts] at added
    have twice : 2 ^ 16 ||| offset = offset := by
      rw [← added, ← Nat.or_assoc, Nat.or_self]
    exact twice

/-- The two halves hold the offset of the character. -/
theorem halves_eq {offset : Nat} (bound : offset < 0x100000) :
    (0xD800 + offset / 0x400 &&& 0x3FF) <<< 10 ||| (0xDC00 + offset % 0x400) &&& 0x3FF =
      offset := by
  have mask (value : Nat) : value &&& 0x3FF = value % 2 ^ 10 :=
    Nat.and_two_pow_sub_one_eq_mod value 10
  rw [mask, mask, ← Nat.shiftLeft_add_eq_or_of_lt (Nat.mod_lt _ (by decide)), Nat.shiftLeft_eq]
  omega

theorem parseUnicode_pair {c : Char} {high low : List UInt8} (long : 0x10000 ≤ c.toNat)
    (first : HexWrites (0xD800 + (c.toNat - 0x10000) / 0x400) high)
    (second : HexWrites (0xDC00 + (c.toNat - 0x10000) % 0x400) low) (rest : List UInt8) :
    parseUnicode (high ++ byte '\\' :: byte 'u' :: (low ++ rest)) =
      some (utf8 (0x10000 ||| (c.toNat - 0x10000)), rest) := by
  have bound := toNat_lt_planes c
  have halves := @halves_eq (c.toNat - 0x10000) (by omega)
  simp only [parseUnicode, hex4_of_writes first]
  rw [if_neg (by omega), if_pos (by omega)]
  simp only [ne_eq, not_true_eq_false, or_self, if_false, hex4_of_writes second]
  rw [if_neg (by omega), Nat.or_assoc, halves]

theorem utf8EncodeChar_injective {c d : Char}
    (same : String.utf8EncodeChar c = String.utf8EncodeChar d) : c = d := by
  have decoded := @ByteArray.utf8DecodeChar?_utf8EncodeChar_append .empty c
  rw [same, ByteArray.utf8DecodeChar?_utf8EncodeChar_append] at decoded
  exact (Option.some.inj decoded).symm

theorem parseUnicode_pair_odd {c : Char} {high low : List UInt8} (long : 0x10000 ≤ c.toNat)
    (odd : c.toNat / 0x10000 % 2 = 1)
    (first : HexWrites (0xD800 + (c.toNat - 0x10000) / 0x400) high)
    (second : HexWrites (0xDC00 + (c.toNat - 0x10000) % 0x400) low) (rest : List UInt8) :
    parseUnicode (high ++ byte '\\' :: byte 'u' :: (low ++ rest)) =
      some (String.utf8EncodeChar c, rest) := by
  have clear : (c.toNat - 0x10000) / 0x10000 % 2 = 0 := by omega
  have sum : 0x10000 + (c.toNat - 0x10000) = c.toNat := by omega
  rw [parseUnicode_pair long first second, mark_or_eq, if_pos clear, sum, utf8_eq]

/-- A pair stands for its character in every other plane, from the first on. -/
theorem parseUnicode_pair_iff {c : Char} {high low : List UInt8} (long : 0x10000 ≤ c.toNat)
    (first : HexWrites (0xD800 + (c.toNat - 0x10000) / 0x400) high)
    (second : HexWrites (0xDC00 + (c.toNat - 0x10000) % 0x400) low) (rest : List UInt8) :
    parseUnicode (high ++ byte '\\' :: byte 'u' :: (low ++ rest)) =
      some (String.utf8EncodeChar c, rest) ↔ c.toNat / 0x10000 % 2 = 1 := by
  constructor
  · intro read
    by_contra even
    have bound := toNat_lt_planes c
    have set : ¬(c.toNat - 0x10000) / 0x10000 % 2 = 0 := by omega
    rw [parseUnicode_pair long first second, mark_or_eq, if_neg set, Option.some.injEq,
      Prod.mk.injEq] at read
    -- the offset is itself the number of a character
    have word : c.toNat - 0x10000 < UInt32.size := by
      rw [UInt32.size]
      omega
    have valid : (UInt32.ofNatLT (c.toNat - 0x10000) word).isValidChar := by
      refine .inr ?_
      rw [UInt32.toNat_ofNatLT]
      omega
    have code : (Char.mk _ valid).toNat = c.toNat - 0x10000 := UInt32.toNat_ofNatLT
    rw [← code, utf8_eq] at read
    have value := congrArg Char.toNat (utf8EncodeChar_injective read.1)
    omega
  · exact fun odd => parseUnicode_pair_odd long odd first second rest

/-- U+1F600, in an odd plane, and U+20000, in an even one. -/
theorem parseUnicode_pair_iff_planes :
    (parseUnicode (bytes "d83d\\ude00!") =
        some (String.utf8EncodeChar (Char.ofNat 0x1F600), bytes "!") ↔ 1 % 2 = 1) ∧
      (parseUnicode (bytes "d840\\udc00!") =
        some (String.utf8EncodeChar (Char.ofNat 0x20000), bytes "!") ↔ 2 % 2 = 1) := by
  have hex {a b c d : UInt8} {w x y z : Nat} (first : hexValue a = some w)
      (second : hexValue b = some x) (third : hexValue c = some y) (fourth : hexValue d = some z) :
      HexWrites (((w * 16 + x) * 16 + y) * 16 + z) [a, b, c, d] :=
    .digits first second third fourth
  constructor
  · exact @parseUnicode_pair_iff (Char.ofNat 0x1F600) (bytes "d83d") (bytes "de00") (by decide)
      (@hex _ _ _ _ 13 8 3 13 rfl rfl rfl rfl) (@hex _ _ _ _ 13 14 0 0 rfl rfl rfl rfl)
      (bytes "!")
  · exact @parseUnicode_pair_iff (Char.ofNat 0x20000) (bytes "d840") (bytes "dc00") (by decide)
      (@hex _ _ _ _ 13 8 4 0 rfl rfl rfl rfl) (@hex _ _ _ _ 13 12 0 0 rfl rfl rfl rfl)
      (bytes "!")

theorem parseUnicode_of_escape {c : Char} {code : List UInt8} (escape : Utf16Escape c code)
    (rest : List UInt8) :
    ∃ digits, code = byte '\\' :: byte 'u' :: digits ∧
      parseUnicode (digits ++ rest) = some (String.utf8EncodeChar c, rest) := by
  cases escape with
  | @single digits positive short hex =>
    refine ⟨digits, rfl, ?_⟩
    have valid : c.toNat < 0xD800 ∨ 0xDFFF < c.toNat ∧ c.toNat < 0x110000 := c.valid
    simp only [parseUnicode, hex4_of_writes hex]
    rw [if_neg (by omega), if_neg (by omega), utf8_eq]
  | @pair high low long plane first second =>
    refine ⟨_, rfl, ?_⟩
    simpa using parseUnicode_pair_odd long plane first second rest

theorem parseStringBody_of_writes {text written : List UInt8} (writes : StringWrites text written)
    (rest : List UInt8) (fuel : Nat) (enough : written.length < fuel) :
    parseStringBody fuel (written ++ byte '"' :: rest) = some (text, rest) := by
  induction writes generalizing fuel with
  | nil =>
    obtain ⟨fuel, rfl⟩ := Nat.exists_eq_succ_of_ne_zero (Nat.ne_of_gt enough)
    simp [parseStringBody]
  | raw ch _ quote backslash _ ih =>
    obtain ⟨fuel, rfl⟩ := Nat.exists_eq_succ_of_ne_zero (Nat.ne_of_gt (Nat.zero_lt_of_lt enough))
    have smaller := ih fuel (Nat.lt_of_succ_lt_succ enough)
    simp [parseStringBody, quote, backslash, smaller]
  | letter letter _ short _ ih =>
    obtain ⟨fuel, rfl⟩ := Nat.exists_eq_succ_of_ne_zero (Nat.ne_of_gt (Nat.zero_lt_of_lt enough))
    have smaller := ih fuel (by simp only [List.length_cons] at enough; omega)
    have other : byte '\\' ≠ byte '"' := by decide
    simp [parseStringBody, short, other, smaller]
  | @unicode text written code c escape _ ih =>
    obtain ⟨fuel, rfl⟩ := Nat.exists_eq_succ_of_ne_zero (Nat.ne_of_gt (Nat.zero_lt_of_lt enough))
    obtain ⟨digits, rfl, read⟩ := parseUnicode_of_escape escape (written ++ byte '"' :: rest)
    have smaller := ih fuel (by simp only [List.length_cons, List.length_append] at enough; omega)
    have other : byte '\\' ≠ byte '"' := by decide
    simp [parseStringBody, other, read, smaller]

/-! Numbers. -/

def Digits (digits : List UInt8) : Prop := ∀ ch ∈ digits, isDigit ch = true

/-- The digits in front of the point: no zero in front of another digit. -/
inductive WholeWrites : List UInt8 → Prop
  | zero : WholeWrites [byte '0']
  | digits {ch : UInt8} {rest : List UInt8} (nonzero : ch ≠ byte '0') (all : Digits (ch :: rest)) :
      WholeWrites (ch :: rest)

def point (decimals : List UInt8) : List UInt8 :=
  if decimals = [] then [] else byte '.' :: decimals

inductive ExponentWrites : Int → List UInt8 → Prop
  | none : ExponentWrites 0 []
  | plain {mark : UInt8} {digits : List UInt8} (letter : mark = byte 'e' ∨ mark = byte 'E')
      (some : digits ≠ []) (all : Digits digits) :
      ExponentWrites (ofDigits 0 digits) (mark :: digits)
  | plus {mark : UInt8} {digits : List UInt8} (letter : mark = byte 'e' ∨ mark = byte 'E')
      (some : digits ≠ []) (all : Digits digits) :
      ExponentWrites (ofDigits 0 digits) (mark :: byte '+' :: digits)
  | minus {mark : UInt8} {digits : List UInt8} (letter : mark = byte 'e' ∨ mark = byte 'E')
      (some : digits ≠ []) (all : Digits digits) :
      ExponentWrites (-(ofDigits 0 digits : Int)) (mark :: byte '-' :: digits)

def sign (negative : Bool) : List UInt8 := if negative then [byte '-'] else []

/-- What behind a number is no part of it. -/
def Stops (rest : List UInt8) : Prop :=
  ∀ ch ∈ rest.head?, isDigit ch = false ∧ ch ≠ byte '.' ∧ ch ≠ byte 'e' ∧ ch ≠ byte 'E'

/-- Behind the digits of a number. -/
def NoDigit (rest : List UInt8) : Prop := ∀ ch ∈ rest.head?, isDigit ch = false

theorem takeWhile_digits {digits rest : List UInt8} (all : Digits digits) (behind : NoDigit rest) :
    (digits ++ rest).takeWhile isDigit = digits ∧ (digits ++ rest).dropWhile isDigit = rest := by
  have none : rest.takeWhile isDigit = [] ∧ rest.dropWhile isDigit = rest := by
    cases rest with
    | nil => exact ⟨rfl, rfl⟩
    | cons ch rest =>
      have not := behind ch rfl
      simp [not]
  rw [List.takeWhile_append_of_pos all, List.dropWhile_append_of_pos all, none.1, none.2,
    List.append_nil]
  exact ⟨rfl, rfl⟩

theorem wholePart_of_writes {whole rest : List UInt8} (writes : WholeWrites whole)
    (behind : NoDigit rest) : wholePart (whole ++ rest) = (ofDigits 0 whole, rest) := by
  cases writes with
  | zero =>
    cases rest with
    | nil => rfl
    | cons ch rest =>
      have not := behind ch rfl
      simp [wholePart, not, ofDigits, byte]
  | @digits ch digits nonzero all =>
    have first : isDigit ch = true := all ch List.mem_cons_self
    obtain ⟨taken, dropped⟩ := takeWhile_digits all behind
    rw [List.cons_append] at taken dropped
    simp only [wholePart, List.cons_append, List.head?_cons, Option.some.injEq, nonzero, if_false,
      ne_eq, not_false_eq_true, first, and_self, if_true, taken, dropped]

theorem fractionPart_of_writes (number : Nat) {decimals rest : List UInt8} (all : Digits decimals)
    (behind : NoDigit rest) (noPoint : rest.head? ≠ some (byte '.')) :
    fractionPart number (point decimals ++ rest) =
      (ofDigits number decimals, decimals.length, rest) := by
  cases decimals with
  | nil =>
    match rest, noPoint with
    | [], _ => rfl
    | [_], _ => rfl
    | first :: second :: rest, noPoint =>
      have other : first ≠ byte '.' := fun same => noPoint (by rw [same]; rfl)
      simp [point, fractionPart, other, ofDigits]
  | cons ch decimals =>
    have first : isDigit ch = true := all ch List.mem_cons_self
    obtain ⟨taken, dropped⟩ := takeWhile_digits all behind
    rw [List.cons_append] at taken dropped
    simp only [point, reduceCtorEq, if_false, List.cons_append, fractionPart, first, and_self,
      if_true, taken, dropped]

theorem exponentPart_of_writes {power : Int} {exponent rest : List UInt8}
    (writes : ExponentWrites power exponent) (stops : Stops rest) :
    exponentPart (exponent ++ rest) = (power, rest) := by
  have behind : NoDigit rest := fun ch member => (stops ch member).1
  -- the digits do not begin with a sign
  have unsigned {digits : List UInt8} (some : digits ≠ []) (all : Digits digits) (mark : UInt8)
      (no : isDigit mark = false) : (digits ++ rest).head? ≠ Option.some mark := by
    cases digits with
    | nil => exact absurd rfl some
    | cons ch digits =>
      have first := all ch List.mem_cons_self
      intro same
      rw [List.cons_append, List.head?_cons, Option.some.injEq] at same
      rw [same, no] at first
      exact absurd first (by decide)
  have noPlus : isDigit (byte '+') = false := by decide
  have noMinus : isDigit (byte '-') = false := by decide
  cases writes with
  | none =>
    cases rest with
    | nil => rfl
    | cons ch rest =>
      have not := stops ch rfl
      simp [exponentPart, not]
  | plain letter some all =>
    obtain ⟨taken, dropped⟩ := takeWhile_digits all behind
    simp only [List.cons_append, exponentPart, if_pos letter, unsigned some all _ noPlus,
      unsigned some all _ noMinus, or_self, if_false, taken, dropped]
  | plus letter some all =>
    obtain ⟨taken, dropped⟩ := takeWhile_digits all behind
    have other : byte '+' ≠ byte '-' := by decide
    simp [exponentPart, letter, taken, dropped, other]
  | minus letter some all =>
    obtain ⟨taken, dropped⟩ := takeWhile_digits all behind
    simp [exponentPart, letter, taken, dropped]

variable {Double : Type}

inductive NumberWrites (format : DoubleFormat Double) : Cjson Double → List UInt8 → Prop
  | int {whole exponent : List UInt8} (negative : Bool) (digits : WholeWrites whole)
      (power : ExponentWrites 0 exponent) (fits : ofDigits 0 whole < 2 ^ 63) :
      NumberWrites format
        (.int (if negative then -(ofDigits 0 whole : Int) else ofDigits 0 whole))
        (sign negative ++ (whole ++ exponent))
  | double {whole decimals exponent : List UInt8} {power : Int} (negative : Bool)
      (digits : WholeWrites whole) (more : Digits decimals) (scaled : ExponentWrites power exponent)
      (fits : power.natAbs < 2 ^ 31) (broken : decimals ≠ [] ∨ power ≠ 0) :
      NumberWrites format
        (.double (format.ofDecimal negative (ofDigits 0 (whole ++ decimals))
          (power - decimals.length)))
        (sign negative ++ (whole ++ (point decimals ++ exponent)))

theorem noDigit_exponent {power : Int} {exponent rest : List UInt8}
    (writes : ExponentWrites power exponent) (stops : Stops rest) :
    NoDigit (exponent ++ rest) ∧ (exponent ++ rest).head? ≠ some (byte '.') := by
  have marks {mark : UInt8} (letter : mark = byte 'e' ∨ mark = byte 'E') (behind : List UInt8) :
      NoDigit (mark :: behind) ∧ (mark :: behind).head? ≠ some (byte '.') := by
    constructor
    · intro ch member
      obtain rfl : mark = ch := by simpa using member
      obtain rfl | rfl := letter <;> decide
    · intro same
      obtain rfl : mark = byte '.' := by simpa using same
      exact absurd letter (by decide)
  cases writes with
  | none =>
    refine ⟨fun ch member => (stops ch member).1, fun same => ?_⟩
    exact (stops _ same).2.1 rfl
  | plain letter _ _ => exact marks letter _
  | plus letter _ _ => exact marks letter _
  | minus letter _ _ => exact marks letter _

theorem not_minus_of_whole {whole rest : List UInt8} (writes : WholeWrites whole) :
    (whole ++ rest).head? ≠ some (byte '-') := by
  cases writes with
  | zero => simp [byte]
  | digits _ all =>
    have first := all _ List.mem_cons_self
    intro same
    rw [List.cons_append, List.head?_cons, Option.some.injEq] at same
    rw [same] at first
    exact absurd first (by decide)

theorem parseNumber_of_writes {format : DoubleFormat Double} {item : Cjson Double}
    {text rest : List UInt8} (writes : NumberWrites format item text) (stops : Stops rest) :
    parseNumber format (text ++ rest) = some (item, rest) := by
  -- the sign is taken off
  have unsign (negative : Bool) {whole : List UInt8} (digits : WholeWrites whole)
      (behind : List UInt8) :
      decide ((sign negative ++ (whole ++ behind)).head? = some (byte '-')) = negative ∧
        (if negative = true then (sign negative ++ (whole ++ behind)).tail
          else sign negative ++ (whole ++ behind)) = whole ++ behind := by
    cases negative with
    | false => simpa [sign] using not_minus_of_whole digits
    | true => simp [sign]
  cases writes with
  | @int whole exponent negative digits power fits =>
    have marks := noDigit_exponent power stops
    have empty : Digits [] := by simp [Digits]
    have noDecimals := fractionPart_of_writes (ofDigits 0 whole) empty marks.1 marks.2
    simp only [point, if_true, List.nil_append] at noDecimals
    have taken := unsign negative digits (exponent ++ rest)
    simp only [parseNumber, List.append_assoc, taken.1, taken.2,
      wholePart_of_writes digits marks.1, noDecimals, exponentPart_of_writes power stops]
    have none : ofDigits (ofDigits 0 whole) [] = ofDigits 0 whole := rfl
    simpa [none] using fits
  | @double whole decimals exponent power negative digits more scaled fits broken =>
    have marks := noDigit_exponent scaled stops
    have behind : NoDigit (point decimals ++ (exponent ++ rest)) := by
      cases decimals with
      | nil => exact marks.1
      | cons ch decimals =>
        intro dot member
        obtain rfl : byte '.' = dot := by simpa [point] using member
        decide
    have taken := unsign negative digits (point decimals ++ (exponent ++ rest))
    simp only [parseNumber, List.append_assoc, taken.1, taken.2, wholePart_of_writes digits behind,
      fractionPart_of_writes _ more marks.1 marks.2, exponentPart_of_writes scaled stops]
    have unbroken : ¬(decimals.length = 0 ∧ power = 0) := by
      rw [List.length_eq_zero_iff]
      rintro ⟨none, zero⟩
      exact broken.elim (· none) (· zero)
    rw [if_neg (by omega), if_neg unbroken]
    simp [ofDigits]

/-! Values. -/

inductive QuotedWrites : List UInt8 → List UInt8 → Prop
  | quoted {text written : List UInt8} (writes : StringWrites text written) :
      QuotedWrites text (byte '"' :: (written ++ [byte '"']))

mutual

inductive Writes (format : DoubleFormat Double) : Cjson Double → List UInt8 → Prop
  | null : Writes format .null (bytes "null")
  | bool (value : Bool) : Writes format (.bool value) (bytes (if value then "true" else "false"))
  | number {item : Cjson Double} {text : List UInt8} (writes : NumberWrites format item text) :
      Writes format item text
  | string {text written : List UInt8} (writes : QuotedWrites text written) :
      Writes format (.string text) written
  | emptyArray {blank : List UInt8} (white : Blank blank) :
      Writes format (.array .nil) (byte '[' :: (blank ++ [byte ']']))
  | array {child : CjsonItems Double} {blank text : List UInt8} (white : Blank blank)
      (items : ItemsWrites format child text) :
      Writes format (.array child) (byte '[' :: (blank ++ text))
  | emptyObject {blank : List UInt8} (white : Blank blank) :
      Writes format (.object .nil) (byte '{' :: (blank ++ [byte '}']))
  | object {child : CjsonMembers Double} {blank text : List UInt8} (white : Blank blank)
      (members : MembersWrites format child text) :
      Writes format (.object child) (byte '{' :: (blank ++ text))

/-- One item or more, and the bracket. -/
inductive ItemsWrites (format : DoubleFormat Double) : CjsonItems Double → List UInt8 → Prop
  | last {item : Cjson Double} {text blank : List UInt8} (writes : Writes format item text)
      (white : Blank blank) : ItemsWrites format (.cons item .nil) (text ++ (blank ++ [byte ']']))
  | more {item : Cjson Double} {next : CjsonItems Double} {text before behind others : List UInt8}
      (writes : Writes format item text) (white : Blank before) (space : Blank behind)
      (rest : ItemsWrites format next others) :
      ItemsWrites format (.cons item next) (text ++ (before ++ byte ',' :: (behind ++ others)))

/-- One member or more, and the brace. -/
inductive MembersWrites (format : DoubleFormat Double) : CjsonMembers Double → List UInt8 → Prop
  | last {name key blank₁ blank₂ text blank₃ : List UInt8} {item : Cjson Double}
      (named : QuotedWrites name key) (white₁ : Blank blank₁) (white₂ : Blank blank₂)
      (writes : Writes format item text) (white₃ : Blank blank₃) :
      MembersWrites format (.cons name item .nil)
        (key ++ (blank₁ ++ byte ':' :: (blank₂ ++ (text ++ (blank₃ ++ [byte '}'])))))
  | more {name key blank₁ blank₂ text blank₃ blank₄ others : List UInt8} {item : Cjson Double}
      {next : CjsonMembers Double} (named : QuotedWrites name key) (white₁ : Blank blank₁)
      (white₂ : Blank blank₂) (writes : Writes format item text) (white₃ : Blank blank₃)
      (white₄ : Blank blank₄) (rest : MembersWrites format next others) :
      MembersWrites format (.cons name item next)
        (key ++ (blank₁ ++ byte ':' :: (blank₂ ++ (text ++
          (blank₃ ++ byte ',' :: (blank₄ ++ others))))))

end

/-- The text begins with a character that white space is not. -/
def Starts (text : List UInt8) : Prop :=
  ∃ ch rest, text = ch :: rest ∧ Nat.ble ch.toNat 32 = false

theorem skip_blank {blank text : List UInt8} (white : Blank blank) (starts : Starts text) :
    skip (blank ++ text) = text := by
  obtain ⟨ch, rest, rfl, dark⟩ := starts
  rw [skip, List.dropWhile_append_of_pos fun ch member => (white ch member).2]
  simp [dark]

theorem Starts.append {text : List UInt8} (starts : Starts text) (rest : List UInt8) :
    Starts (text ++ rest) := by
  obtain ⟨ch, tail, rfl, dark⟩ := starts
  exact ⟨ch, tail ++ rest, rfl, dark⟩

theorem starts_quoted {text written : List UInt8} (writes : QuotedWrites text written) :
    Starts written := by
  cases writes with
  | quoted _ => exact ⟨_, _, rfl, by decide⟩

theorem parseString_of_writes {text written : List UInt8} (writes : QuotedWrites text written)
    (rest : List UInt8) : parseString (written ++ rest) = some (text, rest) := by
  cases writes with
  | @quoted written writes =>
    have read := parseStringBody_of_writes writes rest ((written ++ byte '"' :: rest).length + 1)
      (by rw [List.length_append]; omega)
    simpa [parseString] using read

theorem dark_of_isDigit {ch : UInt8} (digit : isDigit ch = true) : Nat.ble ch.toNat 32 = false := by
  simp only [isDigit, Bool.and_eq_true, Nat.ble_eq] at digit
  rw [Bool.eq_false_iff, ne_eq, Nat.ble_eq]
  omega

theorem starts_number {format : DoubleFormat Double} {item : Cjson Double} {text : List UInt8}
    (writes : NumberWrites format item text) :
    ∃ ch rest, text = ch :: rest ∧ (ch = byte '-' ∨ isDigit ch = true) := by
  have signed (negative : Bool) {whole : List UInt8} (digits : WholeWrites whole)
      (behind : List UInt8) : ∃ ch rest, sign negative ++ (whole ++ behind) = ch :: rest ∧
        (ch = byte '-' ∨ isDigit ch = true) := by
    cases negative with
    | true => exact ⟨_, _, rfl, .inl rfl⟩
    | false =>
      cases digits with
      | zero => exact ⟨_, _, rfl, .inr (by decide)⟩
      | digits _ all => exact ⟨_, _, rfl, .inr (all _ List.mem_cons_self)⟩
  cases writes with
  | int negative digits _ _ => exact signed negative digits _
  | double negative digits _ _ _ _ => exact signed negative digits _

theorem starts_of_writes {format : DoubleFormat Double} {item : Cjson Double} {text : List UInt8}
    (writes : Writes format item text) : Starts text := by
  cases writes with
  | null => exact ⟨_, _, rfl, by decide⟩
  | bool value => cases value <;> exact ⟨_, _, rfl, by decide⟩
  | number writes =>
    obtain ⟨ch, rest, rfl, minus | digit⟩ := starts_number writes
    · exact ⟨ch, rest, rfl, by rw [minus]; decide⟩
    · exact ⟨ch, rest, rfl, dark_of_isDigit digit⟩
  | string writes => exact starts_quoted writes
  | emptyArray _ => exact ⟨_, _, rfl, by decide⟩
  | array _ _ => exact ⟨_, _, rfl, by decide⟩
  | emptyObject _ => exact ⟨_, _, rfl, by decide⟩
  | object _ _ => exact ⟨_, _, rfl, by decide⟩

theorem starts_items {format : DoubleFormat Double} {child : CjsonItems Double} {text : List UInt8}
    (writes : ItemsWrites format child text) : Starts text := by
  cases writes with
  | last writes _ => exact (starts_of_writes writes).append _
  | more writes _ _ _ => exact (starts_of_writes writes).append _

theorem starts_members {format : DoubleFormat Double} {child : CjsonMembers Double}
    {text : List UInt8} (writes : MembersWrites format child text) : Starts text := by
  cases writes with
  | last named _ _ _ _ => exact (starts_quoted named).append _
  | more named _ _ _ _ _ _ => exact (starts_quoted named).append _

/-- White space, a comma or a bracket ends a number. -/
theorem stops_blank {blank rest : List UInt8} {mark : UInt8} (white : Blank blank)
    (ends : Stops [mark]) : Stops (blank ++ mark :: rest) := by
  cases blank with
  | nil => exact ends
  | cons ch blank =>
    intro first member
    obtain rfl : ch = first := by simpa using member
    have low := (white ch List.mem_cons_self).2
    rw [Nat.ble_eq] at low
    refine ⟨?_, ?_, ?_, ?_⟩
    · simp only [isDigit, Bool.eq_false_iff, ne_eq, Bool.and_eq_true, Nat.ble_eq]
      omega
    all_goals
      rintro rfl
      exact absurd low (by decide)

theorem stops_mark {mark : UInt8} (ends : isDigit mark = false ∧ mark ≠ byte '.' ∧
    mark ≠ byte 'e' ∧ mark ≠ byte 'E') : Stops [mark] := by
  intro ch member
  obtain rfl : mark = ch := by simpa using member
  exact ends

/-- A text that begins with none of the letters of the literals. -/
theorem parseValue_of_head (format : DoubleFormat Double) (fuel : Nat) {ch : UInt8}
    (rest : List UInt8) (noN : ch ≠ byte 'n') (noF : ch ≠ byte 'f') (noT : ch ≠ byte 't') :
    parseValue format (fuel + 1) (ch :: rest) =
      if ch = byte '"' then (parseString (ch :: rest)).map fun read => (.string read.1, read.2)
      else if ch = byte '-' ∨ isDigit ch then parseNumber format (ch :: rest)
      else if ch = byte '[' then
        if (skip rest).head? = some (byte ']') then some (.array .nil, (skip rest).tail)
        else (parseItems format fuel (skip rest)).map fun read => (.array read.1, read.2)
      else if ch = byte '{' then
        if (skip rest).head? = some (byte '}') then some (.object .nil, (skip rest).tail)
        else (parseMembers format fuel (skip rest)).map fun read => (.object read.1, read.2)
      else none := by
  have other {word : List UInt8} {letter : UInt8} (differs : ch ≠ letter) :
      ¬letter :: word <+: ch :: rest := by
    rw [List.cons_prefix_cons]
    exact fun both => differs both.1.symm
  have null : ¬bytes "null" <+: ch :: rest := other noN
  have false : ¬bytes "false" <+: ch :: rest := other noF
  have true : ¬bytes "true" <+: ch :: rest := other noT
  simp only [parseValue, if_neg null, if_neg false, if_neg true]

theorem parseValue_of_number {format : DoubleFormat Double} {item : Cjson Double}
    {text rest : List UInt8} (writes : NumberWrites format item text) (stops : Stops rest)
    (fuel : Nat) : parseValue format (fuel + 1) (text ++ rest) = some (item, rest) := by
  have read := parseNumber_of_writes writes stops
  obtain ⟨ch, tail, rfl, first⟩ := starts_number writes
  have not {mark : UInt8} (minus : mark ≠ byte '-') (digit : isDigit mark = false) : ch ≠ mark := by
    rintro rfl
    rw [digit] at first
    exact first.elim minus (absurd · (by decide))
  rw [List.cons_append] at read ⊢
  rw [parseValue_of_head _ _ _ (not (by decide) (by decide)) (not (by decide) (by decide))
    (not (by decide) (by decide)), if_neg (not (by decide) (by decide)), if_pos first, read]

/-- No item and no member begins with the bracket that ends an empty array or object. -/
theorem head_ne_of_items {format : DoubleFormat Double} {child : CjsonItems Double}
    {text : List UInt8} (writes : ItemsWrites format child text) (rest : List UInt8) :
    (text ++ rest).head? ≠ some (byte ']') := by
  have first {item : Cjson Double} {text : List UInt8} (writes : Writes format item text)
      (rest : List UInt8) : (text ++ rest).head? ≠ some (byte ']') := by
    cases writes with
    | null => simp [bytes, byte]
    | bool value => cases value <;> simp [bytes, byte]
    | number writes =>
      obtain ⟨ch, tail, rfl, minus | digit⟩ := starts_number writes
      · simp [minus, byte]
      · intro same
        obtain rfl : ch = byte ']' := by simpa using same
        exact absurd digit (by decide)
    | string writes =>
      cases writes with
      | quoted _ => simp [byte]
    | emptyArray _ => simp [byte]
    | array _ _ => simp [byte]
    | emptyObject _ => simp [byte]
    | object _ _ => simp [byte]
  cases writes with
  | last writes _ => simpa only [List.append_assoc] using first writes _
  | more writes _ _ _ => simpa only [List.append_assoc] using first writes _

theorem head_ne_of_members {format : DoubleFormat Double} {child : CjsonMembers Double}
    {text : List UInt8} (writes : MembersWrites format child text) (rest : List UInt8) :
    (text ++ rest).head? ≠ some (byte '}') := by
  have first {name key : List UInt8} (named : QuotedWrites name key) (rest : List UInt8) :
      (key ++ rest).head? ≠ some (byte '}') := by
    cases named with
    | quoted _ => simp [byte]
  cases writes with
  | last named _ _ _ _ => simpa only [List.append_assoc] using first named _
  | more named _ _ _ _ _ _ => simpa only [List.append_assoc] using first named _

/-- Only a number asks what stands behind it. -/
def StopsBehind (rest : List UInt8) : Cjson Double → Prop
  | .int _ | .double _ => Stops rest
  | .null | .bool _ | .string _ | .array _ | .object _ => True

theorem Stops.behind {rest : List UInt8} (stops : Stops rest) (item : Cjson Double) :
    StopsBehind rest item := by
  cases item with
  | int _ | double _ => exact stops
  | null | bool _ | string _ | array _ | object _ => trivial

theorem stops_of_number {format : DoubleFormat Double} {item : Cjson Double}
    {text rest : List UInt8} (writes : NumberWrites format item text)
    (behind : StopsBehind rest item) : Stops rest := by
  cases writes with
  | int _ _ _ _ => exact behind
  | double _ _ _ _ _ _ => exact behind

/-! What the parsers read with depth to spare: a text of a value up to its end, of items and of
members with the bracket behind them. -/

def ReadsValues (format : DoubleFormat Double) (fuel : Nat) : Prop :=
  ∀ ⦃item : Cjson Double⦄ ⦃text rest : List UInt8⦄, Writes format item text →
    StopsBehind rest item → text.length < fuel →
      parseValue format fuel (text ++ rest) = some (item, rest)

def ReadsItems (format : DoubleFormat Double) (fuel : Nat) : Prop :=
  ∀ ⦃child : CjsonItems Double⦄ ⦃text rest : List UInt8⦄, ItemsWrites format child text →
    text.length < fuel → parseItems format fuel (text ++ rest) = some (child, rest)

def ReadsMembers (format : DoubleFormat Double) (fuel : Nat) : Prop :=
  ∀ ⦃child : CjsonMembers Double⦄ ⦃text rest : List UInt8⦄, MembersWrites format child text →
    text.length < fuel → parseMembers format fuel (text ++ rest) = some (child, rest)

theorem starts_mark (mark : UInt8) (rest : List UInt8) (high : Nat.ble mark.toNat 32 = false) :
    Starts (mark :: rest) := ⟨mark, rest, rfl, high⟩

theorem readsValues_succ {format : DoubleFormat Double} {fuel : Nat}
    (items : ReadsItems format fuel) (members : ReadsMembers format fuel) :
    ReadsValues format (fuel + 1) := by
  intro item text rest writes stops enough
  cases writes with
  | null => simp [parseValue, bytes, byte]
  | bool value => cases value <;> simp [parseValue, bytes, byte]
  | number writes => exact parseValue_of_number writes (stops_of_number writes stops) fuel
  | string writes =>
    have read := parseString_of_writes writes rest
    cases writes with
    | quoted _ =>
      rw [List.cons_append] at read ⊢
      rw [parseValue_of_head _ _ _ (by decide) (by decide) (by decide), if_pos rfl, read]
      rfl
  | @emptyArray blank white =>
    have skipped := skip_blank white (starts_mark (byte ']') rest (by decide))
    rw [List.cons_append, List.append_assoc, List.singleton_append,
      parseValue_of_head _ _ _ (by decide) (by decide) (by decide), if_neg (by decide),
      if_neg (by decide), if_pos rfl, skipped, List.head?_cons, if_pos rfl, List.tail_cons]
  | @array child blank text white writes =>
    have skipped := skip_blank white ((starts_items writes).append rest)
    have shorter : text.length < fuel := by
      simp only [List.length_cons, List.length_append] at enough
      omega
    rw [List.cons_append, List.append_assoc,
      parseValue_of_head _ _ _ (by decide) (by decide) (by decide), if_neg (by decide),
      if_neg (by decide), if_pos rfl, skipped, if_neg (head_ne_of_items writes rest),
      items writes shorter]
    rfl
  | @emptyObject blank white =>
    have skipped := skip_blank white (starts_mark (byte '}') rest (by decide))
    rw [List.cons_append, List.append_assoc, List.singleton_append,
      parseValue_of_head _ _ _ (by decide) (by decide) (by decide), if_neg (by decide),
      if_neg (by decide), if_neg (by decide), if_pos rfl, skipped, List.head?_cons, if_pos rfl,
      List.tail_cons]
  | @object child blank text white writes =>
    have skipped := skip_blank white ((starts_members writes).append rest)
    have shorter : text.length < fuel := by
      simp only [List.length_cons, List.length_append] at enough
      omega
    rw [List.cons_append, List.append_assoc,
      parseValue_of_head _ _ _ (by decide) (by decide) (by decide), if_neg (by decide),
      if_neg (by decide), if_neg (by decide), if_pos rfl, skipped,
      if_neg (head_ne_of_members writes rest), members writes shorter]
    rfl

theorem readsItems_succ {format : DoubleFormat Double} {fuel : Nat}
    (values : ReadsValues format fuel) (items : ReadsItems format fuel) :
    ReadsItems format (fuel + 1) := by
  intro child text rest writes enough
  cases writes with
  | @last item text blank writes white =>
    simp only [List.length_append, List.length_cons] at enough
    have stops : Stops (blank ++ byte ']' :: rest) := stops_blank white (stops_mark (by decide))
    have skipped := skip_blank white (starts_mark (byte ']') rest (by decide))
    simp only [List.append_assoc, List.singleton_append, parseItems,
      values writes (stops.behind _) (by omega), Option.bind_some, skipped]
    rw [if_neg (by decide), if_pos trivial]
  | @more item next text before behind others writes white space more =>
    simp only [List.length_append, List.length_cons] at enough
    have stops : Stops (before ++ byte ',' :: (behind ++ (others ++ rest))) :=
      stops_blank white (stops_mark (by decide))
    have skipped := skip_blank white
      (starts_mark (byte ',') (behind ++ (others ++ rest)) (by decide))
    have next := skip_blank space ((starts_items more).append rest)
    simp only [List.append_assoc, List.cons_append, parseItems,
      values writes (stops.behind _) (by omega), Option.bind_some, skipped, if_true, next,
      items more (by omega), Option.map_some]

theorem readsMembers_succ {format : DoubleFormat Double} {fuel : Nat}
    (values : ReadsValues format fuel) (members : ReadsMembers format fuel) :
    ReadsMembers format (fuel + 1) := by
  intro child text rest writes enough
  have colon {blank : List UInt8} (white : Blank blank) (behind : List UInt8) :
      skip (blank ++ byte ':' :: behind) = byte ':' :: behind :=
    skip_blank white (starts_mark (byte ':') behind (by decide))
  cases writes with
  | @last name key blank₁ blank₂ text blank₃ item named white₁ white₂ writes white₃ =>
    simp only [List.length_append, List.length_cons] at enough
    have stops : Stops (blank₃ ++ byte '}' :: rest) := stops_blank white₃ (stops_mark (by decide))
    have skipped := skip_blank white₃ (starts_mark (byte '}') rest (by decide))
    have value := skip_blank white₂
      ((starts_of_writes writes).append (blank₃ ++ byte '}' :: rest))
    simp only [List.append_assoc, List.cons_append, List.nil_append, parseMembers,
      parseString_of_writes named, Option.bind_some, colon white₁, ne_eq, not_true_eq_false,
      if_false, value, values writes (stops.behind _) (by omega), skipped]
    rw [if_neg (by decide), if_pos trivial]
  | @more name key blank₁ blank₂ text blank₃ blank₄ others item next named white₁ white₂ writes
      white₃ white₄ more =>
    simp only [List.length_append, List.length_cons] at enough
    have stops : Stops (blank₃ ++ byte ',' :: (blank₄ ++ (others ++ rest))) :=
      stops_blank white₃ (stops_mark (by decide))
    have skipped := skip_blank white₃
      (starts_mark (byte ',') (blank₄ ++ (others ++ rest)) (by decide))
    have value := skip_blank white₂ ((starts_of_writes writes).append
      (blank₃ ++ byte ',' :: (blank₄ ++ (others ++ rest))))
    have next := skip_blank white₄ ((starts_members more).append rest)
    simp only [List.append_assoc, List.cons_append, parseMembers, parseString_of_writes named,
      Option.bind_some, colon white₁, ne_eq, not_true_eq_false, if_false, value,
      values writes (stops.behind _) (by omega), skipped, if_true, next, members more (by omega),
      Option.map_some]

/-- The induction is on the depth the parser may reach, for values, items and members at once. -/
theorem parse_of_writes (format : DoubleFormat Double) (fuel : Nat) :
    ReadsValues format fuel ∧ ReadsItems format fuel ∧ ReadsMembers format fuel := by
  induction fuel with
  | zero => exact ⟨fun _ _ _ _ _ => nofun, fun _ _ _ _ => nofun, fun _ _ _ _ => nofun⟩
  | succ fuel ih =>
    obtain ⟨values, items, members⟩ := ih
    exact ⟨readsValues_succ items members, readsItems_succ values items,
      readsMembers_succ values members⟩

/-- The parser comes to what stands behind the text. -/
theorem parseValue_text {format : DoubleFormat Double} {item : Cjson Double}
    {blank text rest : List UInt8} (white : Blank blank) (writes : Writes format item text)
    (stops : StopsBehind rest item) : parseValue format ((blank ++ (text ++ rest)).length + 1)
      (skip (blank ++ (text ++ rest))) = some (item, rest) := by
  have enough : text.length < (blank ++ (text ++ rest)).length + 1 := by
    simp only [List.length_append]
    omega
  have starts := (starts_of_writes writes).append rest
  rw [skip_blank white starts, (parse_of_writes format _).1 writes stops enough]

/-- White space in front of a value, and whatever may stand behind it. -/
theorem parse_of_text {format : DoubleFormat Double} {item : Cjson Double}
    {blank text rest : List UInt8} (white : Blank blank) (writes : Writes format item text)
    (stops : StopsBehind rest item) : parse format (blank ++ (text ++ rest)) = some item := by
  rw [parse, parseValue_text white writes stops]
  rfl

/-- Doubles that are a number of millionths. -/
def millionths : DoubleFormat Int where
  fixed value := .finite (decide (value < 0)) value.natAbs
  ofDecimal negative number scale :=
    let magnitude : Int := if 0 ≤ scale + 6 then number * 10 ^ (scale + 6).toNat
      else number / 10 ^ (-(scale + 6)).toNat
    if negative then -magnitude else magnitude
  shown value := printFinite (decide (value < 0)) value.natAbs

/-- `\t[ "\u00e9" ] ` is read as an array of one string. -/
theorem parse_of_text_accent :
    parse millionths ([9] ++ ((byte '[' :: ([32] ++ ((byte '"' ::
        (bytes "\\u00e9" ++ [byte '"'])) ++ ([32] ++ [byte ']'])))) ++ [32])) =
      some (.array (.cons (.string [0xC3, 0xA9]) .nil)) := by
  have tab : Blank [9] := by simp [Blank]
  have space : Blank [32] := by simp [Blank]
  have accent : StringWrites (String.utf8EncodeChar (Char.ofNat 0xE9) ++ [])
      (byte '\\' :: byte 'u' :: bytes "00e9" ++ []) :=
    .unicode _ (.single (by decide) (by decide)
      (.digits (a := 0) (b := 0) (c := 14) (d := 9) (by decide) (by decide) (by decide)
        (by decide))) .nil
  have string : Writes millionths (.string [0xC3, 0xA9])
      (byte '"' :: (bytes "\\u00e9" ++ [byte '"'])) :=
    .string (.quoted accent)
  have items := ItemsWrites.last string space
  exact parse_of_text tab (.array space items) trivial

/-! No text of a value has a NUL in it. -/

def NoNul (text : List UInt8) : Prop := ∀ ch ∈ text, ch ≠ 0

@[simp] theorem noNul_nil : NoNul [] := nofun

@[simp] theorem noNul_cons {ch : UInt8} {text : List UInt8} :
    NoNul (ch :: text) ↔ ch ≠ 0 ∧ NoNul text := List.forall_mem_cons

@[simp] theorem noNul_append {front back : List UInt8} :
    NoNul (front ++ back) ↔ NoNul front ∧ NoNul back := List.forall_mem_append

theorem Blank.noNul {blank : List UInt8} (white : Blank blank) : NoNul blank :=
  fun ch member => (white ch member).1

theorem Digits.noNul {digits : List UInt8} (all : Digits digits) : NoNul digits := by
  rintro ch member rfl
  exact absurd (all 0 member) (by decide)

theorem HexWrites.noNul {value : Nat} {digits : List UInt8} (hex : HexWrites value digits) :
    NoNul digits := by
  have some {ch : UInt8} {value : Nat} (digit : hexValue ch = some value) : ch ≠ 0 := by
    rintro rfl
    exact absurd digit (by rw [show hexValue 0 = none from by decide]; simp)
  cases hex with
  | digits first second third fourth => simp [some first, some second, some third, some fourth]

theorem Utf16Escape.noNul {c : Char} {code : List UInt8} (escape : Utf16Escape c code) :
    NoNul code := by
  have marks : byte '\\' ≠ 0 ∧ byte 'u' ≠ 0 := by decide
  cases escape with
  | single _ _ hex => simp [marks, hex.noNul]
  | pair _ _ first second => simp [marks, first.noNul, second.noNul]

theorem StringWrites.noNul {text written : List UInt8} (writes : StringWrites text written) :
    NoNul written := by
  have mark : byte '\\' ≠ 0 := by decide
  induction writes with
  | nil => exact noNul_nil
  | raw ch ends _ _ _ ih => exact noNul_cons.mpr ⟨ends, ih⟩
  | letter letter ends _ _ ih => exact noNul_cons.mpr ⟨mark, noNul_cons.mpr ⟨ends, ih⟩⟩
  | unicode c escape _ ih => exact noNul_append.mpr ⟨escape.noNul, ih⟩

theorem QuotedWrites.noNul {text written : List UInt8} (writes : QuotedWrites text written) :
    NoNul written := by
  have quote : byte '"' ≠ 0 := by decide
  cases writes with
  | quoted writes => simp [quote, writes.noNul]

theorem WholeWrites.noNul {whole : List UInt8} (writes : WholeWrites whole) : NoNul whole := by
  cases writes with
  | zero => simp [byte]
  | digits _ all => exact all.noNul

theorem ExponentWrites.noNul {power : Int} {exponent : List UInt8}
    (writes : ExponentWrites power exponent) : NoNul exponent := by
  have signs : byte '+' ≠ 0 ∧ byte '-' ≠ 0 := by decide
  have marks {mark : UInt8} (letter : mark = byte 'e' ∨ mark = byte 'E') : mark ≠ 0 := by
    obtain rfl | rfl := letter <;> decide
  cases writes with
  | none => exact noNul_nil
  | plain letter _ all => simp [marks letter, all.noNul]
  | plus letter _ all => simp [marks letter, signs, all.noNul]
  | minus letter _ all => simp [marks letter, signs, all.noNul]

theorem NumberWrites.noNul {format : DoubleFormat Double} {item : Cjson Double} {text : List UInt8}
    (writes : NumberWrites format item text) : NoNul text := by
  have signed (negative : Bool) : NoNul (sign negative) := by
    cases negative <;> simp [sign, byte]
  have pointed {decimals : List UInt8} (all : Digits decimals) : NoNul (point decimals) := by
    cases decimals with
    | nil => exact noNul_nil
    | cons ch decimals => exact noNul_cons.mpr ⟨by decide, all.noNul⟩
  cases writes with
  | int negative digits power _ => simp [signed, digits.noNul, power.noNul]
  | double negative digits more scaled _ _ =>
    simp [signed, digits.noNul, pointed more, scaled.noNul]

theorem noNul_of_writes {format : DoubleFormat Double} {item : Cjson Double} {text : List UInt8}
    (writes : Writes format item text) : NoNul text := by
  have marks : byte '[' ≠ 0 ∧ byte ']' ≠ 0 ∧ byte '{' ≠ 0 ∧ byte '}' ≠ 0 ∧ byte ',' ≠ 0 ∧
      byte ':' ≠ 0 := by decide
  -- by the derivation, for values, items and members at once
  refine @Writes.rec Double format (fun _ text _ => NoNul text) (fun _ text _ => NoNul text)
    (fun _ text _ => NoNul text) ?null ?bool ?number ?string ?emptyArray ?array ?emptyObject ?object
    ?lastItem ?moreItems ?lastMember ?moreMembers item text writes
  case null => simp [bytes, byte]
  case bool => rintro (_ | _) <;> simp [bytes, byte]
  case number => exact fun writes => writes.noNul
  case string => exact fun writes => writes.noNul
  case emptyArray =>
    intro _ white
    simp [marks, white.noNul]
  case array =>
    intro _ _ _ white _ items
    simp [marks, white.noNul, items]
  case emptyObject =>
    intro _ white
    simp [marks, white.noNul]
  case object =>
    intro _ _ _ white _ members
    simp [marks, white.noNul, members]
  case lastItem =>
    intro _ _ _ _ white item
    simp [marks, white.noNul, item]
  case moreItems =>
    intro _ _ _ _ _ _ _ white space _ item items
    simp [marks, white.noNul, space.noNul, item, items]
  case lastMember =>
    intro _ _ _ _ _ _ _ named white₁ white₂ _ white₃ item
    simp [marks, named.noNul, white₁.noNul, white₂.noNul, white₃.noNul, item]
  case moreMembers =>
    intro _ _ _ _ _ _ _ _ _ _ named white₁ white₂ _ white₃ white₄ _ item members
    simp [marks, named.noNul, white₁.noNul, white₂.noNul, white₃.noNul, white₄.noNul, item,
      members]

end Cjson

end AutoDrop
