import Mathlib.Data.List.Basic

/-!
Base64: three bytes in four characters, padded to a multiple of four, and the decoding of the
web platform, which forgives white space and a missing padding.
-/

namespace Base64

def alphabet : List Char :=
  "ABCDEFGHIJKLMNOPQRSTUVWXYZabcdefghijklmnopqrstuvwxyz0123456789+/".toList

def char (value : Nat) : Char := alphabet.getD value '='

def value? (char : Char) : Option Nat := alphabet.idxOf? char

def sextets : List UInt8 → List Nat
  | [] => []
  | [a] => [a.toNat / 4, a.toNat % 4 * 16]
  | [a, b] => [a.toNat / 4, a.toNat % 4 * 16 + b.toNat / 16, b.toNat % 16 * 4]
  | a :: b :: c :: rest =>
      a.toNat / 4 :: (a.toNat % 4 * 16 + b.toNat / 16) :: (b.toNat % 16 * 4 + c.toNat / 64) ::
        c.toNat % 64 :: sextets rest

/-- The bits left over of the last byte are dropped. -/
def octets : List Nat → List UInt8
  | a :: b :: c :: d :: rest =>
      .ofNat (a * 4 + b / 16) :: .ofNat (b % 16 * 16 + c / 4) :: .ofNat (c % 4 * 64 + d) ::
        octets rest
  | [a, b, c] => [.ofNat (a * 4 + b / 16), .ofNat (b % 16 * 16 + c / 4)]
  | [a, b] => [.ofNat (a * 4 + b / 16)]
  | [_] | [] => []

def encode (bytes : List UInt8) : List Char :=
  let text := (sextets bytes).map char
  text ++ List.replicate ((4 - text.length % 4) % 4) '='

def whitespace (char : Char) : Bool := ['\t', '\n', '\x0c', '\r', ' '].contains char

def dropPad (text : List Char) : List Char :=
  if text.getLast? = some '=' then text.dropLast else text

def unpadded (text : List Char) : List Char :=
  if text.length % 4 = 0 then dropPad (dropPad text) else text

/-- `atob`, or `none` where it throws. -/
def decode (text : List Char) : Option (List UInt8) :=
  let text := unpadded (text.filter fun char => !whitespace char)
  if text.length % 4 = 1 then none else (text.mapM value?).map octets

theorem char_table :
    ((List.range 64).all fun value => value? (char value) = some value ∧
      whitespace (char value) = false ∧ char value ≠ '=') = true := by
  decide +kernel

theorem char_of_lt {value : Nat} (bound : value < 64) :
    value? (char value) = some value ∧ whitespace (char value) = false ∧ char value ≠ '=' :=
  of_decide_eq_true (List.all_eq_true.mp char_table value (List.mem_range.mpr bound))

theorem sextets_lt (bytes : List UInt8) : ∀ value ∈ sextets bytes, value < 64 := by
  fun_induction sextets bytes with
  | case1 => simp
  | case2 a =>
    have := a.toNat_lt
    simp only [List.mem_cons, List.not_mem_nil, or_false, forall_eq_or_imp, forall_eq]
    omega
  | case3 a b =>
    have := a.toNat_lt
    have := b.toNat_lt
    simp only [List.mem_cons, List.not_mem_nil, or_false, forall_eq_or_imp, forall_eq]
    omega
  | case4 a b c rest ih =>
    have := a.toNat_lt
    have := b.toNat_lt
    have := c.toNat_lt
    simp only [List.mem_cons, forall_eq_or_imp]
    exact ⟨by omega, by omega, by omega, by omega, ih⟩

theorem ofNat_of_eq {value : Nat} {byte : UInt8} (same : value = byte.toNat) :
    UInt8.ofNat value = byte := by
  rw [same, UInt8.ofNat_toNat]

theorem octets_sextets (bytes : List UInt8) : octets (sextets bytes) = bytes := by
  fun_induction sextets bytes with
  | case1 => rfl
  | case2 a =>
    rw [octets, ofNat_of_eq (by omega : _ = a.toNat)]
  | case3 a b =>
    have := b.toNat_lt
    rw [octets, ofNat_of_eq (by omega : _ = a.toNat), ofNat_of_eq (by omega : _ = b.toNat)]
  | case4 a b c rest ih =>
    have := b.toNat_lt
    have := c.toNat_lt
    rw [octets, ih, ofNat_of_eq (by omega : _ = a.toNat), ofNat_of_eq (by omega : _ = b.toNat),
      ofNat_of_eq (by omega : _ = c.toNat)]

theorem length_sextets (bytes : List UInt8) : (sextets bytes).length % 4 ≠ 1 := by
  fun_induction sextets bytes with
  | case1 | case2 | case3 => simp
  | case4 a b c rest ih =>
    simp only [List.length_cons]
    omega

theorem dropPad_chars {values : List Nat} (bound : ∀ value ∈ values, value < 64) :
    dropPad (values.map char) = values.map char := by
  rw [dropPad, if_neg]
  rw [List.getLast?_map]
  intro pad
  obtain ⟨value, last, same⟩ := Option.map_eq_some_iff.mp pad
  exact (char_of_lt (bound value (List.mem_of_getLast? last))).2.2 same

theorem dropPad_concat (text : List Char) : dropPad (text ++ ['=']) = text := by
  rw [dropPad, if_pos (by simp), List.dropLast_concat]

theorem unpadded_chars {values : List Nat} (bound : ∀ value ∈ values, value < 64)
    (whole : values.length % 4 ≠ 1) :
    unpadded (values.map char ++ List.replicate ((4 - values.length % 4) % 4) '=') =
      values.map char := by
  have cases : (4 - values.length % 4) % 4 = 0 ∨ (4 - values.length % 4) % 4 = 1 ∨
      (4 - values.length % 4) % 4 = 2 := by omega
  have full : (values.map char ++
      List.replicate ((4 - values.length % 4) % 4) '=').length % 4 = 0 := by
    rw [List.length_append, List.length_map, List.length_replicate]
    omega
  rw [unpadded, if_pos full]
  rcases cases with none | one | two
  · rw [none, List.replicate_zero, List.append_nil, dropPad_chars bound, dropPad_chars bound]
  · rw [one, List.replicate_one, dropPad_concat, dropPad_chars bound]
  · rw [two, List.replicate_succ', List.replicate_one, ← List.append_assoc, dropPad_concat,
      dropPad_concat]

theorem filter_encode (bytes : List UInt8) :
    ((encode bytes).filter fun char => !whitespace char) = encode bytes := by
  rw [List.filter_eq_self]
  intro found member
  rcases List.mem_append.mp member with text | pad
  · obtain ⟨value, listed, rfl⟩ := List.mem_map.mp text
    rw [(char_of_lt (sextets_lt bytes value listed)).2.1]
    rfl
  · rw [List.eq_of_mem_replicate pad]
    rfl

theorem mapM_value {values : List Nat} (bound : ∀ value ∈ values, value < 64) :
    (values.map char).mapM value? = some values := by
  induction values with
  | nil => rfl
  | cons value rest ih =>
    rw [List.map_cons, List.mapM_cons, (char_of_lt (bound value (by simp))).1,
      ih fun other member => bound other (List.mem_cons_of_mem _ member)]
    rfl

theorem decode_encode (bytes : List UInt8) : decode (encode bytes) = some bytes := by
  have bound := sextets_lt bytes
  have whole := length_sextets bytes
  have text : unpadded (encode bytes) = (sextets bytes).map char := by
    rw [encode, List.length_map, unpadded_chars bound whole]
  rw [decode, filter_encode, text, if_neg (by rwa [List.length_map]), mapM_value bound]
  exact congrArg some (octets_sextets bytes)

end Base64
