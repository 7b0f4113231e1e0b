import AutoDrop.CjsonWrites

/-!
What cJSON prints is a text of the value that was printed, but for the digits of a double behind
the sixth.
-/

namespace AutoDrop

namespace Cjson

def digit (value : Nat) : UInt8 := UInt8.ofNat (48 + value)

theorem decimal_eq (number : Nat) :
    decimal number =
      if number < 10 then [digit number] else decimal (number / 10) ++ [digit (number % 10)] := by
  have char {value : Nat} (small : value < 10) : byte value.digitChar = digit value := by
    rw [byte, Nat.toNat_digitChar_of_lt_ten small, digit]
  rw [decimal, Nat.toDigits_eq_if (by decide)]
  split
  · next small => rw [List.map_singleton, char small]
  · rw [List.map_append, List.map_singleton, char (Nat.mod_lt _ (by decide)), decimal]

theorem digit_toNat {value : Nat} (small : value < 10) : (digit value).toNat = 48 + value := by
  rw [digit, UInt8.toNat_ofNat']
  omega

theorem isDigit_digit {value : Nat} (small : value < 10) : isDigit (digit value) = true := by
  simp only [isDigit, digit_toNat small, Bool.and_eq_true, Nat.ble_eq]
  omega

theorem digits_decimal (number : Nat) : Digits (decimal number) := by
  induction number using Nat.strongRecOn with
  | ind number ih =>
    rw [decimal_eq]
    split
    · next small =>
      intro ch member
      rw [List.mem_singleton.mp member]
      exact isDigit_digit small
    · intro ch member
      rcases List.mem_append.mp member with front | last
      · exact ih (number / 10) (by omega) ch front
      · rw [List.mem_singleton.mp last]
        exact isDigit_digit (Nat.mod_lt _ (by decide))

theorem ofDigits_append (number : Nat) (front back : List UInt8) :
    ofDigits number (front ++ back) = ofDigits (ofDigits number front) back :=
  List.foldl_append

theorem ofDigits_digit (number : Nat) {value : Nat} (small : value < 10) :
    ofDigits number [digit value] = number * 10 + value := by
  rw [ofDigits, List.foldl_cons, List.foldl_nil, digit_toNat small]
  omega

theorem ofDigits_decimal (number : Nat) : ofDigits 0 (decimal number) = number := by
  induction number using Nat.strongRecOn with
  | ind number ih =>
    rw [decimal_eq]
    split
    · next small => rw [ofDigits_digit 0 small, Nat.zero_mul, Nat.zero_add]
    · rw [ofDigits_append, ih (number / 10) (by omega),
        ofDigits_digit _ (Nat.mod_lt _ (by decide))]
      omega

/-- Only the decimal of zero begins with a zero. -/
theorem head_decimal {number : Nat} (positive : number ≠ 0) :
    ∃ ch rest, decimal number = ch :: rest ∧ ch ≠ byte '0' := by
  induction number using Nat.strongRecOn with
  | ind number ih =>
    rw [decimal_eq]
    split
    · next small =>
      refine ⟨_, [], rfl, fun same => positive ?_⟩
      have value := congrArg UInt8.toNat same
      rw [digit_toNat small, show (byte '0').toNat = 48 from rfl] at value
      omega
    · obtain ⟨ch, rest, front, nonzero⟩ := ih (number / 10) (by omega) (by omega)
      exact ⟨ch, rest ++ [digit (number % 10)], by rw [front, List.cons_append], nonzero⟩

theorem decimal_writes (number : Nat) : WholeWrites (decimal number) := by
  by_cases zero : number = 0
  · rw [zero]
    exact .zero
  · obtain ⟨ch, rest, same, nonzero⟩ := head_decimal zero
    rw [same]
    exact .digits nonzero (same ▸ digits_decimal number)

theorem digits_fraction (millionths : Nat) : Digits (fraction millionths) := by
  intro ch member
  obtain ⟨value, -, rfl⟩ := List.mem_map.mp member
  exact isDigit_digit (Nat.mod_lt _ (by decide))

theorem ofDigits_fraction (number : Nat) {millionths : Nat} (small : millionths < 1000000) :
    ofDigits number (fraction millionths) = number * 1000000 + millionths := by
  have each (value : Nat) : (UInt8.ofNat (48 + value % 10)).toNat - 48 = value % 10 := by
    rw [UInt8.toNat_ofNat']
    omega
  simp only [ofDigits, fraction, List.map_cons, List.map_nil, List.foldl_cons, List.foldl_nil, each]
  omega

/-! Strings. -/

theorem hexValue_hexDigit {value : Nat} (small : value < 16) :
    hexValue (hexDigit value) = some value := by
  have all : ∀ value < 16, hexValue (hexDigit value) = some value := by decide
  exact all value small

theorem unescape_of_escapeLetter {token letter : UInt8} (short : escapeLetter token = some letter) :
    unescape letter = token ∧ letter ≠ 0 ∧ letter ≠ byte 'u' := by
  have known {letter back : UInt8}
      (right : unescape letter = back ∧ letter ≠ 0 ∧ letter ≠ byte 'u') {other : UInt8}
      (picked : some letter = some other) :
      unescape other = back ∧ other ≠ 0 ∧ other ≠ byte 'u' :=
    Option.some.inj picked ▸ right
  unfold escapeLetter at short
  split at short
  · next same => exact same ▸ known (by decide) short
  split at short
  · next same => exact same ▸ known (by decide) short
  split at short
  · next same => exact same ▸ known (by decide) short
  split at short
  · next same => exact same ▸ known (by decide) short
  split at short
  · next same => exact same ▸ known (by decide) short
  split at short
  · next same => exact same ▸ known (by decide) short
  split at short
  · next same => exact same ▸ known (by decide) short
  · exact absurd short (by simp)

/-- A control character as four hexadecimal digits. -/
theorem control_escape {token : UInt8} (ends : token ≠ 0) (low : token.toNat < 32) :
    ∃ c, String.utf8EncodeChar c = [token] ∧ Utf16Escape c (byte '\\' ::
      (bytes "u00" ++ [hexDigit (token.toNat / 16), hexDigit (token.toNat % 16)])) := by
  have value : token.toUInt32.toNat = token.toNat := UInt8.toNat_toUInt32 token
  have valid : token.toUInt32.isValidChar := by
    refine .inl ?_
    rw [value]
    omega
  have code : (Char.mk token.toUInt32 valid).toNat = token.toNat := value
  refine ⟨⟨token.toUInt32, valid⟩, ?_, ?_⟩
  · simp only [String.utf8EncodeChar, value]
    rw [if_pos (by omega), UInt8.ofNat_toNat]
  · have positive : token.toNat ≠ 0 := fun zero => ends (UInt8.toNat_inj.mp zero)
    have hex : HexWrites (((0 * 16 + 0) * 16 + token.toNat / 16) * 16 + token.toNat % 16)
        [byte '0', byte '0', hexDigit (token.toNat / 16), hexDigit (token.toNat % 16)] :=
      .digits (by decide) (by decide) (hexValue_hexDigit (by omega)) (hexValue_hexDigit (by omega))
    have whole : ((0 * 16 + 0) * 16 + token.toNat / 16) * 16 + token.toNat % 16 =
        (Char.mk token.toUInt32 valid).toNat := by
      rw [code]
      omega
    rw [whole] at hex
    exact .single (by omega) (by omega) hex

/-- A byte that is printed as it is, behind a backslash, or as a hexadecimal number. -/
theorem printByte_writes {token : UInt8} (ends : token ≠ 0) {text written : List UInt8}
    (rest : StringWrites text written) :
    StringWrites (token :: text) (printByte token ++ written) := by
  rw [printByte]
  split
  · next plain => exact .raw token ends plain.2.1 plain.2.2 rest
  · next escaped =>
    cases short : escapeLetter token with
    | some letter =>
      obtain ⟨same, some, notU⟩ := unescape_of_escapeLetter short
      rw [← same]
      exact .letter letter some notU rest
    | none =>
      have quote : token ≠ byte '"' := by
        rintro rfl
        exact absurd short (by decide)
      have backslash : token ≠ byte '\\' := by
        rintro rfl
        exact absurd short (by decide)
      have low : token.toNat < 32 := by
        have high : ¬Nat.blt 31 token.toNat = true := fun high => escaped ⟨high, quote, backslash⟩
        rw [Nat.blt_eq] at high
        omega
      obtain ⟨c, encoded, escape⟩ := control_escape ends low
      have writes := StringWrites.unicode c escape rest
      rwa [encoded] at writes

theorem printStringPtr_writes {str : List UInt8} (ends : ∀ ch ∈ str, ch ≠ 0) :
    QuotedWrites str (printStringPtr str) := by
  refine .quoted ?_
  induction str with
  | nil => exact .nil
  | cons token str ih =>
    rw [List.flatMap_cons]
    exact printByte_writes (ends token List.mem_cons_self)
      (ih fun ch member => ends ch (List.mem_cons_of_mem token member))

/-! Values. -/

variable {Double : Type}

/-- The text of a finite double, in the 64 bytes of its buffer. -/
def Fits : FixedPoint → Prop
  | .finite negative millionths => (printFinite negative millionths).length < 64
  | .infinite _ | .nan _ => False

instance : ∀ printed, Decidable (Fits printed)
  | .finite _ _ => inferInstanceAs (Decidable (_ < _))
  | .infinite _ | .nan _ => .isFalse id

mutual

/-- What the printer's buffers and the parser's words hold, doubles that are finite, and no string
with a NUL. -/
def Printable (format : DoubleFormat Double) : Cjson Double → Prop
  | null => True
  | bool _ => True
  | int value => value.natAbs < 2 ^ 63
  | double value => Fits (format.fixed value)
  | string valuestring => ∀ ch ∈ valuestring, ch ≠ 0
  | array child => ItemsPrintable format child
  | object child => MembersPrintable format child

def ItemsPrintable (format : DoubleFormat Double) : CjsonItems Double → Prop
  | .nil => True
  | .cons item next => Printable format item ∧ ItemsPrintable format next

def MembersPrintable (format : DoubleFormat Double) : CjsonMembers Double → Prop
  | .nil => True
  | .cons name item next =>
      (∀ ch ∈ name, ch ≠ 0) ∧ Printable format item ∧ MembersPrintable format next

end

mutual

/-- The value with its doubles rounded to millionths. -/
def rounded (format : DoubleFormat Double) : Cjson Double → Cjson Double
  | null => null
  | bool value => bool value
  | int value => int value
  | double value =>
      match format.fixed value with
      | .finite negative millionths => double (format.ofDecimal negative millionths (-6))
      | .infinite _ | .nan _ => double value
  | string valuestring => string valuestring
  | array child => array (itemsRounded format child)
  | object child => object (membersRounded format child)

def itemsRounded (format : DoubleFormat Double) : CjsonItems Double → CjsonItems Double
  | .nil => .nil
  | .cons item next => .cons (rounded format item) (itemsRounded format next)

def membersRounded (format : DoubleFormat Double) : CjsonMembers Double → CjsonMembers Double
  | .nil => .nil
  | .cons name item next => .cons name (rounded format item) (membersRounded format next)

end

theorem printInt_writes (format : DoubleFormat Double) {value : Int}
    (fits : value.natAbs < 2 ^ 63) : NumberWrites format (int value) (printInt value) := by
  have number (negative : Bool) (magnitude : Nat) (small : magnitude < 2 ^ 63) :
      NumberWrites format (int (if negative then -(magnitude : Int) else magnitude))
        (sign negative ++ (decimal magnitude ++ [])) := by
    have writes : NumberWrites format _ (sign negative ++ (decimal magnitude ++ [])) :=
      .int negative (decimal_writes magnitude) .none (by rwa [ofDigits_decimal])
    rwa [ofDigits_decimal] at writes
  cases value with
  | ofNat value => simpa [sign, printInt] using number false value fits
  | negSucc value => simpa [sign, printInt, Int.negSucc_eq] using number true (value + 1) fits

theorem printFinite_writes (format : DoubleFormat Double) (negative : Bool) (millionths : Nat) :
    NumberWrites format (double (format.ofDecimal negative millionths (-6)))
      (printFinite negative millionths) := by
  have small : millionths % 1000000 < 1000000 := Nat.mod_lt _ (by decide)
  have writes : NumberWrites format _ (sign negative ++ (decimal (millionths / 1000000) ++
      (point (fraction (millionths % 1000000)) ++ []))) :=
    .double negative (decimal_writes (millionths / 1000000))
      (digits_fraction (millionths % 1000000)) .none (by decide) (.inl (List.cons_ne_nil _ _))
  have length : (fraction (millionths % 1000000)).length = 6 := rfl
  rw [ofDigits_append, ofDigits_decimal, ofDigits_fraction _ small, Nat.div_add_mod', length]
    at writes
  have text : sign negative ++ (decimal (millionths / 1000000) ++
      (point (fraction (millionths % 1000000)) ++ [])) = printFinite negative millionths := by
    simp [sign, point, printFinite, fraction]
  rwa [text] at writes

theorem printDouble_writes {format : DoubleFormat Double} {value : Double}
    (fits : Fits (format.fixed value)) :
    NumberWrites format (rounded format (double value)) (printDouble (format.fixed value)) := by
  cases printed : format.fixed value with
  | finite negative millionths =>
      simp only [rounded, printed]
      exact printFinite_writes format negative millionths
  | infinite negative | nan negative =>
      rw [printed] at fits
      cases fits

theorem blank_tabs (depth : Nat) : Blank (tabs depth) := by
  intro ch member
  rw [List.eq_of_mem_replicate member]
  decide

theorem blank_if (fmt : Bool) {text : List UInt8} (white : Blank text) :
    Blank (if fmt then text else []) := by
  cases fmt with
  | true => exact white
  | false => exact nofun

theorem Blank.append {front back : List UInt8} (first : Blank front) (second : Blank back) :
    Blank (front ++ back) := by
  intro ch member
  exact (List.mem_append.mp member).elim (first ch) (second ch)

theorem blank_nil : Blank [] := nofun

theorem blank_newline : Blank [10] := by
  intro ch member
  rw [List.mem_singleton.mp member]
  decide

theorem blank_space : Blank [32] := by
  intro ch member
  rw [List.mem_singleton.mp member]
  decide

theorem blank_tab : Blank [9] := blank_tabs 1

variable (format : DoubleFormat Double) (fmt : Bool)

/-- A member as the printer sets it: its name behind the tabs, which are white space of what is in
front of it. -/
theorem member_text (depth : Nat) (name : List UInt8) (item : Cjson Double)
    (next : CjsonMembers Double) (rest : List UInt8) :
    printMembers format fmt depth (.cons name item next) ++ rest =
      (if fmt then tabs depth else []) ++ (printStringPtr name ++ ([] ++ byte ':' ::
        ((if fmt then [9] else []) ++ (printValue format fmt depth item ++
          ((match next with
          | .nil => []
          | .cons _ _ _ => [byte ',']) ++ ((if fmt then [10] else []) ++
            (printMembers format fmt depth next ++ rest))))))) := by
  cases next <;> simp [printMembers, List.append_assoc]

mutual

theorem printValue_writes (depth : Nat) : ∀ item : Cjson Double, Printable format item →
    Writes format (rounded format item) (printValue format fmt depth item)
  | null, _ => .null
  | bool value, _ => .bool value
  | int _, fits => .number (printInt_writes format fits)
  | double _, fits => .number (printDouble_writes fits)
  | string _, ends => .string (printStringPtr_writes ends)
  | array .nil, _ => .emptyArray blank_nil
  | array (.cons item next), printable => by
      have items := printItems_writes (depth + 1) (.cons item next) printable nofun
      have whole := Writes.array blank_nil items
      simpa [printValue, rounded] using whole
  | object .nil, _ => by
      have inner := (blank_if fmt blank_newline).append
        (blank_if fmt (blank_tabs depth))
      simpa [printValue, printMembers, rounded, membersRounded] using Writes.emptyObject inner
  | object (.cons name item next), printable => by
      obtain ⟨text, same, writes⟩ := printMembers_writes (depth + 1) (.cons name item next)
        printable nofun (blank_if fmt (blank_tabs depth))
      have lead := (blank_if fmt blank_newline).append
        (blank_if fmt (blank_tabs (depth + 1)))
      have whole := Writes.object lead writes
      rw [List.append_assoc, ← same] at whole
      simpa [printValue, rounded] using whole

theorem printItems_writes (depth : Nat) : ∀ child : CjsonItems Double,
    ItemsPrintable format child → child ≠ .nil →
    ItemsWrites format (itemsRounded format child) (printItems format fmt depth child ++ [byte ']'])
  | .nil, _, nonempty => absurd rfl nonempty
  | .cons item .nil, printable, _ => by
      have writes := printValue_writes depth item printable.1
      simpa [printItems, itemsRounded] using ItemsWrites.last writes blank_nil
  | .cons item (.cons second next), printable, _ => by
      have writes := printValue_writes depth item printable.1
      have others := printItems_writes depth (.cons second next) printable.2 nofun
      have space := blank_if fmt blank_space
      have whole := ItemsWrites.more writes blank_nil space others
      simpa [printItems, itemsRounded] using whole

theorem printMembers_writes (depth : Nat) {blank : List UInt8} : ∀ child : CjsonMembers Double,
    MembersPrintable format child → child ≠ .nil → Blank blank →
    ∃ text, printMembers format fmt depth child ++ (blank ++ [byte '}']) =
        (if fmt then tabs depth else []) ++ text ∧
      MembersWrites format (membersRounded format child) text
  | .nil, _, nonempty, _ => absurd rfl nonempty
  | .cons name item .nil, printable, _, white => by
      have named := printStringPtr_writes printable.1
      have writes := printValue_writes depth item printable.2.1
      have tab := blank_if fmt blank_tab
      have line := blank_if fmt blank_newline
      refine ⟨_, member_text format fmt depth name item .nil _, ?_⟩
      have whole := MembersWrites.last named blank_nil tab writes (line.append white)
      simpa [printMembers, membersRounded] using whole
  | .cons name item (.cons key second next), printable, _, white => by
      have named := printStringPtr_writes printable.1
      have writes := printValue_writes depth item printable.2.1
      have tab := blank_if fmt blank_tab
      have line := blank_if fmt blank_newline
      obtain ⟨text, same, others⟩ :=
        printMembers_writes depth (.cons key second next) printable.2.2 nofun white
      refine ⟨_, member_text format fmt depth name item _ _, ?_⟩
      have whole := MembersWrites.more named blank_nil tab writes blank_nil
        (line.append (blank_if fmt (blank_tabs depth))) others
      rw [same]
      simpa [membersRounded] using whole

end

theorem stops_nil : Stops [] := nofun

theorem parse_printValue (fmt : Bool) {item : Cjson Double} (printable : Printable format item) :
    parse format (printValue format fmt 0 item) = some (rounded format item) := by
  have read := parseValue_text blank_nil (printValue_writes format fmt 0 item printable)
    (stops_nil.behind _)
  rw [List.nil_append, List.append_nil] at read
  rw [parse, read]
  rfl

/-- Printed with or without white space, a value is read back, its doubles rounded. -/
theorem parse_print {item : Cjson Double} (printable : Printable format item) :
    parse format (printUnformatted format item) = some (rounded format item) ∧
      parse format (print format item) = some (rounded format item) :=
  ⟨parse_printValue format false printable, parse_printValue format true printable⟩

/-- An array with a number, a quote and an empty object. -/
theorem parse_print_mixed :
    parse millionths (printUnformatted millionths (.array (.cons (.double (-1500000))
        (.cons (.string [34, 9]) (.cons (.object .nil) .nil))))) =
        some (.array (.cons (.double (-1500000)) (.cons (.string [34, 9])
          (.cons (.object .nil) .nil)))) ∧
      parse millionths (print millionths (.array (.cons (.double (-1500000))
        (.cons (.string [34, 9]) (.cons (.object .nil) .nil))))) =
        some (.array (.cons (.double (-1500000)) (.cons (.string [34, 9])
          (.cons (.object .nil) .nil)))) := by
  have number : Fits (millionths.fixed (-1500000)) := by decide
  have string : ∀ ch ∈ ([34, 9] : List UInt8), ch ≠ 0 := by simp
  exact parse_print millionths ⟨number, string, trivial, trivial⟩

end Cjson

end AutoDrop
