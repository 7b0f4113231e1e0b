import Mathlib.Algebra.Group.Int.Defs
import Mathlib.Algebra.Ring.Nat
import Mathlib.Data.List.TakeWhile

/-!
cJSON: a value from its text and back. A text is the bytes before its NUL. Where the source
reads behind the NUL, or leaves a result undefined, there is no result. Doubles are a
parameter: what `%f` prints of one, the one that a decimal is rounded to, and the text that a
reader gets.
-/

namespace AutoDrop

/-- What `%f` prints, each with whether there is a sign; a finite double is rounded to
millionths. -/
inductive FixedPoint
  | finite (negative : Bool) (millionths : Nat)
  | infinite (negative : Bool)
  | nan (negative : Bool)
deriving DecidableEq, Repr

structure DoubleFormat (Double : Type) where
  fixed : Double → FixedPoint
  -- the sign, the digits, and the power of ten they are scaled by
  ofDecimal : Bool → Nat → Int → Double
  -- what `CJsonObject` reads, with `%e` or `%f`
  shown : Double → List UInt8

mutual

/-- An integer stands for `valueint` read with its `sign`. -/
inductive Cjson (Double : Type)
  | null
  | bool (value : Bool)
  | int (value : Int)
  | double (value : Double)
  | string (valuestring : List UInt8)
  | array (child : CjsonItems Double)
  | object (child : CjsonMembers Double)

inductive CjsonItems (Double : Type)
  | nil
  | cons (item : Cjson Double) (next : CjsonItems Double)

inductive CjsonMembers (Double : Type)
  | nil
  | cons (string : List UInt8) (item : Cjson Double) (next : CjsonMembers Double)

end

namespace Cjson

def byte (c : Char) : UInt8 := UInt8.ofNat c.toNat

def bytes (text : String) : List UInt8 := text.toList.map byte

def isDigit (ch : UInt8) : Bool := Nat.ble 48 ch.toNat && Nat.ble ch.toNat 57

/-! Printing. -/

def decimal (number : Nat) : List UInt8 := (Nat.toDigits 10 number).map byte

def printInt : Int → List UInt8
  | .ofNat value => decimal value
  | .negSucc value => byte '-' :: decimal (value + 1)

/-- Six digits behind the point. -/
def fraction (millionths : Nat) : List UInt8 :=
  [millionths / 100000, millionths / 10000, millionths / 1000, millionths / 100,
    millionths / 10, millionths].map fun digits => UInt8.ofNat (48 + digits % 10)

def printFinite (negative : Bool) (millionths : Nat) : List UInt8 :=
  (if negative then [byte '-'] else []) ++ decimal (millionths / 1000000) ++
    byte '.' :: fraction (millionths % 1000000)

def printDouble : FixedPoint → List UInt8
  | .finite negative millionths => printFinite negative millionths
  | .infinite negative => (if negative then [byte '-'] else []) ++ bytes "inf"
  | .nan negative => (if negative then [byte '-'] else []) ++ bytes "nan"

def hexDigit (value : Nat) : UInt8 := UInt8.ofNat (if value < 10 then 48 + value else 87 + value)

/-- The letter of a short escape. -/
def escapeLetter (token : UInt8) : Option UInt8 :=
  if token = byte '\\' then some (byte '\\')
  else if token = byte '"' then some (byte '"')
  else if token = 8 then some (byte 'b')
  else if token = 12 then some (byte 'f')
  else if token = 10 then some (byte 'n')
  else if token = 13 then some (byte 'r')
  else if token = 9 then some (byte 't')
  else none

def printByte (token : UInt8) : List UInt8 :=
  if Nat.blt 31 token.toNat ∧ token ≠ byte '"' ∧ token ≠ byte '\\' then [token]
  else
    byte '\\' :: match escapeLetter token with
      | some letter => [letter]
      | none => bytes "u00" ++ [hexDigit (token.toNat / 16), hexDigit (token.toNat % 16)]

def printStringPtr (str : List UInt8) : List UInt8 :=
  byte '"' :: (str.flatMap printByte ++ [byte '"'])

def tabs (depth : Nat) : List UInt8 := List.replicate depth 9

variable {Double : Type}

mutual

/-- `fmt` is false for `cJSON_PrintUnformatted`. -/
def printValue (format : DoubleFormat Double) (fmt : Bool) : Nat → Cjson Double → List UInt8
  | _, null => bytes "null"
  | _, bool value => bytes (if value then "true" else "false")
  | _, int value => printInt value
  | _, double value => printDouble (format.fixed value)
  | _, string valuestring => printStringPtr valuestring
  | depth, array child => byte '[' :: (printItems format fmt (depth + 1) child ++ [byte ']'])
  | depth, object child =>
      byte '{' :: ((if fmt then [10] else []) ++ printMembers format fmt (depth + 1) child ++
        (if fmt then tabs depth else []) ++ [byte '}'])

def printItems (format : DoubleFormat Double) (fmt : Bool) : Nat → CjsonItems Double → List UInt8
  | _, .nil => []
  | depth, .cons item next =>
      printValue format fmt depth item ++
        (match next with
        | .nil => []
        | .cons _ _ => byte ',' :: if fmt then [32] else []) ++
        printItems format fmt depth next

def printMembers (format : DoubleFormat Double) (fmt : Bool) :
    Nat → CjsonMembers Double → List UInt8
  | _, .nil => []
  | depth, .cons name item next =>
      (if fmt then tabs depth else []) ++ printStringPtr name ++
        (byte ':' :: if fmt then [9] else []) ++ printValue format fmt depth item ++
        (match next with
        | .nil => []
        | .cons _ _ _ => [byte ',']) ++
        (if fmt then [10] else []) ++
        printMembers format fmt depth next

end

/-! Parsing. -/

def skip (text : List UInt8) : List UInt8 := text.dropWhile fun ch => Nat.ble ch.toNat 32

def ofDigits (number : Nat) (digits : List UInt8) : Nat :=
  digits.foldl (fun n ch => n * 10 + (ch.toNat - 48)) number

/-- The digits in front of the point: one zero, and a number that begins with no zero. -/
def wholePart (text : List UInt8) : Nat × List UInt8 :=
  let text := if text.head? = some (byte '0') then text.tail else text
  match text with
  | ch :: _ =>
      if isDigit ch ∧ ch ≠ byte '0' then
        (ofDigits 0 (text.takeWhile isDigit), text.dropWhile isDigit)
      else (0, text)
  | [] => (0, [])

/-- The number with the digits behind the point, and how many these are. -/
def fractionPart (number : Nat) (text : List UInt8) : Nat × Nat × List UInt8 :=
  match text with
  | point :: ch :: rest =>
      if point = byte '.' ∧ isDigit ch then
        (ofDigits number ((ch :: rest).takeWhile isDigit),
          ((ch :: rest).takeWhile isDigit).length, (ch :: rest).dropWhile isDigit)
      else (number, 0, text)
  | _ => (number, 0, text)

def exponentPart (text : List UInt8) : Int × List UInt8 :=
  match text with
  | ch :: rest =>
      if ch = byte 'e' ∨ ch = byte 'E' then
        let negative := rest.head? = some (byte '-')
        let digits := if rest.head? = some (byte '+') ∨ negative then rest.tail else rest
        let subscale : Int := ofDigits 0 (digits.takeWhile isDigit)
        (if negative then -subscale else subscale, digits.dropWhile isDigit)
      else (0, text)
  | [] => (0, [])

/-- Undefined are an exponent outside a word of 32 bits and an integer outside one of 64. -/
def parseNumber (format : DoubleFormat Double) (num : List UInt8) :
    Option (Cjson Double × List UInt8) :=
  let negative := decide (num.head? = some (byte '-'))
  let whole := wholePart (if negative then num.tail else num)
  let decimals := fractionPart whole.1 whole.2
  let exponent := exponentPart decimals.2.2
  if 2 ^ 31 ≤ exponent.1.natAbs then none
  else if decimals.2.1 = 0 ∧ exponent.1 = 0 then
    if decimals.1 < 2 ^ 63 then
      some (int (if negative then -(decimals.1 : Int) else decimals.1), exponent.2)
    else none
  else
    some (double (format.ofDecimal negative decimals.1 (exponent.1 - decimals.2.1)), exponent.2)

def hexValue (ch : UInt8) : Option Nat :=
  if isDigit ch then some (ch.toNat - 48)
  else if Nat.ble 97 ch.toNat && Nat.ble ch.toNat 102 then some (ch.toNat - 87)
  else if Nat.ble 65 ch.toNat && Nat.ble ch.toNat 70 then some (ch.toNat - 55)
  else none

/-- `sscanf("%4x")` where there are four hexadecimal digits. -/
def hex4 : List UInt8 → Option (Nat × List UInt8)
  | a :: b :: c :: d :: rest =>
      match hexValue a, hexValue b, hexValue c, hexValue d with
      | some a, some b, some c, some d => some (((a * 16 + b) * 16 + c) * 16 + d, rest)
      | _, _, _, _ => none
  | _ => none

/-- The last six bits of a character, as a byte behind the first. -/
def trailing (uc : Nat) : UInt8 := (UInt8.ofNat uc ||| 0x80) &&& 0xBF

def utf8 (uc : Nat) : List UInt8 :=
  if uc < 0x80 then [UInt8.ofNat uc ||| 0x00]
  else if uc < 0x800 then [UInt8.ofNat (uc >>> 6) ||| 0xC0, trailing uc]
  else if uc < 0x10000 then
    [UInt8.ofNat (uc >>> 12) ||| 0xE0, trailing (uc >>> 6), trailing uc]
  else
    [UInt8.ofNat (uc >>> 18) ||| 0xF0, trailing (uc >>> 12), trailing (uc >>> 6), trailing uc]

/-- Behind `\u`. Half a surrogate pair, and NUL, are dropped. -/
def parseUnicode (text : List UInt8) : Option (List UInt8 × List UInt8) :=
  match hex4 text with
  | none => none
  | some (uc, rest) =>
      if 0xDC00 ≤ uc ∧ uc ≤ 0xDFFF ∨ uc = 0 then some ([], rest)
      else if 0xD800 ≤ uc ∧ uc ≤ 0xDBFF then
        match rest with
        | backslash :: u :: second =>
            if backslash ≠ byte '\\' ∨ u ≠ byte 'u' then some ([], rest)
            else
              match hex4 second with
              | none => none
              | some (uc2, rest) =>
                  if uc2 < 0xDC00 ∨ 0xDFFF < uc2 then some ([], rest)
                  else some (utf8 (0x10000 ||| (uc &&& 0x3FF) <<< 10 ||| uc2 &&& 0x3FF), rest)
        | _ => some ([], rest)
      else some (utf8 uc, rest)

/-- What a backslash and the letter stand for. -/
def unescape (letter : UInt8) : UInt8 :=
  if letter = byte 'b' then 8
  else if letter = byte 'f' then 12
  else if letter = byte 'n' then 10
  else if letter = byte 'r' then 13
  else if letter = byte 't' then 9
  else letter

/-- Behind the opening quote. The end of the text ends the string as well. -/
def parseStringBody : Nat → List UInt8 → Option (List UInt8 × List UInt8)
  | 0, _ => none
  | _, [] => some ([], [])
  | fuel + 1, ch :: rest =>
      if ch = byte '"' then some ([], rest)
      else if ch ≠ byte '\\' then
        (parseStringBody fuel rest).map fun tail => (ch :: tail.1, tail.2)
      else
        match rest with
        | [] => none
        | letter :: rest =>
            if letter = byte 'u' then
              (parseUnicode rest).bind fun read =>
                (parseStringBody fuel read.2).map fun tail => (read.1 ++ tail.1, tail.2)
            else (parseStringBody fuel rest).map fun tail => (unescape letter :: tail.1, tail.2)

def parseString (str : List UInt8) : Option (List UInt8 × List UInt8) :=
  match str with
  | ch :: rest => if ch = byte '"' then parseStringBody (rest.length + 1) rest else none
  | [] => none

mutual

def parseValue (format : DoubleFormat Double) :
    Nat → List UInt8 → Option (Cjson Double × List UInt8)
  | 0, _ => none
  | fuel + 1, value =>
      if bytes "null" <+: value then some (null, value.drop 4)
      else if bytes "false" <+: value then some (bool false, value.drop 5)
      else if bytes "true" <+: value then some (bool true, value.drop 4)
      else
        match value with
        | [] => none
        | ch :: rest =>
            if ch = byte '"' then
              (parseString value).map fun read => (string read.1, read.2)
            else if ch = byte '-' ∨ isDigit ch then parseNumber format value
            else if ch = byte '[' then
              if (skip rest).head? = some (byte ']') then some (array .nil, (skip rest).tail)
              else (parseItems format fuel (skip rest)).map fun read => (array read.1, read.2)
            else if ch = byte '{' then
              if (skip rest).head? = some (byte '}') then some (object .nil, (skip rest).tail)
              else (parseMembers format fuel (skip rest)).map fun read => (object read.1, read.2)
            else none

/-- One item, and the further ones behind commas, up to the bracket. -/
def parseItems (format : DoubleFormat Double) :
    Nat → List UInt8 → Option (CjsonItems Double × List UInt8)
  | 0, _ => none
  | fuel + 1, value =>
      (parseValue format fuel value).bind fun item =>
        match skip item.2 with
        | ch :: rest =>
            if ch = byte ',' then
              (parseItems format fuel (skip rest)).map fun next => (.cons item.1 next.1, next.2)
            else if ch = byte ']' then some (.cons item.1 .nil, rest)
            else none
        | [] => none

def parseMembers (format : DoubleFormat Double) :
    Nat → List UInt8 → Option (CjsonMembers Double × List UInt8)
  | 0, _ => none
  | fuel + 1, value =>
      (parseString value).bind fun name =>
        match skip name.2 with
        | colon :: behind =>
            if colon ≠ byte ':' then none
            else
              (parseValue format fuel (skip behind)).bind fun item =>
                match skip item.2 with
                | ch :: rest =>
                    if ch = byte ',' then
                      (parseMembers format fuel (skip rest)).map fun next =>
                        (.cons name.1 item.1 next.1, next.2)
                    else if ch = byte '}' then some (.cons name.1 item.1 .nil, rest)
                    else none
                | [] => none
        | [] => none

end

/-- `cJSON_Parse`, which does not look behind the value. -/
def parse (format : DoubleFormat Double) (value : List UInt8) : Option (Cjson Double) :=
  (parseValue format (value.length + 1) (skip value)).map Prod.fst

def printUnformatted (format : DoubleFormat Double) (item : Cjson Double) : List UInt8 :=
  printValue format false 0 item

def print (format : DoubleFormat Double) (item : Cjson Double) : List UInt8 :=
  printValue format true 0 item

end Cjson

end AutoDrop
