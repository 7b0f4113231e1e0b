import AutoDrop.CliConfig
import AutoDrop.StringSplit

/-!
The HTTP client, from the portions in which a response is received to what it says. A failure that
ends the call is an exception, or reads behind the end of a buffer.
-/

namespace AutoDrop

namespace HttpClient

open StringSplit

def crlf : Chars := ['\r', '\n']

def crlfCrlf : Chars := ['\r', '\n', '\r', '\n']

inductive HttpFailure
  -- no more is received
  | closed
  | unparsed (text : Chars)
  | badNumber
  | outOfRange
  -- the loop has no bound of its own
  | unfinished
deriving DecidableEq

structure HttpResponse where
  protocolVersion : Chars
  code : Chars
  status : Chars
  responseHeader : List (Chars × Chars)
  contentLength : Int
  isChunked : Bool
  body : Chars
deriving DecidableEq

/-! The strings. -/

/-- The text between the first `num` flags and behind them. -/
def pieces (flag : Chars) : Nat → Chars → List Chars
  | 0, text => [text]
  | num + 1, text =>
      match find text flag 0 with
      | none => [text]
      | some stop => text.take stop :: pieces flag num (text.drop (stop + flag.length))

/-- `Split`, which leaves empty pieces out where it cuts. -/
def split (text flag : Chars) (num : Nat) : List Chars :=
  if find text flag 0 = none then [text]
  else (pieces flag num text).filter fun piece => !piece.isEmpty

def includeSym (sym : Char) : Bool := sym = ' ' || sym = '\n' || sym = '\r'

def trim (text : Chars) : Chars :=
  if text.dropWhile includeSym = [] then text
  else ((text.dropWhile includeSym).reverse.dropWhile includeSym).reverse

def toLowerCase (text : Chars) : Chars := text.map Char.toLower

/-- `Header::Get`: the last one counts. -/
def get (header : List (Chars × Chars)) (key : Chars) : Chars :=
  match header.reverse.find? fun field => field.1 == toLowerCase key with
  | some field => field.2
  | none => []

def hexDigit (c : Char) : Option Nat :=
  if c.isDigit then some (c.toNat - 48)
  else if 97 ≤ c.toNat ∧ c.toNat ≤ 102 then some (c.toNat - 87)
  else if 65 ≤ c.toNat ∧ c.toNat ≤ 70 then some (c.toNat - 55)
  else none

def isHexDigit (c : Char) : Bool := (hexDigit c).isSome

def ofHexDigits (digits : Chars) : Nat :=
  digits.foldl (fun value c => 16 * value + (hexDigit c).getD 0) 0

def dropHexPrefix : Chars → Chars
  | '0' :: x :: digit :: rest =>
      if (x = 'x' || x = 'X') && isHexDigit digit then digit :: rest else '0' :: x :: digit :: rest
  | text => text

def hexDigits (text : Chars) : Option Nat :=
  let digits := (dropHexPrefix text).takeWhile isHexDigit
  if digits = [] then none else some (ofHexDigits digits)

/-- `stoi(text, nullptr, 16)`. -/
def stoiHex (text : Chars) : Option Int :=
  let number : Option Int :=
    match text.dropWhile isSpace with
    | '-' :: digits => (hexDigits digits).map fun magnitude : Nat => -(magnitude : Int)
    | '+' :: digits => (hexDigits digits).map fun magnitude : Nat => (magnitude : Int)
    | digits => (hexDigits digits).map fun magnitude : Nat => (magnitude : Int)
  number.filter fun value => -2 ^ 31 ≤ value ∧ value < 2 ^ 31

/-! The response. -/

/-- Reads until the header is there. -/
def readHeader : Chars → List Chars → Option (Chars × Nat × List Chars)
  | _, [] => none
  | source, read :: rest =>
      match find (source ++ read) crlfCrlf 0 with
      | some stop => some (source ++ read, stop + 4, rest)
      | none => readHeader (source ++ read) rest

def readField (line : Chars) : Option (Chars × Chars) :=
  match split line [':'] 1 with
  | [key, value] => some (toLowerCase (trim key), trim value)
  | _ => none

/-- Of a negative length nothing is ever received. -/
def readLength (header : List (Chars × Chars)) : Except HttpFailure Int :=
  let contentLen := get header "content-length".toList
  if contentLen = [] then .ok 0
  else
    match stoi contentLen with
    | none => .error .badNumber
    | some contentLength => .ok contentLength

def parseHeader (source : Chars) (bodyStartPos : Nat) : Except HttpFailure HttpResponse :=
  match split (source.take bodyStartPos) crlf source.length with
  | [] => .ok ⟨[], [], [], [], 0, false, []⟩
  | firstLine :: lines =>
      match split firstLine [' '] 2 with
      | [protocolVersion, code, status] =>
          let header := lines.filterMap readField
          (readLength header).map fun contentLength =>
            { protocolVersion := trim protocolVersion
              code := trim code
              status := trim status
              responseHeader := header
              contentLength := contentLength
              isChunked := get header "Transfer-Encoding".toList == "chunked".toList
              body := source.drop bodyStartPos }
      | _ => .error (.unparsed ("解析错误\n".toList ++ source))

/-- From the end of the body backwards: zeros, and an end of line before them. -/
def zerosBehindLine : Chars → Bool
  | '0' :: '\n' :: '\r' :: _ => true
  | '0' :: rest => zerosBehindLine rest
  | _ => false

/-- The chunks seem to have ended. -/
def chunkedEnd (body : Chars) : Bool :=
  Nat.ble 7 body.length && body.drop (body.length - 4) == crlfCrlf &&
    zerosBehindLine (body.take (body.length - 4)).reverse

def checkEnd (response : HttpResponse) (body : Chars) : Bool :=
  if response.isChunked then chunkedEnd body
  else decide ((body.length : Int) = response.contentLength)

def readBody (done : Chars → Bool) : Chars → List Chars → Option Chars
  | body, reads =>
      if done body then some body
      else
        match reads with
        | [] => none
        | read :: rest => readBody done (body ++ read) rest

/-- The size of a chunk stands between `start` and `right`. -/
def chunkLoop (sc : Chars) : Nat → Nat → Nat → Except HttpFailure Chars
  | 0, _, _ => .error .unfinished
  | fuel + 1, start, right =>
      match stoiHex ((sc.take right).drop start) with
      | none => .error .badNumber
      | some count =>
          if count = 0 then .ok []
          else if count < 0 ∨ (sc.length : Int) < right + 2 + count then .error .outOfRange
          else
            let chunk := (sc.drop (right + 2)).take count.toNat
            match find sc crlf (right + 2 + count.toNat) with
            | none => .ok chunk
            | some left =>
                match find sc crlf (left + 1) with
                | none => .ok chunk
                | some right => (chunkLoop sc fuel (left + 2) right).map fun rest => chunk ++ rest

def parseBody (response : HttpResponse) (body : Chars) : Except HttpFailure HttpResponse :=
  if body = [] || !response.isChunked then .ok { response with body := body }
  else
    match find body crlf 0 with
    | none => .ok { response with body := [], contentLength := 0 }
    | some right =>
        (chunkLoop body (body.length + 1) 0 right).map fun whole =>
          { response with body := whole, contentLength := whole.length }

/-- `ReadResponse`, on what each `recv` brings. -/
def readResponse (reads : List Chars) : Except HttpFailure HttpResponse :=
  match readHeader [] reads with
  | none => .error .closed
  | some (source, bodyStartPos, rest) =>
      match parseHeader source bodyStartPos with
      | .error failure => .error failure
      | .ok response =>
          match readBody (checkEnd response) response.body rest with
          | none => .error .closed
          | some body => parseBody response body

end HttpClient

end AutoDrop
