import AutoDrop.HttpReading
import Mathlib.Data.List.TakeWhile

/-!
Chunked bodies. Such a body can seem to have ended too early, where a portion ends.
-/

namespace AutoDrop

namespace HttpClient

open StringSplit

/-- A chunk as a server writes it. -/
structure HttpChunk where
  size : Chars
  data : Chars
  some : data ≠ []
  written : size ≠ []
  digits : size.all isHexDigit = true
  counted : ofHexDigits size = data.length
  fits : data.length < 2 ^ 31

def HttpChunk.text (chunk : HttpChunk) : Chars := chunk.size ++ crlf ++ (chunk.data ++ crlf)

def chunkText (chunks : List HttpChunk) : Chars := chunks.flatMap HttpChunk.text

def chunkData (chunks : List HttpChunk) : Chars := chunks.flatMap HttpChunk.data

/-- The chunk of size zero that ends the body, with so many zeros more. -/
def lastChunk (zeros : Nat) : Chars := List.replicate (zeros + 1) '0' ++ crlf ++ crlf

theorem le_of_isHexDigit {c : Char} (digit : isHexDigit c = true) : 48 ≤ c.toNat := by
  by_cases decimal : c.isDigit = true
  · simp only [Char.isDigit, Bool.and_eq_true, decide_eq_true_eq] at decimal
    exact UInt32.le_iff_toNat_le.mp decimal.1
  · rw [isHexDigit, hexDigit, if_neg decimal] at digit
    split at digit
    · omega
    split at digit
    · omega
    · cases digit

theorem not_isSpace_of_isHexDigit {c : Char} (digit : isHexDigit c = true) : isSpace c = false := by
  have high := le_of_isHexDigit digit
  have differs (other : Char) (low : other.toNat < 48) : c ≠ other := by
    rintro rfl
    omega
  have tab : c.toNat ≠ 11 ∧ c.toNat ≠ 12 := by omega
  simp [isSpace, differs ' ' (by decide), differs '\t' (by decide), differs '\n' (by decide),
    differs '\r' (by decide), tab]

/-- The two characters that `stoi` takes for a prefix are not both digits. -/
theorem dropHexPrefix_of_digits {size : Chars} (digits : ∀ c ∈ size, isHexDigit c = true) :
    dropHexPrefix size = size := by
  unfold dropHexPrefix
  split
  · next x digit rest =>
    have second : isHexDigit x = true := digits x (by simp)
    rw [if_neg]
    rintro both
    simp only [Bool.and_eq_true, Bool.or_eq_true, decide_eq_true_eq] at both
    obtain ⟨rfl | rfl, -⟩ := both
    all_goals exact absurd second (by decide)
  · rfl

theorem hexDigits_of_digits {size : Chars} (written : size ≠ [])
    (digits : ∀ c ∈ size, isHexDigit c = true) : hexDigits size = some (ofHexDigits size) := by
  have whole : size.takeWhile isHexDigit = size := List.takeWhile_eq_self_iff.mpr digits
  simp only [hexDigits, dropHexPrefix_of_digits digits, whole, if_neg written]

theorem stoiHex_of_digits {size : Chars} (written : size ≠ [])
    (digits : ∀ c ∈ size, isHexDigit c = true) (fits : ofHexDigits size < 2 ^ 31) :
    stoiHex size = some (ofHexDigits size : Int) := by
  have read := hexDigits_of_digits written digits
  obtain ⟨first, rest, rfl⟩ := List.exists_cons_of_ne_nil written
  have head : isHexDigit first = true := digits first List.mem_cons_self
  have dark : (first :: rest).dropWhile isSpace = first :: rest :=
    List.dropWhile_cons_of_neg (by simp [not_isSpace_of_isHexDigit head])
  have high := le_of_isHexDigit head
  rw [stoiHex, dark]
  split
  · next same =>
    obtain ⟨rfl, -⟩ := List.cons.inj same
    exact absurd high (by decide)
  · next same =>
    obtain ⟨rfl, -⟩ := List.cons.inj same
    exact absurd high (by decide)
  · rw [read, Option.map_some, Option.filter_some, if_pos]
    simp only [decide_eq_true_eq]
    omega

theorem ofHexDigits_zeros (zeros : Nat) : ofHexDigits (List.replicate zeros '0') = 0 := by
  induction zeros with
  | zero => rfl
  | succ zeros ih =>
    rw [ofHexDigits] at ih ⊢
    rw [List.replicate_succ, List.foldl_cons]
    exact ih

theorem stoiHex_zeros (zeros : Nat) : stoiHex (List.replicate (zeros + 1) '0') = some 0 := by
  have digits : ∀ c ∈ List.replicate (zeros + 1) '0', isHexDigit c = true := by
    intro c member
    rw [List.eq_of_mem_replicate member]
    decide
  have written : List.replicate (zeros + 1) '0' ≠ [] := by simp
  have fits : ofHexDigits (List.replicate (zeros + 1) '0') < 2 ^ 31 := by
    rw [ofHexDigits_zeros]
    decide
  rw [stoiHex_of_digits written digits fits, ofHexDigits_zeros]
  rfl

theorem inline_of_digits {size : Chars} (digits : ∀ c ∈ size, isHexDigit c = true) :
    '\r' ∉ size := by
  intro member
  exact absurd (digits _ member) (by decide)

theorem inline_zeros (zeros : Nat) : '\r' ∉ List.replicate zeros '0' := fun member =>
  absurd (List.eq_of_mem_replicate member) (by decide)

theorem HttpChunk.stoiHex_size (chunk : HttpChunk) :
    stoiHex chunk.size = Option.some (chunk.data.length : Int) := by
  have fits := chunk.fits
  rw [← chunk.counted] at fits ⊢
  exact stoiHex_of_digits chunk.written (List.all_eq_true.mp chunk.digits) fits

/-- One turn of the loop, at a chunk with `rest` behind its size. -/
theorem chunkLoop_turn (chunk : HttpChunk) (before rest : Chars) (fuel : Nat) :
    chunkLoop (before ++ (chunk.size ++ (crlf ++ rest))) (fuel + 1) before.length
        (before.length + chunk.size.length) =
      if rest.length < chunk.data.length then .error .outOfRange
      else
        match find rest crlf chunk.data.length with
        | none => .ok (rest.take chunk.data.length)
        | some left =>
            match find rest crlf (left + 1) with
            | none => .ok (rest.take chunk.data.length)
            | some right =>
                (chunkLoop (before ++ (chunk.size ++ (crlf ++ rest))) fuel
                  (before.length + chunk.size.length + 2 + left + 2)
                  (before.length + chunk.size.length + 2 + right)).map fun later =>
                    rest.take chunk.data.length ++ later := by
  have size : ((before ++ (chunk.size ++ (crlf ++ rest))).take
      (before.length + chunk.size.length)).drop before.length = chunk.size := by
    rw [List.take_length_add_append, List.drop_left, List.take_left]
  have joined : before ++ (chunk.size ++ (crlf ++ rest)) =
      (before ++ chunk.size ++ crlf) ++ rest := by simp
  have length : (before ++ chunk.size ++ crlf).length =
      before.length + chunk.size.length + 2 := by simp [crlf, Nat.add_assoc]
  have positive : (chunk.data.length : Int) ≠ 0 := by
    have some := List.length_pos_iff.mpr chunk.some
    omega
  have search (i : Nat) : find (before ++ (chunk.size ++ (crlf ++ rest))) crlf
      (before.length + chunk.size.length + 2 + i) =
        (find rest crlf i).map fun stop => before.length + chunk.size.length + 2 + stop := by
    rw [joined, ← length, find_append]
  have dropped : (before ++ (chunk.size ++ (crlf ++ rest))).drop
      (before.length + chunk.size.length + 2) = rest := by
    rw [joined, ← length, List.drop_left]
  rw [chunkLoop, size, chunk.stoiHex_size]
  simp only [if_neg positive, Int.toNat_natCast, search, dropped]
  have total : (before ++ (chunk.size ++ (crlf ++ rest))).length =
      before.length + chunk.size.length + 2 + rest.length := by
    rw [joined, List.length_append, length]
  by_cases short : rest.length < chunk.data.length
  · rw [if_pos short, if_pos]
    rw [total]
    omega
  · rw [if_neg short, if_neg]
    · cases found : find rest crlf chunk.data.length with
      | none => rfl
      | some left =>
        have next := search (left + 1)
        rw [← Nat.add_assoc] at next
        simp only [Option.map_some, next]
        cases find rest crlf (left + 1) <;> rfl
    · rw [total]
      omega

/-- What stands in front of the next end of line. -/
def nextSize (zeros : Nat) : List HttpChunk → Chars
  | [] => List.replicate (zeros + 1) '0'
  | chunk :: _ => chunk.size

theorem find_nextSize (zeros : Nat) (chunks : List HttpChunk) :
    find (chunkText chunks ++ lastChunk zeros) crlf 0 = some (nextSize zeros chunks).length := by
  cases chunks with
  | nil => exact find_line (inline_zeros (zeros + 1)) _
  | cons chunk rest =>
    have joined : chunkText (chunk :: rest) ++ lastChunk zeros =
        chunk.size ++ crlf ++ (chunk.data ++ crlf ++ (chunkText rest ++ lastChunk zeros)) := by
      simp [chunkText, HttpChunk.text]
    rw [joined]
    exact find_line (inline_of_digits (List.all_eq_true.mp chunk.digits)) _

theorem length_chunkText_cons (chunk : HttpChunk) (rest : List HttpChunk) :
    (chunkText (chunk :: rest)).length =
      chunk.size.length + 2 + chunk.data.length + 2 + (chunkText rest).length := by
  simp only [chunkText, List.flatMap_cons, HttpChunk.text, List.length_append, crlf,
    List.length_cons, List.length_nil]
  omega

theorem length_nextSize_lt (zeros : Nat) {rest : List HttpChunk} (some : rest ≠ []) :
    (nextSize zeros rest).length + 4 < (chunkText rest).length := by
  obtain ⟨chunk, rest, rfl⟩ := List.exists_cons_of_ne_nil some
  have positive := List.length_pos_iff.mpr chunk.some
  rw [length_chunkText_cons, nextSize]
  omega

/-- The end of the line of the next size, where the first `k` characters hold it. -/
theorem find_behind_data (zeros : Nat) (chunk : HttpChunk) (rest : List HttpChunk) (k : Nat) :
    find (chunk.data ++ (crlf ++ (chunkText rest ++ lastChunk zeros).take k)) crlf
        (chunk.data.length + 1) =
      if (nextSize zeros rest).length + 2 ≤ k then
        Option.some (chunk.data.length + 2 + (nextSize zeros rest).length)
      else none := by
  have size : crlf.length = 2 := rfl
  have behind : chunk.data.length + 2 = (chunk.data ++ crlf).length := by simp [crlf]
  rw [find_skip (chunk.data.length + 2) (Nat.le_succ _)]
  · rw [← List.append_assoc, behind]
    have later : find ((chunk.data ++ crlf) ++ (chunkText rest ++ lastChunk zeros).take k) crlf
        ((chunk.data ++ crlf).length + 0) = _ := find_append (chunk.data ++ crlf)
    rw [find_take (find_nextSize zeros rest) k, size, Nat.add_zero] at later
    rw [later]
    split <;> rfl
  · intro i low high found
    obtain rfl : i = chunk.data.length + 1 := by omega
    rw [List.drop_length_add_append] at found
    simp [crlf, List.cons_prefix_cons] at found

/-- What the loop finds behind the data of a chunk, in the first `k` characters of the rest. -/
theorem chunkLoop_data (zeros : Nat) (chunk : HttpChunk) (rest : List HttpChunk) (before : Chars)
    (k fuel : Nat) :
    chunkLoop (before ++ (chunk.size ++ (crlf ++ (chunk.data ++
        (crlf ++ (chunkText rest ++ lastChunk zeros)).take k)))) (fuel + 1) before.length
        (before.length + chunk.size.length) =
      if (nextSize zeros rest).length + 4 ≤ k then
        (chunkLoop ((before ++ chunk.text) ++ (chunkText rest ++ lastChunk zeros).take (k - 2)) fuel
          (before ++ chunk.text).length
          ((before ++ chunk.text).length + (nextSize zeros rest).length)).map fun later =>
            chunk.data ++ later
      else .ok chunk.data := by
  have enough : ¬(chunk.data ++ (crlf ++ (chunkText rest ++ lastChunk zeros)).take k).length <
      chunk.data.length := by
    rw [List.length_append]
    omega
  have here : find ([] ++ crlf ++ (chunkText rest ++ lastChunk zeros)) crlf 0 = Option.some 0 :=
    find_line (by simp) _
  rw [List.nil_append] at here
  have left : find (chunk.data ++ (crlf ++ (chunkText rest ++ lastChunk zeros)).take k) crlf
      (chunk.data.length + 0) = _ := find_append chunk.data
  have size : crlf.length = 2 := rfl
  rw [find_take here k, Nat.add_zero, size, Nat.zero_add] at left
  rw [chunkLoop_turn, if_neg enough, left, List.take_left]
  by_cases ended : 2 ≤ k
  · obtain ⟨k, rfl⟩ := Nat.exists_eq_add_of_le ended
    have cut : (crlf ++ (chunkText rest ++ lastChunk zeros)).take (2 + k) =
        crlf ++ (chunkText rest ++ lastChunk zeros).take k := by
      rw [← size, List.take_length_add_append]
    rw [if_pos ended, cut]
    simp only [Option.map_some, Nat.add_zero, find_behind_data]
    by_cases more : (nextSize zeros rest).length + 2 ≤ k
    · rw [if_pos more, if_pos (by omega)]
      have joined : before ++ (chunk.size ++ (crlf ++ (chunk.data ++ (crlf ++
          (chunkText rest ++ lastChunk zeros).take k)))) =
            (before ++ chunk.text) ++ (chunkText rest ++ lastChunk zeros).take k := by
        simp [HttpChunk.text]
      have length : (before ++ chunk.text).length =
          before.length + chunk.size.length + 2 + chunk.data.length + 2 := by
        simp only [HttpChunk.text, List.length_append, size]
        omega
      have total : (before ++ chunk.text).length + (nextSize zeros rest).length =
          before.length + chunk.size.length + 2 +
            (chunk.data.length + 2 + (nextSize zeros rest).length) := by
        rw [length]
        omega
      rw [Nat.add_sub_cancel_left, joined, total, length]
    · rw [if_neg more, if_neg (by omega)]
  · rw [if_neg ended, if_neg (by omega)]
    rfl

theorem map_eq_ok {found : Except HttpFailure Chars} {data whole : Chars} :
    (found.map fun later => data ++ later) = .ok whole ↔
      ∃ later, found = .ok later ∧ data ++ later = whole := by
  cases found <;> simp [Except.map]

theorem chunkData_cons (chunk : HttpChunk) (rest : List HttpChunk) :
    chunkData (chunk :: rest) = chunk.data ++ chunkData rest := List.flatMap_cons

theorem length_lt_chunkData (chunk : HttpChunk) {rest : List HttpChunk} (some : rest ≠ []) :
    chunk.data.length < (chunkData (chunk :: rest)).length := by
  obtain ⟨next, rest, rfl⟩ := List.exists_cons_of_ne_nil some
  have positive := List.length_pos_iff.mpr next.some
  rw [chunkData_cons, chunkData_cons, List.length_append, List.length_append]
  omega

theorem take_chunkText_cons (zeros : Nat) (chunk : HttpChunk) (rest : List HttpChunk) (k : Nat) :
    (chunkText (chunk :: rest) ++ lastChunk zeros).take (chunk.size.length + 2 + k) =
      chunk.size ++ (crlf ++
        (chunk.data ++ (crlf ++ (chunkText rest ++ lastChunk zeros))).take k) := by
  have split : chunkText (chunk :: rest) ++ lastChunk zeros =
      chunk.size ++ (crlf ++ (chunk.data ++ (crlf ++ (chunkText rest ++ lastChunk zeros)))) := by
    simp [chunkText, HttpChunk.text]
  have size : crlf.length = 2 := rfl
  rw [split, Nat.add_assoc, List.take_length_add_append, ← size, List.take_length_add_append]

/-- The loop on the first `k` characters of a chunked body: where they hold all data it returns
them, and else, if it returns, less. -/
theorem chunkLoop_take (zeros : Nat) {chunks : List HttpChunk} {before : Chars} {k fuel : Nat}
    (sized : (nextSize zeros chunks).length + 2 ≤ k) (room : k < fuel) :
    ((chunkText chunks).length ≤ k + 2 →
      chunkLoop (before ++ (chunkText chunks ++ lastChunk zeros).take k) fuel before.length
        (before.length + (nextSize zeros chunks).length) = .ok (chunkData chunks)) ∧
    (k + 2 < (chunkText chunks).length → ∀ whole,
      chunkLoop (before ++ (chunkText chunks ++ lastChunk zeros).take k) fuel before.length
        (before.length + (nextSize zeros chunks).length) = .ok whole →
          whole.length < (chunkData chunks).length) := by
  obtain ⟨fuel, rfl⟩ := Nat.exists_eq_succ_of_ne_zero (Nat.ne_zero_of_lt room)
  induction chunks generalizing before k fuel with
  | nil =>
    refine ⟨fun _ => ?_, fun short => absurd short (by simp [chunkText])⟩
    rw [nextSize] at sized ⊢
    obtain ⟨k, rfl⟩ := Nat.exists_eq_add_of_le (Nat.le_of_add_right_le sized)
    have cut : (chunkText [] ++ lastChunk zeros).take
        ((List.replicate (zeros + 1) '0').length + k) =
          List.replicate (zeros + 1) '0' ++ (crlf ++ crlf).take k := by
      rw [chunkText, List.flatMap_nil, List.nil_append, lastChunk, List.append_assoc,
        List.take_length_add_append]
    rw [cut, chunkLoop, List.take_length_add_append, List.drop_left, List.take_left,
      stoiHex_zeros]
    rfl
  | cons chunk rest ih =>
    rw [nextSize] at sized ⊢
    obtain ⟨k, rfl⟩ := Nat.exists_eq_add_of_le sized
    rw [take_chunkText_cons, length_chunkText_cons, chunkData_cons]
    by_cases short : k < chunk.data.length
    · have part : ((chunk.data ++ (crlf ++ (chunkText rest ++ lastChunk zeros))).take k).length <
          chunk.data.length := by
        rw [List.length_take]
        omega
      rw [chunkLoop_turn, if_pos part]
      exact ⟨fun all => by omega, fun _ _ => nofun⟩
    · obtain ⟨k, rfl⟩ := Nat.exists_eq_add_of_le (Nat.not_lt.mp short)
      rw [List.take_length_add_append, chunkLoop_data]
      by_cases more : (nextSize zeros rest).length + 4 ≤ k
      · rw [if_pos more]
        have sized : (nextSize zeros rest).length + 2 ≤ k - 2 := by omega
        have room : k - 2 < fuel := by omega
        obtain ⟨fuel, rfl⟩ := Nat.exists_eq_succ_of_ne_zero (Nat.ne_zero_of_lt room)
        obtain ⟨whole, part⟩ := @ih (before ++ chunk.text) (k - 2) sized fuel room
        refine ⟨fun all => ?_, fun short result ended => ?_⟩
        · rw [whole (by omega)]
          rfl
        · obtain ⟨later, behind, rfl⟩ := map_eq_ok.mp ended
          have less := part (by omega) later behind
          rw [List.length_append, List.length_append]
          omega
      · rw [if_neg more]
        refine ⟨fun all => ?_, fun short result ended => ?_⟩
        · have none : rest = [] := by
            by_contra some
            have long := length_nextSize_lt zeros some
            omega
          rw [none]
          simp [chunkData]
        · have some : rest ≠ [] := by
            rintro rfl
            simp only [chunkText, List.flatMap_nil, List.length_nil] at short
            omega
          rw [← Except.ok.inj ended, ← chunkData_cons]
          exact length_lt_chunkData chunk some

theorem zerosBehindLine_of_zeros (zeros : Nat) (front : Chars) :
    zerosBehindLine (List.replicate (zeros + 1) '0' ++ '\n' :: '\r' :: front) = true := by
  induction zeros with
  | zero => rfl
  | succ zeros ih =>
    rw [List.replicate_succ, List.cons_append]
    rw [List.replicate_succ, List.cons_append] at ih ⊢
    exact ih

theorem chunkedEnd_of_last (zeros : Nat) {front : Chars} (some : 0 < front.length) :
    chunkedEnd (front ++ crlf ++ lastChunk zeros) = true := by
  have joined : front ++ crlf ++ lastChunk zeros =
      (front ++ crlf ++ List.replicate (zeros + 1) '0') ++ crlfCrlf := by
    simp [lastChunk, crlf, crlfCrlf]
  have length : (front ++ crlf ++ lastChunk zeros).length - 4 =
      (front ++ crlf ++ List.replicate (zeros + 1) '0').length := by
    rw [joined, List.length_append]
    simp [crlfCrlf]
  have long : 7 ≤ (front ++ crlf ++ lastChunk zeros).length := by
    simp only [lastChunk, crlf, List.length_append, List.length_cons, List.length_nil,
      List.length_replicate]
    omega
  have reversed : (front ++ crlf ++ List.replicate (zeros + 1) '0').reverse =
      List.replicate (zeros + 1) '0' ++ '\n' :: '\r' :: front.reverse := by
    rw [List.reverse_append, List.reverse_append, List.reverse_replicate]
    rfl
  rw [chunkedEnd, Nat.ble_eq_true_of_le long, length, joined, List.drop_left, List.take_left,
    reversed, zerosBehindLine_of_zeros]
  rfl

theorem chunkText_ends {chunks : List HttpChunk} (some : chunks ≠ []) :
    ∃ front : Chars, 0 < front.length ∧ chunkText chunks = front ++ crlf := by
  obtain ⟨before, last, rfl⟩ := List.eq_nil_or_concat chunks |>.resolve_left some
  refine ⟨chunkText before ++ (last.size ++ crlf ++ last.data), ?_, ?_⟩
  · have positive := List.length_pos_iff.mpr last.some
    simp only [List.length_append]
    omega
  · simp [chunkText, HttpChunk.text]

theorem parseBody_line {response : HttpResponse} {body : Chars} {right : Nat}
    (chunked : response.isChunked = true) (found : find body crlf 0 = some right) :
    parseBody response body = (chunkLoop body (body.length + 1) 0 right).map fun whole =>
      { response with body := whole, contentLength := whole.length } := by
  have filled : body ≠ [] := by
    rintro rfl
    exact nomatch found
  simp only [parseBody, chunked, found, filled, decide_false, Bool.not_true, Bool.or_self,
    Bool.false_eq_true, if_false]

theorem parseBody_noLine {response result : HttpResponse} {body : Chars}
    (chunked : response.isChunked = true) (missing : find body crlf 0 = none)
    (ended : parseBody response body = .ok result) : result.body = [] := by
  rw [parseBody, missing] at ended
  split at ended
  · next empty =>
    cases ended
    simpa [chunked] using empty
  · cases ended
    rfl

/-- What is made of the first `k` characters of a chunked body. -/
theorem parseBody_take {head : HttpHead} {declared : Int} {part : Chars} (zeros : Nat)
    {chunks : List HttpChunk} {k : Nat}
    (chunked : (head.response declared part).isChunked = true) (some : chunks ≠ [])
    (within : k ≤ (chunkText chunks ++ lastChunk zeros).length) :
    ((chunkText chunks).length ≤ k + 2 →
      parseBody (head.response declared part) ((chunkText chunks ++ lastChunk zeros).take k) =
        .ok (head.response (chunkData chunks).length (chunkData chunks))) ∧
    (k + 2 < (chunkText chunks).length → ∀ response,
      parseBody (head.response declared part) ((chunkText chunks ++ lastChunk zeros).take k) =
        .ok response → response.body.length < (chunkData chunks).length) := by
  have long := length_nextSize_lt zeros some
  have data : 0 < (chunkData chunks).length := by
    obtain ⟨chunk, rest, rfl⟩ := List.exists_cons_of_ne_nil some
    have positive := List.length_pos_iff.mpr chunk.some
    rw [chunkData_cons, List.length_append]
    omega
  have length : ((chunkText chunks ++ lastChunk zeros).take k).length = k := by
    rw [List.length_take, Nat.min_eq_left within]
  have found := find_take (find_nextSize zeros chunks) k
  have size : crlf.length = 2 := rfl
  rw [size] at found
  by_cases sized : (nextSize zeros chunks).length + 2 ≤ k
  · rw [if_pos sized] at found
    obtain ⟨whole, less⟩ := @chunkLoop_take zeros chunks [] k (k + 1) sized (Nat.lt_succ_self k)
    simp only [List.nil_append, List.length_nil, Nat.zero_add] at whole less
    rw [parseBody_line chunked found, length]
    refine ⟨fun all => ?_, fun short response ended => ?_⟩
    · rw [whole all]
      rfl
    · cases result : chunkLoop ((chunkText chunks ++ lastChunk zeros).take k) (k + 1) 0
          (nextSize zeros chunks).length with
      | error failure =>
        rw [result] at ended
        cases ended
      | ok read =>
        rw [result] at ended
        cases ended
        exact less short read result
  · rw [if_neg sized] at found
    refine ⟨fun all => by omega, fun short response ended => ?_⟩
    rw [parseBody_noLine chunked found ended]
    exact data

/-- A portion ends where the chunks seem to end, before all their data is there. -/
def EndsEarly (head : HttpHead) (chunks : List HttpChunk) (reads : List Chars) : Prop :=
  ∃ k, ((reads.take k).flatten.drop head.text.length).length + 2 < (chunkText chunks).length ∧
    chunkedEnd ((reads.take k).flatten.drop head.text.length) = true

theorem chunked_response_read (head : HttpHead) {chunks : List HttpChunk} {reads : List Chars}
    {declared : Int} (zeros : Nat) (length : readLength head.header = .ok declared)
    (chunked : get head.header "Transfer-Encoding".toList = "chunked".toList) (some : chunks ≠ [])
    (parts : reads.flatten = head.text ++ (chunkText chunks ++ lastChunk zeros)) :
    readResponse reads = .ok (head.response (chunkData chunks).length (chunkData chunks)) ↔
      ¬EndsEarly head chunks reads := by
  obtain ⟨part, k, whole, received, reached, response⟩ := readResponse_text head length parts
  have isChunked : (head.response declared part).isChunked = true := beq_iff_eq.mpr chunked
  have later (j : Nat) : (reads.take (k + j)).flatten.drop head.text.length =
      part ++ ((reads.drop k).take j).flatten := by
    rw [List.take_add, List.flatten_append, received, List.append_assoc, List.drop_left]
  obtain ⟨front, positive, ends⟩ := chunkText_ends some
  have done : checkEnd (head.response declared part) (part ++ (reads.drop k).flatten) = true := by
    rw [checkEnd, isChunked, if_pos rfl, whole, ends]
    exact chunkedEnd_of_last zeros positive
  obtain ⟨j, read, ended, first⟩ := readBody_first done
  generalize stopped : part ++ ((reads.drop k).take j).flatten = body at read ended
  have front : body <+: chunkText chunks ++ lastChunk zeros := by
    rw [← stopped, ← whole]
    exact (List.prefix_append_right_inj part).mpr (List.take_prefix j _).flatten
  obtain ⟨complete, less⟩ :=
    @parseBody_take head declared part zeros chunks body.length isChunked some front.length_le
  rw [← List.prefix_iff_eq_take.mp front] at complete less
  rw [response, read]
  simp only
  constructor
  · rintro result ⟨i, early, seemed⟩
    have behind : k ≤ i := by
      apply reached
      by_contra short
      rw [List.drop_eq_nil_of_le (Nat.le_of_not_le short)] at seemed
      cases seemed
    obtain ⟨i, rfl⟩ := Nat.exists_eq_add_of_le behind
    rw [later] at early seemed
    have sooner : j ≤ i := first i (by rw [checkEnd, isChunked, if_pos rfl]; exact seemed)
    have shorter : body.length ≤ (part ++ ((reads.drop k).take i).flatten).length := by
      rw [← stopped]
      have taken : (reads.drop k).take j <+: (reads.drop k).take i :=
        (List.take_prefix_take_left sooner)
      exact ((List.prefix_append_right_inj part).mpr taken.flatten).length_le
    exact Nat.lt_irrefl _ (less (by omega) _ result)
  · intro calm
    apply complete
    by_contra early
    refine calm ⟨k + j, ?_, ?_⟩
    · rw [later, stopped]
      omega
    · rw [later, stopped]
      rwa [checkEnd, isChunked, if_pos rfl] at ended

theorem readBody_never {done : Chars → Bool} {part : Chars} {reads : List Chars}
    (never : ∀ body, body <+: part ++ reads.flatten → done body = false) :
    readBody done part reads = none := by
  induction reads generalizing part with
  | nil =>
    have now := never part (List.prefix_append _ _)
    simp [readBody, now]
  | cons read rest ih =>
    have now := never part (List.prefix_append _ _)
    rw [readBody, now]
    apply ih
    intro body front
    rw [List.append_assoc, ← List.flatten_cons] at front
    exact never body front

theorem zerosBehindLine_alone (zeros : Nat) :
    zerosBehindLine (List.replicate zeros '0') = false := by
  induction zeros with
  | zero => rfl
  | succ zeros ih =>
    cases zeros with
    | zero => rfl
    | succ zeros =>
      rw [List.replicate_succ, List.replicate_succ]
      rw [List.replicate_succ] at ih
      exact ih

/-- Nothing is in front of the zeros of an empty body. -/
theorem not_chunkedEnd_lastChunk {zeros : Nat} {body : Chars} (front : body <+: lastChunk zeros) :
    chunkedEnd body = false := by
  by_contra seemed
  have ended : chunkedEnd body = true := by simpa using seemed
  simp only [chunkedEnd, Bool.and_eq_true, beq_iff_eq] at ended
  obtain ⟨⟨-, tail⟩, behind⟩ := ended
  have joined : lastChunk zeros = List.replicate (zeros + 1) '0' ++ crlfCrlf := by
    simp [lastChunk, crlf, crlfCrlf]
  have split : body.take (body.length - 4) ++ crlfCrlf = body := by
    rw [← tail, List.take_append_drop]
  generalize body.take (body.length - 4) = seen at split behind
  rw [← split, joined] at front
  have bound : seen.length ≤ (List.replicate (zeros + 1) '0').length := by
    have lengths := front.length_le
    rw [List.length_append, List.length_append] at lengths
    omega
  obtain same | short := Nat.eq_or_lt_of_le bound
  · have first : seen <+: List.replicate (zeros + 1) '0' := List.prefix_of_prefix_length_le
      ((List.prefix_append _ _).trans front) (List.prefix_append _ _) bound
    rw [first.eq_of_length same, List.reverse_replicate, zerosBehindLine_alone] at behind
    cases behind
  · have there := front.drop seen.length
    rw [List.drop_left] at there
    exact not_crlf_in_line (inline_zeros (zeros + 1)) short there

/-- A chunked body is read exactly where it is not empty and no portion ends too early. -/
theorem chunked_response_read_iff (head : HttpHead) {chunks : List HttpChunk} {reads : List Chars}
    {declared : Int} (zeros : Nat) (length : readLength head.header = .ok declared)
    (chunked : get head.header "Transfer-Encoding".toList = "chunked".toList)
    (parts : reads.flatten = head.text ++ (chunkText chunks ++ lastChunk zeros)) :
    readResponse reads = .ok (head.response (chunkData chunks).length (chunkData chunks)) ↔
      chunks ≠ [] ∧ ¬EndsEarly head chunks reads := by
  by_cases some : chunks = []
  · refine ⟨fun result => ?_, fun ⟨nonempty, _⟩ => absurd some nonempty⟩
    rw [some, chunkText, List.flatMap_nil, List.nil_append] at parts
    obtain ⟨part, k, whole, -, -, response⟩ := readResponse_text head length parts
    have isChunked : (head.response declared part).isChunked = true := beq_iff_eq.mpr chunked
    have waits : readBody (checkEnd (head.response declared part)) part (reads.drop k) = none := by
      apply readBody_never
      intro body front
      rw [checkEnd, isChunked, if_pos rfl]
      exact not_chunkedEnd_lastChunk (whole ▸ front)
    rw [response, waits] at result
    cases result
  · rw [chunked_response_read head zeros length chunked some parts]
    exact ⟨fun calm => ⟨some, calm⟩, And.right⟩

def chunkedHead : HttpHead :=
  headOf "Transfer-Encoding".toList "chunked".toList ⟨by decide, by decide, by decide, by decide⟩
    (by decide) ⟨by decide, by decide, by decide, by decide⟩

/-- The data of the first chunk looks like the end of a body. -/
def likeAnEnd : List HttpChunk :=
  [{ size := "5".toList
     data := "\r\n0\r\n".toList
     some := by decide
     written := by decide
     digits := by decide
     counted := by decide
     fits := by decide },
   { size := "1".toList
     data := "x".toList
     some := by decide
     written := by decide
     digits := by decide
     counted := by decide
     fits := by decide }]

def chunkedReads : List Chars :=
  ["HTTP/1.1 200 OK\r\nTransfer-Encoding: chunked\r\n\r\n5\r\n\r\n0\r\n\r".toList,
    "\n1\r\nx\r\n0\r\n\r\n".toList]

theorem chunked_response_read_likeAnEnd :
    readResponse chunkedReads = .ok (chunkedHead.response
        (chunkData likeAnEnd).length (chunkData likeAnEnd)) ↔
      likeAnEnd ≠ [] ∧ ¬EndsEarly chunkedHead likeAnEnd chunkedReads := by
  have length : readLength chunkedHead.header = .ok 0 := by decide
  exact chunked_response_read_iff chunkedHead 0 length (by decide) (by decide)

/-- With one portion cut one character later, the client returns less, and no failure. -/
example :
    readResponse
        ["HTTP/1.1 200 OK\r\nTransfer-Encoding: chunked\r\n\r\n5\r\n\r\n0\r\n\r\n".toList,
          "1\r\nx\r\n0\r\n\r\n".toList] =
      .ok (chunkedHead.response 5 "\r\n0\r\n".toList) := by
  decide +kernel

end HttpClient

end AutoDrop
