import AutoDrop.HttpClient
import Mathlib.Data.List.Basic

/-!
What a server writes is what the client reads, however it is cut on the way: the header, and a body
of a declared length.
-/

namespace AutoDrop

namespace HttpClient

open StringSplit

/-! Searching. -/

section Searching

variable {str rest delimiter : Chars} {start stop : Nat}

theorem find_skip (later : Nat) (behind : start ≤ later)
    (absent : ∀ i, start ≤ i → i < later → ¬delimiter <+: str.drop i) :
    find str delimiter start = find str delimiter later := by
  apply Option.ext
  intro stop
  constructor
  · intro found
    obtain ⟨here, after, inside, first⟩ := find_eq_some.mp found
    have reached : later ≤ stop := by
      by_contra before
      exact absent stop after (by omega) here
    exact find_eq_some.mpr ⟨here, reached, inside, fun i low high => first i (by omega) high⟩
  · intro found
    obtain ⟨here, after, inside, first⟩ := find_eq_some.mp found
    refine find_eq_some.mpr ⟨here, by omega, inside, ?_⟩
    intro i low high
    by_cases early : i < later
    · exact absent i low early
    · exact first i (by omega) high

theorem find_append (before : Chars) :
    find (before ++ rest) delimiter (before.length + start) =
      (find rest delimiter start).map fun stop => before.length + stop := by
  cases found : find rest delimiter start with
  | none =>
    refine find_eq_none.mpr ?_
    intro i low high
    obtain ⟨offset, rfl⟩ := Nat.exists_eq_add_of_le (Nat.le_of_add_right_le low)
    rw [List.length_append] at high
    rw [List.drop_length_add_append]
    exact find_eq_none.mp found offset (by omega) (by omega)
  | some stop =>
    obtain ⟨here, after, inside, first⟩ := find_eq_some.mp found
    rw [Option.map_some]
    refine find_eq_some.mpr ⟨?_, by omega, ?_, ?_⟩
    · rwa [List.drop_length_add_append]
    · rw [List.length_append]
      omega
    · intro i low high
      obtain ⟨offset, rfl⟩ := Nat.exists_eq_add_of_le (Nat.le_of_add_right_le low)
      rw [List.drop_length_add_append]
      exact first offset (by omega) (by omega)

/-- A part of the text that holds the first delimiter holds it in the same place, and a shorter one
holds none. -/
theorem find_take (found : find str delimiter start = some stop) (length : Nat) :
    find (str.take length) delimiter start =
      if stop + delimiter.length ≤ length then some stop else none := by
  obtain ⟨here, behind, -, first⟩ := find_eq_some.mp found
  have fits := length_of_find found
  have cut (i : Nat) (found : delimiter <+: (str.take length).drop i) : delimiter <+: str.drop i :=
    found.trans ((List.take_prefix _ _).drop i)
  split
  · next enough =>
    refine find_eq_some.mpr ⟨?_, behind, ?_, fun i low high found => first i low high (cut i found)⟩
    · rw [List.drop_take]
      exact List.prefix_take_iff.mpr ⟨here, by omega⟩
    · rw [List.length_take]
      omega
  · next short =>
    refine find_eq_none.mpr ?_
    intro i low high found
    have room := found.length_le
    rw [List.length_drop, List.length_take] at room
    rw [List.length_take] at high
    by_cases early : i < stop
    · exact first i low early (cut i found)
    · omega

/-- A line without a carriage return ends where the end of line is. -/
theorem find_line {line : Chars} (clean : '\r' ∉ line) (rest : Chars) :
    find (line ++ crlf ++ rest) crlf 0 = some line.length := by
  refine find_eq_some.mpr ⟨?_, Nat.zero_le _, by simp, ?_⟩
  · rw [List.append_assoc, List.drop_left]
    exact List.prefix_append _ _
  · intro i low high found
    rw [List.append_assoc, List.drop_append_of_le_length (Nat.le_of_lt high),
      List.drop_eq_getElem_cons high, List.cons_append, crlf, List.cons_prefix_cons] at found
    exact clean (found.1 ▸ List.getElem_mem high)

end Searching

/-! The header. -/

/-- A text that stays as it is where blanks around it are cut off. -/
structure Bare (text : Chars) : Prop where
  nonempty : text ≠ []
  inline : '\r' ∉ text
  head : text.head?.any includeSym = false
  last : text.getLast?.any includeSym = false

/-- The head of a response as a server writes it. -/
structure HttpHead where
  protocolVersion : Chars
  code : Chars
  status : Chars
  fields : List (Chars × Chars)
  version_bare : Bare protocolVersion
  version_word : ' ' ∉ protocolVersion
  code_bare : Bare code
  code_word : ' ' ∉ code
  status_bare : Bare status
  names_bare : ∀ field ∈ fields, Bare field.1 ∧ ':' ∉ field.1
  values_bare : ∀ field ∈ fields, Bare field.2

def fieldLine (field : Chars × Chars) : Chars := field.1 ++ [':', ' '] ++ field.2

def HttpHead.lines (head : HttpHead) : List Chars :=
  (head.protocolVersion ++ [' '] ++ head.code ++ [' '] ++ head.status) ::
    head.fields.map fieldLine

def endLines (lines : List Chars) : Chars := lines.flatMap fun line => line ++ crlf

def HttpHead.text (head : HttpHead) : Chars := endLines head.lines ++ crlf

/-- What `Header` holds of the fields. -/
def HttpHead.header (head : HttpHead) : List (Chars × Chars) :=
  head.fields.map fun field => (toLowerCase field.1, field.2)

theorem dropWhile_bare {text : Chars} (nonempty : text ≠ [])
    (head : text.head?.any includeSym = false) : text.dropWhile includeSym = text := by
  cases text with
  | nil => exact absurd rfl nonempty
  | cons c rest =>
    have solid : includeSym c = false := head
    rw [List.dropWhile_cons_of_neg (by simp [solid])]

theorem Bare.reverse {text : Chars} (bare : Bare text) : Bare text.reverse where
  nonempty := by simpa using bare.nonempty
  inline := by simpa using bare.inline
  head := by simpa using bare.last
  last := by simpa using bare.head

theorem trim_of_dropWhile {text rest : Chars} (bare : Bare text)
    (cut : rest.dropWhile includeSym = text) : trim rest = text := by
  have back := dropWhile_bare bare.reverse.nonempty bare.reverse.head
  rw [trim, cut, if_neg bare.nonempty, back, List.reverse_reverse]

theorem trim_bare {text : Chars} (bare : Bare text) : trim text = text :=
  trim_of_dropWhile bare (dropWhile_bare bare.nonempty bare.head)

theorem trim_blank {text : Chars} (bare : Bare text) : trim (' ' :: text) = text := by
  apply trim_of_dropWhile bare
  rw [List.dropWhile_cons_of_pos (by decide)]
  exact dropWhile_bare bare.nonempty bare.head

theorem pieces_flag {flag piece rest : Chars} {num : Nat}
    (found : find (piece ++ flag ++ rest) flag 0 = some piece.length) :
    pieces flag (num + 1) (piece ++ flag ++ rest) = piece :: pieces flag num rest := by
  rw [pieces, found]
  simp only [List.append_assoc, List.take_left]
  rw [← List.append_assoc, ← List.length_append, List.drop_left]

theorem find_char {c : Char} {piece rest : Chars} (absent : c ∉ piece) :
    find (piece ++ [c] ++ rest) [c] 0 = some piece.length := by
  refine find_eq_some.mpr ⟨?_, Nat.zero_le _, by simp, ?_⟩
  · rw [List.append_assoc, List.drop_left]
    exact List.prefix_append _ _
  · intro i low high found
    rw [List.append_assoc, List.drop_append_of_le_length (Nat.le_of_lt high),
      List.drop_eq_getElem_cons high, List.cons_append, List.cons_prefix_cons] at found
    exact absent (found.1 ▸ List.getElem_mem high)

theorem split_status (head : HttpHead) :
    split (head.protocolVersion ++ [' '] ++ head.code ++ [' '] ++ head.status) [' '] 2 =
      [head.protocolVersion, head.code, head.status] := by
  have joined : head.protocolVersion ++ [' '] ++ head.code ++ [' '] ++ head.status =
      head.protocolVersion ++ [' '] ++ (head.code ++ [' '] ++ head.status) := by simp
  rw [joined, split, find_char head.version_word, if_neg (Option.some_ne_none _),
    pieces_flag (find_char head.version_word), pieces_flag (find_char head.code_word), pieces]
  simp [head.version_bare.nonempty, head.code_bare.nonempty, head.status_bare.nonempty]

theorem readField_fieldLine {field : Chars × Chars} (name : Bare field.1) (word : ':' ∉ field.1)
    (value : Bare field.2) : readField (fieldLine field) = some (toLowerCase field.1, field.2) := by
  have joined : fieldLine field = field.1 ++ [':'] ++ (' ' :: field.2) := by simp [fieldLine]
  rw [readField, joined, split, find_char word, if_neg (Option.some_ne_none _),
    pieces_flag (find_char word), pieces]
  simp [name.nonempty, trim_bare name, trim_blank value]

theorem Bare.append {before after : Chars} (front : before ≠ []) (clean : '\r' ∉ before)
    (bare : Bare after) : before ++ after ≠ [] ∧ '\r' ∉ before ++ after := by
  refine ⟨fun empty => front (List.append_eq_nil_iff.mp empty).1, fun member => ?_⟩
  exact (List.mem_append.mp member).elim clean bare.inline

theorem HttpHead.clean (head : HttpHead) : ∀ line ∈ head.lines, line ≠ [] ∧ '\r' ∉ line := by
  intro line member
  rcases List.mem_cons.mp member with rfl | later
  · refine Bare.append ?_ ?_ head.status_bare
    · simp
    · simp [head.version_bare.inline, head.code_bare.inline]
  · obtain ⟨field, inside, rfl⟩ := List.mem_map.mp later
    have name := (head.names_bare field inside).1
    refine Bare.append ?_ ?_ (head.values_bare field inside)
    · simp
    · simp [name.inline]

/-- No character of a line starts an end of line. -/
theorem not_crlf_in_line {line rest delimiter : Chars} (clean : '\r' ∉ line) {i : Nat}
    (inside : i < line.length) : ¬ '\r' :: delimiter <+: (line ++ rest).drop i := by
  intro found
  rw [List.drop_append_of_le_length (Nat.le_of_lt inside), List.drop_eq_getElem_cons inside,
    List.cons_append, List.cons_prefix_cons] at found
  exact clean (found.1 ▸ List.getElem_mem inside)

/-- Nor does its end start an empty line, where a line follows. -/
theorem not_crlfCrlf_in_line {line tail : Chars} {c : Char} (clean : '\r' ∉ line) (next : c ≠ '\r')
    {i : Nat} (inside : i < (line ++ crlf).length) :
    ¬ crlfCrlf <+: (line ++ (crlf ++ c :: tail)).drop i := by
  have length : (line ++ crlf).length = line.length + 2 := by simp [crlf]
  rw [length] at inside
  by_cases first : i < line.length
  · exact not_crlf_in_line clean first
  · intro found
    obtain ⟨offset, rfl⟩ := Nat.exists_eq_add_of_le (Nat.not_lt.mp first)
    rw [List.drop_length_add_append] at found
    match offset with
    | 0 =>
      simp only [crlf, crlfCrlf, List.drop_zero, List.cons_append, List.nil_append,
        List.cons_prefix_cons, true_and] at found
      exact next found.1.symm
    | 1 => simp [crlf, crlfCrlf, List.cons_prefix_cons] at found
    | offset + 2 => omega

theorem find_endLines {line : Chars} {lines : List Chars}
    (clean : ∀ text ∈ line :: lines, text ≠ [] ∧ '\r' ∉ text) (rest : Chars) :
    find (endLines (line :: lines) ++ crlf ++ rest) crlfCrlf 0 =
      some ((endLines (line :: lines)).length - 2) := by
  have inline := (clean line List.mem_cons_self).2
  induction lines generalizing line with
  | nil =>
    have joined : endLines [line] ++ crlf ++ rest = line ++ (crlfCrlf ++ rest) := by
      simp [endLines, crlf, crlfCrlf]
    have length : (endLines [line]).length - 2 = line.length := by simp [endLines, crlf]
    rw [joined, length]
    refine find_eq_some.mpr ⟨?_, Nat.zero_le _, by simp, ?_⟩
    · rw [List.drop_left]
      exact List.prefix_append _ _
    · intro i low high
      exact not_crlf_in_line inline high
  | cons following lines ih =>
    have behind : ∀ text ∈ following :: lines, text ≠ [] ∧ '\r' ∉ text := fun text member =>
      clean text (List.mem_cons_of_mem _ member)
    obtain ⟨some, next⟩ := behind following List.mem_cons_self
    obtain ⟨c, tail, rfl⟩ := List.exists_cons_of_ne_nil some
    have joined : endLines (line :: (c :: tail) :: lines) ++ crlf ++ rest =
        (line ++ crlf) ++ (endLines ((c :: tail) :: lines) ++ crlf ++ rest) := by
      simp [endLines]
    have following : endLines ((c :: tail) :: lines) ++ crlf ++ rest =
        c :: (tail ++ crlf ++ endLines lines ++ crlf ++ rest) := by
      simp [endLines]
    have other : c ≠ '\r' := by
      rintro rfl
      exact next List.mem_cons_self
    have skipped : find (endLines (line :: (c :: tail) :: lines) ++ crlf ++ rest) crlfCrlf 0 =
        find (endLines (line :: (c :: tail) :: lines) ++ crlf ++ rest) crlfCrlf
          ((line ++ crlf).length + 0) := by
      apply find_skip _ (Nat.zero_le _)
      intro i low high
      rw [joined, following, List.append_assoc]
      exact not_crlfCrlf_in_line inline other high
    have lengths : (endLines (line :: (c :: tail) :: lines)).length =
        (line ++ crlf).length + (endLines ((c :: tail) :: lines)).length := by
      rw [endLines, List.flatMap_cons, List.length_append, endLines]
    have enough : 2 ≤ (endLines ((c :: tail) :: lines)).length := by
      simp only [endLines, List.flatMap_cons, List.length_append, crlf, List.length_cons]
      omega
    rw [skipped, joined, find_append, ih behind next, Option.map_some, lengths]
    congr 1
    omega

theorem find_headText (head : HttpHead) (rest : Chars) :
    find (head.text ++ rest) crlfCrlf 0 = some (head.text.length - 4) := by
  have length : head.text.length - 4 = (endLines head.lines).length - 2 := by
    simp [HttpHead.text, crlf]
  rw [length]
  exact find_endLines head.clean rest

theorem pieces_endLines {lines : List Chars} (clean : ∀ text ∈ lines, text ≠ [] ∧ '\r' ∉ text)
    {num : Nat} (room : lines.length < num) :
    pieces crlf num (endLines lines ++ crlf) = lines ++ [[], []] := by
  induction lines generalizing num with
  | nil =>
    obtain ⟨num, rfl⟩ := Nat.exists_eq_succ_of_ne_zero (Nat.ne_zero_of_lt room)
    have blank : find (α := Char) [] crlf 0 = none := by decide
    have cut : find (endLines [] ++ crlf) crlf 0 = some 0 := by decide
    rw [pieces, cut]
    cases num <;> simp [pieces, blank, endLines]
  | cons line lines ih =>
    obtain ⟨num, rfl⟩ := Nat.exists_eq_succ_of_ne_zero (Nat.ne_zero_of_lt room)
    have joined : endLines (line :: lines) ++ crlf = line ++ crlf ++ (endLines lines ++ crlf) := by
      simp [endLines]
    rw [joined, pieces_flag (find_line (clean line List.mem_cons_self).2 _),
      ih (fun text member => clean text (List.mem_cons_of_mem _ member))
        (Nat.lt_of_succ_lt_succ room)]
    rfl

theorem length_endLines (lines : List Chars) : lines.length ≤ (endLines lines).length := by
  induction lines with
  | nil => exact Nat.le_refl _
  | cons line lines ih =>
    simp only [endLines, List.flatMap_cons, List.length_append, List.length_cons, crlf] at ih ⊢
    omega

theorem split_headText (head : HttpHead) {num : Nat} (room : head.text.length ≤ num) :
    split head.text crlf num = head.lines := by
  have found : find head.text crlf 0 ≠ none := by
    cases lines : head.lines with
    | nil => exact absurd lines (List.cons_ne_nil _ _)
    | cons line rest =>
      have joined : head.text = line ++ crlf ++ (endLines rest ++ crlf) := by
        simp [HttpHead.text, lines, endLines]
      have clean := (head.clean line (lines ▸ List.mem_cons_self)).2
      rw [joined, find_line clean]
      exact Option.some_ne_none _
  have enough : head.lines.length < num := by
    have counted := length_endLines head.lines
    rw [HttpHead.text, List.length_append] at room
    simp only [crlf, List.length_cons] at room
    omega
  rw [split, if_neg found, HttpHead.text, pieces_endLines head.clean enough, List.filter_append]
  have kept : head.lines.filter (fun piece => !piece.isEmpty) = head.lines := by
    rw [List.filter_eq_self]
    intro line member
    simpa using (head.clean line member).1
  rw [kept]
  simp

/-- What the client makes of the head, with a length and a body. -/
def HttpHead.response (head : HttpHead) (contentLength : Int) (body : Chars) : HttpResponse where
  protocolVersion := head.protocolVersion
  code := head.code
  status := head.status
  responseHeader := head.header
  contentLength := contentLength
  isChunked := get head.header "Transfer-Encoding".toList == "chunked".toList
  body := body

theorem parseHeader_text (head : HttpHead) (rest : Chars) :
    parseHeader (head.text ++ rest) head.text.length =
      (readLength head.header).map fun contentLength => head.response contentLength rest := by
  have fields : (head.fields.map fieldLine).filterMap readField = head.header := by
    rw [List.filterMap_map, HttpHead.header, ← List.filterMap_eq_map]
    apply List.filterMap_congr
    intro field member
    obtain ⟨name, word⟩ := head.names_bare field member
    exact readField_fieldLine name word (head.values_bare field member)
  rw [parseHeader, List.take_left, split_headText head (by simp), HttpHead.lines]
  simp only [split_status, fields, trim_bare head.version_bare, trim_bare head.code_bare,
    trim_bare head.status_bare, List.drop_left]
  rfl

theorem length_headText (head : HttpHead) : 4 ≤ head.text.length := by
  have counted : 1 ≤ head.protocolVersion.length :=
    List.length_pos_iff.mpr head.version_bare.nonempty
  simp only [HttpHead.text, HttpHead.lines, endLines, List.flatMap_cons, List.length_append, crlf,
    List.length_cons, List.length_nil]
  omega

/-- The client reads up to the end of the head, and what came with it. -/
theorem readHeader_text (head : HttpHead) {body source : Chars} {reads : List Chars}
    (short : source.length < head.text.length)
    (parts : source ++ reads.flatten = head.text ++ body) :
    ∃ part k, readHeader source reads = some (head.text ++ part, head.text.length, reads.drop k) ∧
      source ++ (reads.take k).flatten = head.text ++ part ∧
      ∀ j, head.text.length ≤ (source ++ (reads.take j).flatten).length → k ≤ j := by
  induction reads generalizing source with
  | nil =>
    have lengths := congrArg List.length parts
    simp only [List.flatten_nil, List.append_nil, List.length_append] at lengths
    omega
  | cons read rest ih =>
    rw [List.flatten_cons, ← List.append_assoc] at parts
    have start : source ++ read = (head.text ++ body).take (source ++ read).length := by
      rw [← parts, List.take_left]
    have found := find_take (find_headText head body) (source ++ read).length
    rw [← start] at found
    have size : crlfCrlf.length = 4 := rfl
    have least := length_headText head
    rw [size, Nat.sub_add_cancel least] at found
    by_cases enough : head.text.length ≤ (source ++ read).length
    · rw [if_pos enough] at found
      have front : head.text <+: source ++ read := List.prefix_of_prefix_length_le
        (List.prefix_append _ _) (parts ▸ List.prefix_append _ _) enough
      obtain ⟨part, whole⟩ := front
      refine ⟨part, 1, ?_, ?_, ?_⟩
      · rw [readHeader, found, whole]
        simp only [Nat.sub_add_cancel least, List.drop_succ_cons, List.drop_zero]
      · simp [whole]
      · intro j reached
        cases j with
        | zero =>
          rw [List.take_zero, List.flatten_nil, List.append_nil] at reached
          omega
        | succ j => exact Nat.succ_le_succ (Nat.zero_le j)
    · rw [if_neg enough] at found
      obtain ⟨part, k, result, whole, first⟩ := ih (Nat.not_le.mp enough) parts
      refine ⟨part, k + 1, ?_, ?_, ?_⟩
      · rw [readHeader, found]
        exact result
      · rw [List.take_succ_cons, List.flatten_cons, ← List.append_assoc]
        exact whole
      · intro j reached
        cases j with
        | zero =>
          rw [List.take_zero, List.flatten_nil, List.append_nil] at reached
          omega
        | succ j =>
          rw [List.take_succ_cons, List.flatten_cons, ← List.append_assoc] at reached
          exact Nat.succ_le_succ (first j reached)

/-- The client reads on to the first portion behind which the body is done. -/
theorem readBody_first {done : Chars → Bool} {part : Chars} {reads : List Chars}
    (whole : done (part ++ reads.flatten) = true) :
    ∃ k, readBody done part reads = some (part ++ (reads.take k).flatten) ∧
      done (part ++ (reads.take k).flatten) = true ∧
      ∀ j, done (part ++ (reads.take j).flatten) = true → k ≤ j := by
  induction reads generalizing part with
  | nil =>
    simp only [List.flatten_nil, List.append_nil] at whole
    exact ⟨0, by simp [readBody, whole], by simpa using whole, fun _ _ => Nat.zero_le _⟩
  | cons read rest ih =>
    by_cases now : done part = true
    · exact ⟨0, by simp [readBody, now], by simpa using now, fun _ _ => Nat.zero_le _⟩
    · rw [List.flatten_cons, ← List.append_assoc] at whole
      obtain ⟨k, result, ended, first⟩ := ih whole
      refine ⟨k + 1, ?_, ?_, ?_⟩
      · rw [readBody, if_neg now, result, List.take_succ_cons, List.flatten_cons,
          List.append_assoc]
      · rwa [List.take_succ_cons, List.flatten_cons, ← List.append_assoc]
      · intro j ended
        cases j with
        | zero => exact absurd (by simpa using ended) now
        | succ j =>
          rw [List.take_succ_cons, List.flatten_cons, ← List.append_assoc] at ended
          exact Nat.succ_le_succ (first j ended)

theorem readResponse_text (head : HttpHead) {body : Chars} {reads : List Chars} {declared : Int}
    (length : readLength head.header = .ok declared)
    (parts : reads.flatten = head.text ++ body) :
    ∃ part k, part ++ (reads.drop k).flatten = body ∧
      (reads.take k).flatten = head.text ++ part ∧
      (∀ j, head.text.length ≤ (reads.take j).flatten.length → k ≤ j) ∧
      readResponse reads =
        match readBody (checkEnd (head.response declared part)) part (reads.drop k) with
        | none => .error .closed
        | some body => parseBody (head.response declared part) body := by
  have least := length_headText head
  have short : List.length ([] : Chars) < head.text.length := by
    rw [List.length_nil]
    omega
  obtain ⟨part, k, read, received, first⟩ :=
    readHeader_text head short ((List.nil_append _).trans parts)
  simp only [List.nil_append] at received first
  refine ⟨part, k, ?_, received, first, ?_⟩
  · have joined : head.text ++ (part ++ (reads.drop k).flatten) = head.text ++ body := by
      rw [← List.append_assoc, ← parts, ← received, ← List.flatten_append, List.take_append_drop]
    exact List.append_cancel_left joined
  · rw [readResponse, read]
    simp only [parseHeader_text, length, Except.map]
    rfl

/-- A body of the length that its header declares is read, however it is cut. -/
theorem plain_response_read (head : HttpHead) {body : Chars} {reads : List Chars}
    (length : readLength head.header = .ok (body.length : Int))
    (plain : get head.header "Transfer-Encoding".toList ≠ "chunked".toList)
    (parts : reads.flatten = head.text ++ body) :
    readResponse reads = .ok (head.response body.length body) := by
  obtain ⟨part, k, whole, -, -, response⟩ := readResponse_text head length parts
  have notChunked : (head.response body.length part).isChunked = false :=
    beq_eq_false_iff_ne.mpr plain
  have done :
      checkEnd (head.response body.length part) (part ++ (reads.drop k).flatten) = true := by
    rw [checkEnd, notChunked, whole]
    exact decide_eq_true rfl
  obtain ⟨j, read, ended, -⟩ := readBody_first done
  have all : part ++ ((reads.drop k).take j).flatten = body := by
    have front : part ++ ((reads.drop k).take j).flatten <+: body := by
      rw [← whole]
      exact (List.prefix_append_right_inj part).mpr (List.take_prefix j _).flatten
    apply front.eq_of_length
    rw [checkEnd, notChunked] at ended
    exact Int.ofNat.inj (of_decide_eq_true ended)
  rw [response, read, all]
  simp only
  rw [parseBody, if_pos (by simp [notChunked])]
  rfl

/-- A response with one field, whose name has no blank and no colon. -/
def headOf (name value : Chars) (named : Bare name) (word : ':' ∉ name) (valued : Bare value) :
    HttpHead where
  protocolVersion := "HTTP/1.1".toList
  code := "200".toList
  status := "OK".toList
  fields := [(name, value)]
  version_bare := ⟨by decide, by decide, by decide, by decide⟩
  version_word := by decide
  code_bare := ⟨by decide, by decide, by decide, by decide⟩
  code_word := by decide
  status_bare := ⟨by decide, by decide, by decide, by decide⟩
  names_bare := by simpa using ⟨named, word⟩
  values_bare := by simpa using valued

def plainHead : HttpHead :=
  headOf "Content-Length".toList "5".toList ⟨by decide, by decide, by decide, by decide⟩ (by decide)
    ⟨by decide, by decide, by decide, by decide⟩

def plainReads : List Chars :=
  ["HTTP/1.1 200 OK\r\nConte".toList, "nt-Length: 5\r\n\r".toList, "\nhe".toList, "llo".toList]

theorem plain_response_read_cut :
    readResponse plainReads = .ok (plainHead.response "hello".toList.length "hello".toList) :=
  plain_response_read plainHead (by decide) (by decide) (by decide)

end HttpClient

end AutoDrop
