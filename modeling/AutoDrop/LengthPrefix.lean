import Mathlib.Data.List.Basic

/-!
Streams of length-prefixed frames over an arbitrary alphabet. A length field is any
fixed-width code for the numbers below its bound.
-/

structure LengthField (Symbol : Type*) where
  width : Nat
  bound : Nat
  encode : Nat → List Symbol
  decode : List Symbol → Nat
  width_pos : 0 < width
  encode_length : ∀ count, (encode count).length = width
  decode_encode : ∀ count, count < bound → decode (encode count) = count

namespace LengthField

variable {Symbol : Type*} (field : LengthField Symbol)

def frame (payload : List Symbol) : List Symbol :=
  field.encode payload.length ++ payload

def stream (payloads : List (List Symbol)) : List Symbol :=
  (payloads.map field.frame).flatten

def announced (symbols : List Symbol) : Nat :=
  field.decode (symbols.take field.width)

def unframeFrom : Nat → List Symbol → Option (List (List Symbol))
  | _, [] => some []
  | 0, _ :: _ => none
  | fuel + 1, symbols =>
      if field.width + field.announced symbols ≤ symbols.length then
        (unframeFrom fuel (symbols.drop (field.width + field.announced symbols))).map
          ((symbols.drop field.width).take (field.announced symbols) :: ·)
      else none

def unframe (symbols : List Symbol) : Option (List (List Symbol)) :=
  field.unframeFrom symbols.length symbols

@[simp] theorem stream_nil : field.stream [] = [] := rfl

@[simp] theorem stream_cons (payload : List Symbol) (payloads : List (List Symbol)) :
    field.stream (payload :: payloads) = field.frame payload ++ field.stream payloads := rfl

@[simp] theorem stream_append (first second : List (List Symbol)) :
    field.stream (first ++ second) = field.stream first ++ field.stream second := by
  simp [stream]

@[simp] theorem frame_length (payload : List Symbol) :
    (field.frame payload).length = field.width + payload.length := by
  simp [frame, field.encode_length]

theorem flatten_length_le_stream (payloads : List (List Symbol)) :
    payloads.flatten.length ≤ (field.stream payloads).length := by
  induction payloads with
  | nil => simp
  | cons payload payloads ih =>
      rw [List.flatten_cons, List.length_append, stream_cons, List.length_append, frame_length]
      omega

theorem take_frame (payload rest : List Symbol) :
    (field.frame payload ++ rest).take field.width = field.encode payload.length := by
  rw [frame, List.append_assoc, List.take_left' (field.encode_length _)]

theorem announced_frame {payload : List Symbol} (fits : payload.length < field.bound)
    (rest : List Symbol) : field.announced (field.frame payload ++ rest) = payload.length := by
  rw [announced, take_frame, field.decode_encode _ fits]

theorem drop_width_frame (payload rest : List Symbol) :
    (field.frame payload ++ rest).drop field.width = payload ++ rest := by
  rw [frame, List.append_assoc, List.drop_left' (field.encode_length _)]

theorem drop_frame (payload rest : List Symbol) :
    (field.frame payload ++ rest).drop (field.width + payload.length) = rest := by
  rw [List.drop_left' (field.frame_length payload)]

theorem unframeFrom_stream (fuel : Nat) (payloads : List (List Symbol))
    (fit : ∀ payload ∈ payloads, payload.length < field.bound)
    (enough : (field.stream payloads).length ≤ fuel) :
    field.unframeFrom fuel (field.stream payloads) = some payloads := by
  induction payloads generalizing fuel with
  | nil => simp [unframeFrom]
  | cons payload payloads ih =>
      have positive := field.width_pos
      have fits : payload.length < field.bound := fit payload (by simp)
      simp only [stream_cons, List.length_append, frame_length] at enough
      cases fuel with
      | zero => omega
      | succ fuel =>
          have tail := ih fuel (fun other member => fit other (by simp [member])) (by omega)
          rw [stream_cons, unframeFrom]
          · simp only [field.announced_frame fits, drop_frame, drop_width_frame, tail,
              List.length_append, frame_length, Nat.le_add_right, ↓reduceIte,
              List.take_left', Option.map_some]
          · intro empty
            have lengths := congrArg List.length empty
            simp only [List.length_append, frame_length, List.length_nil] at lengths
            omega

theorem unframe_stream (payloads : List (List Symbol))
    (fit : ∀ payload ∈ payloads, payload.length < field.bound) :
    field.unframe (field.stream payloads) = some payloads :=
  field.unframeFrom_stream _ payloads fit (Nat.le_refl _)

/-- A cut of a stream falls on a frame boundary or inside one frame. -/
theorem stream_cut {payloads : List (List Symbol)} {before after : List Symbol}
    (cut : field.stream payloads = before ++ after) :
    ∃ complete pending tail, payloads = complete ++ pending ∧
      before = field.stream complete ++ tail ∧
      (tail ≠ [] → ∃ payload others missing, pending = payload :: others ∧
        field.frame payload = tail ++ missing ∧ missing ≠ []) := by
  induction payloads generalizing before with
  | nil =>
      have empty : before = [] := (List.append_eq_nil_iff.mp cut.symm).1
      exact ⟨[], [], [], rfl, by simp [empty], fun absurdity => (absurdity rfl).elim⟩
  | cons payload payloads ih =>
      rw [stream_cons] at cut
      rcases List.append_eq_append_iff.mp cut with ⟨extra, whole, later⟩ | ⟨missing, inside, _⟩
      · obtain ⟨complete, pending, tail, same, split, partialFrame⟩ := ih later
        refine ⟨payload :: complete, pending, tail, by simp [same], ?_, partialFrame⟩
        rw [whole, split, stream_cons, List.append_assoc]
      · by_cases boundary : missing = []
        · refine ⟨[payload], payloads, [], rfl, ?_, fun absurdity => (absurdity rfl).elim⟩
          simpa [boundary] using inside.symm
        · exact ⟨[], payload :: payloads, before, rfl, rfl,
            fun _ => ⟨payload, payloads, missing, rfl, inside, boundary⟩⟩

end LengthField
