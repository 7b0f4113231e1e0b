import AutoDrop.Base64
import AutoDrop.CloudSnapshot
import AutoDrop.FoldRules
import Mathlib.Data.List.GetD

/-!
The way of the points from `/tmp/cloud.bin` to the canvas: the base64 text that the web server
sends, `atob` and the voxel filter of `PcdShow.vue`. `cell` is the `Math.floor` of a number
divided by the size of a voxel, as it stands in the key.
-/

namespace AutoDrop

/-- An element of a `Float32Array`. One that is missing is `undefined`, which no calculation
and no `Float32Array` tells from a NaN. -/
inductive JsNumber
  | nan
  | float (bits : UInt32)
deriving DecidableEq

def JsNumber.ofBits (bits : UInt32) : JsNumber :=
  if 0x7f800000 < bits &&& 0x7fffffff then .nan else .float bits

namespace PcdShow

def word (a b c d : UInt8) : UInt32 :=
  .ofNat (a.toNat + b.toNat * 2 ^ 8 + c.toNat * 2 ^ 16 + d.toNat * 2 ^ 24)

/-- `new Float32Array(buffer)`, which throws where a byte is left over. -/
def float32Array : List UInt8 → Option (List JsNumber)
  | [] => some []
  | a :: b :: c :: d :: rest => (float32Array rest).map (.ofBits (word a b c d) :: ·)
  | _ => none

def read (buffer : List JsNumber) (i : Nat) : JsNumber := buffer.getD i .nan

/-- `for (let i = 0; i < length; i += size)`. -/
def sweep {β : Type*} (size length : Nat) (body : Nat → β) : List β :=
  (List.range ((length + (size - 1)) / size)).map fun turn => body (turn * size)

abbrev Entry (Cell : Type*) := (Cell × Cell × Cell) × List JsNumber

/-- The attributes of the geometry. -/
structure Geometry where
  positions : List JsNumber
  colors : List JsNumber
deriving DecidableEq

variable {Cell : Type*}

def entry (cell : JsNumber → Cell) (buffer : List JsNumber) (i : Nat) : Entry Cell :=
  ((cell (read buffer i), cell (read buffer (i + 1)), cell (read buffer (i + 2))),
    [read buffer i, read buffer (i + 1), read buffer (i + 2), read buffer (i + 3),
      read buffer (i + 4), read buffer (i + 5)])

def entries (cell : JsNumber → Cell) (buffer : List JsNumber) : List (Entry Cell) :=
  sweep 7 buffer.length (entry cell buffer)

/-- Three of every six floats. -/
def triples (filtered : List JsNumber) (offset : Nat) : List JsNumber :=
  (sweep 6 filtered.length fun i =>
    [read filtered (i + offset), read filtered (i + (offset + 1)),
      read filtered (i + (offset + 2))]).flatten

def geometry (filtered : List JsNumber) : Geometry where
  positions := triples filtered 0
  colors := triples filtered 3

section Watch

variable [DecidableEq Cell] (cell : JsNumber → Cell)

def voxelMap (buffer : List JsNumber) : List (Entry Cell) :=
  (entries cell buffer).foldl
    (fun voxels voxel => FoldRules.addFresh Prod.fst voxels (some voxel)) []

def voxelGridFilter (buffer : List JsNumber) : List JsNumber :=
  (voxelMap cell buffer).flatMap Prod.snd

/-- The watcher of `pcd`. Where it throws, the geometry stays. -/
def watchPcd (shown : Geometry) (pcd : List UInt8) : Geometry :=
  match float32Array pcd with
  | none => shown
  | some buffer => geometry (voxelGridFilter cell buffer)

/-- The listener of the key `pcd`, with the `data` of the value. -/
def onPcd (shown : Geometry) (data : List Char) : Geometry :=
  match Base64.decode data with
  | none => shown
  | some pcd => watchPcd cell shown pcd

/-- What is shown when these bytes were read from the file and sent, one after the other. -/
def shows (readings : List (List UInt8)) : Geometry :=
  readings.foldl (fun shown data => onPcd cell shown (Base64.encode data)) ⟨[], []⟩

end Watch

def picture (voxels : List (Entry Cell)) : Geometry where
  positions := voxels.flatMap fun voxel => voxel.2.take 3
  colors := voxels.flatMap fun voxel => voxel.2.drop 3

theorem word_bytes (value : UInt32) :
    word value.toUInt8 (value >>> 8).toUInt8 (value >>> 16).toUInt8 (value >>> 24).toUInt8 =
      value := by
  apply UInt32.toNat_inj.mp
  have bound := value.toNat_lt
  simp only [word, UInt32.toNat_toUInt8, UInt32.toNat_shiftRight, Nat.shiftRight_eq_div_pow,
    UInt32.reduceToNat, UInt32.toNat_ofNat', Nat.reduceMod, Nat.reducePow]
  omega

def littleEndian (value : UInt32) : List UInt8 :=
  [value.toUInt8, (value >>> 8).toUInt8, (value >>> 16).toUInt8, (value >>> 24).toUInt8]

theorem float32Array_words (values : List UInt32) :
    float32Array (values.flatMap littleEndian) = some (values.map .ofBits) := by
  induction values with
  | nil => rfl
  | cons value rest ih =>
    have step : float32Array (littleEndian value ++ rest.flatMap littleEndian) =
        (float32Array (rest.flatMap littleEndian)).map (.ofBits value :: ·) := by
      rw [littleEndian, List.cons_append, List.cons_append, List.cons_append, List.cons_append,
        float32Array, word_bytes]
      rfl
    rw [List.flatMap_cons, step, ih]
    rfl

theorem float32Array_isNone (bytes : List UInt8) :
    float32Array bytes = none ↔ bytes.length % 4 ≠ 0 := by
  fun_induction float32Array bytes with
  | case1 => simp
  | case2 a b c d rest ih =>
    rw [Option.map_eq_none_iff, ih]
    simp only [List.length_cons]
    omega
  | case3 bytes empty long =>
    match bytes with
    | [] => exact (empty rfl).elim
    | [_] | [_, _] | [_, _, _] => simp
    | a :: b :: c :: d :: rest => exact (long a b c d rest rfl).elim

theorem sweep_add {β : Type*} {size : Nat} (positive : 0 < size) (length : Nat)
    (body : Nat → β) :
    sweep size (size + length) body = body 0 :: sweep size length fun i => body (size + i) := by
  have turns : (size + length + (size - 1)) / size = (length + (size - 1)) / size + 1 := by
    rw [Nat.add_assoc, Nat.add_div_left _ positive]
  rw [sweep, turns, List.range_succ_eq_map, List.map_cons, List.map_map, Nat.zero_mul]
  refine congrArg (body 0 :: ·) (List.map_congr_left fun turn _ => ?_)
  rw [Function.comp_apply, Nat.succ_mul, Nat.add_comm]

theorem read_append_left {head rest : List JsNumber} {i : Nat} (bound : i < head.length) :
    read (head ++ rest) i = read head i := by
  rw [read, read, List.getD_append _ _ _ _ bound]

theorem read_append_right (head rest : List JsNumber) (i : Nat) :
    read (head ++ rest) (head.length + i) = read rest i := by
  rw [read, read, List.getD_append_right _ _ _ _ (Nat.le_add_right _ _), Nat.add_sub_cancel_left]

section Entries

variable (cell : JsNumber → Cell)

theorem entry_append_left {head : List JsNumber} (full : 6 ≤ head.length) (rest : List JsNumber) :
    entry cell (head ++ rest) 0 = entry cell head 0 := by
  have left {i : Nat} (bound : i < 6) : read (head ++ rest) (0 + i) = read head (0 + i) :=
    read_append_left (by omega)
  rw [entry, entry, left (by decide : 1 < 6), left (by decide : 2 < 6), left (by decide : 3 < 6),
    left (by decide : 4 < 6), left (by decide : 5 < 6), read_append_left (by omega)]

theorem entry_append_right (head rest : List JsNumber) (i : Nat) :
    entry cell (head ++ rest) (head.length + i) = entry cell rest i := by
  simp only [entry, Nat.add_assoc, read_append_right]

theorem entries_append {head : List JsNumber} (full : head.length = 7) (rest : List JsNumber) :
    entries cell (head ++ rest) = entry cell head 0 :: entries cell rest := by
  have later : (fun i => entry cell (head ++ rest) (7 + i)) = entry cell rest :=
    funext fun i => full ▸ entry_append_right cell head rest i
  rw [entries, List.length_append, full, sweep_add (by decide), entry_append_left cell (by omega),
    later]
  rfl

theorem entries_short {head : List JsNumber} (some : head ≠ []) (short : head.length ≤ 7) :
    entries cell head = [entry cell head 0] := by
  have positive := List.length_pos_iff.mpr some
  have once : (head.length + (7 - 1)) / 7 = 1 := by omega
  rw [entries, sweep, once]
  rfl

def fields (point : CloudPoint) : List JsNumber := point.data.map .ofBits

def cellOf (point : CloudPoint) : Cell × Cell × Cell :=
  (cell (.ofBits point.x), cell (.ofBits point.y), cell (.ofBits point.z))

/-- What the filter sees of the first `count` floats of a cloud: the last point lacks some where
they are no multiple of seven. -/
def cutEntries (cloud : List CloudPoint) (count : Nat) : List (Entry Cell) :=
  (cloud.take (count / 7)).map (fun point => entry cell (fields point) 0) ++
    if count % 7 = 0 then []
    else (cloud[count / 7]?.map fun point =>
      entry cell ((fields point).take (count % 7)) 0).toList

theorem entries_cut (cloud : List CloudPoint) (count : Nat) :
    entries cell ((cloud.flatMap fields).take count) = cutEntries cell cloud count := by
  induction cloud generalizing count with
  | nil => simp [cutEntries, entries, sweep]
  | cons point rest ih =>
    have seven : (fields point).length = 7 := rfl
    rw [List.flatMap_cons]
    by_cases whole : 7 ≤ count
    · obtain ⟨more, rfl⟩ := Nat.exists_eq_add_of_le whole
      have turns : (7 + more) / 7 = more / 7 + 1 := Nat.add_div_left more (by decide)
      rw [← seven, List.take_length_add_append, entries_append cell seven, ih, seven, cutEntries,
        cutEntries, turns, Nat.add_mod_left]
      rfl
    · have none : count / 7 = 0 := by omega
      have all : count % 7 = count := by omega
      rw [List.take_append_of_le_length (by omega), cutEntries, none, all]
      cases count with
      | zero => simp [entries, sweep]
      | succ count =>
        rw [entries_short cell (by simp [fields, CloudPoint.data]) (by simp; omega)]
        rfl

theorem entries_cloud (cloud : List CloudPoint) :
    entries cell (cloud.flatMap fields) = cloud.map fun point => entry cell (fields point) 0 := by
  induction cloud with
  | nil => rfl
  | cons point rest ih =>
    have seven : (fields point).length = 7 := rfl
    rw [List.flatMap_cons, entries_append cell seven, ih, List.map_cons]

end Entries

theorem triples_append {head : List JsNumber} (full : head.length = 6) {offset : Nat}
    (bound : offset ≤ 3) (rest : List JsNumber) :
    triples (head ++ rest) offset = (head.drop offset).take 3 ++ triples rest offset := by
  have right (i : Nat) : read (head ++ rest) (6 + i) = read rest i :=
    full ▸ read_append_right head rest i
  have first : [read (head ++ rest) (0 + offset), read (head ++ rest) (0 + (offset + 1)),
      read (head ++ rest) (0 + (offset + 2))] = (head.drop offset).take 3 := by
    match head, full with
    | [a, b, c, d, e, f], _ => match offset, bound with
      | 0, _ | 1, _ | 2, _ | 3, _ => rfl
  rw [triples, List.length_append, full, sweep_add (by decide), List.flatten_cons, first]
  simp only [Nat.add_assoc, right]
  rfl

theorem triples_values {voxels : List (Entry Cell)} (six : ∀ voxel ∈ voxels, voxel.2.length = 6)
    {offset : Nat} (bound : offset ≤ 3) :
    triples (voxels.flatMap Prod.snd) offset =
      voxels.flatMap fun voxel => (voxel.2.drop offset).take 3 := by
  induction voxels with
  | nil => simp [triples, sweep]
  | cons voxel rest ih =>
    rw [List.flatMap_cons, triples_append (six voxel (by simp)) bound,
      ih fun other member => six other (List.mem_cons_of_mem _ member), List.flatMap_cons]

theorem entries_six (cell : JsNumber → Cell) (buffer : List JsNumber) :
    ∀ voxel ∈ entries cell buffer, voxel.2.length = 6 := by
  intro voxel member
  obtain ⟨turn, -, rfl⟩ := List.mem_map.mp member
  rfl

theorem geometry_values {voxels : List (Entry Cell)}
    (six : ∀ voxel ∈ voxels, voxel.2.length = 6) :
    geometry (voxels.flatMap Prod.snd) = picture voxels := by
  rw [geometry, triples_values six (by decide), triples_values six (by decide), picture]
  congr 1
  refine List.flatMap_congr fun voxel member => List.take_of_length_le ?_
  rw [List.length_drop, six voxel member]

def drawn (points : List CloudPoint) : Geometry where
  positions := points.flatMap fun point => [.ofBits point.x, .ofBits point.y, .ofBits point.z]
  colors := points.flatMap fun point =>
    [.ofBits (byteToFloat point.r), .ofBits (byteToFloat point.g), .ofBits (byteToFloat point.b)]

section Shown

variable [DecidableEq Cell] (cell : JsNumber → Cell)

theorem voxelMap_eq (buffer : List JsNumber) :
    voxelMap cell buffer = FoldRules.firsts Prod.fst (entries cell buffer) := by
  rw [voxelMap, FoldRules.firsts, List.foldl_map]

theorem voxelGridFilter_shown (buffer : List JsNumber) :
    geometry (voxelGridFilter cell buffer) =
      picture (FoldRules.firsts Prod.fst (entries cell buffer)) := by
  have firsts := FoldRules.firsts_first Prod.fst (entries cell buffer)
  rw [voxelGridFilter, voxelMap_eq, geometry_values]
  exact fun voxel member => entries_six cell buffer voxel (firsts.sublist.subset member)

theorem shows_concat (readings : List (List UInt8)) (data : List UInt8) :
    shows cell (readings ++ [data]) = watchPcd cell (shows cell readings) data := by
  rw [shows, shows, List.foldl_append]
  simp only [List.foldl_cons, List.foldl_nil, onPcd, Base64.decode_encode]

theorem serialize_eq (cloud : List CloudPoint) :
    serialize cloud = (cloud.flatMap CloudPoint.data).flatMap littleEndian := by
  rw [List.flatMap_assoc]
  rfl

theorem flatMap_fields (cloud : List CloudPoint) :
    (cloud.flatMap CloudPoint.data).map .ofBits = cloud.flatMap fields := by
  rw [List.map_flatMap]
  rfl

def Sampled (cloud : List CloudPoint) (shown : Geometry) : Prop :=
  ∃ points, FoldRules.Firsts (cellOf cell) cloud points ∧ shown = drawn points

theorem cloud_shown (readings : List (List UInt8)) (cloud : List CloudPoint) :
    Sampled cell cloud (shows cell (readings ++ [serialize cloud])) := by
  refine ⟨FoldRules.firsts (cellOf cell) cloud, FoldRules.firsts_first (cellOf cell) cloud, ?_⟩
  rw [shows_concat, watchPcd, serialize_eq, float32Array_words, flatMap_fields]
  dsimp only
  rw [voxelGridFilter_shown, entries_cloud, FoldRules.firsts_map, picture, List.flatMap_map,
    List.flatMap_map]
  rfl

/-- A viewer that came at some time shows nothing yet, or the first point of each voxel of a
cloud that was written. -/
def ShowsWritten {Writer Reader : Type*} (file : CloudFile Writer Reader) : Prop :=
  ∀ missed seen, file.handed = missed ++ seen →
    seen = [] ∨ ∃ cloud ∈ file.written, Sampled cell cloud (shows cell seen)

theorem showsWritten_of_untorn {Writer Reader : Type*} {file : CloudFile Writer Reader}
    (untorn : file.Untorn) : ShowsWritten cell file := by
  intro missed seen handed
  rcases List.eq_nil_or_concat seen with none | ⟨before, last, rfl⟩
  · exact .inl none
  · have sent : last ∈ file.handed := by
      rw [handed]
      simp
    obtain ⟨cloud, written, rfl⟩ := untorn last sent
    exact .inr ⟨cloud, written, List.concat_eq_append ▸ cloud_shown cell before cloud⟩

/-- As long as no reader and no stream are in the file together, every viewer shows a cloud that
was written, or nothing yet. -/
theorem always_showsWritten {Writer Reader : Type*} [DecidableEq Writer] [DecidableEq Reader]
    {labels : List (CloudLabel Writer Reader)}
    (meets : LabelledRun.Meets CloudFile.step CloudFile.Apart CloudFile.start labels) :
    LabelledRun.Always CloudFile.step (ShowsWritten cell) CloudFile.start labels := by
  have intact := LabelledRun.always_of_meets
    (fun _ _ _ intact met taken => CloudFile.Intact.step intact met taken)
    CloudFile.Intact.start meets
  exact intact.mono fun _ intact => showsWritten_of_untorn cell intact.untorn

/-- The cells of the numbers 0 and 1. -/
def unitCells : JsNumber → Option Nat
  | .nan => none
  | .float bits => if bits = 0x3f800000 then some 20 else some 0

theorem always_showsWritten_inTurn :
    LabelledRun.Always CloudFile.step (ShowsWritten unitCells) CloudFile.start
      (CloudFile.inTurn [⟨0x3f800000, 0, 0, 255, 0, 0⟩]) :=
  always_showsWritten unitCells (by decide)

theorem take_words (values : List UInt32) (count : Nat) :
    (values.flatMap littleEndian).take (4 * count) =
      (values.take count).flatMap littleEndian := by
  induction values generalizing count with
  | nil => simp
  | cons value rest ih =>
    cases count with
    | zero => rfl
    | succ count =>
      have four : (littleEndian value).length = 4 := rfl
      rw [List.flatMap_cons, Nat.mul_succ, Nat.add_comm, ← four, List.take_length_add_append,
        four, ih]
      rfl

/-- A reading that ends within a point: cut within a float it changes nothing, else the fields
that are missing are NaN. -/
theorem cut_shown {front : List UInt8} {cloud : List CloudPoint} (cut : front <+: serialize cloud)
    (readings : List (List UInt8)) :
    (front.length % 4 ≠ 0 → shows cell (readings ++ [front]) = shows cell readings) ∧
      (front.length % 4 = 0 →
        ∃ voxels, FoldRules.Firsts Prod.fst (cutEntries cell cloud (front.length / 4)) voxels ∧
          shows cell (readings ++ [front]) = picture voxels) := by
  constructor
  · intro odd
    rw [shows_concat, watchPcd, (float32Array_isNone front).mpr odd]
  · intro even
    have length : front.length = 4 * (front.length / 4) := by omega
    have taken : front =
        ((cloud.flatMap CloudPoint.data).take (front.length / 4)).flatMap littleEndian := by
      rw [← take_words, ← length, ← serialize_eq]
      exact List.prefix_iff_eq_take.mp cut
    have floats : float32Array front =
        some ((cloud.flatMap fields).take (front.length / 4)) := by
      rw [← flatMap_fields, ← List.map_take, ← float32Array_words, ← taken]
    refine ⟨_, FoldRules.firsts_first Prod.fst _, ?_⟩
    rw [shows_concat, watchPcd, floats]
    dsimp only
    rw [voxelGridFilter_shown, entries_cut]

theorem cut_shown_withinPoint :
    let point : CloudPoint := ⟨0x3f800000, 0, 0, 255, 0, 0⟩
    let front := (serialize [point, point]).take 36
    (front.length % 4 ≠ 0 → shows unitCells ([] ++ [front]) = shows unitCells []) ∧
      (front.length % 4 = 0 →
        ∃ voxels, FoldRules.Firsts Prod.fst
            (cutEntries unitCells [point, point] (front.length / 4)) voxels ∧
          shows unitCells ([] ++ [front]) = picture voxels) :=
  cut_shown unitCells (List.take_prefix 36 _) []

end Shown

end PcdShow

end AutoDrop
