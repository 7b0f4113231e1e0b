import AutoDrop.CloudBuffers
import Mathlib.Data.List.Dedup
import Mathlib.Data.List.Infix

/-!
The decoder of the RSAIRY lidar, from the bytes of its packets to the calls that the thread of the
lidar makes on the point clouds. A point stands for the numbers its coordinates are computed from.
-/

namespace AutoDrop

open LabelledRun

inductive EchoMode
  | single
  | dual
deriving DecidableEq

inductive LidarModel
  | channel48
  | channel96
  | channel192
deriving DecidableEq

inductive LidarPoint
  | seen (distance : Nat) (angleVert angleHoriz angleHorizFinal : Int) (intensity : Nat)
  -- no measurement
  | nan
deriving DecidableEq

/-- Angles are hundredths of a degree. -/
structure LidarSettings where
  startAngle : Int
  endAngle : Int
  splitAngle : Int
  densePoints : Bool
  waitForDifop : Bool

/-- What the decoder computes with `float` and `double`: the azimuth between two blocks at so many
rounds a second, the part of it that a channel is behind its block, and which raw distances lie
inside the bounds. -/
structure LidarFloats where
  blockAzDiff : Nat → Nat
  chanAzimuth : LidarModel → Int → Nat → Int
  inDistance : Nat → Bool

structure LidarDecoder where
  -- the vertical and the horizontal angle of each channel
  chanAngles : List (Int × Int)
  anglesReady : Bool
  blockAzDiff : Nat
  mode : Option (EchoMode × LidarModel)
  prevAngle : Int
  pointCloud : List LidarPoint

/-- A buffer and how many bytes of it were received. -/
structure LidarPacket where
  data : Nat → UInt8
  dataSize : Nat

/-- The azimuth of a block and its points. -/
abbrev LidarBlock := Int × List LidarPoint

namespace LidarDecoder

def byte (pkt : LidarPacket) (i : Nat) : Nat := (pkt.data i).toNat

/-- `ntohs` of the two bytes from `i` on. -/
def word (pkt : LidarPacket) (i : Nat) : Nat := 256 * byte pkt i + byte pkt (i + 1)

/-- `memcmp` from `i` on. -/
def hasId (pkt : LidarPacket) (i : Nat) (id : List UInt8) : Bool :=
  (List.range id.length).map (fun k => pkt.data (i + k)) == id

def laserNum : Nat := 96

def blocksPerPkt : Nat := 8

def channelsPerBlock : Nat := 48

/-- `init` has made the decoder and its first cloud. -/
def initial (settings : LidarSettings) : LidarDecoder where
  chanAngles := List.replicate laserNum (0, 0)
  anglesReady := false
  blockAzDiff := 20
  mode := none
  prevAngle := settings.splitAngle
  pointCloud := []

def roundAngle (value : Int) : Int := (value.tmod 36000 + 36000).tmod 36000

/-- `AzimuthSection::in`. -/
def inSection (start stop angle : Int) : Bool :=
  if roundAngle (stop - start) = 0 then true
  else if roundAngle stop < roundAngle start then
    decide (roundAngle start ≤ angle) || decide (angle < roundAngle stop)
  else decide (roundAngle start ≤ angle) && decide (angle < roundAngle stop)

/-! The angles in a DIFOP packet. -/

def angleCheck (v : Int) : Bool := decide (-9000 ≤ v) && decide (v < 18000)

def calibrationAngle (pkt : LidarPacket) (i : Nat) : Int :=
  if byte pkt i = 0 then word pkt (i + 1) else -word pkt (i + 1)

def loadFromDifop (pkt : LidarPacket) : Option (List (Int × Int)) :=
  (List.range laserNum).mapM fun chan =>
    let vert := calibrationAngle pkt (468 + 3 * chan)
    let horiz := calibrationAngle pkt (756 + 3 * chan)
    if byte pkt (468 + 3 * chan) = 0xFF then none
    else if angleCheck vert && angleCheck horiz then some (vert, horiz)
    else none

def decodeDifopPkt (floats : LidarFloats) (decoder : LidarDecoder) (pkt : LidarPacket) :
    LidarDecoder :=
  let rps := if word pkt 8 / 60 = 0 then 10 else word pkt 8 / 60
  let decoder := { decoder with blockAzDiff := floats.blockAzDiff rps }
  if decoder.anglesReady then decoder
  else
    match loadFromDifop pkt with
    | some angles => { decoder with chanAngles := angles, anglesReady := true }
    | none => decoder

def processDifopPkt (floats : LidarFloats) (decoder : LidarDecoder) (pkt : LidarPacket) :
    LidarDecoder :=
  if pkt.dataSize ≠ 1248 then decoder
  else if !hasId pkt 0 [0xA5, 0xFF, 0x00, 0x5A, 0x11, 0x11, 0x55, 0x55] then decoder
  else decodeDifopPkt floats decoder pkt

/-! The points in an MSOP packet. -/

def getEchoMode (mode : Nat) : EchoMode := if mode = 3 then .dual else .single

def getLidarModel (mode : Nat) : LidarModel :=
  match mode with
  | 1 => .channel48
  | 2 => .channel96
  | 3 => .channel192
  | _ => .channel96

/-- How many blocks share an azimuth, by the block iterator that is chosen. -/
def blocksInOne : EchoMode × LidarModel → Option Nat
  | (.single, .channel48) => some 1
  | (.dual, .channel48) => some 2
  | (.single, .channel96) => some 2
  | (.dual, .channel96) => some 4
  | (_, .channel192) => none

def blockOffset (blk : Nat) : Nat := 42 + 148 * blk

def azimuth (pkt : LidarPacket) (blk : Nat) : Int := word pkt (blockOffset blk + 2)

/-- `BlockIterator::get`. -/
def azDiff (blockAzDiff : Nat) (pkt : LidarPacket) (inOne blk : Nat) : Int :=
  let first := blk / inOne * inOne
  if first + inOne < blocksPerPkt then
    let diff := azimuth pkt (first + inOne) - azimuth pkt first
    let diff := if diff < 0 then diff + 36000 else diff
    if 100 < diff then blockAzDiff else diff
  else blockAzDiff

/-- The point of a channel, if it makes one. -/
def channelPoint (settings : LidarSettings) (floats : LidarFloats) (decoder : LidarDecoder)
    (model : LidarModel) (pkt : LidarPacket) (inOne blk chan : Nat) : List LidarPoint :=
  let offset := blockOffset blk + 4 + 3 * chan
  let chanId := if model = .channel96 ∧ blk % 2 = 1 then chan + 48 else chan
  let angles := decoder.chanAngles.getD chanId (0, 0)
  let angleHoriz := azimuth pkt blk +
    floats.chanAzimuth model (azDiff decoder.blockAzDiff pkt inOne blk) chanId
  let angleHorizFinal := angleHoriz + angles.2
  let distance := word pkt offset % 16384
  if floats.inDistance distance &&
      inSection settings.startAngle settings.endAngle angleHorizFinal then
    [.seen distance angles.1 angleHoriz angleHorizFinal (byte pkt (offset + 2))]
  else if settings.densePoints then []
  else [.nan]

/-- The blocks up to the first one with a wrong id. -/
def msopBlocks (settings : LidarSettings) (floats : LidarFloats) (decoder : LidarDecoder)
    (model : LidarModel) (pkt : LidarPacket) (inOne : Nat) : List LidarBlock :=
  let sound := (List.range blocksPerPkt).takeWhile fun blk =>
    hasId pkt (blockOffset blk) [0xFF, 0xEE]
  sound.map fun blk =>
    (azimuth pkt blk, (List.range channelsPerBlock).flatMap
      (channelPoint settings floats decoder model pkt inOne blk))

/-- The first packet settles the mode. -/
def decodeMsopPkt (settings : LidarSettings) (floats : LidarFloats) (decoder : LidarDecoder)
    (pkt : LidarPacket) : LidarDecoder × List LidarBlock :=
  if byte pkt 16 ≠ 0 then (decoder, [])
  else
    let mode := decoder.mode.getD (getEchoMode (byte pkt 17), getLidarModel (byte pkt 32))
    let decoder := { decoder with mode := some mode }
    match blocksInOne mode with
    | none => (decoder, [])
    | some inOne => (decoder, msopBlocks settings floats decoder mode.2 pkt inOne)

/-- The tests of `processMsopPkt` and the blocks of a packet that passes them. -/
def readMsopPkt (settings : LidarSettings) (floats : LidarFloats) (decoder : LidarDecoder)
    (pkt : LidarPacket) : LidarDecoder × List LidarBlock :=
  if settings.waitForDifop && !decoder.anglesReady then (decoder, [])
  else if pkt.dataSize ≠ 1248 then (decoder, [])
  else if !hasId pkt 0 [0x55, 0xAA, 0x05, 0x5A] then (decoder, [])
  else decodeMsopPkt settings floats decoder pkt

/-! The frames. -/

/-- `SplitStrategyByAngle::newBlock`, with the angle it keeps. -/
def newBlock (splitAngle prevAngle angle : Int) : Bool × Int :=
  let prevAngle := if angle < prevAngle then prevAngle - 36000 else prevAngle
  (decide (prevAngle < splitAngle) && decide (splitAngle ≤ angle), angle)

/-- `splitFrame` hands a cloud over that has points. -/
def splitFrame (decoder : LidarDecoder) : LidarDecoder × List (BufferEvent LidarPoint) :=
  if 0 < decoder.pointCloud.length then
    ({ decoder with pointCloud := [] }, [.splitFrame, .returnCloud, .getCloud])
  else (decoder, [])

def takeBlock (settings : LidarSettings) (decoder : LidarDecoder) (block : LidarBlock) :
    LidarDecoder × List (BufferEvent LidarPoint) :=
  let (crossed, prevAngle) := newBlock settings.splitAngle decoder.prevAngle block.1
  let (decoder, calls) := if crossed then splitFrame decoder else (decoder, [])
  ({ decoder with prevAngle := prevAngle, pointCloud := decoder.pointCloud ++ block.2 },
    calls ++ block.2.map .point)

def takeBlocks (settings : LidarSettings) :
    LidarDecoder → List LidarBlock → LidarDecoder × List (BufferEvent LidarPoint)
  | decoder, [] => (decoder, [])
  | decoder, block :: rest =>
      let (decoder, calls) := takeBlock settings decoder block
      let (decoder, later) := takeBlocks settings decoder rest
      (decoder, calls ++ later)

/-- A cloud that no split has ended is thrown away. -/
def clearOverflow (decoder : LidarDecoder) : LidarDecoder × List (BufferEvent LidarPoint) :=
  if CloudBuffers.cloudPointMax < decoder.pointCloud.length then
    ({ decoder with pointCloud := [] }, [.overflow])
  else (decoder, [])

def processMsopPkt (settings : LidarSettings) (floats : LidarFloats) (decoder : LidarDecoder)
    (pkt : LidarPacket) : LidarDecoder × List (BufferEvent LidarPoint) × List LidarBlock :=
  let (decoder, cleared) := clearOverflow decoder
  let (decoder, blocks) := readMsopPkt settings floats decoder pkt
  let (decoder, calls) := takeBlocks settings decoder blocks
  (decoder, cleared ++ calls, blocks)

/-- A packet, with the calls it leads to and the blocks that were read from it. -/
def internalProcessPacket (settings : LidarSettings) (floats : LidarFloats)
    (decoder : LidarDecoder) (pkt : LidarPacket) :
    LidarDecoder × List (BufferEvent LidarPoint) × List LidarBlock :=
  if hasId pkt 0 [0x55, 0xAA] then processMsopPkt settings floats decoder pkt
  else if hasId pkt 0 [0xA5, 0xFF] then (processDifopPkt floats decoder pkt, [], [])
  else (decoder, [], [])

def processPacket (settings : LidarSettings) (floats : LidarFloats) :
    LidarDecoder → List LidarPacket →
      LidarDecoder × List (BufferEvent LidarPoint) × List LidarBlock
  | decoder, [] => (decoder, [], [])
  | decoder, pkt :: rest =>
      let (decoder, calls, blocks) := internalProcessPacket settings floats decoder pkt
      let (decoder, laterCalls, laterBlocks) := processPacket settings floats decoder rest
      (decoder, calls ++ laterCalls, blocks ++ laterBlocks)

/-! The angles that points are computed with. -/

/-- The angles of a DIFOP packet that has sound ones. -/
def anglesOf (pkt : LidarPacket) : Option (List (Int × Int)) :=
  if hasId pkt 0 [0x55, 0xAA] || !hasId pkt 0 [0xA5, 0xFF] || pkt.dataSize ≠ 1248 ||
      !hasId pkt 0 [0xA5, 0xFF, 0x00, 0x5A, 0x11, 0x11, 0x55, 0x55] then none
  else loadFromDifop pkt

/-- A point with the angles of one of the channels. -/
def LidarPoint.Calibrated (angles : List (Int × Int)) : LidarPoint → Prop
  | .seen _ angleVert angleHoriz angleHorizFinal _ =>
      ∃ chan < laserNum, angles.getD chan (0, 0) = (angleVert, angleHorizFinal - angleHoriz)
  | .nan => True

variable {settings : LidarSettings} {floats : LidarFloats} {decoder : LidarDecoder}

theorem channelPoint_calibrated {model : LidarModel} {pkt : LidarPacket} {inOne blk chan : Nat}
    (inside : chan < channelsPerBlock) {point : LidarPoint}
    (made : point ∈ channelPoint settings floats decoder model pkt inOne blk chan) :
    LidarPoint.Calibrated decoder.chanAngles point := by
  have within : (if model = .channel96 ∧ blk % 2 = 1 then chan + 48 else chan) < laserNum := by
    rw [channelsPerBlock] at inside
    rw [laserNum]
    split <;> omega
  unfold channelPoint at made
  generalize (if model = .channel96 ∧ blk % 2 = 1 then chan + 48 else chan) = chanId
    at within made
  dsimp only at made
  split at made
  · obtain rfl := List.mem_singleton.mp made
    refine ⟨chanId, within, Prod.ext rfl ?_⟩
    dsimp only
    omega
  · split at made
    · cases made
    · obtain rfl := List.mem_singleton.mp made
      trivial

theorem msopBlocks_calibrated {model : LidarModel} {pkt : LidarPacket} {inOne : Nat} :
    ∀ block ∈ msopBlocks settings floats decoder model pkt inOne,
      ∀ point ∈ block.2, LidarPoint.Calibrated decoder.chanAngles point := by
  intro block member point made
  obtain ⟨blk, -, rfl⟩ := List.mem_map.mp member
  obtain ⟨chan, inside, made⟩ := List.mem_flatMap.mp made
  exact channelPoint_calibrated (List.mem_range.mp inside) made

theorem readMsopPkt_calibrated (settings : LidarSettings) (floats : LidarFloats)
    (decoder : LidarDecoder) (pkt : LidarPacket) :
    (readMsopPkt settings floats decoder pkt).1.chanAngles = decoder.chanAngles ∧
      (readMsopPkt settings floats decoder pkt).1.anglesReady = decoder.anglesReady ∧
      (settings.waitForDifop = true → decoder.anglesReady = false →
        (readMsopPkt settings floats decoder pkt).2 = []) ∧
      ∀ block ∈ (readMsopPkt settings floats decoder pkt).2,
        ∀ point ∈ block.2, LidarPoint.Calibrated decoder.chanAngles point := by
  unfold readMsopPkt decodeMsopPkt
  split
  · exact ⟨rfl, rfl, fun _ _ => rfl, nofun⟩
  next ready =>
    have never : settings.waitForDifop = true → decoder.anglesReady = false → False := by
      intro waits unready
      simp [waits, unready] at ready
    split
    · exact ⟨rfl, rfl, fun _ _ => rfl, nofun⟩
    split
    · exact ⟨rfl, rfl, fun _ _ => rfl, nofun⟩
    split
    · exact ⟨rfl, rfl, fun _ _ => rfl, nofun⟩
    dsimp only
    split
    · exact ⟨rfl, rfl, fun _ _ => rfl, nofun⟩
    · exact ⟨rfl, rfl, fun waits unready => (never waits unready).elim, msopBlocks_calibrated⟩

theorem takeBlock_angles (settings : LidarSettings) (decoder : LidarDecoder) (block : LidarBlock) :
    (takeBlock settings decoder block).1.chanAngles = decoder.chanAngles ∧
      (takeBlock settings decoder block).1.anglesReady = decoder.anglesReady := by
  unfold takeBlock splitFrame
  dsimp only
  split
  · split <;> exact ⟨rfl, rfl⟩
  · exact ⟨rfl, rfl⟩

theorem takeBlocks_angles (settings : LidarSettings) (blocks : List LidarBlock)
    (decoder : LidarDecoder) :
    (takeBlocks settings decoder blocks).1.chanAngles = decoder.chanAngles ∧
      (takeBlocks settings decoder blocks).1.anglesReady = decoder.anglesReady := by
  induction blocks generalizing decoder with
  | nil => exact ⟨rfl, rfl⟩
  | cons block rest ih =>
    obtain ⟨angles, ready⟩ := takeBlock_angles settings decoder block
    obtain ⟨later, still⟩ := ih (takeBlock settings decoder block).1
    exact ⟨later.trans angles, still.trans ready⟩

theorem clearOverflow_angles (decoder : LidarDecoder) :
    (clearOverflow decoder).1.chanAngles = decoder.chanAngles ∧
      (clearOverflow decoder).1.anglesReady = decoder.anglesReady := by
  unfold clearOverflow
  split <;> exact ⟨rfl, rfl⟩

theorem processDifopPkt_angles (floats : LidarFloats) (decoder : LidarDecoder) {pkt : LidarPacket}
    (other : hasId pkt 0 [0x55, 0xAA] = false) (difop : hasId pkt 0 [0xA5, 0xFF] = true) :
    (processDifopPkt floats decoder pkt).chanAngles =
        (if decoder.anglesReady then decoder.chanAngles
          else (anglesOf pkt).getD decoder.chanAngles) ∧
      (processDifopPkt floats decoder pkt).anglesReady =
        (decoder.anglesReady || (anglesOf pkt).isSome) := by
  unfold processDifopPkt anglesOf
  simp only [other, difop, Bool.not_true, Bool.or_self, Bool.false_or]
  by_cases size : pkt.dataSize = 1248
  · cases hasId pkt 0 [0xA5, 0xFF, 0x00, 0x5A, 0x11, 0x11, 0x55, 0x55] with
    | false => simp [size]
    | true =>
      simp only [size, decodeDifopPkt]
      cases decoder.anglesReady <;> cases loadFromDifop pkt <;> simp
  · simp [size]

/-- The decoder waits for the first sound angles, and keeps them. -/
theorem internalProcessPacket_angles (settings : LidarSettings) (floats : LidarFloats)
    (decoder : LidarDecoder) (pkt : LidarPacket) :
    (internalProcessPacket settings floats decoder pkt).1.chanAngles =
        (if decoder.anglesReady then decoder.chanAngles
          else (anglesOf pkt).getD decoder.chanAngles) ∧
      (internalProcessPacket settings floats decoder pkt).1.anglesReady =
        (decoder.anglesReady || (anglesOf pkt).isSome) ∧
      (settings.waitForDifop = true → decoder.anglesReady = false →
        (internalProcessPacket settings floats decoder pkt).2.2 = []) ∧
      ∀ block ∈ (internalProcessPacket settings floats decoder pkt).2.2,
        ∀ point ∈ block.2, LidarPoint.Calibrated decoder.chanAngles point := by
  unfold internalProcessPacket
  cases msop : hasId pkt 0 [0x55, 0xAA] with
  | true =>
    have absent : anglesOf pkt = none := by simp [anglesOf, msop]
    obtain ⟨cleared, waiting⟩ := clearOverflow_angles decoder
    obtain ⟨read, still, silent, calibrated⟩ := readMsopPkt_calibrated settings floats
      (clearOverflow decoder).1 pkt
    rw [cleared] at read calibrated
    rw [waiting] at still silent
    simp only [processMsopPkt, if_true, absent, Option.getD_none, Option.isSome_none, Bool.or_false,
      ite_self]
    exact ⟨(takeBlocks_angles _ _ _).1.trans read, (takeBlocks_angles _ _ _).2.trans still, silent,
      calibrated⟩
  | false =>
    cases difop : hasId pkt 0 [0xA5, 0xFF] with
    | true =>
      obtain ⟨angles, ready⟩ := processDifopPkt_angles floats decoder msop difop
      exact ⟨angles, ready, fun _ _ => rfl, nofun⟩
    | false =>
      have absent : anglesOf pkt = none := by simp [anglesOf, difop]
      simp [absent]

theorem calibrated_of_ready {packets : List LidarPacket} (ready : decoder.anglesReady = true) :
    ∀ block ∈ (processPacket settings floats decoder packets).2.2,
      ∀ point ∈ block.2, LidarPoint.Calibrated decoder.chanAngles point := by
  induction packets generalizing decoder with
  | nil => exact nofun
  | cons pkt packets ih =>
    obtain ⟨angles, still, -, calibrated⟩ :=
      internalProcessPacket_angles settings floats decoder pkt
    rw [ready, if_pos rfl] at angles
    rw [ready, Bool.true_or] at still
    intro block member
    rcases List.mem_append.mp member with here | later
    · exact calibrated block here
    · exact angles ▸ ih still block later

/-- Every point is computed with the angles of the first packet that has sound ones. -/
theorem points_calibrated {packets : List LidarPacket} (waits : settings.waitForDifop = true)
    {block : LidarBlock}
    (read : block ∈ (processPacket settings floats (initial settings) packets).2.2) :
    ∃ angles, packets.findSome? anglesOf = some angles ∧
      ∀ point ∈ block.2, LidarPoint.Calibrated angles point := by
  have unready : (initial settings).anglesReady = false := rfl
  generalize initial settings = decoder at read unready
  induction packets generalizing decoder with
  | nil => cases read
  | cons pkt packets ih =>
    obtain ⟨angles, ready, silent, -⟩ :=
      internalProcessPacket_angles settings floats decoder pkt
    rw [unready] at angles ready
    simp only [processPacket, silent waits unready, List.nil_append] at read
    cases sound : anglesOf pkt with
    | none =>
      rw [List.findSome?_cons, sound]
      exact ih _ read (by rw [ready, sound]; rfl)
    | some found =>
      refine ⟨found, by rw [List.findSome?_cons, sound], ?_⟩
      have kept := calibrated_of_ready (by rw [ready, sound]; rfl) block read
      rwa [angles, sound] at kept

/-- What `init_rs_param` sets, and the defaults. -/
def initRsParam : LidarSettings where
  startAngle := 0
  endAngle := 36000
  splitAngle := 0
  densePoints := true
  waitForDifop := true

/-- Nanoseconds from a block to its channels. -/
def firingTss : List Int :=
  [0, 7616, 16184, 24752, 33320, 42840, 52360, 61880, 71400, 79968, 88536, 97104]

/-- The same without rounding. -/
def exactFloats : LidarFloats where
  blockAzDiff rps := (36000 * rps * 11108 + 50000000) / 100000000
  chanAzimuth model diff chan :=
    let fired := firingTss.getD (chan / if model = .channel48 then 4 else 8) 0
    (diff * fired).tdiv 111080
  inDistance distance := Nat.ble 20 distance && Nat.ble distance 30000

def packetOf (written : List (Nat × UInt8)) : LidarPacket where
  data i := (written.lookup i).getD 0
  dataSize := 1248

/-- The angles, and three blocks with one measurement each on both sides of zero. -/
def twoPackets : List LidarPacket :=
  [packetOf [(0, 0xA5), (1, 0xFF), (3, 0x5A), (4, 0x11), (5, 0x11), (6, 0x55), (7, 0x55),
      (8, 0x02), (9, 0x58)],
    packetOf [(0, 0x55), (1, 0xAA), (2, 0x05), (3, 0x5A),
      (42, 0xFF), (43, 0xEE), (44, 0x8C), (45, 0x96), (46, 0x03), (47, 0xE8), (48, 0x07),
      (190, 0xFF), (191, 0xEE), (192, 0x8C), (193, 0x96), (194, 0x03), (195, 0xE8), (196, 0x07),
      (338, 0xFF), (339, 0xEE), (340, 0x00), (341, 0x0A), (342, 0x03), (343, 0xE8), (344, 0x07)]]

def twoPacketsBlocks : List LidarBlock :=
  [(35990, [.seen 1000 0 35990 35990 7]), (35990, [.seen 1000 0 35999 35999 7]),
    (10, [.seen 1000 0 10 10 7])]

def twoPacketsCalls : List (BufferEvent LidarPoint) :=
  [.point (.seen 1000 0 35990 35990 7), .point (.seen 1000 0 35999 35999 7), .splitFrame,
    .returnCloud, .getCloud, .point (.seen 1000 0 10 10 7)]

theorem twoPackets_decoded :
    (processPacket initRsParam exactFloats (initial initRsParam) twoPackets).2.1 =
        twoPacketsCalls ∧
      (processPacket initRsParam exactFloats (initial initRsParam) twoPackets).2.2 =
        twoPacketsBlocks := by
  have decoded : (processPacket initRsParam exactFloats (initial initRsParam) twoPackets).2 =
      (twoPacketsCalls, twoPacketsBlocks) := by decide +kernel
  rw [decoded]
  exact ⟨rfl, rfl⟩

theorem points_calibrated_twoPackets :
    ∃ angles, twoPackets.findSome? anglesOf = some angles ∧
      ∀ point ∈ [LidarPoint.seen 1000 0 35999 35999 7], LidarPoint.Calibrated angles point := by
  have member : (35990, [LidarPoint.seen 1000 0 35999 35999 7]) ∈ twoPacketsBlocks := by decide
  rw [← twoPackets_decoded.2] at member
  exact points_calibrated rfl member

end LidarDecoder

end AutoDrop
