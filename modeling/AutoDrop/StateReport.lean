import AutoDrop.CjsonRoundTrip
import AutoDrop.DaemonStart
import AutoDrop.RdDriverCore
import Mathlib.Data.List.Flatten

/-!
The state of an appliance as it is published, and the message that opens or closes a gate: two
JSON texts behind a `CJsonObject`. Each lookup of a port is a call of its own, so the devices that
run may differ from one to the next.
-/

namespace AutoDrop

/-- What the pointer of a `CJsonObject` is set to. -/
abbrev CJsonObject (Double : Type) := Option (Cjson Double)

variable {Double : Type}

namespace Cjson

def lower (ch : UInt8) : UInt8 := if Nat.ble 65 ch.toNat && Nat.ble ch.toNat 90 then ch + 32 else ch

/-- `cJSON_strcasecmp` finds no difference. -/
def sameName (s1 s2 : List UInt8) : Bool := s1.map lower == s2.map lower

def getObjectItem (string : List UInt8) : CjsonMembers Double → Option (Cjson Double)
  | .nil => none
  | .cons name item next =>
      if sameName name string then some item else getObjectItem string next

def addItemToObject (string : List UInt8) (item : Cjson Double) :
    CjsonMembers Double → CjsonMembers Double
  | .nil => .cons string item .nil
  | .cons name first next => .cons name first (addItemToObject string item next)

end Cjson

namespace CJsonObject

open Cjson

/-- The text of a `std::string` up to its NUL. -/
def cStr (text : List UInt8) : List UInt8 := text.takeWhile (· != 0)

def ofString (format : DoubleFormat Double) (strJson : List UInt8) : CJsonObject Double :=
  Cjson.parse format (cStr strJson)

/-- `operator()`. -/
def value (format : DoubleFormat Double) (json : CJsonObject Double) (strKey : List UInt8) :
    List UInt8 :=
  match json with
  | some (.object child) =>
      match getObjectItem strKey child with
      | some (.string valuestring) => valuestring
      | some (.int value) => printInt value
      | some (.double value) => format.shown value
      | some (.bool value) => bytes (if value then "true" else "false")
      | _ => []
  | _ => []

/-- `Add`; a key that is there already is refused. -/
def add (json : CJsonObject Double) (strKey : List UInt8) (item : Cjson Double) :
    CJsonObject Double :=
  match json with
  | none => some (.object (.cons strKey item .nil))
  | some (.object child) =>
      if (getObjectItem strKey child).isSome then json
      else some (.object (addItemToObject strKey item child))
  | some _ => json

def toText (format : DoubleFormat Double) : CJsonObject Double → List UInt8
  | none => []
  | some item => printUnformatted format item

end CJsonObject

namespace VehiclePositionDetectState

def toInt : VehiclePositionDetectState → Int
  | vehiclePostionBegin => 0
  | vehiclePostionMiddle => 1
  | vehiclePostionEnd => 2
  | vehiclePostionOut => 3

end VehiclePositionDetectState

/-- What the driver of a device answers; a call that fails has no answer. -/
structure DriverServiceClient (Double : Type) where
  vehiclePassedGate : Option Bool
  getTriggerVehiclePlate : Option (List UInt8)
  vehicleRdDetect : Option (VehicleRdDetectResult Double)
  getScaleWeight : Option Double
  getLcOpen : Option Int32

namespace StateReport

open Cjson CJsonObject Supervisor

abbrev Getter (Double : Type) :=
  DriverServiceClient Double → CJsonObject Double → CJsonObject Double

/-- A call that fails leaves the members of its device out. -/
def answered {Answer : Type} (answer : Option Answer) (json : CJsonObject Double)
    (members : Answer → CJsonObject Double) : CJsonObject Double :=
  match answer with
  | none => json
  | some answer => members answer

/-- `g_all_state_get_map`, in the order of its keys. -/
def allStateGetMap : List (String × Getter Double) := [
  ("camera", fun client json => answered client.getTriggerVehiclePlate json fun plate =>
    json.add (bytes "plate") (.string (cStr plate))),
  ("gate", fun client json => answered client.vehiclePassedGate json fun gate =>
    json.add (bytes "gate") (.bool gate)),
  ("lc_device", fun client json => answered client.getLcOpen json fun threshold =>
    json.add (bytes "lc_open_threshold") (.int threshold.toInt)),
  ("ridar", fun client json => answered client.vehicleRdDetect json fun result =>
    (((json.add (bytes "rd_position") (.int result.state.toInt)).add
      -- the overload for integers is taken
      (bytes "rd_full") (.int (if result.isFull then 1 else 0))).add
      (bytes "rd_full_offset") (.double result.fullOffset)).add
      (bytes "rd_side_top_z") (.double result.sideTopZ)),
  ("scale", fun client json => answered client.getScaleWeight json fun weight =>
    json.add (bytes "scale_weight") (.double weight))]

/-- `ad_rpc_get_specific_dev_port`, of the first device with the name. -/
def getSpecificDevPort (devices : List DeviceConfig) (devName : List UInt8) : Nat :=
  match devices.find? fun dev => dev.deviceName.toList.flatMap String.utf8EncodeChar == devName with
  | some dev => dev.port
  | none => 0

/-- `ad_rpc_get_current_state`, with the devices and the drivers as each entry finds them. -/
def getCurrentState (format : DoubleFormat Double) (devices : String → List DeviceConfig)
    (client : String → Nat → DriverServiceClient Double) : List UInt8 :=
  toText format (allStateGetMap.foldl (fun json (name, getter) =>
    let port := getSpecificDevPort (devices name) (bytes name)
    if 0 < port then getter (client name port) json else json) none)

structure GateControl where
  port : Nat
  isClose : Bool
deriving DecidableEq, Repr

/-- `ad_rpc_gate_ctrl`: the call it makes. -/
def gateCtrl (devices : List DeviceConfig) (devName : List UInt8) (isOpen : Bool) :
    Option GateControl :=
  let port := getSpecificDevPort devices devName
  if 0 < port then some ⟨port, !isOpen⟩ else none

/-- The subscriber of `gate_ctrl_`. -/
def processGateCtrl (format : DoubleFormat Double) (devices : List DeviceConfig)
    (msg : List UInt8) : Option GateControl :=
  let json := ofString format msg
  gateCtrl devices (json.value format (bytes "dev_name"))
    (json.value format (bytes "is_open") == bytes "true")

/-! The members of a state, and the answers they come from. -/

abbrev Member (Double : Type) := String × Cjson Double

def ofList : List (Member Double) → CjsonMembers Double
  | [] => .nil
  | (key, item) :: rest => .cons (bytes key) item (ofList rest)

/-- A `CJsonObject` to which members were added. -/
def objectOf : List (Member Double) → CJsonObject Double
  | [] => none
  | first :: rest => some (.object (ofList (first :: rest)))

/-- No two names that a lookup takes for one. -/
def Distinct (keys : List String) : Prop :=
  keys.Pairwise fun key other => sameName (bytes key) (bytes other) = false

theorem getObjectItem_none {members : List (Member Double)} {key : String}
    (fresh : ∀ member ∈ members, sameName (bytes member.1) (bytes key) = false) :
    getObjectItem (bytes key) (ofList members) = none := by
  induction members with
  | nil => rfl
  | cons member members ih =>
    have other := fresh member List.mem_cons_self
    have rest := ih fun member inside => fresh member (List.mem_cons_of_mem _ inside)
    simp [ofList, getObjectItem, other, rest]

theorem sameName_self (name : List UInt8) : sameName name name = true := by simp [sameName]

theorem getObjectItem_of_mem {members : List (Member Double)}
    (distinct : Distinct (members.map Prod.fst)) {key : String} {item : Cjson Double}
    (inside : (key, item) ∈ members) : getObjectItem (bytes key) (ofList members) = some item := by
  induction members with
  | nil => exact absurd inside List.not_mem_nil
  | cons member members ih =>
    rw [List.map_cons, Distinct, List.pairwise_cons] at distinct
    rcases List.mem_cons.mp inside with rfl | later
    · simp [ofList, getObjectItem, sameName_self]
    · have other := distinct.1 key (List.mem_map.mpr ⟨_, later, rfl⟩)
      simp [ofList, getObjectItem, other, ih distinct.2 later]

theorem addItemToObject_ofList (members : List (Member Double)) (key : String)
    (item : Cjson Double) :
    addItemToObject (bytes key) item (ofList members) = ofList (members ++ [(key, item)]) := by
  induction members with
  | nil => rfl
  | cons member members ih => simp [ofList, addItemToObject, ih]

theorem add_objectOf {members : List (Member Double)} {key : String}
    (fresh : ∀ member ∈ members, sameName (bytes member.1) (bytes key) = false)
    (item : Cjson Double) :
    (objectOf members).add (bytes key) item = objectOf (members ++ [(key, item)]) := by
  cases members with
  | nil => rfl
  | cons first rest =>
    have none := getObjectItem_none fresh
    have appended := addItemToObject_ofList (first :: rest) key item
    rw [List.cons_append] at appended ⊢
    simp [objectOf, add, none, appended]

def addMember (json : CJsonObject Double) (member : Member Double) : CJsonObject Double :=
  json.add (bytes member.1) member.2

theorem addAll_objectOf (members others : List (Member Double))
    (distinct : Distinct ((members ++ others).map Prod.fst)) :
    others.foldl addMember (objectOf members) = objectOf (members ++ others) := by
  induction others generalizing members with
  | nil => rw [List.foldl_nil, List.append_nil]
  | cons member others ih =>
    have fresh : ∀ before ∈ members, sameName (bytes before.1) (bytes member.1) = false := by
      rw [Distinct, List.map_append, List.pairwise_append] at distinct
      intro before inside
      exact distinct.2.2 before.1 (List.mem_map.mpr ⟨_, inside, rfl⟩) member.1
        (List.mem_map.mpr ⟨_, List.mem_cons_self, rfl⟩)
    rw [List.foldl_cons, addMember, add_objectOf fresh,
      ih (members ++ [member]) (by simpa using distinct), List.append_assoc, List.singleton_append]

/-- The members that come from the answers of one driver. -/
def answers (client : DriverServiceClient Double) : String → List (Member Double)
  | "camera" => client.getTriggerVehiclePlate.toList.map fun plate =>
      ("plate", .string (cStr plate))
  | "gate" => client.vehiclePassedGate.toList.map fun gate => ("gate", .bool gate)
  | "lc_device" => client.getLcOpen.toList.map fun threshold =>
      ("lc_open_threshold", .int threshold.toInt)
  | "ridar" => client.vehicleRdDetect.toList.flatMap fun result => [
      ("rd_position", .int result.state.toInt),
      ("rd_full", .int (if result.isFull then 1 else 0)),
      ("rd_full_offset", .double result.fullOffset),
      ("rd_side_top_z", .double result.sideTopZ)]
  | "scale" => client.getScaleWeight.toList.map fun weight => ("scale_weight", .double weight)
  | _ => []

def stateKeys : String → List String
  | "camera" => ["plate"]
  | "gate" => ["gate"]
  | "lc_device" => ["lc_open_threshold"]
  | "ridar" => ["rd_position", "rd_full", "rd_full_offset", "rd_side_top_z"]
  | "scale" => ["scale_weight"]
  | _ => []

variable (devices : String → List DeviceConfig) (client : String → Nat → DriverServiceClient Double)

/-- What one entry of the map reports: nothing where no device has its name. -/
def entryReport (name : String) : List (Member Double) :=
  let port := getSpecificDevPort (devices name) (bytes name)
  if 0 < port then answers (client name port) name else []

def reported : List (Member Double) :=
  ["camera", "gate", "lc_device", "ridar", "scale"].flatMap (entryReport devices client)

theorem getter_adds {name : String} {getter : Getter Double}
    (listed : (name, getter) ∈ allStateGetMap) (driver : DriverServiceClient Double)
    (json : CJsonObject Double) :
    getter driver json = (answers driver name).foldl addMember json := by
  simp only [allStateGetMap, List.mem_cons, List.not_mem_nil, or_false, Prod.mk.injEq] at listed
  rcases listed with ⟨rfl, rfl⟩ | ⟨rfl, rfl⟩ | ⟨rfl, rfl⟩ | ⟨rfl, rfl⟩ | ⟨rfl, rfl⟩
  · cases answer : driver.getTriggerVehiclePlate <;> simp [answered, answers, addMember, answer]
  · cases answer : driver.vehiclePassedGate <;> simp [answered, answers, addMember, answer]
  · cases answer : driver.getLcOpen <;> simp [answered, answers, addMember, answer]
  · cases answer : driver.vehicleRdDetect <;> simp [answered, answers, addMember, answer]
  · cases answer : driver.getScaleWeight <;> simp [answered, answers, addMember, answer]

theorem allStateGetMap_adds (entries : List (String × Getter Double))
    (listed : ∀ entry ∈ entries, entry ∈ allStateGetMap) (json : CJsonObject Double) :
    entries.foldl (fun json (name, getter) =>
        let port := getSpecificDevPort (devices name) (bytes name)
        if 0 < port then getter (client name port) json else json) json =
      ((entries.map Prod.fst).flatMap (entryReport devices client)).foldl addMember json := by
  induction entries generalizing json with
  | nil => rfl
  | cons entry entries ih =>
    obtain ⟨name, getter⟩ := entry
    have first := getter_adds (listed _ List.mem_cons_self)
    rw [List.foldl_cons, ih fun entry inside => listed entry (List.mem_cons_of_mem _ inside),
      List.map_cons, List.flatMap_cons, List.foldl_append]
    congr 1
    simp only [entryReport]
    split
    · exact first _ json
    · rfl

theorem keys_answers (driver : DriverServiceClient Double) {name : String}
    (listed : name ∈ ["camera", "gate", "lc_device", "ridar", "scale"]) :
    ((answers driver name).map Prod.fst).Sublist (stateKeys name) := by
  simp only [List.mem_cons, List.not_mem_nil, or_false] at listed
  rcases listed with rfl | rfl | rfl | rfl | rfl
  · cases answer : driver.getTriggerVehiclePlate <;> simp [answers, stateKeys, answer]
  · cases answer : driver.vehiclePassedGate <;> simp [answers, stateKeys, answer]
  · cases answer : driver.getLcOpen <;> simp [answers, stateKeys, answer]
  · cases answer : driver.vehicleRdDetect <;> simp [answers, stateKeys, answer]
  · cases answer : driver.getScaleWeight <;> simp [answers, stateKeys, answer]

theorem distinct_reported : Distinct ((reported devices client).map Prod.fst) := by
  have all : Distinct (["camera", "gate", "lc_device", "ridar", "scale"].flatMap stateKeys) := by
    rw [Distinct]
    decide
  rw [reported, List.map_flatMap]
  refine List.Pairwise.sublist (List.Sublist.flatMap_right _ fun name listed => ?_) all
  rw [entryReport]
  split
  · exact keys_answers _ listed
  · exact List.nil_sublist _

/-- The object that is published holds the answers, one member for each. -/
theorem currentState_eq (format : DoubleFormat Double) :
    getCurrentState format devices client = toText format (objectOf (reported devices client)) := by
  have adds := allStateGetMap_adds devices client allStateGetMap (fun _ inside => inside) none
  have whole := addAll_objectOf [] (reported devices client) (distinct_reported devices client)
  rw [List.nil_append] at whole
  rw [getCurrentState, adds, ← whole]
  rfl

/-- The doubles that a driver answers. -/
def measures (driver : DriverServiceClient Double) : List Double :=
  (driver.vehicleRdDetect.toList.flatMap fun result => [result.fullOffset, result.sideTopZ]) ++
    driver.getScaleWeight.toList

/-- The doubles are finite and fit into the buffer that each is printed to. -/
def MeasuresFit (format : DoubleFormat Double) (driver : DriverServiceClient Double) : Prop :=
  ∀ measure ∈ measures driver, Fits (format.fixed measure)

theorem membersPrintable_ofList {format : DoubleFormat Double} {members : List (Member Double)}
    (all : ∀ member ∈ members, NoNul (bytes member.1) ∧ Printable format member.2) :
    MembersPrintable format (ofList members) := by
  induction members with
  | nil => trivial
  | cons member members ih =>
    obtain ⟨named, item⟩ := all member List.mem_cons_self
    exact ⟨named, item, ih fun member inside => all member (List.mem_cons_of_mem _ inside)⟩

theorem membersRounded_ofList (format : DoubleFormat Double) (members : List (Member Double)) :
    membersRounded format (ofList members) =
      ofList (members.map fun member => (member.1, rounded format member.2)) := by
  induction members with
  | nil => rfl
  | cons member members ih => simp [ofList, membersRounded, ih]

theorem cStr_of_noNul {text : List UInt8} (ends : NoNul text) : cStr text = text := by
  rw [cStr, List.takeWhile_eq_self_iff]
  exact fun ch inside => bne_iff_ne.mpr (ends ch inside)

theorem noNul_cStr (text : List UInt8) : NoNul (cStr text) := by
  intro ch inside
  simpa using List.mem_takeWhile_imp inside

theorem printable_answers {format : DoubleFormat Double} {driver : DriverServiceClient Double}
    (fits : MeasuresFit format driver) {name : String}
    (listed : name ∈ ["camera", "gate", "lc_device", "ridar", "scale"]) :
    ∀ member ∈ answers driver name, NoNul (bytes member.1) ∧ Printable format member.2 := by
  simp only [List.mem_cons, List.not_mem_nil, or_false] at listed
  intro member inside
  rcases listed with rfl | rfl | rfl | rfl | rfl
  · obtain ⟨plate, -, rfl⟩ := List.mem_map.mp inside
    exact ⟨by simp [bytes, byte], noNul_cStr plate⟩
  · obtain ⟨gate, -, rfl⟩ := List.mem_map.mp inside
    exact ⟨by simp [bytes, byte], trivial⟩
  · obtain ⟨threshold, -, rfl⟩ := List.mem_map.mp inside
    have low := threshold.le_toInt
    have high := threshold.toInt_lt
    refine ⟨by simp [bytes, byte], ?_⟩
    show threshold.toInt.natAbs < 2 ^ 63
    omega
  · obtain ⟨result, detected, member⟩ := List.mem_flatMap.mp inside
    have offset := fits result.fullOffset (by simp [measures, Option.mem_toList.mp detected])
    have side := fits result.sideTopZ (by simp [measures, Option.mem_toList.mp detected])
    simp only [List.mem_cons, List.not_mem_nil, or_false] at member
    rcases member with rfl | rfl | rfl | rfl
    · refine ⟨by simp [bytes, byte], ?_⟩
      cases result.state <;> simp [Printable, VehiclePositionDetectState.toInt]
    · refine ⟨by simp [bytes, byte], ?_⟩
      cases result.isFull <;> simp [Printable]
    · exact ⟨by simp [bytes, byte], offset⟩
    · exact ⟨by simp [bytes, byte], side⟩
  · obtain ⟨weight, weighed, rfl⟩ := List.mem_map.mp inside
    have fit := fits weight (by simp [measures, Option.mem_toList.mp weighed])
    exact ⟨by simp [bytes, byte], fit⟩

theorem printable_reported {format : DoubleFormat Double}
    (fits : ∀ name port, MeasuresFit format (client name port)) :
    ∀ member ∈ reported devices client, NoNul (bytes member.1) ∧ Printable format member.2 := by
  intro member inside
  obtain ⟨name, listed, inside⟩ := List.mem_flatMap.mp inside
  rw [entryReport] at inside
  split at inside
  · exact printable_answers (fits _ _) listed member inside
  · exact absurd inside List.not_mem_nil

/-- The state that is published is read back: one member for each answer of the devices that run,
under its key, and no document where there is none. -/
theorem state_read_back (format : DoubleFormat Double)
    (fits : ∀ name port, MeasuresFit format (client name port)) :
    ofString format (getCurrentState format devices client) =
        objectOf ((reported devices client).map fun member => (member.1, rounded format member.2)) ∧
      ∀ key item, (key, item) ∈ reported devices client →
        getObjectItem (bytes key) (ofList ((reported devices client).map fun member =>
          (member.1, rounded format member.2))) = some (rounded format item) := by
  have printable := printable_reported devices client fits
  have distinct := distinct_reported devices client
  rw [currentState_eq]
  constructor
  · cases report : reported devices client with
    | nil => simp [objectOf, toText, ofString, cStr, parse, parseValue, skip, bytes]
    | cons first rest =>
      rw [report] at printable
      have whole : Printable format (.object (ofList (first :: rest))) :=
        membersPrintable_ofList printable
      have text := printValue_writes format false 0 _ whole
      have read := parse_printValue format false whole
      simp only [objectOf, toText, ofString, printUnformatted, cStr_of_noNul (noNul_of_writes text),
        read, rounded, membersRounded_ofList, List.map_cons]
  · intro key item inside
    refine getObjectItem_of_mem ?_ (List.mem_map.mpr ⟨_, inside, rfl⟩)
    rwa [List.map_map]

/-- An appliance whose one device is a scale with a load of 12.5. -/
theorem state_read_back_scale :
    ofString millionths (getCurrentState millionths (fun _ => [⟨"mock", 9000, [], "scale"⟩])
        fun _ _ => ⟨none, none, none, some (12500000 : Int), none⟩) =
        some (.object (.cons (bytes "scale_weight") (.double 12500000) .nil)) ∧
      ∀ key item, (key, item) ∈ [("scale_weight", Cjson.double (12500000 : Int))] →
        getObjectItem (bytes key) (ofList [("scale_weight", Cjson.double 12500000)]) =
          some (rounded millionths item) := by
  have buffer : Fits (millionths.fixed 12500000) := by decide
  have fits (_ : String) (_ : Nat) :
      MeasuresFit millionths ⟨none, none, none, some (12500000 : Int), none⟩ := by
    intro measure inside
    obtain rfl : measure = 12500000 := by simpa [measures] using inside
    exact buffer
  exact state_read_back (fun _ => [⟨"mock", 9000, [], "scale"⟩])
    (fun _ _ => ⟨none, none, none, some (12500000 : Int), none⟩) millionths fits

theorem ofString_of_writes {format : DoubleFormat Double} {item : Cjson Double}
    {blank text behind : List UInt8} (white : Blank blank) (writes : Writes format item text)
    (stops : StopsBehind behind item) (ends : NoNul behind) :
    ofString format (blank ++ (text ++ behind)) = some item := by
  have whole : NoNul (blank ++ (text ++ behind)) := by
    simp [white.noNul, noNul_of_writes writes, ends]
  rw [ofString, cStr_of_noNul whole, parse, parseValue_text white writes stops]
  rfl

end StateReport

end AutoDrop
