import AutoDrop.LabelledRun
import Mathlib.Data.List.Induction
import Mathlib.Logic.Function.Basic

/-!
The registers and coils that `modbus_driver` keeps for its callers. Its thread holds the mutex for
a whole round of calls to the device, so the callers act between two rounds; the device changes its
registers at any time, and answers a call at once.
-/

namespace AutoDrop

open LabelledRun

structure FloatAddrPair where
  addr : Int
  -- the bits of the float
  value : UInt32
deriving DecidableEq

structure CoilAddrPair where
  addr : Int
  value : Bool
deriving DecidableEq

structure ModbusDriver where
  float32AbcdMeta : List (String × FloatAddrPair)
  coilMeta : List (String × CoilAddrPair)
  exceptionOccurred : Bool
  -- whether the constructor got a context and started the thread
  connected : Bool
  -- the calls that were made since the thread took the mutex
  round : Option Nat
  registers : Int → UInt16
  coils : Int → Bool

inductive ModbusLabel
  | addFloat32AbcdMeta (name : String) (addr : Int)
  | addCoilMeta (name : String) (addr : Int)
  | writeCoil (name : String) (value : Bool)
  | lock
  | readRegisters (answered : Bool)
  | writeBit (answered : Bool)
  | unlock
  | change (addr : Int) (register : UInt16)

namespace ModbusDriver

/-- `operator[]` of a `std::map`, which is in the order of its keys. -/
def assign {V : Type} (name : String) (pair : V) : List (String × V) → List (String × V)
  | [] => [(name, pair)]
  | entry :: rest =>
      if name = entry.1 then (name, pair) :: rest
      else if name < entry.1 then (name, pair) :: entry :: rest
      else entry :: assign name pair rest

def convertRegistersToFloat (reg0 reg1 : UInt16) : UInt32 :=
  let a := ((reg0 >>> 8) &&& 0xFF).toUInt32
  let b := (reg0 &&& 0xFF).toUInt32
  let c := ((reg1 >>> 8) &&& 0xFF).toUInt32
  let d := (reg1 &&& 0xFF).toUInt32
  (a <<< 24) ||| (b <<< 16) ||| (c <<< 8) ||| d

/-- What two registers from `addr` on are read as. -/
def floatAt (registers : Int → UInt16) (addr : Int) : UInt32 :=
  convertRegistersToFloat (registers addr) (registers (addr + 1))

def start (connected : Bool) (registers : Int → UInt16) (coils : Int → Bool) : ModbusDriver :=
  ⟨[], [], !connected, connected, none, registers, coils⟩

def readFloat32Abcd (driver : ModbusDriver) (name : String) : UInt32 :=
  match driver.float32AbcdMeta.lookup name with
  | some pair => pair.value
  | none => 0

def refresh (registers : Int → UInt16) (entry : String × FloatAddrPair) : String × FloatAddrPair :=
  (entry.1, { entry.2 with value := floatAt registers entry.2.addr })

def put (coils : Int → Bool) (entry : String × CoilAddrPair) : Int → Bool :=
  Function.update coils entry.2.addr entry.2.value

def step (driver : ModbusDriver) : ModbusLabel → Option ModbusDriver
  | .addFloat32AbcdMeta name addr =>
      if driver.round = none then
        some { driver with float32AbcdMeta := assign name ⟨addr, 0⟩ driver.float32AbcdMeta }
      else none
  | .addCoilMeta name addr =>
      if driver.round = none then
        some { driver with coilMeta := assign name ⟨addr, false⟩ driver.coilMeta }
      else none
  | .writeCoil name value =>
      if driver.round = none then
        some
          { driver with
            coilMeta := driver.coilMeta.map fun entry =>
              if entry.1 = name then (entry.1, { entry.2 with value := value }) else entry }
      else none
  | .lock =>
      if driver.round = none ∧ driver.connected = true then some { driver with round := some 0 }
      else none
  | .readRegisters answered =>
      -- the loop over the floats comes first
      driver.round.bind fun i => driver.float32AbcdMeta[i]?.map fun entry =>
        if answered then
          { driver with
            float32AbcdMeta := driver.float32AbcdMeta.set i (refresh driver.registers entry)
            round := some (i + 1) }
        else { driver with exceptionOccurred := true, round := some (i + 1) }
  | .writeBit answered =>
      driver.round.bind fun i =>
        if driver.float32AbcdMeta.length ≤ i then
          driver.coilMeta[i - driver.float32AbcdMeta.length]?.map fun entry =>
            if answered then
              { driver with coils := put driver.coils entry, round := some (i + 1) }
            else { driver with exceptionOccurred := true, round := some (i + 1) }
        else none
  | .unlock =>
      if driver.round = some (driver.float32AbcdMeta.length + driver.coilMeta.length) then
        some { driver with round := none }
      else none
  | .change addr register =>
      some { driver with registers := Function.update driver.registers addr register }

def Answered : ModbusLabel → Prop
  | .readRegisters answered => answered = true
  | .writeBit answered => answered = true
  | _ => False

variable {driver next : ModbusDriver}

theorem mem_assign {V : Type} {name : String} {pair : V} {entries : List (String × V)}
    {entry : String × V} (member : entry ∈ assign name pair entries) :
    entry = (name, pair) ∨ entry ∈ entries := by
  induction entries with
  | nil => exact .inl (List.mem_singleton.mp member)
  | cons first rest ih =>
    rw [assign] at member
    split at member
    · exact (List.mem_cons.mp member).imp id (List.mem_cons_of_mem _)
    · split at member
      · exact List.mem_cons.mp member
      · rcases List.mem_cons.mp member with rfl | later
        · exact .inr List.mem_cons_self
        · exact (ih later).imp id (List.mem_cons_of_mem _)

/-- What a step leaves in an entry. -/
theorem mem_step {label : ModbusLabel} (taken : step driver label = some next)
    {entry : String × FloatAddrPair} (member : entry ∈ next.float32AbcdMeta) :
    entry ∈ driver.float32AbcdMeta ∨ entry.2.value = 0 ∨
      entry.2.value = floatAt driver.registers entry.2.addr := by
  cases label with
  | addFloat32AbcdMeta name addr =>
    simp only [step, Option.ite_none_right_eq_some, Option.some.injEq] at taken
    obtain ⟨-, rfl⟩ := taken
    rcases mem_assign member with rfl | old
    · exact .inr (.inl rfl)
    · exact .inl old
  | readRegisters answered =>
    simp only [step, Option.bind_eq_some_iff, Option.map_eq_some_iff] at taken
    obtain ⟨i, -, read, -, rfl⟩ := taken
    split at member
    · rcases List.mem_or_eq_of_mem_set member with old | rfl
      · exact .inl old
      · exact .inr (.inr rfl)
    · exact .inl member
  | writeBit answered =>
    simp only [step, Option.bind_eq_some_iff, Option.ite_none_right_eq_some,
      Option.map_eq_some_iff] at taken
    obtain ⟨i, -, -, coil, -, rfl⟩ := taken
    split at member
    all_goals exact .inl member
  | change addr register =>
    cases Option.some.inj taken
    exact .inl member
  | addCoilMeta name addr | writeCoil name value | lock | unlock =>
    simp only [step, Option.ite_none_right_eq_some, Option.some.injEq] at taken
    obtain ⟨-, rfl⟩ := taken
    exact .inl member

/-- The value is that of both registers at one moment of the run. -/
def WasThere (first : ModbusDriver) (labels : List ModbusLabel) (addr : Int) (value : UInt32) :
    Prop :=
  ∃ before middle, before <+: labels ∧ exec step first before = some middle ∧
    value = floatAt middle.registers addr

theorem entry_wasThere {first final : ModbusDriver} {labels : List ModbusLabel}
    (empty : first.float32AbcdMeta = []) (run : exec step first labels = some final)
    {entry : String × FloatAddrPair} (member : entry ∈ final.float32AbcdMeta) :
    entry.2.value = 0 ∨ WasThere first labels entry.2.addr entry.2.value := by
  induction labels using List.reverseRecOn generalizing final with
  | nil =>
    cases Option.some.inj run
    rw [empty] at member
    cases member
  | append_singleton labels label ih =>
    rw [exec_append, Option.bind_eq_some_iff] at run
    obtain ⟨middle, sofar, last⟩ := run
    obtain ⟨next, taken, ended⟩ := exec_cons_eq_some.mp last
    cases Option.some.inj ended
    rcases mem_step taken member with old | zero | now
    · refine (ih sofar old).imp id ?_
      rintro ⟨before, state, front, reached, value⟩
      exact ⟨before, state, front.trans (List.prefix_append _ _), reached, value⟩
    · exact .inl zero
    · exact .inr ⟨labels, middle, List.prefix_append _ _, sofar, now⟩

/-- The first of two registers changes behind a round. -/
def distanceRun : List ModbusLabel :=
  [.addFloat32AbcdMeta "distance" 4096, .change 4096 0x4148, .lock, .readRegisters true, .unlock,
    .change 4096 0]

def distanceRead : ModbusDriver :=
  (exec step (start true (fun _ => 0) fun _ => false) distanceRun).getD
    (start true (fun _ => 0) fun _ => false)

structure Polled (before driver : ModbusDriver) (i : Nat) : Prop where
  round : driver.round = some i
  registers : driver.registers = before.registers
  coilMeta : driver.coilMeta = before.coilMeta
  floats : driver.float32AbcdMeta = (before.float32AbcdMeta.take i).map
    (refresh before.registers) ++ before.float32AbcdMeta.drop i
  coils : driver.coils = (before.coilMeta.take (i - before.float32AbcdMeta.length)).foldl put
    before.coils

variable {before : ModbusDriver} {i : Nat}

theorem Polled.length_floats (polled : Polled before driver i) :
    driver.float32AbcdMeta.length = before.float32AbcdMeta.length := by
  rw [polled.floats, List.length_append, List.length_map, ← List.length_append,
    List.take_append_drop]

theorem Polled.read (polled : Polled before driver i)
    (taken : step driver (.readRegisters true) = some next) : Polled before next (i + 1) := by
  simp only [step, polled.round, Option.bind_some, Option.map_eq_some_iff, if_true] at taken
  obtain ⟨entry, found, rfl⟩ := taken
  obtain ⟨inside, -⟩ := List.getElem?_eq_some_iff.mp found
  rw [polled.length_floats] at inside
  have done : ((before.float32AbcdMeta.take i).map (refresh before.registers)).length = i := by
    rw [List.length_map, List.length_take, Nat.min_eq_left (Nat.le_of_lt inside)]
  have ahead := List.drop_eq_getElem_cons inside
  rw [polled.floats, ahead, List.getElem?_append_right (Nat.le_of_eq done), done, Nat.sub_self,
    List.getElem?_cons_zero] at found
  obtain rfl := Option.some.inj found
  refine ⟨rfl, polled.registers, polled.coilMeta, ?_, ?_⟩
  · rw [polled.floats, ahead, List.set_append_right _ _ (Nat.le_of_eq done), done, Nat.sub_self,
      List.set_cons_zero, List.take_succ_eq_append_getElem inside, List.map_append,
      List.map_singleton, List.append_assoc, List.singleton_append, polled.registers]
  · have none : i + 1 - before.float32AbcdMeta.length = i - before.float32AbcdMeta.length := by
      omega
    rw [none]
    exact polled.coils

theorem Polled.write (polled : Polled before driver i)
    (taken : step driver (.writeBit true) = some next) : Polled before next (i + 1) := by
  simp only [step, polled.round, Option.bind_some, Option.ite_none_right_eq_some,
    Option.map_eq_some_iff, if_true] at taken
  obtain ⟨behind, entry, found, rfl⟩ := taken
  rw [polled.length_floats] at behind found
  refine ⟨rfl, polled.registers, polled.coilMeta, ?_, ?_⟩
  · have floats := polled.floats
    rw [List.take_of_length_le behind, List.drop_of_length_le behind] at floats
    rw [List.take_of_length_le (Nat.le_succ_of_le behind),
      List.drop_of_length_le (Nat.le_succ_of_le behind)]
    exact floats
  · have further : i + 1 - before.float32AbcdMeta.length =
        i - before.float32AbcdMeta.length + 1 := by omega
    rw [polled.coilMeta] at found
    rw [further, List.take_add_one, found, List.foldl_append, ← polled.coils]
    rfl

theorem Polled.exec {calls : List ModbusLabel} {final : ModbusDriver}
    (polled : Polled before driver i) (answered : ∀ call ∈ calls, Answered call)
    (run : exec step driver calls = some final) : Polled before final (i + calls.length) := by
  induction calls generalizing driver i with
  | nil => exact Option.some.inj run ▸ polled
  | cons call rest ih =>
    obtain ⟨middle, taken, run⟩ := exec_cons_eq_some.mp run
    have now := answered call List.mem_cons_self
    have after : Polled before middle (i + 1) := by
      cases call with
      | readRegisters success =>
        obtain rfl : success = true := now
        exact polled.read taken
      | writeBit success =>
        obtain rfl : success = true := now
        exact polled.write taken
      | _ => exact now.elim
    have later := ih after (fun other member => answered other (List.mem_cons_of_mem _ member)) run
    rwa [Nat.add_right_comm] at later

theorem lookup_refresh (registers : Int → UInt16) (name : String)
    (entries : List (String × FloatAddrPair)) :
    (entries.map (refresh registers)).lookup name = (entries.lookup name).map fun pair =>
      { pair with value := floatAt registers pair.addr } := by
  induction entries with
  | nil => rfl
  | cons first rest ih =>
    rw [List.map_cons, refresh, List.lookup_cons, List.lookup_cons, ih]
    cases name == first.1 <;> rfl

/-- Two coils at one address, the first of them set. -/
def sharedCoil : ModbusDriver :=
  (exec step (start true (fun _ => 0) fun _ => false)
    [.addFloat32AbcdMeta "distance" 4096, .addCoilMeta "a" 7, .addCoilMeta "b" 7,
      .writeCoil "a" true, .change 4096 0x4148]).getD (start true (fun _ => 0) fun _ => false)

def sharedCoilRound : List ModbusLabel := [.readRegisters true, .writeBit true, .writeBit true]

def sharedCoilSynced : ModbusDriver :=
  (exec step sharedCoil (.lock :: (sharedCoilRound ++ [.unlock]))).getD sharedCoil

end ModbusDriver

end AutoDrop
