import AutoDrop.DevicePairingCore

/-!
`match_device` writes the map before it calls the driver and leaves the entry where the call
fails, `clear_device` clears the one driver and the one name it is asked for, and a driver
that is restarted holds nothing. The two sides agree in every run that avoids what these
leave behind.
-/

namespace AutoDrop

open LabelledRun

namespace Pairing

variable {Name : Type*} [DecidableEq Name]

def deviceOf (pairing : Pairing Name) (name : Name) : Nat := (pairing.deviceMap name).getD 0

/-- A name that is matched does not leave the last entry of another port behind, and no call
on the port or the name is about to clear it; a name that is cleared has the only entry of
its port, with no other call on the port. A call fails only where it had nothing to change,
or before the driver was cleared. A driver crashes only without an entry. -/
def PairsInTurn (pairing : Pairing Name) : PairingLabel Name → Prop
  | .matchDevice _ name port =>
      (pairing.deviceOf name = 0 ∨ pairing.deviceOf name = port ∨
        ∃ other, other ≠ name ∧ pairing.deviceMap other = some (pairing.deviceOf name)) ∧
      ∀ id call, pairing.calls id = some call → call.isMatch = false → call.port ≠ 0 →
        call.name ≠ name ∧ call.port ≠ port
  | .clearDevice _ name =>
      pairing.deviceOf name ≠ 0 →
        (∀ other, pairing.deviceMap other = some (pairing.deviceOf name) → other = name) ∧
        ∀ id call, pairing.calls id = some call → call.port ≠ pairing.deviceOf name
  | .fail id =>
      ∀ call, pairing.calls id = some call →
        if call.isMatch then call.known = true ∧ (call.phase = .executed → call.paired = true)
        else call.phase ≠ .executed
  | .crash port => ¬pairing.Maps port
  | .setSm _ | .answer _ | .restart _ => True

/-- What a call knows of the two sides while it waits. -/
structure Waits (listenPort : Nat) (pairing : Pairing Name) (id : Nat) (call : PairingCall Name) :
    Prop where
  served : call.phase = .executed → call.port ≠ 0
  matching : call.isMatch = true → call.port ≠ 0 → pairing.Maps call.port ∧
    (call.paired = true → pairing.driver call.port = some listenPort)
  clearing : call.isMatch = false → call.port ≠ 0 → pairing.deviceMap call.name = some call.port ∧
    (∀ other, pairing.deviceMap other = some call.port → other = call.name) ∧
    (∀ other one, pairing.calls other = some one → one.port = call.port → other = id) ∧
    (pairing.driver call.port = some listenPort ↔ call.phase ≠ .executed)
  wrote : call.wrote = true → if call.isMatch then
      call.known = false ∨ call.phase = .executed ∧ call.paired = false
    else call.phase = .executed
  clear : call.isMatch = false → call.known = true

def Promised (pairing : Pairing Name) (port : Nat) : Prop :=
  ∃ id call, pairing.calls id = some call ∧ call.port = port ∧ call.known = false ∧
    call.phase = .requested

structure Settled (listenPort : Nat) (pairing : Pairing Name) : Prop where
  zero : pairing.driver 0 = none
  calls : ∀ id call, pairing.calls id = some call → Waits listenPort pairing id call
  ports : ∀ port, port ≠ 0 →
    (∀ id call, pairing.calls id = some call → call.port = port → call.isMatch = true) →
      (pairing.Maps port ↔ pairing.driver port = some listenPort ∨ pairing.Promised port)

variable {pairing next : Pairing Name} {listenPort : Nat}

omit [DecidableEq Name] in
theorem start_settled (running : Nat → Bool) (listens : listenPort ≠ 0) :
    (start running : Pairing Name).Settled listenPort where
  zero := rfl
  calls := fun _ _ waits => by cases waits
  ports := fun port _ _ => by
    constructor
    · rintro ⟨_, entry⟩
      cases entry
    · rintro (held | ⟨_, _, waits, _⟩)
      · simp only [start] at held
        split at held
        · exact absurd (Option.some.inj held).symm listens
        · cases held
      · cases waits

omit [DecidableEq Name] in
theorem Settled.agrees (settled : pairing.Settled listenPort) : pairing.Agrees listenPort := by
  intro quiet port nonzero
  have none (id : Nat) (call : PairingCall Name) : pairing.calls id ≠ some call := by
    simp [quiet id]
  refine (settled.ports port nonzero fun id call waits => absurd waits (none id call)).trans ?_
  refine or_iff_left ?_
  rintro ⟨id, call, waits, _⟩
  exact none id call waits

omit [DecidableEq Name] in
theorem Settled.leavesAsWas (settled : pairing.Settled listenPort) {label : PairingLabel Name}
    (inTurn : pairing.PairsInTurn label) : pairing.LeavesAsWas label := by
  rintro id call rfl waits
  have allowed := inTurn call waits
  have wrote := (settled.calls id call waits).wrote
  by_contra changed
  have changed : call.wrote = true := by simpa using changed
  have effect := wrote changed
  split at allowed
  · rename_i isMatch
    rw [if_pos isMatch] at effect
    rcases effect with fresh | ⟨executed, apart⟩
    · simp [fresh] at allowed
    · simp [allowed.2 executed] at apart
  · rename_i isClear
    rw [if_neg isClear] at effect
    exact allowed effect

theorem getDevice_maps (map : Name → Option Nat) (name other : Name) {port : Nat}
    (nonzero : port ≠ 0) : (getDevice map name).1 other = some port ↔ map other = some port := by
  unfold getDevice
  dsimp only
  split
  · rename_i zero
    rcases eq_or_ne other name with rfl | differs
    · rw [Function.update_self]
      constructor
      · intro entry
        cases entry
      · intro entry
        simp [entry] at zero
        exact absurd zero nonzero
    · rw [Function.update_of_ne differs]
  · rfl

omit [DecidableEq Name] in
theorem deviceMap_of_deviceOf {name : Name} {port : Nat} (value : pairing.deviceOf name = port)
    (nonzero : port ≠ 0) : pairing.deviceMap name = some port := by
  unfold deviceOf at value
  cases entry : pairing.deviceMap name with
  | none => simp [entry] at value; exact absurd value.symm nonzero
  | some other => simpa [entry] using value

theorem setDevice_apply (map : Name → Option Nat) (name other : Name) (port : Nat) :
    setDevice map name port other = if other = name then some port else map other := by
  simp [setDevice, Function.update_apply]

def CallsBut (pairing next : Pairing Name) (id : Nat) (call : Option (PairingCall Name)) : Prop :=
  next.calls id = call ∧ ∀ other, other ≠ id → next.calls other = pairing.calls other

omit [DecidableEq Name] in
theorem callsBut_withCall (pairing : Pairing Name) (id : Nat) (call : Option (PairingCall Name)) :
    CallsBut pairing (pairing.withCall id call) id call :=
  ⟨by simp [withCall], fun other differs => by simp [withCall, differs]⟩

omit [DecidableEq Name] in
theorem CallsBut.cases {id : Nat} {call : Option (PairingCall Name)}
    (calls : CallsBut pairing next id call) {other : Nat} {one : PairingCall Name}
    (waits : next.calls other = some one) :
    other = id ∧ call = some one ∨ other ≠ id ∧ pairing.calls other = some one := by
  by_cases same : other = id
  · subst other
    exact .inl ⟨rfl, calls.1.symm.trans waits⟩
  · exact .inr ⟨same, (calls.2 other same).symm.trans waits⟩

omit [DecidableEq Name] in
theorem CallsBut.waits_iff {id : Nat} {call : Option (PairingCall Name)}
    (calls : CallsBut pairing next id call) {one : PairingCall Name} (new : call ≠ some one)
    (old : pairing.calls id ≠ some one) (other : Nat) :
    next.calls other = some one ↔ pairing.calls other = some one := by
  by_cases same : other = id
  · subst other
    rw [calls.1]
    exact iff_of_false new old
  · rw [calls.2 other same]

omit [DecidableEq Name] in
theorem promised_congr {port : Nat} (same : ∀ id call, call.port = port → call.known = false →
      call.phase = .requested → (next.calls id = some call ↔ pairing.calls id = some call)) :
    next.Promised port ↔ pairing.Promised port := by
  constructor
  · rintro ⟨id, call, waits, at_port, fresh, requested⟩
    exact ⟨id, call, (same id call at_port fresh requested).mp waits, at_port, fresh, requested⟩
  · rintro ⟨id, call, waits, at_port, fresh, requested⟩
    exact ⟨id, call, (same id call at_port fresh requested).mpr waits, at_port, fresh, requested⟩

omit [DecidableEq Name] in
/-- A step carries what a call knows over if it leaves what there is on the port of the call. -/
theorem Waits.carry {id : Nat} {call : PairingCall Name} (before : Waits listenPort pairing id call)
    (maps : call.port ≠ 0 → pairing.Maps call.port → next.Maps call.port)
    (entries : call.isMatch = false → call.port ≠ 0 → ∀ name,
      next.deviceMap name = some call.port ↔ pairing.deviceMap name = some call.port)
    (driver : next.driver call.port = some listenPort ↔ pairing.driver call.port = some listenPort)
    (calls : call.isMatch = false → call.port ≠ 0 → ∀ other one, next.calls other = some one →
      one.port = call.port → ∃ two, pairing.calls other = some two ∧ two.port = call.port) :
    Waits listenPort next id call := by
  refine ⟨before.served, fun isMatch nonzero => ?_, fun isClear nonzero => ?_, before.wrote,
    before.clear⟩
  · have matching := before.matching isMatch nonzero
    exact ⟨maps nonzero matching.1, fun paired => driver.mpr (matching.2 paired)⟩
  · obtain ⟨own, only, alone, held⟩ := before.clearing isClear nonzero
    have same := entries isClear nonzero
    refine ⟨(same _).mpr own, fun two entry => only two ((same two).mp entry),
      fun two one waits port => ?_, driver.trans held⟩
    obtain ⟨other, also, port⟩ := calls isClear nonzero two one waits port
    exact alone two other also port

theorem matchDevice_effect {id port : Nat} {name : Name}
    (taken : pairing.step listenPort (.matchDevice id name port) = some next) :
    pairing.calls id = none ∧ next.deviceMap = setDevice pairing.deviceMap name port ∧
      next.driver = pairing.driver ∧ CallsBut pairing next id (some (.begun name port true
        (pairing.deviceOf name = port) (pairing.driver port = some listenPort))) := by
  simp only [step] at taken
  split at taken
  · obtain rfl := Option.some.inj taken
    exact ⟨by assumption, rfl, rfl, callsBut_withCall _ _ _⟩
  · cases taken

theorem clearDevice_effect {id : Nat} {name : Name}
    (taken : pairing.step listenPort (.clearDevice id name) = some next) :
    pairing.calls id = none ∧ next.deviceMap = (getDevice pairing.deviceMap name).1 ∧
      next.driver = pairing.driver ∧ CallsBut pairing next id (some (.begun name
        (pairing.deviceOf name) false true
        (pairing.driver (pairing.deviceOf name) = some listenPort))) := by
  simp only [step] at taken
  split at taken
  · obtain rfl := Option.some.inj taken
    exact ⟨by assumption, rfl, rfl, callsBut_withCall _ _ _⟩
  · cases taken

theorem setSm_effect {id : Nat}
    (taken : pairing.step listenPort (.setSm id) = some next) :
    ∃ call held, pairing.calls id = some call ∧ call.phase = .requested ∧
      pairing.driver call.port = some held ∧ next.deviceMap = pairing.deviceMap ∧
      next.driver = Function.update pairing.driver call.port
        (some (if call.isMatch then listenPort else 0)) ∧
      CallsBut pairing next id (some { call with
        phase := .executed
        wrote := call.wrote || decide (held ≠ if call.isMatch then listenPort else 0) }) := by
  simp only [step] at taken
  split at taken
  · cases taken
  · rename_i call waits
    split at taken
    · rename_i held requested runs
      obtain rfl := Option.some.inj taken
      exact ⟨call, held, waits, requested, runs, rfl, rfl, callsBut_withCall _ _ _⟩
    · cases taken

theorem answer_effect {id : Nat} (taken : pairing.step listenPort (.answer id) = some next) :
    ∃ call, pairing.calls id = some call ∧ call.phase = .executed ∧
      next.deviceMap = (if call.isMatch then pairing.deviceMap
        else setDevice pairing.deviceMap call.name 0) ∧
      next.driver = pairing.driver ∧ CallsBut pairing next id none := by
  simp only [step] at taken
  split at taken
  · cases taken
  · rename_i call waits
    split at taken
    · obtain rfl := Option.some.inj taken
      exact ⟨call, waits, by assumption, rfl, rfl, callsBut_withCall _ _ _⟩
    · cases taken

theorem fail_effect {id : Nat} (taken : pairing.step listenPort (.fail id) = some next) :
    ∃ call, pairing.calls id = some call ∧ next.deviceMap = pairing.deviceMap ∧
      next.driver = pairing.driver ∧ CallsBut pairing next id none := by
  simp only [step] at taken
  split at taken
  · cases taken
  · rename_i waits
    obtain ⟨call, waits⟩ := Option.ne_none_iff_exists'.mp waits
    obtain rfl := Option.some.inj taken
    exact ⟨call, waits, rfl, rfl, callsBut_withCall _ _ _⟩

/-- A match adds its port to those that have an entry, and takes none from them. -/
theorem maps_matchDevice {name : Name} {port : Nat}
    (map : next.deviceMap = setDevice pairing.deviceMap name port)
    (replaced : pairing.deviceOf name = 0 ∨ pairing.deviceOf name = port ∨
      ∃ other, other ≠ name ∧ pairing.deviceMap other = some (pairing.deviceOf name))
    {other : Nat} (nonzero : other ≠ 0) : next.Maps other ↔ other = port ∨ pairing.Maps other := by
  unfold Maps
  rw [map]
  constructor
  · rintro ⟨one, entry⟩
    rw [setDevice_apply] at entry
    split at entry
    · exact .inl (Option.some.inj entry).symm
    · exact .inr ⟨one, entry⟩
  · rintro (rfl | ⟨one, entry⟩)
    · exact ⟨name, by simp [setDevice_apply]⟩
    · by_cases same : one = name
      · subst one
        have value : pairing.deviceOf name = other := by simp [deviceOf, entry]
        rcases replaced with zero | same | ⟨two, differs, entry⟩
        · exact absurd (value.symm.trans zero) nonzero
        · exact ⟨name, by simp [setDevice_apply, ← same, value]⟩
        · exact ⟨two, by simp [setDevice_apply, differs, entry, value]⟩
      · exact ⟨one, by simp [setDevice_apply, same, entry]⟩

theorem Settled.matchDevice (settled : pairing.Settled listenPort) {id port : Nat} {name : Name}
    (inTurn : pairing.PairsInTurn (.matchDevice id name port))
    (taken : pairing.step listenPort (.matchDevice id name port) = some next) :
    next.Settled listenPort := by
  obtain ⟨free, map, driver, calls⟩ := matchDevice_effect taken
  obtain ⟨replaced, noClear⟩ := inTurn
  have entries {other : Nat} := @maps_matchDevice _ _ _ _ _ _ map replaced other
  refine ⟨driver ▸ settled.zero, fun one call waits => ?_, fun other nonzero pairs => ?_⟩
  · rcases calls.cases waits with ⟨rfl, same⟩ | ⟨old, waits⟩
    · obtain rfl := Option.some.inj same
      refine ⟨nofun, fun _ nonzero => ⟨(entries nonzero).mpr (.inl rfl), fun paired => ?_⟩,
        nofun, fun wrote => .inl ?_, nofun⟩
      · rw [driver]
        simpa [PairingCall.begun] using paired
      · simpa [PairingCall.begun] using wrote
    · have before := settled.calls one call waits
      refine before.carry (fun nonzero mapped => (entries nonzero).mpr (.inr mapped))
        (fun isClear nonzero two => ?_) (by rw [driver])
        fun isClear nonzero two other also same => ?_
      · obtain ⟨differs, elsewhere⟩ := noClear one call waits isClear nonzero
        have own := (before.clearing isClear nonzero).2.1 two
        rw [map, setDevice_apply]
        split
        · rename_i renamed
          refine iff_of_false (fun entry => elsewhere (Option.some.inj entry).symm) fun entry => ?_
          exact differs ((own entry).symm.trans renamed)
        · rfl
      · rcases calls.cases also with ⟨rfl, begun⟩ | ⟨_, also⟩
        · obtain rfl := Option.some.inj begun
          exact absurd same.symm (noClear one call waits isClear nonzero).2
        · exact ⟨other, also, same⟩
  · have kept {one : Nat} {call : PairingCall Name} (waits : pairing.calls one = some call) :
        next.calls one = some call := by
      rw [calls.2 one, waits]
      rintro rfl
      rw [free] at waits
      cases waits
    have old := settled.ports other nonzero fun one call waits => pairs one call (kept waits)
    have promised : pairing.Promised other → next.Promised other :=
      fun ⟨one, call, waits, rest⟩ => ⟨one, call, kept waits, rest⟩
    rw [entries nonzero, driver, old]
    constructor
    · rintro (rfl | held | waits)
      · by_cases known : pairing.deviceOf name = other
        · have mapped : pairing.Maps other := ⟨name, deviceMap_of_deviceOf known nonzero⟩
          exact (old.mp mapped).imp_right promised
        · exact .inr ⟨id, _, calls.1, rfl, by simp [PairingCall.begun, known], rfl⟩
      · exact .inl held
      · exact .inr (promised waits)
    · rintro (held | ⟨one, call, waits, same, fresh⟩)
      · exact .inr (.inl held)
      · rcases calls.cases waits with ⟨rfl, begun⟩ | ⟨_, waits⟩
        · obtain rfl := Option.some.inj begun
          exact .inl same.symm
        · exact .inr (.inr ⟨one, call, waits, same, fresh⟩)

theorem Settled.clearDevice (settled : pairing.Settled listenPort) {id : Nat} {name : Name}
    (inTurn : pairing.PairsInTurn (.clearDevice id name))
    (taken : pairing.step listenPort (.clearDevice id name) = some next) :
    next.Settled listenPort := by
  obtain ⟨free, map, driver, calls⟩ := clearDevice_effect taken
  have same (one : Name) {port : Nat} (nonzero : port ≠ 0) :
      next.deviceMap one = some port ↔ pairing.deviceMap one = some port := by
    rw [map]
    exact getDevice_maps _ _ _ nonzero
  have entries {port : Nat} (nonzero : port ≠ 0) : next.Maps port ↔ pairing.Maps port :=
    exists_congr fun one => same one nonzero
  have kept {one : Nat} {call : PairingCall Name} (waits : pairing.calls one = some call) :
      next.calls one = some call := by
    rw [calls.2 one, waits]
    rintro rfl
    rw [free] at waits
    cases waits
  refine ⟨driver ▸ settled.zero, fun one call waits => ?_, fun port nonzero pairs => ?_⟩
  · rcases calls.cases waits with ⟨rfl, begun⟩ | ⟨old, waits⟩
    · obtain rfl := Option.some.inj begun
      refine ⟨nofun, nofun, fun _ nonzero => ?_, nofun, fun _ => rfl⟩
      obtain ⟨only, alone⟩ := inTurn nonzero
      have own := deviceMap_of_deviceOf rfl nonzero
      refine ⟨(same name nonzero).mpr own, fun two entry => only two ((same two nonzero).mp entry),
        fun two other waits port => ?_, ?_⟩
      · rcases calls.cases waits with ⟨rfl, _⟩ | ⟨_, waits⟩
        · rfl
        · exact absurd port (alone two other waits)
      · have held := (settled.ports _ nonzero fun two other waits port =>
          absurd port (alone two other waits)).mp ⟨name, own⟩
        rw [driver]
        refine ⟨fun _ => nofun, fun _ => held.resolve_right ?_⟩
        rintro ⟨two, other, waits, port, _⟩
        exact alone two other waits port
    · refine (settled.calls one call waits).carry (fun nonzero => (entries nonzero).mpr)
        (fun _ nonzero two => same two nonzero) (by rw [driver])
        fun _ nonzero two other also port => ?_
      rcases calls.cases also with ⟨rfl, begun⟩ | ⟨_, also⟩
      · obtain rfl := Option.some.inj begun
        have nonzero' : pairing.deviceOf name ≠ 0 := fun zero => nonzero (port.symm.trans zero)
        exact absurd port.symm ((inTurn nonzero').2 one call waits)
      · exact ⟨other, also, port⟩
  · have old := settled.ports port nonzero fun one call waits => pairs one call (kept waits)
    have promised : next.Promised port ↔ pairing.Promised port :=
      promised_congr fun one call _ fresh _ => calls.waits_iff
        (fun begun => by cases begun; cases fresh) (by simp [free]) one
    rw [entries nonzero, driver, old, promised]

omit [DecidableEq Name] in
theorem Settled.both_match (settled : pairing.Settled listenPort) {id other : Nat}
    {call one : PairingCall Name} (waits : pairing.calls id = some call)
    (also : pairing.calls other = some one) (differs : other ≠ id) (same : one.port = call.port)
    (nonzero : call.port ≠ 0) : call.isMatch = true ∧ one.isMatch = true := by
  by_contra clears
  rw [Decidable.not_and_iff_or_not] at clears
  rcases clears with clears | clears
  · have alone := ((settled.calls id call waits).clearing (by simpa using clears) nonzero).2.2.1
    exact differs (alone other one also same)
  · have alone := ((settled.calls other one also).clearing (by simpa using clears)
      (same ▸ nonzero)).2.2.1
    exact differs (alone id call waits same.symm).symm

theorem Settled.setSm (listens : listenPort ≠ 0) (settled : pairing.Settled listenPort) {id : Nat}
    (taken : pairing.step listenPort (.setSm id) = some next) : next.Settled listenPort := by
  obtain ⟨call, held, waits, requested, runs, map, driver, calls⟩ := setSm_effect taken
  have nonzero : call.port ≠ 0 := fun zero => by
    rw [zero, settled.zero] at runs
    cases runs
  have own := settled.calls id call waits
  have entries (port : Nat) : next.Maps port ↔ pairing.Maps port := by simp [Maps, map]
  have elsewhere {port : Nat} (differs : port ≠ call.port) :
      next.driver port = pairing.driver port := by
    rw [driver, Function.update_of_ne differs]
  have here : next.driver call.port = some listenPort ↔ call.isMatch = true := by
    rw [driver, Function.update_self]
    cases call.isMatch <;> simp [listens.symm]
  have waiting {one : Nat} {other : PairingCall Name} (waits : next.calls one = some other) :
      ∃ before, pairing.calls one = some before ∧ before.port = other.port ∧
        before.isMatch = other.isMatch := by
    rcases calls.cases waits with ⟨rfl, begun⟩ | ⟨_, before⟩
    · obtain rfl := Option.some.inj begun
      exact ⟨call, by assumption, rfl, rfl⟩
    · exact ⟨other, before, rfl, rfl⟩
  refine ⟨(elsewhere nonzero.symm).trans settled.zero, fun one other also => ?_,
    fun port positive pairs => ?_⟩
  · rcases calls.cases also with ⟨rfl, begun⟩ | ⟨differs, also⟩
    · obtain rfl := Option.some.inj begun
      refine ⟨fun _ => nonzero, fun isMatch _ => ?_, fun isClear _ => ?_, fun wrote => ?_,
        own.clear⟩
      · exact ⟨(entries _).mpr (own.matching isMatch nonzero).1, fun _ => here.mpr isMatch⟩
      · obtain ⟨entry, only, alone, _⟩ := own.clearing isClear nonzero
        refine ⟨map ▸ entry, fun two entry => only two (map ▸ entry), fun two other also same => ?_,
          ?_⟩
        · obtain ⟨before, also, port, _⟩ := waiting also
          exact alone two before also (port.trans same)
        · refine here.trans ?_
          simp [show call.isMatch = false from isClear]
      · split
        · rename_i isMatch
          simp only [isMatch, if_true, Bool.or_eq_true, decide_eq_true_eq] at wrote
          rcases wrote with wrote | differs
          · have effect := own.wrote wrote
            rw [if_pos isMatch, requested] at effect
            exact .inl (effect.resolve_right fun executed => nomatch executed.1)
          · refine .inr ⟨rfl, ?_⟩
            by_contra paired
            have known := (own.matching isMatch nonzero).2 (by simpa using paired)
            exact differs (Option.some.inj (runs.symm.trans known))
        · rfl
    · have before := settled.calls one other also
      by_cases same : other.port = call.port
      · have both := settled.both_match waits also differs same nonzero
        have mapped := (before.matching both.2 (same ▸ nonzero)).1
        refine ⟨before.served, fun _ _ => ⟨(entries _).mpr mapped, fun _ => same ▸ here.mpr both.1⟩,
          fun isClear => ?_, before.wrote, before.clear⟩
        rw [both.2] at isClear
        cases isClear
      · refine before.carry (fun _ => (entries _).mpr) (fun _ _ two => by rw [map])
          (by rw [elsewhere same]) fun _ _ two other also port => ?_
        obtain ⟨before, also, same, _⟩ := waiting also
        exact ⟨before, also, same.trans port⟩
  · by_cases same : port = call.port
    · subst port
      have isMatch := pairs id _ calls.1 rfl
      have mapped := (entries _).mpr (own.matching isMatch nonzero).1
      exact ⟨fun _ => .inl (here.mpr isMatch), fun _ => mapped⟩
    · have kept (one : Nat) (other : PairingCall Name) (at_port : other.port = port) :
          next.calls one = some other ↔ pairing.calls one = some other := by
        refine calls.waits_iff (fun begun => same ?_) (fun before => same ?_) one
        · rw [← at_port, ← Option.some.inj begun]
        · rw [← at_port, ← Option.some.inj (waits.symm.trans before)]
      have old := settled.ports port positive fun one other also at_port =>
        pairs one other ((kept one other at_port).mpr also) at_port
      have promised : next.Promised port ↔ pairing.Promised port :=
        promised_congr fun one other at_port _ _ => kept one other at_port
      rw [entries, elsewhere same, old, promised]

omit [DecidableEq Name] in
theorem CallsBut.of_removed {id : Nat} (calls : CallsBut pairing next id none) {other : Nat}
    {one : PairingCall Name} (waits : next.calls other = some one) :
    other ≠ id ∧ pairing.calls other = some one := by
  rcases calls.cases waits with ⟨_, ⟨⟩⟩ | before
  exact before

omit [DecidableEq Name] in
theorem Settled.removed (settled : pairing.Settled listenPort) {id : Nat} {call : PairingCall Name}
    (waits : pairing.calls id = some call) (map : next.deviceMap = pairing.deviceMap)
    (driver : next.driver = pairing.driver) (calls : CallsBut pairing next id none)
    (kept : call.phase = .requested → call.known = true)
    (uncleared : call.isMatch = false → call.phase ≠ .executed) : next.Settled listenPort := by
  have entries (port : Nat) : next.Maps port ↔ pairing.Maps port := by simp [Maps, map]
  refine ⟨driver ▸ settled.zero, fun one other also => ?_, fun port nonzero pairs => ?_⟩
  · have before := settled.calls one other (calls.of_removed also).2
    exact before.carry (fun _ => (entries _).mpr) (fun _ _ two => by rw [map]) (by rw [driver])
      fun _ _ two third also port => ⟨third, (calls.of_removed also).2, port⟩
  · rw [entries, driver]
    by_cases clears : call.isMatch = false ∧ call.port = port
    · obtain ⟨isClear, rfl⟩ := clears
      obtain ⟨entry, _, _, held⟩ := (settled.calls id call waits).clearing isClear nonzero
      exact ⟨fun _ => .inl (held.mpr (uncleared isClear)), fun _ => ⟨_, entry⟩⟩
    · have old := settled.ports port nonzero fun one other also same => by
        by_cases own : one = id
        · subst one
          obtain rfl := Option.some.inj (also.symm.trans waits)
          by_contra isClear
          exact clears ⟨by simpa using isClear, same⟩
        · exact pairs one other ((calls.2 one own).trans also) same
      have promised : next.Promised port ↔ pairing.Promised port := by
        refine promised_congr fun one other _ fresh requested =>
          calls.waits_iff (Option.some_ne_none other).symm (fun before => ?_) one
        obtain rfl := Option.some.inj (before.symm.trans waits)
        have known := kept requested
        rw [fresh] at known
        cases known
      rw [old, promised]

theorem Settled.fail (settled : pairing.Settled listenPort) {id : Nat}
    (inTurn : pairing.PairsInTurn (.fail id))
    (taken : pairing.step listenPort (.fail id) = some next) : next.Settled listenPort := by
  obtain ⟨call, waits, map, driver, calls⟩ := fail_effect taken
  have allowed := inTurn call waits
  refine settled.removed waits map driver calls (fun _ => ?_) fun isClear => ?_
  · split at allowed
    · exact allowed.1
    · rename_i isClear
      exact (settled.calls id call waits).clear (by simpa using isClear)
  · simpa [isClear] using allowed

theorem Settled.answer (settled : pairing.Settled listenPort) {id : Nat}
    (taken : pairing.step listenPort (.answer id) = some next) : next.Settled listenPort := by
  obtain ⟨call, waits, executed, map, driver, calls⟩ := answer_effect taken
  by_cases isMatch : call.isMatch = true
  · rw [if_pos isMatch] at map
    refine settled.removed waits map driver calls (fun requested => ?_) fun isClear => ?_
    · rw [executed] at requested
      cases requested
    · rw [isMatch] at isClear
      cases isClear
  · rw [if_neg isMatch] at map
    have own := settled.calls id call waits
    have positive := own.served executed
    obtain ⟨entry, only, alone, held⟩ := own.clearing (by simpa using isMatch) positive
    have same (name : Name) {port : Nat} (nonzero : port ≠ 0) :
        next.deviceMap name = some port ↔
          port ≠ call.port ∧ pairing.deviceMap name = some port := by
      rw [map, setDevice_apply]
      by_cases cleared : name = call.name
      · subst name
        simpa [entry, eq_comm] using nonzero
      · rw [if_neg cleared]
        refine (and_iff_right_of_imp ?_).symm
        rintro entry rfl
        exact cleared (only name entry)
    have entries {port : Nat} (nonzero : port ≠ 0) :
        next.Maps port ↔ port ≠ call.port ∧ pairing.Maps port := by
      simp [Maps, same _ nonzero]
    have elsewhere {one : Nat} {other : PairingCall Name} (also : next.calls one = some other) :
        other.port ≠ call.port := fun port =>
      (calls.of_removed also).1 (alone one other (calls.of_removed also).2 port)
    refine ⟨driver ▸ settled.zero, fun one other also => ?_, fun port nonzero pairs => ?_⟩
    · have before := settled.calls one other (calls.of_removed also).2
      refine before.carry (fun nonzero mapped => (entries nonzero).mpr ⟨elsewhere also, mapped⟩)
        (fun _ nonzero two => ?_) (by rw [driver]) fun _ _ two third also port => ?_
      · rw [same two nonzero, and_iff_right (elsewhere also)]
      · exact ⟨third, (calls.of_removed also).2, port⟩
    · rw [entries nonzero, driver]
      by_cases here : port = call.port
      · subst port
        have empty : ¬next.Promised call.port := fun ⟨_, _, also, port, _⟩ => elsewhere also port
        have lost : pairing.driver call.port ≠ some listenPort := fun holds =>
          held.mp holds executed
        simp [empty, lost]
      · have stays (one : Nat) (other : PairingCall Name) (at_port : other.port = port) :
            next.calls one = some other ↔ pairing.calls one = some other := by
          refine calls.waits_iff (Option.some_ne_none other).symm (fun before => here ?_) one
          rw [← at_port, ← Option.some.inj (waits.symm.trans before)]
        have old := settled.ports port nonzero fun one other also at_port =>
          pairs one other ((stays one other at_port).mpr also) at_port
        have promised : next.Promised port ↔ pairing.Promised port :=
          promised_congr fun one other at_port _ _ => stays one other at_port
        rw [and_iff_right here, old, promised]

omit [DecidableEq Name] in
theorem Settled.driver (settled : pairing.Settled listenPort) {port : Nat} {held : Option Nat}
    (zero : port = 0 → held = none)
    (same : held = some listenPort ↔ pairing.driver port = some listenPort) :
    ({ pairing with driver := Function.update pairing.driver port held } :
      Pairing Name).Settled listenPort := by
  have holds (other : Nat) : Function.update pairing.driver port held other = some listenPort ↔
      pairing.driver other = some listenPort := by
    rcases eq_or_ne other port with rfl | differs
    · rw [Function.update_self]
      exact same
    · rw [Function.update_of_ne differs]
  refine ⟨?_, fun one call waits => ?_, fun other nonzero pairs => ?_⟩
  · rcases eq_or_ne 0 port with rfl | differs
    · simpa using zero rfl
    · simpa [differs] using settled.zero
  · exact (settled.calls one call waits).carry (fun _ => id) (fun _ _ _ => Iff.rfl) (holds _)
      fun _ _ _ one waits port => ⟨one, waits, port⟩
  · exact (settled.ports other nonzero pairs).trans (or_congr_left (holds other).symm)

theorem Settled.crash (settled : pairing.Settled listenPort) {port : Nat}
    (inTurn : pairing.PairsInTurn (.crash port))
    (taken : pairing.step listenPort (.crash port) = some next) : next.Settled listenPort := by
  simp only [step] at taken
  split at taken
  · cases taken
  rename_i runs
  obtain rfl := Option.some.inj taken
  have nonzero : port ≠ 0 := fun zero => runs (zero ▸ settled.zero)
  have elsewhere (id : Nat) (call : PairingCall Name) (waits : pairing.calls id = some call) :
      call.port ≠ port := by
    rintro rfl
    have before := settled.calls id call waits
    cases isMatch : call.isMatch with
    | true => exact inTurn (before.matching isMatch nonzero).1
    | false => exact inTurn ⟨_, (before.clearing isMatch nonzero).1⟩
  have calls : (fun id => (pairing.calls id).map fun call =>
      if call.port = port ∧ call.phase = .requested then { call with phase := .broken }
      else call) = pairing.calls := by
    funext id
    cases waits : pairing.calls id with
    | none => rfl
    | some call => simp [elsewhere id call waits]
  have unheld : pairing.driver port ≠ some listenPort := fun held =>
    inTurn ((settled.ports port nonzero fun id call waits same =>
      absurd same (elsewhere id call waits)).mpr (.inl held))
  rw [calls]
  exact settled.driver (fun _ => rfl) (by simpa using unheld)

theorem Settled.restart (listens : listenPort ≠ 0) (settled : pairing.Settled listenPort)
    {port : Nat} (taken : pairing.step listenPort (.restart port) = some next) :
    next.Settled listenPort := by
  simp only [step] at taken
  split at taken
  · rename_i down
    obtain rfl := Option.some.inj taken
    exact settled.driver (fun zero => absurd zero down.1) (by simp [down.2, listens.symm])
  · cases taken

theorem Settled.step (listens : listenPort ≠ 0) (settled : pairing.Settled listenPort)
    {label : PairingLabel Name} (inTurn : pairing.PairsInTurn label)
    (taken : pairing.step listenPort label = some next) : next.Settled listenPort := by
  cases label with
  | matchDevice id name port => exact settled.matchDevice inTurn taken
  | clearDevice id name => exact settled.clearDevice inTurn taken
  | setSm id => exact settled.setSm listens taken
  | answer id => exact settled.answer taken
  | fail id => exact settled.fail inTurn taken
  | crash port => exact settled.crash inTurn taken
  | restart port => exact settled.restart listens taken

/-- In every run that avoids what the calls leave behind, the two sides agree whenever no call
is in progress, and a call that returns false changed neither. -/
theorem pairing_of_meets (listens : listenPort ≠ 0) (running : Nat → Bool)
    {labels : List (PairingLabel Name)}
    (inTurn : Meets (step listenPort) PairsInTurn (start running) labels) :
    Always (step listenPort) (Agrees listenPort) (start running) labels ∧
      Meets (step listenPort) LeavesAsWas (start running) labels := by
  have preserved (pairing : Pairing Name) (label : PairingLabel Name) (next : Pairing Name)
      (settled : pairing.Settled listenPort) (allowed : pairing.PairsInTurn label)
      (taken : pairing.step listenPort label = some next) : next.Settled listenPort :=
    settled.step listens allowed taken
  have begins : (start running : Pairing Name).Settled listenPort := start_settled running listens
  exact ⟨(always_of_meets preserved begins inTurn).mono fun _ => Settled.agrees,
    meets_of_meets preserved (fun _ _ settled => settled.leavesAsWas) begins inTurn⟩

def matchedOnce : List (PairingLabel String) := [.matchDevice 0 "scale" 7, .setSm 0, .answer 0]

theorem pairing_of_meets_matchedOnce :
    Always (step 4000) (Agrees 4000) (start fun port => port = 7) matchedOnce ∧
      Meets (step 4000) LeavesAsWas (start fun port => port = 7) matchedOnce :=
  pairing_of_meets (by decide) _ (.cons rfl ⟨.inl rfl, fun _ _ waits => nomatch waits⟩
    (.cons rfl trivial (.cons rfl trivial trivial)))

/-- The entry of a match stays where the call to the driver fails. -/
theorem failed_match_apart : ∃ pairing : Pairing String,
    exec (step 4000) (start fun port => port = 7) [.matchDevice 0 "scale" 7, .fail 0] =
        some pairing ∧ pairing.Quiet ∧ pairing.Maps 7 ∧ pairing.driver 7 = some 0 ∧
      ¬Meets (step 4000) LeavesAsWas (start fun port => port = 7)
        [.matchDevice 0 "scale" 7, .fail 0] := by
  refine ⟨_, rfl, fun id => ?_, ⟨"scale", rfl⟩, rfl, fun leaves => ?_⟩
  · simp [withCall, start]
  · have wrote := (leaves.2 _ rfl).1 0 _ rfl rfl
    cases wrote

end Pairing

end AutoDrop
