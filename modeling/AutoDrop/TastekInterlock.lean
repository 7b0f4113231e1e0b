import AutoDrop.TastekCore

/-!
The open coil and the close coil of the device. The relay never wants both on, but a round
writes the coils in the order of their addresses, so the coil that is to go on may be
written while the other one still is on.
-/

namespace AutoDrop.Tastek

open LabelledRun

def BothOn (coils : Coils) : Prop :=
  coils 0 = true ∧ coils 1 = true

instance (coils : Coils) : Decidable (BothOn coils) :=
  inferInstanceAs (Decidable (_ ∧ _))

def WritesApart (driver : Tastek) : Prop :=
  ∀ coils ∈ driver.writeLog, ¬BothOn coils

/-- What the coils are taken to be in a round whose read succeeds or fails. -/
def seen (driver : Tastek) (readOk : Bool) : Coils :=
  if readOk then driver.physical else driver.realAddrArray

/-- A round that switches the open coil on finds the close coil off; one that switches the
close coil on finds the open coil off, or sees it on and switches it off first. -/
def OtherCoilOff (driver : Tastek) : TastekLabel → Prop
  | .relay _ => True
  | .modbusRound readOk writeOk =>
      (driver.onAddrArray 0 = true → driver.seen readOk 0 = false → writeOk 0 = true →
        driver.physical 1 = false) ∧
      (driver.onAddrArray 1 = true → driver.seen readOk 1 = false → writeOk 1 = true →
        driver.physical 0 = true → driver.seen readOk 0 = true ∧ writeOk 0 = true)

instance : ∀ driver label, Decidable (OtherCoilOff driver label)
  | _, .relay _ => inferInstanceAs (Decidable True)
  | _, .modbusRound _ _ => inferInstanceAs (Decidable (_ ∧ _))

structure Interlocked (driver : Tastek) : Prop where
  writes : WritesApart driver
  physical : ¬BothOn driver.physical
  wanted : ¬BothOn driver.onAddrArray

theorem start_interlocked (coil2 coil3 : Bool) : Interlocked (start coil2 coil3) := by
  refine ⟨?_, ?_, ?_⟩
  · simp [WritesApart, start]
  · simp [BothOn, start]
  · simp [BothOn, start]

section Relay

theorem openCloseLcCmds_frame (cmds : List LcCmd) (driver : Tastek) :
    (cmds.foldl openCloseLcCmd driver).physical = driver.physical ∧
      (cmds.foldl openCloseLcCmd driver).writeLog = driver.writeLog := by
  induction cmds generalizing driver with
  | nil => exact ⟨rfl, rfl⟩
  | cons cmd rest ih =>
      have remaining := ih (driver.openCloseLcCmd cmd)
      have untouched : (driver.openCloseLcCmd cmd).physical = driver.physical ∧
          (driver.openCloseLcCmd cmd).writeLog = driver.writeLog := by
        unfold openCloseLcCmd
        split <;> exact ⟨rfl, rfl⟩
      exact ⟨remaining.1.trans untouched.1, remaining.2.trans untouched.2⟩

theorem switchCmds_wanted (reqState : LcRelayState) (driver : Tastek) :
    ¬BothOn ((LcRelay.switchCmds reqState).foldl openCloseLcCmd driver).onAddrArray := by
  cases reqState with
  | stop => simp [LcRelay.switchCmds, openCloseLcCmd, BothOn]
  | holdOpen => simp [LcRelay.switchCmds, openCloseLcCmd, BothOn]
  | holdClose => simp [LcRelay.switchCmds, openCloseLcCmd, BothOn]

theorem relayCmds_wanted (origState reqState : LcRelayState) (driver : Tastek)
    (wanted : ¬BothOn driver.onAddrArray) :
    ¬BothOn ((LcRelay.relayCmds origState reqState).foldl openCloseLcCmd driver).onAddrArray := by
  unfold LcRelay.relayCmds
  split
  · exact wanted
  · rw [List.foldl_append]
    exact switchCmds_wanted reqState _

theorem relayStep_cmds {coe : Int} {relay next : LcRelay} {label : RelayLabel}
    {cmds : List LcCmd} (taken : relay.relayStep coe label = some (next, cmds)) :
    cmds = [] ∨ ∃ origState reqState, cmds = LcRelay.relayCmds origState reqState := by
  cases label with
  | setLcOpen threshold =>
      simp only [LcRelay.relayStep, LcRelay.executeToThreshold] at taken
      split at taken
      · split at taken
        · injection taken with same
          injection same with _ sent
          exact .inr ⟨_, _, sent.symm⟩
        · split at taken
          · injection taken with same
            injection same with _ sent
            exact .inr ⟨_, _, sent.symm⟩
          · injection taken with same
            injection same with _ sent
            exact .inl sent.symm
      · cases taken
  | tick =>
      simp only [LcRelay.relayStep, LcRelay.relayTick, Option.some.injEq, Prod.mk.injEq] at taken
      obtain ⟨_, sent⟩ := taken
      split at sent
      · exact .inr ⟨_, _, sent.symm⟩
      · exact .inl sent.symm

theorem relay_interlocked {coe retryTimes : Int} {driver next : Tastek} {label : RelayLabel}
    (interlocked : Interlocked driver)
    (taken : step coe retryTimes driver (.relay label) = some next) : Interlocked next := by
  simp only [step, Option.map_eq_some_iff, Prod.exists] at taken
  obtain ⟨relay, cmds, relayTaken, same⟩ := taken
  subst next
  obtain ⟨physical, writeLog⟩ := openCloseLcCmds_frame cmds { driver with relay := relay }
  refine ⟨?_, ?_, ?_⟩
  · unfold WritesApart
    rw [writeLog]
    exact interlocked.writes
  · rw [physical]
    exact interlocked.physical
  · rcases relayStep_cmds relayTaken with none | ⟨origState, reqState, sent⟩
    · subst none
      exact interlocked.wanted
    · subst sent
      exact relayCmds_wanted origState reqState _ interlocked.wanted

end Relay

section Round

variable {retryTimes : Int} {writeOk : Coils} {driver : Tastek}

@[simp] theorem challengeError_onAddrArray (success : Bool) :
    (challengeError retryTimes driver success).onAddrArray = driver.onAddrArray := by
  unfold challengeError
  split <;> rfl

@[simp] theorem challengeError_realAddrArray (success : Bool) :
    (challengeError retryTimes driver success).realAddrArray = driver.realAddrArray := by
  unfold challengeError
  split <;> rfl

@[simp] theorem challengeError_physical (success : Bool) :
    (challengeError retryTimes driver success).physical = driver.physical := by
  unfold challengeError
  split <;> rfl

@[simp] theorem challengeError_writeLog (success : Bool) :
    (challengeError retryTimes driver success).writeLog = driver.writeLog := by
  unfold challengeError
  split <;> rfl

@[simp] theorem visitCoil_onAddrArray (coil : Fin 4) :
    (visitCoil retryTimes writeOk driver coil).onAddrArray = driver.onAddrArray := by
  unfold visitCoil
  split <;> simp [setCoil]

@[simp] theorem visitCoil_realAddrArray (coil : Fin 4) :
    (visitCoil retryTimes writeOk driver coil).realAddrArray = driver.realAddrArray := by
  unfold visitCoil
  split <;> simp [setCoil]

theorem visitCoil_physical_self (coil : Fin 4) :
    (visitCoil retryTimes writeOk driver coil).physical coil =
      if driver.realAddrArray coil ≠ driver.onAddrArray coil ∧ writeOk coil = true
      then driver.onAddrArray coil else driver.physical coil := by
  by_cases differs : driver.realAddrArray coil = driver.onAddrArray coil
  · simp [visitCoil, differs]
  · by_cases written : writeOk coil = true
    · simp [visitCoil, setCoil, differs, written]
    · simp [visitCoil, setCoil, differs, written]

theorem visitCoil_physical_other {coil other : Fin 4} (different : other ≠ coil) :
    (visitCoil retryTimes writeOk driver coil).physical other = driver.physical other := by
  unfold visitCoil
  split
  · by_cases written : writeOk coil = true
    · simp [setCoil, written, different]
    · simp [setCoil, written]
  · rfl

theorem visitCoil_writeLog (coil : Fin 4) :
    (visitCoil retryTimes writeOk driver coil).writeLog =
      if driver.realAddrArray coil ≠ driver.onAddrArray coil
      then (visitCoil retryTimes writeOk driver coil).physical :: driver.writeLog
      else driver.writeLog := by
  by_cases differs : driver.realAddrArray coil = driver.onAddrArray coil
  · simp [visitCoil, differs]
  · simp [visitCoil, setCoil, differs]

theorem writesApart_of_visitCoil {coil : Fin 4}
    (apart : WritesApart (visitCoil retryTimes writeOk driver coil)) : WritesApart driver := by
  intro coils logged
  apply apart
  rw [visitCoil_writeLog]
  split
  · exact List.mem_cons_of_mem _ logged
  · exact logged

theorem visitCoil_writesApart_iff {coil : Fin 4} (apart : WritesApart driver)
    (physical : ¬BothOn driver.physical) :
    WritesApart (visitCoil retryTimes writeOk driver coil) ↔
      ¬BothOn (visitCoil retryTimes writeOk driver coil).physical := by
  by_cases differs : driver.realAddrArray coil = driver.onAddrArray coil
  · have same : visitCoil retryTimes writeOk driver coil = driver := by
      simp [visitCoil, differs]
    rw [same]
    exact ⟨fun _ => physical, fun _ => apart⟩
  · unfold WritesApart
    rw [visitCoil_writeLog, if_pos differs]
    simp only [List.mem_cons, forall_eq_or_imp]
    exact ⟨fun all => all.1, fun now => ⟨now, apart⟩⟩

theorem lcGetCoil_frame (retryTimes : Int) (driver : Tastek) (readOk : Bool) :
    (driver.lcGetCoil retryTimes readOk).onAddrArray = driver.onAddrArray ∧
      (driver.lcGetCoil retryTimes readOk).realAddrArray = driver.seen readOk ∧
      (driver.lcGetCoil retryTimes readOk).physical = driver.physical ∧
      (driver.lcGetCoil retryTimes readOk).writeLog = driver.writeLog := by
  simp [lcGetCoil, seen]

theorem visitCoil_apart_iff {coil other : Fin 4} (different : other ≠ coil)
    (physical : ¬(driver.physical coil = true ∧ driver.physical other = true)) :
    ¬((visitCoil retryTimes writeOk driver coil).physical coil = true ∧
        (visitCoil retryTimes writeOk driver coil).physical other = true) ↔
      (driver.onAddrArray coil = true → driver.realAddrArray coil = false →
        writeOk coil = true → driver.physical other = false) := by
  rw [visitCoil_physical_other different, visitCoil_physical_self]
  split
  · rename_i changed
    obtain ⟨differs, written⟩ := changed
    constructor
    · intro apart on _ _
      by_contra otherOn
      exact apart ⟨on, by simpa using otherOn⟩
    · intro off both
      have unseen : driver.realAddrArray coil = false := by
        simpa [both.1] using differs
      simp [off both.1 unseen written] at both
  · rename_i unchanged
    refine ⟨fun _ on unseen written => ?_, fun _ => physical⟩
    simp [on, unseen, written] at unchanged

theorem visitCoil_otherCoils {coil : Fin 4} (notOpen : 0 ≠ coil) (notClose : 1 ≠ coil) :
    BothOn (visitCoil retryTimes writeOk driver coil).physical ↔ BothOn driver.physical := by
  unfold BothOn
  rw [visitCoil_physical_other notOpen, visitCoil_physical_other notClose]

theorem visitCoil_openCoil_off_iff (wanted : driver.onAddrArray 1 = true)
    (apart : ¬BothOn driver.onAddrArray) :
    (visitCoil retryTimes writeOk driver 0).physical 0 = false ↔
      (driver.physical 0 = true → driver.realAddrArray 0 = true ∧ writeOk 0 = true) := by
  have off : driver.onAddrArray 0 = false := by
    by_contra on
    exact apart ⟨by simpa using on, wanted⟩
  rw [visitCoil_physical_self, off]
  split
  · rename_i changed
    exact ⟨fun _ _ => ⟨by simpa using changed.1, changed.2⟩, fun _ => rfl⟩
  · rename_i unchanged
    constructor
    · intro already on
      simp [already] at on
    · intro switched
      by_contra on
      obtain ⟨saw, written⟩ := switched (by simpa using on)
      simp [saw, written] at unchanged

theorem visits_writesApart_iff (apart : WritesApart driver)
    (physical : ¬BothOn driver.physical) :
    WritesApart ([0, 1, 2, 3].foldl (visitCoil retryTimes writeOk) driver) ↔
      ¬BothOn (visitCoil retryTimes writeOk driver 0).physical ∧
        ¬BothOn (visitCoil retryTimes writeOk
          (visitCoil retryTimes writeOk driver 0) 1).physical := by
  simp only [List.foldl_cons, List.foldl_nil]
  constructor
  · intro all
    have second := writesApart_of_visitCoil (writesApart_of_visitCoil all)
    have first := writesApart_of_visitCoil second
    have firstOff := (visitCoil_writesApart_iff apart physical).mp first
    exact ⟨firstOff, (visitCoil_writesApart_iff first firstOff).mp second⟩
  · intro both
    obtain ⟨firstOff, secondOff⟩ := both
    have first := (visitCoil_writesApart_iff apart physical).mpr firstOff
    have second := (visitCoil_writesApart_iff first firstOff).mpr secondOff
    have thirdOff : ¬BothOn (visitCoil retryTimes writeOk (visitCoil retryTimes writeOk
        (visitCoil retryTimes writeOk driver 0) 1) 2).physical := by
      rw [visitCoil_otherCoils (by decide) (by decide)]
      exact secondOff
    have third := (visitCoil_writesApart_iff second secondOff).mpr thirdOff
    apply (visitCoil_writesApart_iff third thirdOff).mpr
    rw [visitCoil_otherCoils (by decide) (by decide)]
    exact thirdOff

theorem visits_physical (driver : Tastek) :
    BothOn ([0, 1, 2, 3].foldl (visitCoil retryTimes writeOk) driver).physical ↔
      BothOn (visitCoil retryTimes writeOk
        (visitCoil retryTimes writeOk driver 0) 1).physical := by
  simp only [List.foldl_cons, List.foldl_nil]
  rw [visitCoil_otherCoils (by decide) (by decide), visitCoil_otherCoils (by decide) (by decide)]

theorem modbusRound_writesApart_iff (interlocked : Interlocked driver) (readOk : Bool) :
    WritesApart (driver.modbusRound retryTimes readOk writeOk) ↔
      OtherCoilOff driver (.modbusRound readOk writeOk) := by
  obtain ⟨onAddr, real, physical, log⟩ := lcGetCoil_frame retryTimes driver readOk
  unfold modbusRound
  generalize driver.lcGetCoil retryTimes readOk = got at onAddr real physical log
  have gotApart : WritesApart got := by
    unfold WritesApart
    rw [log]
    exact interlocked.writes
  have gotOff : ¬BothOn got.physical := by
    rw [physical]
    exact interlocked.physical
  rw [visits_writesApart_iff gotApart gotOff]
  have wanted : ¬BothOn got.onAddrArray := by
    rw [onAddr]
    exact interlocked.wanted
  have different : (1 : Fin 4) ≠ 0 := by decide
  have opened : ¬BothOn (visitCoil retryTimes writeOk got 0).physical ↔ _ :=
    visitCoil_apart_iff different gotOff
  have closed (firstOff : ¬BothOn (visitCoil retryTimes writeOk got 0).physical) :
      ¬BothOn (visitCoil retryTimes writeOk (visitCoil retryTimes writeOk got 0) 1).physical ↔
        (got.onAddrArray 1 = true → got.realAddrArray 1 = false → writeOk 1 = true →
          got.physical 0 = true → got.realAddrArray 0 = true ∧ writeOk 0 = true) := by
    have swapped := fun both => firstOff (And.comm.mp both)
    unfold BothOn
    rw [And.comm, visitCoil_apart_iff different.symm swapped]
    simp only [visitCoil_onAddrArray, visitCoil_realAddrArray]
    exact forall_congr' fun on => forall_congr' fun _ => forall_congr' fun _ =>
      visitCoil_openCoil_off_iff on wanted
  rw [onAddr, real, physical] at opened closed
  constructor
  · intro both
    exact ⟨opened.mp both.1, (closed both.1).mp both.2⟩
  · intro both
    have firstOff := opened.mpr both.1
    exact ⟨firstOff, (closed firstOff).mpr both.2⟩

theorem modbusRound_interlocked (interlocked : Interlocked driver) (readOk : Bool)
    (off : OtherCoilOff driver (.modbusRound readOk writeOk)) :
    Interlocked (driver.modbusRound retryTimes readOk writeOk) := by
  have apart : WritesApart (driver.modbusRound retryTimes readOk writeOk) :=
    (modbusRound_writesApart_iff interlocked readOk).mpr off
  obtain ⟨onAddr, _, physical, log⟩ := lcGetCoil_frame retryTimes driver readOk
  unfold modbusRound at apart ⊢
  generalize driver.lcGetCoil retryTimes readOk = got at onAddr physical log apart ⊢
  have gotOff : ¬BothOn got.physical := by
    rw [physical]
    exact interlocked.physical
  have gotApart : WritesApart got := by
    unfold WritesApart
    rw [log]
    exact interlocked.writes
  refine ⟨apart, ?_, ?_⟩
  · rw [visits_physical]
    exact ((visits_writesApart_iff gotApart gotOff).mp apart).2
  · simp only [List.foldl_cons, List.foldl_nil, visitCoil_onAddrArray, onAddr]
    exact interlocked.wanted

end Round

theorem step_interlocked {coe retryTimes : Int} {driver next : Tastek} {label : TastekLabel}
    (interlocked : Interlocked driver) (off : OtherCoilOff driver label)
    (taken : step coe retryTimes driver label = some next) : Interlocked next := by
  cases label with
  | relay label => exact relay_interlocked interlocked taken
  | modbusRound readOk writeOk =>
      simp only [step, Option.some.injEq] at taken
      exact taken ▸ modbusRound_interlocked interlocked readOk off

theorem otherCoilOff_of_step {coe retryTimes : Int} {driver next : Tastek} {label : TastekLabel}
    (interlocked : Interlocked driver) (taken : step coe retryTimes driver label = some next)
    (apart : WritesApart next) : OtherCoilOff driver label := by
  cases label with
  | relay label => trivial
  | modbusRound readOk writeOk =>
      simp only [step, Option.some.injEq] at taken
      exact (modbusRound_writesApart_iff interlocked readOk).mp (taken ▸ apart)

/-- The two coils are never both on after a write exactly when no round switches one of them
on while the other one is on and stays on. -/
theorem always_writesApart_iff (coe retryTimes : Int) (coil2 coil3 : Bool)
    (labels : List TastekLabel) (final : Tastek)
    (run : exec (step coe retryTimes) (start coil2 coil3) labels = some final) :
    Always (step coe retryTimes) WritesApart (start coil2 coil3) labels ↔
      Meets (step coe retryTimes) OtherCoilOff (start coil2 coil3) labels :=
  always_iff_meets (fun _ interlocked => interlocked.writes)
    (fun _ _ _ interlocked off taken => step_interlocked interlocked off taken)
    (fun _ _ _ interlocked taken apart => otherCoilOff_of_step interlocked taken apart)
    (start_interlocked coil2 coil3) run

def allOk : Coils := fun _ => true

theorem always_writesApart_opening :
    Always (step 20 3) WritesApart (start false false)
      [.relay (.setLcOpen 40), .modbusRound true allOk, .relay .tick, .relay .tick,
        .modbusRound true allOk] := by
  refine (always_writesApart_iff 20 3 false false _ _ rfl).mpr ?_
  decide

/-- A chute that reverses from closing to opening has both coils on until the next write. -/
theorem both_coils_on :
    ∃ final, exec (step 20 3) (start false false)
        [.relay (.setLcOpen 40), .relay .tick, .relay .tick, .relay (.setLcOpen 0),
          .modbusRound true allOk, .relay (.setLcOpen 60), .modbusRound true allOk] = some final ∧
      ∃ coils ∈ final.writeLog, BothOn coils := by
  refine ⟨_, rfl, ?_⟩
  decide

end AutoDrop.Tastek
