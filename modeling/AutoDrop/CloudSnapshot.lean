import AutoDrop.LabelledRun
import Mathlib.Algebra.Ring.Nat

/-!
`/tmp/cloud.bin` between the calls of `serializePointCloud` in the lidar drivers and the
reader in the web server. A call holds the flock of `/tmp/cloud.lock`, a reader has made the
directory `/tmp/cloud.lock.lock`; neither looks at the other's lock. The stream writes what
it was given in pieces of any size, `readFile` takes the size first and reads in pieces of
any size. `written` and `handed` log the clouds whose files were closed and what `setData`
was called with.
-/

namespace AutoDrop

/-- A `pcl::PointXYZRGB`, the coordinates as the bits of their floats. -/
structure CloudPoint where
  x : UInt32
  y : UInt32
  z : UInt32
  r : UInt8
  g : UInt8
  b : UInt8
deriving DecidableEq

/-- The bits of `value * 1.0f`. -/
def byteToFloat (value : UInt8) : UInt32 :=
  if value = 0 then 0
  else
    let exponent := Nat.log2 value.toNat
    .ofNat ((127 + exponent) * 2 ^ 23 + (value.toNat - 2 ^ exponent) * 2 ^ (23 - exponent))

example : byteToFloat 1 = 0x3f800000 ∧ byteToFloat 255 = 0x437f0000 := by decide

namespace CloudPoint

def data (point : CloudPoint) : List UInt32 :=
  [point.x, point.y, point.z, byteToFloat point.r, byteToFloat point.g, byteToFloat point.b, 0]

def bytes (point : CloudPoint) : List UInt8 :=
  point.data.flatMap fun (value : UInt32) =>
    [value.toUInt8, (value >>> 8).toUInt8, (value >>> 16).toUInt8, (value >>> 24).toUInt8]

end CloudPoint

def serialize (cloud : List CloudPoint) : List UInt8 :=
  cloud.flatMap CloudPoint.bytes

inductive WriterPhase
  | idle
  | locked (cloud : List CloudPoint)
  | writing (cloud : List CloudPoint) (rest : List UInt8)
  | closed

inductive ReaderPhase
  | idle
  | locked
  | reading (size : Nat) (data : List UInt8)
  | read (data : List UInt8)
  | released (data : List UInt8)
  | failed

def WriterPhase.locks : WriterPhase → Bool
  | .idle => false
  | _ => true

/-- Between the opening, which truncates the file, and the closing. -/
def WriterPhase.inFile : WriterPhase → Bool
  | .writing _ _ => true
  | _ => false

def ReaderPhase.locks : ReaderPhase → Bool
  | .idle | .released _ => false
  | _ => true

def ReaderPhase.inFile : ReaderPhase → Bool
  | .reading _ _ => true
  | _ => false

/-- The bytes of a read that has come to its end. -/
def ReaderPhase.taken : ReaderPhase → Option (List UInt8)
  | .read data | .released data => some data
  | _ => none

structure CloudFile (Writer Reader : Type*) where
  content : Option (List UInt8)
  flock : Option Writer
  lockDir : Option Reader
  writers : Writer → WriterPhase
  readers : Reader → ReaderPhase
  written : List (List CloudPoint)
  handed : List (List UInt8)

inductive CloudLabel (Writer Reader : Type*)
  | serializePointCloud (writer : Writer) (cloud : List CloudPoint)
  | openFails (writer : Writer)
  | openStream (writer : Writer)
  | write (writer : Writer) (count : Nat)
  | closeStream (writer : Writer)
  | unlock (writer : Writer)
  | lock (reader : Reader)
  | openFile (reader : Reader)
  | readSome (reader : Reader) (count : Nat)
  | release (reader : Reader)
  | setData (reader : Reader)

namespace CloudFile

variable {Writer Reader : Type*}

def start : CloudFile Writer Reader where
  content := none
  flock := none
  lockDir := none
  writers := fun _ => .idle
  readers := fun _ => .idle
  written := []
  handed := []

def setWriter [DecidableEq Writer] (file : CloudFile Writer Reader) (writer : Writer)
    (phase : WriterPhase) : CloudFile Writer Reader :=
  { file with writers := Function.update file.writers writer phase }

def setReader [DecidableEq Reader] (file : CloudFile Writer Reader) (reader : Reader)
    (phase : ReaderPhase) : CloudFile Writer Reader :=
  { file with readers := Function.update file.readers reader phase }

/-- One read of `readFile`. It ends where nothing more comes or the size is reached. -/
def readOn (size : Nat) (data piece : List UInt8) : ReaderPhase :=
  if piece = [] ∨ (data ++ piece).length = size then .read (data ++ piece)
  else .reading size (data ++ piece)

def step [DecidableEq Writer] [DecidableEq Reader] (file : CloudFile Writer Reader) :
    CloudLabel Writer Reader → Option (CloudFile Writer Reader)
  | .serializePointCloud writer cloud =>
      match file.writers writer, file.flock with
      | .idle, none => some { file.setWriter writer (.locked cloud) with flock := some writer }
      | _, _ => none
  | .openFails writer =>
      match file.writers writer with
      | .locked _ => some { file.setWriter writer .idle with flock := none }
      | _ => none
  | .openStream writer =>
      match file.writers writer with
      | .locked cloud =>
          some { file.setWriter writer (.writing cloud (serialize cloud)) with content := some [] }
      | _ => none
  | .write writer count =>
      match file.writers writer, file.content with
      | .writing cloud rest, some content =>
          if 0 < count ∧ count ≤ rest.length then
            some { file.setWriter writer (.writing cloud (rest.drop count)) with
              content := some (content ++ rest.take count) }
          else none
      | _, _ => none
  | .closeStream writer =>
      match file.writers writer with
      | .writing cloud [] =>
          some { file.setWriter writer .closed with written := file.written ++ [cloud] }
      | _ => none
  | .unlock writer =>
      match file.writers writer with
      | .closed => some { file.setWriter writer .idle with flock := none }
      | _ => none
  | .lock reader =>
      match file.readers reader, file.lockDir with
      | .idle, none => some { file.setReader reader .locked with lockDir := some reader }
      | _, _ => none
  | .openFile reader =>
      match file.readers reader, file.content with
      | .locked, some content => some (file.setReader reader (.reading content.length []))
      -- `readFile` rejects, and nothing releases the lock.
      | .locked, none => some (file.setReader reader .failed)
      | _, _ => none
  | .readSome reader count =>
      match file.readers reader, file.content with
      | .reading size data, some content =>
          if 0 < count ∧ (size = 0 ∨ data.length + count ≤ size) then
            some (file.setReader reader (readOn size data ((content.drop data.length).take count)))
          else none
      | _, _ => none
  | .release reader =>
      match file.readers reader with
      | .read data => some { file.setReader reader (.released data) with lockDir := none }
      | _ => none
  | .setData reader =>
      match file.readers reader with
      | .released data =>
          some { file.setReader reader .idle with handed := file.handed ++ [data] }
      | _ => none

/-- The bytes are the whole serialization of a cloud that was written. -/
def Whole (file : CloudFile Writer Reader) (data : List UInt8) : Prop :=
  ∃ cloud ∈ file.written, data = serialize cloud

def Untorn (file : CloudFile Writer Reader) : Prop :=
  ∀ data ∈ file.handed, file.Whole data

/-- No stream is opened while a reader is in the file, and no reader opens the file while a
stream is. -/
def Apart (file : CloudFile Writer Reader) : CloudLabel Writer Reader → Prop
  | .openStream _ => ¬file.lockDir.any fun reader => (file.readers reader).inFile
  | .openFile _ => ¬file.flock.any fun writer => (file.writers writer).inFile
  | _ => True

instance (file : CloudFile Writer Reader) : ∀ label, Decidable (file.Apart label)
  | .openStream _ => inferInstanceAs (Decidable ¬_)
  | .openFile _ => inferInstanceAs (Decidable ¬_)
  | .serializePointCloud _ _ | .openFails _ | .write _ _ | .closeStream _ | .unlock _ | .lock _
  | .readSome _ _ | .release _ | .setData _ => .isTrue trivial

def NoWriter (file : CloudFile Writer Reader) : Prop :=
  ∀ writer, (file.writers writer).inFile = false

def NoReader (file : CloudFile Writer Reader) : Prop :=
  ∀ reader, (file.readers reader).inFile = false

structure WriterSide (file : CloudFile Writer Reader) : Prop where
  flocks : ∀ {writer}, (file.writers writer).locks = true → file.flock = some writer
  settled : ∀ {content}, file.content = some content → file.NoWriter → file.Whole content
  partly : ∀ {writer cloud rest}, file.writers writer = .writing cloud rest →
    ∃ front, file.content = some front ∧ front ++ rest = serialize cloud

structure ReaderSide (file : CloudFile Writer Reader) : Prop where
  lockDirs : ∀ {reader}, (file.readers reader).locks = true → file.lockDir = some reader
  reads : ∀ {reader size data}, file.readers reader = .reading size data →
    ∃ content, file.content = some content ∧ size = content.length ∧ data <+: content
  done : ∀ {reader data}, (file.readers reader).taken = some data → file.Whole data
  untorn : file.Untorn

structure Intact (file : CloudFile Writer Reader) : Prop extends
    WriterSide file, ReaderSide file where
  apart : file.NoWriter ∨ file.NoReader

theorem writer_out {phase : WriterPhase} (unlocked : phase.locks = false) :
    phase.inFile = false := by
  cases phase with
  | idle => rfl
  | locked | writing | closed => cases unlocked

theorem reader_out {phase : ReaderPhase} (unlocked : phase.locks = false) :
    phase.inFile = false := by
  cases phase with
  | idle | released => rfl
  | locked | reading | read | failed => cases unlocked

theorem out_update {Party Phase : Type*} [DecidableEq Party] {inFile : Phase → Bool}
    {phases : Party → Phase} {party : Party} {phase : Phase} (out : inFile phase = false)
    (others : ∀ other, other ≠ party → inFile (phases other) = false) (other : Party) :
    inFile (Function.update phases party phase other) = false := by
  rw [Function.update_apply]
  split
  · exact out
  · rename_i apart
    exact others other apart

variable {file next : CloudFile Writer Reader} {writer other : Writer} {reader : Reader}

namespace WriterSide

theorem alone (side : file.WriterSide)
    (free : file.flock = none ∨ (file.writers writer).locks = true) (apart : other ≠ writer) :
    (file.writers other).locks = false := by
  rw [Bool.eq_false_iff]
  intro held
  rcases free with free | own
  · exact nomatch free.symm.trans (side.flocks held)
  · exact apart (Option.some.inj ((side.flocks held).symm.trans (side.flocks own)))

theorem noWriter (side : file.WriterSide)
    (free : file.flock = none ∨ (file.writers writer).locks = true)
    (out : (file.writers writer).inFile = false) : file.NoWriter := by
  intro other
  by_cases same : other = writer
  · exact same ▸ out
  · exact writer_out (side.alone free same)

theorem noWriter_of_flock (side : file.WriterSide)
    (out : ¬file.flock.any fun writer => (file.writers writer).inFile) : file.NoWriter := by
  intro writer
  cases held : (file.writers writer).locks with
  | false => exact writer_out held
  | true => simpa [side.flocks held] using out

theorem move [DecidableEq Writer] {phase : WriterPhase} (side : file.WriterSide)
    (free : file.flock = none ∨ (file.writers writer).locks = true)
    (writers : next.writers = Function.update file.writers writer phase)
    (flock : phase.locks = true → next.flock = some writer)
    (settled : phase.inFile = false → ∀ content, next.content = some content → next.Whole content)
    (partly : ∀ cloud rest, phase = .writing cloud rest →
      ∃ front, next.content = some front ∧ front ++ rest = serialize cloud) :
    next.WriterSide := by
  have own : next.writers writer = phase := by rw [writers, Function.update_self]
  have locks {other : Writer} (held : (next.writers other).locks = true) : other = writer := by
    by_contra apart
    rw [writers, Function.update_of_ne apart, side.alone free apart] at held
    cases held
  constructor
  · intro other held
    cases locks held
    exact flock (own ▸ held)
  · intro content has none
    exact settled (own ▸ none writer) content has
  · intro other cloud rest inFile
    cases locks (by rw [inFile]; rfl)
    exact partly cloud rest (own.symm.trans inFile)

end WriterSide

namespace ReaderSide

theorem whole_mono {data : List UInt8} (grows : file.written ⊆ next.written)
    (whole : file.Whole data) : next.Whole data := by
  obtain ⟨cloud, member, same⟩ := whole
  exact ⟨cloud, grows member, same⟩

/-- A step of a writer leaves the readers their bytes, unless none is in the file. -/
theorem frame (side : file.ReaderSide) (readers : next.readers = file.readers)
    (lockDir : next.lockDir = file.lockDir) (handed : next.handed = file.handed)
    (grows : file.written ⊆ next.written)
    (content : next.content = file.content ∨ file.NoReader) : next.ReaderSide := by
  constructor
  · intro reader held
    rw [lockDir]
    exact side.lockDirs (readers ▸ held)
  · intro reader size data inFile
    rw [readers] at inFile
    rcases content with same | out
    · rw [same]
      exact side.reads inFile
    · exact nomatch (out reader).symm.trans (congrArg ReaderPhase.inFile inFile)
  · intro reader data done
    rw [readers] at done
    exact whole_mono grows (side.done done)
  · intro data member
    exact whole_mono grows (side.untorn data (handed ▸ member))

theorem alone {other : Reader} (side : file.ReaderSide)
    (free : file.lockDir = none ∨ (file.readers reader).locks = true) (apart : other ≠ reader) :
    (file.readers other).locks = false := by
  rw [Bool.eq_false_iff]
  intro held
  rcases free with free | own
  · exact nomatch free.symm.trans (side.lockDirs held)
  · exact apart (Option.some.inj ((side.lockDirs held).symm.trans (side.lockDirs own)))

theorem noReader_of_lockDir (side : file.ReaderSide)
    (out : ¬file.lockDir.any fun reader => (file.readers reader).inFile) : file.NoReader := by
  intro reader
  cases held : (file.readers reader).locks with
  | false => exact reader_out held
  | true => simpa [side.lockDirs held] using out

theorem move [DecidableEq Reader] {phase : ReaderPhase} (side : file.ReaderSide)
    (readers : next.readers = Function.update file.readers reader phase)
    (content : next.content = file.content) (written : next.written = file.written)
    (lockDir : phase.locks = true → next.lockDir = some reader)
    (others : ∀ other, other ≠ reader → (file.readers other).locks = true →
      next.lockDir = file.lockDir)
    (reads : ∀ size data, phase = .reading size data →
      ∃ content, file.content = some content ∧ size = content.length ∧ data <+: content)
    (done : ∀ data, phase.taken = some data → file.Whole data)
    (untorn : ∀ data ∈ next.handed, data ∉ file.handed → file.Whole data) : next.ReaderSide := by
  have own : next.readers reader = phase := by rw [readers, Function.update_self]
  have older {other : Reader} (apart : other ≠ reader) :
      next.readers other = file.readers other := by
    rw [readers, Function.update_of_ne apart]
  have whole {data : List UInt8} (before : file.Whole data) : next.Whole data :=
    whole_mono (written ▸ List.Subset.refl _) before
  constructor
  · intro other held
    by_cases same : other = reader
    · subst same
      exact lockDir (own ▸ held)
    · rw [older same] at held
      rw [others other same held, side.lockDirs held]
  · intro other size data inFile
    rw [content]
    by_cases same : other = reader
    · subst same
      exact reads size data (own.symm.trans inFile)
    · exact side.reads ((older same).symm.trans inFile)
  · intro other data ended
    by_cases same : other = reader
    · subst same
      exact whole (done data (own ▸ ended))
    · exact whole (side.done (older same ▸ ended))
  · intro data member
    by_cases before : data ∈ file.handed
    · exact whole (side.untorn data before)
    · exact whole (untorn data member before)

end ReaderSide

theorem readOn_content {size count : Nat} {data content : List UInt8} (positive : 0 < count)
    (front : data <+: content) (sized : size = content.length) :
    readOn size data ((content.drop data.length).take count) = .read content ∨
      ∃ more, readOn size data ((content.drop data.length).take count) = .reading size more ∧
        more <+: content := by
  obtain ⟨rest, rfl⟩ := front
  rw [List.drop_left' rfl]
  have longer : data ++ rest.take count <+: data ++ rest :=
    (List.prefix_append_right_inj data).mpr (List.take_prefix count rest)
  unfold readOn
  split
  · rename_i ends
    refine .inl (congrArg ReaderPhase.read ?_)
    rcases ends with nothing | full
    · have empty : rest = [] := by
        rcases List.take_eq_nil_iff.mp nothing with zero | empty
        · omega
        · exact empty
      simp [empty]
    · exact longer.eq_of_length (full.trans sized)
  · exact .inr ⟨_, rfl, longer⟩

namespace Intact

theorem start : (CloudFile.start : CloudFile Writer Reader).Intact where
  flocks held := nomatch held
  settled has := nomatch has
  partly inFile := nomatch inFile
  lockDirs held := nomatch held
  reads inFile := nomatch inFile
  done ended := nomatch ended
  untorn _ member := nomatch member
  apart := .inl fun _ => rfl

theorem relock [DecidableEq Writer] {flock : Option Writer} {phase : WriterPhase}
    (intact : file.Intact) (free : file.flock = none ∨ (file.writers writer).locks = true)
    (before : (file.writers writer).inFile = false) (behind : phase.inFile = false)
    (holds : phase.locks = true → flock = some writer) :
    { file.setWriter writer phase with flock }.Intact := by
  have none := intact.noWriter free before
  have side : { file.setWriter writer phase with flock }.WriterSide := by
    refine intact.toWriterSide.move free rfl holds (fun _ content has => ?_) ?_
    · exact intact.settled has none
    · rintro cloud rest rfl
      cases behind
  exact ⟨side, intact.toReaderSide.frame rfl rfl rfl (List.Subset.refl _) (.inl rfl),
    .inl (out_update behind fun other _ => none other)⟩

theorem change [DecidableEq Writer] {cloud : List CloudPoint} {rest content : List UInt8}
    (intact : file.Intact) (held : (file.writers writer).locks = true) (none : file.NoReader)
    (partly : content ++ rest = serialize cloud) :
    { file.setWriter writer (.writing cloud rest) with content := some content }.Intact := by
  have side : { file.setWriter writer (.writing cloud rest) with
      content := some content }.WriterSide := by
    refine intact.toWriterSide.move (.inr held) rfl (fun _ => intact.flocks held) ?_ ?_
    · intro out
      cases out
    · intro other remaining same
      cases same
      exact ⟨content, rfl, partly⟩
  exact ⟨side, intact.toReaderSide.frame rfl rfl rfl (List.Subset.refl _) (.inr none), .inr none⟩

theorem closeStream [DecidableEq Writer] {cloud : List CloudPoint} (intact : file.Intact)
    (phase : file.writers writer = .writing cloud []) :
    { file.setWriter writer .closed with written := file.written ++ [cloud] }.Intact := by
  have held : (file.writers writer).locks = true := by rw [phase]; rfl
  obtain ⟨front, has, whole⟩ := intact.partly phase
  rw [List.append_nil] at whole
  have grows : file.written ⊆ file.written ++ [cloud] := List.subset_append_left _ _
  have side : { file.setWriter writer .closed with
      written := file.written ++ [cloud] }.WriterSide := by
    refine intact.toWriterSide.move (.inr held) rfl (fun _ => intact.flocks held) ?_ ?_
    · intro _ content same
      cases has.symm.trans same
      exact ⟨cloud, by simp, whole⟩
    · intro other rest same
      cases same
  exact ⟨side, intact.toReaderSide.frame rfl rfl rfl grows (.inl rfl),
    .inl (out_update rfl fun other apart =>
      writer_out (intact.toWriterSide.alone (.inr held) apart))⟩

theorem read [DecidableEq Reader] {phase : ReaderPhase} {lockDir : Option Reader}
    (intact : file.Intact) (none : phase.inFile = true → file.NoWriter)
    (holds : phase.locks = true → lockDir = some reader)
    (others : ∀ other, other ≠ reader → (file.readers other).locks = true →
      lockDir = file.lockDir)
    (reads : ∀ size data, phase = .reading size data →
      ∃ content, file.content = some content ∧ size = content.length ∧ data <+: content)
    (done : ∀ data, phase.taken = some data → file.Whole data) :
    { file.setReader reader phase with lockDir }.Intact := by
  have side : { file.setReader reader phase with lockDir }.ReaderSide :=
    intact.toReaderSide.move rfl rfl rfl holds others reads done
      fun data member before => (before member).elim
  refine ⟨⟨intact.flocks, intact.settled, intact.partly⟩, side, ?_⟩
  cases inFile : phase.inFile with
  | true => exact .inl (none inFile)
  | false =>
      rcases intact.apart with noWriter | noReader
      · exact .inl noWriter
      · exact .inr (out_update inFile fun other _ => noReader other)

theorem setData [DecidableEq Reader] {data : List UInt8} (intact : file.Intact)
    (phase : file.readers reader = .released data) :
    { file.setReader reader .idle with handed := file.handed ++ [data] }.Intact := by
  have whole : file.Whole data := intact.done (congrArg ReaderPhase.taken phase)
  have side : { file.setReader reader .idle with handed := file.handed ++ [data] }.ReaderSide := by
    refine intact.toReaderSide.move rfl rfl rfl nofun (fun _ _ _ => rfl) nofun nofun ?_
    intro other member before
    rcases List.mem_append.mp member with older | last
    · exact (before older).elim
    · exact List.mem_singleton.mp last ▸ whole
  refine ⟨⟨intact.flocks, intact.settled, intact.partly⟩, side, ?_⟩
  rcases intact.apart with noWriter | noReader
  · exact .inl noWriter
  · exact .inr (out_update rfl fun other _ => noReader other)

theorem step [DecidableEq Writer] [DecidableEq Reader] {label : CloudLabel Writer Reader}
    (intact : file.Intact) (met : file.Apart label) (taken : file.step label = some next) :
    next.Intact := by
  cases label with
  | serializePointCloud writer cloud =>
      simp only [CloudFile.step] at taken
      split at taken
      · rename_i phase free
        cases taken
        exact intact.relock (.inl free) (by rw [phase]; rfl) rfl fun _ => rfl
      · cases taken
  | openFails writer =>
      simp only [CloudFile.step] at taken
      split at taken
      · rename_i cloud phase
        cases taken
        exact intact.relock (.inr (by rw [phase]; rfl)) (by rw [phase]; rfl) rfl nofun
      · cases taken
  | unlock writer =>
      simp only [CloudFile.step] at taken
      split at taken
      · rename_i phase
        cases taken
        exact intact.relock (.inr (by rw [phase]; rfl)) (by rw [phase]; rfl) rfl nofun
      · cases taken
  | openStream writer =>
      simp only [CloudFile.step] at taken
      split at taken
      · rename_i cloud phase
        cases taken
        exact intact.change (by rw [phase]; rfl) (intact.noReader_of_lockDir met) rfl
      · cases taken
  | write writer count =>
      simp only [CloudFile.step] at taken
      split at taken
      · rename_i cloud rest content phase has
        split at taken
        · cases taken
          obtain ⟨front, same, whole⟩ := intact.partly phase
          cases has.symm.trans same
          have noReader : file.NoReader := intact.apart.resolve_left fun none =>
            nomatch (none writer).symm.trans (congrArg WriterPhase.inFile phase)
          refine intact.change (by rw [phase]; rfl) noReader ?_
          rw [List.append_assoc, List.take_append_drop, whole]
        · cases taken
      · cases taken
  | closeStream writer =>
      simp only [CloudFile.step] at taken
      split at taken
      · rename_i cloud phase
        cases taken
        exact intact.closeStream phase
      · cases taken
  | lock reader =>
      simp only [CloudFile.step] at taken
      split at taken
      · rename_i phase free
        cases taken
        refine intact.read nofun (fun _ => rfl) (fun other apart held => ?_) nofun nofun
        exact nomatch held.symm.trans (intact.toReaderSide.alone (.inl free) apart)
      · cases taken
  | openFile reader =>
      simp only [CloudFile.step] at taken
      split at taken
      · rename_i content phase has
        cases taken
        have dir := intact.lockDirs (by rw [phase]; rfl)
        refine intact.read (fun _ => intact.noWriter_of_flock met) (fun _ => dir)
          (fun _ _ _ => rfl) (fun size data same => ?_) nofun
        cases same
        exact ⟨content, has, rfl, List.nil_prefix⟩
      · rename_i phase has
        cases taken
        have dir := intact.lockDirs (by rw [phase]; rfl)
        exact intact.read nofun (fun _ => dir) (fun _ _ _ => rfl) nofun nofun
      · cases taken
  | readSome reader count =>
      simp only [CloudFile.step] at taken
      split at taken
      · rename_i size data content phase has
        split at taken
        · rename_i guard
          cases taken
          have dir := intact.lockDirs (by rw [phase]; rfl)
          have noWriter : file.NoWriter := intact.apart.resolve_right fun none =>
            nomatch (none reader).symm.trans (congrArg ReaderPhase.inFile phase)
          obtain ⟨_, same, sized, front⟩ := intact.reads phase
          cases has.symm.trans same
          rcases readOn_content guard.1 front sized with whole | ⟨more, part, front⟩
          · rw [whole]
            refine intact.read nofun (fun _ => dir) (fun _ _ _ => rfl) nofun fun data same => ?_
            exact Option.some.inj same ▸ intact.settled has noWriter
          · rw [part]
            refine intact.read (fun _ => noWriter) (fun _ => dir) (fun _ _ _ => rfl)
              (fun _ _ same => ?_) nofun
            cases same
            exact ⟨content, has, sized, front⟩
        · cases taken
      · cases taken
  | release reader =>
      simp only [CloudFile.step] at taken
      split at taken
      · rename_i data phase
        cases taken
        refine intact.read nofun nofun (fun other apart held => ?_) nofun ?_
        · have own : (file.readers reader).locks = true := by rw [phase]; rfl
          exact nomatch held.symm.trans (intact.toReaderSide.alone (.inr own) apart)
        · intro other same
          exact intact.done ((congrArg ReaderPhase.taken phase).trans same)
      · cases taken
  | setData reader =>
      simp only [CloudFile.step] at taken
      split at taken
      · rename_i data phase
        cases taken
        exact intact.setData phase
      · cases taken

end Intact

/-- As long as no reader and no stream are in the file together, what a reader is handed is a
cloud that was written, whole. -/
theorem always_untorn [DecidableEq Writer] [DecidableEq Reader]
    {labels : List (CloudLabel Writer Reader)} (meets : LabelledRun.Meets step Apart start labels) :
    LabelledRun.Always step Untorn start labels :=
  (LabelledRun.always_of_meets (fun _ _ _ intact met taken => Intact.step intact met taken)
    Intact.start meets).mono fun _ intact => intact.untorn

/-- A reader that opens the file while bytes of a cloud are missing in it can be handed what
is there. -/
theorem handed_while_writing [DecidableEq Writer] [DecidableEq Reader] {cloud : List CloudPoint}
    {rest : List UInt8} (intact : file.Intact) (phase : file.writers writer = .writing cloud rest)
    (missing : rest ≠ []) (locked : file.readers reader = .locked) :
    ∃ final front, LabelledRun.Reachable step file final ∧ front ∈ final.handed ∧
      front ≠ serialize cloud := by
  obtain ⟨front, has, whole⟩ := intact.partly phase
  have size : 0 < max 1 front.length ∧ (front.length = 0 ∨ max 1 front.length ≤ front.length) := by
    omega
  let opened := file.setReader reader (.reading front.length [])
  let ended := opened.setReader reader (.read front)
  let released := { ended.setReader reader (.released front) with lockDir := none }
  have first : file.step (.openFile reader) = some opened := by
    simp only [step, locked, has]
    rfl
  have second : opened.step (.readSome reader (max 1 front.length)) = some ended := by
    have reading : opened.readers reader = .reading front.length [] := Function.update_self ..
    have content : opened.content = some front := has
    have all : readOn front.length [] (front.take (max 1 front.length)) = .read front := by
      rw [List.take_of_length_le (Nat.le_max_right _ _)]
      exact if_pos (.inr rfl)
    simp only [step, reading, content, List.length_nil, List.drop_zero, Nat.zero_add, size,
      and_self, ↓reduceIte, all]
    rfl
  have third : ended.step (.release reader) = some released := by
    have read : ended.readers reader = .read front := Function.update_self ..
    simp only [step, read]
    rfl
  let final := { released.setReader reader .idle with handed := file.handed ++ [front] }
  have last : released.step (.setData reader) = some final := by
    have taken : released.readers reader = .released front := Function.update_self ..
    simp only [step, taken]
    rfl
  refine ⟨final, front, ⟨[.openFile reader, .readSome reader (max 1 front.length),
    .release reader, .setData reader], ?_⟩, by simp [final], ?_⟩
  · simp only [LabelledRun.exec, first, second, third, last, Option.bind_some]
  · intro same
    rw [← whole, List.self_eq_append_right] at same
    exact missing same

/-- A cloud of one point, read behind its writing in two pieces. -/
def inTurn (cloud : List CloudPoint) : List (CloudLabel Unit Unit) :=
  [.serializePointCloud () cloud, .openStream (), .write () 28, .closeStream (), .unlock (),
    .lock (), .openFile (), .readSome () 20, .readSome () 8, .release (), .setData ()]

theorem always_untorn_inTurn :
    LabelledRun.Always step Untorn start (inTurn [⟨0, 0, 0, 255, 0, 0⟩]) :=
  always_untorn (by decide)

/-- The reader comes while the file is truncated. -/
theorem untorn_fails :
    ¬∀ (labels : List (CloudLabel Unit Unit)) final,
      LabelledRun.exec step start labels = some final → final.Untorn := by
  intro all
  let labels : List (CloudLabel Unit Unit) :=
    [.serializePointCloud () [⟨0, 0, 0, 255, 0, 0⟩], .openStream (), .lock (), .openFile (),
      .readSome () 1, .release (), .setData (), .write () 28, .closeStream ()]
  have empty : (LabelledRun.exec step start labels).map (fun file => (file.handed, file.written)) =
      some ([[]], [[⟨0, 0, 0, 255, 0, 0⟩]]) := by decide
  obtain ⟨final, run, logs⟩ := Option.map_eq_some_iff.mp empty
  have handed : final.handed = [[]] := congrArg Prod.fst logs
  have written : final.written = [[⟨0, 0, 0, 255, 0, 0⟩]] := congrArg Prod.snd logs
  obtain ⟨cloud, member, torn⟩ := all labels final run [] (by rw [handed]; simp)
  rw [written, List.mem_singleton] at member
  subst member
  cases torn

end CloudFile

end AutoDrop
