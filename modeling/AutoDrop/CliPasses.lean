import AutoDrop.CliFolds

/-!
The first phase of a saved text, which creates states and writes their codes, on a
configuration that may hold some of these states already.
-/

namespace AutoDrop

open FoldRules SplitText

/-- The states are the same but for changes of the first one of each name. -/
def SameBehind (seen : List Chars) : List StateNode → List StateNode → Prop
  | [], [] => True
  | first :: before, second :: after =>
      first.name = second.name ∧ (first.name ∈ seen → first = second) ∧
        SameBehind (first.name :: seen) before after
  | _, _ => False

namespace SameBehind

variable {seen : List Chars} {first second third : List StateNode}

theorem refl (seen : List Chars) (states : List StateNode) : SameBehind seen states states := by
  induction states generalizing seen with
  | nil => trivial
  | cons state rest ih => exact ⟨rfl, fun _ => rfl, ih _⟩

theorem trans (left : SameBehind seen first second) (right : SameBehind seen second third) :
    SameBehind seen first third := by
  induction first generalizing seen second third with
  | nil =>
      cases second with
      | nil => exact right
      | cons => exact left.elim
  | cons one before ih =>
      cases second with
      | nil => exact left.elim
      | cons two between =>
          cases third with
          | nil => exact right.elim
          | cons three after =>
              obtain ⟨name, same, rest⟩ := left
              obtain ⟨name', same', rest'⟩ := right
              refine ⟨name.trans name', fun known => ?_, ih rest (name ▸ rest')⟩
              rw [same known]
              exact same' (name ▸ known)

theorem editState {owner : Chars} {edit : StateNode → StateNode}
    (keeps : ∀ state, (edit state).name = state.name) (unseen : owner ∉ seen)
    (states : List StateNode) : SameBehind seen states (editState owner edit states) := by
  induction states generalizing seen with
  | nil => trivial
  | cons state rest ih =>
      rw [AutoDrop.editState]
      split
      · rename_i own
        exact ⟨(keeps state).symm, fun known => absurd (own ▸ known) unseen, refl _ _⟩
      · rename_i other
        refine ⟨rfl, fun _ => rfl, ih ?_⟩
        simp only [List.mem_cons, not_or]
        exact ⟨Ne.symm other, unseen⟩

theorem ext (same : SameBehind seen first second) (lookups : ∀ name, name ∉ seen →
    (first.find? fun state => state.name = name) = second.find? fun state => state.name = name) :
    first = second := by
  induction first generalizing seen second with
  | nil =>
      cases second with
      | nil => rfl
      | cons => exact same.elim
  | cons one before ih =>
      cases second with
      | nil => exact same.elim
      | cons two after =>
          obtain ⟨name, known, rest⟩ := same
          have heads : one = two := by
            by_cases old : one.name ∈ seen
            · exact known old
            · have found := lookups one.name old
              simpa [name] using found
          subst two
          refine congrArg _ (ih rest fun other unseen => ?_)
          simp only [List.mem_cons, not_or] at unseen
          have found := lookups other unseen.2
          simpa [List.find?_cons, Ne.symm unseen.1] using found

end SameBehind

namespace CliConfig

variable {config target : CliConfig} {env : CliEnv} {name : Chars} {calls : List Call} {one : Call}

theorem editState_self (owner : Chars) (states : List StateNode) :
    editState owner (fun state => state) states = states := by
  induction states with
  | nil => rfl
  | cons state rest ih =>
      rw [editState]
      split
      · rfl
      · rw [ih]

theorem Call.Edits.states (edits : one.Edits) (config : CliConfig) :
    ∃ owner edit, (∀ state : StateNode, (edit state).name = state.name) ∧
      (config.call one).states = editState owner edit config.states := by
  rcases (call_effect config one).edits edits with same | ⟨owner, edit, keeps, same⟩
  · rw [same]
    exact ⟨[], fun state => state, fun _ => rfl, (editState_self _ _).symm⟩
  · rw [same]
    exact ⟨owner, edit, keeps, rfl⟩

theorem calls_sameBehind (none : ∀ one ∈ calls, one.CreatesNone config.stateNames) :
    SameBehind [] config.states (calls.foldl call config).states := by
  induction calls generalizing config with
  | nil => exact SameBehind.refl _ _
  | cons first rest ih =>
      refine SameBehind.trans ?_ (ih (createsNone_tail none))
      rcases none first (by simp) with edits | ⟨command, known⟩
      · obtain ⟨owner, edit, keeps, same⟩ := edits.states config
        rw [same]
        exact SameBehind.editState keeps (by simp) _
      · obtain ⟨env, _, params⟩ := first
        obtain rfl := command
        rw [call_known known]
        exact SameBehind.refl _ _

def Call.Builds (one : Call) : Prop :=
  one.command = .createState ∨ one.command = .inputAction

theorem buildCalls_builds : ∀ one ∈ config.buildCalls env, one.Builds := by
  intro one member
  obtain ⟨line, printed, rfl⟩ := List.mem_map.mp member
  obtain ⟨state, _, printed⟩ := List.mem_flatMap.mp printed
  rcases mem_stateLines printed with same | same
  · exact .inl (by simp [BdrLine.call, same])
  · exact .inr (by simp [BdrLine.call, same])

theorem linkCalls_links : ∀ one ∈ config.linkCalls env,
    one.command = .setNext ∨ one.command = .addEvent := by
  intro one member
  obtain ⟨line, printed, rfl⟩ := List.mem_map.mp member
  obtain ⟨state, _, printed⟩ := List.mem_flatMap.mp printed
  rcases mem_transLines printed with same | same
  · exact .inl (by simp [BdrLine.call, same])
  · exact .inr (by simp [BdrLine.call, same])

theorem linkCalls_createNone (names : List Chars) :
    ∀ one ∈ config.linkCalls env, one.CreatesNone names :=
  fun one member => .inl (.inr (linkCalls_links one member))

theorem Call.Builds.getState (builds : one.Builds) (listed : name ∈ config.stateNames) :
    (config.call one).getState name = (config.getState name).map (one.onNode []) := by
  obtain ⟨state, found⟩ := Option.isSome_iff_exists.mp (getState_isSome.mpr listed)
  obtain ⟨env, command, params⟩ := one
  rcases builds with rfl | rfl
  · rw [getState_createState, found]
    split <;> rfl
  · rw [getState_inputAction]
    rfl

theorem Call.Builds.mem (builds : one.Builds) (listed : name ∈ config.stateNames) :
    name ∈ (config.call one).stateNames := by
  rw [← getState_isSome] at listed ⊢
  rw [builds.getState (getState_isSome.mp listed), Option.isSome_map]
  exact listed

theorem Call.Builds.initState (builds : one.Builds) (config : CliConfig) :
    (config.call one).initState = config.initState := by
  obtain ⟨env, command, params⟩ := one
  rcases builds with rfl | rfl
  · match params with
    | [] => rfl
    | created :: others =>
        simp only [call, StateCommand.handler, after_createState]
        split <;> rfl
  · exact (Call.Edits.frame (.inl rfl) config).2

theorem Call.Builds.absent (builds : one.Builds) (away : name ∉ config.stateNames)
    (other : one.command.nameFor one.params ≠ some name) :
    name ∉ (config.call one).stateNames := by
  obtain ⟨env, command, params⟩ := one
  rcases builds with rfl | rfl
  · rw [← getState_isSome, getState_createState]
    have differs : params.head? ≠ some name := by
      match params with
      | [] => simp
      | created :: others => simpa [StateCommand.nameFor] using other
    rw [if_neg differs, getState_isSome]
    exact away
  · rw [(Call.Edits.frame (.inl rfl) config).1]
    exact away

theorem Call.Builds.created (builds : one.Builds)
    (creates : one.command.nameFor one.params = some name) (away : name ∉ config.stateNames) :
    (config.call one).getState name = some (makeNewState name) := by
  obtain ⟨env, command, params⟩ := one
  rcases builds with rfl | rfl
  · match params with
    | [] => cases creates
    | created :: others =>
        obtain rfl := Option.some.inj creates
        rw [getState_createState, getState_eq_none away, List.head?_cons, if_pos rfl,
          Option.none_or]
  · cases creates

section Builds

variable (builds : ∀ one ∈ calls, one.Builds)

include builds

theorem builds_mem (listed : name ∈ config.stateNames) :
    name ∈ (calls.foldl call config).stateNames := by
  induction calls generalizing config with
  | nil => exact listed
  | cons first rest ih =>
      exact ih (fun one member => builds one (List.mem_cons_of_mem _ member))
        ((builds first (by simp)).mem listed)

theorem builds_getState (listed : name ∈ config.stateNames) :
    (calls.foldl call config).getState name = (config.getState name).map (onNodes [] calls) := by
  induction calls generalizing config with
  | nil => exact Option.map_id'.symm
  | cons first rest ih =>
      have here := builds first (by simp)
      rw [List.foldl_cons, ih (fun one member => builds one (List.mem_cons_of_mem _ member))
        (here.mem listed), here.getState listed, Option.map_map]
      rfl

theorem builds_initState : (calls.foldl call config).initState = config.initState := by
  induction calls generalizing config with
  | nil => rfl
  | cons first rest ih =>
      rw [List.foldl_cons, ih fun one member => builds one (List.mem_cons_of_mem _ member),
        (builds first (by simp)).initState]

theorem builds_absent (others : ∀ one ∈ calls, one.command.nameFor one.params ≠ some name)
    (away : name ∉ config.stateNames) : name ∉ (calls.foldl call config).stateNames := by
  induction calls generalizing config with
  | nil => exact away
  | cons first rest ih =>
      exact ih (fun one member => builds one (List.mem_cons_of_mem _ member))
        (fun one member => others one (List.mem_cons_of_mem _ member))
        ((builds first (by simp)).absent away (others first (by simp)))

theorem builds_created {before after : List Call} (split : calls = before ++ one :: after)
    (creates : one.command.nameFor one.params = some name)
    (first : ∀ other ∈ before, other.command.nameFor other.params ≠ some name)
    (away : name ∉ config.stateNames) :
    (calls.foldl call config).getState name = some (onNodes [] after (makeNewState name)) := by
  subst split
  have unborn : name ∉ (before.foldl call config).stateNames :=
    builds_absent (fun other member => builds other (List.mem_append_left _ member)) first away
  have born := (builds one (by simp)).created creates unborn
  rw [List.foldl_append, List.foldl_cons, builds_getState
    (fun other member => builds other (by simp [member])) (mem_stateNames born), born]
  rfl

theorem builds_known {created : Chars} (member : one ∈ calls)
    (creates : one.command.nameFor one.params = some created) :
    created ∈ (calls.foldl call config).stateNames := by
  by_cases old : created ∈ config.stateNames
  · exact builds_mem builds old
  · have some_ : (calls.find? fun one =>
        one.command.nameFor one.params = some created).isSome := by
      rw [List.find?_isSome]
      exact ⟨one, member, by simpa using creates⟩
    obtain ⟨found, first⟩ := Option.isSome_iff_exists.mp some_
    obtain ⟨own, before, after, split, earlier⟩ := List.find?_eq_some_iff_append.mp first
    exact mem_stateNames (builds_created builds split (by simpa using own)
      (fun other listed => by simpa using earlier other listed) old)

theorem builds_createNone :
    ∀ one ∈ calls, one.CreatesNone (calls.foldl call config).stateNames := by
  intro one member
  rcases builds one member with command | command
  · exact .inr ⟨command, fun created creates => builds_known builds member creates⟩
  · exact .inl (.inl command)

theorem builds_cases (name : Chars) : name ∈ config.stateNames ∨
    (∃ before one after, calls = before ++ one :: after ∧
      one.command.nameFor one.params = some name ∧
        ∀ other ∈ before, other.command.nameFor other.params ≠ some name) ∨
    name ∉ (calls.foldl call config).stateNames := by
  by_cases old : name ∈ config.stateNames
  · exact .inl old
  cases first : calls.find? fun one => one.command.nameFor one.params = some name with
  | some found =>
      obtain ⟨own, before, after, split, earlier⟩ := List.find?_eq_some_iff_append.mp first
      exact .inr (.inl ⟨before, found, after, split, by simpa using own,
        fun other listed => by simpa using earlier other listed⟩)
  | none =>
      rw [List.find?_eq_none] at first
      exact .inr (.inr (builds_absent builds (fun one member => by
        simpa using first one member) old))

end Builds

end CliConfig

end AutoDrop
