import AutoDrop.DataSync
import AutoDrop.ReplicaLink

/-!
What the server and one client hold for one key is a `ReplicaLink`. As the server sends a
client's own writes to the others only, two writes that cross on their way leave the two
sides apart until the next write of the key.
-/

namespace AutoDrop

open LabelledRun ReplicaLink

def DataSyncMessage.about {K V : Type*} [DecidableEq K] (key : K) :
    DataSyncMessage K V → Option V
  | .init data => data key
  | .update other value => if other = key then some value else none

namespace DataSync

variable {ι K V : Type*} [DecidableEq ι] [DecidableEq K]

def setAbout (key : K) (sent : K × V) : Option V := if sent.1 = key then some sent.2 else none

def link (sync : DataSync ι K V) (client : ι) (key : K) : Link V where
  server := sync.server.dataStore key
  client := (sync.client client).dataStore key
  up := (sync.up client).filterMap (setAbout key)
  down := (sync.down client).filterMap (DataSyncMessage.about key)

section Crosses

variable [DecidableEq V]

/-- Whether a step that writes the key on one side of a connection leaves the two sides apart
in the end: a different value is the last one on its way from the other side, a write is not
sent, or the client brings a key that the server does not have. -/
def crosses (sync : DataSync ι K V) (client : ι) (key : K) : DataSyncAction ι K V → Option Bool
  | .connection other =>
      if other = client then
        some ((sync.server.dataStore key).isNone && ((sync.client client).dataStore key).isSome)
      else none
  | .clientSet other written value =>
      if other = client ∧ written = key then
        if (sync.client client).readyState = .opened then
          some ((sync.link client key).down.getLast?.any (· ≠ value))
        else if sync.server.readyState client = .opened then
          some (sync.server.dataStore key).isNone
        else none
      else none
  | .serverSet written value =>
      if written = key then some ((sync.link client key).up.getLast?.any (· ≠ value)) else none
  | .toServer other =>
      match sync.up other with
      | (written, value) :: _ =>
          if other ≠ client ∧ written = key then
            some ((sync.link client key).up.getLast?.any (· ≠ value))
          else none
      | [] => none
  | _ => none

/-- Whether the last write of the key that concerned the client crossed. -/
def lastCrosses (openState : Option ReadyState) (client : ι) (key : K) :
    DataSync ι K V → List (DataSyncAction ι K V) → Bool → Bool
  | _, [], before => before
  | sync, action :: rest, before =>
      match sync.step openState action with
      | none => before
      | some next =>
          lastCrosses openState client key next rest
            ((sync.crosses client key action).getD before)

end Crosses

/-- The store is written and the chosen clients with an open connection are sent an update. -/
def spread (sync : DataSync ι K V) (key : K) (value : V) (chosen : List ι) : DataSync ι K V :=
  { sync.storeData key value with
    down := fun client =>
      if client ∈ chosen ∧ sync.server.readyState client = .opened then
        sync.down client ++ [.update key value]
      else sync.down client }

section Spread

variable {sync : DataSync ι K V} {key : K} {value : V} {clients : List ι}

omit [DecidableEq K] in
theorem foldl_send (nodup : clients.Nodup) (message : DataSyncMessage K V) :
    clients.foldl (fun sent client => sent.send client message) sync =
      { sync with down := fun client =>
          if client ∈ clients ∧ sync.server.readyState client = .opened then
            sync.down client ++ [message]
          else sync.down client } := by
  induction clients generalizing sync with
  | nil => simp
  | cons first rest ih =>
      obtain ⟨fresh, distinct⟩ := List.nodup_cons.mp nodup
      rw [List.foldl_cons, ih distinct]
      unfold send
      split
      · rename_i opened
        congr 1
        funext client
        by_cases same : client = first
        · subst client
          simp [fresh, opened]
        · simp [same]
      · rename_i shut
        congr 1
        funext client
        by_cases same : client = first
        · subst client
          simp [shut, fresh]
        · simp [same]

theorem setData_eq (nodup : sync.server.clients.Nodup) :
    sync.setData key value = sync.spread key value sync.server.clients := by
  rw [setData, foldl_send nodup]
  rfl

omit [DecidableEq K] in
theorem forward_eq {sourceWs : ι} :
    forward (some .opened) key value sourceWs clients sync =
      (clients.filter (· ≠ sourceWs)).foldl
        (fun sent client => sent.send client (.update key value)) sync := by
  induction clients generalizing sync with
  | nil => rfl
  | cons first rest ih =>
      by_cases source : first = sourceWs
      · simp [forward, source, ih]
      · rw [forward, if_neg source, ih, List.filter_cons_of_pos (by simpa using source),
          List.foldl_cons]
        congr 1
        unfold send
        split
        · rfl
        · rfl

theorem handleSet_eq (nodup : sync.server.clients.Nodup) {sourceWs : ι} :
    handleSet (some .opened) sync key value sourceWs =
      sync.spread key value (sync.server.clients.filter (· ≠ sourceWs)) := by
  rw [handleSet, forward_eq, foldl_send (nodup.filter _)]
  rfl

/-- Without the global of the runtime a set that arrives is stored and told to none. -/
theorem handleSet_none (sourceWs : ι) :
    handleSet none sync key value sourceWs = sync.storeData key value := by
  have silent (sent : DataSync ι K V) (clients : List ι) :
      forward none key value sourceWs clients sent = sent := by
    induction clients with
    | nil => rfl
    | cons first rest ih =>
        rw [forward]
        split
        · exact ih
        · rfl
  exact silent (sync.storeData key value) sync.server.clients

end Spread

section Links

variable {sync : DataSync ι K V} {client : ι} {key : K} {value : V} {chosen : List ι}

theorem set_same (store : DataStore K V) : set store key value key = some value := by simp [set]

theorem set_other (store : DataStore K V) {other : K} (differs : other ≠ key) :
    set store other value key = store key := by simp [set, differs.symm]

theorem onmessage_eq (store : DataStore K V) (message : DataSyncMessage K V) :
    onmessage store message key = (message.about key).or (store key) := by
  cases message with
  | init data => rfl
  | update other value =>
      by_cases same : other = key
      · simp [onmessage, DataSyncMessage.about, same, set_same]
      · simp [onmessage, DataSyncMessage.about, same, set_other]

theorem link_spread_other {other : K} (differs : other ≠ key) :
    (sync.spread other value chosen).link client key = sync.link client key := by
  simp only [link, spread, storeData, set_other _ differs, Link.mk.injEq, true_and]
  split
  · simp [DataSyncMessage.about, differs]
  · rfl

theorem link_spread (listed : client ∈ chosen) (opened : sync.server.readyState client = .opened) :
    (sync.spread key value chosen).link client key = (sync.link client key).writeServer value := by
  simp [link, spread, storeData, set_same, listed, opened, DataSyncMessage.about,
    Link.writeServer]

end Links

/-- What every run keeps of the connections. -/
structure Wired (sync : DataSync ι K V) : Prop where
  nodup : sync.server.clients.Nodup
  listed : ∀ client, sync.server.readyState client = .opened → client ∈ sync.server.clients
  absent : ∀ client, sync.server.readyState client = .connecting →
    client ∉ sync.server.clients ∧ sync.down client = []
  silent : ∀ client, (sync.client client).readyState = .connecting → sync.up client = []
  accepted : ∀ client, (sync.client client).readyState = .opened →
    sync.server.readyState client ≠ .connecting
  unanswered : ∀ client, sync.server.readyState client = .connecting → sync.up client = []
  greeted : ∀ client key,
    sync.server.readyState client = .opened → (sync.client client).readyState = .connecting →
      (sync.link client key).down.getLast? = (sync.link client key).server

omit [DecidableEq ι] in
theorem start_wired : (start : DataSync ι K V).Wired where
  nodup := List.nodup_nil
  listed := fun _ opened => by cases opened
  absent := fun _ _ => ⟨List.not_mem_nil, rfl⟩
  silent := fun _ _ => rfl
  accepted := fun _ opened => by cases opened
  unanswered := fun _ _ => rfl
  greeted := fun _ _ opened => by cases opened

section Steps

variable {sync next : DataSync ι K V} {openState : Option ReadyState}

/-- A message that reaches the server is stored and passed on to the others. -/
theorem toServer_cases (global : openState = some .opened) (wired : sync.Wired)
    {client : ι} (taken : sync.step openState (.toServer client) = some next) :
    ∃ key value rest, sync.up client = (key, value) :: rest ∧
      sync.server.readyState client = .opened ∧
      next = ({ sync with up := Function.update sync.up client rest }).spread key value
        (sync.server.clients.filter (· ≠ client)) := by
  subst global
  simp only [step] at taken
  split at taken
  · cases taken
  · rename_i key value rest sent
    split at taken
    · rename_i ready
      obtain rfl := Option.some.inj taken
      have nodup : ({ sync with
        up := Function.update sync.up client rest } : DataSync ι K V).server.clients.Nodup :=
          wired.nodup
      exact ⟨key, value, rest, sent, ready, handleSet_eq nodup⟩
    · cases taken

theorem toClient_cases {client : ι} (taken : sync.step openState (.toClient client) = some next) :
    ∃ message rest, sync.down client = message :: rest ∧
      (sync.client client).readyState ≠ .connecting ∧
      next = { sync with
        down := Function.update sync.down client rest
        client := if (sync.client client).readyState = .opened then
            Function.update sync.client client { sync.client client with
              dataStore := onmessage (sync.client client).dataStore message }
          else sync.client } := by
  simp only [step] at taken
  split at taken
  · cases taken
  · rename_i message rest sent
    refine ⟨message, rest, sent, ?_⟩
    split at taken
    · cases taken
    · rename_i opened
      obtain rfl := Option.some.inj taken
      simp [opened, withClient]
    · rename_i shut
      obtain rfl := Option.some.inj taken
      simp [shut]
    · rename_i shut
      obtain rfl := Option.some.inj taken
      simp [shut]

omit [DecidableEq K] in
theorem accept_eq (sync : DataSync ι K V) (client : ι) : sync.accept client = { sync with
    server := { sync.server with
      clients := sync.server.clients ++ [client]
      readyState := Function.update sync.server.readyState client .opened }
    down := Function.update sync.down client
      (sync.down client ++ [.init sync.server.dataStore]) } := by
  simp [accept, send]

theorem Wired.accept (wired : sync.Wired) {client : ι}
    (fresh : sync.server.readyState client = .connecting) : (sync.accept client).Wired := by
  have absent := wired.absent client fresh
  rw [accept_eq]
  refine ⟨?_, fun other opened => ?_, fun other fresh' => ?_, wired.silent, fun other opened => ?_,
    fun other fresh' => ?_, fun other key opened connecting => ?_⟩
  · refine List.nodup_append.mpr ⟨wired.nodup, by simp, ?_⟩
    rintro one listed _ (_ | ⟨_, ⟨⟩⟩) rfl
    exact absent.1 listed
  all_goals rcases eq_or_ne other client with rfl | differs
  · simp
  · exact List.mem_append_left _ (wired.listed other (by simpa [differs] using opened))
  · simp at fresh'
  · simpa [differs] using wired.absent other (by simpa [differs] using fresh')
  · simp
  · simpa [differs] using wired.accepted other opened
  · simp at fresh'
  · exact wired.unanswered other (by simpa [differs] using fresh')
  · cases held : sync.server.dataStore key <;>
      simp [link, absent.2, DataSyncMessage.about, held]
  · simpa [link, differs] using
      wired.greeted other key (by simpa [differs] using opened) connecting

theorem Wired.spread (wired : sync.Wired) {key : K} {value : V} {chosen : List ι}
    (all : ∀ client ∈ sync.server.clients,
      (sync.client client).readyState = .connecting → client ∈ chosen) :
    (sync.spread key value chosen).Wired := by
  refine ⟨wired.nodup, wired.listed, fun client fresh => ?_, wired.silent, wired.accepted,
    wired.unanswered, fun client other opened connecting => ?_⟩
  · have absent := wired.absent client fresh
    have shut : sync.server.readyState client ≠ .opened := by
      rw [show sync.server.readyState client = .connecting from fresh]
      decide
    refine ⟨absent.1, ?_⟩
    simpa [DataSync.spread, shut] using absent.2
  · have before := wired.greeted client other opened connecting
    rcases eq_or_ne key other with rfl | differs
    · have ready : sync.server.readyState client = .opened := opened
      rw [link_spread (all client (wired.listed client opened) connecting) ready]
      simp [Link.writeServer]
    · rw [link_spread_other differs]
      exact before

omit [DecidableEq ι] in
theorem Wired.parties (wired : sync.Wired) {client : ι → DataSyncClient K V}
    {up : ι → List (K × V)} {down : ι → List (DataSyncMessage K V)}
    (states : ∀ one, (client one).readyState = (sync.client one).readyState ∨
      (client one).readyState = .closed)
    (waiting : ∀ one, (client one).readyState = .connecting →
      up one = sync.up one ∧ down one = sync.down one)
    (unanswered : ∀ one, sync.server.readyState one = .connecting → up one = [])
    (empty : ∀ one, sync.down one = [] → down one = []) :
    ({ sync with client := client, up := up, down := down } : DataSync ι K V).Wired := by
  have before {one : ι} {state : ReadyState} (now : (client one).readyState = state)
      (live : state ≠ .closed) : (sync.client one).readyState = state := by
    rcases states one with same | closed
    · exact same.symm.trans now
    · exact absurd (now.symm.trans closed) live
  refine ⟨wired.nodup, wired.listed, fun one fresh => ?_, fun one connecting => ?_,
    fun one opened => wired.accepted one (before opened (by decide)), unanswered,
    fun one key opened connecting => ?_⟩
  · exact ⟨(wired.absent one fresh).1, empty one (wired.absent one fresh).2⟩
  · exact (waiting one connecting).1.trans (wired.silent one (before connecting (by decide)))
  · have greeted := wired.greeted one key opened (before connecting (by decide))
    simpa [link, (waiting one connecting).2] using greeted

theorem clientSetData_eq (sync : DataSync ι K V) (client : ι) (key : K) (value : V) :
    sync.clientSetData client key value = { sync with
      client := Function.update sync.client client { sync.client client with
        dataStore := set (sync.client client).dataStore key value }
      up := if (sync.client client).readyState = .opened then
          Function.update sync.up client (sync.up client ++ [(key, value)])
        else sync.up } := by
  simp only [clientSetData]
  split <;> rfl

theorem server_clientSetData (sync : DataSync ι K V) (client : ι) (key : K) (value : V) :
    (sync.clientSetData client key value).server = sync.server := by
  rw [clientSetData_eq]

theorem readyState_clientSetData (sync : DataSync ι K V) (client : ι) (key : K) (value : V)
    (other : ι) : ((sync.clientSetData client key value).client other).readyState =
      (sync.client other).readyState := by
  rw [clientSetData_eq]
  rcases eq_or_ne other client with rfl | differs
  · simp
  · simp [differs]

theorem link_clientSetData {client : ι} {key : K} {value : V}
    (opened : (sync.client client).readyState = .opened) :
    (sync.clientSetData client key value).link client key =
      (sync.link client key).writeClient value := by
  simp [clientSetData_eq, link, opened, set_same, setAbout, Link.writeClient]

theorem link_clientSetData_unsent {client : ι} {key : K} {value : V}
    (shut : (sync.client client).readyState ≠ .opened) :
    (sync.clientSetData client key value).link client key =
      { sync.link client key with client := some value } := by
  simp [clientSetData_eq, link, shut, set_same]

theorem link_clientSetData_other {client other : ι} {key written : K} {value : V}
    (differs : ¬(other = client ∧ written = key)) :
    (sync.clientSetData other written value).link client key = sync.link client key := by
  rw [clientSetData_eq]
  rcases eq_or_ne other client with rfl | elsewhere
  · have differs : written ≠ key := fun same => differs ⟨rfl, same⟩
    simp only [link, Function.update_self, set_other _ differs, Link.mk.injEq, true_and, and_true]
    split <;> simp [setAbout, differs]
  · simp only [link, Function.update_of_ne elsewhere.symm, Link.mk.injEq, true_and, and_true]
    split <;> simp [elsewhere.symm]

theorem Wired.clientSetData (wired : sync.Wired) (client : ι) (key : K) (value : V) :
    (sync.clientSetData client key value).Wired := by
  rw [clientSetData_eq]
  refine wired.parties (fun one => .inl ?_) (fun one connecting => ⟨?_, rfl⟩)
    (fun one fresh => ?_) (fun _ => id)
  all_goals rcases eq_or_ne one client with rfl | differs
  · simp
  · simp [differs]
  · rw [if_neg]
    intro opened
    simp [opened] at connecting
  · split <;> simp [differs]
  · rw [if_neg fun opened => wired.accepted one opened fresh]
    exact wired.unanswered one fresh
  · have empty := wired.unanswered one fresh
    split
    · simpa [differs] using empty
    · exact empty

theorem Wired.shut (wired : sync.Wired) {client : ι} {state : ReadyState}
    {clients : List ι} (nodup : clients.Nodup)
    (kept : ∀ one, one ≠ client → (one ∈ clients ↔ one ∈ sync.server.clients))
    (known : sync.server.readyState client ≠ .connecting)
    (down : state ≠ .opened ∧ state ≠ .connecting) :
    ({ sync with server := { sync.server with
      clients := clients
      readyState := Function.update sync.server.readyState client state } } :
        DataSync ι K V).Wired := by
  refine ⟨nodup, fun one opened => ?_, fun one fresh => ?_, wired.silent, fun one opened => ?_,
    fun one fresh => ?_, fun one key opened connecting => ?_⟩
  all_goals rcases eq_or_ne one client with rfl | differs
  · exact absurd (by simpa using opened) down.1
  · exact (kept one differs).mpr (wired.listed one (by simpa [differs] using opened))
  · exact absurd (by simpa using fresh) down.2
  · have absent := wired.absent one (by simpa [differs] using fresh)
    exact ⟨fun listed => absent.1 ((kept one differs).mp listed), absent.2⟩
  · simpa using down.2
  · simpa [differs] using wired.accepted one opened
  · exact absurd (by simpa using fresh) down.2
  · exact wired.unanswered one (by simpa [differs] using fresh)
  · exact absurd (by simpa using opened) down.1
  · exact wired.greeted one key (by simpa [differs] using opened) connecting

/-- A client whose message arrives has an open connection on both sides, or had one. -/
theorem Wired.received (wired : sync.Wired) {client : ι} {first : K × V} {rest : List (K × V)}
    (sent : sync.up client = first :: rest) :
    ({ sync with up := Function.update sync.up client rest } : DataSync ι K V).Wired := by
  refine wired.parties (fun _ => .inl rfl) (fun one connecting => ⟨?_, rfl⟩)
    (fun one fresh => ?_) (fun _ => id)
  · have silent := wired.silent one connecting
    have differs : one ≠ client := by
      rintro rfl
      rw [sent] at silent
      cases silent
    simp [differs]
  · have unanswered := wired.unanswered one fresh
    have differs : one ≠ client := by
      rintro rfl
      rw [sent] at unanswered
      cases unanswered
    simpa [differs] using unanswered

theorem wired_step (global : openState = some .opened) (wired : sync.Wired)
    {action : DataSyncAction ι K V} (taken : sync.step openState action = some next) :
    next.Wired := by
  cases action with
  | connection client =>
      simp only [step] at taken
      split at taken
      · rename_i ready
        obtain rfl := Option.some.inj taken
        exact wired.accept ready
      · cases taken
  | opened client =>
      simp only [step] at taken
      split at taken
      · rename_i ready
        obtain rfl := Option.some.inj taken
        refine ⟨wired.nodup, wired.listed, wired.absent, fun other connecting => ?_,
          fun other opened => ?_, wired.unanswered, fun other key opened connecting => ?_⟩
        all_goals rcases eq_or_ne other client with rfl | differs
        · exact wired.silent other ready.1
        · exact wired.silent other (by simpa [withClient, differs] using connecting)
        · exact ready.2
        · exact wired.accepted other (by simpa [withClient, differs] using opened)
        · simp [withClient] at connecting
        · simpa [link, withClient, differs] using wired.greeted other key opened
            (by simpa [withClient, differs] using connecting)
      · cases taken
  | clientSet client key value =>
      obtain rfl := Option.some.inj taken
      exact wired.clientSetData client key value
  | serverSet key value =>
      obtain rfl := Option.some.inj taken
      rw [setData_eq wired.nodup]
      exact wired.spread fun client listed _ => listed
  | toServer client =>
      obtain ⟨key, value, rest, sent, _, rfl⟩ := toServer_cases global wired taken
      have sender : (sync.client client).readyState ≠ .connecting := fun connecting => by
        rw [wired.silent client connecting] at sent
        cases sent
      refine (wired.received sent).spread fun one listed connecting => ?_
      have differs : one ≠ client := fun same => sender (same ▸ connecting)
      simpa [differs] using listed
  | toClient client =>
      obtain ⟨message, rest, sent, live, rfl⟩ := toClient_cases taken
      refine wired.parties (fun one => .inl ?_) (fun one connecting => ⟨rfl, ?_⟩)
        wired.unanswered (fun one empty => ?_)
      all_goals rcases eq_or_ne one client with rfl | differs
      · split <;> simp
      · split <;> simp [differs]
      · refine absurd ?_ live
        split at connecting
        · simpa using connecting
        · exact connecting
      · simp [differs]
      · rw [sent] at empty
        cases empty
      · simpa [differs] using empty
  | lost client arriving =>
      obtain rfl := Option.some.inj taken
      refine wired.parties (fun one => ?_) (fun one connecting => ?_) (fun one fresh => ?_)
        (fun one empty => ?_)
      all_goals rcases eq_or_ne one client with rfl | differs
      · simp [withClient]
      · simp [withClient, differs]
      · simp [withClient] at connecting
      · simp [differs]
      · simp [wired.unanswered one fresh]
      · simpa [differs] using wired.unanswered one fresh
      · simp
      · simpa [differs] using empty
  | closing client =>
      simp only [step] at taken
      split at taken
      · rename_i ready
        obtain rfl := Option.some.inj taken
        exact wired.shut wired.nodup (fun _ _ => .rfl) (by simp [ready.1]) (by decide)
      · cases taken
  | removed client =>
      simp only [step] at taken
      split at taken
      · rename_i ready
        obtain rfl := Option.some.inj taken
        exact wired.shut (wired.nodup.erase client)
          (fun one differs => List.mem_erase_of_ne differs) (by simp [ready]) (by decide)
      · cases taken

/-- While the connection is there, the two sides will be together unless the last write
crossed. -/
def Tracked (sync : DataSync ι K V) (client : ι) (key : K) (apart : Bool) : Prop :=
  sync.server.readyState client = .opened →
    (sync.client client).readyState = .connecting ∨ (sync.client client).readyState = .opened →
      ((sync.link client key).Together ↔ apart = false)

variable {client : ι} {key : K} {value : V} {apart : Bool}

omit [DecidableEq ι] in
theorem Tracked.frame (tracked : sync.Tracked client key apart)
    (opened : next.server.readyState client = .opened → sync.server.readyState client = .opened)
    (state : (next.client client).readyState = .connecting ∨
      (next.client client).readyState = .opened →
        (sync.client client).readyState = .connecting ∨ (sync.client client).readyState = .opened)
    (same : (next.link client key).Together ↔ (sync.link client key).Together) :
    next.Tracked client key apart :=
  fun ready live => same.trans (tracked (opened ready) (state live))

theorem Tracked.shut (tracked : sync.Tracked client key apart) {other : ι} {state : ReadyState}
    {clients : List ι} (down : state ≠ .opened) :
    ({ sync with server := { sync.server with
      clients := clients
      readyState := Function.update sync.server.readyState other state } } :
        DataSync ι K V).Tracked client key apart := by
  rcases eq_or_ne other client with rfl | differs
  · intro opened
    exact absurd (by simpa using opened) down
  · exact tracked.frame (by simp [differs.symm]) id .rfl

variable [DecidableEq V]

theorem Tracked.accept (wired : sync.Wired) (tracked : sync.Tracked client key apart) {other : ι}
    (fresh : sync.server.readyState other = .connecting) :
    (sync.accept other).Tracked client key
      ((sync.crosses client key (.connection other)).getD apart) := by
  rw [accept_eq]
  rcases eq_or_ne other client with rfl | differs
  · intro _ _
    have up := wired.unanswered other fresh
    have down := (wired.absent other fresh).2
    refine (Link.together_connect ?_ ?_).trans ?_
    · simp [link, up]
    · cases held : sync.server.dataStore key <;>
        simp [link, down, DataSyncMessage.about, held]
    · cases sync.server.dataStore key <;> simp [link, crosses]
  · have none : sync.crosses client key (.connection other) = none := by
      simp [crosses, differs]
    rw [none]
    exact tracked.frame (by simp [differs.symm]) id (by simp [link, differs.symm])

theorem Tracked.clientSetData (wired : sync.Wired) (tracked : sync.Tracked client key apart)
    (other : ι) (written : K) (value : V) :
    (sync.clientSetData other written value).Tracked client key
      ((sync.crosses client key (.clientSet other written value)).getD apart) := by
  have states := readyState_clientSetData sync other written value
  by_cases own : other = client ∧ written = key
  · obtain ⟨rfl, rfl⟩ := own
    intro ready live
    rw [server_clientSetData] at ready
    rw [states] at live
    by_cases opened : (sync.client other).readyState = .opened
    · have sent : sync.crosses other written (.clientSet other written value) =
          some ((sync.link other written).down.getLast?.any (· ≠ value)) := by
        simp [crosses, opened]
      rw [sent, Option.getD_some, link_clientSetData opened]
      refine Link.together_writeClient.trans ?_
      cases (sync.link other written).down.getLast? <;> simp
    · have unsent : sync.crosses other written (.clientSet other written value) =
          some (sync.server.dataStore written).isNone := by
        simp [crosses, opened, ready]
      have connecting := live.resolve_right opened
      have up : (sync.link other written).up = [] := by
        simp [link, wired.silent other connecting]
      rw [unsent, Option.getD_some, link_clientSetData_unsent opened]
      refine (Link.together_unsent up (wired.greeted other written ready connecting)).trans
        ?_
      cases held : sync.server.dataStore written <;> simp [link, held]
  · have none : sync.crosses client key (.clientSet other written value) = none := by
      simp [crosses, own]
    rw [none]
    exact tracked.frame (by rw [server_clientSetData]; exact id) (by rw [states]; exact id)
      (by rw [link_clientSetData_other own])

theorem Tracked.spread (wired : sync.Wired) (tracked : sync.Tracked client key apart)
    {written : K} {chosen : List ι}
    (listed : client ∈ sync.server.clients → client ∈ chosen) :
    (sync.spread written value chosen).Tracked client key
      ((if written = key then some ((sync.link client key).up.getLast?.any (· ≠ value))
        else none).getD apart) := by
  by_cases own : written = key
  · subst written
    intro opened live
    have ready : sync.server.readyState client = .opened := opened
    rw [if_pos rfl, Option.getD_some, link_spread (listed (wired.listed client ready)) ready]
    refine Link.together_writeServer.trans ?_
    cases (sync.link client key).up.getLast? <;> simp
  · rw [if_neg own]
    exact tracked.frame id id (by rw [link_spread_other own])

theorem Tracked.toServer (global : openState = some .opened) (wired : sync.Wired)
    (tracked : sync.Tracked client key apart) {other : ι}
    (taken : sync.step openState (.toServer other) = some next) :
    next.Tracked client key ((sync.crosses client key (.toServer other)).getD apart) := by
  obtain ⟨written, value, rest, sent, _, rfl⟩ := toServer_cases global wired taken
  rcases eq_or_ne other client with rfl | differs
  · have none : sync.crosses other key (.toServer other) = none := by simp [crosses, sent]
    rw [none]
    refine tracked.frame id id ?_
    by_cases own : written = key
    · subst written
      have first : (sync.link other key).up = value :: rest.filterMap (setAbout key) := by
        simp [link, sent, setAbout]
      refine Iff.trans ?_ (Link.together_arriveServer first)
      simp [link, DataSync.spread, storeData, set_same]
    · rw [link_spread_other own]
      simp [link, sent, setAbout, own]
  · have crosses : sync.crosses client key (.toServer other) =
        if written = key then some ((sync.link client key).up.getLast?.any (· ≠ value))
        else none := by
      simp [DataSync.crosses, sent, differs]
    have same : ({ sync with up := Function.update sync.up other rest } : DataSync ι K V).link
        client key = sync.link client key := by
      simp [link, differs.symm]
    have received : ({ sync with
        up := Function.update sync.up other rest } : DataSync ι K V).Tracked client key apart :=
      tracked.frame id id (by rw [same])
    rw [crosses, ← same]
    exact received.spread (wired.received sent) fun listed => by simpa [differs.symm] using listed

omit [DecidableEq V] in
theorem Tracked.toClient (tracked : sync.Tracked client key apart) {other : ι}
    (taken : sync.step openState (.toClient other) = some next) :
    next.Tracked client key apart := by
  obtain ⟨message, rest, sent, live, rfl⟩ := toClient_cases taken
  rcases eq_or_ne other client with rfl | differs
  · by_cases opened : (sync.client other).readyState = .opened
    · refine tracked.frame id (by simp [opened]) ?_
      cases brought : message.about key with
      | none => simp [link, opened, sent, brought, onmessage_eq]
      | some value =>
          have first : (sync.link other key).down =
              value :: rest.filterMap (DataSyncMessage.about key) := by
            simp [link, sent, brought]
          refine Iff.trans ?_ (Link.together_arriveClient first)
          simp [link, opened, brought, onmessage_eq]
    · intro _ state
      simp only [opened, if_false] at state
      exact absurd (state.resolve_right id) live
  · refine tracked.frame id ?_ ?_
    · split <;> simp [differs.symm]
    · simp only [link, Function.update_of_ne differs.symm]
      split <;> simp [differs.symm]

theorem tracked_step (global : openState = some .opened) (wired : sync.Wired)
    (tracked : sync.Tracked client key apart) {action : DataSyncAction ι K V}
    (taken : sync.step openState action = some next) :
    next.Tracked client key ((sync.crosses client key action).getD apart) := by
  cases action with
  | connection other =>
      simp only [step] at taken
      split at taken
      · rename_i ready
        obtain rfl := Option.some.inj taken
        exact tracked.accept wired ready
      · cases taken
  | opened other =>
      simp only [step] at taken
      split at taken
      · rename_i ready
        obtain rfl := Option.some.inj taken
        rcases eq_or_ne other client with rfl | differs
        · exact tracked.frame id (by simp [ready.1]) (by simp [link, withClient])
        · exact tracked.frame id (by simp [withClient, differs.symm])
            (by simp [link, withClient, differs.symm])
      · cases taken
  | clientSet other written value =>
      obtain rfl := Option.some.inj taken
      exact tracked.clientSetData wired other written value
  | serverSet written value =>
      obtain rfl := Option.some.inj taken
      rw [setData_eq wired.nodup]
      exact tracked.spread wired id
  | toServer other => exact tracked.toServer global wired taken
  | toClient other => exact tracked.toClient taken
  | lost other arriving =>
      obtain rfl := Option.some.inj taken
      rcases eq_or_ne other client with rfl | differs
      · intro _ state
        simp [withClient] at state
      · exact tracked.frame id (by simp [withClient, differs.symm])
          (by simp [link, withClient, differs.symm])
  | closing other =>
      simp only [step] at taken
      split at taken
      · obtain rfl := Option.some.inj taken
        exact tracked.shut (by decide)
      · cases taken
  | removed other =>
      simp only [step] at taken
      split at taken
      · obtain rfl := Option.some.inj taken
        exact tracked.shut (by decide)
      · cases taken

theorem tracked_exec (global : openState = some .opened) (wired : sync.Wired)
    (tracked : sync.Tracked client key apart) {actions : List (DataSyncAction ι K V)}
    (run : exec (step openState) sync actions = some next) :
    next.Tracked client key (lastCrosses openState client key sync actions apart) := by
  induction actions generalizing sync apart with
  | nil =>
      obtain rfl := Option.some.inj run
      exact tracked
  | cons action rest ih =>
      obtain ⟨middle, taken, remaining⟩ := exec_cons_eq_some.mp run
      rw [lastCrosses, taken]
      exact ih (wired_step global wired taken) (tracked_step global wired tracked taken) remaining

/-- Where no message is in flight, a connected client holds what the server holds for a key,
exactly if the last write of the key that concerned the client did not cross. -/
theorem agrees_iff (global : openState = some .opened)
    {actions : List (DataSyncAction ι K V)}
    (run : exec (step openState) start actions = some sync) (quiet : sync.Quiet)
    (connected : sync.Connected client) (key : K) :
    (sync.client client).dataStore key = sync.server.dataStore key ↔
      lastCrosses openState client key start actions false = false := by
  have begins : (start : DataSync ι K V).Tracked client key false := fun opened => by cases opened
  have tracked := tracked_exec global start_wired begins run
  have up : (sync.link client key).up = [] := by simp [link, (quiet client).1]
  have down : (sync.link client key).down = [] := by simp [link, (quiet client).2]
  exact (Link.together_of_quiet up down).symm.trans
    (tracked connected.1 (.inr connected.2))

end Steps

def inTurn : List (DataSyncAction Unit String Int) :=
  [.connection (), .opened (), .toClient (), .clientSet () "zero" 5, .toServer (),
    .serverSet "zero" 7, .toClient ()]

theorem agrees_iff_inTurn : ∃ sync : DataSync Unit String Int,
    exec (step (some .opened)) start inTurn = some sync ∧
      (sync.client ()).dataStore "zero" = sync.server.dataStore "zero" := by
  obtain ⟨sync, run⟩ := Option.isSome_iff_exists.mp
    (show (exec (step (some .opened)) (start : DataSync Unit String Int) inTurn).isSome by rfl)
  refine ⟨sync, run, (agrees_iff rfl run ?_ ?_ "zero").mpr ?_⟩
  · obtain rfl := Option.some.inj run
    exact fun _ => ⟨rfl, rfl⟩
  · obtain rfl := Option.some.inj run
    exact ⟨rfl, rfl⟩
  · rfl

/-- A client's write and a write of the server meet on their way. -/
def crossing : List (DataSyncAction Unit String Int) :=
  [.connection (), .opened (), .toClient (), .clientSet () "zero" 5, .serverSet "zero" 7,
    .toServer (), .toClient ()]

theorem crossing_apart : ∃ sync : DataSync Unit String Int,
    exec (step (some .opened)) start crossing = some sync ∧ sync.Quiet ∧ sync.Connected () ∧
      (sync.client ()).dataStore "zero" = some 7 ∧ sync.server.dataStore "zero" = some 5 := by
  obtain ⟨sync, run⟩ := Option.isSome_iff_exists.mp
    (show (exec (step (some .opened)) (start : DataSync Unit String Int) crossing).isSome by rfl)
  refine ⟨sync, run, ?_⟩
  obtain rfl := Option.some.inj run
  exact ⟨fun _ => ⟨rfl, rfl⟩, ⟨rfl, rfl⟩, rfl, rfl⟩

end DataSync

end AutoDrop
