import AutoDrop.CliSplit
import AutoDrop.LabelledRun

/-!
`WriteNodeAsMultiLine` sends a tree of the configuration to the emitter as a stream of
events. A reader that goes through the events with a stack of open nodes takes the stream back
to a tree.
-/

namespace AutoDrop

open LabelledRun

inductive YamlNode
  | null
  | scalar (value : Chars)
  | sequence (items : List YamlNode)
  | map (entries : List (Chars × YamlNode))

inductive YamlEvent
  | beginSeq
  | endSeq
  | beginMap
  | endMap
  | key
  | value
  | scalar (literal : Bool) (value : Chars)

namespace YamlNode

mutual

def writeNodeAsMultiLine : YamlNode → List YamlEvent
  | .null => []
  | .scalar value => [.scalar (value.contains '\n') value]
  | .sequence items => .beginSeq :: (writeItems items ++ [.endSeq])
  | .map entries => .beginMap :: (writeEntries entries ++ [.endMap])

def writeItems : List YamlNode → List YamlEvent
  | [] => []
  | node :: rest => writeNodeAsMultiLine node ++ writeItems rest

def writeEntries : List (Chars × YamlNode) → List YamlEvent
  | [] => []
  | (key, node) :: rest =>
      .key :: .scalar false key :: .value :: (writeNodeAsMultiLine node ++ writeEntries rest)

end

mutual

def NullFree : YamlNode → Prop
  | .null => False
  | .scalar _ => True
  | .sequence items => NullFreeItems items
  | .map entries => NullFreeEntries entries

def NullFreeItems : List YamlNode → Prop
  | [] => True
  | node :: rest => NullFree node ∧ NullFreeItems rest

def NullFreeEntries : List (Chars × YamlNode) → Prop
  | [] => True
  | (_, node) :: rest => NullFree node ∧ NullFreeEntries rest

end

end YamlNode

section Grammar

mutual

/-- The events of one node; in a map every key is followed by exactly one node. -/
inductive IsNode : List YamlEvent → Prop
  | scalar (literal : Bool) (value : Chars) : IsNode [.scalar literal value]
  | sequence {events : List YamlEvent} : IsItems events → IsNode (.beginSeq :: (events ++ [.endSeq]))
  | map {events : List YamlEvent} : IsEntries events → IsNode (.beginMap :: (events ++ [.endMap]))

inductive IsItems : List YamlEvent → Prop
  | nil : IsItems []
  | cons {node rest : List YamlEvent} : IsNode node → IsItems rest → IsItems (node ++ rest)

inductive IsEntries : List YamlEvent → Prop
  | nil : IsEntries []
  | cons (literal : Bool) (key : Chars) {node rest : List YamlEvent} : IsNode node →
      IsEntries rest →
        IsEntries (.key :: .scalar literal key :: .value :: (node ++ rest))

end

/-- An empty stream is an empty document. -/
def WellFormedStream (events : List YamlEvent) : Prop := events = [] ∨ IsNode events

end Grammar

section Reader

inductive OpenNode
  | items (done : List YamlNode)
  | entries (done : List (Chars × YamlNode))
  | afterKey (done : List (Chars × YamlNode))
  | keyed (done : List (Chars × YamlNode)) (key : Chars)
  | afterValue (done : List (Chars × YamlNode)) (key : Chars)

structure YamlReader where
  stack : List OpenNode
  root : Option YamlNode

namespace YamlReader

def place (node : YamlNode) : YamlReader → Option YamlReader
  | ⟨[], none⟩ => some ⟨[], some node⟩
  | ⟨.items done :: rest, root⟩ => some ⟨.items (done ++ [node]) :: rest, root⟩
  | ⟨.afterValue done key :: rest, root⟩ => some ⟨.entries (done ++ [(key, node)]) :: rest, root⟩
  | _ => none

def feed (reader : YamlReader) : YamlEvent → Option YamlReader
  | .beginSeq => some { reader with stack := .items [] :: reader.stack }
  | .beginMap => some { reader with stack := .entries [] :: reader.stack }
  | .endSeq =>
      match reader.stack with
      | .items done :: rest => place (.sequence done) { reader with stack := rest }
      | _ => none
  | .endMap =>
      match reader.stack with
      | .entries done :: rest => place (.map done) { reader with stack := rest }
      | _ => none
  | .key =>
      match reader.stack with
      | .entries done :: rest => some { reader with stack := .afterKey done :: rest }
      | _ => none
  | .value =>
      match reader.stack with
      | .keyed done key :: rest => some { reader with stack := .afterValue done key :: rest }
      | _ => none
  | .scalar _ value =>
      match reader.stack with
      | .afterKey done :: rest => some { reader with stack := .keyed done value :: rest }
      | _ => place (.scalar value) reader

/-- An empty document is read as null. -/
def read (events : List YamlEvent) : Option YamlNode :=
  match exec feed ⟨[], none⟩ events with
  | some ⟨[], root⟩ => some (root.getD .null)
  | _ => none

end YamlReader

end Reader

/-- The stream of a tree is well formed and gives the tree back. -/
def Faithful (node : YamlNode) : Prop :=
  WellFormedStream node.writeNodeAsMultiLine ∧
    YamlReader.read node.writeNodeAsMultiLine = some node

namespace YamlNode

mutual

theorem isNode_of_nullFree : ∀ node : YamlNode, NullFree node → IsNode node.writeNodeAsMultiLine
  | .null, nullFree => nullFree.elim
  | .scalar value, _ => .scalar _ value
  | .sequence items, nullFree => .sequence (isItems_of_nullFree items nullFree)
  | .map entries, nullFree => .map (isEntries_of_nullFree entries nullFree)

theorem isItems_of_nullFree : ∀ items : List YamlNode, NullFreeItems items →
    IsItems (writeItems items)
  | [], _ => .nil
  | node :: rest, nullFree =>
      .cons (isNode_of_nullFree node nullFree.1) (isItems_of_nullFree rest nullFree.2)

theorem isEntries_of_nullFree : ∀ entries : List (Chars × YamlNode), NullFreeEntries entries →
    IsEntries (writeEntries entries)
  | [], _ => .nil
  | (key, node) :: rest, nullFree =>
      .cons _ key (isNode_of_nullFree node nullFree.1) (isEntries_of_nullFree rest nullFree.2)

end

open YamlReader

theorem feed_scalar {reader next : YamlReader} {literal : Bool} {value : Chars}
    (placed : reader.place (.scalar value) = some next) :
    reader.feed (.scalar literal value) = some next := by
  rcases reader with ⟨stack, root⟩
  rcases stack with _ | ⟨first, rest⟩
  · exact placed
  · cases first with
    | afterKey done => cases placed
    | items done => exact placed
    | entries done => cases placed
    | keyed done key => cases placed
    | afterValue done key => exact placed

mutual

theorem read_written : ∀ (node : YamlNode), NullFree node → ∀ {reader next : YamlReader},
    reader.place node = some next → exec feed reader node.writeNodeAsMultiLine = some next
  | .null, nullFree, _, _, _ => nullFree.elim
  | .scalar value, _, reader, next, placed => by
      rw [writeNodeAsMultiLine, exec_cons_of_step [] (feed_scalar placed), exec_nil]
  | .sequence items, nullFree, reader, next, placed => by
      rw [writeNodeAsMultiLine, exec_cons_of_step _ rfl,
        exec_append_of_exec _ (read_writtenItems items nullFree [] reader.stack reader.root)]
      exact exec_cons_of_step [] placed
  | .map entries, nullFree, reader, next, placed => by
      rw [writeNodeAsMultiLine, exec_cons_of_step _ rfl,
        exec_append_of_exec _ (read_writtenEntries entries nullFree [] reader.stack reader.root)]
      exact exec_cons_of_step [] placed

theorem read_writtenItems : ∀ (items : List YamlNode), NullFreeItems items →
    ∀ (done : List YamlNode) (rest : List OpenNode) (root : Option YamlNode),
      exec feed ⟨.items done :: rest, root⟩ (writeItems items) =
        some ⟨.items (done ++ items) :: rest, root⟩
  | [], _, done, rest, root => by rw [writeItems, exec_nil, List.append_nil]
  | node :: more, nullFree, done, rest, root => by
      rw [writeItems, exec_append_of_exec _ (read_written node nullFree.1 rfl),
        read_writtenItems more nullFree.2, List.append_assoc, List.singleton_append]

theorem read_writtenEntries : ∀ (entries : List (Chars × YamlNode)), NullFreeEntries entries →
    ∀ (done : List (Chars × YamlNode)) (rest : List OpenNode) (root : Option YamlNode),
      exec feed ⟨.entries done :: rest, root⟩ (writeEntries entries) =
        some ⟨.entries (done ++ entries) :: rest, root⟩
  | [], _, done, rest, root => by rw [writeEntries, exec_nil, List.append_nil]
  | (key, node) :: more, nullFree, done, rest, root => by
      rw [writeEntries, exec_cons_of_step _ rfl, exec_cons_of_step _ rfl, exec_cons_of_step _ rfl,
        exec_append_of_exec _ (read_written node nullFree.1 rfl),
        read_writtenEntries more nullFree.2, List.append_assoc, List.singleton_append]

end

theorem nullFreeItems_concat {done : List YamlNode} {node : YamlNode}
    (nullFree : NullFreeItems done) (last : NullFree node) : NullFreeItems (done ++ [node]) := by
  induction done with
  | nil => exact ⟨last, trivial⟩
  | cons first rest ih => exact ⟨nullFree.1, ih nullFree.2⟩

theorem nullFreeEntries_concat {done : List (Chars × YamlNode)} {key : Chars} {node : YamlNode}
    (nullFree : NullFreeEntries done) (last : NullFree node) :
    NullFreeEntries (done ++ [(key, node)]) := by
  induction done with
  | nil => exact ⟨last, trivial⟩
  | cons first rest ih => exact ⟨nullFree.1, ih nullFree.2⟩

end YamlNode

open YamlNode

def OpenNode.NullFree : OpenNode → Prop
  | .items done => NullFreeItems done
  | .entries done => NullFreeEntries done
  | .afterKey done => NullFreeEntries done
  | .keyed done _ => NullFreeEntries done
  | .afterValue done _ => NullFreeEntries done

namespace YamlReader

/-- The reader builds no null nodes: no event stands for one. -/
structure NullFree (reader : YamlReader) : Prop where
  stack : ∀ node ∈ reader.stack, node.NullFree
  root : ∀ node ∈ reader.root, node.NullFree

variable {reader next : YamlReader} {node : YamlNode} {event : YamlEvent}

theorem NullFree.push (nullFree : NullFree reader) {opened : OpenNode}
    (openedFree : opened.NullFree) : NullFree { reader with stack := opened :: reader.stack } :=
  ⟨List.forall_mem_cons.mpr ⟨openedFree, nullFree.stack⟩, nullFree.root⟩

theorem NullFree.pop (nullFree : NullFree reader) {first : OpenNode} {rest : List OpenNode}
    (stack : reader.stack = first :: rest) :
    first.NullFree ∧ NullFree { reader with stack := rest } := by
  have all := nullFree.stack
  rw [stack] at all
  obtain ⟨firstFree, restFree⟩ := List.forall_mem_cons.mp all
  exact ⟨firstFree, restFree, nullFree.root⟩

theorem NullFree.swap (nullFree : NullFree reader) {first opened : OpenNode}
    {rest : List OpenNode} (stack : reader.stack = first :: rest)
    (kept : first.NullFree → opened.NullFree) :
    NullFree { reader with stack := opened :: rest } := by
  obtain ⟨firstFree, restFree⟩ := nullFree.pop stack
  exact restFree.push (kept firstFree)

theorem NullFree.place (nullFree : NullFree reader) (nodeFree : node.NullFree)
    (placed : reader.place node = some next) : NullFree next := by
  rcases reader with ⟨stack, root⟩
  rcases stack with _ | ⟨first, rest⟩
  · cases root with
    | none =>
        obtain rfl := Option.some.inj placed
        exact ⟨by simp, by simpa using nodeFree⟩
    | some other => cases placed
  · cases first with
    | items done =>
        obtain rfl := Option.some.inj placed
        exact nullFree.swap rfl fun doneFree => nullFreeItems_concat doneFree nodeFree
    | afterValue done key =>
        obtain rfl := Option.some.inj placed
        exact nullFree.swap rfl fun doneFree => nullFreeEntries_concat doneFree nodeFree
    | entries done => cases placed
    | afterKey done => cases placed
    | keyed done key => cases placed

theorem NullFree.close (nullFree : NullFree reader) {first : OpenNode} {rest : List OpenNode}
    (stack : reader.stack = first :: rest) (kept : first.NullFree → node.NullFree)
    (placed : YamlReader.place node { reader with stack := rest } = some next) :
    NullFree next := by
  obtain ⟨firstFree, restFree⟩ := nullFree.pop stack
  exact restFree.place (kept firstFree) placed

theorem NullFree.feed (nullFree : NullFree reader) (fed : reader.feed event = some next) :
    NullFree next := by
  cases event with
  | beginSeq =>
      obtain rfl := Option.some.inj fed
      exact nullFree.push trivial
  | beginMap =>
      obtain rfl := Option.some.inj fed
      exact nullFree.push trivial
  | endSeq =>
      simp only [YamlReader.feed] at fed
      split at fed
      · rename_i done rest opened
        refine nullFree.close opened ?_ fed
        exact fun doneFree => doneFree
      · cases fed
  | endMap =>
      simp only [YamlReader.feed] at fed
      split at fed
      · rename_i done rest opened
        refine nullFree.close opened ?_ fed
        exact fun doneFree => doneFree
      · cases fed
  | key =>
      simp only [YamlReader.feed] at fed
      split at fed
      · rename_i done rest opened
        obtain rfl := Option.some.inj fed
        exact nullFree.swap opened id
      · cases fed
  | value =>
      simp only [YamlReader.feed] at fed
      split at fed
      · rename_i done key rest opened
        obtain rfl := Option.some.inj fed
        exact nullFree.swap opened id
      · cases fed
  | scalar literal value =>
      simp only [YamlReader.feed] at fed
      split at fed
      · rename_i done rest opened
        obtain rfl := Option.some.inj fed
        exact nullFree.swap opened id
      · have scalarFree : YamlNode.NullFree (.scalar value) := trivial
        exact nullFree.place scalarFree fed

theorem read_cases {events : List YamlEvent} (done : read events = some node) :
    node = .null ∨ node.NullFree := by
  unfold read at done
  split at done
  · rename_i root run
    have empty : NullFree ⟨[], none⟩ := ⟨by simp, by simp⟩
    have kept (reader : YamlReader) (event : YamlEvent) (next : YamlReader)
        (free : NullFree reader) (fed : reader.feed event = some next) : NullFree next :=
      free.feed fed
    have nullFree := invariant_of_reachable empty kept ⟨events, run⟩
    cases root with
    | none => exact .inl (Option.some.inj done).symm
    | some written =>
        obtain rfl := Option.some.inj done
        exact .inr (nullFree.root _ rfl)
  · cases done

end YamlReader

/-- A null inside a tree is dropped; alone it is the empty document. -/
theorem faithful_iff (node : YamlNode) : Faithful node ↔ node = .null ∨ node.NullFree := by
  constructor
  · rintro ⟨-, back⟩
    exact YamlReader.read_cases back
  · rintro (rfl | nullFree)
    · exact ⟨.inl rfl, rfl⟩
    · refine ⟨.inr (isNode_of_nullFree node nullFree), ?_⟩
      have run : exec YamlReader.feed ⟨[], none⟩ node.writeNodeAsMultiLine =
          some ⟨[], some node⟩ := read_written node nullFree rfl
      rw [YamlReader.read, run]
      rfl

/-- The key `b` is written where the value of `a` belongs. -/
theorem faithful_fails :
    YamlNode.writeNodeAsMultiLine (.map [("a".toList, .null), ("b".toList, .scalar "1".toList)]) =
        [.beginMap, .key, .scalar false "a".toList, .value, .key, .scalar false "b".toList, .value,
          .scalar false "1".toList, .endMap] ∧
      ¬Faithful (.map [("a".toList, .null), ("b".toList, .scalar "1".toList)]) := by
  refine ⟨rfl, ?_⟩
  rintro ⟨-, back⟩
  cases back

end AutoDrop
