import Mathlib.Data.List.Basic
import Mathlib.Logic.Function.Basic

/-!
A tree of directories, files of lines and symbolic links, by absolute paths. Links are followed
once, so they are meant to point at files; a call that fails leaves the tree as it was.
-/

namespace FileTree

inductive Node (Name Line : Type*)
  | directory
  | file (lines : List Line)
  | symlink (target : List Name)

abbrev Tree (Name Line : Type*) := List Name → Option (Node Name Line)

variable {Name Line : Type*}

def isDirectory (tree : Tree Name Line) (path : List Name) : Bool :=
  path.isEmpty ||
    match tree path with
    | some .directory => true
    | _ => false

def resolve (tree : Tree Name Line) (path : List Name) : List Name :=
  match tree path with
  | some (.symlink target) => target
  | _ => path

/-- Whether an open for reading finds a file. -/
def readable (tree : Tree Name Line) (path : List Name) : Bool :=
  match tree (resolve tree path) with
  | some (.file _) => true
  | _ => false

variable [DecidableEq Name]

def mkdir (tree : Tree Name Line) (path : List Name) : Tree Name Line :=
  match tree path with
  | none =>
      if isDirectory tree path.dropLast then Function.update tree path (some .directory) else tree
  | some _ => tree

/-- `symlink` fails without effect where the link path exists. -/
def symlink (tree : Tree Name Line) (target path : List Name) : Tree Name Line :=
  match tree path with
  | none =>
      if isDirectory tree path.dropLast then Function.update tree path (some (.symlink target))
      else tree
  | some _ => tree

/-- Opens for writing, makes a file that is absent, and changes the lines. -/
def edit (tree : Tree Name Line) (path : List Name) (change : List Line → List Line) :
    Tree Name Line :=
  let target := resolve tree path
  match tree target with
  | none =>
      if isDirectory tree target.dropLast then
        Function.update tree target (some (.file (change [])))
      else tree
  | some (.file lines) => Function.update tree target (some (.file (change lines)))
  | some _ => tree

def append (tree : Tree Name Line) (path : List Name) (line : Line) : Tree Name Line :=
  edit tree path (· ++ [line])

def store (tree : Tree Name Line) (path : List Name) (lines : List Line) : Tree Name Line :=
  edit tree path fun _ => lines

variable {tree : Tree Name Line} {path other target : List Name} {lines : List Line}
  {change : List Line → List Line}

omit [DecidableEq Name] in
theorem resolve_of_symlink (linked : tree path = some (.symlink target)) :
    resolve tree path = target := by
  rw [resolve, linked]

omit [DecidableEq Name] in
theorem resolve_of_file (found : tree path = some (.file lines)) : resolve tree path = path := by
  rw [resolve, found]

omit [DecidableEq Name] in
theorem resolve_of_none (absent : tree path = none) : resolve tree path = path := by
  rw [resolve, absent]

omit [DecidableEq Name] in
theorem isDirectory_of_some (found : tree path = some .directory) : isDirectory tree path := by
  simp [isDirectory, found]

theorem mkdir_of_some (taken : tree path ≠ none) : mkdir tree path = tree := by
  obtain ⟨node, found⟩ := Option.ne_none_iff_exists'.mp taken
  rw [mkdir, found]

theorem mkdir_other (different : other ≠ path) : mkdir tree path other = tree other := by
  cases found : tree path with
  | none =>
      rw [mkdir, found]
      dsimp only
      split
      · rw [Function.update_of_ne different]
      · rfl
  | some node => rw [mkdir_of_some (by simp [found])]

theorem mkdir_self (free : tree path = none ∨ tree path = some .directory)
    (inside : isDirectory tree path.dropLast) : mkdir tree path path = some .directory := by
  rcases free with absent | found
  · rw [mkdir, absent]
    dsimp only
    rw [if_pos inside, Function.update_self]
  · rw [mkdir_of_some (by simp [found]), found]

theorem symlink_of_some (taken : tree path ≠ none) : symlink tree target path = tree := by
  obtain ⟨node, found⟩ := Option.ne_none_iff_exists'.mp taken
  rw [symlink, found]

theorem symlink_of_none (absent : tree path = none) (inside : isDirectory tree path.dropLast) :
    symlink tree target path = Function.update tree path (some (.symlink target)) := by
  rw [symlink, absent]
  exact if_pos inside

theorem edit_of_file (found : tree (resolve tree path) = some (.file lines)) :
    edit tree path change =
      Function.update tree (resolve tree path) (some (.file (change lines))) := by
  rw [edit, found]

theorem edit_of_none (absent : tree (resolve tree path) = none)
    (inside : isDirectory tree (resolve tree path).dropLast) :
    edit tree path change =
      Function.update tree (resolve tree path) (some (.file (change []))) := by
  rw [edit, absent]
  exact if_pos inside

theorem edit_cases (tree : Tree Name Line) (path : List Name) (change : List Line → List Line) :
    edit tree path change = tree ∨
      (tree (resolve tree path) = none ∨ ∃ lines, tree (resolve tree path) = some (.file lines)) ∧
        ∃ lines, edit tree path change =
          Function.update tree (resolve tree path) (some (.file lines)) := by
  cases found : tree (resolve tree path) with
  | none =>
      rw [edit, found]
      dsimp only
      split
      · exact .inr ⟨.inl rfl, _, rfl⟩
      · exact .inl rfl
  | some node =>
      cases node with
      | directory =>
          rw [edit, found]
          exact .inl rfl
      | symlink target =>
          rw [edit, found]
          exact .inl rfl
      | file lines => exact .inr ⟨.inr ⟨lines, rfl⟩, _, edit_of_file found⟩

theorem edit_other (different : other ≠ resolve tree path) :
    edit tree path change other = tree other := by
  rcases edit_cases tree path change with same | ⟨-, lines, changed⟩
  · rw [same]
  · rw [changed, Function.update_of_ne different]

/-- Writing turns nothing into a link. -/
theorem symlink_of_edit (linked : edit tree path change other = some (.symlink target)) :
    tree other = some (.symlink target) := by
  by_cases here : other = resolve tree path
  · rcases edit_cases tree path change with same | ⟨-, lines, changed⟩
    · rwa [same] at linked
    · rw [changed, here, Function.update_self] at linked
      cases linked
  · rwa [edit_other here] at linked

theorem edit_of_symlink (linked : tree other = some (.symlink target)) :
    edit tree path change other = some (.symlink target) := by
  rcases edit_cases tree path change with same | ⟨free, lines, changed⟩
  · rwa [same]
  · have different : other ≠ resolve tree path := by
      rintro rfl
      rw [linked] at free
      simp at free
    rwa [changed, Function.update_of_ne different]

end FileTree
