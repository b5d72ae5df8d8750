import Mathlib.Data.List.Induction
import Mathlib.Data.List.Basic

/-! A tree of directories and files, and the resolution of pathnames in it: a name
at a time, from the root or from the current directory. Every directory may be searched. -/
namespace FileTree

inductive Node (Data : Type) where
  | directory (data : Data)
  | file (data : Data)
  deriving DecidableEq, Repr

/-- The names on the way from the root, the last one first. -/
abbrev Location (Symbol : Type) := List (List Symbol)

/-- What is in the tree is in a directory of it. -/
structure Tree (Symbol Data : Type) where
  node : Location Symbol → Option (Node Data)
  root : ∃ data, node [] = some (.directory data)
  parent : ∀ name location, node (name :: location) ≠ none →
    ∃ data, node location = some (.directory data)

/-- Why there is nothing at a pathname. -/
inductive Failure where
  | missing
  | notDirectory
  deriving DecidableEq, Repr

/-- What separates the names, and what `.` and `..` are made of. -/
structure Alphabet (Symbol : Type) where
  slash : Symbol
  dot : Symbol

namespace Tree

variable {Symbol Data : Type} (tree : Tree Symbol Data)

def Directory : Type :=
  {location : Location Symbol // ∃ data, tree.node location = some (.directory data)}

def rootDirectory : tree.Directory := ⟨[], tree.root⟩

section Resolution

variable [DecidableEq Symbol] (alphabet : Alphabet Symbol)

/-- The next name on the way. Two slashes in a row, and a dot, stay where they are. -/
def enter (location : Location Symbol) (name : List Symbol) : Except Failure (Location Symbol) :=
  match tree.node location with
  | none => .error .missing
  | some (.file _) => .error .notDirectory
  | some (.directory _) =>
      if name = [] ∨ name = [alphabet.dot] then .ok location
      else if name = [alphabet.dot, alphabet.dot] then .ok location.tail
      else .ok (name :: location)

def walk (start : Location Symbol) (names : List (List Symbol)) :
    Except Failure (Location Symbol) :=
  names.foldlM (tree.enter alphabet) start

/-- An absolute pathname is resolved from the root. -/
def start (current : tree.Directory) (path : List Symbol) : tree.Directory :=
  if path.head? = some alphabet.slash then tree.rootDirectory else current

def resolve (current : tree.Directory) (path : List Symbol) : Except Failure (Node Data) :=
  if path = [] then .error .missing
  else
    match tree.walk alphabet (tree.start alphabet current path).1 (path.splitOn alphabet.slash) with
    | .error failure => .error failure
    | .ok location =>
        match tree.node location with
        | none => .error .missing
        | some node => .ok node

/-- A file stands on the way, in front of the last name or of a slash at the end. -/
def CutOff (current : tree.Directory) (path : List Symbol) : Prop :=
  ∃ front name rest location data, path.splitOn alphabet.slash = front ++ name :: rest ∧
    tree.walk alphabet (tree.start alphabet current path).1 front = .ok location ∧
    tree.node location = some (.file data)

variable {tree alphabet} {start location : Location Symbol} {names : List (List Symbol)}
  {current : tree.Directory} {path name : List Symbol}

theorem walk_concat : tree.walk alphabet start (names ++ [name]) =
    (tree.walk alphabet start names).bind (tree.enter alphabet · name) := by
  rw [walk, List.foldlM_append]
  cases hWalk : tree.walk alphabet start names with
  | error failure =>
      rw [walk] at hWalk
      rw [hWalk]
      rfl
  | ok location =>
      rw [walk] at hWalk
      rw [hWalk]
      exact bind_pure (tree.enter alphabet location name)

theorem enter_eq_notDirectory : tree.enter alphabet location name = .error .notDirectory ↔
    ∃ data, tree.node location = some (.file data) := by
  unfold enter
  cases tree.node location with
  | none => simp
  | some node =>
      cases node with
      | file data => simp
      | directory data =>
          dsimp only
          split_ifs <;> simp

/-- A walk ends at a file if and only if a file stands in front of one of the names. -/
theorem walk_eq_notDirectory : tree.walk alphabet start names = .error .notDirectory ↔
    ∃ front name rest location data, names = front ++ name :: rest ∧
      tree.walk alphabet start front = .ok location ∧ tree.node location = some (.file data) := by
  induction names using List.reverseRecOn with
  | nil => simp [walk, pure, Except.pure]
  | append_singleton names last ih =>
      rw [walk_concat]
      constructor
      · intro h
        cases hWalk : tree.walk alphabet start names with
        | error failure =>
            rw [hWalk] at h
            obtain rfl : failure = .notDirectory := Except.error.inj h
            obtain ⟨front, name, rest, location, data, rfl, hFront, hFile⟩ := ih.1 hWalk
            exact ⟨front, name, rest ++ [last], location, data, by simp, hFront, hFile⟩
        | ok location =>
            rw [hWalk] at h
            obtain ⟨data, hFile⟩ := enter_eq_notDirectory.1 h
            exact ⟨names, last, [], location, data, rfl, hWalk, hFile⟩
      · rintro ⟨front, name, rest, location, data, hNames, hFront, hFile⟩
        rcases List.eq_nil_or_concat rest with rfl | ⟨earlier, later, rfl⟩
        · obtain ⟨rfl, -⟩ := List.append_inj' hNames rfl
          rw [hFront]
          exact enter_eq_notDirectory.2 ⟨data, hFile⟩
        · have hSplit : names ++ [last] = (front ++ name :: earlier) ++ [later] := by
            simpa using hNames
          have hEarlier : names = front ++ name :: earlier := (List.append_inj' hSplit rfl).1
          rw [ih.2 ⟨front, name, earlier, location, data, hEarlier, hFront, hFile⟩]
          rfl

theorem resolve_eq_notDirectory : tree.resolve alphabet current path = .error .notDirectory ↔
    tree.CutOff alphabet current path := by
  rw [CutOff, ← walk_eq_notDirectory, resolve]
  split_ifs with hEmpty
  · -- the current directory is not a file
    obtain ⟨data, hDirectory⟩ := current.2
    subst hEmpty
    simp [start, walk, enter, hDirectory, pure, Except.pure, bind, Except.bind]
  · cases tree.walk alphabet (tree.start alphabet current path).1 (path.splitOn alphabet.slash) with
    | error failure => simp
    | ok location =>
        dsimp only
        cases tree.node location <;> simp

/-- Nothing is in the way to an entry of a directory. -/
theorem resolve_child {data : Data} (h : tree.resolve alphabet current path = .ok (.directory data))
    (hName : alphabet.slash ∉ name) :
    tree.resolve alphabet current (path ++ alphabet.slash :: name) ≠ .error .notDirectory := by
  have hPath : path ≠ [] := by
    rintro rfl
    simp [resolve] at h
  have hStart : tree.start alphabet current (path ++ alphabet.slash :: name) =
      tree.start alphabet current path := by
    rw [start, start, List.head?_append, Option.or_of_isSome (by simpa using hPath)]
  rw [resolve, if_neg hPath] at h
  rw [resolve, if_neg (by simp), hStart, List.splitOn_append_cons_self,
    List.splitOn_eq_singleton hName, walk_concat]
  cases hWalk : tree.walk alphabet (tree.start alphabet current path).1
      (path.splitOn alphabet.slash) with
  | error failure => simp [hWalk] at h
  | ok location =>
      rw [hWalk] at h
      have hDirectory : tree.node location = some (.directory data) := by
        cases hNode : tree.node location with
        | none => simp [hNode] at h
        | some node => simpa [hNode] using h
      have hEnter : ∃ next, tree.enter alphabet location name = .ok next := by
        simp only [enter, hDirectory]
        split_ifs
        exacts [⟨_, rfl⟩, ⟨_, rfl⟩, ⟨_, rfl⟩]
      obtain ⟨next, hNext⟩ := hEnter
      simp only [Except.bind, hNext]
      cases tree.node next <;> simp

end Resolution

end Tree

end FileTree
