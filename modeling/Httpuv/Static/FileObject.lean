import Httpuv.Http.Date
import Httpuv.Posix.Descriptors
import Httpuv.Static.FileDataSource

/-! The life of a `FileDataSource` and of the descriptor that it gets from `open`. -/
namespace Httpuv

open Descriptors Semantics

/-- What the system answers to `open`, `fstat` and `unlink`. An error is a value of `errno`. -/
structure FileAnswers where
  openFd : Except Int Nat
  fstat : Except Int FileStatus
  unlink : Option Int

/-- The value on Linux. -/
def ENOENT : Int := 2

/-- The members of a `FileDataSource`. The descriptor −1 is `none`. -/
structure FileObject where
  fd : Option Nat
  length : Nat
  lastErrorMessage : Bytes
  deriving DecidableEq, Repr

/-- What `initialize` leaves behind: the object, its result, the descriptors that it opened
and closed, and what it printed. -/
structure FileInitialized (Owner : Type) where
  object : FileObject
  result : FileDataSourceResult
  events : List (Event Owner)
  printed : Bytes

/-- What can be done with a file between `initialize` and the destructor. The system answers
with the bytes of `read` and the status of `fstat`. -/
inductive FileOperation where
  | getData (bytesDesired : Nat) (bytes : Option Bytes)
  | getMtime (status : Option FileStatus)
  | close
  deriving DecidableEq, Repr

namespace FileObject

variable {Owner : Type} (me : Owner)

/-- The method `initialize`. A descriptor that is closed on the way out stays in the object. -/
def initializeFrom (path : Bytes) (owned : Bool) (answers : FileAnswers) :
    FileInitialized Owner :=
  match answers.openFd with
  | .error errno =>
      if errno = ENOENT then
        { object := {
            fd := none
            length := 0
            lastErrorMessage := ascii "File does not exist: " ++ path ++ ascii "\n" }
          result := .notExist
          events := []
          printed := [] }
      else
        { object := {
            fd := none
            length := 0
            lastErrorMessage := ascii "Error opening file " ++ path ++ ascii ": " ++
              formatInt errno ++ ascii "\n" }
          result := .error
          events := []
          printed := [] }
  | .ok fd =>
      match answers.fstat with
      | .error errno =>
          { object := {
              fd := some fd
              length := 0
              lastErrorMessage := ascii "Error opening path " ++ path ++ ascii ": " ++
                formatInt errno ++ ascii "\n" }
            result := .error
            events := [.opened me fd, .closed me fd]
            printed := [] }
      | .ok info =>
          if info.isDirectory then
            { object := {
                fd := some fd
                length := 0
                lastErrorMessage := ascii "File data source is a directory: " ++ path ++ ascii "\n" }
              result := .isDir
              events := [.opened me fd, .closed me fd]
              printed := [] }
          else
            { object := { fd := some fd, length := info.size, lastErrorMessage := [] }
              result := .ok
              events := [.opened me fd]
              printed := match answers.unlink with
                | some errno =>
                    if owned then
                      ascii "Couldn't delete temp file " ++ path ++ ascii ": " ++
                        formatInt errno ++ ascii "\n"
                    else []
                | none => [] }

def close (object : FileObject) : FileObject × List (Event Owner) :=
  ({ object with fd := none }, (object.fd.map (Event.closed me)).toList)

/-- The other methods use the descriptor and leave it as it is. -/
def operate (object : FileObject) : FileOperation → FileObject × List (Event Owner)
  | .getData _ _ => (object, [])
  | .getMtime _ => (object, [])
  | .close => object.close me

def operateAll (object : FileObject) : List FileOperation → FileObject × List (Event Owner)
  | [] => (object, [])
  | operation :: rest =>
      let (object, events) := object.operate me operation
      let (object, later) := operateAll object rest
      (object, events ++ later)

/-- What happens to descriptors from `initialize` to the destructor. -/
def life (path : Bytes) (owned : Bool) (answers : FileAnswers) (operations : List FileOperation) :
    List (Event Owner) :=
  let start := initializeFrom me path owned answers
  let (object, events) := start.object.operateAll me operations
  start.events ++ events ++ (object.close me).2

/-- However the object is used, its descriptor is closed once more. -/
theorem closed_once (object : FileObject) (operations : List FileOperation) :
    (object.operateAll me operations).2 ++ ((object.operateAll me operations).1.close me).2 =
      (object.fd.map (Event.closed me)).toList := by
  induction operations generalizing object with
  | nil => rfl
  | cons operation rest ih =>
      cases operation with
      | getData bytesDesired bytes => exact ih object
      | getMtime status => exact ih object
      | close =>
          have hRest := ih { object with fd := none }
          simp only [operateAll, operate, close, List.append_assoc] at hRest ⊢
          rw [hRest]
          simp

theorem life_eq (path : Bytes) (owned : Bool) (answers : FileAnswers)
    (operations : List FileOperation) : life me path owned answers operations =
      (initializeFrom me path owned answers).events ++
        ((initializeFrom me path owned answers).object.fd.map (Event.closed me)).toList := by
  rw [← closed_once me _ operations, ← List.append_assoc]
  rfl

/-- The descriptor is closed by the object alone, or by `initialize` as well. -/
theorem life_cases (path : Bytes) (owned : Bool) (answers : FileAnswers)
    (operations : List FileOperation) :
    (∃ errno, answers.openFd = .error errno) ∧ life me path owned answers operations = [] ∨
      ∃ fd, answers.openFd = .ok fd ∧
        ((∃ info, answers.fstat = .ok info ∧ info.isDirectory = false) ∧
            life me path owned answers operations = [.opened me fd, .closed me fd] ∨
          (¬ ∃ info, answers.fstat = .ok info ∧ info.isDirectory = false) ∧
            life me path owned answers operations =
              [.opened me fd, .closed me fd, .closed me fd]) := by
  rw [life_eq]
  cases hOpen : answers.openFd with
  | error errno =>
      left
      refine ⟨⟨errno, rfl⟩, ?_⟩
      simp only [initializeFrom, hOpen]
      split_ifs <;> rfl
  | ok fd =>
      refine Or.inr ⟨fd, rfl, ?_⟩
      cases hStat : answers.fstat with
      | error errno =>
          right
          simp [initializeFrom, hOpen, hStat]
      | ok info =>
          cases hDirectory : info.isDirectory with
          | true =>
              right
              simp [initializeFrom, hOpen, hStat, hDirectory]
          | false =>
              left
              refine ⟨⟨info, rfl, hDirectory⟩, ?_⟩
              simp [initializeFrom, hOpen, hStat, hDirectory]

/-- With the answers that the file system gives, the result is the one of the model without
descriptors. -/
theorem initializeFrom_result {Descriptor : Type} [FileSystem Descriptor] (path : Bytes)
    (owned : Bool) (answers : FileAnswers)
    (hError : ∀ errno, answers.openFd = .error errno →
      FileSystem.openFile (cString path) =
        (.error (if errno = ENOENT then .notFound else .other) : Except OpenError Descriptor))
    (hOk : ∀ number, answers.openFd = .ok number →
      ∃ fd : Descriptor, FileSystem.openFile (cString path) = .ok fd ∧
        FileSystem.fstat fd = answers.fstat.toOption) :
    (initializeFrom me path owned answers).result =
      (FileDataSource.initializeFrom path :
        FileDataSourceResult × Option (FileDataSource Descriptor)).1 := by
  cases hOpen : answers.openFd with
  | error errno =>
      simp only [initializeFrom, FileDataSource.initializeFrom, hOpen, hError errno hOpen]
      split_ifs <;> rfl
  | ok number =>
      obtain ⟨fd, hFd, hStat⟩ := hOk number hOpen
      simp only [initializeFrom, FileDataSource.initializeFrom, hOpen, hFd, hStat]
      cases answers.fstat with
      | error errno => rfl
      | ok info =>
          simp only [Except.toOption]
          split_ifs <;> rfl

/-- **A descriptor is closed once, and only while it belongs to the object**, exactly if
`open` fails or `fstat` finds something that is not a directory. -/
theorem descriptor_closed_once_iff [DecidableEq Owner] (path : Bytes) (owned : Bool)
    (answers : FileAnswers) (operations : List FileOperation) :
    (∀ table history, (∀ number, table number ≠ some me) → Legal me table history →
        own me history = life me path owned answers operations →
        ClosesOwn me table history ∧
          ∀ number, history.count (.closed me number) = history.count (.opened me number)) ↔
      (∃ errno, answers.openFd = .error errno) ∨
        ∃ info, answers.fstat = .ok info ∧ info.isDirectory = false := by
  constructor
  · intro h
    rcases life_cases me path owned answers operations with
      ⟨hError, -⟩ | ⟨fd, -, ⟨hFile, -⟩ | ⟨-, hLife⟩⟩
    · exact Or.inl hError
    · exact Or.inr hFile
    · -- nobody else is needed: the object closes its descriptor twice
      have hLegal : Legal me (fun _ => none) [.opened me fd, .closed me fd, .closed me fd] := by
        rw [legal_cons, legal_cons, legal_cons]
        exact ⟨rfl, absurd rfl, absurd rfl, AtEach.nil⟩
      have hOwn : own me [.opened me fd, .closed me fd, .closed me fd] =
          life me path owned answers operations := by
        rw [hLife]
        simp [own, Event.owner]
      obtain ⟨-, hCount⟩ := h _ _ (fun _ => by simp) hLegal hOwn
      simpa using hCount fd
  · intro hCases table history hNone hLegal hOwn
    have hCount : ∀ event : Event Owner, event.owner = me →
        history.count event = (life me path owned answers operations).count event := by
      intro event hMine
      rw [← hOwn, own, List.count_filter (by simpa using hMine)]
    rw [closesOwn_iff hLegal hNone, hOwn]
    rcases life_cases me path owned answers operations with
      ⟨-, hLife⟩ | ⟨fd, hOpen, ⟨-, hLife⟩ | ⟨hOther, -⟩⟩
    · refine ⟨hLife ▸ AtEach.nil, fun number => ?_⟩
      rw [hCount _ rfl, hCount _ rfl, hLife]
      rfl
    · refine ⟨?_, fun number => ?_⟩
      · rw [hLife, closesOwn_cons, closesOwn_cons]
        refine ⟨by simp, ?_, AtEach.nil⟩
        simp [Table.apply]
      · rw [hCount _ rfl, hCount _ rfl, hLife]
        by_cases hNumber : fd = number <;> simp [hNumber]
    · rcases hCases with ⟨errno, hError⟩ | hFile
      · rw [hOpen] at hError
        cases hError
      · exact absurd hFile hOther

/-- The number of a directory goes to somebody else before the object is destroyed. -/
theorem directory_closed_twice :
    let answers : FileAnswers := {
      openFd := .ok 3
      fstat := .ok { isDirectory := true, size := 4096, mtime := 0 }
      unlink := none }
    let history : List (Event Bool) :=
      [.opened true 3, .closed true 3, .opened false 3, .closed true 3]
    Legal true (fun _ => none) history ∧
      own true history = life true (ascii "/srv/www/img") false answers [] ∧
      history.count (.closed true 3) = 2 ∧ ¬ ClosesOwn true (fun _ => none) history := by
  refine ⟨?_, by decide, by decide, fun h => ?_⟩
  · rw [legal_cons, legal_cons, legal_cons, legal_cons]
    exact ⟨rfl, absurd rfl, rfl, absurd rfl, AtEach.nil⟩
  · rw [closesOwn_cons, closesOwn_cons, closesOwn_cons, closesOwn_cons] at h
    obtain ⟨-, -, -, hOther, -⟩ := h
    exact absurd (hOther 3 rfl) (by decide)

end FileObject

end Httpuv
