import Httpuv.Http.HttpParser
import Mathlib.Tactic

/-! The request target and the request headers as `HttpRequest` collects them
from the callbacks of the parser. -/
namespace Httpuv

inductive LastHeaderState where
  | start
  | field
  | value
  deriving DecidableEq, Repr

structure RequestHead where
  url : Bytes
  headers : RequestHeaders
  lastHeaderField : Bytes
  lastHeaderState : LastHeaderState
  deriving DecidableEq, Repr

namespace RequestHead

/-- What `_newRequest` resets. The target of the last request stays. -/
def newRequest (head : RequestHead) : RequestHead :=
  { head with headers := [], lastHeaderState := .start }

def onUrl (head : RequestHead) (data : Bytes) : RequestHead :=
  { head with url := data }

def onHeaderField (head : RequestHead) (data : Bytes) : RequestHead :=
  if head.lastHeaderState ≠ .field then
    { head with lastHeaderState := .field, lastHeaderField := data }
  else { head with lastHeaderField := head.lastHeaderField ++ data }

/-- A repeated field is combined with a comma unless one of the values is empty. -/
def combine (previous value : Bytes) : Bytes :=
  if previous ≠ [] then (if value ≠ [] then previous ++ ascii "," ++ value else previous)
  else value

def onHeaderValue (head : RequestHead) (data : Bytes) : RequestHead :=
  match head.lastHeaderState with
  | .value =>
      let previous := (head.headers.find head.lastHeaderField).getD []
      { head with headers := head.headers.assign head.lastHeaderField (previous ++ data) }
  | _ =>
      let value := match head.headers.find head.lastHeaderField with
        | some previous => combine previous data
        | none => data
      { head with
        lastHeaderState := .value
        headers := head.headers.assign head.lastHeaderField value }

/-- The callbacks as far as they collect the head of a request. -/
def onEvent (head : RequestHead) : ParserEvent → RequestHead
  | .onMessageBegin => head.newRequest
  | .onUrl data => head.onUrl data
  | .onHeaderField data => head.onHeaderField data
  | .onHeaderValue data => head.onHeaderValue data
  | _ => head

end RequestHead

/-- The target up to its first question mark, and the rest: `PATH_INFO` and
`QUERY_STRING`. Static serving decodes the first of them. -/
def splitQueryString (url : Bytes) : Bytes × Bytes :=
  (url.takeWhile (· ≠ 63), url.dropWhile (· ≠ 63))

def ParserEvent.urlPiece : ParserEvent → Option Bytes
  | .onUrl data => some data
  | _ => none

namespace RequestHead

/-- The target of a request, in the pieces in which the parser reports it. -/
def pieces (events : List ParserEvent) : List Bytes := events.filterMap ParserEvent.urlPiece

def target (events : List ParserEvent) : Bytes := (pieces events).flatten

variable (head : RequestHead)

theorem onHeaderField_url (data : Bytes) : (head.onHeaderField data).url = head.url := by
  unfold onHeaderField
  split_ifs <;> rfl

theorem onHeaderValue_url (data : Bytes) : (head.onHeaderValue data).url = head.url := by
  unfold onHeaderValue
  split <;> rfl

/-- Every piece replaces the one before it. -/
theorem foldl_onEvent_url (events : List ParserEvent) :
    (events.foldl onEvent head).url = (pieces events).getLast?.getD head.url := by
  induction events using List.reverseRecOn with
  | nil => rfl
  | append_singleton events event ih =>
      rw [List.foldl_append, List.foldl_cons, List.foldl_nil]
      unfold pieces at ih ⊢
      rw [List.filterMap_append]
      cases event with
      | onUrl data => simp [onEvent, onUrl, ParserEvent.urlPiece]
      | onHeaderField data => simpa [onEvent, onHeaderField_url, ParserEvent.urlPiece] using ih
      | onHeaderValue data => simpa [onEvent, onHeaderValue_url, ParserEvent.urlPiece] using ih
      | _ => simpa [onEvent, newRequest, ParserEvent.urlPiece] using ih

/-- The request that the application gets to see is the one that was sent. -/
def KeepsTarget (head : RequestHead) (events : List ParserEvent) : Prop :=
  (events.foldl onEvent head).url = target events ∧
    splitQueryString (events.foldl onEvent head).url = splitQueryString (target events)

/-- The whole target is kept exactly when no piece but the last has a byte. The
parser reports at least one piece of each target. -/
theorem keepsTarget_iff (events : List ParserEvent) (hReported : pieces events ≠ []) :
    head.KeepsTarget events ↔ ∀ piece ∈ (pieces events).dropLast, piece = [] := by
  have hSplit : head.KeepsTarget events ↔ (events.foldl onEvent head).url = target events :=
    ⟨And.left, fun hUrl => ⟨hUrl, by rw [hUrl]⟩⟩
  rw [hSplit, foldl_onEvent_url, target]
  generalize pieces events = all at hReported
  obtain ⟨first, last, rfl⟩ : ∃ first last, all = first ++ [last] :=
    ⟨all.dropLast, all.getLast hReported, (List.dropLast_append_getLast hReported).symm⟩
  have hFlat : last = (first ++ [last]).flatten ↔ first.flatten = [] := by
    rw [List.flatten_append, List.flatten_singleton, eq_comm]
    constructor
    · intro hSame
      have hLength := congrArg List.length hSame
      rw [List.length_append] at hLength
      exact List.length_eq_zero_iff.1 (by omega)
    · intro hNone
      rw [hNone, List.nil_append]
  rw [List.getLast?_concat, Option.getD_some, List.dropLast_concat, hFlat]
  exact List.flatten_eq_nil_iff

/-- A target that arrives whole. -/
theorem keepsTarget_whole :
    let head : RequestHead :=
      { url := [], headers := [], lastHeaderField := [], lastHeaderState := .start }
    head.KeepsTarget [.onMessageBegin, .onUrl (ascii "/ab?c=1"), .onHeadersComplete false] :=
  (keepsTarget_iff _ _ (by decide)).2 (by decide)

/-- The target `/ab?c=1` cut into two reads behind `/a`: the application sees
another path than for the same bytes in one read. -/
theorem target_cut :
    let head : RequestHead :=
      { url := [], headers := [], lastHeaderField := [], lastHeaderState := .start }
    let events : List ParserEvent :=
      [.onMessageBegin, .onUrl (ascii "/a"), .onUrl (ascii "b?c=1"), .onHeadersComplete false]
    ParserPhase.Follows .between events .waiting ∧ ¬ head.KeepsTarget events ∧
      splitQueryString (events.foldl onEvent head).url = (ascii "b", ascii "?c=1") ∧
      splitQueryString (target events) = (ascii "/ab", ascii "?c=1") := by
  refine ⟨⟨_, rfl, _, rfl, _, rfl, _, rfl, rfl⟩, ?_, by decide, by decide⟩
  intro hKeeps
  exact absurd hKeeps.1 (by decide)

end RequestHead

end Httpuv
