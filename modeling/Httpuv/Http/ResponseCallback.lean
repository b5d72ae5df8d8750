import Httpuv.Http.Connection
import Httpuv.Http.ResponseFraming
import Httpuv.Parser.Contract

/-! The callback that `getResponse` passes to R in an external pointer, and the
places where the R code can be left by an error or an interrupt. -/
namespace Httpuv

/-- The steps of `AppWrapper$call`: the response, the function `clean_up`, the test
for a promise, then either the handler of a promise and its `finally`, or `on.exit`
and `invokeCppCallback`, and the end, where `clean_up` may close the connection. -/
inductive CallStep where
  | response
  | cleanUp
  | isPromise
  | handler
  | finallyCleanUp
  | onExit
  | invoke
  | result
  | close
  deriving DecidableEq, Repr

namespace AppOutcome

variable {File : Type}

/-- What `listToResponse` makes of a value, with `none` for an exception. -/
def listToResponse (now : Tm) : AppOutcome File → Option (Option (HttpResponse (Body File)))
  | .returned answer => some (answer.map (AppAnswer.toResponse now))
  | _ => none

/-- A value that is neither a promise nor missing. -/
def IsValue : AppOutcome File → Prop
  | .returned _ | .malformed => True
  | .promise | .failed => False

end AppOutcome

/-- A request with its callback. The pointer holds an address until it is cleared,
`handler` tells that a promise will call it, and calls through it are counted. A
call through the cleared pointer is undefined. -/
structure ResponseCallback (File : Type) [HttpParser] [Zlib] where
  conn : Connection File
  request : Nat
  address : Bool
  handler : Bool
  invoked : Nat
  dangling : Bool

namespace ResponseCallback

variable {File : Type} [HttpParser] [Zlib]

def construct (conn : Connection File) (request : Nat) : ResponseCallback File where
  conn := conn
  request := request
  address := true
  handler := false
  invoked := 0
  dangling := false

/-- `invokeCppCallback`, and whether it throws. The pointer is not cleared if
`listToResponse` throws. -/
def invokeCppCallback (callback : ResponseCallback File)
    (data : Option (Option (HttpResponse (Body File)))) : ResponseCallback File × Bool :=
  if !callback.address then ({ callback with dangling := true }, true)
  else
    match data with
    | none => (callback, true)
    | some response =>
        ({ callback with
            conn := callback.conn.scheduleMessageCompleteComplete callback.request response
            invoked := callback.invoked + 1
            address := false }, false)

/-- `AppWrapper$call`, and whether it is left by an error or an interrupt. Each step
may raise one before it takes effect, and `clean_up` runs however the function is left. -/
def call (callback : ResponseCallback File) (raises : CallStep → Bool) (bodyData : Bool)
    (resp : AppOutcome File) (now : Tm) : ResponseCallback File × Bool :=
  if raises .response || raises .cleanUp || raises .isPromise then (callback, true)
  else
    match resp with
    | .failed => (callback, true)
    | .promise =>
        if raises .handler then (callback, true)
        else ({ callback with handler := true }, raises .finallyCleanUp || raises .result)
    | value =>
        if raises .onExit then (callback, true)
        else
          let (callback, raised) :=
            if raises .invoke then (callback, true)
            else callback.invokeCppCallback (value.listToResponse now)
          (callback, raised || raises .result || (bodyData && raises .close))

/-- `RWebApplication::getResponse` with its `catch` blocks. -/
def getResponse (conn : Connection File) (request : Nat) (raises : CallStep → Bool)
    (bodyData : Bool) (resp : AppOutcome File) (now : Tm) : ResponseCallback File :=
  if conn.responseScheduled then ((construct conn request).invokeCppCallback (some none)).1
  else
    let (callback, raised) :=
      (construct (conn.observe (.call request)) request).call raises bodyData resp now
    if raised then (callback.invokeCppCallback (some (some (AppAnswer.errorResponse now)))).1
    else callback

/-- A promise is settled. Its handler is called at most once, and only with a value. -/
def settle (callback : ResponseCallback File) (outcome : AppOutcome File) (now : Tm) :
    ResponseCallback File :=
  if callback.handler then
    let callback := { callback with handler := false }
    match outcome with
    | .returned _ | .malformed => (callback.invokeCppCallback (outcome.listToResponse now)).1
    | .promise | .failed => callback
  else callback

/-- What happens after `getResponse`. -/
def settleAll (callback : ResponseCallback File) (outcomes : List (AppOutcome File × Tm)) :
    ResponseCallback File :=
  outcomes.foldl (fun callback settled => callback.settle settled.1 settled.2) callback

/-- The callback has been called at most once, and never through a cleared pointer. -/
structure Safe (callback : ResponseCallback File) : Prop where
  once : callback.invoked ≤ 1
  valid : callback.dangling = false

/-- Nothing is raised before the callback is handed on. -/
def Reaches (raises : CallStep → Bool) (step : CallStep) : Prop :=
  raises .response = false ∧ raises .cleanUp = false ∧ raises .isPromise = false ∧
    raises step = false

/-- An error or an interrupt after `invokeCppCallback` has gone through. -/
def RaisesAfterCall (raises : CallStep → Bool) (bodyData : Bool) (resp : AppOutcome File) : Prop :=
  (∃ answer, resp = .returned answer) ∧ Reaches raises .onExit ∧ raises .invoke = false ∧
    (raises .result = true ∨ bodyData = true ∧ raises .close = true)

/-- An error or an interrupt after a promise has got its handler, and a value for it. -/
def RaisesAfterHandler (raises : CallStep → Bool) (resp : AppOutcome File)
    (outcomes : List (AppOutcome File × Tm)) : Prop :=
  resp = .promise ∧ Reaches raises .handler ∧
    (raises .finallyCleanUp = true ∨ raises .result = true) ∧
    ∃ settled ∈ outcomes.head?, settled.1.IsValue

/-- A callback that has not been called yet, or has been called once. -/
structure Counted (callback : ResponseCallback File) : Prop where
  valid : callback.dangling = false
  invoked : callback.invoked = if callback.address then 0 else 1

namespace Counted

variable {callback : ResponseCallback File}

theorem construct (conn : Connection File) (request : Nat) :
    Counted (ResponseCallback.construct conn request) := ⟨rfl, rfl⟩

theorem safe (h : Counted callback) : callback.Safe := by
  refine ⟨?_, h.valid⟩
  rw [h.invoked]
  split_ifs <;> omega

/-- A call through a pointer that has not been cleared. -/
theorem invokeCppCallback (h : Counted callback) (hAddress : callback.address = true)
    (data : Option (Option (HttpResponse (Body File)))) :
    Counted (callback.invokeCppCallback data).1 := by
  have hInvoked : callback.invoked = 0 := by simpa [hAddress] using h.invoked
  cases data with
  | none => simpa [ResponseCallback.invokeCppCallback, hAddress] using h
  | some response =>
      constructor
      · simpa [ResponseCallback.invokeCppCallback, hAddress] using h.valid
      · simp [ResponseCallback.invokeCppCallback, hAddress, hInvoked]

end Counted

section Call

variable {callback : ResponseCallback File}

theorem invokeCppCallback_cleared (hCleared : callback.address = false)
    (data : Option (Option (HttpResponse (Body File)))) :
    (callback.invokeCppCallback data).1 = { callback with dangling := true } := by
  simp [invokeCppCallback, hCleared]

/-- The callback is handed to a promise, or it is called, or the function is left
before either. -/
theorem call_cases (hAddress : callback.address = true) (raises : CallStep → Bool) (bodyData : Bool)
    (resp : AppOutcome File) (now : Tm) :
    (resp = .promise ∧ Reaches raises .handler ∧ callback.call raises bodyData resp now =
        ({ callback with handler := true }, raises .finallyCleanUp || raises .result)) ∨
      (∃ answer, resp = .returned answer ∧ Reaches raises .onExit ∧ raises .invoke = false ∧
        callback.call raises bodyData resp now =
          ((callback.invokeCppCallback (some (answer.map (AppAnswer.toResponse now)))).1,
            raises .result || (bodyData && raises .close))) ∨
      (callback.call raises bodyData resp now = (callback, true) ∧
        ¬ RaisesAfterCall raises bodyData resp ∧ ¬ (resp = .promise ∧ Reaches raises .handler)) := by
  by_cases hEarly : (raises .response || raises .cleanUp || raises .isPromise) = true
  · refine Or.inr (Or.inr ⟨by simp [call, hEarly], ?_, ?_⟩)
    · rintro ⟨-, ⟨hResponse, hCleanUp, hPromise, -⟩, -⟩
      simp [hResponse, hCleanUp, hPromise] at hEarly
    · rintro ⟨-, hResponse, hCleanUp, hPromise, -⟩
      simp [hResponse, hCleanUp, hPromise] at hEarly
  · have hStarted : raises .response = false ∧ raises .cleanUp = false ∧
        raises .isPromise = false := by
      simpa [and_assoc] using hEarly
    obtain ⟨hResponse, hCleanUp, hPromise⟩ := hStarted
    cases resp with
    | failed =>
        refine Or.inr (Or.inr ⟨by simp [call, hEarly], ?_, by simp⟩)
        rintro ⟨⟨answer, hValue⟩, -⟩
        cases hValue
    | promise =>
        cases hHandler : raises .handler with
        | true =>
            refine Or.inr (Or.inr ⟨by simp [call, hEarly, hHandler], ?_, ?_⟩)
            · rintro ⟨⟨answer, hValue⟩, -⟩
              cases hValue
            · rintro ⟨-, -, -, -, hReached⟩
              simp [hHandler] at hReached
        | false =>
            exact Or.inl ⟨rfl, ⟨hResponse, hCleanUp, hPromise, hHandler⟩,
              by simp [call, hEarly, hHandler]⟩
    | malformed =>
        refine Or.inr (Or.inr ⟨?_, ?_, by simp⟩)
        · by_cases hExit : raises .onExit = true
          · simp [call, hEarly, hExit]
          · by_cases hInvoke : raises .invoke = true
            · simp [call, hEarly, hExit, hInvoke]
            · simp [call, hEarly, hExit, hInvoke, invokeCppCallback, hAddress,
                AppOutcome.listToResponse]
        · rintro ⟨⟨answer, hValue⟩, -⟩
          cases hValue
    | returned answer =>
        by_cases hLeft : raises .onExit = true ∨ raises .invoke = true
        · refine Or.inr (Or.inr ⟨?_, ?_, by simp⟩)
          · by_cases hExit : raises .onExit = true
            · simp [call, hEarly, hExit]
            · simp [call, hEarly, hExit, hLeft.resolve_left hExit]
          · rintro ⟨-, ⟨-, -, -, hExit⟩, hInvoke, -⟩
            simp [hExit, hInvoke] at hLeft
        · have hReached : raises .onExit = false ∧ raises .invoke = false := by simpa using hLeft
          obtain ⟨hExit, hInvoke⟩ := hReached
          refine Or.inr (Or.inl ⟨answer, rfl, ⟨hResponse, hCleanUp, hPromise, hExit⟩, hInvoke, ?_⟩)
          simp [call, hEarly, hExit, hInvoke, invokeCppCallback, hAddress,
            AppOutcome.listToResponse]

end Call

section Settled

variable {callback : ResponseCallback File}

theorem settleAll_idle (hIdle : callback.handler = false)
    (outcomes : List (AppOutcome File × Tm)) : callback.settleAll outcomes = callback := by
  induction outcomes with
  | nil => rfl
  | cons settled outcomes ih =>
      have hSettle : callback.settle settled.1 settled.2 = callback := by simp [settle, hIdle]
      rw [settleAll, List.foldl_cons, hSettle]
      exact ih

theorem settle_value (hHandler : callback.handler = true) {outcome : AppOutcome File}
    (hValue : outcome.IsValue) (now : Tm) :
    callback.settle outcome now =
      ({ callback with handler := false }.invokeCppCallback (outcome.listToResponse now)).1 := by
  cases outcome with
  | returned answer => simp [settle, hHandler]
  | malformed => simp [settle, hHandler]
  | promise => cases hValue
  | failed => cases hValue

theorem settle_none (hHandler : callback.handler = true) {outcome : AppOutcome File}
    (hNone : ¬ outcome.IsValue) (now : Tm) :
    callback.settle outcome now = { callback with handler := false } := by
  cases outcome with
  | returned answer => exact absurd trivial hNone
  | malformed => exact absurd trivial hNone
  | promise => simp [settle, hHandler]
  | failed => simp [settle, hHandler]

theorem handler_invokeCppCallback (data : Option (Option (HttpResponse (Body File)))) :
    (callback.invokeCppCallback data).1.handler = callback.handler := by
  unfold invokeCppCallback
  split_ifs
  · rfl
  · cases data <;> rfl

/-- Only the first value counts. -/
theorem settleAll_cons (hHandler : callback.handler = true) (settled : AppOutcome File × Tm)
    (outcomes : List (AppOutcome File × Tm)) :
    callback.settleAll (settled :: outcomes) = callback.settle settled.1 settled.2 := by
  have hIdle : (callback.settle settled.1 settled.2).handler = false := by
    by_cases hValue : settled.1.IsValue
    · rw [settle_value hHandler hValue, handler_invokeCppCallback]
    · rw [settle_none hHandler hValue]
  exact settleAll_idle hIdle outcomes

/-- A promise that keeps its pointer does no harm. -/
theorem Counted.settleAll (h : Counted callback) (hAddress : callback.address = true)
    (hHandler : callback.handler = true) (outcomes : List (AppOutcome File × Tm)) :
    Counted (callback.settleAll outcomes) := by
  have hLeft : Counted { callback with handler := false } := ⟨h.valid, h.invoked⟩
  cases outcomes with
  | nil => exact h
  | cons settled outcomes =>
      rw [settleAll_cons hHandler]
      by_cases hValue : settled.1.IsValue
      · rw [settle_value hHandler hValue]
        exact hLeft.invokeCppCallback hAddress _
      · rw [settle_none hHandler hValue]
        exact hLeft

/-- A promise whose pointer has been cleared must not get a value. -/
theorem safe_settleAll_cleared (h : Counted callback) (hCleared : callback.address = false)
    (hHandler : callback.handler = true) (outcomes : List (AppOutcome File × Tm)) :
    (callback.settleAll outcomes).Safe ↔ ¬ ∃ settled ∈ outcomes.head?, settled.1.IsValue := by
  have hLeft : Counted { callback with handler := false } := ⟨h.valid, h.invoked⟩
  cases outcomes with
  | nil => simpa [ResponseCallback.settleAll] using h.safe
  | cons settled outcomes =>
      rw [settleAll_cons hHandler]
      by_cases hValue : settled.1.IsValue
      · have hCall := invokeCppCallback_cleared
          (show ({ callback with handler := false } : ResponseCallback File).address = false from
            hCleared) (settled.1.listToResponse settled.2)
        rw [settle_value hHandler hValue, hCall]
        constructor
        · intro hSafe
          cases hSafe.valid
        · intro hNone
          exact absurd ⟨settled, rfl, hValue⟩ hNone
      · rw [settle_none hHandler hValue]
        simpa [hValue] using hLeft.safe

end Settled

/-- An error that R has not caught is answered by the server. -/
theorem getResponse_eq {conn : Connection File} {request : Nat} {raises : CallStep → Bool}
    {bodyData : Bool} {resp : AppOutcome File} {now : Tm} {callback : ResponseCallback File}
    {raised : Bool} (hScheduled : conn.responseScheduled = false)
    (hCall : (construct (conn.observe (.call request)) request).call raises bodyData resp now =
      (callback, raised)) :
    getResponse conn request raises bodyData resp now =
      if raised then (callback.invokeCppCallback (some (some (AppAnswer.errorResponse now)))).1
      else callback := by
  simp [getResponse, hScheduled, hCall]

/-- The callback is called at most once and never through a cleared pointer exactly
when nothing is raised behind the call, nor behind the handler of a promise that
gets a value. -/
theorem safe_iff (conn : Connection File) (request : Nat) (raises : CallStep → Bool)
    (bodyData : Bool) (resp : AppOutcome File) (now : Tm)
    (outcomes : List (AppOutcome File × Tm)) :
    ((getResponse conn request raises bodyData resp now).settleAll outcomes).Safe ↔
      conn.responseScheduled = true ∨
        (¬ RaisesAfterCall raises bodyData resp ∧ ¬ RaisesAfterHandler raises resp outcomes) := by
  cases hScheduled : conn.responseScheduled with
  | true =>
      have hCounted := (Counted.construct conn request).invokeCppCallback rfl (some none)
      rw [getResponse, if_pos hScheduled, settleAll_idle rfl]
      simpa using hCounted.safe
  | false =>
      let start := construct (conn.observe (.call request)) request
      have hStart : Counted start := Counted.construct _ request
      have hAddress : start.address = true := rfl
      rcases call_cases hAddress raises bodyData resp now with
        ⟨rfl, hReached, hCall⟩ | ⟨answer, rfl, hReached, hInvoke, hCall⟩ | ⟨hCall, hNot, hOther⟩
      · have hNot : ¬ RaisesAfterCall raises bodyData (.promise : AppOutcome File) := by
          rintro ⟨⟨answer, hValue⟩, -⟩
          cases hValue
        have hHanded : Counted { start with handler := true } := ⟨hStart.valid, hStart.invoked⟩
        rw [getResponse_eq hScheduled hCall]
        cases hRaised : raises .finallyCleanUp || raises .result with
        | false =>
            have hQuiet : ¬ RaisesAfterHandler raises (.promise : AppOutcome File) outcomes := by
              rintro ⟨-, -, hLate, -⟩
              simp only [Bool.or_eq_false_iff] at hRaised
              simp [hRaised] at hLate
            simpa [hNot, hQuiet] using (hHanded.settleAll rfl rfl outcomes).safe
        | true =>
            have hLate : raises .finallyCleanUp = true ∨ raises .result = true := by
              simpa using hRaised
            have hCleared := safe_settleAll_cleared
              (hHanded.invokeCppCallback rfl (some (some (AppAnswer.errorResponse now)))) rfl rfl
              outcomes
            have hCondition : RaisesAfterHandler raises (.promise : AppOutcome File) outcomes ↔
                ∃ settled ∈ outcomes.head?, settled.1.IsValue := by
              simp [RaisesAfterHandler, hReached, hLate]
            rw [if_pos rfl, hCleared, hCondition]
            simp [hNot]
      · have hNot : ¬ RaisesAfterHandler raises (.returned answer) outcomes := by
          rintro ⟨hValue, -⟩
          cases hValue
        have hCalled := hStart.invokeCppCallback hAddress
          (some (answer.map (AppAnswer.toResponse now)))
        have hCondition : RaisesAfterCall raises bodyData (.returned answer) ↔
            (raises .result || (bodyData && raises .close)) = true := by
          simp [RaisesAfterCall, hReached, hInvoke]
        rw [getResponse_eq hScheduled hCall, hCondition]
        cases hRaised : raises .result || (bodyData && raises .close) with
        | false =>
            rw [if_neg (by simp), settleAll_idle rfl]
            simpa [hNot] using hCalled.safe
        | true =>
            rw [if_pos rfl, settleAll_idle rfl, invokeCppCallback_cleared rfl]
            constructor
            · intro hSafe
              cases hSafe.valid
            · simp
      · have hQuiet : ¬ RaisesAfterHandler raises resp outcomes := by
          rintro ⟨hPromise, hReached, -⟩
          exact hOther ⟨hPromise, hReached⟩
        have hCalled := hStart.invokeCppCallback hAddress (some (some (AppAnswer.errorResponse now)))
        rw [getResponse_eq hScheduled hCall, if_pos rfl, settleAll_idle rfl]
        simpa [hNot, hQuiet] using hCalled.safe

/-- Unless something is raised late, the request is left as by one outcome of the
application, with the promise among those that are waited for. -/
theorem conn_getResponse {conn : Connection File} {request : Nat} {raises : CallStep → Bool}
    {bodyData : Bool} {resp : AppOutcome File} {now : Tm}
    (hCall : ¬ RaisesAfterCall raises bodyData resp)
    (hHandler : ¬ (resp = .promise ∧ Reaches raises .handler ∧
      (raises .finallyCleanUp || raises .result) = true)) :
    let callback := getResponse conn request raises bodyData resp now
    ∃ outcome, (outcome = resp ∨ outcome = .failed) ∧
      { callback.conn with
        promises := conn.promises ++ if callback.handler then [request] else [] } =
        conn.getResponse request outcome now := by
  cases hScheduled : conn.responseScheduled with
  | true =>
      refine ⟨.failed, Or.inr rfl, ?_⟩
      simp [getResponse, Connection.getResponse, hScheduled, invokeCppCallback, construct,
        Connection.scheduleMessageCompleteComplete, Connection.push]
  | false =>
      have hAddress : (construct (conn.observe (.call request)) request).address = true := rfl
      rcases call_cases hAddress raises bodyData resp now with
        ⟨rfl, hReached, hResult⟩ | ⟨answer, rfl, hReached, hInvoke, hResult⟩ | ⟨hResult, -, -⟩
      · have hQuiet : (raises .finallyCleanUp || raises .result) = false := by
          simpa [hReached] using hHandler
        refine ⟨.promise, Or.inl rfl, ?_⟩
        rw [getResponse_eq hScheduled hResult, hQuiet]
        simp [Connection.getResponse, hScheduled, construct, Connection.observe]
      · have hQuiet : (raises .result || (bodyData && raises .close)) = false := by
          simpa [RaisesAfterCall, hReached, hInvoke] using hCall
        refine ⟨.returned answer, Or.inl rfl, ?_⟩
        rw [getResponse_eq hScheduled hResult, hQuiet]
        simp [Connection.getResponse, hScheduled, construct, invokeCppCallback, Connection.observe,
          Connection.scheduleMessageCompleteComplete, Connection.push]
      · refine ⟨.failed, Or.inr rfl, ?_⟩
        rw [getResponse_eq hScheduled hResult]
        simp [Connection.getResponse, hScheduled, construct, invokeCppCallback, Connection.observe,
          Connection.scheduleMessageCompleteComplete, Connection.push]

omit [HttpParser] [Zlib] in
/-- The application has closed the connection of the request body itself, so that
`clean_up` fails behind the call. -/
theorem dangling_clean_up :
    let _ : HttpParser := httpParser
    let _ : Zlib := HttpResponse.SampleStream.zlib
    let conn : Connection InMemoryDataSource :=
      .fresh WSHixie76Parser.textInfo WSHixie76Parser.textInfo
    let callback := getResponse conn 0 (fun step => step = .close) true (.returned none) .epoch
    callback.invoked = 1 ∧ callback.dangling = true ∧ ¬ callback.Safe := by
  intro parser zlib conn callback
  refine ⟨rfl, rfl, ?_⟩
  intro hSafe
  cases hSafe.valid

end ResponseCallback

end Httpuv
