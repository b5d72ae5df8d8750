import Httpuv.Http.History

/-! The life of one request between the parser, the two queues and the promises of
the application. Nothing here looks at a connection. -/
namespace Httpuv

/-- What is left to do for the current request, and what has been done. -/
structure Exchange (File : Type) where
  phase : ParserPhase
  mainTasks : List MainTask
  backgroundTasks : List (BackgroundTask File)
  promises : List Nat
  responseScheduled : Bool
  ignoreNewData : Bool
  isUpgrade : Bool
  history : List (RequestEvent File)

/-- The body that has arrived but has not been looked at. The call comes last. -/
inductive Arrived (request : Nat) : ParserPhase → List MainTask → Prop
  | receiving : Arrived request .body []
  | received : Arrived request .between [.getResponse request]
  | cons {phase : ParserPhase} {tasks : List MainTask} (data : Bytes)
      (hRest : Arrived request phase tasks) :
      Arrived request phase (.onBodyData request data :: tasks)

/-- What is left of a request whose body has failed. The call is skipped. -/
inductive Remaining {File : Type} (request : Nat) :
    ParserPhase → List MainTask → List (BackgroundTask File) → Prop
  | arrived {phase : ParserPhase} {tasks : List MainTask} (hArrived : Arrived request phase tasks) :
      Remaining request phase tasks []
  | skipped : Remaining request .between [] [.onMessageCompleteComplete request none]
  | finished : Remaining request .between [] []

/-- Only body data has been looked at, without an error. -/
def Taken {File : Type} (history : List (RequestEvent File)) : Prop :=
  ∀ event ∈ history, event = .onBodyData false

/-- A response that is not `100 Continue`. -/
def RequestEvent.isResponse {File : Type} : RequestEvent File → Bool
  | .switching | .final _ _ => true
  | _ => false

/-- What may be done for a request in the end. -/
inductive Course {File : Type} : List (RequestEvent File) → Prop
  | unanswered {history : List (RequestEvent File)} (hTaken : Taken history) : Course history
  | answered (response : HttpResponse (Body File)) : Course [.answered response]
  | refused (response answer : HttpResponse (Body File)) (serial : Nat) :
      Course [.answered response, .final serial answer]
  | failing {history : List (RequestEvent File)} (hTaken : Taken history) :
      Course (history ++ [.onBodyData true])
  | failed {history : List (RequestEvent File)} (hTaken : Taken history) (serial : Nat) (now : Tm) :
      Course (history ++ [.onBodyData true,
        .final serial (AppAnswer.errorResponse now).requestClose])
  | called {history : List (RequestEvent File)} (hTaken : Taken history) :
      Course (history ++ [.call])
  | completed {history : List (RequestEvent File)} (hTaken : Taken history) (serial : Nat)
      (response : HttpResponse (Body File)) : Course (history ++ [.call, .final serial response])

/-- Where a request can be. A request whose `onHeaders` gives no answer that can
be used stays with the parser waiting. -/
inductive Stage {File : Type} (request : Nat) : Exchange File → Prop
  | idle {phase : ParserPhase} {scheduled ignore : Bool} {history : List (RequestEvent File)}
      (hPhase : phase = .between ∨ phase = .refused) (hCourse : Course history)
      (hUnfailed : .onBodyData true ∉ history) :
      Stage request ⟨phase, [], [], [], scheduled, ignore, false, history⟩
  | head : Stage request ⟨.head, [], [], [], false, false, false, []⟩
  | deciding {upgrade : Bool} :
      Stage request ⟨.waiting, [.onHeaders request], [], [], false, false, upgrade, []⟩
  | undecided {upgrade : Bool} : Stage request ⟨.waiting, [], [], [], false, false, upgrade, []⟩
  | passed {upgrade : Bool} : Stage request ⟨.waiting, [],
      [.onHeadersCompleteComplete request none], [], false, false, upgrade, []⟩
  | answered {upgrade scheduled : Bool} {response : HttpResponse (Body File)} :
      Stage request ⟨.waiting, [], [.onHeadersCompleteComplete request (some response)], [],
        scheduled, false, upgrade, [.answered response]⟩
  | body {phase : ParserPhase} {tasks : List MainTask} {history : List (RequestEvent File)}
      (hArrived : Arrived request phase tasks) (hTaken : Taken history) :
      Stage request ⟨phase, tasks, [], [], false, false, false, history⟩
  | failing {phase : ParserPhase} {tasks : List MainTask} {skipped : List (BackgroundTask File)}
      {history : List (RequestEvent File)} {now : Tm}
      (hRemaining : Remaining request phase tasks skipped) (hTaken : Taken history) :
      Stage request ⟨phase, tasks, .onBodyError request (AppAnswer.errorResponse now) :: skipped,
        [], true, false, false, history ++ [.onBodyData true]⟩
  | failed {phase : ParserPhase} {tasks : List MainTask} {skipped : List (BackgroundTask File)}
      {history : List (RequestEvent File)} {serial : Nat} {now : Tm}
      (hRemaining : Remaining request phase tasks skipped) (hTaken : Taken history) :
      Stage request ⟨phase, tasks, skipped, [], true, true, false,
        history ++ [.onBodyData true, .final serial (AppAnswer.errorResponse now).requestClose]⟩
  | called {response : Option (HttpResponse (Body File))} {history : List (RequestEvent File)}
      (hTaken : Taken history) :
      Stage request ⟨.between, [], [.onMessageCompleteComplete request response], [], true, false,
        false, history ++ [.call]⟩
  | promised {history : List (RequestEvent File)} (hTaken : Taken history) :
      Stage request ⟨.between, [], [], [request], false, false, false, history ++ [.call]⟩

variable {File : Type} {request owner : Nat} {phase : ParserPhase} {tasks : List MainTask}
  {skipped rest : List (BackgroundTask File)} {promises : List Nat} {scheduled ignore upgrade : Bool}
  {history : List (RequestEvent File)}

theorem Taken.concat (h : Taken history) : Taken (history ++ [.onBodyData false]) := by
  intro event hMem
  rcases List.mem_append.1 hMem with hMem | hMem
  · exact h event hMem
  · exact List.mem_singleton.1 hMem

theorem Taken.unfailed (h : Taken history) : .onBodyData true ∉ history :=
  fun hMem => by simpa using h _ hMem

theorem Arrived.onBody (h : Arrived request .body tasks) (data : Bytes) :
    Arrived request .body (tasks ++ [.onBodyData request data]) := by
  generalize hPhase : ParserPhase.body = phase at h
  induction h with
  | receiving => exact .cons data .receiving
  | received => cases hPhase
  | cons other hRest ih => exact .cons other (ih hPhase)

theorem Arrived.onMessageComplete (h : Arrived request .body tasks) :
    Arrived request .between (tasks ++ [.getResponse request]) := by
  generalize hPhase : ParserPhase.body = phase at h
  induction h with
  | receiving => exact .received
  | received => cases hPhase
  | cons other hRest ih => exact .cons other (ih hPhase)

theorem Taken.isResponse (h : Taken history) : history.countP RequestEvent.isResponse = 0 := by
  rw [List.countP_eq_zero]
  intro event hMem hResponse
  rw [h event hMem] at hResponse
  cases hResponse

namespace Course

theorem one_response (h : Course history) : history.countP RequestEvent.isResponse ≤ 1 := by
  cases h with
  | unanswered hTaken => simp [hTaken.isResponse]
  | answered response => simp [RequestEvent.isResponse]
  | refused response answer serial => simp [RequestEvent.isResponse]
  | failing hTaken => simp [hTaken.isResponse, RequestEvent.isResponse]
  | failed hTaken serial now => simp [hTaken.isResponse, RequestEvent.isResponse]
  | called hTaken => simp [hTaken.isResponse, RequestEvent.isResponse]
  | completed hTaken serial response => simp [hTaken.isResponse, RequestEvent.isResponse]

theorem not_switching (h : Course history) : .switching ∉ history := by
  have hNot : ∀ {taken : List (RequestEvent File)}, Taken taken → .switching ∉ taken :=
    fun hTaken hMem => by cases hTaken _ hMem
  cases h with
  | unanswered hTaken => exact hNot hTaken
  | answered response => simp
  | refused response answer serial => simp
  | failing hTaken => simp [hNot hTaken]
  | failed hTaken serial now => simp [hNot hTaken]
  | called hTaken => simp [hNot hTaken]
  | completed hTaken serial response => simp [hNot hTaken]

/-- The application is not asked again about a request that has been answered. -/
theorem of_answered {response : HttpResponse (Body File)} (h : Course history)
    (hAnswered : .answered response ∈ history) :
    (∀ failed, .onBodyData failed ∉ history) ∧ .call ∉ history := by
  have hNot : ∀ {taken : List (RequestEvent File)}, Taken taken → .answered response ∉ taken :=
    fun hTaken hMem => by cases hTaken _ hMem
  cases h with
  | unanswered hTaken => exact absurd hAnswered (hNot hTaken)
  | answered response => simp
  | refused response answer serial => simp
  | failing hTaken => simp [hNot hTaken] at hAnswered
  | failed hTaken serial now => simp [hNot hTaken] at hAnswered
  | called hTaken => simp [hNot hTaken] at hAnswered
  | completed hTaken serial response => simp [hNot hTaken] at hAnswered

end Course

theorem Arrived.phase_eq (h : Arrived request phase tasks) : phase = .body ∨ phase = .between := by
  induction h with
  | receiving => exact Or.inl rfl
  | received => exact Or.inr rfl
  | cons data hRest ih => exact ih

theorem Remaining.phase_eq (h : Remaining request phase tasks skipped) :
    phase = .body ∨ phase = .between := by
  cases h with
  | arrived hArrived => exact hArrived.phase_eq
  | skipped => exact Or.inr rfl
  | finished => exact Or.inr rfl

theorem Remaining.onBody (h : Remaining request .body tasks skipped) (data : Bytes) :
    Remaining request .body (tasks ++ [.onBodyData request data]) skipped := by
  cases h with
  | arrived hArrived => exact .arrived (hArrived.onBody data)

theorem Remaining.onMessageComplete (h : Remaining request .body tasks skipped) :
    Remaining request .between (tasks ++ [.getResponse request]) skipped := by
  cases h with
  | arrived hArrived => exact .arrived hArrived.onMessageComplete

namespace Stage

theorem course {exchange : Exchange File} (h : Stage request exchange) :
    Course exchange.history := by
  have hNone : Taken ([] : List (RequestEvent File)) := by simp [Taken]
  cases h with
  | idle hPhase hCourse hUnfailed => exact hCourse
  | head => exact .unanswered hNone
  | deciding => exact .unanswered hNone
  | undecided => exact .unanswered hNone
  | passed => exact .unanswered hNone
  | answered => exact .answered _
  | body hArrived hTaken => exact .unanswered hTaken
  | failing hRemaining hTaken => exact .failing hTaken
  | failed hRemaining hTaken => exact .failed hTaken _ _
  | called hTaken => exact .called hTaken
  | promised hTaken => exact .called hTaken

/-- After an error nothing is done but to send the response to it. -/
theorem of_failed {exchange : Exchange File} (h : Stage request exchange)
    (hFailed : .onBodyData true ∈ exchange.history) : ∃ taken, Taken taken ∧
      ((∃ now, exchange.history = taken ++ [.onBodyData true] ∧
          .onBodyError request (AppAnswer.errorResponse now) ∈ exchange.backgroundTasks) ∨
        exchange.ignoreNewData = true ∧ ∃ serial now, exchange.history = taken ++
          [.onBodyData true, .final serial (AppAnswer.errorResponse now).requestClose]) := by
  cases h with
  | idle hPhase hCourse hUnfailed => exact absurd hFailed hUnfailed
  | body hArrived hTaken => exact absurd hFailed hTaken.unfailed
  | failing hRemaining hTaken => exact ⟨_, hTaken, Or.inl ⟨_, rfl, List.mem_cons_self⟩⟩
  | failed hRemaining hTaken => exact ⟨_, hTaken, Or.inr ⟨rfl, _, _, rfl⟩⟩
  | called hTaken => simp [hTaken.unfailed] at hFailed
  | promised hTaken => simp [hTaken.unfailed] at hFailed
  | _ => simp at hFailed

/-- An upgrade does not go on behind its headers. -/
theorem upgrade_waiting
    (h : Stage request ⟨phase, tasks, rest, promises, scheduled, ignore, true, history⟩) :
    phase = .waiting := by
  cases h <;> rfl

/-! What the parser reports. -/

/-- The next request begins when this one has its response, and nothing is left
of it then. -/
theorem onMessageBegin
    (h : Stage request ⟨.between, tasks, rest, promises, scheduled, false, upgrade, history⟩)
    (hFinal : ∃ serial response, .final serial response ∈ history) :
    tasks = [] ∧ rest = [] ∧ promises = [] ∧ upgrade = false ∧ .onBodyData true ∉ history := by
  obtain ⟨serial, response, hMem⟩ := hFinal
  have hOther : ∀ {taken : List (RequestEvent File)} {last : RequestEvent File}, Taken taken →
      .final serial response ∈ taken ++ [last] → .final serial response = last := by
    intro taken last hTaken hMem
    rcases List.mem_append.1 hMem with hMem | hMem
    · cases hTaken _ hMem
    · exact List.mem_singleton.1 hMem
  cases h with
  | idle hPhase hCourse hUnfailed => exact ⟨rfl, rfl, rfl, rfl, hUnfailed⟩
  | body hArrived hTaken => cases hTaken _ hMem
  | failing hRemaining hTaken => cases hOther hTaken hMem
  | called hTaken => cases hOther hTaken hMem
  | promised hTaken => cases hOther hTaken hMem

theorem onHeadersComplete
    (h : Stage request ⟨.head, tasks, rest, promises, scheduled, ignore, upgrade, history⟩) :
    tasks = [] ∧ rest = [] ∧ promises = [] ∧ scheduled = false ∧ ignore = false ∧
      upgrade = false ∧ history = [] := by
  cases h with
  | idle hPhase hCourse hUnfailed => simp at hPhase
  | head => simp
  | body hArrived hTaken => simpa using hArrived.phase_eq
  | failing hRemaining hTaken => simpa using hRemaining.phase_eq
  | failed hRemaining hTaken => simpa using hRemaining.phase_eq

theorem onBody
    (h : Stage request ⟨.body, tasks, rest, promises, scheduled, ignore, upgrade, history⟩)
    (data : Bytes) : Stage request ⟨.body, tasks ++ [.onBodyData request data], rest, promises,
      scheduled, ignore, upgrade, history⟩ := by
  cases h with
  | idle hPhase hCourse hUnfailed => simp at hPhase
  | body hArrived hTaken => exact .body (hArrived.onBody data) hTaken
  | failing hRemaining hTaken => exact .failing (hRemaining.onBody data) hTaken
  | failed hRemaining hTaken => exact .failed (hRemaining.onBody data) hTaken

theorem onMessageComplete
    (h : Stage request ⟨.body, tasks, rest, promises, scheduled, ignore, upgrade, history⟩) :
    upgrade = false ∧ Stage request ⟨.between, tasks ++ [.getResponse request], rest, promises,
      scheduled, ignore, upgrade, history⟩ := by
  cases h with
  | idle hPhase hCourse hUnfailed => simp at hPhase
  | body hArrived hTaken => exact ⟨rfl, .body hArrived.onMessageComplete hTaken⟩
  | failing hRemaining hTaken => exact ⟨rfl, .failing hRemaining.onMessageComplete hTaken⟩
  | failed hRemaining hTaken => exact ⟨rfl, .failed hRemaining.onMessageComplete hTaken⟩

/-- The rest of a refused message is dropped. -/
theorem dropped
    (h : Stage request ⟨.refused, tasks, rest, promises, scheduled, ignore, upgrade, history⟩) :
    Stage request ⟨.between, tasks, rest, promises, scheduled, ignore, upgrade, history⟩ := by
  cases h with
  | idle hPhase hCourse hUnfailed => exact .idle (Or.inl rfl) hCourse hUnfailed
  | body hArrived hTaken => simpa using hArrived.phase_eq
  | failing hRemaining hTaken => simpa using hRemaining.phase_eq
  | failed hRemaining hTaken => simpa using hRemaining.phase_eq

/-! The callbacks of the main thread. -/

theorem onHeaders (h : Stage request ⟨phase, .onHeaders owner :: tasks, rest, promises, scheduled,
      ignore, upgrade, history⟩) :
    owner = request ∧
      Stage request ⟨phase, tasks, rest, promises, scheduled, ignore, upgrade, history⟩ ∧
      ∀ response : Option (HttpResponse (Body File)), Stage request ⟨phase, tasks,
        rest ++ [.onHeadersCompleteComplete owner response], promises,
        scheduled || response.isSome, ignore, upgrade,
        history ++ response.toList.map RequestEvent.answered⟩ := by
  cases h with
  | deciding =>
      refine ⟨rfl, .undecided, fun response => ?_⟩
      cases response with
      | none => exact .passed
      | some response => exact .answered
  | body hArrived hTaken => cases hArrived
  | failing hRemaining hTaken =>
      cases hRemaining with
      | arrived hArrived => cases hArrived
  | failed hRemaining hTaken =>
      cases hRemaining with
      | arrived hArrived => cases hArrived

/-- Data of a request that is to be refused is thrown away. -/
theorem bodySkipped {data : Bytes} (h : Stage request ⟨phase, .onBodyData owner data :: tasks, rest,
      promises, true, ignore, upgrade, history⟩) :
    Stage request ⟨phase, tasks, rest, promises, true, ignore, upgrade, history⟩ := by
  cases h with
  | failing hRemaining hTaken =>
      cases hRemaining with
      | arrived hArrived =>
          cases hArrived with
          | cons data hRest => exact .failing (.arrived hRest) hTaken
  | failed hRemaining hTaken =>
      cases hRemaining with
      | arrived hArrived =>
          cases hArrived with
          | cons data hRest => exact .failed (.arrived hRest) hTaken

theorem onBodyData {data : Bytes} (h : Stage request ⟨phase, .onBodyData owner data :: tasks, rest,
      promises, false, ignore, upgrade, history⟩) :
    owner = request ∧
      Stage request ⟨phase, tasks, rest, promises, false, ignore, upgrade,
        history ++ [.onBodyData false]⟩ ∧
      ∀ now, Stage request ⟨phase, tasks,
        rest ++ [.onBodyError owner (AppAnswer.errorResponse now)], promises, true, ignore, upgrade,
        history ++ [.onBodyData true]⟩ := by
  cases h with
  | body hArrived hTaken =>
      cases hArrived with
      | cons data hRest =>
          exact ⟨rfl, .body hRest hTaken.concat, fun now => .failing (.arrived hRest) hTaken⟩

/-- Data that is looked at has only data before it. -/
theorem onBodyData_taken {data : Bytes} (h : Stage request ⟨phase, .onBodyData owner data :: tasks,
      rest, promises, false, ignore, upgrade, history⟩) : Taken history := by
  cases h with
  | body hArrived hTaken => exact hTaken

theorem callSkipped (h : Stage request ⟨phase, .getResponse owner :: tasks, rest, promises, true,
      ignore, upgrade, history⟩) :
    Stage request ⟨phase, tasks, rest ++ [.onMessageCompleteComplete owner none], promises, true,
      ignore, upgrade, history⟩ := by
  cases h with
  | failing hRemaining hTaken =>
      cases hRemaining with
      | arrived hArrived =>
          cases hArrived with
          | received => exact .failing .skipped hTaken
  | failed hRemaining hTaken =>
      cases hRemaining with
      | arrived hArrived =>
          cases hArrived with
          | received => exact .failed .skipped hTaken

theorem getResponse (h : Stage request ⟨phase, .getResponse owner :: tasks, rest, promises, false,
      ignore, upgrade, history⟩) :
    owner = request ∧
      Stage request ⟨phase, tasks, rest, promises ++ [owner], false, ignore, upgrade,
        history ++ [.call]⟩ ∧
      ∀ response, Stage request ⟨phase, tasks,
        rest ++ [.onMessageCompleteComplete owner response], promises, true, ignore, upgrade,
        history ++ [.call]⟩ := by
  cases h with
  | body hArrived hTaken =>
      cases hArrived with
      | received => exact ⟨rfl, .promised hTaken, fun response => .called hTaken⟩

/-- A promise is settled with a value, or is given up. -/
theorem settle {index : Nat} (h : Stage request ⟨phase, tasks, rest, promises, scheduled, ignore,
      upgrade, history⟩) (hPromise : promises[index]? = some owner) :
    owner = request ∧
      Stage request ⟨phase, tasks, rest, promises.eraseIdx index, scheduled, ignore, upgrade,
        history⟩ ∧
      ∀ response, Stage request ⟨phase, tasks,
        rest ++ [.onMessageCompleteComplete owner response], promises.eraseIdx index, true, ignore,
        upgrade, history⟩ := by
  cases h with
  | promised hTaken =>
      cases index with
      | zero =>
          obtain rfl := Option.some.inj hPromise
          refine ⟨rfl, .idle (Or.inl rfl) (.called hTaken) ?_, fun response => .called hTaken⟩
          simp [hTaken.unfailed]
      | succ index => simp at hPromise
  | _ => simp at hPromise

/-! The callbacks of the background queue. -/

theorem headersCompleted {response : Option (HttpResponse (Body File))}
    (h : Stage request ⟨phase, tasks, .onHeadersCompleteComplete owner response :: rest, promises,
      scheduled, ignore, upgrade, history⟩) :
    owner = request ∧ phase = .waiting ∧ tasks = [] ∧ rest = [] ∧ promises = [] ∧
      ignore = false ∧ (response = none → scheduled = false) ∧
      history = response.toList.map RequestEvent.answered := by
  cases h with
  | passed => simp
  | answered => simp
  | failed hRemaining hTaken => cases hRemaining

theorem onBodyError {response : HttpResponse (Body File)}
    (h : Stage request ⟨phase, tasks, .onBodyError owner response :: rest, promises, scheduled,
      ignore, upgrade, history⟩) (serial : Nat) :
    owner = request ∧ upgrade = false ∧
      Stage request ⟨phase, tasks, rest, promises, scheduled, true, upgrade,
        history ++ [.final serial response.requestClose]⟩ := by
  cases h with
  | failing hRemaining hTaken =>
      refine ⟨rfl, rfl, ?_⟩
      rw [List.append_assoc]
      exact .failed hRemaining hTaken
  | failed hRemaining hTaken => cases hRemaining

theorem onBodyError_phase {response : HttpResponse (Body File)}
    (h : Stage request ⟨phase, tasks, .onBodyError owner response :: rest, promises, scheduled,
      ignore, upgrade, history⟩) : phase = .body ∨ phase = .between := by
  cases h with
  | failing hRemaining hTaken => exact hRemaining.phase_eq
  | failed hRemaining hTaken => exact hRemaining.phase_eq

theorem onMessageCompleteComplete_phase {response : Option (HttpResponse (Body File))}
    (h : Stage request ⟨phase, tasks, .onMessageCompleteComplete owner response :: rest, promises,
      scheduled, ignore, upgrade, history⟩) : phase = .body ∨ phase = .between := by
  cases h with
  | failed hRemaining hTaken => exact hRemaining.phase_eq
  | called hTaken => exact Or.inr rfl

/-- A response of the application comes behind no error. -/
theorem onMessageCompleteComplete_unfailed {answer : HttpResponse (Body File)}
    (h : Stage request ⟨phase, tasks, .onMessageCompleteComplete owner (some answer) :: rest,
      promises, scheduled, ignore, upgrade, history⟩) : .onBodyData true ∉ history := by
  cases h with
  | failed hRemaining hTaken => cases hRemaining
  | called hTaken => simp [hTaken.unfailed]

theorem onMessageCompleteComplete {response : Option (HttpResponse (Body File))}
    (h : Stage request ⟨phase, tasks, .onMessageCompleteComplete owner response :: rest, promises,
      scheduled, ignore, upgrade, history⟩) :
    owner = request ∧
      Stage request ⟨phase, tasks, rest, promises, scheduled, ignore, upgrade, history⟩ ∧
      ∀ stopped serial answer, response.isSome → Stage request ⟨phase, tasks, rest, promises,
        scheduled, stopped, upgrade, history ++ [.final serial answer]⟩ := by
  cases h with
  | failed hRemaining hTaken =>
      cases hRemaining with
      | skipped => exact ⟨rfl, .failed .finished hTaken, by simp⟩
  | called hTaken =>
      refine ⟨rfl, .idle (Or.inl rfl) (.called hTaken) ?_, fun stopped serial answer _ => ?_⟩
      · simp [hTaken.unfailed]
      · rw [List.append_assoc]
        exact .idle (Or.inl rfl) (.completed hTaken serial answer) (by simp [hTaken.unfailed])

end Stage

end Httpuv
