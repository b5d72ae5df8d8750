import Httpuv.Http.SwitchedRuns

/-! A response of `onHeaders` to a request that asks for an upgrade. -/
namespace Httpuv

open Semantics

namespace Observation

variable {File : Type}

/-- The entries about the headers of a request, the responses to it and its upgrade. -/
def Concerns (request : Nat) : Observation File → Prop
  | .onHeadersComplete owner _ => owner = request
  | .answeredInHeaders owner _ => owner = request
  | .writeResponse owner _ _ _ => owner = request
  | .accept owner _ => owner = request
  | _ => False

/-- Entries of the headers, which come before any response. -/
def IsOfHeaders : Observation File → Prop
  | .onHeadersComplete _ _ | .answeredInHeaders _ _ => True
  | _ => False

theorem IsQuiet.apart {entry : Observation File} (h : entry.IsQuiet) (owner : Option Nat) :
    ¬ entry.IsOfHeaders ∧ (∀ leftover, entry ≠ .handshake leftover) ∧
      ∀ request, entry.Concerns request → owner = some request := by
  refine ⟨?_, ?_, ?_⟩
  · cases entry <;> first | exact id | exact absurd h id
  · rintro leftover rfl
    exact h
  · cases entry <;> first | exact fun _ hConcerns => hConcerns.elim | exact absurd h id

end Observation

/-- The requests that ask for an upgrade. -/
def upgrades {File : Type} (log : List (Observation File)) : List Nat :=
  log.filterMap (fun entry => match entry with
    | .onHeadersComplete request true => some request
    | _ => none)

theorem mem_upgrades {File : Type} {request : Nat} {log : List (Observation File)} :
    request ∈ upgrades log ↔ .onHeadersComplete request true ∈ log := by
  rw [upgrades, List.mem_filterMap]
  constructor
  · rintro ⟨entry, hMem, hEntry⟩
    split at hEntry
    · obtain rfl := Option.some.inj hEntry
      exact hMem
    · cases hEntry
  · exact fun hMem => ⟨_, hMem, rfl⟩

/-- The answers to a request in its headers. -/
def answers {File : Type} (request : Nat) (log : List (Observation File)) :
    List (HttpResponse (Body File)) :=
  log.filterMap (fun entry => match entry with
    | .answeredInHeaders owner response => if owner = request then some response else none
    | _ => none)

theorem answered_of_mem {File : Type} {request : Nat} {response : HttpResponse (Body File)}
    {log : List (Observation File)} (h : response ∈ answers request log) :
    .answeredInHeaders request response ∈ log := by
  obtain ⟨entry, hMem, hEntry⟩ := List.mem_filterMap.1 h
  split at hEntry
  · obtain ⟨rfl, hSame⟩ := Option.ite_none_right_eq_some.1 hEntry
    obtain rfl := Option.some.inj hSame
    exact hMem
  · cases hEntry

/-- All calls of `writeResponse` for a request. -/
def responses {File : Type} (request : Nat) (log : List (Observation File)) :
    List (ResponseKind × HttpResponse (Body File)) :=
  log.filterMap (fun entry => match entry with
    | .writeResponse owner _ kind response => if owner = request then some (kind, response) else none
    | _ => none)

section Responses

variable {File : Type} {request : Nat} {log entries : List (Observation File)}

theorem responses_append :
    responses request (log ++ entries) = responses request log ++ responses request entries :=
  List.filterMap_append

theorem responses_eq_nil
    (h : ∀ serial kind response, .writeResponse request serial kind response ∉ entries) :
    responses request entries = [] := by
  rw [responses, List.filterMap_eq_nil_iff]
  intro entry hMem
  cases entry with
  | writeResponse owner serial kind response =>
      by_cases hOwner : owner = request
      · subst hOwner
        exact absurd hMem (h serial kind response)
      · exact if_neg hOwner
  | _ => rfl

theorem responses_apart (h : ∀ entry ∈ entries, ¬ entry.Concerns request) :
    responses request (log ++ entries) = responses request log := by
  rw [responses_append, responses_eq_nil (fun _ _ _ hMem => h _ hMem rfl), List.append_nil]

end Responses

/-- The request that a task answers in its headers. -/
def BackgroundTask.answered {File : Type} : BackgroundTask File → Option Nat
  | .onHeadersCompleteComplete request (some _) => some request
  | _ => none

namespace Connection

variable {File : Type} [HttpParser] [Zlib]

/-- Something is still to be done for a request. -/
def HasTask (conn : Connection File) (request : Nat) : Prop :=
  (∃ task ∈ conn.mainTasks, task.ofRequest = some request) ∨
    (∃ task ∈ conn.backgroundTasks, task.ofRequest = some request) ∨ request ∈ conn.promises

/-- Nothing is to be done or has been done for a request. -/
structure Untouched (conn : Connection File) (request : Nat) : Prop where
  tasks : ¬ conn.HasTask request
  entries : ∀ entry ∈ conn.log, ¬ entry.Concerns request

/-- The current request is at its headers. What the application says about them
is on its way to the parser. -/
structure Deciding (conn : Connection File) : Prop where
  main : ∀ task ∈ conn.mainTasks, task.ofRequest = some conn.current →
    task = .onHeaders conn.current
  background : ∀ task ∈ conn.backgroundTasks, task.ofRequest = some conn.current →
    ∃ response, task = .onHeadersCompleteComplete conn.current response
  promises : conn.current ∉ conn.promises
  entries : ∀ entry ∈ conn.log, entry.Concerns conn.current → entry.IsOfHeaders
  answered : ∀ response, .answeredInHeaders conn.current response ∈ conn.log →
    .onHeadersCompleteComplete conn.current (some response) ∈ conn.backgroundTasks

/-- Requests are numbered in the order in which they begin. -/
structure Numbered (phase : ParserPhase) (conn : Connection File) : Prop where
  future : ∀ request, conn.current < request → conn.Untouched request
  waiting : phase = .waiting → conn.Deciding
  flagged : ∀ request, .onHeadersComplete request true ∈ conn.log → conn.isUpgrade = true
  handshake : ∀ leftover, .handshake leftover ∈ conn.log → conn.protocol = .webSockets

/-- The response is all that comes of an upgrade. `asked` tells whether `accept`
may be asked in vain. -/
structure Refused (asked : Prop) (conn : Connection File) (request : Nat)
    (response : HttpResponse (Body File)) : Prop where
  responses : responses request conn.log = [] ∨ ∃ closing : Bool,
    responses request conn.log = [(.final, if closing then response.requestClose else response)]
  accept : ∀ accepted, .accept request accepted ∈ conn.log → asked ∧ accepted = false
  handshake : ∀ leftover, .handshake leftover ∉ conn.log
  webSockets : ¬ conn.UsesWebSocket

/-- A refused upgrade that nothing is left of. -/
structure Over (asked : Prop) (conn : Connection File) (request : Nat)
    (response : HttpResponse (Body File)) : Prop where
  refused : Refused asked conn request response
  tasks : ¬ conn.HasTask request
  isClosing : conn.isClosing = true
  decisions : conn.decisions = []

/-- The upgrades that have been answered in their headers are refused, or the
answer has not come back yet. -/
def Declining (asked : Prop) (phase : ParserPhase) (conn : Connection File) : Prop :=
  ∀ request response, .onHeadersComplete request true ∈ conn.log →
    .answeredInHeaders request response ∈ conn.log →
      phase = .waiting ∧ request = conn.current ∨ Over asked conn request response

/-- Something is to be done for a request behind its headers. -/
def HasBodyTask (conn : Connection File) (request : Nat) : Prop :=
  (∃ task ∈ conn.mainTasks, task.ofRequest = some request ∧ task.decision = none) ∨
    (∃ task ∈ conn.backgroundTasks, task.ofRequest = some request ∧ task.decision = none) ∨
    request ∈ conn.promises

/-- Only the call itself is about the request. -/
theorem Wrote.isQuiet [DataSource File] {conn after : Connection File} {request : Nat}
    {kind : ResponseKind} {response : HttpResponse (Body File)} {entries : List (Observation File)}
    (h : Wrote conn after request kind response entries) : ∀ entry ∈ entries, entry.IsQuiet := by
  rcases h.entries with ⟨-, rfl⟩ | ⟨-, written, -, rfl⟩
  · simp [Observation.IsQuiet]
  · cases written.drained <;> simp [pieces, Observation.IsQuiet]

/-- Nothing happens about headers and upgrades, and at most something for one
request, the owner. -/
structure Minor (owner : Option Nat) (conn after : Connection File) : Prop where
  current : after.current = conn.current
  protocol : after.protocol = conn.protocol
  isUpgrade : after.isUpgrade = conn.isUpgrade
  isClosing : conn.isClosing = true → after.isClosing = true
  reading : after.reading = true → conn.reading = true
  decisions : after.decisions = conn.decisions
  webSockets : after.UsesWebSocket → conn.UsesWebSocket
  main : ∀ task ∈ after.mainTasks, task ∈ conn.mainTasks
  background : ∀ task request, task.ofRequest = some request → owner ≠ some request →
    (task ∈ after.backgroundTasks ↔ task ∈ conn.backgroundTasks)
  promises : ∀ request ∈ after.promises, owner = some request ∨ request ∈ conn.promises
  log : ∃ entries, after.log = conn.log ++ entries ∧ ∀ entry ∈ entries, ¬ entry.IsOfHeaders ∧
    (∀ leftover, entry ≠ .handshake leftover) ∧
    ∀ request, entry.Concerns request → owner = some request

/-- A step of that kind. -/
structure Routine (owner : Option Nat) (conn after : Connection File) : Prop
    extends Minor owner conn after where
  hasBodyTask : ∀ request, owner = some request → conn.HasBodyTask request

namespace Minor

variable {conn middle after : Connection File} {owner : Option Nat} {request : Nat}

theorem trans (h : Minor owner conn middle) (h' : Minor owner middle after) :
    Minor owner conn after where
  current := h'.current.trans h.current
  protocol := h'.protocol.trans h.protocol
  isUpgrade := h'.isUpgrade.trans h.isUpgrade
  isClosing := fun hClosing => h'.isClosing (h.isClosing hClosing)
  reading := fun hReading => h.reading (h'.reading hReading)
  decisions := h'.decisions.trans h.decisions
  webSockets := fun hUses => h.webSockets (h'.webSockets hUses)
  main := fun task hMem => h.main task (h'.main task hMem)
  background := fun task request hTask hOther =>
    (h'.background task request hTask hOther).trans (h.background task request hTask hOther)
  promises := fun request hMem => (h'.promises request hMem).elim Or.inl (h.promises request)
  log := by
    obtain ⟨before, hBefore, hFirst⟩ := h.log
    obtain ⟨later, hLater, hSecond⟩ := h'.log
    refine ⟨before ++ later, by rw [hLater, hBefore, List.append_assoc], ?_⟩
    intro entry hMem
    exact (List.mem_append.1 hMem).elim (hFirst entry) (hSecond entry)

/-- What `Minor` looks at. -/
theorem congr (hCurrent : after.current = conn.current) (hProtocol : after.protocol = conn.protocol)
    (hUpgrade : after.isUpgrade = conn.isUpgrade) (hClosing : after.isClosing = conn.isClosing)
    (hReading : after.reading = true → conn.reading = true) (hMain : after.mainQueue = conn.mainQueue)
    (hBackground : after.backgroundQueue = conn.backgroundQueue)
    (hPromises : after.promises = conn.promises) (hLog : after.log = conn.log) :
    Minor owner conn after where
  current := hCurrent
  protocol := hProtocol
  isUpgrade := hUpgrade
  isClosing := fun hBefore => hClosing.trans hBefore
  reading := hReading
  decisions := by simp only [decisions_eq, hMain, hBackground]
  webSockets := by simp only [UsesWebSocket, hProtocol, hMain, hBackground, hLog, imp_self]
  main := by simp [mainTasks, hMain]
  background := by simp [backgroundTasks, hBackground]
  promises := fun request hMem => Or.inr (hPromises ▸ hMem)
  log := ⟨[], by simpa using hLog, by simp⟩

theorem refl (conn : Connection File) : Minor owner conn conn :=
  .congr rfl rfl rfl rfl id rfl rfl rfl rfl

theorem append (h : Minor owner conn middle) (entries : List (Observation File))
    (hEntries : ∀ entry ∈ entries, ¬ entry.IsOfHeaders ∧ (∀ leftover, entry ≠ .handshake leftover) ∧
      ∀ request, entry.Concerns request → owner = some request)
    (hUses : ({ middle with log := middle.log ++ entries } : Connection File).UsesWebSocket →
      middle.UsesWebSocket) : Minor owner conn { middle with log := middle.log ++ entries } :=
  h.trans {
    current := rfl
    protocol := rfl
    isUpgrade := rfl
    isClosing := id
    reading := id
    decisions := rfl
    webSockets := hUses
    main := fun _ => id
    background := fun _ _ _ _ => Iff.rfl
    promises := fun _ => Or.inr
    log := ⟨entries, rfl, hEntries⟩ }

theorem observe (h : Minor owner conn middle) (entry : Observation File)
    (hHeaders : ¬ entry.IsOfHeaders) (hOwner : ∀ request, entry.Concerns request → owner = some request)
    (hHandshake : ∀ leftover, entry ≠ .handshake leftover)
    (hUses : (middle.observe entry).UsesWebSocket → middle.UsesWebSocket) :
    Minor owner conn (middle.observe entry) := by
  apply h.append [entry] _ hUses
  intro other hMem
  rw [List.mem_singleton.1 hMem]
  exact ⟨hHeaders, hHandshake, hOwner⟩

theorem popMain {task : MainTask} {rest : List MainTask} (hTask : task.decision = none)
    (hQueue : conn.mainQueue = task :: rest) : Minor owner conn { conn with mainQueue := rest } where
  current := rfl
  protocol := rfl
  isUpgrade := rfl
  isClosing := id
  reading := id
  decisions := decisions_popMain hTask hQueue
  webSockets := fun hUses => UsesWebSocket.of_popMain hQueue hUses
  main := by
    intro other hMem
    simp only [mainTasks, hQueue, List.mem_filter] at hMem ⊢
    exact ⟨List.mem_cons_of_mem _ hMem.1, hMem.2⟩
  background := fun _ _ _ _ => Iff.rfl
  promises := fun _ => Or.inr
  log := ⟨[], by simp, by simp⟩

theorem popBackground {task : BackgroundTask File} {rest : List (BackgroundTask File)}
    (hOwner : task.ofRequest = owner) (hTask : task.decision = none)
    (hQueue : conn.backgroundQueue = task :: rest) :
    Minor owner conn { conn with backgroundQueue := rest } where
  current := rfl
  protocol := rfl
  isUpgrade := rfl
  isClosing := id
  reading := id
  decisions := decisions_popBackground hTask hQueue
  webSockets := fun hUses => UsesWebSocket.of_popBackground hQueue hUses
  main := fun _ => id
  background := by
    intro other request hOther hDistinct
    have hDifferent : other ≠ task := by
      rintro rfl
      exact hDistinct (hOwner.symm.trans hOther)
    simp [backgroundTasks, hQueue, List.mem_filter, hDifferent]
  promises := fun _ => Or.inr
  log := ⟨[], by simp, by simp⟩

theorem push (h : Minor owner conn middle) {task : BackgroundTask File}
    (hOwner : task.ofRequest = owner) (hTask : task.decision = none)
    (hRead : ∀ size, task ≠ .read size) : Minor owner conn (middle.push task) :=
  h.trans {
    current := rfl
    protocol := rfl
    isUpgrade := rfl
    isClosing := id
    reading := id
    decisions := decisions_push hTask
    webSockets := fun hUses => hUses.of_push hRead
    main := fun _ => id
    background := by
      intro other request hOther hDistinct
      have hDifferent : other ≠ task := by
        rintro rfl
        exact hDistinct (hOwner.symm.trans hOther)
      simp [backgroundTasks, Connection.push, List.filter_append, List.mem_filter, hDifferent]
    promises := fun _ => Or.inr
    log := ⟨[], by simp [Connection.push], by simp⟩ }

theorem promise (h : Minor owner conn middle) (promises : List Nat)
    (hPromises : ∀ request ∈ promises, owner = some request ∨ request ∈ middle.promises) :
    Minor owner conn { middle with promises } :=
  h.trans {
    current := rfl
    protocol := rfl
    isUpgrade := rfl
    isClosing := id
    reading := id
    decisions := rfl
    webSockets := id
    main := fun _ => id
    background := fun _ _ _ _ => Iff.rfl
    promises := hPromises
    log := ⟨[], by simp, by simp⟩ }

variable [DataSource File]

theorem quiet (h : Minor owner conn middle) (hQuiet : Quiet middle after) :
    Minor owner conn after :=
  h.trans {
    current := hQuiet.current
    protocol := hQuiet.protocol
    isUpgrade := hQuiet.isUpgrade
    isClosing := hQuiet.isClosing
    reading := fun hReading => (hQuiet.reading hReading).1
    decisions := by simp only [Connection.decisions, hQuiet.mainTasks, hQuiet.backgroundTasks]
    webSockets := hQuiet.usesWebSocket
    main := fun task hMem => hQuiet.mainTasks ▸ hMem
    background := fun task request _ _ => by rw [hQuiet.backgroundTasks]
    promises := fun request hMem => Or.inr (hQuiet.promises ▸ hMem)
    log := by
      obtain ⟨entries, hLog, hEntries, -⟩ := hQuiet.log
      exact ⟨entries, hLog, fun entry hMem => (hEntries entry hMem).apart owner⟩ }

theorem wrote {kind : ResponseKind} {response : HttpResponse (Body File)}
    {entries : List (Observation File)} (h : Minor (some request) conn middle)
    (hWrote : Wrote middle after request kind response entries) :
    Minor (some request) conn after := by
  have hUses := hWrote.usesWebSocket
  have hEntries := hWrote.isQuiet
  obtain ⟨writes, rfl⟩ := hWrote.same
  refine h.trans {
    current := rfl
    protocol := rfl
    isUpgrade := rfl
    isClosing := id
    reading := id
    decisions := rfl
    webSockets := hUses
    main := fun _ => id
    background := fun _ _ _ _ => Iff.rfl
    promises := fun _ => Or.inr
    log := ⟨_, rfl, fun entry hMem => ?_⟩ }
  rcases List.mem_cons.1 hMem with rfl | hMem
  · exact ⟨id, by simp, fun owner hOwner => congrArg some hOwner⟩
  · exact (hEntries entry hMem).apart _

theorem finishes {response : HttpResponse (Body File)} {closing : Bool}
    (h : Minor (some request) conn middle)
    (hFinishes : Finishes middle request response closing after) :
    Minor (some request) conn after := by
  obtain ⟨entries, hWrote⟩ := Connection.wrote hFinishes
  have hStopped : Minor (some request) conn (middle.stopIf closing) :=
    h.trans (.congr rfl rfl rfl rfl (fun hAfter => (Bool.and_eq_true_iff.1 hAfter).1) rfl rfl rfl rfl)
  exact hStopped.wrote hWrote

end Minor

section Routine

variable {conn after : Connection File} {owner : Option Nat} {request : Nat}
  {phase : ParserPhase} {asked : Prop}

theorem HasBodyTask.hasTask (h : conn.HasBodyTask request) : conn.HasTask request := by
  rcases h with ⟨task, hMem, hTask, -⟩ | ⟨task, hMem, hTask, -⟩ | hPromise
  · exact Or.inl ⟨task, hMem, hTask⟩
  · exact Or.inr (Or.inl ⟨task, hMem, hTask⟩)
  · exact Or.inr (Or.inr hPromise)

theorem Deciding.noBodyTask (h : conn.Deciding) : ¬ conn.HasBodyTask conn.current := by
  rintro (⟨task, hMem, hTask, hNone⟩ | ⟨task, hMem, hTask, hNone⟩ | hPromise)
  · rw [h.main task hMem hTask] at hNone
    cases hNone
  · obtain ⟨response, rfl⟩ := h.background task hMem hTask
    cases hNone
  · exact h.promises hPromise

theorem Minor.hasTask (h : Minor owner conn after) (hOther : owner ≠ some request)
    (hTask : after.HasTask request) : conn.HasTask request := by
  rcases hTask with ⟨task, hMem, hTask⟩ | ⟨task, hMem, hTask⟩ | hPromise
  · exact Or.inl ⟨task, h.main task hMem, hTask⟩
  · exact Or.inr (Or.inl ⟨task, (h.background task request hTask hOther).1 hMem, hTask⟩)
  · exact Or.inr (Or.inr ((h.promises request hPromise).resolve_left hOther))

theorem Minor.entry (h : Minor owner conn after) {entry : Observation File}
    (hMem : entry ∈ after.log) : entry ∈ conn.log ∨ ¬ entry.IsOfHeaders ∧
      (∀ leftover, entry ≠ .handshake leftover) ∧
      ∀ request, entry.Concerns request → owner = some request := by
  obtain ⟨entries, hLog, hEntries⟩ := h.log
  rw [hLog, List.mem_append] at hMem
  exact hMem.imp id (hEntries entry)

theorem Minor.ofHeaders (h : Minor owner conn after) {entry : Observation File}
    (hHeaders : entry.IsOfHeaders) (hMem : entry ∈ after.log) : entry ∈ conn.log :=
  (h.entry hMem).resolve_right (fun hOther => hOther.1 hHeaders)

theorem Untouched.minor (h : conn.Untouched request) (hMinor : Minor owner conn after)
    (hOther : owner ≠ some request) : after.Untouched request := by
  refine ⟨fun hTask => h.tasks (hMinor.hasTask hOther hTask), fun entry hMem hConcerns => ?_⟩
  rcases hMinor.entry hMem with hMem | ⟨-, -, hOwner⟩
  · exact h.entries entry hMem hConcerns
  · exact hOther (hOwner request hConcerns)

theorem Deciding.minor (h : conn.Deciding) (hMinor : Minor owner conn after)
    (hOther : owner ≠ some conn.current) : after.Deciding := by
  constructor <;> rw [hMinor.current]
  · exact fun task hMem hTask => h.main task (hMinor.main task hMem) hTask
  · intro task hMem hTask
    exact h.background task ((hMinor.background task _ hTask hOther).1 hMem) hTask
  · exact fun hPromise => h.promises ((hMinor.promises _ hPromise).resolve_left hOther)
  · intro entry hMem hConcerns
    rcases hMinor.entry hMem with hMem | ⟨-, -, hOwner⟩
    · exact h.entries entry hMem hConcerns
    · exact absurd (hOwner _ hConcerns) hOther
  · intro response hMem
    exact (hMinor.background _ _ rfl hOther).2 (h.answered response (hMinor.ofHeaders trivial hMem))

/-- The owner has begun, and its headers are not awaited. -/
theorem Numbered.minor (h : Numbered phase conn) (hMinor : Minor owner conn after)
    (hFuture : ∀ request, conn.current < request → owner ≠ some request)
    (hWaiting : phase = .waiting → owner ≠ some conn.current) : Numbered phase after where
  future := by
    intro request hLater
    rw [hMinor.current] at hLater
    exact (h.future request hLater).minor hMinor (hFuture request hLater)
  waiting := fun hPhase => (h.waiting hPhase).minor hMinor (hWaiting hPhase)
  flagged := by
    intro request hMem
    rw [hMinor.isUpgrade]
    exact h.flagged request (hMinor.ofHeaders trivial hMem)
  handshake := by
    intro leftover hMem
    rw [hMinor.protocol]
    rcases hMinor.entry hMem with hMem | ⟨-, hOther, -⟩
    · exact h.handshake leftover hMem
    · exact absurd rfl (hOther leftover)

theorem Over.minor {response : HttpResponse (Body File)} (h : Over asked conn request response)
    (hMinor : Minor owner conn after) (hOther : owner ≠ some request) :
    Over asked after request response := by
  refine ⟨⟨?_, ?_, ?_, fun hUses => h.refused.webSockets (hMinor.webSockets hUses)⟩,
    fun hTask => h.tasks (hMinor.hasTask hOther hTask), hMinor.isClosing h.isClosing,
    hMinor.decisions.trans h.decisions⟩
  · obtain ⟨entries, hLog, hEntries⟩ := hMinor.log
    rw [hLog, responses_apart]
    · exact h.refused.responses
    · exact fun entry hMem hConcerns => hOther ((hEntries entry hMem).2.2 request hConcerns)
  · intro accepted hMem
    rcases hMinor.entry hMem with hMem | ⟨-, -, hOwner⟩
    · exact h.refused.accept accepted hMem
    · exact absurd (hOwner request rfl) hOther
  · intro leftover hMem
    rcases hMinor.entry hMem with hMem | ⟨-, hNone, -⟩
    · exact h.refused.handshake leftover hMem
    · exact hNone leftover rfl

theorem Untouched.routine (h : conn.Untouched request) (hRoutine : Routine owner conn after) :
    after.Untouched request :=
  h.minor hRoutine.toMinor (fun hOwner => h.tasks (hRoutine.hasBodyTask request hOwner).hasTask)

theorem Numbered.routine (h : Numbered phase conn) (hRoutine : Routine owner conn after) :
    Numbered phase after := by
  refine h.minor hRoutine.toMinor (fun request hLater hOwner => ?_) (fun hPhase hOwner => ?_)
  · exact (h.future request hLater).tasks (hRoutine.hasBodyTask request hOwner).hasTask
  · exact (h.waiting hPhase).noBodyTask (hRoutine.hasBodyTask _ hOwner)

theorem Declining.routine (h : Declining asked phase conn) (hRoutine : Routine owner conn after) :
    Declining asked phase after := by
  intro request response hFlagged hAnswered
  rcases h request response (hRoutine.ofHeaders trivial hFlagged)
    (hRoutine.ofHeaders trivial hAnswered) with ⟨hWaiting, hCurrent⟩ | hOver
  · exact Or.inl ⟨hWaiting, hCurrent.trans hRoutine.current.symm⟩
  · refine Or.inr (hOver.minor hRoutine.toMinor (fun hOwner => ?_))
    exact hOver.tasks (hRoutine.hasBodyTask request hOwner).hasTask

end Routine

section Feed

variable {conn after : Connection File} {request : Nat} {phase : ParserPhase}
  {static : Option (HttpResponse (Body File))}

theorem Untouched.congr (h : conn.Untouched request)
    (hMain : ∀ task ∈ after.mainTasks, task.ofRequest = some request → task ∈ conn.mainTasks)
    (hBackground : ∀ task ∈ after.backgroundTasks, task.ofRequest = some request →
      task ∈ conn.backgroundTasks)
    (hPromises : after.promises = conn.promises)
    (hLog : ∀ entry ∈ after.log, entry.Concerns request → entry ∈ conn.log) :
    after.Untouched request := by
  refine ⟨fun hTask => h.tasks ?_, fun entry hMem hConcerns =>
    h.entries entry (hLog entry hMem hConcerns) hConcerns⟩
  rcases hTask with ⟨task, hMem, hTask⟩ | ⟨task, hMem, hTask⟩ | hPromise
  · exact Or.inl ⟨task, hMain task hMem hTask, hTask⟩
  · exact Or.inr (Or.inl ⟨task, hBackground task hMem hTask, hTask⟩)
  · exact Or.inr (Or.inr (hPromises ▸ hPromise))

/-- The parser reports the end of the headers. -/
theorem Untouched.deciding (h : conn.Untouched conn.current) (hCurrent : after.current = conn.current)
    (hMain : ∀ task ∈ after.mainTasks, task ∈ conn.mainTasks ∨ task = .onHeaders conn.current)
    (hBackground : ∀ task ∈ after.backgroundTasks, task ∈ conn.backgroundTasks ∨
      ∃ response, task = .onHeadersCompleteComplete conn.current response)
    (hPromises : after.promises = conn.promises)
    (hLog : ∀ entry ∈ after.log, entry ∈ conn.log ∨ entry.IsOfHeaders)
    (hAnswered : ∀ response, .answeredInHeaders conn.current response ∈ after.log →
      .onHeadersCompleteComplete conn.current (some response) ∈ after.backgroundTasks) :
    after.Deciding := by
  constructor <;> rw [hCurrent]
  · intro task hMem hTask
    exact (hMain task hMem).resolve_left fun hOld => h.tasks (Or.inl ⟨task, hOld, hTask⟩)
  · intro task hMem hTask
    exact (hBackground task hMem).resolve_left
      fun hOld => h.tasks (Or.inr (Or.inl ⟨task, hOld, hTask⟩))
  · rw [hPromises]
    exact fun hPromise => h.tasks (Or.inr (Or.inr hPromise))
  · intro entry hMem hConcerns
    exact (hLog entry hMem).resolve_left fun hOld => h.entries entry hOld hConcerns
  · exact hAnswered

/-- While the parser runs, the only upgrade that has been answered is the one that
it has come to. -/
structure Answering (phase : ParserPhase) (conn : Connection File) : Prop where
  numbered : Numbered phase conn
  head : phase = .head → conn.Untouched conn.current
  answered : ∀ request response, .onHeadersComplete request true ∈ conn.log →
    .answeredInHeaders request response ∈ conn.log → phase = .waiting ∧ request = conn.current

theorem Answering.routine (h : Answering phase conn) (hMinor : Minor none conn after) :
    Answering phase after := by
  have hRoutine : Routine none conn after := { hMinor with hasBodyTask := by simp }
  refine ⟨h.numbered.routine hRoutine, fun hHead => ?_, fun request response hFlagged hAnswered => ?_⟩
  · rw [hRoutine.current]
    exact (h.head hHead).routine hRoutine
  · rw [hRoutine.current]
    exact h.answered request response (hRoutine.ofHeaders trivial hFlagged)
      (hRoutine.ofHeaders trivial hAnswered)

/-- A phase in which no decision is awaited. -/
theorem Answering.withPhase (h : Answering phase conn) (hPhase : phase ≠ .waiting)
    {next : ParserPhase} (hNext : next ≠ .head ∧ next ≠ .waiting) : Answering next conn where
  numbered := { h.numbered with waiting := fun hWaiting => absurd hWaiting hNext.2 }
  head := fun hHead => absurd hHead hNext.1
  answered := fun request response hFlagged hAnswered =>
    absurd (h.answered request response hFlagged hAnswered).1 hPhase

theorem Answering.begun (h : Answering .between conn) : Answering .head conn.begun := by
  have hLog : ∀ {entry : Observation File}, entry ∈ conn.begun.log → entry ∈ conn.log ∨
      entry = .onMessageBegin (conn.current + 1) conn.handlingRequest := by
    intro entry hMem
    exact (List.mem_append.1 hMem).imp id List.mem_singleton.1
  have hSame : ∀ request, conn.current < request → conn.begun.Untouched request := by
    intro request hFuture
    refine (h.numbered.future request hFuture).congr (fun _ hMem _ => hMem) (fun _ hMem _ => hMem) rfl ?_
    intro entry hMem hConcerns
    rcases hLog hMem with hOld | rfl
    · exact hOld
    · exact absurd hConcerns id
  refine ⟨⟨?_, by simp, ?_, ?_⟩, fun _ => hSame _ (Nat.lt_succ_self _), ?_⟩
  · intro request hFuture
    exact hSame request (Nat.lt_of_succ_lt hFuture)
  · intro request hMem
    exact h.numbered.flagged request ((hLog hMem).resolve_right (by simp))
  · intro leftover hMem
    exact h.numbered.handshake leftover ((hLog hMem).resolve_right (by simp))
  · intro request response hFlagged hAnswered
    have hNone := h.answered request response ((hLog hFlagged).resolve_right (by simp))
      ((hLog hAnswered).resolve_right (by simp))
    simp at hNone

/-- A task for the current request, behind its headers. -/
theorem Answering.invokeLater (h : Answering phase conn) {task : MainTask}
    (hTask : task.ofRequest = some conn.current) (hPhase : phase ≠ .head ∧ phase ≠ .waiting) :
    Answering phase (conn.invokeLater task) := by
  refine ⟨{ h.numbered with
    future := ?_
    waiting := fun hWaiting => absurd hWaiting hPhase.2 }, fun hHead => absurd hHead hPhase.1,
    h.answered⟩
  intro request hFuture
  refine (h.numbered.future request hFuture).congr ?_ (fun _ hMem _ => hMem) rfl (fun _ hMem _ => hMem)
  intro other hMem hOther
  rw [mainTasks_invokeLater hTask, List.mem_append, List.mem_singleton] at hMem
  rcases hMem with hOld | rfl
  · exact hOld
  · have hSame := Option.some.inj (hTask.symm.trans hOther)
    exact absurd hFuture (by simp [Connection.invokeLater, hSame])

/-- The headers are complete, and static serving or the main thread is to decide. -/
theorem Answering.headed (h : Answering .head conn) (upgrade : Bool)
    (hCurrent : after.current = conn.current) (hProtocol : after.protocol = conn.protocol)
    (hUpgrade : after.isUpgrade = (conn.isUpgrade || upgrade))
    (hMain : ∀ task ∈ after.mainTasks, task ∈ conn.mainTasks ∨ task = .onHeaders conn.current)
    (hBackground : ∀ task ∈ after.backgroundTasks, task ∈ conn.backgroundTasks ∨
      ∃ response, task = .onHeadersCompleteComplete conn.current response)
    (hPromises : after.promises = conn.promises)
    (hLog : ∀ entry ∈ after.log, entry ∈ conn.log ∨ entry = .onHeadersComplete conn.current upgrade ∨
      ∃ response, entry = .answeredInHeaders conn.current response)
    (hAnswered : ∀ response, .answeredInHeaders conn.current response ∈ after.log →
      .onHeadersCompleteComplete conn.current (some response) ∈ after.backgroundTasks) :
    Answering .waiting after := by
  have hHead := h.head rfl
  refine ⟨⟨?_, fun _ => ?_, ?_, ?_⟩, by simp, ?_⟩
  · intro request hFuture
    rw [hCurrent] at hFuture
    have hOther : conn.current ≠ request := Nat.ne_of_lt hFuture
    refine (h.numbered.future request hFuture).congr ?_ ?_ hPromises ?_
    · intro task hMem hTask
      rcases hMain task hMem with hOld | rfl
      · exact hOld
      · exact absurd (Option.some.inj hTask) hOther
    · intro task hMem hTask
      rcases hBackground task hMem with hOld | ⟨response, rfl⟩
      · exact hOld
      · exact absurd (Option.some.inj hTask) hOther
    · intro entry hMem hConcerns
      rcases hLog entry hMem with hOld | rfl | ⟨response, rfl⟩
      · exact hOld
      · exact absurd hConcerns hOther
      · exact absurd hConcerns hOther
  · apply hHead.deciding hCurrent hMain hBackground hPromises _ hAnswered
    intro entry hMem
    rcases hLog entry hMem with hOld | rfl | ⟨response, rfl⟩
    · exact Or.inl hOld
    · exact Or.inr trivial
    · exact Or.inr trivial
  · intro request hMem
    rw [hUpgrade]
    rcases hLog _ hMem with hOld | hSame | ⟨response, hSame⟩
    · rw [h.numbered.flagged request hOld, Bool.true_or]
    · rw [← (Observation.onHeadersComplete.inj hSame).2, Bool.or_true]
    · cases hSame
  · intro leftover hMem
    rw [hProtocol]
    rcases hLog _ hMem with hOld | hSame | ⟨response, hSame⟩
    · exact h.numbered.handshake leftover hOld
    · cases hSame
    · cases hSame
  · intro request response hFlagged hMem
    refine ⟨rfl, ?_⟩
    rw [hCurrent]
    rcases hLog _ hMem with hOld | hSame | ⟨other, hSame⟩
    · rcases hLog _ hFlagged with hOldFlag | hSame | ⟨other, hSame⟩
      · exact absurd (h.answered request response hOldFlag hOld).1 (by simp)
      · exact (Observation.onHeadersComplete.inj hSame).1
      · cases hSame
    · cases hSame
    · exact (Observation.answeredInHeaders.inj hSame).1

theorem Answering.onHeadersComplete (h : Answering .head conn)
    (static : Option (HttpResponse (Body File))) (upgrade : Bool) :
    Answering .waiting (conn.onHeadersComplete static upgrade) := by
  have hNone : ∀ response, .answeredInHeaders conn.current response ∉ conn.log :=
    fun response hMem => (h.head rfl).entries _ hMem rfl
  unfold Connection.onHeadersComplete
  dsimp only
  split
  · refine h.headed upgrade rfl rfl rfl (fun task => Or.inl) ?_ rfl ?_ ?_
    · intro task hMem
      simp only [backgroundTasks, Connection.push, observe, List.filter_append,
        List.mem_append] at hMem
      exact hMem.imp id (fun hNew => ⟨_, List.mem_singleton.1 (List.mem_of_mem_filter hNew)⟩)
    · intro entry hMem
      simp only [Connection.push, observe, List.mem_append, List.mem_singleton, or_assoc] at hMem
      exact hMem.imp id (Or.imp id (fun hSame => ⟨_, hSame⟩))
    · intro other hMem
      simp only [Connection.push, observe, List.mem_append, List.mem_singleton, hNone, false_or,
        reduceCtorEq, Observation.answeredInHeaders.injEq, true_and] at hMem
      simp only [backgroundTasks, Connection.push, observe, List.filter_append, hMem]
      exact List.mem_append_right _ (List.mem_filter.2 ⟨List.mem_cons_self, rfl⟩)
  · refine h.headed upgrade rfl rfl rfl ?_ (fun task => Or.inl) rfl ?_ ?_
    · intro task hMem
      simp only [mainTasks, Connection.invokeLater, observe, List.filter_append,
        List.mem_append] at hMem
      exact hMem.imp id (fun hNew => List.mem_singleton.1 (List.mem_of_mem_filter hNew))
    · intro entry hMem
      simp only [Connection.invokeLater, observe, List.mem_append, List.mem_singleton] at hMem
      exact hMem.imp id Or.inl
    · intro response hMem
      simp [Connection.invokeLater, observe, hNone] at hMem

variable [DataSource File]

theorem Answering.onEvent {next : ParserPhase} {event : ParserEvent} (h : Answering phase conn)
    (hNext : phase.next event = some next) : Answering next (conn.onEvent static event) := by
  cases phase <;> cases event <;> cases hNext
  · exact h.begun.routine ((Minor.congr rfl rfl rfl rfl id rfl rfl rfl rfl).quiet
      (quiet_newRequest conn))
  · exact h.routine (.congr rfl rfl rfl rfl id rfl rfl rfl rfl)
  · exact h.routine (.congr rfl rfl rfl rfl id rfl rfl rfl rfl)
  · exact h.routine (.congr rfl rfl rfl rfl id rfl rfl rfl rfl)
  · exact h.onHeadersComplete static _
  · exact h.routine (.congr rfl rfl rfl rfl id rfl rfl rfl rfl)
  · exact h.routine (.congr rfl rfl rfl rfl id rfl rfl rfl rfl)
  · exact h.invokeLater rfl (by simp)
  · have hBetween : Answering .between conn := h.withPhase (by simp) (by simp)
    simp only [Connection.onEvent, onMessageComplete]
    split_ifs
    · exact hBetween
    · exact hBetween.invokeLater rfl (by simp)

theorem Answering.feed (contract : HttpParserContract)
    (h : Answering (contract.phase conn.parser) conn) (buffer : Bytes) :
    Answering (contract.phase (conn.feed static buffer).parser) (conn.feed static buffer) := by
  apply feed_invariant contract buffer
  · have hMinor : Minor none conn
        { conn with parser := (HttpParser.execute conn.parser buffer).parser } :=
      .congr rfl rfl rfl rfl id rfl rfl rfl rfl
    exact h.routine (hMinor.observe _ id (by simp [Observation.Concerns]) (by simp)
      (fun hUses => hUses.of_append (by simp) (by simp)))
  · exact fun conn hRefused => hRefused.withPhase (by simp) (by simp)
  · exact fun phase event after conn hNext hAnswering => hAnswering.onEvent hNext

end Feed

/-- What holds of every run. The current request may be touched before the end of
its headers only if the connection reads no more HTTP. -/
structure Refusing (asked : Prop) (phase : ParserPhase) (conn : Connection File) : Prop where
  numbered : Numbered phase conn
  head : phase = .head → conn.reading = true → conn.protocol = .http →
    conn.Untouched conn.current
  declining : Declining asked phase conn

section Parse

variable [DataSource File] [Host] [Digests] {conn after : Connection File} {phase : ParserPhase}
  {asked : Prop} {owner : Option Nat}

omit [DataSource File] [Host] [Digests] in
theorem Answering.refusing (h : Answering phase conn) : Refusing asked phase conn where
  numbered := h.numbered
  head := fun hHead _ _ => h.head hHead
  declining := fun request response hFlagged hAnswered =>
    Or.inl (h.answered request response hFlagged hAnswered)

omit [DataSource File] [Host] [Digests] in
theorem Refusing.routine (h : Refusing asked phase conn) (hRoutine : Routine owner conn after) :
    Refusing asked phase after where
  numbered := h.numbered.routine hRoutine
  head := by
    intro hHead hReading hProtocol
    rw [hRoutine.current]
    rw [hRoutine.protocol] at hProtocol
    exact (h.head hHead (hRoutine.reading hReading) hProtocol).routine hRoutine
  declining := h.declining.routine hRoutine

/-- A request whose body is read may be upgraded. -/
theorem Answering.upgraded {now : Tm} {pData : Bytes} (h : Answering phase conn)
    (hPhase : phase ≠ .waiting) (hUpgraded : Upgraded conn now pData after)
    (hSound : Sound phase after) : Refusing asked phase after := by
  have hNone : ∀ request response, .onHeadersComplete request true ∈ conn.log →
      .answeredInHeaders request response ∈ conn.log → False :=
    fun request response hFlagged hAnswered =>
      hPhase (h.answered request response hFlagged hAnswered).1
  have hLater : ∀ request, conn.current < request → some conn.current ≠ some request :=
    fun request hFuture hSame => Nat.ne_of_lt hFuture (Option.some.inj hSame)
  cases hUpgraded with
  | gone hGone => exact h.refusing
  | refused hRefused hQuiet hClosed =>
      have hMinor : Minor (some conn.current) conn after :=
        ((Minor.refl conn).observe (.accept conn.current false) id
          (fun request (hSame : conn.current = request) => congrArg some hSame) (by simp)
          (fun hUses => hUses.of_append (by simp) (by simp))).quiet hQuiet
      refine ⟨h.numbered.minor hMinor hLater (fun hWaiting => absurd hWaiting hPhase), ?_, ?_⟩
      · intro hHead hReading hProtocol
        rw [hMinor.protocol] at hProtocol
        rw [hProtocol] at hClosed
        rw [hSound.reading hReading] at hClosed
        simp at hClosed
      · intro request response hFlagged hAnswered
        exact (hNone request response (hMinor.ofHeaders trivial hFlagged)
          (hMinor.ofHeaders trivial hAnswered)).elim
  | @accepted parser answered handshake hOpen hAccepted hHandshake hAnswered =>
      obtain ⟨entries, hWrote⟩ := Connection.wrote hAnswered
      have hQuiet := hWrote.isQuiet
      obtain ⟨writes, rfl⟩ := hWrote.same
      generalize switchingProtocols handshake now = answer at *
      have hLog : ∀ entry ∈ conn.log ++ [.accept conn.current true] ++ [.handshake handshake.pData] ++
          .writeResponse conn.current conn.serial .switching answer :: entries, entry ∈ conn.log ∨
            ¬ entry.IsOfHeaders ∧ ∀ request, entry.Concerns request → request = conn.current := by
        intro entry hMem
        simp only [List.mem_append, List.mem_cons, List.not_mem_nil, or_false] at hMem
        rcases hMem with ((hOld | rfl) | rfl) | (rfl | hNew)
        · exact Or.inl hOld
        · exact Or.inr ⟨id, fun request hSame => hSame.symm⟩
        · exact Or.inr ⟨id, fun request hSame => hSame.elim⟩
        · exact Or.inr ⟨id, fun request hSame => hSame.symm⟩
        · obtain ⟨hHeaders, -, hOwner⟩ := (hQuiet entry hNew).apart none
          exact Or.inr ⟨hHeaders, fun request hSame => absurd (hOwner request hSame) (by simp)⟩
      refine ⟨⟨?_, fun hWaiting => absurd hWaiting hPhase, ?_, fun _ _ => rfl⟩, ?_, ?_⟩
      · intro request hFuture
        refine (h.numbered.future request hFuture).congr ?_ (fun _ hMem _ => hMem) rfl ?_
        · intro task hMem hTask
          simp only [mainTasks, switchProtocol, Connection.invokeLater, List.filter_append,
            List.mem_append] at hMem
          exact hMem.resolve_right (by simp [MainTask.ofRequest])
        · intro entry hMem hConcerns
          rcases hLog entry hMem with hOld | ⟨-, hOwner⟩
          · exact hOld
          · exact absurd (hOwner request hConcerns) (Nat.ne_of_gt hFuture)
      · intro request hMem
        exact h.numbered.flagged request ((hLog _ hMem).resolve_right (fun hNew => hNew.1 trivial))
      · exact fun _ _ hProtocol => absurd hProtocol (by simp [switchProtocol, Connection.invokeLater])
      · intro request response hFlagged hAnswered
        exact (hNone request response
          ((hLog _ hFlagged).resolve_right (fun hNew => hNew.1 trivial))
          ((hLog _ hAnswered).resolve_right (fun hNew => hNew.1 trivial))).elim

/-- What `_parse_http_data` leaves. -/
theorem Answering.parsed (contract : HttpParserContract)
    {static : Option (HttpResponse (Body File))} {now : Tm} {buffer : Bytes}
    (h : Answering (contract.phase conn.parser) conn)
    (hFeeding : Feeding (contract.phase conn.parser) conn)
    (hParsed : Parsed conn static now buffer after) :
    Refusing asked (contract.phase after.parser) after := by
  have hFed : Answering (contract.phase (conn.feed static buffer).parser) (conn.feed static buffer) :=
    h.feed contract buffer
  have hSound := hFeeding.parsed contract hParsed
  cases hParsed with
  | waiting hWaiting =>
      have hKept : Answering (contract.phase (conn.feed static buffer).parser)
          { conn.feed static buffer with
            requestBuffer := (conn.feed static buffer).requestBuffer ++
              buffer.drop (HttpParser.execute conn.parser buffer).parsed } :=
        hFed.routine (.congr rfl rfl rfl rfl id rfl rfl rfl rfl)
      exact hKept.refusing
  | upgrade hWaiting hUpgrade hAfter =>
      rw [hAfter.parser] at hSound ⊢
      refine hFed.upgraded (fun hPhase => ?_) hAfter hSound
      rw [(contract.waiting_iff _).2 hPhase] at hWaiting
      cases hWaiting
  | quiet hWaiting hUpgrade hQuiet hRest =>
      rw [hQuiet.parser]
      exact (hFed.routine ((Minor.refl _).quiet hQuiet)).refusing

omit [DataSource File] [Host] [Digests] in
/-- The only upgrade that has been answered is one that the parser waits for. -/
theorem Refusing.answering (h : Refusing asked phase conn)
    (hHead : phase = .head → conn.Untouched conn.current)
    (hOver : ∀ request response, ¬ Over asked conn request response) : Answering phase conn where
  numbered := h.numbered
  head := hHead
  answered := fun request response hFlagged hAnswered =>
    (h.declining request response hFlagged hAnswered).resolve_right (hOver request response)

theorem Refusing.read (contract : HttpParserContract)
    {static : Option (HttpResponse (Body File))} {now : Tm} {data : Bytes}
    (h : Refusing asked (contract.phase conn.parser) conn)
    (hSound : Sound (contract.phase conn.parser) conn) (hReading : conn.reading = true)
    (hProtocol : conn.protocol = .http)
    (hParsed : Parsed (conn.observe (.read data)) static now data after) :
    Refusing asked (contract.phase after.parser) after := by
  have hOpen := hSound.reading hReading
  have hAnswering : Answering (contract.phase conn.parser) conn := by
    refine h.answering (fun hHead => h.head hHead hReading hProtocol) (fun request response hOver => ?_)
    rw [hOver.isClosing] at hOpen
    cases hOpen
  have hObserved : Answering (contract.phase conn.parser) (conn.observe (.read data)) :=
    hAnswering.routine ((Minor.refl conn).observe (.read data) id
      (fun request hConcerns => hConcerns.elim) (by simp)
      (fun hUses => hUses.of_append (by simp) (by simp)))
  have hHttp : ¬ conn.UsesWebSocket := hSound.http hProtocol
  have hFeeding : Feeding (contract.phase conn.parser) conn := ⟨hSound, hHttp⟩
  exact hObserved.parsed contract (hFeeding.observe (.read data) (by simp) (by simp)) hParsed

/-! The decision about the headers comes back. -/

omit [DataSource File] [Host] [Digests] in
/-- The parser has gone on without a callback. -/
theorem Minor.executed {middle : Connection File} (h : Minor owner conn middle)
    (parser : HttpParser.Parser) (data : Bytes) :
    Minor owner conn ({ middle with parser }.observe (.execute data)) := by
  have hParser : Minor owner conn { middle with parser } :=
    h.trans (.congr rfl rfl rfl rfl id rfl rfl rfl rfl)
  exact hParser.observe (.execute data) id (fun request hConcerns => hConcerns.elim) (by simp)
    (fun hUses => hUses.of_append (by simp) (by simp))

omit [Host] [Digests] in
theorem headersCompleted_minor {middle : Connection File} {now : Tm} {request : Nat}
    {response : Option (HttpResponse (Body File))}
    (h : conn.headersCompleted now request response = some middle) :
    Minor (some request) conn { middle with requestBuffer := [] } := by
  have hMiddle : Minor (some request) conn middle := by
    cases response with
    | some answer =>
        obtain ⟨closing, answered, hFinishes, rfl⟩ := headersCompleted_some h
        exact ((Minor.refl conn).finishes hFinishes).trans
          (.congr rfl rfl rfl rfl id rfl rfl rfl rfl)
    | none =>
        obtain ⟨continued, rfl | hContinued, rfl⟩ := headersCompleted_none h
        · exact .congr rfl rfl rfl rfl id rfl rfl rfl rfl
        · obtain ⟨entries, hWrote⟩ := Connection.wrote hContinued
          exact ((Minor.refl conn).wrote hWrote).trans (.congr rfl rfl rfl rfl id rfl rfl rfl rfl)
  exact hMiddle.trans (.congr rfl rfl rfl rfl id rfl rfl rfl rfl)

omit [DataSource File] [Host] [Digests] in
theorem Numbered.popBackground {task : BackgroundTask File} {rest : List (BackgroundTask File)}
    {next : ParserPhase} (h : Numbered phase conn) (hQueue : conn.backgroundQueue = task :: rest)
    (hNext : next ≠ .waiting) : Numbered next { conn with backgroundQueue := rest } where
  future := by
    intro request hFuture
    refine (h.future request hFuture).congr (fun _ hMem _ => hMem) ?_ rfl (fun _ hMem _ => hMem)
    intro other hMem _
    simp only [backgroundTasks, hQueue, List.mem_filter] at hMem ⊢
    exact ⟨List.mem_cons_of_mem _ hMem.1, hMem.2⟩
  waiting := fun hWaiting => absurd hWaiting hNext
  flagged := h.flagged
  handshake := h.handshake

omit [DataSource File] [Host] [Digests] in
theorem Numbered.completed {request : Nat}
    {response : Option (HttpResponse (Body File))} {rest : List (BackgroundTask File)}
    {next : ParserPhase} (h : Numbered phase conn) (hSound : Sound phase conn)
    (hQueue : conn.backgroundQueue = .onHeadersCompleteComplete request response :: rest)
    (hMinor : Minor (some request) { conn with backgroundQueue := rest } after)
    (hNext : next ≠ .waiting) : Numbered next after := by
  obtain ⟨-, rfl, -⟩ := hSound.front hQueue
  refine (h.popBackground hQueue hNext).minor hMinor ?_ (fun hWaiting => absurd hWaiting hNext)
  exact fun other hFuture hSame => Nat.ne_of_lt hFuture (Option.some.inj hSame)

omit [DataSource File] [Host] [Digests] in
/-- The task at the front is the only decision. -/
theorem Sound.onlyDecision {request : Nat} {response other : Option (HttpResponse (Body File))}
    {rest : List (BackgroundTask File)} (h : Sound phase conn)
    (hQueue : conn.backgroundQueue = .onHeadersCompleteComplete request response :: rest)
    (hMem : .onHeadersCompleteComplete conn.current other ∈ conn.backgroundTasks) :
    other = response := by
  obtain ⟨-, rfl, hPopped⟩ := h.front hQueue
  have hNone : ({ conn with backgroundQueue := rest } : Connection File).decisions = [] :=
    (hPopped .between).1.deciding.resolve_right (by simp)
  rw [decisions, List.append_eq_nil_iff, List.filterMap_eq_nil_iff, List.filterMap_eq_nil_iff] at hNone
  rw [backgroundTasks_cons rfl hQueue, List.mem_cons] at hMem
  rcases hMem with hSame | hRest
  · exact (BackgroundTask.onHeadersCompleteComplete.inj hSame).2
  · exact absurd (hNone.2 _ hRest) (by simp [BackgroundTask.decision])

omit [DataSource File] [Host] [Digests] in
/-- As long as a decision is on its way, nothing is over. -/
theorem Over.not_front {request other : Nat} {response : Option (HttpResponse (Body File))}
    {answer : HttpResponse (Body File)} {rest : List (BackgroundTask File)}
    (hQueue : conn.backgroundQueue = .onHeadersCompleteComplete request response :: rest) :
    ¬ Over asked conn other answer := by
  intro hOver
  have hDecisions := hOver.decisions
  simp [decisions_eq, hQueue, BackgroundTask.decision] at hDecisions

/-- A refused message is dropped, and what is behind it goes to the upgrade. -/
theorem parseHttpDataFromBuffer_refused (contract : HttpParserContract)
    {static : Option (HttpResponse (Body File))} {now : Tm}
    (hPhase : contract.phase conn.parser = .refused) (hUpgrade : conn.isUpgrade = true)
    (h : conn.parseHttpDataFromBuffer static now = some after) :
    ({ conn with
        parser := (HttpParser.execute conn.parser conn.requestBuffer).parser
        requestBuffer := [] }.observe (.execute (conn.requestBuffer.take
          (HttpParser.execute conn.parser conn.requestBuffer).parsed))).upgrade now
      (conn.requestBuffer.drop (HttpParser.execute conn.parser conn.requestBuffer).parsed) =
        some after := by
  have hNotWaiting : HttpParser.waitingForHeadersCompleted
      (HttpParser.execute conn.parser conn.requestBuffer).parser ≠ true := by
    rw [Ne, contract.waiting_iff]
    rcases (contract.silent (Or.inr hPhase) conn.requestBuffer).2 with hSame | ⟨-, hBetween⟩
    · simp [hSame, hPhase]
    · simp [hBetween]
  have hSilent : contract.phase ({ conn with requestBuffer := [] } : Connection File).parser =
      .waiting ∨ contract.phase ({ conn with requestBuffer := [] } : Connection File).parser =
        .refused := Or.inr hPhase
  unfold parseHttpDataFromBuffer parseHttpData at h
  dsimp only at h
  rw [feed_silent contract hSilent] at h
  exact ((if_neg hNotWaiting).trans (if_pos hUpgrade)).symm.trans h

/-- `accept` is not called, or it is in vain. -/
theorem upgrade_declined {now : Tm} {pData : Bytes} (h : conn.upgrade now pData = some after)
    (hProtocol : conn.protocol = .http) (hDeclined : conn.pWebSocketConnection = false ∨
      asked ∧ conn.websocket.acceptedParser conn.head.headers pData = none) :
    ∃ accepts, (∀ entry ∈ accepts, asked ∧ entry = .accept conn.current false) ∧
      Quiet { conn with log := conn.log ++ accepts } after ∧
      (conn.pWebSocketConnection = false ∨ after.isClosing = true) := by
  rcases upgrade_cases h with ⟨hGone, rfl⟩ | ⟨hOpen, -, rfl⟩ |
    ⟨parser, handshake, answered, hOpen, hAccepted, -⟩
  · refine ⟨[], List.forall_mem_nil _, ?_, Or.inl hGone⟩
    simpa using Quiet.refl after
  · obtain ⟨hAsked, -⟩ := hDeclined.resolve_left (by simp [hOpen])
    rw [if_neg (by simp [hProtocol])]
    refine ⟨[.accept conn.current false], ?_, quiet_close _, Or.inr (close_isClosing _)⟩
    exact fun entry hMem => ⟨hAsked, List.mem_singleton.1 hMem⟩
  · exact absurd (hDeclined.resolve_left (by simp [hOpen])).2 (by simp [hAccepted])

theorem Minor.declined {now : Tm} {pData : Bytes} (h : conn.upgrade now pData = some after)
    (hProtocol : conn.protocol = .http) (hDeclined : conn.pWebSocketConnection = false ∨
      asked ∧ conn.websocket.acceptedParser conn.head.headers pData = none) :
    Minor (some conn.current) conn after := by
  obtain ⟨accepts, hAccepts, hQuiet, -⟩ := upgrade_declined h hProtocol hDeclined
  refine ((Minor.refl conn).append accepts (fun entry hMem => ?_) (fun hUses => ?_)).quiet hQuiet
  · rw [(hAccepts entry hMem).2]
    exact ⟨id, by simp, fun request hSame => congrArg some hSame⟩
  · refine hUses.of_append ?_ ?_
    · exact fun hMem => absurd (hAccepts _ hMem).2 (by simp)
    · exact fun data hMem => absurd (hAccepts _ hMem).2 (by simp)

/-- The response has been written, and nothing is left to be done for its request. -/
structure Dismissed (conn : Connection File) (response : HttpResponse (Body File)) : Prop where
  responses : ∃ closing : Bool, responses conn.current conn.log =
    [(.final, if closing then response.requestClose else response)]
  accept : ∀ accepted, .accept conn.current accepted ∉ conn.log
  handshake : ∀ leftover, .handshake leftover ∉ conn.log
  webSockets : ¬ conn.UsesWebSocket
  tasks : ¬ conn.HasTask conn.current
  gone : conn.pWebSocketConnection = false → conn.isClosing = true
  decisions : conn.decisions = []

theorem Dismissed.declined {now : Tm} {pData : Bytes} {response : HttpResponse (Body File)}
    (h : Dismissed conn response) (hUpgrade : conn.upgrade now pData = some after)
    (hDeclined : conn.pWebSocketConnection = false ∨
      asked ∧ conn.websocket.acceptedParser conn.head.headers pData = none) :
    Over asked after conn.current response := by
  have hProtocol : conn.protocol = .http := protocol_http h.webSockets
  obtain ⟨accepts, hAccepts, hQuiet, hClosing⟩ := upgrade_declined hUpgrade hProtocol hDeclined
  obtain ⟨entries, hLog, hEntries, -⟩ := hQuiet.log
  have hEntry : ∀ {entry : Observation File}, entry ∈ after.log → entry ∈ conn.log ∨
      (asked ∧ entry = .accept conn.current false) ∨ entry.IsQuiet := by
    intro entry hMem
    rw [hLog, List.mem_append, List.mem_append, or_assoc] at hMem
    exact hMem.imp id (Or.imp (hAccepts entry) (hEntries entry))
  refine ⟨⟨Or.inr ?_, ?_, ?_, ?_⟩, ?_, ?_, ?_⟩
  · obtain ⟨closing, hResponses⟩ := h.responses
    refine ⟨closing, ?_⟩
    rw [hLog, responses_append, responses_append, hResponses, responses_eq_nil, responses_eq_nil]
    · rfl
    · exact fun _ _ _ hMem => absurd (hEntries _ hMem) id
    · exact fun _ _ _ hMem => absurd (hAccepts _ hMem).2 (by simp)
  · intro accepted hMem
    rcases hEntry hMem with hOld | ⟨hAsked, hSame⟩ | hNew
    · exact absurd hOld (h.accept accepted)
    · exact ⟨hAsked, (Observation.accept.inj hSame).2⟩
    · exact absurd hNew id
  · intro leftover hMem
    rcases hEntry hMem with hOld | ⟨-, hSame⟩ | hNew
    · exact h.handshake leftover hOld
    · cases hSame
    · exact hNew
  · intro hUses
    refine h.webSockets ((hQuiet.usesWebSocket hUses).of_append ?_ ?_)
    · exact fun hMem => absurd (hAccepts _ hMem).2 (by simp)
    · exact fun data hMem => absurd (hAccepts _ hMem).2 (by simp)
  · intro hTask
    unfold HasTask at hTask
    rw [hQuiet.mainTasks, hQuiet.backgroundTasks, hQuiet.promises] at hTask
    exact h.tasks hTask
  · rcases hClosing with hGone | hClosing
    · exact hQuiet.isClosing (h.gone hGone)
    · exact hClosing
  · rw [Connection.decisions, hQuiet.mainTasks, hQuiet.backgroundTasks]
    exact h.decisions

omit [Host] [Digests] in
theorem headersCompleted_answered {middle : Connection File} {now : Tm} {request : Nat}
    {response : HttpResponse (Body File)}
    (h : conn.headersCompleted now request (some response) = some middle) :
    ∃ (closing : Bool) (reading ignoreNewData handlingRequest : Bool) (serial : Nat)
      (writes : List (Write File)) (entries : List (Observation File)),
      (∀ entry ∈ entries, entry.IsQuiet) ∧ middle = { conn with
        parser := HttpParser.headersCompleted conn.parser 3
        reading
        ignoreNewData
        handlingRequest
        serial
        writes
        log := conn.log ++ .writeResponse request conn.serial .final
          (if closing then response.requestClose else response) :: entries } := by
  obtain ⟨closing, answered, hFinishes, rfl⟩ := headersCompleted_some h
  obtain ⟨entries, hWrote⟩ := Connection.wrote hFinishes
  have hQuiet := hWrote.isQuiet
  obtain ⟨writes, rfl⟩ := hWrote.same
  exact ⟨closing, _, _, _, _, _, entries, hQuiet, rfl⟩

omit [Host] [Digests] in
/-- What is left when the answer has come back and has been written. -/
theorem Numbered.answered {now : Tm} {request : Nat} {response : HttpResponse (Body File)}
    {middle : Connection File} {rest : List (BackgroundTask File)} (h : Numbered phase conn)
    (hSound : Sound phase conn)
    (hQueue : conn.backgroundQueue = .onHeadersCompleteComplete request (some response) :: rest)
    (hMiddle : { conn with backgroundQueue := rest }.headersCompleted now request (some response) =
      some middle) (parser : HttpParser.Parser) (data : Bytes) :
    Dismissed ({ middle with parser, requestBuffer := [] }.observe (.execute data)) response := by
  have hMinor := (headersCompleted_minor hMiddle).executed parser data
  obtain ⟨hWaiting, rfl, hPopped⟩ := hSound.front hQueue
  have hDeciding := h.waiting hWaiting
  have hHttp := (hPopped .between).2
  have hNone : ({ conn with backgroundQueue := rest } : Connection File).decisions = [] :=
    (hPopped .between).1.deciding.resolve_right (by simp)
  have hTasks := hNone
  rw [decisions, List.append_eq_nil_iff, List.filterMap_eq_nil_iff,
    List.filterMap_eq_nil_iff] at hTasks
  have hResponses : responses conn.current conn.log = [] :=
    responses_eq_nil (fun _ _ _ hMem => absurd (hDeciding.entries _ hMem rfl) id)
  refine ⟨?_, ?_, ?_, fun hUses => hHttp (hMinor.webSockets hUses), ?_, ?_, hMinor.decisions.trans hNone⟩
  all_goals
    obtain ⟨closing, reading, ignoreNewData, handlingRequest, serial, writes, entries, hQuiet, rfl⟩ :=
      headersCompleted_answered hMiddle
  · refine ⟨closing, ?_⟩
    simp only [observe, List.append_assoc, List.cons_append]
    rw [responses_append, hResponses]
    have hRest : responses conn.current (entries ++ [.execute data]) = [] := by
      refine responses_eq_nil (fun _ _ _ hMem => ?_)
      rcases List.mem_append.1 hMem with hMem | hMem
      · exact absurd (hQuiet _ hMem) id
      · simp at hMem
    simp only [responses, List.filterMap_cons] at hRest ⊢
    simp [hRest]
  · intro accepted hMem
    simp only [observe, List.mem_append, List.mem_cons, List.not_mem_nil, or_false, reduceCtorEq,
      false_or] at hMem
    rcases hMem with hOld | hNew
    · exact hDeciding.entries _ hOld rfl
    · exact hQuiet _ hNew
  · intro leftover hMem
    rcases hMinor.entry hMem with hOld | ⟨-, hOther, -⟩
    · exact hHttp (Or.inl (h.handshake leftover hOld))
    · exact hOther leftover rfl
  · rintro (⟨task, hMem, hTask⟩ | ⟨task, hMem, hTask⟩ | hPromise)
    · have hOnly := hDeciding.main task hMem hTask
      subst hOnly
      exact absurd (hTasks.1 _ hMem) (by simp [MainTask.decision])
    · have hOld : task ∈ conn.backgroundTasks := by
        rw [backgroundTasks_cons rfl hQueue]
        exact List.mem_cons_of_mem _ hMem
      obtain ⟨other, hOnly⟩ := hDeciding.background task hOld hTask
      subst hOnly
      exact absurd (hTasks.2 _ hMem) (by simp [BackgroundTask.decision])
    · exact hDeciding.promises hPromise
  · exact hSound.websocket

/-- The answer comes back, and no WebSocket takes the request. -/
theorem Refusing.answered (contract : HttpParserContract)
    {static : Option (HttpResponse (Body File))} {now : Tm} {request : Nat}
    {response : HttpResponse (Body File)} {middle : Connection File}
    {rest : List (BackgroundTask File)} (h : Refusing asked (contract.phase conn.parser) conn)
    (hSound : Sound (contract.phase conn.parser) conn)
    (hQueue : conn.backgroundQueue = .onHeadersCompleteComplete request (some response) :: rest)
    (hFlagged : .onHeadersComplete request true ∈ conn.log)
    (hDeclined : conn.pWebSocketConnection = false ∨ asked ∧
      conn.websocket.acceptedParser conn.head.headers (conn.requestBuffer.drop
        (HttpParser.execute (HttpParser.headersCompleted conn.parser 3) conn.requestBuffer).parsed) =
          none)
    (hMiddle : { conn with backgroundQueue := rest }.headersCompleted now request (some response) =
      some middle)
    (hAfter : middle.parseHttpDataFromBuffer static now = some after) :
    Refusing asked (contract.phase after.parser) after := by
  have hAnswered := h.numbered.answered hSound hQueue hMiddle
    (HttpParser.execute middle.parser middle.requestBuffer).parser
    (middle.requestBuffer.take (HttpParser.execute middle.parser middle.requestBuffer).parsed)
  have hMinor := (headersCompleted_minor hMiddle).executed
    (HttpParser.execute middle.parser middle.requestBuffer).parser
    (middle.requestBuffer.take (HttpParser.execute middle.parser middle.requestBuffer).parsed)
  have hParser := parser_headersCompleted hMiddle
  obtain ⟨hWaiting, rfl, hPopped⟩ := hSound.front hQueue
  obtain ⟨hGone, hWebSocket, hHead, hBuffer⟩ : middle.pWebSocketConnection =
      conn.pWebSocketConnection ∧ middle.websocket = conn.websocket ∧ middle.head = conn.head ∧
      middle.requestBuffer = conn.requestBuffer := by
    obtain ⟨_, _, _, _, _, _, _, -, rfl⟩ := headersCompleted_answered hMiddle
    exact ⟨rfl, rfl, rfl, rfl⟩
  have hRefused : contract.phase middle.parser = .refused := by
    rw [hParser]
    exact contract.refuse _ hWaiting
  have hUpgrade : middle.isUpgrade = true :=
    hMinor.isUpgrade.trans (h.numbered.flagged _ hFlagged)
  have hProtocol : middle.protocol = .http := by
    cases hProtocol : middle.protocol with
    | http => rfl
    | webSockets => exact absurd (Or.inl hProtocol) hAnswered.webSockets
  have hTaken := parseHttpDataFromBuffer_refused contract hRefused hUpgrade hAfter
  have hStatus : middle.parser = HttpParser.headersCompleted conn.parser 3 := hParser
  rw [← hGone, ← hWebSocket, ← hHead, ← hBuffer, ← hStatus] at hDeclined
  have hCurrent : middle.current = conn.current := hMinor.current
  have hOver : Over asked after conn.current response := by
    rw [← hCurrent]
    exact hAnswered.declined hTaken hDeclined
  have hDone : Minor (some conn.current) { conn with backgroundQueue := rest } after := by
    refine hMinor.trans ?_
    rw [← hCurrent]
    exact .declined hTaken hProtocol hDeclined
  have hPhase : contract.phase after.parser = .refused ∨ contract.phase after.parser = .between := by
    rw [(upgraded hTaken).parser]
    rcases (contract.silent (Or.inr hRefused) middle.requestBuffer).2 with hSame | ⟨-, hBetween⟩
    · exact Or.inl (hSame.trans hRefused)
    · exact Or.inr hBetween
  refine ⟨h.numbered.completed hSound hQueue hDone ?_, fun hHead => ?_, ?_⟩
  · rcases hPhase with hPhase | hPhase <;> simp [hPhase]
  · rcases hPhase with hPhase | hPhase <;> rw [hPhase] at hHead <;> cases hHead
  · intro other answer hOtherFlagged hOtherAnswered
    have hOld : .answeredInHeaders other answer ∈ conn.log := hDone.ofHeaders trivial hOtherAnswered
    obtain ⟨-, rfl⟩ := (h.declining other answer (hDone.ofHeaders trivial hOtherFlagged)
      hOld).resolve_right (Over.not_front hQueue)
    have hTask := (h.numbered.waiting hWaiting).answered answer hOld
    obtain rfl := Option.some.inj (hSound.onlyDecision hQueue hTask)
    exact Or.inr hOver

/-- The decision comes back, and it is not the answer to an upgrade. -/
theorem Refusing.unanswered (contract : HttpParserContract)
    {static : Option (HttpResponse (Body File))} {now : Tm} {request : Nat}
    {response : Option (HttpResponse (Body File))} {middle : Connection File}
    {rest : List (BackgroundTask File)} (h : Refusing asked (contract.phase conn.parser) conn)
    (hSound : Sound (contract.phase conn.parser) conn)
    (hQueue : conn.backgroundQueue = .onHeadersCompleteComplete request response :: rest)
    (hNone : response.isSome = true → .onHeadersComplete request true ∉ conn.log)
    (hMiddle : { conn with backgroundQueue := rest }.headersCompleted now request response =
      some middle)
    (hParsed : Parsed { middle with requestBuffer := [] } static now middle.requestBuffer after) :
    Refusing asked (contract.phase after.parser) after := by
  have hMinor := headersCompleted_minor hMiddle
  have hParser := parser_headersCompleted hMiddle
  obtain ⟨hWaiting, rfl, hPopped⟩ := hSound.front hQueue
  have hPhase : contract.phase middle.parser = .body ∨ contract.phase middle.parser = .refused := by
    rw [hParser]
    cases response with
    | none => exact Or.inl (contract.proceed _ hWaiting)
    | some answer => exact Or.inr (contract.refuse _ hWaiting)
  have hAnswering : Answering (contract.phase middle.parser) { middle with requestBuffer := [] } := by
    refine ⟨h.numbered.completed hSound hQueue hMinor ?_, fun hHead => ?_, ?_⟩
    · rcases hPhase with hPhase | hPhase <;> simp [hPhase]
    · rcases hPhase with hPhase | hPhase <;> rw [hPhase] at hHead <;> cases hHead
    · intro other answer hFlagged hAnswered
      have hFlaggedOld : .onHeadersComplete other true ∈ conn.log := hMinor.ofHeaders trivial hFlagged
      have hOld : .answeredInHeaders other answer ∈ conn.log := hMinor.ofHeaders trivial hAnswered
      obtain ⟨-, rfl⟩ := (h.declining other answer hFlaggedOld hOld).resolve_right
        (Over.not_front hQueue)
      have hTask := (h.numbered.waiting hWaiting).answered answer hOld
      obtain rfl := hSound.onlyDecision hQueue hTask
      exact absurd hFlaggedOld (hNone rfl)
  exact hAnswering.parsed contract ((hPopped _).headersCompleted hMiddle) hParsed

/-! What the main thread does for a request. -/

omit [DataSource File] [Host] [Digests] in
/-- `onHeaders` has run, and may have put the decision on the background queue. -/
theorem Refusing.onHeaders {request : Nat} {rest : List MainTask} (h : Refusing asked phase conn)
    (hSound : Sound phase conn) (hQueue : conn.mainQueue = .onHeaders request :: rest)
    (scheduled : Bool) {entries : List (Observation File)} {tasks : List (BackgroundTask File)}
    (hTasks : ∀ task ∈ tasks, ∃ response, task = .onHeadersCompleteComplete request response)
    (hEntries : ∀ entry ∈ entries, entry = .onHeaders request ∨ ∃ response,
      entry = .answeredInHeaders request response ∧
        .onHeadersCompleteComplete request (some response) ∈ tasks) :
    Refusing asked phase { conn with
      mainQueue := rest
      responseScheduled := scheduled
      log := conn.log ++ entries
      backgroundQueue := conn.backgroundQueue ++ tasks } := by
  obtain ⟨rfl, rfl, -⟩ := hSound.frontMain hQueue
  have hDeciding := h.numbered.waiting rfl
  have hNotOver : ∀ other answer, ¬ Over asked conn other answer := by
    intro other answer hOver
    have hDecisions := hOver.decisions
    simp [decisions_eq, hQueue, MainTask.decision] at hDecisions
  have hMain : ∀ task ∈ rest, task ∈ conn.mainQueue := by
    intro task hMem
    rw [hQueue]
    exact List.mem_cons_of_mem _ hMem
  have hNew : ∀ entry ∈ entries, entry.Concerns conn.current → entry.IsOfHeaders := by
    intro entry hMem hConcerns
    rcases hEntries entry hMem with rfl | ⟨response, rfl, -⟩
    · exact hConcerns.elim
    · exact trivial
  refine ⟨⟨?_, fun _ => ⟨?_, ?_, hDeciding.promises, ?_, ?_⟩, ?_, ?_⟩, by simp, ?_⟩
  · intro request hFuture
    refine (h.numbered.future request hFuture).congr ?_ ?_ rfl ?_
    · intro task hMem _
      exact List.mem_filter.2 ((List.mem_filter.1 hMem).imp (hMain task) id)
    · intro task hMem hTask
      simp only [backgroundTasks, List.filter_append, List.mem_append] at hMem
      refine hMem.resolve_right (fun hMem => ?_)
      obtain ⟨response, rfl⟩ := hTasks task (List.mem_of_mem_filter hMem)
      exact absurd (Option.some.inj hTask) (Nat.ne_of_lt hFuture)
    · intro entry hMem hConcerns
      refine (List.mem_append.1 hMem).resolve_right (fun hMem => ?_)
      rcases hEntries entry hMem with rfl | ⟨response, rfl, -⟩
      · exact hConcerns
      · exact Nat.ne_of_lt hFuture hConcerns
  · intro task hMem
    exact hDeciding.main task (List.mem_filter.2 ((List.mem_filter.1 hMem).imp (hMain task) id))
  · intro task hMem hTask
    simp only [backgroundTasks, List.filter_append, List.mem_append] at hMem
    rcases hMem with hOld | hMem
    · exact hDeciding.background task hOld hTask
    · exact hTasks task (List.mem_of_mem_filter hMem)
  · intro entry hMem hConcerns
    rcases List.mem_append.1 hMem with hOld | hMem
    · exact hDeciding.entries entry hOld hConcerns
    · exact hNew entry hMem hConcerns
  · intro response hMem
    simp only [backgroundTasks, List.filter_append, List.mem_append]
    rcases List.mem_append.1 hMem with hOld | hMem
    · exact Or.inl (hDeciding.answered response hOld)
    · rcases hEntries _ hMem with hSame | ⟨answer, hSame, hTask⟩
      · cases hSame
      · obtain ⟨-, rfl⟩ := Observation.answeredInHeaders.inj hSame
        exact Or.inr (List.mem_filter.2 ⟨hTask, rfl⟩)
  · intro request hMem
    refine h.numbered.flagged request ((List.mem_append.1 hMem).resolve_right (fun hMem => ?_))
    rcases hEntries _ hMem with hSame | ⟨answer, hSame, -⟩ <;> cases hSame
  · intro leftover hMem
    refine h.numbered.handshake leftover ((List.mem_append.1 hMem).resolve_right (fun hMem => ?_))
    rcases hEntries _ hMem with hSame | ⟨answer, hSame, -⟩ <;> cases hSame
  · intro request response hFlagged hAnswered
    left
    refine ⟨rfl, ?_⟩
    rcases List.mem_append.1 hAnswered with hOld | hMem
    · rcases List.mem_append.1 hFlagged with hOldFlag | hMem
      · exact ((h.declining request response hOldFlag hOld).resolve_right (hNotOver _ _)).2
      · rcases hEntries _ hMem with hSame | ⟨answer, hSame, -⟩ <;> cases hSame
    · rcases hEntries _ hMem with hSame | ⟨answer, hSame, -⟩
      · cases hSame
      · exact (Observation.answeredInHeaders.inj hSame).1

omit [DataSource File] [Host] [Digests] in
theorem hasBodyTask_main {request : Nat} {task : MainTask} {rest : List MainTask}
    (hQueue : conn.mainQueue = task :: rest) (hTask : task.ofRequest = some request)
    (hNone : task.decision = none) : conn.HasBodyTask request := by
  refine Or.inl ⟨task, ?_, hTask, hNone⟩
  rw [mainTasks_cons hTask hQueue]
  exact List.mem_cons_self

omit [DataSource File] [Host] [Digests] in
theorem hasBodyTask_background {request : Nat} {task : BackgroundTask File}
    {rest : List (BackgroundTask File)} (hQueue : conn.backgroundQueue = task :: rest)
    (hTask : task.ofRequest = some request) (hNone : task.decision = none) :
    conn.HasBodyTask request := by
  refine Or.inr (Or.inl ⟨task, ?_, hTask, hNone⟩)
  rw [backgroundTasks_cons hTask hQueue]
  exact List.mem_cons_self

omit [DataSource File] [Host] [Digests] in
theorem HasBodyTask.routine {request : Nat} (hTask : conn.HasBodyTask request)
    (h : Minor (some request) conn after) : Routine (some request) conn after where
  toMinor := h
  hasBodyTask := by
    rintro other ⟨⟩
    exact hTask

omit [DataSource File] [Host] [Digests] in
theorem Minor.schedule {middle : Connection File} (h : Minor owner conn middle) (scheduled : Bool) :
    Minor owner conn { middle with responseScheduled := scheduled } :=
  h.trans (.congr rfl rfl rfl rfl id rfl rfl rfl rfl)

omit [HttpParser] [Zlib] [DataSource File] [Host] [Digests] in
theorem Observation.IsOfHeaders.concerns {entry : Observation File} (h : entry.IsOfHeaders) :
    ∃ request, entry.Concerns request := by
  cases entry with
  | onHeadersComplete request upgrade => exact ⟨request, rfl⟩
  | answeredInHeaders request response => exact ⟨request, rfl⟩
  | _ => exact h.elim

omit [DataSource File] [Host] [Digests] in
/-- An entry about none of this. -/
theorem Minor.note {middle : Connection File} (h : Minor owner conn middle)
    (entry : Observation File) (hConcerns : ∀ request, ¬ entry.Concerns request)
    (hHandshake : ∀ leftover, entry ≠ .handshake leftover) (hOpen : .onWSOpen ≠ entry)
    (hRead : ∀ data, .wsRead data ≠ entry) : Minor owner conn (middle.observe entry) := by
  refine h.observe entry ?_ (fun request hSame => absurd hSame (hConcerns request)) hHandshake
    (fun hUses => hUses.of_append (by simpa using hOpen) (by simpa using hRead))
  intro hHeaders
  obtain ⟨request, hSame⟩ := Observation.IsOfHeaders.concerns hHeaders
  exact hConcerns request hSame

theorem Parsed.not_waiting {static : Option (HttpResponse (Body File))} {now : Tm}
    {buffer : Bytes} (h : Parsed conn static now buffer after) (contract : HttpParserContract)
    (hRefused : contract.phase conn.parser = .refused) :
    contract.phase after.parser ≠ .waiting := by
  have hFed : (conn.feed static buffer).parser = (HttpParser.execute conn.parser buffer).parser :=
    parser_feed conn buffer
  have hParser : after.parser = (HttpParser.execute conn.parser buffer).parser := by
    cases h with
    | waiting hWaiting => exact hFed
    | upgrade hWaiting hUpgrade hAfter => exact hAfter.parser.trans hFed
    | quiet hWaiting hUpgrade hQuiet hRest => exact hQuiet.parser.trans hFed
  rw [hParser]
  rcases (contract.silent (Or.inr hRefused) buffer).2 with hSame | ⟨-, hBetween⟩
  · simp [hSame, hRefused]
  · simp [hBetween]

/-- One step, unless it hands the answer to an upgrade to the parser. -/
theorem Refusing.step (contract : HttpParserContract)
    (h : Refusing asked (contract.phase conn.parser) conn)
    (hSound : Sound (contract.phase conn.parser) conn) (hStep : Step conn after)
    (hFront : ∀ request response rest,
      conn.backgroundQueue = .onHeadersCompleteComplete request (some response) :: rest →
        .onHeadersComplete request true ∈ conn.log →
          .onHeadersCompleteComplete request (some response) ∈ after.backgroundTasks) :
    Refusing asked (contract.phase after.parser) after := by
  cases hStep with
  | quiet hQuiet =>
      rw [hQuiet.parser]
      exact h.routine { (Minor.refl conn).quiet hQuiet with
        hasBodyTask := fun request (hNone : none = some request) => by cases hNone }
  | read static now data hReading hIgnore hProtocol hParsed =>
      exact h.read contract hSound hReading hProtocol hParsed
  | @onHeadersCompleteComplete middle _ request response rest static now hQueue hMiddle hParsed =>
      refine h.unanswered contract hSound hQueue ?_ hMiddle hParsed
      intro hSome hFlagged
      obtain ⟨answer, rfl⟩ := Option.isSome_iff_exists.1 hSome
      -- the task that has run is still there, so the step was another one
      have hTask := hFront request answer rest hQueue hFlagged
      have hRefused : contract.phase middle.parser = .refused := by
        rw [parser_headersCompleted hMiddle]
        exact contract.refuse _ (hSound.front hQueue).1
      have hAfter : Sound (contract.phase after.parser) after :=
        hSound.step contract (.onHeadersCompleteComplete static now hQueue hMiddle hParsed)
      have hNone : after.decisions = [] :=
        hAfter.deciding.resolve_right (fun hWaiting => hParsed.not_waiting contract hRefused hWaiting.1)
      rw [decisions, List.append_eq_nil_iff, List.filterMap_eq_nil_iff,
        List.filterMap_eq_nil_iff] at hNone
      exact absurd (hNone.2 _ hTask) (by simp [BackgroundTask.decision])
  | @onBodyError _ request response rest hQueue hAfter =>
      have hFinishes := onBodyError_finishes hAfter
      rw [hFinishes.parser, contract.pause]
      have hPopped : Minor (some request) conn
          { conn with backgroundQueue := rest, parser := HttpParser.pause conn.parser } :=
        (Minor.popBackground rfl rfl hQueue).trans (.congr rfl rfl rfl rfl id rfl rfl rfl rfl)
      have hTask : conn.HasBodyTask request := hasBodyTask_background hQueue rfl rfl
      exact h.routine (hTask.routine (hPopped.finishes hFinishes))
  | @onMessageCompleteComplete _ request response rest hQueue hAfter =>
      have hTask : conn.HasBodyTask request := hasBodyTask_background hQueue rfl rfl
      have hPopped : Minor (some request) conn { conn with backgroundQueue := rest } :=
        Minor.popBackground rfl rfl hQueue
      rcases onMessageCompleteComplete_cases hAfter with ⟨rfl, -⟩ | ⟨-, answer, -, hFinishes⟩
      · exact h.routine (hTask.routine hPopped)
      · rw [hFinishes.parser]
        exact h.routine (hTask.routine (hPopped.finishes hFinishes))
  | @decided request rest hQueue response =>
      refine h.onHeaders hSound hQueue _ (fun task hMem => ⟨_, List.mem_singleton.1 hMem⟩) ?_
      intro entry hMem
      rcases List.mem_cons.1 hMem with rfl | hMem
      · exact Or.inl rfl
      · obtain ⟨answer, hAnswer, rfl⟩ := List.mem_map.1 hMem
        rw [Option.mem_toList] at hAnswer
        exact Or.inr ⟨answer, rfl, by simp [hAnswer]⟩
  | @undecided request rest hQueue =>
      have hUndecided : Refusing asked (contract.phase conn.parser) { conn with
          mainQueue := rest
          log := conn.log ++ [.onHeaders request]
          backgroundQueue := conn.backgroundQueue ++ [] } :=
        h.onHeaders hSound hQueue conn.responseScheduled (List.forall_mem_nil _)
          (fun entry hMem => Or.inl (List.mem_singleton.1 hMem))
      rw [List.append_nil] at hUndecided
      exact hUndecided
  | @bodySkipped request data rest hQueue hScheduled =>
      have hTask : conn.HasBodyTask request := hasBodyTask_main hQueue rfl rfl
      exact h.routine (hTask.routine (.popMain rfl hQueue))
  | @bodyTaken request data rest hQueue hScheduled =>
      have hTask : conn.HasBodyTask request := hasBodyTask_main hQueue rfl rfl
      have hPopped : Minor (some request) conn { conn with mainQueue := rest } :=
        .popMain rfl hQueue
      exact h.routine (hTask.routine (hPopped.note (.onBodyData request false) (fun _ => id)
        (by simp) (by simp) (by simp)))
  | @bodyFailed request data rest hQueue hScheduled now =>
      have hTask : conn.HasBodyTask request := hasBodyTask_main hQueue rfl rfl
      have hPopped : Minor (some request) conn { conn with mainQueue := rest } :=
        .popMain rfl hQueue
      have hFailed := (hPopped.schedule true).note (.onBodyData request true) (fun _ => id)
        (by simp) (by simp) (by simp)
      exact h.routine (hTask.routine (hFailed.push rfl rfl (by simp)))
  | @callSkipped request rest hQueue hScheduled =>
      have hTask : conn.HasBodyTask request := hasBodyTask_main hQueue rfl rfl
      have hPopped : Minor (some request) conn { conn with mainQueue := rest } :=
        .popMain rfl hQueue
      exact h.routine (hTask.routine ((hPopped.schedule true).push rfl rfl (by simp)))
  | @called request rest hQueue hScheduled response =>
      have hTask : conn.HasBodyTask request := hasBodyTask_main hQueue rfl rfl
      have hPopped : Minor (some request) conn { conn with mainQueue := rest } :=
        .popMain rfl hQueue
      have hCalled := (hPopped.schedule true).note (.call request) (fun _ => id)
        (by simp) (by simp) (by simp)
      exact h.routine (hTask.routine (hCalled.push rfl rfl (by simp)))
  | @promised request rest hQueue hScheduled =>
      have hTask : conn.HasBodyTask request := hasBodyTask_main hQueue rfl rfl
      have hPopped : Minor (some request) conn { conn with mainQueue := rest } :=
        .popMain rfl hQueue
      have hPromised := hPopped.promise (conn.promises ++ [request]) (by
        intro other hMem
        rcases List.mem_append.1 hMem with hOld | hNew
        · exact Or.inr hOld
        · exact Or.inl (congrArg some (List.mem_singleton.1 hNew).symm))
      exact h.routine (hTask.routine (hPromised.note (.call request) (fun _ => id)
        (by simp) (by simp) (by simp)))
  | @settled index request hPromise response =>
      have hTask : conn.HasBodyTask request := Or.inr (Or.inr (List.mem_of_getElem? hPromise))
      have hErased : Minor (some request) conn { conn with promises := conn.promises.eraseIdx index } :=
        (Minor.refl conn).promise _ (fun other hMem => Or.inr (List.mem_of_mem_eraseIdx hMem))
      exact h.routine (hTask.routine ((hErased.schedule true).push rfl rfl (by simp)))
  | @rejected index request hPromise =>
      have hTask : conn.HasBodyTask request := Or.inr (Or.inr (List.mem_of_getElem? hPromise))
      have hErased : Minor (some request) conn { conn with promises := conn.promises.eraseIdx index } :=
        (Minor.refl conn).promise _ (fun other hMem => Or.inr (List.mem_of_mem_eraseIdx hMem))
      exact h.routine (hTask.routine hErased)

/-! Only the background thread takes tasks from its queue. -/

omit [Host] [Digests] in
theorem backgroundTasks_onEvent (conn : Connection File)
    (static : Option (HttpResponse (Body File))) (event : ParserEvent) :
    conn.backgroundTasks ⊆ (conn.onEvent static event).backgroundTasks := by
  cases event with
  | onMessageBegin =>
      have hBegun : conn.backgroundTasks ⊆ conn.begun.backgroundTasks := List.Subset.refl _
      rwa [← (quiet_newRequest conn).backgroundTasks] at hBegun
  | onHeadersComplete upgrade =>
      simp only [onEvent, onHeadersComplete]
      split
      · rw [backgroundTasks_push rfl]
        exact List.subset_append_left _ _
      · exact List.Subset.refl _
  | onMessageComplete =>
      simp only [onEvent, onMessageComplete]
      split_ifs
      · exact List.Subset.refl _
      · exact List.Subset.refl _
  | _ => exact List.Subset.refl _

omit [Host] [Digests] in
theorem backgroundTasks_feed (conn : Connection File)
    (static : Option (HttpResponse (Body File))) (buffer : Bytes) :
    conn.backgroundTasks ⊆ (conn.feed static buffer).backgroundTasks := by
  have hEvents : ∀ (events : List ParserEvent) (conn : Connection File),
      conn.backgroundTasks ⊆ (events.foldl (onEvent static) conn).backgroundTasks := by
    intro events
    induction events with
    | nil => exact fun conn => List.Subset.refl _
    | cons event events ih =>
        exact fun conn => List.Subset.trans (backgroundTasks_onEvent conn static event) (ih _)
  exact hEvents _ ({ conn with parser := (HttpParser.execute conn.parser buffer).parser }.observe
    (.execute (buffer.take (HttpParser.execute conn.parser buffer).parsed)))

theorem Parsed.backgroundTasks {static : Option (HttpResponse (Body File))} {now : Tm}
    {buffer : Bytes} (h : Parsed conn static now buffer after) :
    conn.backgroundTasks ⊆ after.backgroundTasks := by
  have hFed := backgroundTasks_feed conn static buffer
  cases h with
  | waiting hWaiting => exact hFed
  | upgrade hWaiting hUpgrade hAfter =>
      cases hAfter with
      | gone hGone => exact hFed
      | refused hRefused hQuiet hClosed =>
          rw [hQuiet.backgroundTasks]
          exact hFed
      | accepted hOpen hAccepted hHandshake hAnswered =>
          obtain ⟨entries, hWrote⟩ := Connection.wrote hAnswered
          obtain ⟨writes, rfl⟩ := hWrote.same
          exact hFed
  | quiet hWaiting hUpgrade hQuiet hRest =>
      rw [hQuiet.backgroundTasks]
      exact hFed

omit [DataSource File] [Host] [Digests] in
theorem backgroundTasks_subset_push {middle : Connection File}
    (h : middle.backgroundTasks = conn.backgroundTasks) (task : BackgroundTask File) :
    conn.backgroundTasks ⊆ (middle.push task).backgroundTasks := by
  simp only [backgroundTasks, Connection.push, List.filter_append] at h ⊢
  rw [h]
  exact List.subset_append_left _ _

omit [Host] [Digests] in
theorem backgroundTasks_runMain {outcome : AppOutcome File} {calls : List WSCall} {now : Tm}
    (h : conn.runMain outcome calls now = some after) :
    conn.backgroundTasks ⊆ after.backgroundTasks := by
  obtain ⟨task, rest, hQueue, rfl⟩ := runMain_cases h
  cases task with
  | initializeEnv =>
      exact List.Subset.refl _
  | onHeaders request =>
      cases outcome with
      | returned answer => cases answer <;> exact backgroundTasks_subset_push rfl _
      | failed => exact backgroundTasks_subset_push rfl _
      | malformed => exact List.Subset.refl _
      | promise => exact List.Subset.refl _
  | onBodyData request data =>
      unfold performed Connection.onBodyData
      split_ifs
      · exact List.Subset.refl _
      · cases outcome with
        | failed => exact backgroundTasks_subset_push rfl _
        | _ => exact List.Subset.refl _
  | getResponse request =>
      unfold performed Connection.getResponse
      split_ifs
      · exact backgroundTasks_subset_push rfl _
      · cases outcome with
        | promise => exact List.Subset.refl _
        | _ => exact backgroundTasks_subset_push rfl _
  | callROnWSOpen =>
      have hUses : conn.UsesWebSocket := Or.inr (Or.inl (by simp [hQueue]))
      have hQuiet := (quiet_popMain hQueue rfl).callROnWSOpen hUses outcome calls
      rw [performed, hQuiet.backgroundTasks]
      exact List.Subset.refl _
  | onWSMessage binary data =>
      cases outcome with
      | failed => exact backgroundTasks_subset_push rfl _
      | _ => exact List.Subset.refl _
  | onWSClose =>
      exact List.Subset.refl _

theorem backgroundTasks_next {action : ConnectionAction File} (h : conn.next action = some after)
    (hAction : ∀ static now freed, action ≠ .runBackground static now freed) :
    conn.backgroundTasks ⊆ after.backgroundTasks := by
  have hQuiet : Quiet conn after → conn.backgroundTasks ⊆ after.backgroundTasks := by
    intro hQuiet
    rw [hQuiet.backgroundTasks]
    exact List.Subset.refl _
  cases action with
  | read data static now =>
      simp only [next, Option.ite_none_right_eq_some] at h
      rcases onRead_cases h.2 with ⟨-, -, hParsed⟩ | hNothing
      · exact hParsed.backgroundTasks
      · exact hQuiet hNothing.1
  | readError =>
      simp only [next, Option.ite_none_right_eq_some, Option.some.injEq] at h
      obtain ⟨-, rfl⟩ := h
      exact hQuiet (quiet_close conn)
  | written status queueEmpty => exact hQuiet (quiet_onWritten h)
  | onClosed => exact hQuiet (quiet_onClosed h)
  | pingTimer =>
      simp only [next, Option.bind_eq_bind, Option.bind_eq_some_iff, Option.pure_def,
        Option.some.injEq] at h
      obtain ⟨callbacks, -, rfl⟩ := h
      exact hQuiet (quiet_runWebSocket _ _ _)
  | stop =>
      obtain rfl := Option.some.inj h
      exact hQuiet (quiet_close conn)
  | runBackground static now freed => exact absurd rfl (hAction static now freed)
  | runMain outcome calls now => exact backgroundTasks_runMain h
  | settle index outcome now =>
      simp only [next, settle, Option.bind_eq_bind, Option.bind_eq_some_iff] at h
      obtain ⟨request, -, h⟩ := h
      cases outcome with
      | returned answer =>
          obtain rfl := Option.some.inj h
          exact backgroundTasks_subset_push rfl _
      | _ =>
          obtain rfl := Option.some.inj h
          exact List.Subset.refl _
  | wsCall call =>
      obtain rfl := Option.some.inj h
      exact hQuiet (quiet_wsCall conn call)

/-- No WebSocket takes the answered upgrade whose response is written next. With
`asked`, the headers may be for none of its parsers instead. -/
def Declines (asked : Prop) (conn : Connection File) : ConnectionAction File → Prop
  | .runBackground _ _ _ => ∀ request ∈ conn.backgroundQueue.head?.bind BackgroundTask.answered,
      request ∈ upgrades conn.log → conn.pWebSocketConnection = false ∨
        asked ∧ conn.websocket.acceptedParser conn.head.headers (conn.requestBuffer.drop
          (HttpParser.execute (HttpParser.headersCompleted conn.parser 3)
            conn.requestBuffer).parsed) = none
  | _ => True

instance (asked : Prop) [Decidable asked] (conn : Connection File) :
    ∀ action, Decidable (conn.Declines asked action)
  | .runBackground _ _ _ => inferInstanceAs (Decidable
      (∀ request ∈ conn.backgroundQueue.head?.bind BackgroundTask.answered,
        request ∈ upgrades conn.log → conn.pWebSocketConnection = false ∨
          asked ∧ conn.websocket.acceptedParser conn.head.headers (conn.requestBuffer.drop
            (HttpParser.execute (HttpParser.headersCompleted conn.parser 3)
              conn.requestBuffer).parsed) = none))
  | .read _ _ _ => .isTrue trivial
  | .readError => .isTrue trivial
  | .written _ _ => .isTrue trivial
  | .onClosed => .isTrue trivial
  | .pingTimer => .isTrue trivial
  | .stop => .isTrue trivial
  | .runMain _ _ _ => .isTrue trivial
  | .settle _ _ _ => .isTrue trivial
  | .wsCall _ => .isTrue trivial

theorem Refusing.next (contract : HttpParserContract) {action : ConnectionAction File}
    (h : Refusing asked (contract.phase conn.parser) conn)
    (hSound : Sound (contract.phase conn.parser) conn) (hDeclines : conn.Declines asked action)
    (hNext : conn.next action = some after) :
    Refusing asked (contract.phase after.parser) after := by
  by_cases hAction : ∃ static now freed, action = .runBackground static now freed
  · obtain ⟨static, now, freed, rfl⟩ := hAction
    by_cases hFront : ∃ request response rest,
        conn.backgroundQueue = .onHeadersCompleteComplete request (some response) :: rest ∧
          .onHeadersComplete request true ∈ conn.log
    · obtain ⟨request, response, rest, hQueue, hFlagged⟩ := hFront
      simp only [Connection.next, runBackground, hQueue, Option.bind_eq_bind,
        Option.bind_eq_some_iff] at hNext
      obtain ⟨middle, hMiddle, hAfter⟩ := hNext
      have hDeclined := hDeclines request (by simp [hQueue, BackgroundTask.answered])
        (mem_upgrades.2 hFlagged)
      exact h.answered contract hSound hQueue hFlagged hDeclined hMiddle hAfter
    · refine h.step contract hSound (Connection.step hNext) ?_
      intro request response rest hQueue hFlagged
      exact absurd ⟨request, response, rest, hQueue, hFlagged⟩ hFront
  · refine h.step contract hSound (Connection.step hNext) ?_
    intro request response rest hQueue hFlagged
    apply backgroundTasks_next hNext
      (fun static now freed hSame => hAction ⟨static, now, freed, hSame⟩)
    rw [backgroundTasks_cons rfl hQueue]
    exact List.mem_cons_self

omit [DataSource File] [Host] [Digests] in
theorem Initial.refusing (h : Initial conn) : Refusing asked phase conn := by
  obtain ⟨incompleteContentHeader, header, rfl⟩ := h
  have hUntouched : ∀ request, (fresh incompleteContentHeader header : Connection File).Untouched
      request := by
    intro request
    refine ⟨?_, List.forall_mem_nil _⟩
    rintro (⟨task, hMem, -⟩ | ⟨task, hMem, -⟩ | hPromise)
    · exact List.not_mem_nil hMem
    · exact List.not_mem_nil hMem
    · exact List.not_mem_nil hPromise
  refine ⟨⟨fun request _ => hUntouched request, fun _ => ?_, ?_, ?_⟩, fun _ _ _ => hUntouched _, ?_⟩
  · exact ⟨List.forall_mem_nil _, List.forall_mem_nil _, List.not_mem_nil, List.forall_mem_nil _,
      fun response hMem => absurd hMem List.not_mem_nil⟩
  · exact fun request hMem => absurd hMem List.not_mem_nil
  · exact fun leftover hMem => absurd hMem List.not_mem_nil
  · exact fun request response hMem => absurd hMem List.not_mem_nil

omit [DataSource File] [Host] [Digests] in
/-- The answer is on its way, so nothing has come of it yet. -/
theorem Numbered.pending {request : Nat} {response : HttpResponse (Body File)}
    (h : Numbered .waiting conn) (hSound : Sound .waiting conn) (hCurrent : request = conn.current)
    (hAnswered : .answeredInHeaders request response ∈ conn.log) :
    Refused asked conn request response := by
  subst hCurrent
  have hDeciding := h.waiting rfl
  have hHttp : ¬ conn.UsesWebSocket := by
    intro hUses
    have hNone := (hSound.switched hUses).2
    rw [decisions, List.append_eq_nil_iff, List.filterMap_eq_nil_iff,
      List.filterMap_eq_nil_iff] at hNone
    exact absurd (hNone.2 _ (hDeciding.answered response hAnswered))
      (by simp [BackgroundTask.decision])
  refine ⟨Or.inl (responses_eq_nil ?_), ?_, ?_, hHttp⟩
  · exact fun serial kind answer hMem => hDeciding.entries _ hMem rfl
  · exact fun accepted hMem => (hDeciding.entries _ hMem rfl).elim
  · exact fun leftover hMem => hHttp (Or.inl (h.handshake leftover hMem))

/-- **An upgrade that the application answers in its headers is refused**: in every
run in which no WebSocket takes such a request, the response is the only one, and
nothing of a WebSocket happens. -/
theorem upgrade_refused (asked : Prop) (contract : HttpParserContract)
    {start finish : Connection File} {actions : List (ConnectionAction File)} {outputs : List Unit}
    (hInitial : Initial start)
    (run : (system.guarded (Declines asked)).Run start actions finish outputs)
    {request : Nat} {response : HttpResponse (Body File)}
    (hUpgrade : request ∈ upgrades finish.log)
    (hAnswered : .answeredInHeaders request response ∈ finish.log) :
    Refused asked finish request response := by
  obtain ⟨hSound, hRefusing⟩ : Sound (contract.phase finish.parser) finish ∧
      Refusing asked (contract.phase finish.parser) finish := by
    apply run.invariant (I := fun conn _ => Sound (contract.phase conn.parser) conn ∧
      Refusing asked (contract.phase conn.parser) conn)
    · exact ⟨hInitial.sound contract, hInitial.refusing⟩
    · rintro conn outputs action after emitted ⟨hSound, hRefusing⟩ ⟨hDeclines, hNext⟩
      obtain ⟨result, hResult, hSame⟩ := Option.map_eq_some_iff.1 hNext
      obtain rfl : result = after := congrArg Prod.fst hSame
      exact ⟨hSound.step contract (Connection.step hResult),
        hRefusing.next contract hSound hDeclines hResult⟩
  rcases hRefusing.declining request response (mem_upgrades.1 hUpgrade) hAnswered with ⟨hWaiting, hCurrent⟩ | hOver
  · rw [hWaiting] at hSound
    have hNumbered := hRefusing.numbered
    rw [hWaiting] at hNumbered
    exact hNumbered.pending hSound hCurrent hAnswered
  · exact hOver.refused

omit [HttpParser] [Zlib] [DataSource File] [Host] [Digests] in
/-- The client goes away while `onHeaders` refuses the upgrade. -/
theorem upgrade_refused_gone :
    let _ : HttpParser := httpParser
    let _ : Zlib := HttpResponse.SampleStream.zlib
    let _ : Host := littleEndianHost
    let _ : Digests := sampleDigests
    ∃ (finish : Connection InMemoryDataSource) (response : HttpResponse (Body InMemoryDataSource)),
      (system.guarded (Declines False)).Run
        (fresh WSHixie76Parser.textInfo WSHixie76Parser.textInfo)
        [.read sampleUpgrade none .epoch, .runMain (.returned none) [] .epoch,
          .runMain (.returned (some (.response 403 [] none))) [] .epoch, .readError, .onClosed,
          .runBackground none .epoch []] finish [] ∧
      upgrades finish.log = [1] ∧ answers 1 finish.log = [response] ∧
      (responses 1 finish.log).map (fun call => (call.1, call.2.statusCode)) = [(.final, 403)] ∧
      Refused False finish 1 response := by
  intro parser zlib host digests
  obtain ⟨finish, hRun, hFacts⟩ : ∃ finish,
      [ConnectionAction.read sampleUpgrade none .epoch, .runMain (.returned none) [] .epoch,
        .runMain (.returned (some (.response 403 [] none))) [] .epoch, .readError, .onClosed,
        .runBackground none .epoch []].foldlM
          (fun (conn : Connection InMemoryDataSource) action =>
            if conn.Declines False action then conn.next action else none)
          (fresh WSHixie76Parser.textInfo WSHixie76Parser.textInfo) = some finish ∧
      (upgrades finish.log, (answers 1 finish.log).length,
        (responses 1 finish.log).map (fun call => (call.1, call.2.statusCode))) =
          ([1], 1, [(.final, 403)]) :=
    Option.map_eq_some_iff.1 (by decide +kernel)
  obtain ⟨hUpgrades, hRest⟩ := Prod.mk.inj hFacts
  obtain ⟨hLength, hResponses⟩ := Prod.mk.inj hRest
  obtain ⟨response, hAnswers⟩ := List.length_eq_one_iff.1 hLength
  have hGuarded := guarded_of_foldlM hRun
  have hMem : response ∈ answers 1 finish.log := by
    rw [hAnswers]
    exact List.mem_singleton_self response
  refine ⟨finish, response, hGuarded, hUpgrades, hAnswers, hResponses, ?_⟩
  exact upgrade_refused False httpParserContract ⟨_, _, rfl⟩ hGuarded
    (by simp [hUpgrades]) (answered_of_mem hMem)

omit [HttpParser] [Zlib] [DataSource File] [Host] [Digests] in
/-- `onHeaders` answers 403, and the request is switched to WebSockets all the same. -/
theorem upgrade_not_refused :
    let _ : HttpParser := httpParser
    let _ : Zlib := HttpResponse.SampleStream.zlib
    let _ : Host := littleEndianHost
    let _ : Digests := sampleDigests
    ∃ (finish : Connection InMemoryDataSource) (response : HttpResponse (Body InMemoryDataSource)),
      system.Run (fresh WSHixie76Parser.textInfo WSHixie76Parser.textInfo)
        [.read sampleUpgrade none .epoch, .runMain (.returned none) [] .epoch,
          .runMain (.returned (some (.response 403 [] none))) [] .epoch,
          .runBackground none .epoch []] finish [] ∧
      upgrades finish.log = [1] ∧ answers 1 finish.log = [response] ∧
      (responses 1 finish.log).map (fun call => (call.1, call.2.statusCode)) =
        [(.final, 403), (.switching, 101)] ∧
      finish.protocol = .webSockets ∧ ∀ asked, ¬ Refused asked finish 1 response := by
  intro parser zlib host digests
  obtain ⟨finish, hRun, hFacts⟩ : ∃ finish,
      [ConnectionAction.read sampleUpgrade none .epoch, .runMain (.returned none) [] .epoch,
        .runMain (.returned (some (.response 403 [] none))) [] .epoch,
        .runBackground none .epoch []].foldlM next
          (fresh WSHixie76Parser.textInfo WSHixie76Parser.textInfo :
            Connection InMemoryDataSource) = some finish ∧
      (upgrades finish.log, (answers 1 finish.log).length,
        (responses 1 finish.log).map (fun call => (call.1, call.2.statusCode)), finish.protocol) =
          ([1], 1, [(.final, 403), (.switching, 101)], .webSockets) :=
    Option.map_eq_some_iff.1 (by decide +kernel)
  obtain ⟨hUpgrades, hRest⟩ := Prod.mk.inj hFacts
  obtain ⟨hLength, hRest⟩ := Prod.mk.inj hRest
  obtain ⟨hResponses, hProtocol⟩ := Prod.mk.inj hRest
  obtain ⟨response, hAnswers⟩ := List.length_eq_one_iff.1 hLength
  refine ⟨finish, response, run_of_foldlM hRun, hUpgrades, hAnswers, hResponses, hProtocol, ?_⟩
  exact fun asked hRefused => hRefused.webSockets (Or.inl hProtocol)

end Parse

end Connection

end Httpuv
