import Httpuv.Http.ExtendedWrite

/-! When an `ExtendedWrite` calls `onWriteComplete`, and when it is left behind. -/
namespace Httpuv

open Semantics

namespace ExtendedWrite

variable {Source : Type} [DataSource Source]

/-- With no write under way, `next` either disposes of the stream or issues
exactly one write. -/
theorem next_cases {write : ExtendedWrite Source} (hIdle : write.activeWrites = 0)
    (accepted : Bool) :
    (write.issuesWrite = false ∧ ∃ front status, (front = [] ∨ front = [.freeData]) ∧
      (write.next accepted).2 = front ++ [.close, .onWriteComplete status]) ∨
    (write.issuesWrite = true ∧ (write.next accepted).1.activeWrites = 1 ∧
      ∃ bufs, (write.next accepted).2 = [.uvWrite bufs accepted]) := by
  unfold next issuesWrite
  by_cases hOver : (write.errored || write.completed) = true
  · left
    rw [if_pos hOver, dispose, if_pos hIdle]
    exact ⟨by simp [hOver], [], _, Or.inl rfl, rfl⟩
  · rw [if_neg hOver]
    simp only [Bool.not_eq_true] at hOver
    cases hData : DataSource.getData write.pDataSource bytesDesired with
    | none =>
        left
        simp only [if_pos hIdle]
        exact ⟨by simp, [], 1, Or.inl rfl, rfl⟩
    | some result =>
        obtain ⟨buf, source⟩ := result
        by_cases hEmpty : buf = []
        · cases hChunked : write.chunked with
          | true =>
              right
              simp [hOver, hEmpty, pre, post, TRAILER, ascii, hIdle]
          | false =>
              left
              simp only [pre, post, hEmpty, dispose, hIdle]
              exact ⟨by simp, [.freeData], _, Or.inr rfl, rfl⟩
        · right
          simp [hOver, hEmpty, hIdle]

end ExtendedWrite

def WriteEffect.isComplete : WriteEffect → Bool
  | .onWriteComplete _ => true
  | _ => false

namespace WriteState

variable {Source : Type} [DataSource Source]

/-- The source has been closed and the completion reported. -/
def Settled (log : List WriteEffect) : Prop :=
  .close ∈ log ∧ ∃ status, .onWriteComplete status ∈ log

/-- Nothing of this object is under way any more, so it must have settled. This
is asked of every state of the run. -/
def SettlesThroughout (start : WriteState Source) (actions : List WriteAction) : Prop :=
  ∀ before after middle past, actions = before ++ after → system.Run start before middle past →
    middle.begun = true → middle.outstanding = 0 → Settled past

/-- The write that the step issues, if any, is accepted, and a completion finds
the write queue of the handle empty. -/
def Undisturbed (state : WriteState Source) : WriteAction → Prop
  | .begin accepted => state.write.issuesWrite = true → accepted = true
  | .complete _ queueEmpty accepted =>
      queueEmpty = true ∧ (state.write.issuesWrite = true → accepted = true)

/-- At most one write is under way, and the completion comes after the last. -/
structure Tracked (state : WriteState Source) (log : List WriteEffect) : Prop where
  notBegun : state.begun = false → state.outstanding = 0 ∧ state.write.activeWrites = 0 ∧
    ∀ effect ∈ log, ¬ effect.isComplete
  single : state.outstanding ≤ 1
  underWay : state.outstanding = 1 → state.begun = true ∧ state.write.activeWrites = 1 ∧
    ∀ effect ∈ log, ¬ effect.isComplete
  once : log.countP WriteEffect.isComplete ≤ 1

/-- What a step can do: dispose of the stream, go on with one accepted write, or
leave nothing under way without having settled. -/
theorem step_cases {state after : WriteState Source} {action : WriteAction}
    {log effects : List WriteEffect} (h : Tracked state log)
    (hStep : state.step action = some (after, effects)) :
    after.begun = true ∧ (∀ effect ∈ log, ¬ effect.isComplete) ∧
    ((after.outstanding = 0 ∧ Undisturbed state action ∧ ∃ front status,
        (∀ effect ∈ front, ¬ effect.isComplete) ∧
        effects = front ++ [.close, .onWriteComplete status]) ∨
      ((∀ effect ∈ effects, ¬ effect.isComplete) ∧
        (after.outstanding = 1 ∧ after.write.activeWrites = 1 ∧ Undisturbed state action ∨
          after.outstanding = 0 ∧ ¬ Undisturbed state action))) := by
  cases action with
  | begin accepted =>
      simp only [step] at hStep
      split_ifs at hStep with hBegun
      obtain ⟨hOutstanding, hIdle, hLog⟩ := h.notBegun (by simpa using hBegun)
      simp only [Option.some.injEq, Prod.mk.injEq] at hStep
      obtain ⟨rfl, rfl⟩ := hStep
      refine ⟨rfl, hLog, ?_⟩
      rcases ExtendedWrite.next_cases hIdle accepted with
        ⟨hIssues, front, status, hFront, hEffects⟩ | ⟨hIssues, hActive, bufs, hEffects⟩
      · left
        rw [hEffects]
        refine ⟨?_, by simp [Undisturbed, hIssues], front, status, ?_, rfl⟩
        · rcases hFront with rfl | rfl <;> simp [issued, hOutstanding]
        · rcases hFront with rfl | rfl <;> simp [WriteEffect.isComplete]
      · right
        rw [hEffects]
        refine ⟨by simp [WriteEffect.isComplete], ?_⟩
        cases accepted <;> simp [issued, hOutstanding, Undisturbed, hIssues, hActive]
  | complete status queueEmpty accepted =>
      simp only [step] at hStep
      split_ifs at hStep with hNone hQueue
      · have hOne : state.outstanding = 1 := by
          have hSingle := h.single
          omega
        obtain ⟨hBegun, hActive, hLog⟩ := h.underWay hOne
        simp only [Option.some.injEq, Prod.mk.injEq] at hStep
        obtain ⟨rfl, rfl⟩ := hStep
        refine ⟨hBegun, hLog, ?_⟩
        have hIdle : ({ state.write with
            activeWrites := state.write.activeWrites - 1 } : ExtendedWrite Source).activeWrites =
            0 := by
          simp only [hActive]
        rcases ExtendedWrite.next_cases hIdle accepted with
          ⟨hIssues, front, status, hFront, hEffects⟩ | ⟨hIssues, hActive, bufs, hEffects⟩
        · have hIssues : state.write.issuesWrite = false := hIssues
          left
          rw [hEffects]
          refine ⟨?_, by simp [Undisturbed, hIssues, hQueue], .freeData :: front, status, ?_, rfl⟩
          · rcases hFront with rfl | rfl <;> simp [issued, hOne]
          · rcases hFront with rfl | rfl <;> simp [WriteEffect.isComplete]
        · have hIssues : state.write.issuesWrite = true := hIssues
          right
          rw [hEffects]
          refine ⟨by simp [WriteEffect.isComplete], ?_⟩
          cases accepted <;> simp [issued, hOne, Undisturbed, hIssues, hActive, hQueue]
      · have hOne : state.outstanding = 1 := by
          have hSingle := h.single
          omega
        obtain ⟨hBegun, hActive, hLog⟩ := h.underWay hOne
        simp only [Option.some.injEq, Prod.mk.injEq] at hStep
        obtain ⟨rfl, rfl⟩ := hStep
        refine ⟨hBegun, hLog, Or.inr ⟨by simp [WriteEffect.isComplete], Or.inr ⟨?_, ?_⟩⟩⟩
        · simp [hOne]
        · simp [Undisturbed, hQueue]

theorem tracked_step {state after : WriteState Source} {action : WriteAction}
    {log effects : List WriteEffect} (h : Tracked state log)
    (hStep : state.step action = some (after, effects)) : Tracked after (log ++ effects) := by
  obtain ⟨hBegun, hLog, hCases⟩ := step_cases h hStep
  have hNone : log.countP WriteEffect.isComplete = 0 := List.countP_eq_zero.2 hLog
  rcases hCases with ⟨hOutstanding, -, front, status, hFront, rfl⟩ | ⟨hEffects, hOutstanding⟩
  · have hFrontNone : front.countP WriteEffect.isComplete = 0 := List.countP_eq_zero.2 hFront
    refine ⟨by simp [hBegun], by omega, by omega, ?_⟩
    simp [List.countP_append, hNone, hFrontNone, WriteEffect.isComplete, List.countP_cons]
  · have hAll : ∀ effect ∈ log ++ effects, ¬ effect.isComplete := by
      intro effect hMem
      rcases List.mem_append.1 hMem with hMem | hMem
      · exact hLog effect hMem
      · exact hEffects effect hMem
    refine ⟨by simp [hBegun], by omega, ?_, ?_⟩
    · intro hOne
      refine ⟨hBegun, ?_, hAll⟩
      rcases hOutstanding with ⟨-, hActive, -⟩ | ⟨hZero, -⟩
      · exact hActive
      · omega
    · rw [List.countP_eq_zero.2 hAll]
      omega

theorem tracked_run {start finish : WriteState Source} {actions : List WriteAction}
    {log : List WriteEffect} (hStart : Initial start) (run : system.Run start actions finish log) :
    Tracked finish log := by
  refine System.Run.invariant run ?_ fun s os action t es h hStep => tracked_step h hStep
  obtain ⟨source, chunked, rfl⟩ := hStart
  exact ⟨fun _ => ⟨rfl, rfl, by simp⟩, by simp [construct], by simp [construct], by simp⟩

theorem not_settled {log : List WriteEffect} (h : ∀ effect ∈ log, ¬ effect.isComplete) :
    ¬ Settled log := by
  rintro ⟨-, status, hMem⟩
  exact h _ hMem rfl

/-- In an undisturbed run the stream has settled whenever nothing is under way. -/
theorem settled_of_undisturbed {start finish : WriteState Source} {actions : List WriteAction}
    {log : List WriteEffect} (hStart : Initial start)
    (run : (system.guarded Undisturbed).Run start actions finish log)
    (hBegun : finish.begun = true) (hNothing : finish.outstanding = 0) : Settled log := by
  cases run with
  | nil =>
      obtain ⟨source, chunked, rfl⟩ := hStart
      cases hBegun
  | snoc prior last =>
      obtain ⟨hGuard, hStep⟩ := last
      obtain ⟨-, -, hCases⟩ := step_cases (tracked_run hStart prior.of_guarded) hStep
      rcases hCases with ⟨-, -, front, status, -, rfl⟩ | ⟨-, ⟨hOne, -⟩ | ⟨-, hDisturbed⟩⟩
      · exact ⟨by simp, status, by simp⟩
      · omega
      · exact absurd hGuard hDisturbed

/-- A run that settles throughout has not been disturbed at any step. -/
theorem guarded_of_settlesThroughout {start finish : WriteState Source}
    {actions : List WriteAction} {log : List WriteEffect} (hStart : Initial start)
    (run : system.Run start actions finish log) (hSettles : SettlesThroughout start actions) :
    (system.guarded Undisturbed).Run start actions finish log := by
  induction run with
  | nil => exact .nil
  | @snoc actions middle finish log effects action prior last ih =>
      have hPrior : SettlesThroughout start actions := by
        intro before after state past hActions
        exact hSettles before (after ++ [action]) state past (by rw [hActions]; simp)
      refine (ih hPrior).snoc ⟨?_, last⟩
      have hFinish := hSettles (actions ++ [action]) [] finish (log ++ effects) (by simp)
        (prior.snoc last)
      obtain ⟨hBegun, hLog, hCases⟩ := step_cases (tracked_run hStart prior) last
      rcases hCases with ⟨-, hGuard, -⟩ | ⟨hEffects, ⟨-, -, hGuard⟩ | ⟨hNothing, -⟩⟩
      · exact hGuard
      · exact hGuard
      · refine absurd (hFinish hBegun hNothing) (not_settled ?_)
        intro effect hMem
        rcases List.mem_append.1 hMem with hMem | hMem
        · exact hLog effect hMem
        · exact hEffects effect hMem

theorem settlesThroughout_of_undisturbed {start finish : WriteState Source}
    {actions : List WriteAction} {log : List WriteEffect} (hStart : Initial start)
    (run : (system.guarded Undisturbed).Run start actions finish log) :
    SettlesThroughout start actions := by
  intro before after middle past hActions hBefore hBegun hNothing
  rw [hActions] at run
  obtain ⟨state, emitted, _, hPrior, -, -⟩ := run.split
  obtain ⟨rfl, rfl⟩ := hPrior.of_guarded.deterministic hBefore
  exact settled_of_undisturbed hStart hPrior hBegun hNothing

/-- Every run reports completion at most once and with no write under way. It
is left behind in no state exactly when every write it issues is accepted and
every completion finds the handle's write queue empty. -/
theorem completion_iff {start finish : WriteState Source} {actions : List WriteAction}
    {log : List WriteEffect} (hStart : Initial start)
    (run : system.Run start actions finish log) :
    log.countP WriteEffect.isComplete ≤ 1 ∧
    (∀ before action after middle next past calls, actions = before ++ action :: after →
      system.Run start before middle past → system.step middle action next calls →
      (∃ status, .onWriteComplete status ∈ calls) → next.outstanding = 0) ∧
    (SettlesThroughout start actions ↔
      (system.guarded Undisturbed).Run start actions finish log) := by
  refine ⟨(tracked_run hStart run).once, ?_, guarded_of_settlesThroughout hStart run,
    settlesThroughout_of_undisturbed hStart⟩
  intro before action after middle next past calls _ hBefore hStep hComplete
  obtain ⟨status, hMem⟩ := hComplete
  obtain ⟨-, -, hCases⟩ := step_cases (tracked_run hStart hBefore) hStep
  rcases hCases with ⟨hNothing, -⟩ | ⟨hCalls, -⟩
  · exact hNothing
  · exact absurd rfl (hCalls _ hMem)

/-- A chunked body of two bytes: one chunk, the trailer, the end. -/
theorem completion_iff_two_bytes :
    SettlesThroughout
      (construct ({ buffer := [0x68, 0x69], pos := 0 } : InMemoryDataSource) true)
      [.begin true, .complete 0 true true, .complete 0 true true] := by
  -- while a write is under way: the chunk, and then the trailer
  let sent : Bool → WriteState InMemoryDataSource := fun completed => {
    write := {
      chunked := true
      activeWrites := 1
      errored := false
      completed := completed
      pDataSource := { buffer := [0x68, 0x69], pos := 2 } }
    begun := true
    outstanding := 1 }
  have hBegin : (construct ({ buffer := [0x68, 0x69], pos := 0 } : InMemoryDataSource) true).step
      (.begin true) = some (sent false, [.uvWrite [ascii "2\r\n", [0x68, 0x69], CRLF] true]) := by
    decide +kernel
  have hChunk : (sent false).step (.complete 0 true true) =
      some (sent true, [.freeData, .uvWrite [TRAILER] true]) := by
    decide +kernel
  obtain ⟨finish, hTrailer⟩ : ∃ finish, (sent true).step (.complete 0 true true) = some finish :=
    Option.isSome_iff_exists.1 (by decide +kernel)
  have hFirst : (system.guarded Undisturbed).step _ (.begin true) (sent false) _ :=
    ⟨fun _ => rfl, hBegin⟩
  have hSecond : (system.guarded Undisturbed).step (sent false) (.complete 0 true true) _ _ :=
    ⟨⟨rfl, fun _ => rfl⟩, hChunk⟩
  have hThird : (system.guarded Undisturbed).step (sent true) (.complete 0 true true) _ _ :=
    ⟨⟨rfl, fun _ => rfl⟩, hTrailer⟩
  have hGuarded := ((System.Run.nil.snoc hFirst).snoc hSecond).snoc hThird
  exact (completion_iff ⟨_, true, rfl⟩ hGuarded.of_guarded).2.2.2 hGuarded

/-- The client is gone when the chunk completes, so the handle is closed and the
write of the trailer is refused: nothing is under way and nothing is released.
The same happens when another write waits on the handle. -/
theorem left_behind :
    let start := construct ({ buffer := [0x68, 0x69], pos := 0 } : InMemoryDataSource) true
    ¬ SettlesThroughout start [.begin true, .complete (-125) true false] ∧
    ¬ SettlesThroughout start [.begin true, .complete 0 false true] := by
  intro start
  constructor
  · intro hSettles
    exact not_settled (by simp [WriteEffect.isComplete])
      (hSettles [.begin true, .complete (-125) true false] [] _
        [.uvWrite [ascii "2\r\n", [0x68, 0x69], CRLF] true, .freeData, .uvWrite [TRAILER] false]
        rfl (System.run_of_exec rfl) rfl rfl)
  · intro hSettles
    exact not_settled (by simp [WriteEffect.isComplete])
      (hSettles [.begin true, .complete 0 false true] [] _
        [.uvWrite [ascii "2\r\n", [0x68, 0x69], CRLF] true, .freeData]
        rfl (System.run_of_exec rfl) rfl rfl)

end WriteState

end Httpuv
