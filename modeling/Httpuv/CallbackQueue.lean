import Httpuv.Semantics.System
import Mathlib.Logic.Function.Basic

/-! `CallbackQueue`: callbacks that any thread hands to the background loop. The
loop is woken by `uv_async_send`, which does not count. -/
namespace Httpuv

open Semantics

/-- Who calls `push`: a thread, or the callback that the loop is running. -/
inductive Pusher (Thread : Type) where
  | thread (thread : Thread)
  | callback
  deriving DecidableEq

/-- Where the loop is. A callback is copied and popped in one guarded section and
called outside of it. -/
inductive FlushState (Callback : Type) where
  | waiting
  | looping
  | popped (cb : Callback)
  | running

/-- The queue, the wake-up that `flush_handle` remembers, and who has enqueued a
callback and not sent a wake-up for it. -/
structure CallbackQueue (Thread Callback : Type) where
  q : List Callback
  pending : Bool
  pushing : Pusher Thread → Bool
  flush : FlushState Callback

inductive QueueAction (Thread Callback : Type) where
  /-- `q.push(cb)` in `push`, under the mutex. -/
  | enqueue (pusher : Pusher Thread) (cb : Callback)
  /-- `uv_async_send` in `push`. -/
  | send (pusher : Pusher Thread)
  /-- The loop clears the wake-up and enters `flush`. -/
  | wake
  /-- The guarded section of `flush`. -/
  | pop
  /-- `cb()` begins. -/
  | call
  /-- `cb()` returns. -/
  | finish

namespace CallbackQueue

variable {Thread Callback : Type} [DecidableEq Thread]

def constructed : CallbackQueue Thread Callback where
  q := []
  pending := false
  pushing := fun _ => false
  flush := .waiting

/-- A pusher makes one call of `push` at a time, a callback only while it runs. -/
def canPush (queue : CallbackQueue Thread Callback) (pusher : Pusher Thread) : Bool :=
  match pusher, queue.flush with
  | .thread _, _ => !queue.pushing pusher
  | .callback, .running => !queue.pushing pusher
  | .callback, _ => false

/-- The output of a step is the callback that it calls. -/
def step (queue : CallbackQueue Thread Callback) :
    QueueAction Thread Callback → Option (CallbackQueue Thread Callback × List Callback)
  | .enqueue pusher cb =>
      if queue.canPush pusher then
        some ({ queue with
          q := queue.q ++ [cb]
          pushing := Function.update queue.pushing pusher true }, [])
      else none
  | .send pusher =>
      if queue.pushing pusher then
        some ({ queue with
          pending := true
          pushing := Function.update queue.pushing pusher false }, [])
      else none
  | .wake =>
      match queue.pending, queue.flush with
      | true, .waiting => some ({ queue with pending := false, flush := .looping }, [])
      | _, _ => none
  | .pop =>
      match queue.flush, queue.q with
      | .looping, [] => some ({ queue with flush := .waiting }, [])
      | .looping, cb :: rest => some ({ queue with q := rest, flush := .popped cb }, [])
      | _, _ => none
  | .call =>
      match queue.flush with
      | .popped cb => some ({ queue with flush := .running }, [cb])
      | _ => none
  | .finish =>
      match queue.flush, queue.pushing .callback with
      | .running, false => some ({ queue with flush := .looping }, [])
      | _, _ => none

def system : System (CallbackQueue Thread Callback) (QueueAction Thread Callback) Callback :=
  System.ofStep (· = constructed) step

/-- The callback that has left the queue and was not called yet. -/
def inFlight (queue : CallbackQueue Thread Callback) : List Callback :=
  match queue.flush with
  | .popped cb => [cb]
  | _ => []

/-- Whether the loop is inside `flush`. -/
def flushing (queue : CallbackQueue Thread Callback) : Bool :=
  match queue.flush with
  | .waiting => false
  | _ => true

/-- Somebody is still going to look at the queue. -/
def Awake (queue : CallbackQueue Thread Callback) : Prop :=
  queue.pending = true ∨ queue.flushing = true ∨ ∃ pusher, queue.pushing pusher = true

end CallbackQueue

/-- What a step enqueues. -/
def QueueAction.enqueued {Thread Callback : Type} :
    QueueAction Thread Callback → List Callback
  | .enqueue _ cb => [cb]
  | _ => []

namespace CallbackQueue

variable {Thread Callback : Type} [DecidableEq Thread]

/-- Every callback that was enqueued was called, is about to be, or waits, in order,
and none waits unseen. -/
structure Sound (queue : CallbackQueue Thread Callback) (enqueued executed : List Callback) :
    Prop where
  inOrder : enqueued = executed ++ queue.inFlight ++ queue.q
  awake : queue.q ≠ [] → queue.Awake

omit [DecidableEq Thread] in
theorem sound_constructed : Sound (@constructed Thread Callback) [] [] where
  inOrder := rfl
  awake := fun h => absurd rfl h

theorem Sound.step {queue after : CallbackQueue Thread Callback}
    {action : QueueAction Thread Callback} {enqueued executed called : List Callback}
    (h : queue.Sound enqueued executed) (hStep : queue.step action = some (after, called)) :
    after.Sound (enqueued ++ action.enqueued) (executed ++ called) := by
  obtain ⟨q, pending, pushing, flush⟩ := queue
  obtain ⟨hOrder, hAwake⟩ := h
  cases action with
  | enqueue pusher cb =>
      simp only [CallbackQueue.step] at hStep
      split_ifs at hStep
      cases hStep
      constructor
      · simp only [QueueAction.enqueued, hOrder, inFlight, List.append_nil, List.append_assoc]
      · intro hSome
        exact Or.inr (Or.inr ⟨pusher, Function.update_self pusher true pushing⟩)
  | send pusher =>
      simp only [CallbackQueue.step] at hStep
      split_ifs at hStep
      cases hStep
      constructor
      · simpa only [QueueAction.enqueued, inFlight, List.append_nil] using hOrder
      · intro hSome
        exact Or.inl rfl
  | wake =>
      simp only [CallbackQueue.step] at hStep
      split at hStep
      · cases hStep
        constructor
        · simpa only [QueueAction.enqueued, inFlight, List.append_nil] using hOrder
        · intro hSome
          exact Or.inr (Or.inl rfl)
      · cases hStep
  | pop =>
      simp only [CallbackQueue.step] at hStep
      split at hStep
      · cases hStep
        constructor
        · simpa only [QueueAction.enqueued, inFlight, List.append_nil] using hOrder
        · intro hSome
          exact absurd rfl hSome
      · cases hStep
        constructor
        · simpa only [QueueAction.enqueued, inFlight, List.append_nil, List.append_assoc,
            List.singleton_append] using hOrder
        · intro hSome
          exact Or.inr (Or.inl rfl)
      · cases hStep
  | call =>
      simp only [CallbackQueue.step] at hStep
      split at hStep
      · cases hStep
        constructor
        · simpa only [QueueAction.enqueued, inFlight, List.append_nil, List.append_assoc] using hOrder
        · intro hSome
          exact Or.inr (Or.inl rfl)
      · cases hStep
  | finish =>
      simp only [CallbackQueue.step] at hStep
      split at hStep
      · cases hStep
        constructor
        · simpa only [QueueAction.enqueued, inFlight, List.append_nil] using hOrder
        · intro hSome
          exact Or.inr (Or.inl rfl)
      · cases hStep

theorem sound_run {start finish : CallbackQueue Thread Callback}
    {actions : List (QueueAction Thread Callback)} {executed : List Callback}
    (hStart : system.initial start) (run : system.Run start actions finish executed) :
    finish.Sound (actions.flatMap QueueAction.enqueued) executed := by
  have hConstructed : start = constructed := hStart
  subst hConstructed
  induction run with
  | nil => exact sound_constructed
  | snoc prior last ih =>
      have hSound := ih.step last
      rw [List.flatMap_append, List.flatMap_singleton]
      exact hSound

/-- In every run the callbacks called are the first ones of those enqueued, and while
one waits, a wake-up is remembered, the loop flushes, or a pusher has yet to send. -/
theorem executed_in_order {start finish : CallbackQueue Thread Callback}
    {actions : List (QueueAction Thread Callback)} {executed : List Callback}
    (hStart : system.initial start) (run : system.Run start actions finish executed) :
    executed <+: actions.flatMap QueueAction.enqueued ∧ (finish.q ≠ [] → finish.Awake) := by
  obtain ⟨hOrder, hAwake⟩ := sound_run hStart run
  refine ⟨?_, hAwake⟩
  rw [hOrder, List.append_assoc]
  exact List.prefix_append _ _

/-- Two threads, of which the second pushes while the loop runs, and a callback that
pushes: the wake-up of the first is coalesced with that of the second. -/
theorem executed_in_order_coalesced :
    ∃ finish : CallbackQueue Bool Nat, system.Run constructed
        [.enqueue (.thread true) 1, .enqueue (.thread false) 2, .send (.thread true),
          .send (.thread false), .wake, .pop, .call, .enqueue .callback 3, .send .callback,
          .finish, .pop, .call] finish [1, 2] ∧
      finish.q = [3] ∧ [1, 2] <+: [1, 2, 3] ∧ (finish.q ≠ [] → finish.Awake) := by
  have hExec : (System.exec CallbackQueue.step (@constructed Bool Nat)
      [.enqueue (.thread true) 1, .enqueue (.thread false) 2, .send (.thread true),
        .send (.thread false), .wake, .pop, .call, .enqueue .callback 3, .send .callback,
        .finish, .pop, .call]).map (fun result => (result.1.q, result.2)) =
      some ([3], [1, 2]) := by decide
  obtain ⟨⟨finish, executed⟩, hRun, hResult⟩ := Option.map_eq_some_iff.1 hExec
  obtain ⟨hLeft, rfl⟩ := Prod.mk.inj hResult
  have run : system.Run constructed _ finish [1, 2] := System.run_of_exec hRun
  obtain ⟨hPrefix, hAwake⟩ := executed_in_order rfl run
  exact ⟨finish, run, hLeft, hPrefix, hAwake⟩

end CallbackQueue

end Httpuv
