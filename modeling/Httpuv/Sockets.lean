import Httpuv.Semantics.System
import Mathlib.Logic.Function.Basic
import Mathlib.Data.List.Nodup

/-! The connections of a listening socket: each is in the list of the socket until it is
closed, by itself or together with the socket. -/
namespace Httpuv

open Semantics

/-- What the background thread does to requests and sockets. -/
inductive SocketEvent (Request : Type) where
  | closeCalled (request : Request)
  | onWSClose (request : Request)
  | uvClose (request : Request)
  | uvCloseSocket
  deriving DecidableEq, Repr

/-- A socket, and the members of its requests that closing them looks at: whether
`_is_closing` is set, and whether there is a WebSocket connection. -/
structure Socket (Request : Type) where
  connections : List Request
  created : List Request
  isClosing : Request → Bool
  webSockets : Request → Bool

namespace Socket

variable {Request : Type} [DecidableEq Request]

def fresh : Socket Request where
  connections := []
  created := []
  isClosing _ := false
  webSockets _ := false

def addConnection (socket : Socket Request) (request : Request) : Socket Request :=
  { socket with connections := socket.connections ++ [request] }

/-- All entries that are the request are removed. -/
def removeConnection (socket : Socket Request) (request : Request) : Socket Request :=
  { socket with connections := socket.connections.filter (· ≠ request) }

/-- A new object, which `_initializeSocket` adds to the list. -/
def createHttpRequest (socket : Socket Request) (request : Request) : Socket Request :=
  addConnection
    { socket with
      created := socket.created ++ [request]
      isClosing := Function.update socket.isClosing request false }
    request

/-- `HttpRequest::close`. A second call does nothing. -/
def closeRequest (socket : Socket Request) (request : Request) :
    Socket Request × List (SocketEvent Request) :=
  if socket.isClosing request then (socket, [.closeCalled request])
  else
    (removeConnection { socket with isClosing := Function.update socket.isClosing request true }
        request,
      .closeCalled request :: (if socket.webSockets request then [.onWSClose request] else []) ++
        [.uvClose request])

/-- The loop from a reverse iterator on, which refers to the element before its
position. `none` is a read beyond the end of the vector. -/
def closeFrom : Nat → Socket Request → Option (Socket Request × List (SocketEvent Request))
  | 0, socket => some (socket, [])
  | position + 1, socket =>
      match socket.connections[position]? with
      | none => none
      | some request =>
          let (socket, events) := socket.closeRequest request
          (closeFrom position socket).map (fun result => (result.1, events ++ result.2))

def close (socket : Socket Request) : Option (Socket Request × List (SocketEvent Request)) :=
  (closeFrom socket.connections.length socket).map (fun result =>
    (result.1, result.2 ++ [.uvCloseSocket]))

/-- What happens on the background thread. A connection gets and loses its
WebSocket connection elsewhere. -/
inductive Action (Request : Type) where
  | createHttpRequest (request : Request)
  | closeRequest (request : Request)
  | setWebSockets (request : Request) (webSockets : Bool)
  | close
  deriving DecidableEq, Repr

/-- An object is created once, and not used before. -/
def step (socket : Socket Request) :
    Action Request → Option (Socket Request × List (SocketEvent Request))
  | .createHttpRequest request =>
      if request ∈ socket.created then none else some (socket.createHttpRequest request, [])
  | .closeRequest request =>
      if request ∈ socket.created then some (socket.closeRequest request) else none
  | .setWebSockets request webSockets =>
      some ({ socket with webSockets := Function.update socket.webSockets request webSockets }, [])
  | .close => socket.close

def system : System (Socket Request) (Action Request) (SocketEvent Request) :=
  System.ofStep (· = fresh) step

section Loop

variable {socket : Socket Request} {front : List Request} {request : Request}

theorem filter_last (hNew : request ∉ front) : (front ++ [request]).filter (· ≠ request) = front := by
  have hKept : ∀ other ∈ front, decide (other ≠ request) = true := by
    intro other hOther
    exact decide_eq_true (ne_of_mem_of_not_mem hOther hNew)
  rw [List.filter_append, List.filter_eq_self.2 hKept]
  simp

/-- The events of a request that is closed for the first time. -/
def closeEvents (webSockets : Bool) (request : Request) : List (SocketEvent Request) :=
  .closeCalled request :: (if webSockets then [.onWSClose request] else []) ++ [.uvClose request]

theorem count_closeEvents (webSockets : Bool) (request other : Request) :
    (closeEvents webSockets request).count (.closeCalled other) = [request].count other ∧
      (closeEvents webSockets request).count (.uvClose other) = [request].count other := by
  have hCount : [request].count other = if request = other then 1 else 0 := by
    simp [List.count_singleton]
  rw [hCount]
  cases webSockets <;> constructor <;> simp [closeEvents, List.count_cons]

theorem closeRequest_open (hOpen : socket.isClosing request = false) :
    socket.closeRequest request = ({ socket with
      connections := socket.connections.filter (· ≠ request)
      isClosing := Function.update socket.isClosing request true },
      closeEvents (socket.webSockets request) request) := by
  rw [closeRequest, if_neg (by simp [hOpen])]
  rfl

theorem closeRequest_closing (hClosing : socket.isClosing request = true) :
    socket.closeRequest request = (socket, [.closeCalled request]) := if_pos hClosing

/-- One turn of the loop takes the last connection off the list. -/
theorem closeFrom_succ (hConnections : socket.connections = front ++ [request])
    (hNew : request ∉ front) (hOpen : socket.isClosing request = false) :
    closeFrom (front.length + 1) socket =
      (closeFrom front.length { socket with
        connections := front
        isClosing := Function.update socket.isClosing request true }).map (fun result =>
          (result.1, closeEvents (socket.webSockets request) request ++ result.2)) := by
  have hLast : socket.connections[front.length]? = some request := by
    rw [hConnections, List.getElem?_concat_length]
  rw [closeFrom, hLast]
  dsimp only
  rw [closeRequest_open hOpen, hConnections, filter_last hNew]

/-- **The loop from the end of the list.** The position in front of a connection that has
been closed is the end of what is left. -/
theorem closeFrom_spec (hConnections : socket.connections = front) (hNodup : front.Nodup)
    (hOpen : ∀ request ∈ front, socket.isClosing request = false) :
    ∃ events, closeFrom front.length socket =
        some ({ socket with
          connections := []
          isClosing := fun request => socket.isClosing request || decide (request ∈ front) },
          events) ∧
      ∀ request, events.count (.closeCalled request) = front.count request ∧
        events.count (.uvClose request) = front.count request := by
  induction front using List.reverseRecOn generalizing socket with
  | nil =>
      refine ⟨[], ?_, by simp⟩
      obtain ⟨connections, created, isClosing, webSockets⟩ := socket
      obtain rfl : connections = [] := hConnections
      simp [closeFrom]
  | append_singleton front request ih =>
      obtain ⟨hBefore, -, hLast⟩ := List.nodup_append.1 hNodup
      have hNew : request ∉ front := fun hMem => hLast request hMem request (by simp) rfl
      have hStill : ∀ other ∈ front, Function.update socket.isClosing request true other = false := by
        intro other hOther
        rw [Function.update_of_ne (ne_of_mem_of_not_mem hOther hNew)]
        exact hOpen other (List.mem_append_left _ hOther)
      obtain ⟨events, hRest, hCounts⟩ := @ih
        { socket with
          connections := front
          isClosing := Function.update socket.isClosing request true } rfl hBefore hStill
      refine ⟨closeEvents (socket.webSockets request) request ++ events, ?_, ?_⟩
      · rw [List.length_append, List.length_singleton,
          closeFrom_succ hConnections hNew (hOpen request (by simp)), hRest]
        simp only [Option.map_some, Option.some.injEq, Prod.mk.injEq, and_true]
        congr 1
        funext other
        by_cases hSame : other = request
        · simp [hSame]
        · simp [hSame]
      · intro other
        obtain ⟨hCalled, hClosed⟩ := hCounts other
        obtain ⟨hCalledLast, hClosedLast⟩ :=
          count_closeEvents (socket.webSockets request) request other
        rw [List.count_append, List.count_append, List.count_append, hCalled, hClosed, hCalledLast,
          hClosedLast, Nat.add_comm]
        exact ⟨rfl, rfl⟩

end Loop

section Runs

variable {socket after : Socket Request} {events : List (SocketEvent Request)}
  {action : Action Request}

/-- The list has the requests that are not closing, each of them once. -/
def Sound (socket : Socket Request) : Prop :=
  ∀ request, socket.connections.count request =
    if request ∈ socket.created ∧ socket.isClosing request = false then 1 else 0

theorem Sound.nodup (h : socket.Sound) : socket.connections.Nodup := by
  rw [List.nodup_iff_count_le_one]
  intro request
  rw [h request]
  split_ifs <;> simp

theorem Sound.mem_iff (h : socket.Sound) (request : Request) : request ∈ socket.connections ↔
    request ∈ socket.created ∧ socket.isClosing request = false := by
  rw [← List.count_pos_iff, h request]
  split_ifs with hOpen
  · exact iff_of_true Nat.one_pos hOpen
  · exact iff_of_false (Nat.lt_irrefl 0) hOpen

theorem sound_fresh : (fresh : Socket Request).Sound := by
  intro request
  simp [fresh]

theorem Sound.createHttpRequest (h : socket.Sound) {request : Request}
    (hNew : request ∉ socket.created) : (socket.createHttpRequest request).Sound := by
  intro other
  have hOther := h other
  by_cases hSame : other = request
  · subst hSame
    rw [if_neg fun hOpen => hNew hOpen.1] at hOther
    simp [Socket.createHttpRequest, addConnection, hOther]
  · simpa [Socket.createHttpRequest, addConnection, hSame, Ne.symm hSame] using hOther

theorem Sound.closeRequest (h : socket.Sound) (request : Request) :
    (socket.closeRequest request).1.Sound := by
  cases hClosing : socket.isClosing request with
  | true => rwa [closeRequest_closing hClosing]
  | false =>
      rw [closeRequest_open hClosing]
      intro other
      by_cases hSame : other = request
      · subst hSame
        simp [List.count_eq_zero]
      · have hOther := h other
        simpa [hSame, List.count_filter] using hOther

theorem Sound.close (h : socket.Sound) : ∃ after events, socket.close = some (after, events) ∧
    after.Sound := by
  obtain ⟨events, hLoop, -⟩ :=
    closeFrom_spec rfl h.nodup fun request hMem => ((h.mem_iff request).1 hMem).2
  refine ⟨_, events ++ [.uvCloseSocket], by rw [Socket.close, hLoop]; rfl, fun request => ?_⟩
  have hNone : ¬ (request ∈ socket.created ∧
      (socket.isClosing request || decide (request ∈ socket.connections)) = false) := by
    rintro ⟨hCreated, hOpen⟩
    rw [Bool.or_eq_false_iff, decide_eq_false_iff_not, h.mem_iff] at hOpen
    exact hOpen.2 ⟨hCreated, hOpen.1⟩
  exact (if_neg hNone).symm

/-- A step keeps the list. -/
theorem Sound.step (h : socket.Sound) (hStep : socket.step action = some (after, events)) :
    after.Sound := by
  cases action with
  | createHttpRequest request =>
      by_cases hCreated : request ∈ socket.created
      · simp [Socket.step, hCreated] at hStep
      · simp only [Socket.step, if_neg hCreated, Option.some.injEq, Prod.mk.injEq] at hStep
        rw [← hStep.1]
        exact h.createHttpRequest hCreated
  | closeRequest request =>
      by_cases hCreated : request ∈ socket.created
      · simp only [Socket.step, if_pos hCreated, Option.some.injEq] at hStep
        have hAfter := h.closeRequest request
        rwa [hStep] at hAfter
      · simp [Socket.step, hCreated] at hStep
  | setWebSockets request webSockets =>
      simp only [Socket.step, Option.some.injEq, Prod.mk.injEq] at hStep
      rw [← hStep.1]
      exact h
  | close =>
      obtain ⟨finish, closed, hClose, hSound⟩ := h.close
      have hSame : some (after, events) = some (finish, closed) := hStep.symm.trans hClose
      cases hSame
      exact hSound

theorem sound_of_run {actions : List (Action Request)}
    (run : system.Run fresh actions after events) : after.Sound :=
  run.invariant (I := fun socket _ => socket.Sound) sound_fresh
    fun _ _ _ _ _ hSound hStep => hSound.step hStep

/-- **A socket closes each of its connections once**, and over every run its list has the
connections that are not closing, each of them once. -/
theorem close_each_once (socket : Socket Request) :
    (socket.connections.Nodup →
      (∀ request ∈ socket.connections, socket.isClosing request = false) →
      ∃ after events, socket.close = some (after, events) ∧ after.connections = [] ∧
        ∀ request, events.count (.closeCalled request) =
            (if request ∈ socket.connections then 1 else 0) ∧
          (request ∈ socket.connections → after.isClosing request = true)) ∧
      ∀ (actions : List (Action Request)) (after : Socket Request)
        (events : List (SocketEvent Request)), system.Run fresh actions after events →
          (∀ request, after.connections.count request =
            if request ∈ after.created ∧ after.isClosing request = false then 1 else 0) ∧
          after.close ≠ none := by
  refine ⟨fun hNodup hOpen => ?_, fun actions after events run => ?_⟩
  · obtain ⟨events, hLoop, hCounts⟩ := closeFrom_spec rfl hNodup hOpen
    refine ⟨_, events ++ [.uvCloseSocket], by rw [Socket.close, hLoop]; rfl, rfl, fun request => ?_⟩
    constructor
    · rw [List.count_append, (hCounts request).1, hNodup.count]
      simp
    · intro hMem
      simp [hMem]
  · have hSound := sound_of_run run
    obtain ⟨finish, closed, hClose, -⟩ := hSound.close
    exact ⟨hSound, by simp [hClose]⟩

end Runs

/-- Three connections that are open, one of them a WebSocket. -/
def sampleSocket : Socket Nat where
  connections := [1, 2, 3]
  created := [1, 2, 3]
  isClosing _ := false
  webSockets request := request == 2

/-- The sample is closed, and a run in which one of three connections closes. -/
theorem close_three :
    (∃ after events, sampleSocket.close = some (after, events) ∧ after.connections = [] ∧
        ∀ request, events.count (.closeCalled request) =
            (if request ∈ sampleSocket.connections then 1 else 0) ∧
          (request ∈ sampleSocket.connections → after.isClosing request = true)) ∧
      ∃ after : Socket Nat, ∃ events, system.Run fresh [.createHttpRequest 1, .createHttpRequest 2,
          .closeRequest 1, .createHttpRequest 3] after events ∧
        after.connections = [2, 3] ∧ after.connections.count 1 = 0 := by
  refine ⟨(close_each_once sampleSocket).1 (by decide) (by simp [sampleSocket]), ?_⟩
  obtain ⟨after, events, hExec, hConnections⟩ : ∃ after : Socket Nat, ∃ events,
      System.exec step fresh [.createHttpRequest 1, .createHttpRequest 2, .closeRequest 1,
        .createHttpRequest 3] = some (after, events) ∧ after.connections = [2, 3] ∧
          after.isClosing 1 = true := ⟨_, _, rfl, by decide, by decide⟩
  have run : system.Run fresh _ after events := System.run_of_exec hExec
  refine ⟨after, events, run, hConnections.1, ?_⟩
  rw [((close_each_once after).2 _ _ _ run).1 1, if_neg]
  simp [hConnections.2]

end Socket

end Httpuv
