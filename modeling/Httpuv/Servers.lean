import Httpuv.Semantics.System
import Mathlib.Data.List.Nodup
import Mathlib.Data.List.Basic

/-! The servers of an R session: the R6 objects, the list behind `listServers` and
the handles that the C++ side keeps. -/
namespace Httpuv

open Semantics

/-- The private fields of a `Server` that a constructor returned. -/
structure Server (Handle : Type) where
  handle : Handle
  running : Bool

/-- A server object is named by its place among the objects created so far. -/
structure Session (Handle : Type) where
  objects : List (Server Handle)
  servers : List Nat
  pServers : List Handle

/-- A call of `stopServer_`, with the object it was made for. -/
structure StopCall (Handle : Type) where
  server : Nat
  handle : Handle
  deriving DecidableEq

namespace Session

variable {Handle : Type}

def fresh : Session Handle where
  objects := []
  servers := []
  pServers := []

/-- `makeTcpServer` and `makePipeServer`, once the background thread has made a
server or failed to. -/
def makeServer (session : Session Handle) (pServer : Option Handle) : Session Handle :=
  match pServer with
  | none => session
  | some handle => { session with pServers := session.pServers ++ [handle] }

def registerServer (session : Session Handle) (server : Nat) : Session Handle :=
  { session with servers := session.servers ++ [server] }

/-- The first entry that is the server is removed. -/
def deregisterServer (session : Session Handle) (server : Nat) : Session Handle :=
  { session with servers := session.servers.erase server }

/-- `WebServer$new`. The constructor fails without a handle, and returns no object. -/
def startServer (session : Session Handle) (pServer : Option Handle) : Session Handle :=
  match pServer with
  | none => session.makeServer none
  | some handle =>
      let session := session.makeServer (some handle)
      registerServer
        { session with objects := session.objects ++ [{ handle, running := true }] }
        session.objects.length

/-- `PipeServer$new`, whose constructor ends with the check of the handle. -/
def startPipeServer (session : Session Handle) (pServer : Option Handle) : Session Handle :=
  match pServer with
  | none => session.makeServer none
  | some handle =>
      let session := session.makeServer (some handle)
      { session with objects := session.objects ++ [{ handle, running := false }] }

def isRunning (session : Session Handle) (server : Nat) : Bool :=
  (session.objects[server]?.map Server.running).getD false

/-- The handle that an object has. -/
def handle (session : Session Handle) (server : Nat) : Option Handle :=
  session.objects[server]?.map Server.handle

variable [DecidableEq Handle]

/-- `none` is the exception for a handle that is not in the list. -/
def stopServer_ (session : Session Handle) (pServer : Handle) : Option (Session Handle) :=
  if pServer ∈ session.pServers then
    some { session with pServers := session.pServers.erase pServer }
  else none

/-- `Server$stop`, and whether it returned. -/
def stop (session : Session Handle) (server : Nat) :
    Session Handle × List (StopCall Handle) × Bool :=
  match session.objects[server]? with
  | none => (session, [], true)
  | some object =>
      if !object.running then (session, [], true)
      else
        let call := { server, handle := object.handle }
        match session.stopServer_ object.handle with
        | none => (session, [call], false)
        | some session =>
            (deregisterServer
              { session with objects := session.objects.set server { object with running := false } }
              server, [call], true)

/-- The `lapply` of `stopAllServers`. An exception ends it. -/
def stopEach : List Nat → Session Handle → Session Handle × List (StopCall Handle)
  | [], session => (session, [])
  | server :: rest, session =>
      match session.stop server with
      | (session, calls, false) => (session, calls)
      | (session, calls, true) =>
          let (session, more) := stopEach rest session
          (session, calls ++ more)

def stopAllServers (session : Session Handle) : Session Handle × List (StopCall Handle) :=
  stopEach session.servers session

end Session

/-- The calls that an R session makes. What a creation gets from the background
thread is given with it; only a `Server` passes the check of `stopServer`. -/
inductive ServerAction (Handle : Type) where
  | startServer (pServer : Option Handle)
  | startPipeServer (pServer : Option Handle)
  | stop (server : Nat)
  | stopServer (server : Option Nat)
  | stopAllServers
  deriving DecidableEq

namespace Session

variable {Handle : Type} [DecidableEq Handle]

/-- A handle is the address of a stream, and is not given out again while a server
has it. -/
def step (session : Session Handle) :
    ServerAction Handle → Option (Session Handle × List (StopCall Handle))
  | .startServer pServer =>
      if ∀ handle ∈ pServer, handle ∉ session.pServers then
        some (session.startServer pServer, [])
      else none
  | .startPipeServer pServer =>
      if ∀ handle ∈ pServer, handle ∉ session.pServers then
        some (session.startPipeServer pServer, [])
      else none
  | .stop server =>
      if server < session.objects.length then
        some ((session.stop server).1, (session.stop server).2.1)
      else none
  | .stopServer none => some (session, [])
  | .stopServer (some server) =>
      if server < session.objects.length then
        some ((session.stop server).1, (session.stop server).2.1)
      else none
  | .stopAllServers => some session.stopAllServers

def system : System (Session Handle) (ServerAction Handle) (StopCall Handle) :=
  System.ofStep (· = fresh) step

/-- The three registries name the same servers, each of them once. -/
structure Corresponds (session : Session Handle) : Prop where
  listed : ∀ server, server ∈ session.servers ↔ session.isRunning server = true
  once : session.servers.Nodup
  handles : session.pServers = session.servers.filterMap session.handle
  distinct : session.pServers.Nodup

end Session

namespace ServerAction

variable {Handle : Type}

/-- The number of objects that constructors have returned. -/
def created (actions : List (ServerAction Handle)) : Nat :=
  actions.countP fun action =>
    match action with
    | .startServer (some _) => true
    | .startPipeServer (some _) => true
    | _ => false

def Stops (action : ServerAction Handle) (server : Nat) : Prop :=
  match action with
  | .stop other => other = server
  | .stopServer other => other = some server
  | .stopAllServers => True
  | _ => False

/-- The server was created, and stopped afterwards. -/
def Stopped (actions : List (ServerAction Handle)) (server : Nat) : Prop :=
  ∃ before action, before ++ [action] <+: actions ∧ server < created before ∧ action.Stops server

theorem stopped_concat {actions : List (ServerAction Handle)} {action : ServerAction Handle}
    {server : Nat} : Stopped (actions ++ [action]) server ↔
      Stopped actions server ∨ server < created actions ∧ action.Stops server := by
  constructor
  · intro h
    obtain ⟨before, last, hPrefix, hCreated, hStops⟩ := h
    cases List.prefix_concat_iff.1 hPrefix with
    | inl hSame =>
        obtain ⟨rfl, hLast⟩ := List.append_inj' hSame rfl
        cases hLast
        exact Or.inr ⟨hCreated, hStops⟩
    | inr hPrior => exact Or.inl ⟨before, last, hPrior, hCreated, hStops⟩
  · intro h
    cases h with
    | inl hPrior =>
        obtain ⟨before, last, hPrefix, hCreated, hStops⟩ := hPrior
        exact ⟨before, last, hPrefix.trans (List.prefix_append _ _), hCreated, hStops⟩
    | inr hLast => exact ⟨actions, action, List.prefix_refl _, hLast⟩

theorem Stopped.lt {actions : List (ServerAction Handle)} {server : Nat}
    (h : Stopped actions server) : server < created actions := by
  obtain ⟨before, action, hPrefix, hCreated, -⟩ := h
  have hSublist := ((List.prefix_append before [action]).trans hPrefix).sublist
  exact Nat.lt_of_lt_of_le hCreated hSublist.countP_le

def StartsPipe (action : ServerAction Handle) : Prop :=
  ∃ handle, action = .startPipeServer (some handle)

end ServerAction

namespace Session

variable {Handle : Type} [DecidableEq Handle]

/-- What is promised after each call. -/
structure Consistent (actions : List (ServerAction Handle)) (session : Session Handle)
    (calls : List (StopCall Handle)) : Prop where
  corresponds : session.Corresponds
  stopped : ∀ server handle, session.handle server = some handle →
    ServerAction.Stopped actions server →
      calls.filter (fun call => call.server = server) = [{ server, handle }]
  empty : actions.getLast? = some .stopAllServers →
    session.servers = [] ∧ session.pServers = [] ∧ ∀ server, session.isRunning server = false

/-- Every object that does not run has had its handle given to `stopServer_` once. -/
structure Booked (session : Session Handle) (calls : List (StopCall Handle)) : Prop where
  corresponds : session.Corresponds
  once : ∀ server handle, session.handle server = some handle →
    calls.filter (fun call => call.server = server) =
      if session.isRunning server then [] else [{ server, handle }]
  known : ∀ call ∈ calls, call.server < session.objects.length

omit [DecidableEq Handle] in
theorem handle_lt {session : Session Handle} {server : Nat} {handle : Handle}
    (hHandle : session.handle server = some handle) : server < session.objects.length := by
  rw [Session.handle, Option.map_eq_some_iff] at hHandle
  obtain ⟨object, hObject, -⟩ := hHandle
  exact (List.getElem?_eq_some_iff.1 hObject).1

/-- A server that does not run is left alone. -/
theorem stop_idle {session : Session Handle} {server : Nat}
    (hIdle : session.isRunning server = false) : session.stop server = (session, [], true) := by
  unfold stop
  split
  · rfl
  · next object hObject =>
      rw [isRunning, hObject, Option.map_some, Option.getD_some] at hIdle
      simp [hIdle]

/-- Where handles are distinct, a handle goes with its server. -/
theorem erase_filterMap {handleOf : Nat → Option Handle} {servers : List Nat} {server : Nat}
    {handle : Handle} (hServer : server ∈ servers) (hHandle : handleOf server = some handle)
    (hDistinct : (servers.filterMap handleOf).Nodup) :
    (servers.filterMap handleOf).erase handle = (servers.erase server).filterMap handleOf := by
  induction servers with
  | nil => cases hServer
  | cons first rest ih =>
      by_cases hFirst : first = server
      · subst hFirst
        rw [List.filterMap_cons_some hHandle, List.erase_cons_head, List.erase_cons_head]
      · have hRest : server ∈ rest := (List.mem_cons.1 hServer).resolve_left (Ne.symm hFirst)
        rw [List.erase_cons_tail (by simpa using hFirst)]
        cases hOther : handleOf first with
        | none =>
            rw [List.filterMap_cons_none hOther] at hDistinct ⊢
            rw [List.filterMap_cons_none hOther]
            exact ih hRest hDistinct
        | some other =>
            rw [List.filterMap_cons_some hOther] at hDistinct ⊢
            rw [List.filterMap_cons_some hOther]
            obtain ⟨hFresh, hRestDistinct⟩ := List.nodup_cons.1 hDistinct
            have hNotHandle : other ≠ handle := by
              intro hSame
              exact hFresh (List.mem_filterMap.2 ⟨server, hRest, hSame ▸ hHandle⟩)
            rw [List.erase_cons_tail (by simpa using hNotHandle), ih hRest hRestDistinct]

/-- A server that runs is taken out of all three registries. -/
theorem Corresponds.stop_running {session : Session Handle} (h : session.Corresponds)
    {server : Nat} (hRunning : session.isRunning server = true) :
    ∃ handle after, session.handle server = some handle ∧
      session.stop server = (after, [{ server, handle }], true) ∧
      after.Corresponds ∧ after.servers = session.servers.erase server ∧
      after.objects.length = session.objects.length ∧ after.handle = session.handle ∧
      ∀ other, after.isRunning other = if other = server then false else session.isRunning other := by
  obtain ⟨object, hObject⟩ : ∃ object, session.objects[server]? = some object := by
    cases hObject : session.objects[server]? with
    | none => simp [isRunning, hObject] at hRunning
    | some object => exact ⟨object, rfl⟩
  have hObjectRunning : object.running = true := by
    simpa [isRunning, hObject] using hRunning
  have hHandle : session.handle server = some object.handle := by
    rw [Session.handle, hObject]
    rfl
  have hMember : object.handle ∈ session.pServers := by
    rw [h.handles, List.mem_filterMap]
    exact ⟨server, (h.listed server).2 hRunning, hHandle⟩
  have hServer := (h.listed server).2 hRunning
  let after : Session Handle := {
    objects := session.objects.set server { object with running := false }
    servers := session.servers.erase server
    pServers := session.pServers.erase object.handle }
  have hStop : session.stop server = (after, [{ server, handle := object.handle }], true) := by
    unfold stop
    rw [hObject]
    simp [hObjectRunning, stopServer_, hMember, deregisterServer, after]
  have hHandles : after.handle = session.handle := by
    funext other
    simp only [Session.handle, after, List.getElem?_set]
    split_ifs with hSame hLess
    · rw [← hSame, hObject]
      rfl
    · rw [← hSame, List.getElem?_eq_none (by omega)]
    · rfl
  have hStates : ∀ other, after.isRunning other =
      if other = server then false else session.isRunning other := by
    intro other
    simp only [isRunning, after, List.getElem?_set]
    by_cases hSame : other = server
    · subst hSame
      simp [handle_lt hHandle]
    · rw [if_neg (Ne.symm hSame), if_neg hSame]
  refine ⟨object.handle, after, hHandle, hStop, ?_, rfl, List.length_set, hHandles, hStates⟩
  constructor
  · intro other
    rw [hStates, h.once.mem_erase_iff, h.listed]
    by_cases hSame : other = server <;> simp [hSame]
  · exact h.once.erase server
  · have hDistinct := h.distinct
    rw [h.handles] at hDistinct
    rw [hHandles, ← erase_filterMap hServer hHandle hDistinct, ← h.handles]
  · exact h.distinct.erase object.handle

/-- `server$stop()`, whether the server runs or not. -/
theorem Booked.stop {session : Session Handle} {calls : List (StopCall Handle)}
    (h : session.Booked calls) (server : Nat) :
    ∃ after more, session.stop server = (after, more, true) ∧ after.Booked (calls ++ more) ∧
      after.servers = session.servers.erase server ∧
      after.objects.length = session.objects.length ∧
      ∀ other, after.isRunning other = if other = server then false else session.isRunning other := by
  cases hRunning : session.isRunning server with
  | false =>
      have hAbsent : server ∉ session.servers := by
        rw [h.corresponds.listed, hRunning]
        exact Bool.false_ne_true
      refine ⟨session, [], stop_idle hRunning, by simpa using h,
        (List.erase_of_not_mem hAbsent).symm, rfl, fun other => ?_⟩
      split_ifs with hSame
      · rw [hSame, hRunning]
      · rfl
  | true =>
      obtain ⟨handle, after, hHandle, hStop, hCorresponds, hServers, hLength, hHandles, hStates⟩ :=
        h.corresponds.stop_running hRunning
      refine ⟨after, _, hStop, ⟨hCorresponds, ?_, ?_⟩, hServers, hLength, hStates⟩
      · intro other otherHandle hOther
        rw [hHandles] at hOther
        rw [List.filter_append, h.once other otherHandle hOther, hStates]
        by_cases hSame : other = server
        · subst hSame
          rw [hHandle, Option.some.injEq] at hOther
          simp [hRunning, hOther]
        · simp [hSame, Ne.symm hSame]
      · intro call hCall
        rw [hLength]
        cases List.mem_append.1 hCall with
        | inl hOld => exact h.known call hOld
        | inr hNew =>
            rw [List.mem_singleton.1 hNew]
            exact handle_lt hHandle

/-- The loop ends with nothing in the list. -/
theorem Booked.stopEach {session : Session Handle} {calls : List (StopCall Handle)}
    (h : session.Booked calls) {servers : List Nat} (hServers : session.servers = servers) :
    ∃ after more, stopEach servers session = (after, more) ∧ after.Booked (calls ++ more) ∧
      after.servers = [] ∧ after.objects.length = session.objects.length := by
  induction servers generalizing session calls with
  | nil => exact ⟨session, [], rfl, by simpa using h, hServers, rfl⟩
  | cons server rest ih =>
      obtain ⟨middle, first, hStop, hMiddle, hRest, hLength, -⟩ := h.stop server
      rw [hServers, List.erase_cons_head] at hRest
      obtain ⟨after, more, hEach, hAfter, hEmpty, hSame⟩ := ih hMiddle hRest
      refine ⟨after, first ++ more, ?_, by rwa [← List.append_assoc], hEmpty,
        hSame.trans hLength⟩
      rw [Session.stopEach, hStop]
      simp only [hEach]

section Start

omit [DecidableEq Handle]

/-- A new object at the end. -/
theorem objects_concat (objects : List (Server Handle)) (object : Server Handle) (server : Nat) :
    (objects ++ [object])[server]? =
      if server = objects.length then some object else objects[server]? := by
  split_ifs with hLast
  · rw [hLast, List.getElem?_concat_length]
  · by_cases hLess : server < objects.length
    · rw [List.getElem?_append_left hLess]
    · rw [List.getElem?_eq_none (by rw [List.length_append, List.length_singleton]; omega),
        List.getElem?_eq_none (by omega)]

theorem running_lt {session : Session Handle} {server : Nat}
    (hRunning : session.isRunning server = true) : server < session.objects.length := by
  by_contra hLess
  rw [isRunning, List.getElem?_eq_none (by omega)] at hRunning
  cases hRunning

variable (session : Session Handle) (pServer : Handle) (server : Nat)

theorem startServer_isRunning : (session.startServer (some pServer)).isRunning server =
    if server = session.objects.length then true else session.isRunning server := by
  change (((session.objects ++ [_])[server]?).map Server.running).getD false = _
  rw [objects_concat]
  split_ifs <;> rfl

theorem startServer_handle : (session.startServer (some pServer)).handle server =
    if server = session.objects.length then some pServer else session.handle server := by
  change ((session.objects ++ [_])[server]?).map Server.handle = _
  rw [objects_concat]
  split_ifs <;> rfl

theorem startServer_length :
    (session.startServer (some pServer)).objects.length = session.objects.length + 1 :=
  List.length_append

end Start

omit [DecidableEq Handle] in
/-- The constructor of a web server enters it in all three registries. -/
theorem Booked.startServer {session : Session Handle} {calls : List (StopCall Handle)}
    (h : session.Booked calls) {pServer : Handle} (hNew : pServer ∉ session.pServers) :
    (session.startServer (some pServer)).Booked calls := by
  have hOld : ∀ server ∈ session.servers, server ≠ session.objects.length := by
    intro server hServer hSame
    have hLess := running_lt ((h.corresponds.listed server).1 hServer)
    omega
  refine ⟨⟨?_, ?_, ?_, ?_⟩, ?_, ?_⟩
  · intro server
    change server ∈ session.servers ++ [session.objects.length] ↔ _
    rw [startServer_isRunning, List.mem_append, List.mem_singleton, h.corresponds.listed]
    by_cases hSame : server = session.objects.length <;> simp [hSame]
  · change (session.servers ++ [session.objects.length]).Nodup
    rw [List.nodup_append]
    refine ⟨h.corresponds.once, List.nodup_singleton _, ?_⟩
    intro server hServer last hLast hSame
    exact hOld server hServer (hSame.trans (List.mem_singleton.1 hLast))
  · change session.pServers ++ [pServer] =
      (session.servers ++ [session.objects.length]).filterMap _
    rw [List.filterMap_append, h.corresponds.handles]
    congr 1
    · apply List.filterMap_congr
      intro server hServer
      rw [startServer_handle, if_neg (hOld server hServer)]
    · rw [List.filterMap_cons_some (by rw [startServer_handle, if_pos rfl]), List.filterMap_nil]
  · change (session.pServers ++ [pServer]).Nodup
    rw [List.nodup_append]
    refine ⟨h.corresponds.distinct, List.nodup_singleton _, ?_⟩
    intro handle hHandle last hLast hSame
    rw [← List.mem_singleton.1 hLast, ← hSame] at hNew
    exact hNew hHandle
  · intro server handle hHandle
    rw [startServer_handle] at hHandle
    rw [startServer_isRunning]
    split_ifs at hHandle with hSame
    · rw [if_pos hSame, if_pos rfl, List.filter_eq_nil_iff]
      intro call hCall hServer
      have hLess := h.known call hCall
      rw [of_decide_eq_true hServer, hSame] at hLess
      exact absurd hLess (Nat.lt_irrefl _)
    · rw [if_neg hSame]
      exact h.once server handle hHandle
  · intro call hCall
    rw [startServer_length]
    exact Nat.lt_succ_of_lt (h.known call hCall)

/-- Bookkeeping along a run: a server that was created is stopped exactly if it does
not run. -/
structure Accounts (actions : List (ServerAction Handle)) (session : Session Handle)
    (calls : List (StopCall Handle)) : Prop where
  booked : session.Booked calls
  created : session.objects.length = ServerAction.created actions
  stopped : ∀ server < session.objects.length,
    (session.isRunning server = false ↔ ServerAction.Stopped actions server)
  empty : actions.getLast? = some .stopAllServers → session.servers = []

omit [DecidableEq Handle] in
theorem accounts_fresh : Accounts [] (@fresh Handle) [] where
  booked := {
    corresponds := {
      listed := fun server => by simp [fresh, isRunning]
      once := List.nodup_nil
      handles := rfl
      distinct := List.nodup_nil }
    once := fun server handle hHandle => by simp [fresh, Session.handle] at hHandle
    known := nofun }
  created := rfl
  stopped := nofun
  empty := nofun

/-- One object is stopped. -/
theorem Accounts.stop {actions : List (ServerAction Handle)} {action : ServerAction Handle}
    {session : Session Handle} {calls : List (StopCall Handle)}
    (h : Accounts actions session calls) {server : Nat} (hServer : server < session.objects.length)
    (hStops : ∀ other, action.Stops other ↔ other = server)
    (hCreated : ServerAction.created (actions ++ [action]) = ServerAction.created actions)
    (hAll : action ≠ .stopAllServers) :
    Accounts (actions ++ [action]) (session.stop server).1 (calls ++ (session.stop server).2.1) := by
  obtain ⟨after, more, hStop, hBooked, -, hLength, hStates⟩ := h.booked.stop server
  rw [hStop]
  refine ⟨hBooked, by rw [hLength, hCreated, h.created], ?_, ?_⟩
  · intro other hOther
    rw [hLength] at hOther
    rw [hStates, ServerAction.stopped_concat, hStops, ← h.created, ← h.stopped other hOther]
    by_cases hSame : other = server <;> simp [hSame, hServer]
  · intro hLast
    rw [List.getLast?_concat, Option.some.injEq] at hLast
    exact absurd hLast hAll

/-- A step, as long as it is not the creation of a pipe server. -/
theorem Accounts.step {actions : List (ServerAction Handle)} {action : ServerAction Handle}
    {session after : Session Handle} {calls more : List (StopCall Handle)}
    (h : Accounts actions session calls) (hPipe : ¬ action.StartsPipe)
    (hStep : session.step action = some (after, more)) :
    Accounts (actions ++ [action]) after (calls ++ more) := by
  have hSilent : ∀ action : ServerAction Handle, (∀ server, ¬ action.Stops server) →
      ServerAction.created (actions ++ [action]) = ServerAction.created actions →
      action ≠ .stopAllServers → Accounts (actions ++ [action]) session (calls ++ []) := by
    intro action hNone hCreated hAll
    rw [List.append_nil]
    refine ⟨h.booked, by rw [hCreated, h.created], ?_, ?_⟩
    · intro server hServer
      rw [ServerAction.stopped_concat, h.stopped server hServer]
      simp [hNone server]
    · intro hLast
      rw [List.getLast?_concat, Option.some.injEq] at hLast
      exact absurd hLast hAll
  cases action with
  | startServer pServer =>
      simp only [Session.step] at hStep
      split_ifs at hStep with hNew
      cases hStep
      cases pServer with
      | none => exact hSilent _ (fun server => id) (by simp [ServerAction.created]) nofun
      | some handle =>
          rw [List.append_nil]
          refine ⟨h.booked.startServer (hNew handle rfl), ?_, ?_, ?_⟩
          · rw [startServer_length, h.created]
            simp [ServerAction.created]
          · intro server hServer
            rw [startServer_length] at hServer
            rw [startServer_isRunning, ServerAction.stopped_concat]
            split_ifs with hSame
            · have hNever : ¬ ServerAction.Stopped actions server := by
                intro hStopped
                rw [hSame, h.created] at hStopped
                exact absurd hStopped.lt (Nat.lt_irrefl _)
              simp [hNever, ServerAction.Stops]
            · rw [h.stopped server (by omega)]
              simp [ServerAction.Stops]
          · intro hLast
            simp at hLast
  | startPipeServer pServer =>
      simp only [Session.step] at hStep
      split_ifs at hStep with hNew
      cases hStep
      cases pServer with
      | none => exact hSilent _ (fun server => id) (by simp [ServerAction.created]) nofun
      | some handle => exact absurd ⟨handle, rfl⟩ hPipe
  | stop server =>
      simp only [Session.step] at hStep
      split_ifs at hStep with hServer
      cases hStep
      exact h.stop hServer (fun other => eq_comm) (by simp [ServerAction.created]) nofun
  | stopServer object =>
      cases object with
      | none =>
          cases hStep
          exact hSilent _ (fun server => nofun) (by simp [ServerAction.created]) nofun
      | some server =>
          simp only [Session.step] at hStep
          split_ifs at hStep with hServer
          cases hStep
          refine h.stop hServer (fun other => ?_) (by simp [ServerAction.created]) nofun
          exact ⟨fun hSame => (Option.some.inj hSame).symm, fun hSame => hSame ▸ rfl⟩
  | stopAllServers =>
      obtain ⟨last, more, hEach, hBooked, hNone, hLength⟩ := h.booked.stopEach rfl
      simp only [Session.step, stopAllServers, hEach, Option.some.injEq, Prod.mk.injEq] at hStep
      obtain ⟨rfl, rfl⟩ := hStep
      have hCreated : ServerAction.created (actions ++ [.stopAllServers]) =
          ServerAction.created actions := by simp [ServerAction.created]
      refine ⟨hBooked, by rw [hLength, hCreated, h.created], ?_, fun _ => hNone⟩
      intro server hServer
      have hIdle : last.isRunning server = false := by
        rw [← Bool.not_eq_true, ← hBooked.corresponds.listed, hNone]
        exact List.not_mem_nil
      rw [hLength, h.created] at hServer
      rw [hIdle, ServerAction.stopped_concat]
      simp [hServer, ServerAction.Stops]

theorem accounts_run {start finish : Session Handle} {actions : List (ServerAction Handle)}
    {calls : List (StopCall Handle)} (hStart : system.initial start)
    (run : system.Run start actions finish calls)
    (hPipe : ∀ action ∈ actions, ¬ action.StartsPipe) : Accounts actions finish calls := by
  have hFresh : start = fresh := hStart
  subst hFresh
  induction run with
  | nil => exact accounts_fresh
  | snoc prior last ih =>
      have hPrior := ih fun action hAction => hPipe action (List.mem_append_left _ hAction)
      exact hPrior.step (hPipe _ (List.mem_append_right _ List.mem_cons_self)) last

omit [DecidableEq Handle] in
theorem Accounts.consistent {actions : List (ServerAction Handle)} {session : Session Handle}
    {calls : List (StopCall Handle)} (h : Accounts actions session calls) :
    Consistent actions session calls where
  corresponds := h.booked.corresponds
  stopped := by
    intro server handle hHandle hStopped
    have hIdle := (h.stopped server (handle_lt hHandle)).2 hStopped
    rw [h.booked.once server handle hHandle, hIdle, if_neg Bool.false_ne_true]
  empty := by
    intro hLast
    have hNone := h.empty hLast
    refine ⟨hNone, by rw [h.booked.corresponds.handles, hNone, List.filterMap_nil], ?_⟩
    intro server
    rw [← Bool.not_eq_true, ← h.booked.corresponds.listed, hNone]
    exact List.not_mem_nil

omit [DecidableEq Handle] in
/-- The handle of a new pipe server is in one of the registries only. -/
theorem Corresponds.not_startPipeServer {session : Session Handle} (h : session.Corresponds)
    (handle : Handle) : ¬ (session.startPipeServer (some handle)).Corresponds := by
  intro hAfter
  have hHandles : session.pServers ++ [handle] = session.servers.filterMap
      (session.startPipeServer (some handle)).handle := hAfter.handles
  have hSame : session.servers.filterMap (session.startPipeServer (some handle)).handle =
      session.servers.filterMap session.handle := by
    apply List.filterMap_congr
    intro server hServer
    have hLess := running_lt ((h.listed server).1 hServer)
    change ((session.objects ++ [_])[server]?).map Server.handle = _
    rw [objects_concat, if_neg (Nat.ne_of_lt hLess)]
    rfl
  rw [hSame, ← h.handles] at hHandles
  have hLength := congrArg List.length hHandles
  rw [List.length_append, List.length_singleton] at hLength
  omega

/-- The registries agree after every call of a run exactly when no call of it has
created a pipe server. -/
theorem consistent_iff {start finish : Session Handle} {actions : List (ServerAction Handle)}
    {calls : List (StopCall Handle)} (hStart : system.initial start)
    (run : system.Run start actions finish calls) :
    (∀ before session past, before <+: actions → system.Run start before session past →
      Consistent before session past) ↔ ∀ action ∈ actions, ¬ action.StartsPipe := by
  constructor
  · intro hConsistent action hAction hPipe
    obtain ⟨handle, rfl⟩ := hPipe
    obtain ⟨before, after, rfl⟩ := List.append_of_mem hAction
    rw [List.append_cons] at run hConsistent
    obtain ⟨session, past, -, hFirst, -, -⟩ := run.split
    have hCalled := hConsistent _ session past (List.prefix_append _ _) hFirst
    obtain ⟨middle, earlier, emitted, hPrior, hStep, -⟩ := hFirst.of_snoc
    have hPrefix : before <+: (before ++ [.startPipeServer (some handle)]) ++ after :=
      (List.prefix_append _ _).trans (List.prefix_append _ _)
    have hBefore := hConsistent before middle earlier hPrefix hPrior
    have hCreated : middle.step (.startPipeServer (some handle)) = some (session, emitted) := hStep
    simp only [Session.step] at hCreated
    split_ifs at hCreated
    cases hCreated
    exact hBefore.corresponds.not_startPipeServer handle hCalled.corresponds
  · intro hPipe before session past hPrefix hPrior
    have hAccounts := accounts_run hStart hPrior fun action hAction =>
      hPipe action (hPrefix.subset hAction)
    exact hAccounts.consistent

/-- Two web servers, of which the second gets the address of the first, and a creation
that fails. -/
theorem consistent_iff_web :
    let actions : List (ServerAction Nat) := [.startServer (some 7), .startServer none, .stop 0,
      .startServer (some 7), .stopServer (some 0), .stopAllServers]
    ∃ finish, system.Run fresh actions finish [⟨0, 7⟩, ⟨1, 7⟩] ∧
      ∀ before session past, before <+: actions → system.Run fresh before session past →
        Consistent before session past := by
  intro actions
  have hExec : (System.exec Session.step fresh actions).map Prod.snd =
      some [⟨0, 7⟩, ⟨1, 7⟩] := by decide
  obtain ⟨⟨finish, calls⟩, hRun, hCalls⟩ := Option.map_eq_some_iff.1 hExec
  have hSame : calls = [⟨0, 7⟩, ⟨1, 7⟩] := hCalls
  subst hSame
  have run : system.Run fresh actions finish [⟨0, 7⟩, ⟨1, 7⟩] := System.run_of_exec hRun
  exact ⟨finish, run, (consistent_iff rfl run).2 (by simp [actions, ServerAction.StartsPipe])⟩

/-- A pipe server outlives being stopped, and no list has it. -/
theorem pipe_server_left :
    let actions : List (ServerAction Nat) := [.startPipeServer (some 7), .stop 0, .stopAllServers]
    ∃ finish, system.Run fresh actions finish [] ∧ finish.servers = [] ∧ finish.pServers = [7] ∧
      finish.isRunning 0 = false ∧ ¬ Consistent actions finish [] := by
  intro actions
  have hExec : (System.exec Session.step fresh actions).map
      (fun result => (result.1.servers, result.1.pServers, result.1.isRunning 0, result.2)) =
      some ([], [7], false, []) := by decide
  obtain ⟨⟨finish, calls⟩, hRun, hResult⟩ := Option.map_eq_some_iff.1 hExec
  simp only [Prod.mk.injEq] at hResult
  obtain ⟨hServers, hHandles, hIdle, rfl⟩ := hResult
  refine ⟨finish, System.run_of_exec hRun, hServers, hHandles, hIdle, ?_⟩
  intro hConsistent
  obtain ⟨-, hNone, -⟩ := hConsistent.empty rfl
  rw [hHandles] at hNone
  cases hNone

end Session

end Httpuv
