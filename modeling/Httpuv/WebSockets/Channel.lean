import Httpuv.Constants
import Mathlib.Logic.Relation

/-! A connection as the two ends of a WebSocket see it: the bytes of the client on
their way to `WebSocketConnection::read`, and the callbacks of the application. -/
namespace Httpuv

/-- A callback of the application. Those for requests are not among them. -/
inductive Notice where
  | onWSOpen
  | onWSMessage (binary : Bool) (data : Bytes)
  | onWSClose
  deriving DecidableEq, Repr

/-- `kept` are the bytes that came with the handshake, and `returning` are their sizes
after `onWSOpen`, when nothing but a place in memory is left of them. What the client
has sent since the handshake is counted once there has been one. -/
structure Channel where
  switched : Bool
  present : Bool
  closing : Bool
  reading : Bool
  ignoring : Bool
  kept : Bytes
  returning : List Nat
  queue : List Notice
  sent : Option Bytes
  passed : Bytes
  calls : List Notice
  deriving DecidableEq, Repr

inductive ChannelEvent where
  | stop (ignore : Bool)
  | close
  | closed
  | keep (buffer : Bytes)
  | read (data : Bytes)
  | drop (data : Bytes)
  | switch (leftover : Bytes)
  | receive (data : Bytes)
  | giveBack (freed : Bytes)
  | message (binary : Bool) (data : Bytes)
  | deliver
  deriving DecidableEq, Repr

/-- Events that need no care. They bring no bytes to the WebSocket, call no one and complete
no message. -/
def ChannelEvent.IsPlain : ChannelEvent → Prop
  | .switch _ | .receive _ | .giveBack _ | .message _ _ | .deliver => False
  | _ => True

namespace Channel

def step (channel : Channel) : ChannelEvent → Option Channel
  | .stop ignore => some { channel with reading := false, ignoring := channel.ignoring || ignore }
  | .close =>
      if channel.closing then none
      else some { channel with
        closing := true
        reading := false
        queue := channel.queue ++ if channel.present && channel.switched then [.onWSClose] else [] }
  | .closed => if channel.closing then some { channel with present := false } else none
  | .keep buffer => if channel.switched then none else some { channel with kept := buffer }
  | .read data =>
      if channel.switched then none
      else some { channel with sent := channel.sent.map (· ++ data) }
  | .drop data =>
      if channel.ignoring || !channel.present then
        some { channel with sent := channel.sent.map (· ++ data) }
      else none
  | .switch leftover =>
      if channel.switched then none
      else some { channel with
        switched := true
        kept := channel.kept ++ leftover
        queue := channel.queue ++ [.onWSOpen]
        sent := some leftover }
  | .receive data =>
      if channel.switched && !channel.ignoring && channel.present then
        some { channel with
          sent := channel.sent.map (· ++ data)
          passed := channel.passed ++ data }
      else none
  | .giveBack freed =>
      match channel.returning with
      | [] => none
      | size :: rest =>
          if freed.length = size then
            some { channel with returning := rest, passed := channel.passed ++ freed }
          else none
  | .message binary data =>
      if channel.switched && channel.present then
        some { channel with queue := channel.queue ++ [.onWSMessage binary data] }
      else none
  | .deliver =>
      match channel.queue with
      | [] => none
      | .onWSOpen :: rest =>
          if channel.present then
            some { channel with
              queue := rest
              calls := channel.calls ++ [.onWSOpen]
              returning := channel.returning ++ [channel.kept.length]
              kept := [] }
          else some { channel with queue := rest }
      | notice :: rest => some { channel with queue := rest, calls := channel.calls ++ [notice] }

/-- An event that is allowed where it happens. What is allowed is a parameter, so that each
property asks only for what it needs. -/
def Move (allowed : Channel → ChannelEvent → Prop) (channel after : Channel) : Prop :=
  ∃ event, allowed channel event ∧ channel.step event = some after

/-- The connection has just been accepted: nothing has come, and nothing is scheduled. -/
def fresh : Channel where
  switched := false
  present := true
  closing := false
  reading := true
  ignoring := false
  kept := []
  returning := []
  queue := []
  sent := none
  passed := []
  calls := []

variable {allowed : Channel → ChannelEvent → Prop} {start channel after : Channel}

/-- What every event preserves holds wherever the events lead, when it holds at the
beginning. -/
theorem invariant {I : Channel → Prop} (h : Relation.ReflTransGen (Move allowed) start after)
    (hStart : I start)
    (hStep : ∀ channel event after, I channel → allowed channel event →
      channel.step event = some after → I after) : I after := by
  induction h with
  | refl => exact hStart
  | tail prior last ih =>
      obtain ⟨event, hAllowed, hEvent⟩ := last
      exact hStep _ event _ ih hAllowed hEvent

theorem step_giveBack {freed : Bytes} (h : channel.step (.giveBack freed) = some after) :
    ∃ rest, channel.returning = freed.length :: rest ∧
      after = { channel with returning := rest, passed := channel.passed ++ freed } := by
  simp only [step] at h
  cases hReturning : channel.returning with
  | nil =>
      rw [hReturning] at h
      cases h
  | cons size rest =>
      rw [hReturning] at h
      simp only [Option.ite_none_right_eq_some, Option.some.injEq] at h
      obtain ⟨rfl, rfl⟩ := h
      exact ⟨rest, rfl, rfl⟩

/-- The first callback is called, unless it is `onWSOpen` and the WebSocket is gone. Then it
is taken off the queue without a call. -/
theorem step_deliver (h : channel.step .deliver = some after) :
    ∃ notice rest, channel.queue = notice :: rest ∧
      (notice = .onWSOpen ∧ channel.present = true ∧ after = { channel with
          queue := rest
          calls := channel.calls ++ [.onWSOpen]
          returning := channel.returning ++ [channel.kept.length]
          kept := [] } ∨
        notice = .onWSOpen ∧ channel.present = false ∧ after = { channel with queue := rest } ∨
        after = { channel with queue := rest, calls := channel.calls ++ [notice] }) := by
  simp only [step] at h
  cases hQueue : channel.queue with
  | nil =>
      rw [hQueue] at h
      cases h
  | cons notice rest =>
      rw [hQueue] at h
      refine ⟨notice, rest, rfl, ?_⟩
      cases notice with
      | onWSOpen =>
          dsimp only at h
          split_ifs at h with hPresent
          · exact Or.inl ⟨rfl, hPresent, (Option.some.inj h).symm⟩
          · exact Or.inr (Or.inl ⟨rfl, by simpa using hPresent, (Option.some.inj h).symm⟩)
      | onWSMessage binary data => exact Or.inr (Or.inr (Option.some.inj h).symm)
      | onWSClose => exact Or.inr (Or.inr (Option.some.inj h).symm)

/-! ## The bytes -/

/-- Nothing that has come with the handshake is on the way to the WebSocket: the buffer is
empty, and no task of a positive size is queued. -/
def Settled (channel : Channel) : Prop :=
  channel.kept = [] ∧ ∀ size ∈ channel.returning, size = 0

/-- Bytes from the socket are passed on when none have come with the handshake, and
what lies in memory in their place is never read. -/
def InOrder (channel : Channel) : ChannelEvent → Prop
  | .receive _ => channel.Settled
  | .giveBack freed => freed = []
  | .switch _ => channel.kept = []
  | _ => True

/-- Whether the socket is still listened to. A connection that is not brings no more bytes to
anyone. -/
def Listens (channel : Channel) : Prop :=
  channel.ignoring = false ∧ channel.present = true

structure Passes (channel : Channel) : Prop where
  unswitched : channel.switched = false →
    channel.sent = none ∧ channel.passed = [] ∧ channel.returning = [] ∧ channel.queue = []
  switched : channel.switched = true → ∃ sent, channel.sent = some sent ∧
    channel.passed <+: sent ∧ (channel.Listens → channel.Settled → channel.passed = sent)

/-- Events that neither bring bytes nor pass any on do not change what has been passed. -/
theorem Passes.congr (h : channel.Passes) (hSwitched : after.switched = channel.switched)
    (hSent : after.sent = channel.sent) (hPassed : after.passed = channel.passed)
    (hReturning : after.returning = channel.returning)
    (hQueue : channel.switched = false → channel.queue = [] → after.queue = [])
    (hKept : channel.switched = true → after.kept = channel.kept)
    (hListens : after.Listens → channel.Listens) : after.Passes where
  unswitched := by
    intro hAfter
    rw [hSwitched] at hAfter
    obtain ⟨hNone, hNothing, hEmpty, hNotices⟩ := h.unswitched hAfter
    exact ⟨hSent.trans hNone, hPassed.trans hNothing, hReturning.trans hEmpty,
      hQueue hAfter hNotices⟩
  switched := by
    intro hAfter
    have hBefore := hSwitched.symm.trans hAfter
    obtain ⟨sent, hBytes, hPrefix, hEqual⟩ := h.switched hBefore
    refine ⟨sent, hSent.trans hBytes, hPassed ▸ hPrefix, fun hStill hSettled => ?_⟩
    rw [Settled, hReturning, hKept hBefore] at hSettled
    exact hPassed.trans (hEqual (hListens hStill) hSettled)

theorem Passes.step {event : ChannelEvent} (h : channel.Passes)
    (hOrder : channel.InOrder event) (hStep : channel.step event = some after) :
    after.Passes := by
  cases event with
  | stop ignore =>
      obtain rfl := Option.some.inj hStep
      refine h.congr rfl rfl rfl rfl (fun _ => id) (fun _ => rfl) ?_
      rintro ⟨hIgnoring, hPresent⟩
      exact ⟨(Bool.or_eq_false_iff.1 hIgnoring).1, hPresent⟩
  | close =>
      simp only [Channel.step, Option.ite_none_left_eq_some, Option.some.injEq] at hStep
      obtain ⟨-, rfl⟩ := hStep
      refine h.congr rfl rfl rfl rfl (fun hSwitched hEmpty => ?_) (fun _ => rfl) id
      simp [hSwitched, hEmpty]
  | closed =>
      simp only [Channel.step, Option.ite_none_right_eq_some, Option.some.injEq] at hStep
      obtain ⟨-, rfl⟩ := hStep
      exact h.congr rfl rfl rfl rfl (fun _ => id) (fun _ => rfl)
        (fun hListens => Bool.noConfusion hListens.2)
  | keep buffer =>
      simp only [Channel.step, Option.ite_none_left_eq_some, Option.some.injEq] at hStep
      obtain ⟨hSwitched, rfl⟩ := hStep
      exact h.congr rfl rfl rfl rfl (fun _ => id) (fun hSame => absurd hSame hSwitched) id
  | read data =>
      simp only [Channel.step, Option.ite_none_left_eq_some, Option.some.injEq] at hStep
      obtain ⟨hSwitched, rfl⟩ := hStep
      refine ⟨fun hSame => ?_, fun hSame => absurd hSame hSwitched⟩
      obtain ⟨hSent, hRest⟩ := h.unswitched hSame
      exact ⟨by simp [hSent], hRest⟩
  | drop data =>
      simp only [Channel.step, Option.ite_none_right_eq_some, Option.some.injEq] at hStep
      obtain ⟨hDeaf, rfl⟩ := hStep
      refine ⟨fun hSame => ?_, fun hSame => ?_⟩
      · obtain ⟨hSent, hRest⟩ := h.unswitched hSame
        exact ⟨by simp [hSent], hRest⟩
      · obtain ⟨sent, hSent, hPrefix, -⟩ := h.switched hSame
        refine ⟨sent ++ data, by simp [hSent], hPrefix.trans (List.prefix_append _ _), ?_⟩
        rintro ⟨hIgnoring, hPresent⟩
        have hHears : channel.ignoring = false ∧ channel.present = true := ⟨hIgnoring, hPresent⟩
        simp [hHears] at hDeaf
  | switch leftover =>
      simp only [Channel.step, Option.ite_none_left_eq_some, Option.some.injEq] at hStep
      obtain ⟨hSwitched, rfl⟩ := hStep
      obtain ⟨-, hPassed, -⟩ := h.unswitched (by simpa using hSwitched)
      refine ⟨fun hSame => Bool.noConfusion hSame, fun _ => ⟨leftover, rfl, ?_, ?_⟩⟩
      · simp [hPassed]
      · rintro - ⟨hKept, -⟩
        obtain ⟨-, rfl⟩ := List.append_eq_nil_iff.1 hKept
        exact hPassed
  | receive data =>
      simp only [Channel.step, Option.ite_none_right_eq_some, Option.some.injEq, Bool.and_eq_true,
        Bool.not_eq_true'] at hStep
      obtain ⟨⟨⟨hSwitched, hIgnoring⟩, hPresent⟩, rfl⟩ := hStep
      obtain ⟨sent, hSent, -, hEqual⟩ := h.switched hSwitched
      have hEnd : channel.passed ++ data = sent ++ data := by
        rw [hEqual ⟨hIgnoring, hPresent⟩ hOrder]
      refine ⟨fun hSame => ?_, fun _ => ⟨sent ++ data, ?_, ?_, fun _ _ => hEnd⟩⟩
      · have hBefore : channel.switched = false := hSame
        rw [hSwitched] at hBefore
        cases hBefore
      · rw [hSent]
        rfl
      · exact ⟨[], (List.append_nil _).trans hEnd⟩
  | giveBack freed =>
      obtain ⟨rest, hReturning, rfl⟩ := step_giveBack hStep
      obtain rfl : freed = [] := hOrder
      refine ⟨fun hSame => ?_, fun hSame => ?_⟩
      · have hNone := (h.unswitched hSame).2.2.1
        rw [hReturning] at hNone
        cases hNone
      · obtain ⟨sent, hSent, hPrefix, hEqual⟩ := h.switched hSame
        refine ⟨sent, hSent, by simpa using hPrefix, fun hListens hSettled => ?_⟩
        rw [List.append_nil]
        refine hEqual hListens ⟨hSettled.1, fun size hMem => ?_⟩
        rw [hReturning] at hMem
        exact (List.mem_cons.1 hMem).elim id (hSettled.2 size)
  | message binary data =>
      simp only [Channel.step, Option.ite_none_right_eq_some, Option.some.injEq,
        Bool.and_eq_true] at hStep
      obtain ⟨⟨hSwitched, -⟩, rfl⟩ := hStep
      refine h.congr rfl rfl rfl rfl (fun hSame => ?_) (fun _ => rfl) id
      exact absurd hSwitched (by simp [hSame])
  | deliver =>
      obtain ⟨notice, rest, hQueue, hCases⟩ := step_deliver hStep
      have hSwitched : channel.switched = true := by
        cases hSwitched : channel.switched with
        | false => exact absurd (h.unswitched hSwitched).2.2.2 (by simp [hQueue])
        | true => rfl
      have hOther : channel.switched = false → channel.queue = [] → rest = [] :=
        fun hSame => absurd hSwitched (by simp [hSame])
      rcases hCases with ⟨-, -, rfl⟩ | ⟨-, -, rfl⟩ | rfl
      · obtain ⟨sent, hSent, hPrefix, hEqual⟩ := h.switched hSwitched
        refine ⟨fun hSame => ?_, fun _ => ⟨sent, hSent, ?_, ?_⟩⟩
        · have hNot : channel.switched = false := hSame
          rw [hSwitched] at hNot
          cases hNot
        · exact hPrefix
        · rintro hListens ⟨-, hSizes⟩
          have hKept : channel.kept = [] :=
            List.length_eq_zero_iff.1 (hSizes _ (List.mem_append_right _ (List.mem_singleton_self _)))
          exact hEqual hListens
            ⟨hKept, fun size hMem => hSizes size (List.mem_append_left _ hMem)⟩
      · exact h.congr rfl rfl rfl rfl hOther (fun _ => rfl) id
      · exact h.congr rfl rfl rfl rfl hOther (fun _ => rfl) id

/-- The bytes passed on are the first of those the client has sent, wherever events lead that
keep the order. -/
theorem passed_prefix (h : Relation.ReflTransGen (Move InOrder) fresh channel) :
    channel.passed <+: channel.sent.getD [] := by
  have hPasses : channel.Passes := by
    apply invariant h
    · exact ⟨fun _ => ⟨rfl, rfl, rfl, rfl⟩, fun hSwitched => Bool.noConfusion hSwitched⟩
    · exact fun channel event after hBefore hOrder hStep => hBefore.step hOrder hStep
  cases hSwitched : channel.switched with
  | false => simp [(hPasses.unswitched hSwitched).2.1]
  | true =>
      obtain ⟨sent, hSent, hPrefix, -⟩ := hPasses.switched hSwitched
      rw [hSent]
      exact hPrefix

/-! ## The callbacks -/

/-- All callbacks of the application, past and to come, in the order in which they have been
scheduled. -/
def notices (channel : Channel) : List Notice :=
  channel.calls ++ channel.queue

/-- No message comes after `onWSClose` has been scheduled, and `onWSOpen` is not
left out before other callbacks. -/
def Announced (channel : Channel) : ChannelEvent → Prop
  | .message _ _ => .onWSClose ∉ channel.notices
  | .deliver => ∀ rest, channel.queue = .onWSOpen :: rest → channel.present = true ∨ rest = []
  | _ => True

/-- What an event does to them: it adds one at the end, or leaves out the one that is
first in the queue. -/
inductive Notifies (channel : Channel) : ChannelEvent → Channel → Prop
  | same {event : ChannelEvent} {after : Channel} (hNotices : after.notices = channel.notices)
      (hSwitched : after.switched = channel.switched) (hClosing : after.closing = channel.closing)
      (hPresent : after.present = channel.present ∨
        channel.closing = true ∧ after.present = false) :
      Notifies channel event after
  | closes {after : Channel} (hOpen : channel.closing = false) (hClosing : after.closing = true)
      (hSwitched : after.switched = channel.switched) (hPresent : after.present = channel.present)
      (hNotices : after.notices = channel.notices ++
        if channel.present && channel.switched then [.onWSClose] else []) :
      Notifies channel .close after
  | opens {leftover : Bytes} {after : Channel} (hBefore : channel.switched = false)
      (hSwitched : after.switched = true) (hClosing : after.closing = channel.closing)
      (hPresent : after.present = channel.present)
      (hNotices : after.notices = channel.notices ++ [.onWSOpen]) :
      Notifies channel (.switch leftover) after
  | message {binary : Bool} {data : Bytes} {after : Channel} (hBefore : channel.switched = true)
      (hPresent : channel.present = true) (hSwitched : after.switched = true)
      (hClosing : after.closing = channel.closing) (hStill : after.present = true)
      (hNotices : after.notices = channel.notices ++ [.onWSMessage binary data]) :
      Notifies channel (.message binary data) after
  | skips {rest : List Notice} {after : Channel} (hQueue : channel.queue = .onWSOpen :: rest)
      (hGone : channel.present = false) (hSwitched : after.switched = channel.switched)
      (hClosing : after.closing = channel.closing) (hPresent : after.present = channel.present)
      (hNotices : after.notices = channel.calls ++ rest) : Notifies channel .deliver after

theorem step_notifies {event : ChannelEvent} (h : channel.step event = some after) :
    Notifies channel event after := by
  cases event with
  | stop ignore =>
      obtain rfl := Option.some.inj h
      exact .same rfl rfl rfl (Or.inl rfl)
  | close =>
      simp only [step, Option.ite_none_left_eq_some, Option.some.injEq] at h
      obtain ⟨hOpen, rfl⟩ := h
      exact .closes (by simpa using hOpen) rfl rfl rfl (by simp [notices])
  | closed =>
      simp only [step, Option.ite_none_right_eq_some, Option.some.injEq] at h
      obtain ⟨hClosing, rfl⟩ := h
      exact .same rfl rfl rfl (Or.inr ⟨hClosing, rfl⟩)
  | keep buffer =>
      simp only [step, Option.ite_none_left_eq_some, Option.some.injEq] at h
      obtain ⟨-, rfl⟩ := h
      exact .same rfl rfl rfl (Or.inl rfl)
  | read data =>
      simp only [step, Option.ite_none_left_eq_some, Option.some.injEq] at h
      obtain ⟨-, rfl⟩ := h
      exact .same rfl rfl rfl (Or.inl rfl)
  | drop data =>
      simp only [step, Option.ite_none_right_eq_some, Option.some.injEq] at h
      obtain ⟨-, rfl⟩ := h
      exact .same rfl rfl rfl (Or.inl rfl)
  | switch leftover =>
      simp only [step, Option.ite_none_left_eq_some, Option.some.injEq] at h
      obtain ⟨hBefore, rfl⟩ := h
      exact .opens (by simpa using hBefore) rfl rfl rfl (by simp [notices])
  | receive data =>
      simp only [step, Option.ite_none_right_eq_some, Option.some.injEq] at h
      obtain ⟨-, rfl⟩ := h
      exact .same rfl rfl rfl (Or.inl rfl)
  | giveBack freed =>
      obtain ⟨rest, -, rfl⟩ := step_giveBack h
      exact .same rfl rfl rfl (Or.inl rfl)
  | message binary data =>
      simp only [step, Option.ite_none_right_eq_some, Option.some.injEq, Bool.and_eq_true] at h
      obtain ⟨⟨hSwitched, hPresent⟩, rfl⟩ := h
      exact .message hSwitched hPresent hSwitched rfl hPresent (by simp [notices])
  | deliver =>
      obtain ⟨notice, rest, hQueue, ⟨rfl, -, rfl⟩ | ⟨rfl, hGone, rfl⟩ | rfl⟩ := step_deliver h
      · exact .same (by simp [notices, hQueue]) rfl rfl (Or.inl rfl)
      · exact .skips hQueue hGone rfl rfl rfl rfl
      · exact .same (by simp [notices, hQueue]) rfl rfl (Or.inl rfl)

/-- `onWSClose` is scheduled when the connection begins to close, and only then, so that it
is scheduled once. -/
theorem closing_of_onWSClose (h : Relation.ReflTransGen (Move allowed) fresh channel) :
    .onWSClose ∈ channel.notices → channel.closing = true := by
  apply invariant h
  · simp [notices, fresh]
  · intro channel event after hBefore hAllowed hStep hMem
    cases step_notifies hStep with
    | same hNotices hSwitched hClosing hPresent =>
        rw [hNotices] at hMem
        exact hClosing.trans (hBefore hMem)
    | closes hOpen hClosing hSwitched hPresent hNotices => exact hClosing
    | opens hUnswitched hSwitched hClosing hPresent hNotices =>
        rw [hNotices] at hMem
        exact hClosing.trans (hBefore (by simpa using hMem))
    | message hSwitched hPresent hStill hClosing hRemains hNotices =>
        rw [hNotices] at hMem
        exact hClosing.trans (hBefore (by simpa using hMem))
    | skips hQueue hGone hSwitched hClosing hPresent hNotices =>
        rw [hNotices] at hMem
        refine hClosing.trans (hBefore ?_)
        rw [notices, hQueue]
        simpa using hMem

/-- `onWSOpen` and messages. Before a connection is closed its callbacks are of this form. -/
def opening (messages : List (Bool × Bytes)) : List Notice :=
  .onWSOpen :: messages.map (fun message => .onWSMessage message.1 message.2)

/-- The callbacks are called in their order, unless all are left out. They are left out
together when the WebSocket is gone before `onWSOpen` is called. -/
structure Heralds (channel : Channel) : Prop where
  present : channel.present = false → channel.closing = true
  unswitched : channel.switched = false → channel.notices = []
  switched : channel.switched = true → channel.notices = [] ∧ channel.present = false ∨
    ∃ messages, channel.notices = opening messages ∨
      channel.closing = true ∧ channel.notices = opening messages ++ [.onWSClose]

theorem Heralds.step {event : ChannelEvent} (h : channel.Heralds)
    (hAnnounced : channel.Announced event) (hStep : channel.step event = some after) :
    after.Heralds := by
  cases step_notifies hStep with
  | same hNotices hSwitched hClosing hPresent =>
      refine ⟨fun hGone => ?_, ?_, ?_⟩
      · rw [hClosing]
        rcases hPresent with hSame | ⟨hBefore, -⟩
        · exact h.present (hSame ▸ hGone)
        · exact hBefore
      · rw [hSwitched, hNotices]
        exact h.unswitched
      · intro hAfter
        rw [hNotices, hClosing]
        refine (h.switched (hSwitched ▸ hAfter)).imp (And.imp_right fun hGone => ?_) id
        rcases hPresent with hSame | ⟨-, hNone⟩
        · exact hSame.trans hGone
        · exact hNone
  | closes hOpen hClosing hSwitched hPresent hNotices =>
      have hThere : channel.present = true := by
        by_contra hGone
        rw [h.present (by simpa using hGone)] at hOpen
        cases hOpen
      refine ⟨fun _ => hClosing, fun hAfter => ?_, fun hAfter => ?_⟩
      · rw [hSwitched] at hAfter
        rw [hNotices, h.unswitched hAfter, hAfter]
        simp
      · rw [hSwitched] at hAfter
        rw [hNotices, hThere, hAfter]
        rcases h.switched hAfter with ⟨-, hGone⟩ | ⟨messages, hOpened | ⟨hBefore, -⟩⟩
        · rw [hThere] at hGone
          cases hGone
        · exact Or.inr ⟨messages, Or.inr ⟨hClosing, by simp [hOpened]⟩⟩
        · rw [hOpen] at hBefore
          cases hBefore
  | opens hUnswitched hSwitched hClosing hPresent hNotices =>
      refine ⟨fun hGone => ?_, fun hNot => ?_, fun _ => Or.inr ⟨[], Or.inl ?_⟩⟩
      · rw [hClosing]
        exact h.present (hPresent ▸ hGone)
      · rw [hSwitched] at hNot
        cases hNot
      · simp [hNotices, h.unswitched hUnswitched, opening]
  | @message binary data _ hBefore hThere hSwitched hClosing hStill hNotices =>
      refine ⟨fun hGone => ?_, fun hNot => ?_, fun _ => Or.inr ?_⟩
      · rw [hStill] at hGone
        cases hGone
      · rw [hSwitched] at hNot
        cases hNot
      · rcases h.switched hBefore with ⟨-, hGone⟩ | ⟨messages, hOpened | ⟨-, hOver⟩⟩
        · rw [hThere] at hGone
          cases hGone
        · exact ⟨messages ++ [(binary, data)], Or.inl (by simp [hNotices, hOpened, opening])⟩
        · have hUnclosed : .onWSClose ∉ channel.notices := hAnnounced
          simp [hOver] at hUnclosed
  | @skips rest _ hQueue hGone hSwitched hClosing hPresent hNotices =>
      have hAlone : rest = [] := (hAnnounced rest hQueue).resolve_left (by simp [hGone])
      subst hAlone
      refine ⟨fun _ => hClosing.trans (h.present hGone), fun hNot => ?_, fun hAfter => ?_⟩
      · have hNone := h.unswitched (hSwitched.symm.trans hNot)
        simp [notices, hQueue] at hNone
      · -- `onWSOpen` can only be the last callback if it is the only one
        refine Or.inl ⟨?_, hPresent.trans hGone⟩
        rw [hNotices, List.append_nil]
        rcases h.switched (hSwitched ▸ hAfter) with ⟨hNone, -⟩ | ⟨messages, hOpened | ⟨-, hOver⟩⟩
        · simp [notices, hQueue] at hNone
        · rw [notices, hQueue, opening] at hOpened
          rcases List.append_eq_cons_iff.1 hOpened with ⟨hCalls, -⟩ | ⟨calls, -, hMessages⟩
          · exact hCalls
          · have hMem : Notice.onWSOpen ∈ messages.map
                (fun message => Notice.onWSMessage message.1 message.2) := by simp [hMessages]
            simp at hMem
        · rw [notices, hQueue] at hOver
          have hLast := List.append_inj_right' hOver rfl
          simp at hLast

/-- The callbacks that have been called come in their order, as the first part of those that
have been scheduled. -/
theorem calls_prefix (h : Relation.ReflTransGen (Move Announced) fresh channel) :
    ∃ messages, channel.calls <+: opening messages ++ [.onWSClose] := by
  have hHeralds : channel.Heralds := by
    apply invariant h
    · exact ⟨fun hGone => Bool.noConfusion hGone, fun _ => rfl, fun hNot => Bool.noConfusion hNot⟩
    · exact fun channel event after hBefore hAnnounced hStep => hBefore.step hAnnounced hStep
  have hCalls : channel.calls <+: channel.notices := List.prefix_append _ _
  cases hSwitched : channel.switched with
  | false =>
      rw [hHeralds.unswitched hSwitched] at hCalls
      exact ⟨[], hCalls.trans (List.nil_prefix)⟩
  | true =>
      rcases hHeralds.switched hSwitched with ⟨hNone, -⟩ | ⟨messages, hOpened | ⟨-, hOver⟩⟩
      · rw [hNone] at hCalls
        exact ⟨[], hCalls.trans (List.nil_prefix)⟩
      · rw [hOpened] at hCalls
        exact ⟨messages, hCalls.trans (List.prefix_append _ _)⟩
      · rw [hOver] at hCalls
        exact ⟨messages, hCalls⟩

end Channel

end Httpuv
