import Httpuv.Http.Decisions

/-! The writes under way match the log in every run. -/
namespace Httpuv

open Semantics

namespace Connection

variable {File : Type} [HttpParser] [Zlib]

/-- The second connection comes after the first, with entries that are not about
a response and with the same writes. -/
structure Plain (conn after : Connection File) : Prop where
  log : ∃ entries, after.log = conn.log ++ entries ∧ ∀ entry ∈ entries, entry.IsPlain
  writes : after.writes = conn.writes
  serial : after.serial = conn.serial

namespace Plain

variable {conn middle after : Connection File}

theorem refl (conn : Connection File) : Plain conn conn where
  log := ⟨[], by simp⟩
  writes := rfl
  serial := rfl

theorem trans (h : Plain conn middle) (h' : Plain middle after) : Plain conn after where
  log := by
    obtain ⟨entries, hLog, hPlain⟩ := h.log
    obtain ⟨entries', hLog', hPlain'⟩ := h'.log
    refine ⟨entries ++ entries', by rw [hLog', hLog, List.append_assoc], ?_⟩
    intro entry hMem
    rcases List.mem_append.1 hMem with hMem | hMem
    · exact hPlain entry hMem
    · exact hPlain' entry hMem
  writes := h'.writes.trans h.writes
  serial := h'.serial.trans h.serial

theorem close (conn : Connection File) : Plain conn conn.close := by
  unfold Connection.close
  split_ifs
  · exact refl conn
  · exact ⟨⟨[.uvClose], rfl, by simp [Observation.IsPlain]⟩, rfl, rfl⟩
  · exact ⟨⟨[.uvClose], rfl, by simp [Observation.IsPlain]⟩, rfl, rfl⟩

theorem newRequest (conn : Connection File) : Plain conn conn.newRequest := by
  have hBegun : Plain conn conn.begun :=
    ⟨⟨[.onMessageBegin (conn.current + 1) conn.handlingRequest], rfl,
      by simp [Observation.IsPlain]⟩, rfl, rfl⟩
  have hLater : ∀ middle : Connection File, Plain middle (middle.invokeLater .initializeEnv) :=
    fun middle => ⟨⟨[], by simp [invokeLater]⟩, rfl, rfl⟩
  rw [newRequest_eq]
  split_ifs
  · exact (hBegun.trans (close _)).trans (hLater _)
  · exact hBegun.trans (hLater _)

/-- The callbacks of the parser write nothing. -/
theorem onEvent (conn : Connection File) (static : Option (HttpResponse (Body File)))
    (event : ParserEvent) : Plain conn (conn.onEvent static event) := by
  cases event with
  | onMessageBegin => exact newRequest conn
  | onHeadersComplete upgrade =>
      simp only [Connection.onEvent, onHeadersComplete]
      split
      case h_1 response hSome =>
          refine ⟨⟨[.onHeadersComplete conn.current upgrade,
            .answeredInHeaders conn.current response], ?_, by simp [Observation.IsPlain]⟩, rfl, rfl⟩
          simp [push, observe]
      case h_2 hNone =>
          exact ⟨⟨[.onHeadersComplete conn.current upgrade], rfl, by simp [Observation.IsPlain]⟩,
            rfl, rfl⟩
  | onMessageComplete =>
      simp only [Connection.onEvent, onMessageComplete]
      split_ifs
      · exact refl conn
      · exact ⟨⟨[], by simp [invokeLater]⟩, rfl, rfl⟩
  | _ => exact ⟨⟨[], by simp [Connection.onEvent, invokeLater]⟩, rfl, rfl⟩

theorem feed (conn : Connection File) (static : Option (HttpResponse (Body File)))
    (buffer : Bytes) : Plain conn (conn.feed static buffer) := by
  have hEvents : ∀ (events : List ParserEvent) (conn : Connection File),
      Plain conn (events.foldl (Connection.onEvent static) conn) := by
    intro events
    induction events with
    | nil => exact refl
    | cons event events ih => exact fun conn => (onEvent conn static event).trans (ih _)
  have hStart : Plain conn
      ({ conn with parser := (HttpParser.execute conn.parser buffer).parser }.observe
        (.execute (buffer.take (HttpParser.execute conn.parser buffer).parsed))) :=
    ⟨⟨_, rfl, by simp [Observation.IsPlain]⟩, rfl, rfl⟩
  exact hStart.trans (hEvents _ _)

theorem accept (conn : Connection File) (parser : WSParser)
    (handshake : WebSocketProto.Handshake) : Plain conn (conn.accept parser handshake) := by
  refine ⟨⟨[.accept conn.current true, .handshake handshake.pData], ?_, ?_⟩, rfl, rfl⟩
  · exact List.append_assoc conn.log [_] [_]
  · simp [Observation.IsPlain]

variable [DataSource File]

theorem writing (h : Plain conn after) (hWriting : conn.Writing) : after.Writing := by
  obtain ⟨entries, hLog, hPlain⟩ := h.log
  exact hWriting.extend h.writes h.serial hLog hPlain

end Plain

variable {conn after : Connection File} [DataSource File]

theorem Writing.finishes {request : Nat} {response : HttpResponse (Body File)} {closing : Bool}
    (h : conn.Writing) (hFinishes : Finishes conn request response closing after) :
    after.Writing := by
  obtain ⟨entries, hWrote⟩ := Connection.wrote hFinishes
  exact hWrote.writing (h.extend rfl rfl (List.append_nil _).symm (by simp))

/-- The same connection, as far as its writes are concerned. -/
theorem Writing.congr (h : conn.Writing) (hLog : after.log = conn.log)
    (hWrites : after.writes = conn.writes) (hSerial : after.serial = conn.serial) :
    after.Writing :=
  h.extend hWrites hSerial (by rw [hLog, List.append_nil]) (by simp)

/-- The parser goes on, with or without a response. -/
theorem Writing.headersCompleted {middle : Connection File} {now : Tm} {request : Nat}
    {response : Option (HttpResponse (Body File))} (h : conn.Writing)
    (hMiddle : conn.headersCompleted now request response = some middle) :
    ({ middle with requestBuffer := [] } : Connection File).Writing := by
  cases response with
  | some answer =>
      obtain ⟨closing, answered, hFinishes, rfl⟩ := headersCompleted_some hMiddle
      exact (h.finishes hFinishes).congr rfl rfl rfl
  | none =>
      obtain ⟨continued, rfl | hContinued, rfl⟩ := headersCompleted_none hMiddle
      · exact h.congr rfl rfl rfl
      · obtain ⟨entries, hWrote⟩ := Connection.wrote hContinued
        exact (hWrote.writing h).congr rfl rfl rfl

variable [Host] [Digests]

theorem Writing.upgraded {now : Tm} {pData : Bytes} (h : conn.Writing)
    (hUpgraded : Upgraded conn now pData after) : after.Writing := by
  cases hUpgraded with
  | gone hGone => exact h
  | refused hRefused hQuiet hClosed =>
      exact hQuiet.writing (h.extend rfl rfl rfl (by simp [Observation.IsPlain]))
  | @accepted parser answered handshake hOpen hAccepted hHandshake hAnswered =>
      obtain ⟨entries, hWrote⟩ := Connection.wrote hAnswered
      have hAccept := (Plain.accept conn parser handshake).writing h
      exact (hWrote.writing hAccept).congr rfl rfl rfl

theorem Writing.parsed {static : Option (HttpResponse (Body File))} {now : Tm} {buffer : Bytes}
    (h : conn.Writing) (hParsed : Parsed conn static now buffer after) : after.Writing := by
  have hFed := (Plain.feed conn static buffer).writing h
  cases hParsed with
  | waiting hWaiting => exact hFed.congr rfl rfl rfl
  | upgrade hWaiting hUpgrade hAfter => exact hFed.upgraded hAfter
  | quiet hWaiting hUpgrade hQuiet hRest => exact hQuiet.writing hFed

/-- One step. -/
theorem Writing.step (h : conn.Writing) (hStep : Step conn after) : after.Writing := by
  cases hStep with
  | quiet hQuiet => exact hQuiet.writing h
  | read static now data hReading hIgnore hProtocol hParsed =>
      have hRead : (conn.observe (.read data)).Writing :=
        h.extend rfl rfl rfl (by simp [Observation.IsPlain])
      exact hRead.parsed hParsed
  | @onHeadersCompleteComplete middle _ request response rest static now hQueue hMiddle hParsed =>
      have hPopped : ({ conn with backgroundQueue := rest } : Connection File).Writing :=
        h.congr rfl rfl rfl
      exact (hPopped.headersCompleted hMiddle).parsed hParsed
  | @onBodyError _ request response rest hQueue hAfter =>
      have hPaused : ({ conn with backgroundQueue := rest, parser := HttpParser.pause conn.parser } :
          Connection File).Writing := h.congr rfl rfl rfl
      exact hPaused.finishes (onBodyError_finishes hAfter)
  | @onMessageCompleteComplete _ request response rest hQueue hAfter =>
      have hPopped : ({ conn with backgroundQueue := rest } : Connection File).Writing :=
        h.congr rfl rfl rfl
      rcases onMessageCompleteComplete_cases hAfter with ⟨rfl, -⟩ | ⟨-, answer, -, hFinishes⟩
      · exact hPopped
      · exact hPopped.finishes hFinishes
  | decided hQueue response =>
      refine h.extend rfl rfl rfl ?_
      cases response <;> simp [Observation.IsPlain]
  | undecided hQueue => exact h.extend rfl rfl rfl (by simp [Observation.IsPlain])
  | bodySkipped hQueue hScheduled => exact h.congr rfl rfl rfl
  | bodyTaken hQueue hScheduled => exact h.extend rfl rfl rfl (by simp [Observation.IsPlain])
  | bodyFailed hQueue hScheduled now =>
      exact h.extend rfl rfl rfl (by simp [Observation.IsPlain])
  | callSkipped hQueue hScheduled => exact h.congr rfl rfl rfl
  | called hQueue hScheduled response =>
      exact h.extend rfl rfl rfl (by simp [Observation.IsPlain])
  | promised hQueue hScheduled => exact h.extend rfl rfl rfl (by simp [Observation.IsPlain])
  | settled hPromise response => exact h.congr rfl rfl rfl
  | rejected hPromise => exact h.congr rfl rfl rfl

omit [Host] [Digests] in
theorem Initial.writing (h : Initial conn) : conn.Writing := by
  obtain ⟨incompleteContentHeader, header, rfl⟩ := h
  exact {
    numbered := by simp [fresh, HasPiece]
    distinct := by simp [fresh]
    backed := by simp [fresh] }

end Connection

end Httpuv
