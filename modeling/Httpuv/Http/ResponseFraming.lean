import Httpuv.Http.Response
import Httpuv.Http.WriteCompletion

/-! A response on the wire, decoded by HTTP/1.1 message framing. -/
namespace Httpuv

open Semantics

/-- The bytes of the writes of a log that libuv has accepted. -/
def bytesWritten (log : List WriteEffect) : Bytes :=
  log.flatMap (fun effect => match effect with
    | .uvWrite bufs true => bufs.flatten
    | _ => [])

theorem flatten_bufs (pre buffer post : Bytes) :
    (bufs pre buffer post).flatten = pre ++ buffer ++ post := by
  unfold bufs
  by_cases hPre : pre = [] <;> by_cases hBuffer : buffer = [] <;> by_cases hPost : post = [] <;>
    simp [hPre, hBuffer, hPost]

/-- How a body is laid out on the wire. -/
def encoded (chunked : Bool) (buffers : List Bytes) : Bytes :=
  if chunked then buffers.flatMap Framing.formatChunk ++ Framing.lastChunk else buffers.flatten

theorem encoded_cons (chunked : Bool) (buffer : Bytes) (buffers : List Bytes) :
    encoded chunked (buffer :: buffers) =
      (if chunked then Framing.formatChunk buffer else buffer) ++ encoded chunked buffers := by
  cases chunked <;> simp [encoded]

namespace ExtendedWrite

/-- The bytes of a write are one piece of the body. -/
theorem flatten_piece {Source : Type} (write : ExtendedWrite Source) (buffer : Bytes) (hBuffer : buffer ≠ []) :
    (bufs (write.pre buffer) buffer (write.post buffer)).flatten =
      if write.chunked then Framing.formatChunk buffer else buffer := by
  rw [flatten_bufs]
  cases hChunked : write.chunked with
  | true => simp [pre, post, hChunked, hBuffer, Framing.formatChunk, CRLF, Framing.crlf, ascii]
  | false => simp [pre, post, hChunked]

variable {Source : Type} [DataSource Source] {write : ExtendedWrite Source}

/-- A stream that is over is disposed of. -/
theorem next_over (hIdle : write.activeWrites = 0) (hErrored : write.errored = false)
    (hOver : write.completed = true) :
    write.next true = (write, [.close, .onWriteComplete 0]) := by
  simp [next, dispose, hIdle, hErrored, hOver]

theorem next_exception (hIdle : write.activeWrites = 0) (hErrored : write.errored = false)
    (hMore : write.completed = false)
    (hData : DataSource.getData write.pDataSource bytesDesired = none) :
    write.next true = ({ write with errored := true }, [.close, .onWriteComplete 1]) := by
  simp [next, hErrored, hMore, hData, hIdle]

/-- The end of a chunked body is written out. -/
theorem next_trailer (hIdle : write.activeWrites = 0) (hErrored : write.errored = false)
    (hMore : write.completed = false) (hChunked : write.chunked = true) {after : Source}
    (hData : DataSource.getData write.pDataSource bytesDesired = some ([], after)) :
    write.next true = ({ write with pDataSource := after, completed := true, activeWrites := 1 },
      [.uvWrite [TRAILER] true]) := by
  simp [next, hErrored, hMore, hData, pre, post, hChunked, hIdle, bufs, TRAILER, ascii]

theorem next_end (hIdle : write.activeWrites = 0) (hErrored : write.errored = false)
    (hMore : write.completed = false) (hPlain : write.chunked = false) {after : Source}
    (hData : DataSource.getData write.pDataSource bytesDesired = some ([], after)) :
    write.next true = ({ write with pDataSource := after, completed := true },
      [.freeData, .close, .onWriteComplete 0]) := by
  simp [next, hErrored, hMore, hData, pre, post, hPlain, hIdle, dispose]

theorem next_data (hIdle : write.activeWrites = 0) (hErrored : write.errored = false)
    (hMore : write.completed = false) {buffer : Bytes} {after : Source} (hBuffer : buffer ≠ [])
    (hData : DataSource.getData write.pDataSource bytesDesired = some (buffer, after)) :
    write.next true = ({ write with pDataSource := after, activeWrites := 1 },
      [.uvWrite (bufs (write.pre buffer) buffer (write.post buffer)) true]) := by
  simp [next, hErrored, hMore, hData, hBuffer, hIdle, pre, post]

end ExtendedWrite

namespace WriteState

variable {Source : Type} [DataSource Source]

/-- The state in which a call of `next` leaves the stream. -/
def called (result : ExtendedWrite Source × List WriteEffect) : WriteState Source where
  write := result.1
  begun := true
  outstanding := issued result.2

/-- A completion on an empty queue calls `next`, whose write is accepted. -/
theorem step_called {write : ExtendedWrite Source} (idle : ExtendedWrite Source)
    {bufs : List Bytes} (hActive : write.activeWrites = 1)
    (hIdle : idle = { write with activeWrites := 0 }) :
    step (called (write, [.uvWrite bufs true])) (.complete 0 true true) =
      some (called (idle.next true), .freeData :: (idle.next true).2) := by
  simp [step, called, issued, hActive, hIdle]

theorem exec_complete {write : ExtendedWrite Source} (idle : ExtendedWrite Source)
    {bufs : List Bytes} (hActive : write.activeWrites = 1)
    (hIdle : idle = { write with activeWrites := 0 }) {rest : List WriteAction}
    {finish : WriteState Source} {log : List WriteEffect} :
    System.exec step (called (write, [.uvWrite bufs true])) (.complete 0 true true :: rest) =
        some (finish, log) ↔
      ∃ later, System.exec step (called (idle.next true)) rest = some (finish, later) ∧
        log = .freeData :: (idle.next true).2 ++ later := by
  simp only [System.exec, step_called idle hActive hIdle, Option.bind_eq_bind, Option.bind_some,
    Option.bind_eq_some_iff, Option.pure_def, Option.some.injEq, Prod.mk.injEq, Prod.exists]
  constructor
  · rintro ⟨finish, later, hExec, rfl, rfl⟩
    exact ⟨later, hExec, rfl⟩
  · rintro ⟨later, hExec, rfl⟩
    exact ⟨finish, later, hExec, rfl, rfl⟩

/-- Without a write under way nothing completes. -/
theorem exec_idle {state finish : WriteState Source} (hNothing : state.outstanding = 0)
    {count : Nat} {log : List WriteEffect}
    (hExec : System.exec step state (List.replicate count (.complete 0 true true)) =
      some (finish, log)) : log = [] := by
  cases count with
  | zero =>
      have hSame : state = finish ∧ [] = log := by simpa [System.exec] using hExec
      exact hSame.2.symm
  | succ count => simp [List.replicate_succ, System.exec, step, hNothing] at hExec

/-- From a call of `next` on, with every write accepted and completed on an
empty queue, the rest of the body is written and the stream is disposed of. -/
theorem exec_next {write : ExtendedWrite Source} {buffers : List Bytes}
    (hIdle : write.activeWrites = 0) (hErrored : write.errored = false)
    (hMore : write.completed = false) (hDelivers : Delivers write.pDataSource buffers) :
    ∃ count finish log,
      System.exec step (called (write.next true)) (List.replicate count (.complete 0 true true)) =
        some (finish, log) ∧
      .onWriteComplete 0 ∈ (write.next true).2 ++ log ∧
      bytesWritten ((write.next true).2 ++ log) = encoded write.chunked buffers := by
  induction buffers generalizing write with
  | nil =>
      obtain ⟨after, hData⟩ := hDelivers
      cases hChunked : write.chunked with
      | true =>
          let ended : ExtendedWrite Source :=
            { write with pDataSource := after, completed := true, activeWrites := 0 }
          have hOver : ended.next true = (ended, [.close, .onWriteComplete 0]) :=
            ExtendedWrite.next_over rfl hErrored rfl
          have hLast : System.exec step (called (ended.next true)) [] = some (_, []) := rfl
          rw [ExtendedWrite.next_trailer hIdle hErrored hMore hChunked hData]
          refine ⟨1, _, _, (exec_complete ended rfl rfl).2 ⟨[], hLast, rfl⟩, ?_, ?_⟩
          · simp [hOver]
          · rw [hOver]
            rfl
      | false =>
          rw [ExtendedWrite.next_end hIdle hErrored hMore hChunked hData]
          exact ⟨0, _, [], rfl, by simp, rfl⟩
  | cons buffer buffers ih =>
      obtain ⟨hBuffer, after, hData, hRest⟩ := hDelivers
      let idle : ExtendedWrite Source := { write with pDataSource := after, activeWrites := 0 }
      obtain ⟨count, finish, log, hExec, hComplete, hBytes⟩ := @ih idle rfl hErrored hMore hRest
      rw [ExtendedWrite.next_data hIdle hErrored hMore hBuffer hData]
      refine ⟨count + 1, finish, _, (exec_complete idle rfl rfl).2 ⟨log, hExec, rfl⟩, ?_, ?_⟩
      · simpa using hComplete
      · rw [encoded_cons, ← ExtendedWrite.flatten_piece write buffer hBuffer, ← hBytes]
        simp [bytesWritten]

/-- A stream that reports success has written all that its source delivers. -/
theorem delivers_of_exec {write : ExtendedWrite Source} (hIdle : write.activeWrites = 0)
    (hErrored : write.errored = false) (hMore : write.completed = false) {count : Nat}
    {finish : WriteState Source} {log : List WriteEffect}
    (hExec : System.exec step (called (write.next true))
      (List.replicate count (.complete 0 true true)) = some (finish, log))
    (hComplete : .onWriteComplete 0 ∈ (write.next true).2 ++ log) :
    ∃ buffers, Delivers write.pDataSource buffers ∧
      bytesWritten ((write.next true).2 ++ log) = encoded write.chunked buffers := by
  induction count using Nat.strongRecOn generalizing write log with
  | ind count ih =>
      cases hData : DataSource.getData write.pDataSource bytesDesired with
      | none =>
          rw [ExtendedWrite.next_exception hIdle hErrored hMore hData] at hExec hComplete
          simp [exec_idle rfl hExec] at hComplete
      | some result =>
          obtain ⟨buffer, after⟩ := result
          by_cases hBuffer : buffer = []
          · subst hBuffer
            refine ⟨[], ⟨after, hData⟩, ?_⟩
            cases hChunked : write.chunked with
            | true =>
                let ended : ExtendedWrite Source :=
                  { write with pDataSource := after, completed := true, activeWrites := 0 }
                have hOver : ended.next true = (ended, [.close, .onWriteComplete 0]) :=
                  ExtendedWrite.next_over rfl hErrored rfl
                rw [ExtendedWrite.next_trailer hIdle hErrored hMore hChunked hData]
                  at hExec hComplete ⊢
                cases count with
                | zero =>
                    cases hExec
                    simp at hComplete
                | succ count =>
                    obtain ⟨later, hLater, rfl⟩ := (exec_complete ended rfl rfl).1 hExec
                    rw [hOver] at hLater ⊢
                    rw [exec_idle rfl hLater]
                    rfl
            | false =>
                rw [ExtendedWrite.next_end hIdle hErrored hMore hChunked hData]
                  at hExec hComplete ⊢
                have hNothing : issued [.freeData, .close, .onWriteComplete 0] = 0 := rfl
                rw [exec_idle hNothing hExec]
                rfl
          · let idle : ExtendedWrite Source := { write with pDataSource := after, activeWrites := 0 }
            rw [ExtendedWrite.next_data hIdle hErrored hMore hBuffer hData] at hExec hComplete ⊢
            cases count with
            | zero =>
                cases hExec
                simp at hComplete
            | succ count =>
                obtain ⟨later, hLater, rfl⟩ := (exec_complete idle rfl rfl).1 hExec
                obtain ⟨buffers, hDelivers, hBytes⟩ :=
                  @ih count (Nat.lt_succ_self count) idle rfl hErrored hMore later hLater
                    (by simpa using hComplete)
                refine ⟨buffer :: buffers, ⟨hBuffer, after, hData, hDelivers⟩, ?_⟩
                rw [encoded_cons, ← ExtendedWrite.flatten_piece write buffer hBuffer, ← hBytes]
                simp [bytesWritten]

end WriteState

namespace HttpResponse

variable {Source : Type} [DataSource Source]

/-- What is handed to libuv for a response all of whose writes succeed: its
header block, and the stream that follows it until that reports completion. -/
def Transmitted (response : HttpResponse Source) (wire : Bytes) : Prop :=
  match response.onResponseWritten 0 with
  | none => wire = response.responseHeader
  | some start => ∃ count finish log,
      System.exec WriteState.step start
        (.begin true :: List.replicate count (.complete 0 true true)) = some (finish, log) ∧
      .onWriteComplete 0 ∈ log ∧ wire = response.responseHeader ++ bytesWritten log

/-- The wire is what the stream of the body lays out. -/
theorem transmitted_iff {response : HttpResponse Source} {body : Source} {wire : Bytes}
    (hBody : response.pBody = some body) :
    response.Transmitted wire ↔ ∃ buffers, Delivers body buffers ∧
      wire = response.responseHeader ++ encoded response.chunked buffers := by
  let write := ExtendedWrite.construct body response.chunked
  have hStart : response.onResponseWritten 0 = some (WriteState.construct body response.chunked) :=
    by simp [onResponseWritten, hBody]
  have hBegin : WriteState.step (WriteState.construct body response.chunked) (.begin true) =
      some (WriteState.called (write.next true), (write.next true).2) := by
    simp [WriteState.step, WriteState.construct, WriteState.called, write]
  rw [Transmitted, hStart]
  simp only [System.exec, hBegin, Option.bind_eq_bind, Option.bind_some, Option.bind_eq_some_iff,
    Option.pure_def, Option.some.injEq, Prod.mk.injEq, Prod.exists]
  constructor
  · rintro ⟨count, finish, log, ⟨last, later, hExec, rfl, rfl⟩, hComplete, rfl⟩
    obtain ⟨buffers, hDelivers, hBytes⟩ :=
      @WriteState.delivers_of_exec _ _ write rfl rfl rfl count last later hExec hComplete
    exact ⟨buffers, hDelivers, by rw [hBytes]; rfl⟩
  · rintro ⟨buffers, hDelivers, rfl⟩
    obtain ⟨count, finish, log, hExec, hComplete, hBytes⟩ :=
      @WriteState.exec_next _ _ write buffers rfl rfl rfl hDelivers
    exact ⟨count, finish, _, ⟨finish, log, hExec, rfl, rfl⟩, hComplete, by rw [hBytes]; rfl⟩

/-- A header that needs no framing of its own: a token, a value on one line, and
neither of the two names that tell where a body ends. -/
def Plain (header : Bytes × Bytes) : Prop :=
  Framing.isToken header.1 = true ∧ (13 ∉ header.2 ∧ 10 ∉ header.2) ∧
    Framing.sameName header.1 Framing.transferEncoding = false ∧
    Framing.sameName header.1 Framing.contentLength = false

theorem caseFold_token {name : Bytes} (hName : Framing.isToken name = true) :
    caseFold name = name.map Framing.lower := by
  have hNoNul : ∀ byte ∈ name, decide (byte ≠ 0) = true := by
    intro byte hMem
    have hAll := (Bool.and_eq_true_iff.1 hName).2
    have hByte := List.all_eq_true.1 hAll byte hMem
    rw [decide_eq_true_iff]
    rintro rfl
    exact absurd hByte (by decide)
  rw [caseFold, List.takeWhile_eq_self_iff.2 hNoNul]
  rfl

/-- For a token `strcasecmp` compares field names as the framing does. -/
theorem strcaseEq_contentLength {name : Bytes} (hName : Framing.isToken name = true) :
    strcaseEq name (ascii "Content-Length") = Framing.sameName name Framing.contentLength := by
  have hLiteral : caseFold (ascii "Content-Length") = Framing.contentLength.map Framing.lower := by
    decide
  rw [strcaseEq, caseFold_token hName, hLiteral]
  rfl

/-- Without a length among them all headers are written as they are. -/
theorem foldl_scanHeader {headers : ResponseHeaders} (hHeaders : ∀ header ∈ headers, Plain header)
    (start : HeaderScan) :
    (headers.foldl scanHeader start).response =
        start.response ++ headers.flatMap Framing.formatField ∧
      (headers.foldl scanHeader start).contentLength = start.contentLength := by
  induction headers generalizing start with
  | nil => simp
  | cons header headers ih =>
      obtain ⟨hToken, -, -, hLength⟩ := hHeaders header (by simp)
      have hOther : strcaseEq header.1 (ascii "Content-Length") = false :=
        (strcaseEq_contentLength hToken).trans hLength
      have hSeparator : ascii ": " = [58, 32] := by decide
      have hEnd : CRLF = Framing.crlf := by decide
      have hRest := ih (fun other hMem => hHeaders other (List.mem_cons_of_mem _ hMem))
        (scanHeader start header)
      rw [List.foldl_cons, hRest.1, hRest.2, scanHeader, if_neg (by simp [hOther]), hSeparator,
        hEnd]
      simp [Framing.formatField]

/-- A status description fits on one line. -/
theorem noCR_getStatusDescription (code : Int) : 13 ∉ getStatusDescription code := by
  unfold getStatusDescription
  split <;> decide +kernel

variable {status : Int} {now : Tm}

/-- The fields that `addHeader` leaves alone. -/
theorem listToResponse_eq {Source : Type} {pDataSource : Option Source}
    (responseHeaders : ResponseHeaders) :
    listToResponse status responseHeaders pDataSource now =
      { construct status (getStatusDescription status) pDataSource now with
        headers := (ascii "Date", httpDateString now) :: responseHeaders } := by
  unfold listToResponse
  induction responseHeaders using List.reverseRecOn with
  | nil => rfl
  | append_singleton headers header ih =>
      rw [List.foldl_append, ih]
      rfl

theorem scan_plain {Source : Type} {response : HttpResponse Source} (hPlain : ∀ header ∈ response.headers, Plain header) :
    response.scan.response =
        response.statusLine ++ CRLF ++ response.headers.flatMap Framing.formatField ∧
      response.scan.contentLength = [] :=
  foldl_scanHeader hPlain _

/-- A response to a request, with the connection closed behind it or kept. -/
def prepared {Source : Type} (status : Int) (responseHeaders : ResponseHeaders) (pDataSource : Source) (now : Tm)
    (closing : Bool) : HttpResponse Source :=
  let response := listToResponse status responseHeaders (some pDataSource) now
  if closing then response.requestClose else response

section Prepared

variable {Source : Type} {status : Int} {responseHeaders : ResponseHeaders} {body : Source}

theorem plain_prepared (hHeaders : ∀ header ∈ responseHeaders, Plain header) (now : Tm)
    (closing : Bool) :
    ∀ header ∈ (prepared status responseHeaders body now closing).headers, Plain header := by
  have hDate : Plain (ascii "Date", httpDateString now) :=
    ⟨show Framing.isToken (ascii "Date") = true by decide,
      ⟨control_httpDateString (by decide) now, control_httpDateString (by decide) now⟩,
      show Framing.sameName (ascii "Date") _ = false by decide,
      show Framing.sameName (ascii "Date") _ = false by decide⟩
  have hClose : Plain (ascii "Connection", ascii "close") :=
    ⟨by decide, by decide, by decide, by decide⟩
  have hAll : ∀ header ∈ (ascii "Date", httpDateString now) :: responseHeaders, Plain header := by
    simpa [hDate] using hHeaders
  unfold prepared
  rw [listToResponse_eq]
  cases closing with
  | false => exact hAll
  | true =>
      intro header hMem
      have hCases : header ∈ (ascii "Date", httpDateString now) :: responseHeaders ∨
          header = (ascii "Connection", ascii "close") := by
        rcases List.mem_append.1 hMem with hKept | hNew
        · exact Or.inl (List.mem_filter.1 hKept).1
        · exact Or.inr (List.mem_singleton.1 hNew)
      rcases hCases with hKept | rfl
      · exact hAll header hKept
      · exact hClose

/-- The fields of a response that do not depend on its headers. -/
theorem prepared_spec (now : Tm) (closing : Bool) :
    let response := prepared status responseHeaders body now closing
    response.statusCode = status ∧ response.status = getStatusDescription status ∧
      response.pBody = some body ∧ response.chunked = false := by
  unfold prepared
  rw [listToResponse_eq]
  cases closing <;> exact ⟨rfl, rfl, rfl, rfl⟩

end Prepared

section Head

variable {Source : Type} {response : HttpResponse Source}

def gzipField : Bytes × Bytes := (ascii "Content-Encoding", ascii "gzip")

def chunkedField : Bytes × Bytes := (ascii "Transfer-Encoding", ascii "chunked")

def lengthField (length : Nat) : Bytes × Bytes :=
  (ascii "Content-Length", Framing.Numeral.format 10 length)

/-- What is read back of a compressed response. -/
theorem readMessage_gzip (hPlain : ∀ header ∈ response.headers, Plain header)
    (hLine : 13 ∉ response.statusLine) (outputs : List Bytes)
    (hOutputs : ∀ buffer ∈ outputs, buffer ≠ []) :
    Framing.readMessage
        (Framing.formatHead response.statusLine (response.headers ++ [gzipField, chunkedField]) ++
          encoded true outputs) =
      some ({ startLine := response.statusLine,
              fields := Framing.readBack response.headers ++ [gzipField, chunkedField],
              body := outputs.flatten }, []) ∧
      Framing.fieldValue (Framing.readBack response.headers ++ [gzipField, chunkedField])
        Framing.contentLength = none := by
  have hFields : ∀ field ∈ response.headers ++ [gzipField, chunkedField],
      Framing.isToken field.1 = true ∧ 13 ∉ field.2 := by
    intro field hMem
    rcases List.mem_append.1 hMem with hMem | hMem
    · exact ⟨(hPlain field hMem).1, (hPlain field hMem).2.1.1⟩
    · have hAdded : ∀ field ∈ [gzipField, chunkedField],
          Framing.isToken field.1 = true ∧ 13 ∉ field.2 := by decide
      exact hAdded field hMem
  have hCoding : Framing.fieldValue
      (Framing.readBack (response.headers ++ [gzipField, chunkedField]))
      Framing.transferEncoding = some (ascii "chunked") := by
    rw [Framing.fieldValue_append fun field hMem => (hPlain field hMem).2.2.1]
    decide
  have hAdded : Framing.readBack [gzipField, chunkedField] = [gzipField, chunkedField] := by
    decide
  have hLength : Framing.fieldValue
      (Framing.readBack (response.headers ++ [gzipField, chunkedField]))
      Framing.contentLength = none := by
    rw [Framing.fieldValue_append fun field hMem => (hPlain field hMem).2.2.2]
    decide
  have hMessage :=
    Framing.readMessage_chunked hLine hFields hCoding (by decide) outputs hOutputs
  rw [Framing.readBack_append, hAdded] at hLength hMessage
  exact ⟨hMessage, hLength⟩

theorem readMessage_plain (hPlain : ∀ header ∈ response.headers, Plain header)
    (hLine : 13 ∉ response.statusLine) (body : Bytes) :
    Framing.readMessage
        (Framing.formatHead response.statusLine (response.headers ++ [lengthField body.length]) ++
          body) =
      some ({ startLine := response.statusLine,
              fields := Framing.readBack response.headers ++ [lengthField body.length],
              body }, []) ∧
      Framing.fieldValue (Framing.readBack response.headers ++ [lengthField body.length])
        Framing.transferEncoding = none := by
  have hToken : Framing.isToken (ascii "Content-Length") = true := by decide
  have hFields : ∀ field ∈ response.headers ++ [lengthField body.length],
      Framing.isToken field.1 = true ∧ 13 ∉ field.2 := by
    intro field hMem
    rcases List.mem_append.1 hMem with hMem | hMem
    · exact ⟨(hPlain field hMem).1, (hPlain field hMem).2.1.1⟩
    · rw [List.mem_singleton.1 hMem]
      exact ⟨hToken, Framing.noCR_format 10 _ (by decide) (by decide)⟩
  have hAdded : Framing.readBack [lengthField body.length] = [lengthField body.length] := by
    simp [Framing.readBack, lengthField, Framing.trim_format 10]
  have hCoding : Framing.fieldValue
      (Framing.readBack (response.headers ++ [lengthField body.length]))
      Framing.transferEncoding = none := by
    rw [Framing.fieldValue_append fun field hMem => (hPlain field hMem).2.2.1, hAdded]
    have hName : Framing.sameName (ascii "Content-Length") Framing.transferEncoding = false := by
      decide
    simp [Framing.fieldValue, lengthField, hName]
  have hLength : Framing.fieldValue
      (Framing.readBack (response.headers ++ [lengthField body.length]))
      Framing.contentLength = some (Framing.Numeral.format 10 body.length) := by
    rw [Framing.fieldValue_append fun field hMem => (hPlain field hMem).2.2.2, hAdded]
    have hName : Framing.sameName (ascii "Content-Length") Framing.contentLength = true := by
      decide
    simp [Framing.fieldValue, lengthField, hName]
  have hMessage := Framing.readMessage_length hLine hFields hCoding hLength body
    (Framing.Numeral.parse_format (by decide) (by decide) _)
  rw [Framing.readBack_append, hAdded] at hMessage hCoding
  exact ⟨hMessage, hCoding⟩

theorem noCR_statusLine (hText : response.status = getStatusDescription response.statusCode) :
    13 ∉ response.statusLine := by
  have hVersion : (13 : UInt8) ∉ ascii "HTTP/1.1 " := by decide
  have hBlank : (13 : UInt8) ∉ ascii " " := by decide
  have hCode := control_formatInt (show (13 : UInt8) < 32 ∨ (13 : UInt8) = 127 by decide) response.statusCode
  have hStatus := noCR_getStatusDescription response.statusCode
  simp [statusLine, hText, hVersion, hBlank, hCode, hStatus]

end Head

section Written

variable {Source : Type} [DataSource Source] [Zlib] {response : HttpResponse Source} {body : Source}
  {requestHeaders : RequestHeaders}

/-- A compressed body goes out in chunks. -/
theorem writeResponse_gzip (hPlain : ∀ header ∈ response.headers, Plain header)
    (hStatus : response.statusCode ≠ 101) (hBody : response.pBody = some body)
    (hGzip : response.gzip requestHeaders = true) {gz : GZipDataSource Source}
    (hWrapped : GZipDataSource.construct body = some gz) :
    response.writeResponse requestHeaders = some { response with
      pBody := some (.inr gz)
      chunked := true
      responseHeader := Framing.formatHead response.statusLine
        (response.headers ++ [gzipField, chunkedField]) } := by
  obtain ⟨hScan, hLength⟩ := scan_plain hPlain
  have hEncode : response.encodeBody true =
      some { response with pBody := some (.inr gz), chunked := true } := by
    simp [encodeBody, hBody, hWrapped]
  have hEncoding : ascii "Content-Encoding: gzip" ++ Framing.crlf = Framing.formatField gzipField := by
    decide
  have hCoding : ascii "Transfer-Encoding: chunked" ++ Framing.crlf =
      Framing.formatField chunkedField := by
    decide
  have hEnd : CRLF = Framing.crlf := by decide
  simp only [writeResponse, hGzip, hEncode, Option.bind_eq_bind, Option.bind_some, framingLine,
    hStatus, hScan, if_false, false_and, if_true, hEncoding, hCoding, hEnd]
  simp [Framing.formatHead]

/-- Any other body goes out with its length. -/
theorem writeResponse_length (hPlain : ∀ header ∈ response.headers, Plain header)
    (hStatus : response.statusCode ≠ 101) (hBody : response.pBody = some body)
    (hChunked : response.chunked = false) (hGzip : response.gzip requestHeaders = false) :
    response.writeResponse requestHeaders = some { response with
      pBody := some (.inl body)
      responseHeader := Framing.formatHead response.statusLine
        (response.headers ++ [lengthField (DataSource.size body)]) } := by
  obtain ⟨hScan, hLength⟩ := scan_plain hPlain
  have hEncode : response.encodeBody false = some { response with pBody := some (.inl body) } := by
    simp [encodeBody, hBody]
  have hField : ascii "Content-Length: " ++ Framing.Numeral.format 10 (DataSource.size body) ++
      Framing.crlf = Framing.formatField (lengthField (DataSource.size body)) := by
    have hName : ascii "Content-Length: " = ascii "Content-Length" ++ [58, 32] := by decide
    rw [hName]
    rfl
  have hEnd : CRLF = Framing.crlf := by decide
  have hSize : DataSource.size (Sum.inl body : Source ⊕ GZipDataSource Source) =
      DataSource.size body := rfl
  simp only [writeResponse, hGzip, hEncode, Option.bind_eq_bind, Option.bind_some, framingLine,
    hStatus, hScan, hLength, hChunked, if_false, false_and, hSize, hField, hEnd]
  simp [Framing.formatHead]

variable {status : Int} {responseHeaders : ResponseHeaders} {buffers : List Bytes}

/-- Whatever goes out for a response is one message that carries the body, or,
exactly when the header of the compressor was added, its compressed form. -/
theorem readMessage_transmitted (contract : ZlibContract) (hDelivers : Delivers body buffers)
    (hSize : DataSource.size body = buffers.flatten.length)
    (hStatus : ¬ (100 ≤ status ∧ status < 200) ∧ status ≠ 204 ∧ status ≠ 304)
    (hHeaders : ∀ header ∈ responseHeaders, Plain header) (now : Tm) (closing : Bool)
    (requestHeaders : RequestHeaders) :
    let response := prepared status responseHeaders body now closing
    ((∀ buffer ∈ buffers, buffer.length < 2 ^ 32) → ∃ written wire,
      response.writeResponse requestHeaders = some written ∧ written.Transmitted wire) ∧
    ∀ written wire, response.writeResponse requestHeaders = some written →
      written.Transmitted wire → ∃ message added,
        Framing.readMessage wire = some (message, []) ∧
        message.fields = Framing.readBack response.headers ++ added ∧
        (gzipField ∈ added → ∃ gz outputs, GZipDataSource.construct body = some gz ∧
          Delivers gz outputs ∧ message.body = outputs.flatten) ∧
        (gzipField ∉ added → message.body = buffers.flatten) ∧
        ¬ ((Framing.fieldValue message.fields Framing.transferEncoding).isSome ∧
          (Framing.fieldValue message.fields Framing.contentLength).isSome) := by
  intro response
  obtain ⟨hCode, hText, hBody, hChunked⟩ : response.statusCode = status ∧
      response.status = getStatusDescription status ∧ response.pBody = some body ∧
      response.chunked = false := prepared_spec now closing
  have hPlain : ∀ header ∈ response.headers, Plain header := plain_prepared hHeaders now closing
  have hSwitching : response.statusCode ≠ 101 := by omega
  have hLine : 13 ∉ response.statusLine := noCR_statusLine (by rw [hText, hCode])
  cases hGzip : response.gzip requestHeaders with
  | true =>
      constructor
      · intro hFits
        obtain ⟨gz, outputs, hWrapped, hOutputs⟩ :=
          GZipDataSource.delivers_construct contract hDelivers hFits
        have hWritten := writeResponse_gzip hPlain hSwitching hBody hGzip hWrapped
        exact ⟨_, _, hWritten,
          (transmitted_iff rfl).2 ⟨outputs, (delivers_wrap fun _ => rfl).2 hOutputs, rfl⟩⟩
      · intro written wire hWritten hWire
        cases hWrapped : GZipDataSource.construct body with
        | none => simp [writeResponse, hGzip, encodeBody, hBody, hWrapped] at hWritten
        | some gz =>
            rw [writeResponse_gzip hPlain hSwitching hBody hGzip hWrapped,
              Option.some.injEq] at hWritten
            subst hWritten
            obtain ⟨outputs, hSum, rfl⟩ := (transmitted_iff rfl).1 hWire
            have hOutputs : Delivers gz outputs := (delivers_wrap fun _ => rfl).1 hSum
            obtain ⟨hMessage, hLength⟩ :=
              readMessage_gzip hPlain hLine outputs hOutputs.ne_nil
            exact ⟨_, [gzipField, chunkedField], hMessage, rfl,
              fun _ => ⟨gz, outputs, rfl, hOutputs, rfl⟩, by simp, by simp [hLength]⟩
  | false =>
      have hWritten := writeResponse_length hPlain hSwitching hBody hChunked hGzip
      have hSum : Delivers (Sum.inl body : Source ⊕ GZipDataSource Source) buffers :=
        (delivers_wrap fun _ => rfl).2 hDelivers
      constructor
      · intro _
        exact ⟨_, _, hWritten, (transmitted_iff rfl).2 ⟨buffers, hSum, rfl⟩⟩
      · intro written wire hSome hWire
        rw [hWritten, Option.some.injEq] at hSome
        subst hSome
        obtain ⟨outputs, hOutputs, rfl⟩ := (transmitted_iff rfl).1 hWire
        rw [hOutputs.unique hSum, hChunked, hSize]
        obtain ⟨hMessage, hCoding⟩ := readMessage_plain hPlain hLine buffers.flatten
        have hOther : gzipField ≠ lengthField buffers.flatten.length := by
          intro hSame
          have hNames : ascii "Content-Encoding" = ascii "Content-Length" :=
            congrArg Prod.fst hSame
          exact absurd hNames (by decide)
        exact ⟨_, [lengthField buffers.flatten.length], hMessage, rfl,
          fun hMem => absurd (List.mem_singleton.1 hMem) hOther, fun _ => rfl,
          fun hBoth => by simpa using (congrArg Option.isSome hCoding).symm.trans hBoth.1⟩

end Written

/-- A compressor for an example. `queued` is set once everything that is left to
write is pending. -/
structure SampleStream where
  started : Bool
  queued : Bool
  input : Bytes
  pending : Bytes
  written : Nat

namespace SampleStream

/-- The gzip header that zlib writes. -/
def header : Bytes := [0x1f, 0x8b, 8, 0, 0, 0, 0, 0, 0, 3]

/-- What zlib makes of the two bytes `hi`, with the checksum and the length. -/
def tail (input : Bytes) : Bytes :=
  if input = [0x68, 0x69] then [0xcb, 0xc8, 4, 0, 0xac, 0x2a, 0x93, 0xd8, 2, 0, 0, 0] else input

def deflate (stream : SampleStream) (finish : Bool) (input : Bytes) (availOut : Nat) :
    DeflateResult SampleStream :=
  let seen := stream.input ++ input
  let pending := stream.pending ++ (if stream.started then [] else header) ++
    (if finish && !stream.queued then tail seen else [])
  { stream := {
      started := true
      queued := stream.queued || finish
      input := seen
      pending := pending.drop availOut
      written := stream.written + (pending.take availOut).length }
    consumed := input.length
    output := pending.take availOut
    code := if finish && decide (pending.length ≤ availOut) then .streamEnd else .ok }

@[reducible] def zlib : Zlib where
  Stream := SampleStream
  deflateInit2 := some { started := false, queued := false, input := [], pending := [], written := 0 }
  deflate := deflate

/-- The bytes put out and pending that do not come from the input. -/
def total (stream : SampleStream) : Nat :=
  stream.written + stream.pending.length + (if stream.started then 0 else 10)

theorem length_tail (input : Bytes) : (tail input).length ≤ input.length + 10 := by
  unfold tail
  split_ifs with hInput
  · rw [hInput]
    decide
  · omega

theorem total_deflate (stream : SampleStream) (finish : Bool) (input : Bytes) (availOut : Nat) :
    total (stream.deflate finish input availOut).stream = total stream +
      (if finish && !stream.queued then tail (stream.input ++ input) else []).length := by
  have hHeader : header.length = 10 := rfl
  simp only [total, deflate, List.length_drop, List.length_take, List.length_append]
  split_ifs <;> simp only [List.length_nil, hHeader] <;> omega

theorem total_finish {stream : SampleStream}
    (h : stream.queued = false ∧ total stream ≤ 10 ∨
      stream.queued = true ∧ total stream ≤ stream.input.length + 20) (availOut : Nat) :
    total (stream.deflate true [] availOut).stream ≤ stream.input.length + 20 := by
  have hTail := length_tail stream.input
  rw [total_deflate, List.append_nil]
  rcases h with ⟨hQueued, hTotal⟩ | ⟨hQueued, hTotal⟩
  · simp only [hQueued, Bool.not_false, Bool.and_true, if_true]
    omega
  · simp only [hQueued, Bool.not_true, Bool.and_false]
    simpa using hTotal

/-- The stream ends, or there is more pending than the buffer holds. -/
theorem finish_cases (stream : SampleStream) (availOut : Nat) :
    (stream.deflate true [] availOut).code = .streamEnd ∨
      (stream.deflate true [] availOut).code = .ok ∧
        (stream.deflate true [] availOut).output.length = availOut := by
  simp only [deflate, Bool.true_and]
  generalize stream.pending ++ _ ++ _ = pending
  by_cases hFits : pending.length ≤ availOut
  · exact Or.inl (if_pos (decide_eq_true hFits))
  · right
    rw [if_neg (by simpa using hFits), List.length_take]
    exact ⟨rfl, min_eq_left (by omega)⟩

@[reducible] def contract : @ZlibContract zlib :=
  let _ : Zlib := zlib
  { streaming := fun stream : SampleStream => stream.queued = false ∧ total stream ≤ 10
    finishing := fun stream : SampleStream =>
      stream.queued = true ∧ total stream ≤ stream.input.length + 20
    totalIn := fun stream : SampleStream => stream.input.length
    totalOut := fun stream : SampleStream => stream.written
    deflateBound := fun n => n + 20
    deflateInit2 := ⟨_, rfl, rfl, le_rfl⟩
    consumed_le := fun _ _ _ _ => le_rfl
    output_le := fun _ _ _ availOut => List.length_take_le availOut _
    totalIn_eq := fun _ _ _ _ => List.length_append
    totalOut_eq := fun _ _ _ _ => rfl
    totalOut_le := by
      intro (stream : SampleStream) hStream
      have hTotal : stream.written ≤ total stream := by
        unfold total
        omega
      rcases hStream with ⟨-, hLess⟩ | ⟨-, hLess⟩
      · exact le_trans hTotal (le_trans hLess (by omega))
      · exact le_trans hTotal hLess
    progress := by
      intro (stream : SampleStream) input availOut ⟨hQueued, hTotal⟩ hInput _
      refine ⟨rfl, ⟨?_, ?_⟩, Or.inl (List.length_pos_iff.2 hInput)⟩
      · change (stream.queued || false) = false
        rw [hQueued]
        rfl
      · change total (stream.deflate false input availOut).stream ≤ 10
        rw [total_deflate]
        simpa using hTotal
    finish := by
      intro (stream : SampleStream) availOut hStream _
      rcases finish_cases stream availOut with hCode | ⟨hCode, hFull⟩
      · exact Or.inl hCode
      · refine Or.inr ⟨hCode, ⟨?_, ?_⟩, hFull⟩
        · change (stream.queued || true) = true
          rw [Bool.or_true]
        · change total (stream.deflate true [] availOut).stream ≤ (stream.input ++ []).length + 20
          rw [List.append_nil]
          exact total_finish hStream availOut }

/-- The header comes with the first call, the rest with the end of the input. -/
theorem delivers_two_bytes :
    let _ : Zlib := zlib
    ∀ gz : GZipDataSource InMemoryDataSource,
      GZipDataSource.construct { buffer := [0x68, 0x69], pos := 0 } = some gz →
        Delivers gz [header ++ tail [0x68, 0x69]] := by
  rintro _ gz ⟨⟩
  let before : InMemoryDataSource := { buffer := [0x68, 0x69], pos := 0 }
  let after : InMemoryDataSource := { buffer := [0x68, 0x69], pos := 2 }
  let fresh : SampleStream :=
    { started := false, queued := false, input := [], pending := [], written := 0 }
  let started : SampleStream :=
    { started := true, queued := false, input := [0x68, 0x69], pending := [], written := 10 }
  let ended : SampleStream :=
    { started := true, queued := true, input := [0x68, 0x69], pending := [], written := 22 }
  let done : GZipDataSource InMemoryDataSource :=
    { pData := after, zstrm := ended, nextIn := [], state := .done }
  have hFinish : ({ pData := after, zstrm := started, nextIn := [], state := .finishing } :
      GZipDataSource InMemoryDataSource).deflateNext 65526 = some (done, tail [0x68, 0x69]) := rfl
  have hTail : GZipDataSource.fill bytesDesired
      { pData := after, zstrm := started, nextIn := [], state := .streaming } header 65526 =
        some (header ++ tail [0x68, 0x69], done) :=
    (GZipDataSource.fill_turn ⟨by decide, by decide⟩ rfl hFinish header).trans
      (GZipDataSource.fill_stop (by decide) _)
  have hStart : ({ pData := after, zstrm := fresh, nextIn := [0x68, 0x69], state := .streaming } :
      GZipDataSource InMemoryDataSource).deflateNext 65536 =
        some ({ pData := after, zstrm := started, nextIn := [], state := .streaming }, header) :=
    rfl
  have hAll : GZipDataSource.fill bytesDesired
      { pData := before, zstrm := fresh, nextIn := [], state := .streaming } [] 65536 =
        some (header ++ tail [0x68, 0x69], done) :=
    (GZipDataSource.fill_turn ⟨by decide, by decide⟩ rfl hStart []).trans hTail
  exact ⟨by decide, done, hAll, done, rfl⟩

end SampleStream

/-- Two bytes for a client that accepts gzip. -/
theorem readMessage_transmitted_two_bytes :
    let _ : Zlib := SampleStream.zlib
    let body : InMemoryDataSource := { buffer := [0x68, 0x69], pos := 0 }
    let now : Tm :=
      { tm_sec := 0, tm_min := 0, tm_hour := 0, tm_mday := 1, tm_mon := 0, tm_year := 70, tm_wday := 4 }
    let response := prepared 200 [(ascii "Content-Type", ascii "text/plain")] body now true
    ∃ written wire message,
      response.writeResponse [(ascii "Accept-Encoding", ascii "gzip, deflate")] = some written ∧
      written.Transmitted wire ∧ Framing.readMessage wire = some (message, []) ∧
      (message.body = [0x68, 0x69] ∨
        message.body = SampleStream.header ++ SampleStream.tail [0x68, 0x69]) := by
  intro zlib body now response
  have hDelivers : Delivers body [[0x68, 0x69]] := ⟨by decide, _, rfl, _, rfl⟩
  have hHeaders : ∀ header ∈ [(ascii "Content-Type", ascii "text/plain")], Plain header := by
    intro header hMem
    rw [List.mem_singleton.1 hMem]
    exact ⟨by decide, by decide, by decide, by decide⟩
  have hStatus : ¬ ((100 : Int) ≤ 200 ∧ (200 : Int) < 200) ∧ (200 : Int) ≠ 204 ∧ (200 : Int) ≠ 304 :=
    by decide
  obtain ⟨hWritten, hFramed⟩ := readMessage_transmitted SampleStream.contract hDelivers rfl hStatus hHeaders now true
    [(ascii "Accept-Encoding", ascii "gzip, deflate")]
  obtain ⟨written, wire, hSome, hWire⟩ := hWritten (by decide)
  obtain ⟨message, added, hMessage, -, hGzip, hPlain, -⟩ := hFramed written wire hSome hWire
  refine ⟨written, wire, message, hSome, hWire, hMessage, ?_⟩
  by_cases hAdded : gzipField ∈ added
  · right
    obtain ⟨gz, outputs, hWrapped, hOutputs, hBody⟩ := hGzip hAdded
    rw [hBody, hOutputs.unique (SampleStream.delivers_two_bytes gz hWrapped)]
    rfl
  · exact Or.inl (hPlain hAdded)

end HttpResponse

end Httpuv
