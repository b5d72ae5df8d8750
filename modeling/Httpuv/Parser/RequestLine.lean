import Httpuv.Parser.Refinement
import Mathlib.Data.FinEnum

/-! The request line of a `GET` for a path, byte by byte. The scanner gets over every one
that is written the usual way, whatever the path is. -/
namespace Httpuv.RequestParser

/-- The members of the parser that say how a head ends. In its states they change with the
values of header fields only. -/
structure InHead (parser : RequestParser) (state : State) (flags : Flags) : Prop where
  state : parser.state = state
  flags : parser.flags = flags
  contentLength : parser.contentLength = ULLONG_MAX
  errno : parser.httpErrno = .ok

section Bytes

variable {parser : RequestParser} {state : State} {flags : Flags}

theorem InHead.counted (hIn : InHead parser state flags) : InHead parser.counted state flags := by
  obtain ⟨nread, hCounted⟩ := counted_eq parser
  rw [hCounted]
  exact ⟨hIn.state, hIn.flags, hIn.contentLength, hIn.errno⟩

namespace Scanner

variable {scanner : Scanner} {ch : UInt8}

theorem effect_switch {effect : Effect}
    (hSwitch : scanner.parser.counted.byteSwitch ch = some effect) : scanner.effect ch = effect := by
  rw [Scanner.effect, scanByte, hSwitch]

/-- A byte whose case ends with `break`. The byte belongs to the piece of data that the
macros of the case leave under way. -/
theorem scan_go {calls : List Call} (hEffect : scanner.effect ch = parser.go calls) :
    scanner.scan [ch] = some (⟨parser, ((scanner.pending.reportAll calls).1).advance [ch]⟩,
      (scanner.pending.reportAll calls).2) := by
  rw [scan_of_next (by rw [hEffect]; rfl), follow, hEffect]
  rfl

end Scanner

end Bytes

/-- The bytes lead from one state of a head to another one, without a report and without
a flag. The states alone decide that, so that it holds of every scanner. -/
def Passes (start : State) (bytes : Bytes) (finish : State) : Prop :=
  ∀ scanner : Scanner, ∀ flags, InHead scanner.parser start flags → ∃ parser,
    InHead parser finish flags ∧
      scanner.scan bytes = some (⟨parser, scanner.pending.advance bytes⟩, [])

namespace Passes

variable {state middle finish : State} {ch : UInt8} {bytes : Bytes}

theorem nil (state : State) : Passes state [] state := by
  intro scanner flags hIn
  refine ⟨scanner.parser, hIn, ?_⟩
  rw [Pending.advance_nil]
  rfl

theorem cons (hByte : ∀ parser flags, InHead parser state flags →
      ∃ parser', parser.byteSwitch ch = some (parser'.go []) ∧ InHead parser' middle flags)
    (hRest : Passes middle bytes finish) : Passes state (ch :: bytes) finish := by
  intro scanner flags hIn
  obtain ⟨parser, hSwitch, hMiddle⟩ := hByte _ flags hIn.counted
  have hFirst := Scanner.scan_go (Scanner.effect_switch hSwitch)
  obtain ⟨parser', hFinish, hScan⟩ := hRest ⟨parser, scanner.pending.advance [ch]⟩ flags hMiddle
  refine ⟨parser', hFinish, ?_⟩
  rw [Pending.advance_append] at hScan
  exact Context.scan_append hFirst hScan

/-- A case that moves on to another state, and may note a digit of the version. -/
theorem move (middle : State) (hByte : ∀ parser : RequestParser,
      ∃ httpMajor httpMinor, ({ parser with state } : RequestParser).byteSwitch ch =
        some ({ parser with state := middle, httpMajor, httpMinor }.go []))
    (hRest : Passes middle bytes finish) : Passes state (ch :: bytes) finish := by
  refine cons (fun parser flags hIn => ?_) hRest
  obtain ⟨httpMajor, httpMinor, hSwitch⟩ := hByte parser
  rw [← hIn.state] at hSwitch
  exact ⟨_, hSwitch, rfl, hIn.flags, hIn.contentLength, hIn.errno⟩

end Passes

theorem version_passes : Passes .reqHttpStart (ascii "HTTP/1.1\r\n") .headerFieldStart := by
  have hBytes : ascii "HTTP/1.1\r\n" = [chr 'H', chr 'T', chr 'T', chr 'P', chr '/', chr '1', chr '.',
    chr '1', CR, LF] := by decide
  rw [hBytes]
  refine .move .reqHttpH (fun _ => ⟨_, _, rfl⟩) ?_
  refine .move .reqHttpHT (fun _ => ⟨_, _, rfl⟩) ?_
  refine .move .reqHttpHTT (fun _ => ⟨_, _, rfl⟩) ?_
  refine .move .reqHttpHTTP (fun _ => ⟨_, _, rfl⟩) ?_
  refine .move .reqFirstHttpMajor (fun _ => ⟨_, _, rfl⟩) ?_
  refine .move .reqHttpMajor (fun _ => ⟨_, _, rfl⟩) ?_
  refine .move .reqFirstHttpMinor (fun _ => ⟨_, _, rfl⟩) ?_
  refine .move .reqHttpMinor (fun _ => ⟨_, _, rfl⟩) ?_
  refine .move .reqLineAlmostDone (fun _ => ⟨_, _, rfl⟩) ?_
  exact .move .headerFieldStart (fun _ => ⟨_, _, rfl⟩) (.nil _)

/-- The characters of a path. In strict mode none above ASCII is among them. -/
def isVisible (ch : UInt8) : Bool := 33 ≤ ch && ch ≤ 126

/-- The states behind the first slash of a target. A question mark or a number sign leads
from one of them to another, and no visible character out of them. -/
def State.ofPath : State → Bool
  | .reqPath | .reqQueryStringStart | .reqQueryString | .reqFragmentStart | .reqFragment => true
  | _ => false

section Path

variable {parser : RequestParser} {state : State} {ch : UInt8} {path : Bytes}

theorem parseUrlChar_ofPath (hPath : state.ofPath = true) (hChar : isVisible ch = true) :
    (parseUrlChar state ch).ofPath = true := by
  have hAll : ∀ state ∈ [State.reqPath, .reqQueryStringStart, .reqQueryString, .reqFragmentStart,
      .reqFragment], ∀ ch : UInt8, isVisible ch = true → (parseUrlChar state ch).ofPath = true := by
    decide +kernel
  cases state <;> cases hPath <;> exact hAll _ (by decide) ch hChar

theorem byteSwitch_ofPath (hPath : state.ofPath = true) (hState : parser.state = state)
    (ch : UInt8) : parser.byteSwitch ch = some (parser.reqServer ch) := by
  rw [byteSwitch, hState]
  cases state <;> cases hPath <;> rfl

/-- A path leads to one of the states it may end in. Which one it is depends on the last
question mark or number sign. -/
theorem path_passes (hPath : state.ofPath = true) (hChars : ∀ ch ∈ path, isVisible ch = true) :
    ∃ finish, finish.ofPath = true ∧ Passes state path finish := by
  have hEnd : ∀ ch : UInt8, isVisible ch = true → ¬ch = chr ' ' ∧ ¬(ch = CR ∨ ch = LF) := by
    decide +kernel
  induction path generalizing state with
  | nil => exact ⟨state, hPath, .nil state⟩
  | cons ch path ih =>
      have hChar := hChars ch List.mem_cons_self
      have hNext := parseUrlChar_ofPath hPath hChar
      have hAlive : ¬parseUrlChar state ch = .dead := by
        intro hDead
        rw [hDead] at hNext
        cases hNext
      obtain ⟨hSpace, hLine⟩ := hEnd ch hChar
      obtain ⟨finish, hFinish, hRest⟩ :=
        ih hNext fun other hMem => hChars other (List.mem_cons_of_mem _ hMem)
      refine ⟨finish, hFinish, .cons (fun parser flags hIn => ?_) hRest⟩
      refine ⟨{ parser with state := parseUrlChar state ch }, ?_, rfl, hIn.flags, hIn.contentLength,
        hIn.errno⟩
      rw [byteSwitch_ofPath hPath hIn.state, reqServer, if_neg hSpace, if_neg hLine, urlChar,
        hIn.state, if_neg hAlive]

variable {scanner : Scanner}

/-- The method and the slash that a path begins with. The first letter makes the parser
forget the message before this one. -/
theorem scan_method (hState : scanner.parser.state = .startReq)
    (hErrno : scanner.parser.httpErrno = .ok) (hPending : scanner.pending = none) :
    ∃ parser, InHead parser .reqPath .none ∧ scanner.scan (ascii "GET /") =
      some (⟨parser, some (.url, ascii "/")⟩, [.onMessageBegin]) := by
  obtain ⟨⟨flags, state, headerState, index, nread, contentLength, major, minor, method, errno,
    upgrade, status, running⟩, pending⟩ := scanner
  cases hState
  cases hPending
  cases hErrno
  let after (state : State) (index count : Nat) : RequestParser :=
    ⟨.none, state, headerState, index, nread + count, ULLONG_MAX, major, minor, .get, .ok, upgrade, -1,
      running⟩
  have hG := @Scanner.scan_go (after .reqMethod 1 1) ⟨⟨flags, .startReq, headerState, index, nread,
    contentLength, major, minor, method, .ok, upgrade, status, running⟩, none⟩ (chr 'G')
    [.notify .onMessageBegin] rfl
  have hE := @Scanner.scan_go (after .reqMethod 2 2) ⟨after .reqMethod 1 1, none⟩ (chr 'E') [] rfl
  have hT := @Scanner.scan_go (after .reqMethod 3 3) ⟨after .reqMethod 2 2, none⟩ (chr 'T') [] rfl
  have hSpace := @Scanner.scan_go (after .reqSpacesBeforeUrl 4 4) ⟨after .reqMethod 3 3, none⟩
    (chr ' ') [] rfl
  have hSlash := @Scanner.scan_go (after .reqPath 4 5) ⟨after .reqSpacesBeforeUrl 4 4, none⟩
    (chr '/') [.mark .url] rfl
  have hGet := Context.scan_append hG (Context.scan_append hE hT)
  exact ⟨_, ⟨rfl, rfl, rfl, rfl⟩, Context.scan_append hGet (Context.scan_append hSpace hSlash)⟩

/-- **The request line** of a path. It is reported with its target in one piece, and leaves
no flag of an earlier message behind. -/
theorem scan_requestLine (hState : scanner.parser.state = .startReq)
    (hErrno : scanner.parser.httpErrno = .ok) (hPending : scanner.pending = none)
    (hPath : ∀ ch ∈ path, isVisible ch = true) : ∃ parser, InHead parser .headerFieldStart .none ∧
      scanner.scan (ascii "GET /" ++ (path ++ ascii " HTTP/1.1\r\n")) =
        some (⟨parser, none⟩, [.onMessageBegin, .onUrl (ascii "/" ++ path)]) := by
  obtain ⟨parser, hIn, hMethod⟩ := scan_method hState hErrno hPending
  obtain ⟨state, hOfPath, hPasses⟩ := @path_passes .reqPath path rfl hPath
  obtain ⟨parser, hIn, hTarget⟩ := hPasses ⟨parser, some (.url, ascii "/")⟩ .none hIn
  have hCounted := hIn.counted
  have hSpace : Scanner.effect ⟨parser, some (.url, ascii "/" ++ path)⟩ (chr ' ') =
      ({ parser.counted with state := .reqHttpStart } : RequestParser).go [.data .url] := by
    refine Scanner.effect_switch ?_
    rw [byteSwitch_ofPath hOfPath hCounted.state, reqServer, if_pos rfl]
  obtain ⟨parser', hIn', hVersion⟩ := version_passes
    ⟨{ parser.counted with state := .reqHttpStart }, none⟩ .none
    ⟨rfl, hCounted.flags, hCounted.contentLength, hCounted.errno⟩
  refine ⟨parser', hIn', Context.scan_append hMethod (Context.scan_append hTarget ?_)⟩
  exact Context.scan_append (Scanner.scan_go hSpace) hVersion

end Path

end Httpuv.RequestParser
