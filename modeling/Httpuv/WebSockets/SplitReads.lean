import Httpuv.Semantics.Reader
import Httpuv.WebSockets.FrameLayout
import Httpuv.WebSockets.HyBiParser

/-! The callbacks of `WSHyBiParser` do not depend on how the stream is cut into
reads, and are those of the frame layout decoded over the whole stream. -/
namespace Httpuv

open WSParserEvent

namespace FrameLayout

/-- Decode a whole stream: what a parser has reported after it, and the header
or the payload it is in the middle of. -/
def decodeFrames (proto : WebSocketProto) (data : Bytes) : WSHyBiParser × List WSParserEvent :=
  match _h : decodeHeader proto data with
  | none => ({ state := .inHeader, header := data, bytesLeft := 0 }, [])
  | some (info, rest) =>
      if info.payloadLength ≤ rest.length then
        let (parser, events) := decodeFrames proto (rest.drop info.payloadLength)
        (parser, .onHeaderComplete info :: .onPayload (rest.take info.payloadLength) ::
          .onFrameComplete :: events)
      else
        ({ state := .inPayload, header := [], bytesLeft := info.payloadLength - rest.length },
          .onHeaderComplete info :: if rest = [] then [] else [.onPayload rest])
termination_by data.length
decreasing_by
  have hHeader := decodeHeader_length _h
  simp only [List.length_drop]
  omega

/-- Decode a stream that starts inside a payload with `left` bytes to go. -/
def decodePayload (proto : WebSocketProto) (left : Nat) (data : Bytes) :
    WSHyBiParser × List WSParserEvent :=
  if left ≤ data.length then
    let (parser, events) := decodeFrames proto (data.drop left)
    (parser, .onPayload (data.take left) :: .onFrameComplete :: events)
  else
    ({ state := .inPayload, header := [], bytesLeft := left - data.length },
      if data = [] then [] else [.onPayload data])

theorem decodeFrames_none {proto : WebSocketProto} {data : Bytes}
    (h : decodeHeader proto data = none) :
    decodeFrames proto data = ({ state := .inHeader, header := data, bytesLeft := 0 }, []) := by
  rw [decodeFrames]
  split
  · rfl
  · next hSome => rw [h] at hSome; cases hSome

theorem decodeFrames_some {proto : WebSocketProto} {data rest : Bytes} {info : WSFrameHeaderInfo}
    (h : decodeHeader proto data = some (info, rest)) :
    decodeFrames proto data =
      ((decodePayload proto info.payloadLength rest).1,
        .onHeaderComplete info :: (decodePayload proto info.payloadLength rest).2) := by
  rw [decodeFrames]
  split
  · next hNone => rw [h] at hNone; cases hNone
  · next info' rest' hSome =>
      rw [h] at hSome
      simp only [Option.some.injEq, Prod.mk.injEq] at hSome
      obtain ⟨rfl, rfl⟩ := hSome
      unfold decodePayload
      split_ifs <;> rfl

/-- The layout's continuation from a parser between two reads. -/
def resume (proto : WebSocketProto) (parser : WSHyBiParser) (data : Bytes) :
    WSHyBiParser × List WSParserEvent :=
  match parser.state with
  | .inHeader => decodeFrames proto (parser.header ++ data)
  | .inPayload => decodePayload proto parser.bytesLeft data

/-- Cutting a payload in two reports two pieces of it. -/
theorem decodePayload_append (proto : WebSocketProto) (left : Nat) (data more : Bytes)
    (hData : data.length < left) :
    (decodePayload proto left (data ++ more)).1 =
        (decodePayload proto (left - data.length) more).1 ∧
      coalesce (decodePayload proto left (data ++ more)).2 =
        coalesce ((if data = [] then [] else [.onPayload data]) ++
          (decodePayload proto (left - data.length) more).2) := by
  unfold decodePayload
  simp only [List.length_append]
  by_cases hMore : left - data.length ≤ more.length
  · rw [if_pos (by omega), if_pos hMore, List.drop_append, List.drop_eq_nil_of_le (by omega),
      List.take_append, List.take_of_length_le (by omega)]
    refine ⟨rfl, ?_⟩
    by_cases hNil : data = []
    · simp [hNil]
    · simp [hNil, coalesce_cons, merge]
  · rw [if_neg (by omega), if_neg hMore]
    refine ⟨by simp only [WSHyBiParser.mk.injEq, true_and]; omega, ?_⟩
    by_cases hNil : data = [] <;> by_cases hMoreNil : more = [] <;>
      simp [hNil, hMoreNil, coalesce, merge]

/-- Decoding a prefix and resuming is decoding the whole, up to the cut of one
payload into pieces. -/
theorem decodeFrames_append (proto : WebSocketProto) (data more : Bytes) :
    (resume proto (decodeFrames proto data).1 more).1 = (decodeFrames proto (data ++ more)).1 ∧
      coalesce ((decodeFrames proto data).2 ++ (resume proto (decodeFrames proto data).1 more).2) =
        coalesce (decodeFrames proto (data ++ more)).2 := by
  induction hLength : data.length using Nat.strongRecOn generalizing data with
  | ind length ih =>
      cases hHeader : decodeHeader proto data with
      | none => rw [decodeFrames_none hHeader]; exact ⟨rfl, rfl⟩
      | some decoded =>
          obtain ⟨info, rest⟩ := decoded
          have hShorter := decodeHeader_length hHeader
          rw [decodeFrames_some hHeader, decodeFrames_some (decodeHeader_append more hHeader)]
          simp only [List.cons_append, coalesce_cons]
          by_cases hPayload : info.payloadLength ≤ rest.length
          · have hRest := ih (rest.drop info.payloadLength).length
              (by simp only [List.length_drop]; omega) _ rfl
            unfold decodePayload
            rw [if_pos hPayload, if_pos (by simp; omega), List.take_append_of_le_length hPayload,
              List.drop_append_of_le_length hPayload]
            simp only [List.cons_append, coalesce_cons]
            exact ⟨hRest.1, by rw [hRest.2]⟩
          · have hCut := decodePayload_append proto info.payloadLength rest more (by omega)
            have hPartial : decodePayload proto info.payloadLength rest =
                ({ state := .inPayload, header := [], bytesLeft := info.payloadLength - rest.length },
                  if rest = [] then [] else [.onPayload rest]) := by
              unfold decodePayload
              rw [if_neg hPayload]
            rw [hPartial]
            exact ⟨hCut.1.symm, by rw [hCut.2]; rfl⟩

end FrameLayout

namespace WSHyBiParser

open FrameLayout

variable {proto : WebSocketProto}

/-- A parser between two reads: an incomplete header, or a payload with bytes
to go. -/
def Resting (proto : WebSocketProto) (parser : WSHyBiParser) : Prop :=
  match parser.state with
  | .inHeader => decodeHeader proto parser.header = none ∧ parser.bytesLeft = 0
  | .inPayload => parser.header = [] ∧ 0 < parser.bytesLeft

/-- The accumulator holds as much of the header and the new data as it can. -/
theorem ofData_accumulated (header data : Bytes) :
    WSHyBiFrameHeader.ofData proto
        (header ++ data.take (min data.length (maxHeaderBytes - header.length))) =
      WSHyBiFrameHeader.ofData proto (header ++ data) := by
  simp only [WSHyBiFrameHeader.ofData, WSHyBiFrameHeader.mk.injEq, and_true]
  rw [List.take_append, List.take_append, List.take_take]
  congr 1
  by_cases hFits : data.length ≤ maxHeaderBytes - header.length
  · rw [min_eq_left hFits, min_eq_right hFits, List.take_of_length_le le_rfl,
      List.take_of_length_le hFits]
  · rw [show min (maxHeaderBytes - header.length)
        (min data.length (maxHeaderBytes - header.length)) = maxHeaderBytes - header.length by omega]

/-- The header ends inside the new data: the bytes read before were not enough. -/
theorem header_ends_in_data {header data rest : Bytes} {info : WSFrameHeaderInfo}
    (hNone : decodeHeader proto header = none)
    (hSome : decodeHeader proto (header ++ data) = some (info, rest)) :
    header.length < (header ++ data).length - rest.length := by
  by_contra hShort
  obtain ⟨-, hPrefix⟩ := decodeHeader_take hSome
  rw [List.take_append_of_le_length (by omega)] at hPrefix
  have hHeader := decodeHeader_append
    (header.drop ((header ++ data).length - rest.length)) hPrefix
  rw [List.take_append_drop, hNone] at hHeader
  cases hHeader

/-- What `payloadOffset` skips is what the header has consumed of the new data. -/
theorem drop_payloadOffset {header data rest : Bytes} {info : WSFrameHeaderInfo}
    (hNone : decodeHeader proto header = none)
    (hSome : decodeHeader proto (header ++ data) = some (info, rest)) :
    (header ++ data).length - rest.length - header.length ≤ data.length ∧
      data.drop ((header ++ data).length - rest.length - header.length) = rest ∧
      rest.length < data.length := by
  have hEnds := header_ends_in_data hNone hSome
  have hDrop := (decodeHeader_take hSome).1
  have hLength := decodeHeader_length hSome
  rw [List.length_append] at hEnds hDrop hLength ⊢
  refine ⟨by omega, ?_, by omega⟩
  rw [List.drop_append, List.drop_eq_nil_of_le (by omega), List.nil_append] at hDrop
  exact hDrop

/-- The loop computes the layout, from either of its two states. The measure
drops by one at a header and by one at a payload, which take a byte together. -/
theorem readLoop_eq (fuel : Nat) (data : Bytes) :
    (∀ header, decodeHeader proto header = none → 2 * data.length + 1 ≤ fuel →
      readLoop proto fuel { state := .inHeader, header, bytesLeft := 0 } data false =
        some (decodeFrames proto (header ++ data))) ∧
    (∀ left recur, (recur = true ↔ left = 0) → 2 * data.length + 2 ≤ fuel →
      readLoop proto fuel { state := .inPayload, header := [], bytesLeft := left } data recur =
        some (decodePayload proto left data)) := by
  induction fuel generalizing data with
  | zero => exact ⟨fun _ _ hFuel => by omega, fun _ _ _ hFuel => by omega⟩
  | succ fuel ih =>
      constructor
      · intro header hNone hFuel
        cases data with
        | nil =>
            rw [List.append_nil, decodeFrames_none hNone]
            simp [readLoop]
        | cons byte data =>
            rw [readLoop, if_pos (by simp)]
            simp only [ofData_accumulated header (byte :: data), isHeaderComplete_eq,
              Option.bind_eq_bind, Option.bind_some]
            cases hDecoded : decodeHeader proto (header ++ byte :: data) with
            | none =>
                have hLength := length_of_decodeHeader_none hDecoded
                rw [List.length_append] at hLength
                simp only [Option.isSome_none, Bool.false_eq_true, if_false]
                rw [min_eq_left (by omega), List.take_of_length_le le_rfl,
                  (ih []).1 _ hDecoded (by simp at hFuel ⊢; omega), List.append_nil]
            | some decoded =>
                obtain ⟨info, rest⟩ := decoded
                obtain ⟨hInfo, hPayload, hLength⟩ := info_eq hDecoded
                obtain ⟨hOffset, hDrop, hRest⟩ := drop_payloadOffset hNone hDecoded
                simp only [Option.isSome_some, if_true, hInfo, hPayload, hLength, Option.bind_some,
                  Bool.false_or]
                rw [if_pos hOffset, hDrop, (ih rest).2 _ _ beq_iff_eq (by omega),
                  decodeFrames_some hDecoded]
                rfl
      · intro left recur hRecur hFuel
        by_cases hStop : data = [] ∧ recur = false
        · obtain ⟨rfl, rfl⟩ := hStop
          have hLeft : left ≠ 0 := fun h => by simpa using hRecur.2 h
          rw [readLoop, if_neg (by simp), decodePayload, if_neg (by simpa using hLeft)]
          rfl
        · have hGo : 0 < data.length ∨ recur = true := by
            by_contra hNone
            simp only [not_or, Nat.not_lt, Nat.le_zero, List.length_eq_zero_iff,
              Bool.not_eq_true] at hNone
            exact hStop hNone
          rw [readLoop, if_pos hGo, decodePayload]
          by_cases hLeft : left ≤ data.length
          · simp only [min_eq_right hLeft, Nat.sub_self, if_true]
            rw [if_pos hLeft, (ih _).1 [] rfl (by simp only [List.length_drop]; omega)]
            rfl
          · have hAll : data.drop data.length = [] := List.drop_length
            have hSome : data ≠ [] := fun h => by
              subst h
              rcases hGo with hGo | hGo
              · simp at hGo
              · have := hRecur.1 hGo; simp at hLeft; omega
            have hPositive := List.length_pos_iff.2 hSome
            simp only [min_eq_left (show data.length ≤ left by omega), hAll, List.take_length]
            rw [if_neg (by omega), if_neg hLeft,
              (ih []).2 _ false (by simp; omega) (by simp; omega), decodePayload,
              if_neg (by simp; omega)]
            simp [hSome]

/-- One call of `read` from a parser between two reads. -/
theorem read_eq {parser : WSHyBiParser} (hResting : parser.Resting proto) (data : Bytes) :
    read proto parser data = some (resume proto parser data) := by
  obtain ⟨state, header, bytesLeft⟩ := parser
  cases state with
  | inHeader =>
      obtain ⟨hNone, rfl⟩ := hResting
      exact (readLoop_eq _ data).1 header hNone (by omega)
  | inPayload =>
      obtain ⟨rfl, hLeft⟩ := hResting
      have hLeft : bytesLeft ≠ 0 := Nat.pos_iff_ne_zero.1 hLeft
      exact (readLoop_eq _ data).2 bytesLeft false (by simpa using hLeft) le_rfl

/-- Every stream leaves the parser between two reads. -/
theorem resting_decodeFrames (data : Bytes) : (decodeFrames proto data).1.Resting proto := by
  induction hLength : data.length using Nat.strongRecOn generalizing data with
  | ind length ih =>
      cases hHeader : decodeHeader proto data with
      | none =>
          rw [decodeFrames_none hHeader]
          exact ⟨hHeader, rfl⟩
      | some decoded =>
          obtain ⟨info, rest⟩ := decoded
          have hShorter := decodeHeader_length hHeader
          rw [decodeFrames_some hHeader]
          unfold decodePayload
          by_cases hPayload : info.payloadLength ≤ rest.length
          · rw [if_pos hPayload]
            exact ih (rest.drop info.payloadLength).length
              (by simp only [List.length_drop]; omega) _ rfl
          · rw [if_neg hPayload]
            exact ⟨rfl, by simp only; omega⟩

/-- Reading follows the layout, with payload pieces joined. -/
theorem follows (proto : WebSocketProto) :
    Semantics.Reader.Follows (read proto) (decodeFrames proto) coalesce where
  view_append _ _ after h := coalesce_congr after h
  chunk past next :=
    ⟨(resume proto (decodeFrames proto past).1 next).2, by
      rw [read_eq (resting_decodeFrames past)]
      have hState := (decodeFrames_append proto past next).1
      rw [← hState], (decodeFrames_append proto past next).2⟩

/-- The layout never reports two pieces of one payload. -/
theorem coalesce_decodeFrames (data : Bytes) :
    coalesce (decodeFrames proto data).2 = (decodeFrames proto data).2 := by
  induction hLength : data.length using Nat.strongRecOn generalizing data with
  | ind length ih =>
      cases hHeader : decodeHeader proto data with
      | none => rw [decodeFrames_none hHeader]; rfl
      | some decoded =>
          obtain ⟨info, rest⟩ := decoded
          have hShorter := decodeHeader_length hHeader
          rw [decodeFrames_some hHeader]
          unfold decodePayload
          by_cases hPayload : info.payloadLength ≤ rest.length
          · have hRest := ih (rest.drop info.payloadLength).length
              (by simp only [List.length_drop]; omega) _ rfl
            rw [if_pos hPayload]
            simp only [coalesce_cons, hRest, merge]
          · rw [if_neg hPayload]
            by_cases hNil : rest = [] <;> simp [hNil, coalesce, merge]

theorem decodeFrames_nil : decodeFrames proto [] = (fresh, []) := decodeFrames_none rfl

/-- A fresh parser, the stream cut in any way: no assertion fails, the loop
ends, and parser and callbacks are those of the layout. -/
theorem exec_read (proto : WebSocketProto) (chunks : List Bytes) :
    ∃ events, Semantics.System.exec (read proto) fresh chunks =
        some ((decodeFrames proto chunks.flatten).1, events) ∧
      coalesce events = coalesce (decodeFrames proto chunks.flatten).2 := by
  have hRun := (follows proto).exec_eq [] chunks
  simpa only [decodeFrames_nil, List.nil_append] using hRun

/-- Two ways of cutting one stream cannot be told apart, and both agree with
the reference decoder. -/
theorem read_split_independent (first second : List Bytes)
    (hSame : first.flatten = second.flatten) :
    ∃ parser eventsFirst eventsSecond,
      Semantics.System.exec (read .ietf) fresh first = some (parser, eventsFirst) ∧
      Semantics.System.exec (read .ietf) fresh second = some (parser, eventsSecond) ∧
      coalesce eventsFirst = coalesce eventsSecond ∧
      (parser, coalesce eventsFirst) = decodeFrames .ietf first.flatten := by
  obtain ⟨eventsFirst, hFirst, hFirstEvents⟩ := exec_read .ietf first
  obtain ⟨eventsSecond, hSecond, hSecondEvents⟩ := exec_read .ietf second
  rw [← hSame] at hSecond hSecondEvents
  refine ⟨_, eventsFirst, eventsSecond, hFirst, hSecond, ?_, ?_⟩
  · rw [hFirstEvents, hSecondEvents]
  · rw [hFirstEvents, coalesce_decodeFrames]

/-- A zero-length frame whose header ends with the first read, or is cut by it. -/
theorem read_split_independent_empty_frame :
    ∃ parser eventsFirst eventsSecond,
      Semantics.System.exec (read .ietf) fresh [[0x88, 0x00], [0x81]] =
        some (parser, eventsFirst) ∧
      Semantics.System.exec (read .ietf) fresh [[0x88], [0x00, 0x81]] =
        some (parser, eventsSecond) ∧
      coalesce eventsFirst = coalesce eventsSecond ∧
      (parser, coalesce eventsFirst) =
        decodeFrames .ietf (List.flatten [[0x88, 0x00], [0x81]]) :=
  read_split_independent [[0x88, 0x00], [0x81]] [[0x88], [0x00, 0x81]] rfl

end WSHyBiParser

end Httpuv
