import Httpuv.Framing.Codings
import Httpuv.Static.FileResponses

/-! The choice to compress a body, beside what the client says it accepts. -/
namespace Httpuv

open Framing (Accepts parseCodings wildcard)

/-- The two names of the coding. -/
def namesGzip (name : Bytes) : Bool :=
  Framing.sameName name (ascii "gzip") || Framing.sameName name (ascii "x-gzip")

/-- A value of `Accept-Encoding` that is a list of codings and accepts this one. -/
def acceptsGzip (enc : Bytes) : Bool :=
  match parseCodings enc with
  | some codings => decide (Accepts codings namesGzip)
  | none => false

/-- The letters stand in a value that is no list of codings. -/
def MalformedGzip (enc : Bytes) : Prop := parseCodings enc = none ∧ ascii "gzip" <:+: enc

/-- The letters stand in the name of a coding, and this one is listed with the weight 0. -/
def RefusedGzip (enc : Bytes) : Prop :=
  ∃ codings, parseCodings enc = some codings ∧
    (∃ coding ∈ codings, ascii "gzip" <:+: coding.1) ∧
    ∃ coding ∈ codings, namesGzip coding.1 = true ∧ coding.2 = 0

/-- The letters stand in the names of other codings only, and no wildcard stands for this one. -/
def MisnamedGzip (enc : Bytes) : Prop :=
  ∃ codings, parseCodings enc = some codings ∧
    (∃ coding ∈ codings, ascii "gzip" <:+: coding.1) ∧
    (∀ coding ∈ codings, namesGzip coding.1 = false) ∧
    ∀ coding ∈ codings, coding.1 = wildcard → coding.2 = 0

/-- The search finds the letters in the name of a coding. -/
theorem infix_gzip {enc : Bytes} {codings : List (Bytes × Nat)}
    (h : parseCodings enc = some codings) :
    ascii "gzip" <:+: enc ↔ ∃ coding ∈ codings, ascii "gzip" <:+: coding.1 :=
  Framing.infix_parseCodings (by simp [ascii]) (by simp [ascii])
    (by simp [ascii, Framing.isWeightByte, Framing.isBlank, Framing.isDigit]) h

/-- The letters are misleading in three kinds of values. -/
theorem mentioned_iff (enc : Bytes) :
    (ascii "gzip" <:+: enc → acceptsGzip enc = true) ↔
      ¬ MalformedGzip enc ∧ ¬ RefusedGzip enc ∧ ¬ MisnamedGzip enc := by
  cases hCodings : parseCodings enc with
  | none => simp [acceptsGzip, MalformedGzip, RefusedGzip, MisnamedGzip, hCodings]
  | some codings =>
      have hAccepts : acceptsGzip enc = true ↔ Accepts codings namesGzip := by
        simp [acceptsGzip, hCodings]
      rw [hAccepts]
      constructor
      · intro h
        refine ⟨?_, ?_, ?_⟩
        · rintro ⟨hNone, -⟩
          rw [hCodings] at hNone
          contradiction
        · rintro ⟨_, hRead, hMentioned, hZero⟩
          obtain rfl := Option.some_inj.1 (hCodings.symm.trans hRead)
          exact Framing.not_accepts_iff.2 (Or.inl hZero) (h ((infix_gzip hRead).2 hMentioned))
        · rintro ⟨_, hRead, hMentioned, hOther⟩
          obtain rfl := Option.some_inj.1 (hCodings.symm.trans hRead)
          exact Framing.not_accepts_iff.2 (Or.inr hOther) (h ((infix_gzip hRead).2 hMentioned))
      · rintro ⟨-, hRefused, hMisnamed⟩ hInfix
        have hMentioned := (infix_gzip hCodings).1 hInfix
        by_contra hNot
        rcases Framing.not_accepts_iff.1 hNot with hZero | hOther
        · exact hRefused ⟨codings, hCodings, hMentioned, hZero⟩
        · exact hMisnamed ⟨codings, hCodings, hMentioned, hOther⟩

namespace HttpResponse

section Choice

variable {Source : Type} [DataSource Source] [Zlib] {response : HttpResponse Source}
  {requestHeaders : RequestHeaders} {written : HttpResponse (Source ⊕ GZipDataSource Source)}

/-- The body goes through the compressor. -/
def Compressed (written : HttpResponse (Source ⊕ GZipDataSource Source)) : Prop :=
  ∃ wrapped, written.pBody = some (.inr wrapped)

/-- A response is compressed if and only if this is what has been chosen, and its header
says so then. -/
theorem writeResponse_compressed (h : response.writeResponse requestHeaders = some written) :
    (Compressed written ↔ response.gzip requestHeaders = true) ∧
      (Compressed written →
        ascii "Content-Encoding: gzip" ++ CRLF <:+: written.responseHeader) := by
  cases hGzip : response.gzip requestHeaders with
  | false =>
      have hPlain : ¬ Compressed written := by
        rintro ⟨wrapped, hWrapped⟩
        simp only [writeResponse, hGzip, encodeBody, Option.bind_eq_bind, Option.bind_some] at h
        cases hBody : response.pBody with
        | none =>
            rw [hBody] at h
            cases h
            cases hWrapped
        | some body =>
            simp only [hBody, Option.map_some] at h
            by_cases hFirst : response.statusCode = 101 ∧
                0 < DataSource.size (.inl body : Source ⊕ GZipDataSource Source) ∧
                DataSource.size (.inl body : Source ⊕ GZipDataSource Source) < 256
            · rw [if_pos hFirst] at h
              obtain ⟨result, hData, h⟩ := Option.bind_eq_some_iff.1 h
              obtain ⟨read, -, rfl⟩ := Option.map_eq_some_iff.1 hData
              cases h
              dsimp only at hWrapped
              split_ifs at hWrapped
              cases hWrapped
            · rw [if_neg hFirst] at h
              cases h
              cases hWrapped
      exact ⟨iff_of_false hPlain Bool.false_ne_true, fun hCompressed => absurd hCompressed hPlain⟩
  | true =>
      obtain ⟨-, hStatus, hSome, -⟩ := gzip_iff.1 hGzip
      obtain ⟨body, hBody⟩ := Option.ne_none_iff_exists'.1 hSome
      simp only [writeResponse, hGzip, encodeBody, hBody, Option.bind_eq_bind] at h
      obtain ⟨encoded, hEncoded, h⟩ := Option.bind_eq_some_iff.1 h
      obtain ⟨wrapped, hWrapped, hEncoded⟩ := Option.bind_eq_some_iff.1 hEncoded
      cases hEncoded
      simp only [hStatus, false_and, if_false] at h
      cases h
      refine ⟨iff_of_true ⟨wrapped, rfl⟩ rfl, fun _ => ?_⟩
      dsimp only
      rw [if_pos trivial, List.append_assoc, List.append_assoc]
      exact List.infix_append' _ _ _

/-- Zlib can always be initialised, so what is chosen is done. -/
theorem exists_compressed (contract : ZlibContract) (hGzip : response.gzip requestHeaders = true) :
    ∃ written, response.writeResponse requestHeaders = some written ∧ Compressed written := by
  obtain ⟨-, hStatus, hSome, -⟩ := gzip_iff.1 hGzip
  obtain ⟨body, hBody⟩ := Option.ne_none_iff_exists'.1 hSome
  obtain ⟨stream, hInit, -⟩ := contract.deflateInit2
  simp only [writeResponse, hGzip, encodeBody, hBody, GZipDataSource.construct, hInit,
    Option.bind_eq_bind, Option.bind_some, Option.pure_def, hStatus, false_and, if_false]
  exact ⟨_, rfl, _, rfl⟩

/-- **A body is compressed only for a client that accepts it** if and only if the response
cannot be compressed at all, or the letters `gzip` are not misleading in the value. -/
theorem compressed_when_accepted_iff (contract : ZlibContract) (response : HttpResponse Source)
    (requestHeaders : RequestHeaders) :
    (∀ written, response.writeResponse requestHeaders = some written → Compressed written →
        ∃ enc, requestHeaders.find (ascii "Accept-Encoding") = some enc ∧ acceptsGzip enc = true) ↔
      (∃ header ∈ response.headers, strcaseEq header.1 (ascii "Content-Encoding") = true) ∨
        response.statusCode = 101 ∨ response.pBody = none ∨
        ∀ enc, requestHeaders.find (ascii "Accept-Encoding") = some enc →
          ¬ MalformedGzip enc ∧ ¬ RefusedGzip enc ∧ ¬ MisnamedGzip enc := by
  have hChoice : (∀ written, response.writeResponse requestHeaders = some written →
      Compressed written →
        ∃ enc, requestHeaders.find (ascii "Accept-Encoding") = some enc ∧ acceptsGzip enc = true) ↔
      (response.gzip requestHeaders = true →
        ∃ enc, requestHeaders.find (ascii "Accept-Encoding") = some enc ∧
          acceptsGzip enc = true) := by
    constructor
    · intro h hGzip
      obtain ⟨written, hWritten, hCompressed⟩ := exists_compressed contract hGzip
      exact h written hWritten hCompressed
    · exact fun h written hWritten hCompressed =>
        h ((writeResponse_compressed hWritten).1.1 hCompressed)
  rw [hChoice, gzip_iff]
  constructor
  · intro h
    by_cases hEncoding : ∃ header ∈ response.headers,
        strcaseEq header.1 (ascii "Content-Encoding") = true
    · exact Or.inl hEncoding
    · by_cases hStatus : response.statusCode = 101
      · exact Or.inr (Or.inl hStatus)
      · by_cases hBody : response.pBody = none
        · exact Or.inr (Or.inr (Or.inl hBody))
        · refine Or.inr (Or.inr (Or.inr fun enc hEnc => (mentioned_iff enc).1 fun hInfix => ?_))
          have hNone : ∀ header ∈ response.headers,
              strcaseEq header.1 (ascii "Content-Encoding") = false := fun header hMem =>
            Bool.eq_false_iff.2 fun hName => hEncoding ⟨header, hMem, hName⟩
          have hMentions : mentionsGzip requestHeaders = true := by
            rw [mentionsGzip, hEnc]
            exact decide_eq_true hInfix
          obtain ⟨_, hFound, hAccepts⟩ := h ⟨hNone, hStatus, hBody, hMentions⟩
          rw [hEnc] at hFound
          cases hFound
          exact hAccepts
  · rintro h ⟨hNone, hStatus, hBody, hMentions⟩
    rcases h with ⟨header, hMem, hName⟩ | hUpgrade | hMissing | hKinds
    · rw [hNone header hMem] at hName
      contradiction
    · exact absurd hUpgrade hStatus
    · exact absurd hMissing hBody
    · cases hEnc : requestHeaders.find (ascii "Accept-Encoding") with
      | none =>
          rw [mentionsGzip, hEnc] at hMentions
          contradiction
      | some enc =>
          rw [mentionsGzip, hEnc] at hMentions
          exact ⟨enc, rfl, (mentioned_iff enc).2 (hKinds enc hEnc) (of_decide_eq_true hMentions)⟩

end Choice

/-- A client that refuses the coding gets it. -/
theorem compressed_refused :
    let _ : Zlib := SampleStream.zlib
    let requestHeaders : RequestHeaders := [(ascii "Accept-Encoding", ascii "gzip;q=0")]
    let body : InMemoryDataSource := { buffer := [0x68, 0x69], pos := 0 }
    acceptsGzip (ascii "gzip;q=0") = false ∧
      ∃ written, (listToResponse 200 [(ascii "Content-Type", ascii "text/plain")] (some body)
        .epoch).writeResponse requestHeaders = some written ∧ Compressed written := by
  intro zlib requestHeaders body
  refine ⟨by decide +kernel, exists_compressed SampleStream.contract ?_⟩
  decide +kernel

end HttpResponse

end Httpuv
