import Httpuv.Framing.Message
import Httpuv.Http.RequestHead

/-! The header map of a request. The parser reports each line in pieces, and lines
of one name are combined. -/
namespace Httpuv

open Framing

/-- Names without regard to case. -/
def sameName (a b : Bytes) : Bool := a.map tolower == b.map tolower

theorem strcaseEq_iff {a b : Bytes} : strcaseEq a b = true ↔ caseFold a = caseFold b := beq_iff_eq

/-- No C string ends early where there is no NUL. -/
theorem strcaseEq_eq_sameName {a b : Bytes} (hA : 0 ∉ a) (hB : 0 ∉ b) :
    strcaseEq a b = sameName a b := by
  have hFold : ∀ s : Bytes, 0 ∉ s → caseFold s = s.map tolower := by
    intro s hNul
    rw [caseFold, List.takeWhile_eq_self_iff.2]
    intro b hb
    exact decide_eq_true fun hZero => hNul (hZero ▸ hb)
  rw [strcaseEq, hFold a hA, hFold b hB, sameName]

theorem nul_of_token {name : Bytes} (hName : isToken name = true) : 0 ∉ name := by
  intro hNul
  rw [isToken, Bool.and_eq_true, List.all_eq_true] at hName
  exact absurd (hName.2 0 hNul) (by decide)

theorem strcaseEq_symm {a b : Bytes} (h : strcaseEq a b = true) : strcaseEq b a = true :=
  strcaseEq_iff.2 (strcaseEq_iff.1 h).symm

theorem strcaseEq_trans {a b c : Bytes} (hFirst : strcaseEq a b = true)
    (hSecond : strcaseEq b c = true) : strcaseEq a c = true :=
  strcaseEq_iff.2 ((strcaseEq_iff.1 hFirst).trans (strcaseEq_iff.1 hSecond))

namespace RequestHeaders

theorem has_iff {headers : RequestHeaders} {name : Bytes} :
    headers.has name = true ↔ ∃ entry ∈ headers, strcaseEq entry.1 name = true := by
  simp [has, find]

/-- Assignment keeps the keys. -/
theorem find_map (headers : RequestHeaders) (name value other : Bytes) :
    find (headers.map fun entry => if strcaseEq entry.1 name then (entry.1, value) else entry)
        other =
      (List.find? (fun entry => strcaseEq entry.1 other) headers).map
        (fun entry => if strcaseEq entry.1 name then value else entry.2) := by
  have hKey : ∀ entry : Bytes × Bytes,
      (if strcaseEq entry.1 name then (entry.1, value) else entry).1 = entry.1 := by
    intro entry
    split_ifs <;> rfl
  rw [find, List.find?_map, Option.map_map]
  congr 1
  · funext entry
    simp only [Function.comp_apply]
    split_ifs <;> rfl
  · congr 1
    funext entry
    simp only [Function.comp_apply, hKey]

/-- A name finds the value it was assigned, in any case. -/
theorem find_assign (headers : RequestHeaders) (name value other : Bytes) :
    (headers.assign name value).find other =
      if strcaseEq name other then some value else headers.find other := by
  unfold assign
  by_cases hHas : headers.has name = true
  · rw [if_pos hHas, find_map]
    by_cases hSame : strcaseEq name other = true
    · obtain ⟨known, hKnown, hName⟩ := has_iff.1 hHas
      have hSome : (List.find? (fun entry => strcaseEq entry.1 other) headers).isSome :=
        List.find?_isSome.2 ⟨known, hKnown, strcaseEq_trans hName hSame⟩
      obtain ⟨entry, hEntry⟩ := Option.isSome_iff_exists.1 hSome
      have hOther := List.find?_some hEntry
      rw [if_pos hSame, hEntry, Option.map_some,
        if_pos (strcaseEq_trans hOther (strcaseEq_symm hSame))]
    · rw [if_neg hSame, find]
      cases hEntry : List.find? (fun entry => strcaseEq entry.1 other) headers with
      | none => rfl
      | some entry =>
          have hOther := List.find?_some hEntry
          have hName : ¬ strcaseEq entry.1 name = true :=
            fun h => hSame (strcaseEq_trans (strcaseEq_symm h) hOther)
          rw [Option.map_some, Option.map_some, if_neg hName]
  · rw [if_neg hHas, find, List.find?_append]
    by_cases hSame : strcaseEq name other = true
    · have hNone : List.find? (fun entry => strcaseEq entry.1 other) headers = none := by
        rw [List.find?_eq_none]
        intro entry hEntry hOther
        exact hHas (has_iff.2 ⟨entry, hEntry, strcaseEq_trans hOther (strcaseEq_symm hSame)⟩)
      simp only [hNone, hSame, List.find?_cons, Option.none_or, Option.map_some, if_true]
    · have hOther : strcaseEq name other = false := Bool.not_eq_true _ ▸ hSame
      simp [hOther, find]

/-- The name that came first stays the key. -/
theorem keys_assign (headers : RequestHeaders) (name value : Bytes) :
    (headers.assign name value).map Prod.fst =
      headers.map Prod.fst ++ if headers.has name then [] else [name] := by
  unfold assign
  split_ifs
  · rw [List.map_map, List.append_nil]
    congr 1
    funext entry
    simp only [Function.comp_apply]
    split_ifs <;> rfl
  · rw [List.map_append, List.map_singleton]

theorem assign_assign (headers : RequestHeaders) (name first second : Bytes) :
    (headers.assign name first).assign name second = headers.assign name second := by
  have hSelf : strcaseEq name name = true := strcaseEq_iff.2 rfl
  have hHas : (headers.assign name first).has name = true := by
    rw [has, find_assign, if_pos hSelf]
    rfl
  have hAssign : (headers.assign name first).assign name second =
      (headers.assign name first).map
        fun entry => if strcaseEq entry.1 name then (entry.1, second) else entry := if_pos hHas
  rw [hAssign]
  unfold assign
  by_cases hKnown : headers.has name = true
  · rw [if_pos hKnown, if_pos hKnown, List.map_map]
    congr 1
    funext entry
    simp only [Function.comp_apply]
    split_ifs with hEntry
    · rfl
    · rfl
  · have hOthers : (headers.map
        fun entry => if strcaseEq entry.1 name then (entry.1, second) else entry) = headers := by
      conv_rhs => rw [← List.map_id headers]
      apply List.map_congr_left
      intro entry hEntry
      exact if_neg fun h => hKnown (has_iff.2 ⟨entry, hEntry, h⟩)
    rw [if_neg hKnown, if_neg hKnown, List.map_append, hOthers, List.map_singleton, if_pos hSelf]

end RequestHeaders

/-- Values in order, those that are empty left out. -/
def joined (values : List Bytes) : Bytes :=
  List.intercalate (ascii ",") (values.filter (· ≠ []))

theorem intercalate_concat (separator : Bytes) {values : List Bytes} (hSome : values ≠ [])
    (value : Bytes) : List.intercalate separator (values ++ [value]) =
      List.intercalate separator values ++ separator ++ value := by
  induction values with
  | nil => exact absurd rfl hSome
  | cons first values ih =>
      by_cases hNil : values = []
      · subst hNil
        simp [List.intercalate_cons_of_ne_nil]
      · rw [List.cons_append, List.intercalate_cons_of_ne_nil (by simp), ih hNil,
          List.intercalate_cons_of_ne_nil hNil]
        simp only [List.append_assoc]

theorem intercalate_ne_nil (separator : Bytes) {values : List Bytes} {value : Bytes}
    (hValue : value ∈ values) (hSome : value ≠ []) : List.intercalate separator values ≠ [] := by
  induction values with
  | nil => cases hValue
  | cons first values ih =>
      by_cases hNil : values = []
      · subst hNil
        rw [List.intercalate_singleton, ← List.mem_singleton.1 hValue]
        exact hSome
      · rw [List.intercalate_cons_of_ne_nil hNil]
        intro hEmpty
        rw [List.append_eq_nil_iff, List.append_eq_nil_iff] at hEmpty
        cases List.mem_cons.1 hValue with
        | inl hFirst => exact hSome (hFirst.trans hEmpty.1.1)
        | inr hRest => exact ih hRest hEmpty.2

/-- `combine` adds a value. -/
theorem joined_concat (values : List Bytes) (value : Bytes) :
    joined (values ++ [value]) = RequestHead.combine (joined values) value := by
  unfold joined RequestHead.combine
  rw [List.filter_append]
  by_cases hValue : value = []
  · subst hValue
    simp
  · have hLast : [value].filter (· ≠ []) = [value] := by simp [hValue]
    rw [hLast]
    by_cases hNone : values.filter (· ≠ []) = []
    · rw [hNone, List.nil_append, List.intercalate_singleton, List.intercalate_nil]
      rfl
    · obtain ⟨known, hKnown⟩ := List.exists_mem_of_ne_nil _ hNone
      have hKnownSome : known ≠ [] := by simpa using (List.mem_filter.1 hKnown).2
      rw [intercalate_concat _ hNone, if_pos (intercalate_ne_nil _ hKnown hKnownSome),
        if_pos hValue]

/-- A line as the parser reports it: pieces of its name, then pieces of its value.
An empty value is reported as an empty piece. -/
structure HeaderLine where
  namePieces : List Bytes
  valuePieces : List Bytes
  token : isToken namePieces.flatten = true
  valued : valuePieces ≠ []
  empty : valuePieces.head? = some [] → valuePieces.flatten = []

namespace HeaderLine

def name (line : HeaderLine) : Bytes := line.namePieces.flatten

def value (line : HeaderLine) : Bytes := line.valuePieces.flatten

def events (line : HeaderLine) : List ParserEvent :=
  line.namePieces.map .onHeaderField ++ line.valuePieces.map .onHeaderValue

end HeaderLine

namespace RequestHead

/-- What the lines of one name come to. -/
def combined (lines : List HeaderLine) (name : Bytes) : Option Bytes :=
  if lines.any (fun line => sameName line.name name) then
    some (joined ((lines.filter fun line => sameName line.name name).map HeaderLine.value))
  else none

/-- The pieces of a name. -/
theorem foldl_onHeaderField (head : RequestHead) (hState : head.lastHeaderState ≠ .field)
    {pieces : List Bytes} (hPieces : pieces ≠ []) :
    (pieces.map ParserEvent.onHeaderField).foldl onEvent head =
      { head with lastHeaderState := .field, lastHeaderField := pieces.flatten } := by
  induction pieces using List.reverseRecOn with
  | nil => exact absurd rfl hPieces
  | append_singleton pieces piece ih =>
      rw [List.map_append, List.foldl_append, List.flatten_append]
      by_cases hFirst : pieces = []
      · subst hFirst
        simp [onEvent, onHeaderField, hState]
      · rw [ih hFirst]
        simp [onEvent, onHeaderField]

theorem onHeaderValue_first (head : RequestHead) (hState : head.lastHeaderState ≠ .value)
    (data : Bytes) : head.onHeaderValue data =
      { head with
        lastHeaderState := .value
        headers := head.headers.assign head.lastHeaderField
          (combine ((head.headers.find head.lastHeaderField).getD []) data) } := by
  unfold onHeaderValue
  split
  · next hValue => exact absurd hValue hState
  · cases head.headers.find head.lastHeaderField with
    | none => rfl
    | some previous => rfl

/-- Further pieces are appended. -/
theorem foldl_onHeaderValue_more (head : RequestHead) (headers : RequestHeaders) (value : Bytes)
    (pieces : List Bytes) :
    (pieces.map ParserEvent.onHeaderValue).foldl onEvent
        { head with
          lastHeaderState := .value
          headers := headers.assign head.lastHeaderField value } =
      { head with
        lastHeaderState := .value
        headers := headers.assign head.lastHeaderField (value ++ pieces.flatten) } := by
  induction pieces generalizing value with
  | nil => simp
  | cons piece pieces ih =>
      have hFind : (headers.assign head.lastHeaderField value).find head.lastHeaderField =
          some value := by
        rw [RequestHeaders.find_assign, if_pos (strcaseEq_iff.2 rfl)]
      simp only [List.map_cons, List.foldl_cons, onEvent, onHeaderValue, hFind, Option.getD_some,
        RequestHeaders.assign_assign, ih, List.flatten_cons, List.append_assoc]

/-- The pieces of a value. -/
theorem foldl_onHeaderValue (head : RequestHead) (hState : head.lastHeaderState ≠ .value)
    {pieces : List Bytes} (hPieces : pieces ≠ [])
    (hEmpty : pieces.head? = some [] → pieces.flatten = []) :
    (pieces.map ParserEvent.onHeaderValue).foldl onEvent head =
      { head with
        lastHeaderState := .value
        headers := head.headers.assign head.lastHeaderField
          (combine ((head.headers.find head.lastHeaderField).getD []) pieces.flatten) } := by
  obtain ⟨first, rest, rfl⟩ := List.exists_cons_of_ne_nil hPieces
  have hCombine : ∀ previous, combine previous first ++ rest.flatten =
      combine previous (first ++ rest.flatten) := by
    intro previous
    unfold combine
    by_cases hFirst : first = []
    · have hRest := hEmpty (by rw [hFirst]; rfl)
      simp only [List.flatten_cons, List.append_eq_nil_iff] at hRest
      simp [hFirst, hRest.2]
    · by_cases hPrevious : previous = []
      · simp [hPrevious]
      · simp [hPrevious, hFirst]
  rw [List.map_cons, List.foldl_cons, onEvent, onHeaderValue_first head hState,
    foldl_onHeaderValue_more, hCombine]
  rfl

/-- One line. -/
theorem foldl_line (head : RequestHead) (hState : head.lastHeaderState ≠ .field)
    (line : HeaderLine) : line.events.foldl onEvent head =
      { head with
        lastHeaderState := .value
        lastHeaderField := line.name
        headers := head.headers.assign line.name
          (combine ((head.headers.find line.name).getD []) line.value) } := by
  have hName : line.namePieces ≠ [] := by
    intro hNone
    have hToken := line.token
    rw [hNone] at hToken
    cases hToken
  rw [HeaderLine.events, List.foldl_append, foldl_onHeaderField head hState hName,
    foldl_onHeaderValue _ (by simp) line.valued line.empty]
  rfl

/-- The map holds what the lines read so far come to. -/
structure Collects (head : RequestHead) (lines : List HeaderLine) : Prop where
  between : head.lastHeaderState ≠ .field
  find : ∀ name, isToken name = true → head.headers.find name = combined lines name
  occurred : ∀ key ∈ head.headers.map Prod.fst, ∃ line ∈ lines, key = line.name
  once : (head.headers.map Prod.fst).Pairwise fun first second => sameName first second = false

theorem strcaseEq_name (line : HeaderLine) {name : Bytes} (hName : isToken name = true) :
    strcaseEq line.name name = sameName line.name name :=
  strcaseEq_eq_sameName (nul_of_token line.token) (nul_of_token hName)

/-- The case of the name that is looked up does not matter. -/
theorem combined_congr (lines : List HeaderLine) {name other : Bytes}
    (hSame : sameName name other = true) : combined lines name = combined lines other := by
  have hFold : name.map tolower = other.map tolower := beq_iff_eq.1 hSame
  have hLines : (fun line : HeaderLine => sameName line.name name) =
      fun line => sameName line.name other := by
    funext line
    rw [sameName, hFold, sameName]
  rw [combined, hLines]
  rfl

/-- A line adds its value to those of its name. -/
theorem combined_concat (lines : List HeaderLine) (line : HeaderLine) (name : Bytes) :
    combined (lines ++ [line]) name =
      if sameName line.name name then
        some (combine ((combined lines name).getD []) line.value)
      else combined lines name := by
  unfold combined
  rw [List.any_append, List.filter_append, List.map_append]
  by_cases hLine : sameName line.name name = true
  · rw [if_pos hLine, if_pos (by simp [hLine])]
    have hOne : [line].filter (fun line => sameName line.name name) = [line] := by simp [hLine]
    rw [hOne, List.map_singleton, joined_concat]
    split_ifs with hKnown
    · rfl
    · have hNone : lines.filter (fun line => sameName line.name name) = [] := by
        rw [List.filter_eq_nil_iff]
        exact fun other hOther h => hKnown (List.any_eq_true.2 ⟨other, hOther, h⟩)
      rw [hNone]
      rfl
  · have hOther : sameName line.name name = false := Bool.not_eq_true _ ▸ hLine
    simp [hOther]

theorem Collects.line {head : RequestHead} {lines : List HeaderLine} (h : Collects head lines)
    (line : HeaderLine) : Collects (line.events.foldl onEvent head) (lines ++ [line]) where
  between := by
    rw [foldl_line head h.between]
    exact nofun
  find name hName := by
    rw [foldl_line head h.between, RequestHeaders.find_assign, strcaseEq_name line hName,
      combined_concat, h.find line.name line.token]
    split_ifs with hSame
    · rw [combined_congr lines hSame]
    · exact h.find name hName
  occurred := by
    rw [foldl_line head h.between, RequestHeaders.keys_assign]
    intro key hKey
    rcases List.mem_append.1 hKey with hOld | hNew
    · obtain ⟨other, hOther, hName⟩ := h.occurred key hOld
      exact ⟨other, List.mem_append_left _ hOther, hName⟩
    · split_ifs at hNew
      · cases hNew
      · exact ⟨line, List.mem_append_right _ List.mem_cons_self, List.mem_singleton.1 hNew⟩
  once := by
    rw [foldl_line head h.between, RequestHeaders.keys_assign, List.pairwise_append]
    refine ⟨h.once, by split_ifs <;> simp, ?_⟩
    intro key hKey name hName
    split_ifs at hName with hHas
    · cases hName
    · obtain ⟨other, -, rfl⟩ := h.occurred key hKey
      obtain ⟨entry, hEntry, hEntryKey⟩ := List.mem_map.1 hKey
      have hToken : isToken line.name = true := line.token
      rw [List.mem_singleton.1 hName, ← strcaseEq_name other hToken, ← hEntryKey,
        ← Bool.not_eq_true]
      exact fun hSame => hHas (RequestHeaders.has_iff.2 ⟨entry, hEntry, hSame⟩)

theorem Collects.lines {head : RequestHead} {lines : List HeaderLine} (h : Collects head lines)
    (more : List HeaderLine) :
    Collects ((more.flatMap HeaderLine.events).foldl onEvent head) (lines ++ more) := by
  induction more generalizing head lines with
  | nil => simpa using h
  | cons line more ih =>
      rw [List.flatMap_cons, List.foldl_append]
      simpa using ih (h.line line)

/-- Whatever pieces the lines of a request are reported in, its header map has the
names that occurred, once each, with their values joined. -/
theorem headers_combined (head : RequestHead) (lines : List HeaderLine) :
    let headers :=
      ((.onMessageBegin :: lines.flatMap HeaderLine.events).foldl onEvent head).headers
    (∀ name, isToken name = true → headers.find name = combined lines name) ∧
    (∀ key ∈ headers.map Prod.fst, ∃ line ∈ lines, key = line.name) ∧
    (headers.map Prod.fst).Pairwise fun first second => sameName first second = false := by
  intro headers
  have hNew : Collects head.newRequest [] := {
    between := nofun
    find := fun name hName => rfl
    occurred := nofun
    once := List.Pairwise.nil }
  have hLines := hNew.lines lines
  rw [List.nil_append] at hLines
  exact ⟨hLines.find, hLines.occurred, hLines.once⟩

/-- Three lines of two names, with an empty value and a value in two pieces. -/
theorem headers_combined_pieces :
    let head : RequestHead :=
      { url := [], headers := [], lastHeaderField := [], lastHeaderState := .start }
    let lines : List HeaderLine := [
      ⟨[ascii "ac", ascii "cept"], [ascii "te", ascii "xt"], by decide, by decide, by decide⟩,
      ⟨[ascii "Host"], [[]], by decide, by decide, by decide⟩,
      ⟨[ascii "Accept"], [ascii "a"], by decide, by decide, by decide⟩]
    ((.onMessageBegin :: lines.flatMap HeaderLine.events).foldl onEvent head).headers.find
        (ascii "ACCEPT") = some (ascii "text,a") := by
  intro head lines
  rw [(headers_combined head lines).1 (ascii "ACCEPT") (by decide)]
  decide

end RequestHead

end Httpuv
