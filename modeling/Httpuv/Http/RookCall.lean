import Httpuv.Http.Connection
import Httpuv.Http.ResponseFraming
import Httpuv.Parser.Contract
import Httpuv.R.Values

/-! `rookCall`, the conversion of its value to a response, and whether an application
that returns a promise is answered like one that returns its value. -/
namespace Httpuv

namespace RValue

variable [RText]

/-- `list(a = 1)[0]` -/
def named_list : RValue := namedList []

/-- The test for headers that would be without names. -/
def lacksHeaders (headers : RValue) : Bool :=
  headers.isNull || (headers.length == 0 && headers.names.isNone)

def pasted (value : RValue) : Except RError RValue :=
  return vector (.character ((← value.paste).map some))

/-- `lapply(headers, paste)` -/
def pasteHeaders (headers : RValue) : Except RError RList := do
  (← headers.asList).lapply pasted

/-- `name %in% names(x)` -/
def hasName (x : RValue) (name : Bytes) : Bool := (x.names.getD []).contains name

omit [RText] in
/-- Whether a file is removed after it has been sent. -/
def bodyOwned (body : RValue) : Except RError (List (Option Bool)) :=
  if body.hasName (ascii "owned") then do (← body.dollar (ascii "owned")).asLogical
  else return [some false]

omit [RText] in
/-- A body that names a file is replaced by `bodyFile` and `bodyFileOwned`. -/
def withBodyFile (resp body : RValue) : Except RError RValue :=
  if body.hasName (ascii "file") then do
    let filename ← body.element (ascii "file")
    let owned ← body.bodyOwned
    return ((resp.assign (ascii "body") null).assign (ascii "bodyFile") filename).assign
      (ascii "bodyFileOwned") (vector (.logical owned))
  else return resp

def prepare_response (resp : RValue) : Except RError RValue :=
  if resp.length = 0 then return null
  else do
    let headers ← resp.dollar (ascii "headers")
    let resp := if headers.lacksHeaders then resp.assign (ascii "headers") named_list else resp
    let headers ← resp.dollar (ascii "headers")
    let pasted ← headers.pasteHeaders
    let resp := resp.assign (ascii "headers") pasted.value
    let body ← resp.dollar (ascii "body")
    resp.withBodyFile body

omit [RText] in
/-- `paste("ERROR:", conditionMessage(e), collapse = "\n")` -/
def errorText (e : RError) : Bytes :=
  (ascii "\n").intercalate
    ((if e = [] then [[]] else e).map (fun message => ascii "ERROR: " ++ message))

omit [RText] in
def on_error (e : RError) : RValue :=
  namedList
    [(ascii "status", vector (.integer [500])),
      (ascii "headers", namedList
        [(ascii "Content-Type", vector (.character [some (ascii "text/plain; charset=UTF-8")]))]),
      (ascii "body", vector (.raw (errorText e)))]

omit [RText] in
def tryCatch (result : Except RError RValue) (error : RError → RValue) : RValue :=
  match result with
  | .ok value => value
  | .error e => error e

/-- `rookCall` for a function that returns a value or raises an error. -/
def rookCall (response : Except RError RValue) : RValue :=
  match response with
  | .error compute_error => on_error compute_error
  | .ok response => tryCatch (prepare_response response) on_error

/-- What the promise of `rookCall` resolves to when the promise of the function is
settled: `response %...>% prepare_response %...!% on_error`. -/
def rookCallPromise (response : Except RError RValue) : RValue :=
  tryCatch (response >>= prepare_response) on_error

end RValue

section Conversion

variable {File : Type} [RText]

open RValue

omit [RText] in
def headerString (header : Bytes × RValue) : Option (Bytes × Bytes) :=
  return (header.1, ← header.2.asString)

omit [RText] in
/-- The names and values of the headers, all of which have to be single strings. -/
def headerStrings : RList → Option ResponseHeaders
  | .unnamed _ => none
  | .named responseHeaders => responseHeaders.mapM headerString

omit [RText] in
/-- The data source of a body that is not a file. -/
def bodySource (body : Option RValue) : Option (Option (Body File)) :=
  match body with
  | none => some none
  | some body =>
      if body.isNull then some none
      else if body.isString then body.charToRaw.map (fun bytes => some (AppAnswer.memory bytes))
      else body.asRaw.map (fun bytes => some (AppAnswer.memory bytes))

/-- `listToResponse` with what it looks up in the response, and `none` for an exception.
A file that cannot be opened is answered before the headers are converted. -/
def elementsToResponse (openFile : Bytes → Bool → Option File)
    (status headers bodyFile bodyFileOwned body : Option RValue) :
    Option (Option (AppAnswer File)) := do
  let status ← (← status).asInt
  let responseHeaders ← (← headers).asList.toOption
  match bodyFile with
  | some bodyFile =>
      match openFile (← bodyFile.asString) (← (← bodyFileOwned).asBool) with
      | none => return some .unreadableFile
      | some file =>
          return some (.response status (← headerStrings responseHeaders) (some (.inr file)))
  | none =>
      let pDataSource ← bodySource body
      return some (.response status (← headerStrings responseHeaders) pDataSource)

def listToResponse (openFile : Bytes → Bool → Option File) :
    RList → Option (Option (AppAnswer File))
  | .unnamed [] | .named [] => some none
  | .unnamed (_ :: _) => none
  | .named response =>
      elementsToResponse openFile (byName response (ascii "status"))
        (byName response (ascii "headers")) (byName response (ascii "bodyFile"))
        (byName response (ascii "bodyFileOwned")) (byName response (ascii "body"))

/-- `invokeCppCallback` with a value of R. -/
def callbackOutcome (openFile : Bytes → Bool → Option File) (data : RValue) : AppOutcome File :=
  match data.asList.toOption.bind (listToResponse openFile) with
  | some answer => .returned answer
  | none => .malformed

end Conversion

namespace RValue

variable [RText]

/-- Headers that can be converted: none, or named ones of which `paste` makes one
string each. -/
def HeadersFit (headers : RValue) : Prop :=
  headers.lacksHeaders = true ∨ ∃ elements, headers.asList = .ok (.named elements) ∧
    ∀ element ∈ elements, ∃ text, element.2.paste = .ok [text]

/-- Headers that `paste` fails on. -/
def HeadersRaise (headers : RValue) : Prop :=
  headers.lacksHeaders = false ∧ ∃ e, headers.pasteHeaders = .error e

omit [RText] in
/-- A body that names a file, with an element `owned` that cannot be read or that is
not logical. -/
def BodyRaises (body : RValue) : Prop :=
  body.hasName (ascii "file") = true ∧ ∃ e, body.bodyOwned = .error e

omit [RText] in
def IsList : RValue → Prop
  | list _ | namedList _ => True
  | _ => False

omit [RText] in
/-- The file that a list with these elements asks for. A body that names the file `NULL`
removes the first element `bodyFile`. -/
def requestedFile (elements : List (Bytes × RValue)) : Option RValue :=
  let body := partialMatch elements (ascii "body")
  if body.hasName (ascii "file") then
    match body.element (ascii "file") with
    | .ok file =>
        if file.isNull then byName (dropField elements (ascii "bodyFile")) (ascii "bodyFile")
        else some file
    | .error _ => none
  else byName elements (ascii "bodyFile")

omit [RText] in
def requestedOwned (elements : List (Bytes × RValue)) : Option RValue :=
  let body := partialMatch elements (ascii "body")
  if body.hasName (ascii "file") then
    match body.bodyOwned with
    | .ok owned => some (vector (.logical owned))
    | .error _ => none
  else byName elements (ascii "bodyFileOwned")

omit [RText] in
/-- The body of a list with these elements, where a body that names a file is gone. -/
def remainingBody (elements : List (Bytes × RValue)) : Option RValue :=
  if (partialMatch elements (ascii "body")).hasName (ascii "file") then
    byName (dropField elements (ascii "body")) (ascii "body")
  else byName elements (ascii "body")

omit [RText] in
/-- A body of which bytes can be made. -/
def BodyFits (body : RValue) : Prop :=
  body.isNull = true ∨ (∃ bytes, body.charToRaw = some bytes) ∨ ∃ bytes, body.asRaw = some bytes

/-- A response that can be converted. The headers do not matter if its file cannot be
opened. -/
structure Fits {File : Type} (openFile : Bytes → Bool → Option File)
    (elements : List (Bytes × RValue)) : Prop where
  status : ∃ value ∈ byName elements (ascii "status"), ∃ status, value.asInt = some status
  file : ∀ value ∈ requestedFile elements, ∃ path owned flag, value.asString = some path ∧
    requestedOwned elements = some owned ∧ owned.asBool = some flag ∧
    (openFile path flag ≠ none → HeadersFit (partialMatch elements (ascii "headers")))
  body : requestedFile elements = none →
    HeadersFit (partialMatch elements (ascii "headers")) ∧
      ∀ body ∈ remainingBody elements, body.BodyFits

/-- The errors and values that are answered through a promise, too: errors, values of
length zero, values that `prepare_response` fails on, and responses that can be
converted. -/
def Answered {File : Type} (openFile : Bytes → Bool → Option File) :
    Except RError RValue → Prop
  | .error _ => True
  | .ok resp => resp.length = 0 ∨ ¬resp.IsList ∨
      HeadersRaise (partialMatch resp.fields (ascii "headers")) ∨
      BodyRaises (partialMatch resp.fields (ascii "body")) ∨ Fits openFile resp.fields

/-- The headers as `prepare_response` leaves them. -/
def preparedHeaders (headers : RValue) : Except RError RList :=
  if headers.lacksHeaders then .ok (.named []) else headers.pasteHeaders

omit [RText] in
theorem dollar_of_isList {resp : RValue} (h : resp.IsList) {name : Bytes} (hName : name ≠ []) :
    resp.dollar name = .ok (partialMatch resp.fields name) := by
  cases resp with
  | namedList elements => rfl
  | list elements =>
      have hNone : ∀ element ∈ elements.map (fun value => (([] : Bytes), value)),
          element.1 = [] := by simp
      have hFirst : byName (elements.map (fun value => (([] : Bytes), value))) name = none := by
        rw [byName, Option.map_eq_none_iff, List.find?_eq_none]
        intro element hElement
        simpa [hNone element hElement] using hName
      have hPartial : (elements.map (fun value => (([] : Bytes), value))).filter
          (fun element => name.isPrefixOf element.1) = [] := by
        apply List.filter_eq_nil_iff.2
        intro element hElement
        rw [hNone element hElement]
        cases name with
        | nil => exact absurd rfl hName
        | cons byte rest => simp
      simp only [dollar, fields, partialMatch, hFirst, hPartial]
  | _ => exact h.elim

omit [RText] in
theorem assign_of_not_isNull {value : RValue} (h : ¬value.isNull = true) (x : RValue)
    (name : Bytes) : x.assign name value = namedList (setField x.fields name value) := by
  cases value with
  | null => exact absurd rfl h
  | _ => rfl

omit [RText] in
theorem assign_of_isNull {value : RValue} (h : value.isNull = true) (x : RValue) (name : Bytes) :
    x.assign name value = x.assign name null := by
  cases value with
  | null => rfl
  | _ => cases h

omit [RText] in
theorem pasted_value_assign (resp : RValue) (name : Bytes) (pasted : RList) :
    resp.assign name pasted.value = namedList (setField resp.fields name pasted.value) := by
  apply assign_of_not_isNull
  cases pasted <;> exact Bool.false_ne_true

theorem prepare_response_of_isList {resp : RValue} (hList : resp.IsList)
    (hLength : resp.length ≠ 0) :
    resp.prepare_response =
      (preparedHeaders (partialMatch resp.fields (ascii "headers"))).bind (fun pasted =>
        (namedList (setField resp.fields (ascii "headers") pasted.value)).withBodyFile
          (partialMatch resp.fields (ascii "body"))) := by
  have hHeaders : ascii "headers" ≠ [] := by decide
  have hNames : (ascii "body").isPrefixOf (ascii "headers") = false := by decide
  have hBody (pasted : RList) :
      (namedList (setField resp.fields (ascii "headers") pasted.value)).dollar (ascii "body") =
        .ok (partialMatch resp.fields (ascii "body")) := by
    rw [dollar, partialMatch_setField_of_not_isPrefixOf hNames]
  rw [prepare_response, if_neg hLength, dollar_of_isList hList hHeaders]
  by_cases hLacks : (partialMatch resp.fields (ascii "headers")).lacksHeaders = true
  · have hAssigned : resp.assign (ascii "headers") named_list =
        namedList (setField resp.fields (ascii "headers") named_list) := rfl
    have hNamed : (namedList (setField resp.fields (ascii "headers") named_list)).dollar
        (ascii "headers") = .ok named_list := by
      rw [dollar, partialMatch_setField_self]
    have hPasted : named_list.pasteHeaders = .ok (.named []) := rfl
    have hAgain (pasted : RList) :
        (namedList (setField resp.fields (ascii "headers") named_list)).assign (ascii "headers")
          pasted.value = namedList (setField resp.fields (ascii "headers") pasted.value) := by
      rw [pasted_value_assign]
      exact congrArg namedList (setField_setField _ _ _ _)
    simp only [bind, Except.bind, hLacks, if_true, hAssigned, hNamed, hPasted, hAgain, hBody,
      preparedHeaders]
  · simp only [bind, Except.bind, hLacks, Bool.false_eq_true, if_false,
      dollar_of_isList hList hHeaders, pasted_value_assign, hBody, preparedHeaders]

omit [RText] in
theorem element_of_hasName {x : RValue} {name : Bytes} (h : x.hasName name = true) :
    ∃ value, x.element name = .ok value := by
  have hMem : name ∈ x.names.getD [] := List.contains_iff_mem.1 h
  have hFound {elements : List (Bytes × RValue)} (hKey : name ∈ elements.map Prod.fst) :
      ∃ value, byName elements name = some value :=
    Option.isSome_iff_exists.1 ((byName_isSome elements name).2 hKey)
  cases x with
  | namedList elements =>
      obtain ⟨value, hValue⟩ := hFound hMem
      exact ⟨value, by rw [element, hValue]⟩
  | namedVector values =>
      have hNames : (values.names.zip (values.values.elements.map vector)).map Prod.fst =
          values.names := by
        apply List.map_fst_zip
        rw [List.length_map, RVector.length_elements, values.size]
      obtain ⟨value, hValue⟩ := hFound (by rwa [hNames])
      exact ⟨value, by rw [element, hValue]⟩
  | _ => cases hMem

/-- What `listToResponse` finds in a prepared response. -/
structure Prepared (elements : List (Bytes × RValue)) (headers : RValue)
    (prepared : List (Bytes × RValue)) : Prop where
  status : byName prepared (ascii "status") = byName elements (ascii "status")
  headers : byName prepared (ascii "headers") = some headers
  bodyFile : byName prepared (ascii "bodyFile") = requestedFile elements
  bodyFileOwned : byName prepared (ascii "bodyFileOwned") = requestedOwned elements
  body : byName prepared (ascii "body") = remainingBody elements

omit [RText] in
theorem prepared_of_withBodyFile {elements : List (Bytes × RValue)} {headers resp : RValue}
    (h : (namedList (setField elements (ascii "headers") headers)).withBodyFile
      (partialMatch elements (ascii "body")) = .ok resp) :
    ∃ prepared, resp = namedList prepared ∧ Prepared elements headers prepared := by
  by_cases hFile : (partialMatch elements (ascii "body")).hasName (ascii "file") = true
  · obtain ⟨file, hElement⟩ := element_of_hasName hFile
    simp only [withBodyFile, hFile, if_true, bind, Except.bind, hElement] at h
    cases hOwned : (partialMatch elements (ascii "body")).bodyOwned with
    | error e => simp [hOwned] at h
    | ok owned =>
        simp only [hOwned, pure, Except.pure, Except.ok.injEq] at h
        by_cases hNull : file.isNull = true
        · have hResp : resp = namedList (setField (dropField (dropField (setField elements
              (ascii "headers") headers) (ascii "body")) (ascii "bodyFile"))
              (ascii "bodyFileOwned") (vector (.logical owned))) := by
            rw [← h, assign_of_isNull hNull]
            rfl
          refine ⟨_, hResp, ?_, ?_, ?_, ?_, ?_⟩ <;>
          simp (disch := decide) only [byName_eq, allNamed_setField_of_ne,
            allNamed_dropField_of_ne, allNamed_setField_self, allNamed_dropField_self,
            List.head?_cons, requestedFile, requestedOwned, remainingBody, hFile, if_true,
            hElement, hOwned, hNull]
        · have hResp : resp = namedList (setField (setField (dropField (setField elements
              (ascii "headers") headers) (ascii "body")) (ascii "bodyFile") file)
              (ascii "bodyFileOwned") (vector (.logical owned))) := by
            rw [← h, assign_of_not_isNull hNull]
            rfl
          refine ⟨_, hResp, ?_, ?_, ?_, ?_, ?_⟩ <;>
          simp (disch := decide) only [byName_eq, allNamed_setField_of_ne,
            allNamed_dropField_of_ne, allNamed_setField_self, allNamed_dropField_self,
            List.head?_cons, requestedFile, requestedOwned, remainingBody, hFile, if_true,
            hElement, hOwned, hNull, Bool.false_eq_true, if_false]
  · have hResp : namedList (setField elements (ascii "headers") headers) = resp := by
      simpa [withBodyFile, hFile, pure, Except.pure] using h
    refine ⟨_, hResp.symm, ?_, ?_, ?_, ?_, ?_⟩ <;>
    simp (disch := decide) only [byName_eq, allNamed_setField_of_ne, allNamed_setField_self,
      List.head?_cons, requestedFile, requestedOwned, remainingBody, hFile, Bool.false_eq_true,
      if_false]

theorem lapplyNamed_of_paste {element : Bytes × RValue} {texts : List Bytes}
    (h : element.2.paste = .ok texts) :
    RList.lapplyNamed pasted element =
      .ok (element.1, vector (.character (texts.map some))) := by
  simp [RList.lapplyNamed, pasted, h, bind, Except.bind, pure, Except.pure]

omit [RText] in
theorem headerString_texts (name : Bytes) (texts : List Bytes) :
    (∃ string, headerString (name, vector (.character (texts.map some))) = some string) ↔
      ∃ text, texts = [text] := by
  cases texts with
  | nil => simp [headerString, asString, atomic]
  | cons text rest =>
      cases rest with
      | nil => simp [headerString, asString, atomic]
      | cons => simp [headerString, asString, atomic]

/-- Each header becomes a string if and only if `paste` has made one string of it. -/
theorem headerStrings_of_mapM {elements results : List (Bytes × RValue)}
    (h : elements.mapM (RList.lapplyNamed pasted) = .ok results) :
    (∃ strings, headerStrings (.named results) = some strings) ↔
      ∀ element ∈ elements, ∃ text, element.2.paste = .ok [text] := by
  induction elements generalizing results with
  | nil =>
      obtain rfl : results = [] := by simpa [pure, Except.pure] using h.symm
      simp [headerStrings]
  | cons element rest ih =>
      rw [List.mapM_cons] at h
      cases hPaste : element.2.paste with
      | error e => simp [RList.lapplyNamed, pasted, hPaste, bind, Except.bind] at h
      | ok texts =>
          cases hRest : rest.mapM (RList.lapplyNamed pasted) with
          | error e => simp [lapplyNamed_of_paste hPaste, hRest, bind, Except.bind] at h
          | ok last =>
              obtain rfl : (element.1, vector (.character (texts.map some))) :: last = results := by
                simpa [lapplyNamed_of_paste hPaste, hRest, bind, Except.bind, pure,
                  Except.pure] using h
              have hFirst := headerString_texts element.1 texts
              have hLast := ih hRest
              simp only [headerStrings, List.mapM_cons, List.forall_mem_cons, hPaste, Except.ok.injEq] at hLast ⊢
              rw [← hFirst, ← hLast]
              simp [Option.bind_eq_some_iff]

theorem headersFit_iff {headers : RValue} {pasted : RList}
    (h : preparedHeaders headers = .ok pasted) :
    (∃ strings, headerStrings pasted = some strings) ↔ HeadersFit headers := by
  by_cases hLacks : headers.lacksHeaders = true
  · obtain rfl : pasted = .named [] := by
      simpa [preparedHeaders, hLacks] using h.symm
    exact iff_of_true ⟨[], rfl⟩ (.inl hLacks)
  · simp only [preparedHeaders, hLacks, Bool.false_eq_true, if_false, pasteHeaders] at h
    cases hList : headers.asList with
    | error e => simp [hList, bind, Except.bind] at h
    | ok list =>
        simp only [hList, bind, Except.bind] at h
        cases list with
        | unnamed elements =>
            obtain ⟨results, -, rfl⟩ : ∃ results, elements.mapM RValue.pasted = .ok results ∧
                .unnamed results = pasted := by
              cases hResults : elements.mapM RValue.pasted with
              | error e => simp [RList.lapply, hResults, bind, Except.bind] at h
              | ok results =>
                  exact ⟨results, rfl, by simpa [RList.lapply, hResults, bind, Except.bind, pure, Except.pure] using h⟩
            simp [HeadersFit, hLacks, hList, headerStrings]
        | named elements =>
            cases hResults : elements.mapM (RList.lapplyNamed RValue.pasted) with
            | error e => simp [RList.lapply, hResults, bind, Except.bind] at h
            | ok results =>
                obtain rfl : RList.named results = pasted := by simpa [RList.lapply, hResults, bind, Except.bind, pure, Except.pure] using h
                rw [headerStrings_of_mapM hResults]
                simp [HeadersFit, hLacks, hList]

variable {File : Type}

omit [RText] in
theorem bodySource_iff (body : Option RValue) :
    (∃ source, @bodySource File body = some source) ↔ ∀ value ∈ body, value.BodyFits := by
  cases body with
  | none => simp [bodySource]
  | some value =>
      simp only [bodySource, Option.mem_def, Option.some.injEq, forall_eq', BodyFits]
      by_cases hNull : value.isNull = true
      · simp [hNull]
      · cases hAtomic : value.atomic with
        | none => simp [hNull, isString, charToRaw, asRaw, hAtomic]
        | some values =>
            cases values with
            | character strings =>
                cases strings <;>
                simp [hNull, isString, charToRaw, asRaw, hAtomic, RVector.toIntegers]
            | _ => simp [hNull, isString, charToRaw, asRaw, hAtomic, RVector.toIntegers]

theorem asList_value (elements : RList) : elements.value.asList = .ok elements := by
  cases elements <;> rfl

theorem elementsToResponse_iff (openFile : Bytes → Bool → Option File)
    (status bodyFile bodyFileOwned body : Option RValue) (headers : RList) :
    (∃ answer, elementsToResponse openFile status (some headers.value) bodyFile bodyFileOwned
        body = some answer) ↔
      (∃ value ∈ status, ∃ code, value.asInt = some code) ∧
      (∀ value ∈ bodyFile, ∃ path owned flag, value.asString = some path ∧
        bodyFileOwned = some owned ∧ owned.asBool = some flag ∧
        (openFile path flag ≠ none → ∃ strings, headerStrings headers = some strings)) ∧
      (bodyFile = none → (∃ strings, headerStrings headers = some strings) ∧
        ∃ source, @bodySource File body = some source) := by
  have hHeaders : (headers.value.asList).toOption = some headers := by rw [asList_value]; rfl
  cases status with
  | none => simp [elementsToResponse]
  | some status =>
      cases hCode : status.asInt with
      | none => simp [elementsToResponse, hCode]
      | some code =>
          cases bodyFile with
          | none =>
              cases hSource : @bodySource File body with
              | none => simp [elementsToResponse, hCode, hSource]
              | some source =>
                  simp [elementsToResponse, hCode, hHeaders, hSource, Option.bind_eq_some_iff]
          | some file =>
              cases hPath : file.asString with
              | none => simp [elementsToResponse, hCode, hPath]
              | some path =>
                  cases bodyFileOwned with
                  | none => simp [elementsToResponse, hCode, hPath]
                  | some owned =>
                      cases hFlag : owned.asBool with
                      | none => simp [elementsToResponse, hCode, hPath, hFlag]
                      | some flag =>
                          cases hFile : openFile path flag with
                          | none =>
                              cases flag <;>
                              simp [elementsToResponse, hCode, hHeaders, hPath, hFlag, hFile]
                          | some source =>
                              cases flag <;>
                              simp [elementsToResponse, hCode, hHeaders, hPath, hFlag, hFile,
                                Option.bind_eq_some_iff]

theorem listToResponse_iff (openFile : Bytes → Bool → Option File)
    {elements prepared : List (Bytes × RValue)} {pasted : RList}
    (hPrepared : Prepared elements pasted.value prepared)
    (hPasted : preparedHeaders (partialMatch elements (ascii "headers")) = .ok pasted) :
    (∃ answer, listToResponse openFile (.named prepared) = some answer) ↔
      Fits openFile elements := by
  have hConverted : listToResponse openFile (.named prepared) =
      elementsToResponse openFile (byName elements (ascii "status")) (some pasted.value)
        (requestedFile elements) (requestedOwned elements) (remainingBody elements) := by
    rw [← hPrepared.status, ← hPrepared.headers, ← hPrepared.bodyFile,
      ← hPrepared.bodyFileOwned, ← hPrepared.body]
    cases prepared with
    | nil => cases hPrepared.headers
    | cons element rest => rfl
  rw [hConverted, elementsToResponse_iff, bodySource_iff, headersFit_iff hPasted]
  constructor
  · intro h
    exact { status := h.1, file := h.2.1, body := h.2.2 }
  · intro h
    exact ⟨h.status, h.file, h.body⟩

omit [RText] in
/-- The response to an error can be converted. -/
theorem listToResponse_on_error [RText] (openFile : Bytes → Bool → Option File) (e : RError) :
    ∃ answer, (on_error e).asList.toOption.bind (listToResponse openFile) = some answer := by
  exact ⟨_, rfl⟩

theorem preparedHeaders_error_iff (headers : RValue) :
    (∃ e, preparedHeaders headers = .error e) ↔ HeadersRaise headers := by
  by_cases h : headers.lacksHeaders = true
  · simp [preparedHeaders, HeadersRaise, h]
  · simp [preparedHeaders, HeadersRaise, h]

omit [RText] in
theorem withBodyFile_error_iff (resp body : RValue) :
    (∃ e, resp.withBodyFile body = .error e) ↔ BodyRaises body := by
  by_cases hFile : body.hasName (ascii "file") = true
  · obtain ⟨file, hElement⟩ := element_of_hasName hFile
    cases hOwned : body.bodyOwned with
    | error e => simp [withBodyFile, BodyRaises, hFile, hElement, hOwned, bind, Except.bind]
    | ok owned =>
        simp [withBodyFile, BodyRaises, hFile, hElement, hOwned, bind, Except.bind, pure,
          Except.pure]
  · simp [withBodyFile, BodyRaises, hFile, pure, Except.pure]

theorem prepare_response_of_not_isList {resp : RValue} (hLength : resp.length ≠ 0)
    (h : ¬resp.IsList) : ∃ e, resp.prepare_response = .error e := by
  rw [prepare_response, if_neg hLength]
  cases resp with
  | null => exact absurd rfl hLength
  | list elements => exact absurd trivial h
  | namedList elements => exact absurd trivial h
  | _ => exact ⟨_, rfl⟩

/-- A response fails in `prepare_response`, or it is prepared. -/
theorem prepare_response_cases {resp : RValue} (hList : resp.IsList) (hLength : resp.length ≠ 0) :
    ((∃ e, resp.prepare_response = .error e) ∧
      (HeadersRaise (partialMatch resp.fields (ascii "headers")) ∨
        BodyRaises (partialMatch resp.fields (ascii "body")))) ∨
    ¬HeadersRaise (partialMatch resp.fields (ascii "headers")) ∧
      ¬BodyRaises (partialMatch resp.fields (ascii "body")) ∧
      ∃ prepared pasted, resp.prepare_response = .ok (namedList prepared) ∧
        Prepared resp.fields pasted.value prepared ∧
        preparedHeaders (partialMatch resp.fields (ascii "headers")) = .ok pasted := by
  rw [prepare_response_of_isList hList hLength, ← preparedHeaders_error_iff]
  cases hHeaders : preparedHeaders (partialMatch resp.fields (ascii "headers")) with
  | error e => exact .inl ⟨⟨e, rfl⟩, .inl ⟨e, rfl⟩⟩
  | ok pasted =>
      rw [Except.bind]
      rw [← withBodyFile_error_iff
        (namedList (setField resp.fields (ascii "headers") pasted.value))]
      cases hFile : (namedList (setField resp.fields (ascii "headers") pasted.value)).withBodyFile
          (partialMatch resp.fields (ascii "body")) with
      | error e => exact .inl ⟨⟨e, rfl⟩, .inr ⟨e, rfl⟩⟩
      | ok result =>
          obtain ⟨prepared, rfl, hPrepared⟩ := prepared_of_withBodyFile hFile
          right
          refine ⟨by simp, by simp, prepared, pasted, rfl, hPrepared, rfl⟩

/-- The values of `rookCall` that can be converted. -/
theorem rookCall_iff (openFile : Bytes → Bool → Option File) (response : Except RError RValue) :
    (∃ answer, (rookCall response).asList.toOption.bind (listToResponse openFile) =
      some answer) ↔ Answered openFile response := by
  cases response with
  | error e => exact iff_of_true (listToResponse_on_error openFile e) trivial
  | ok resp =>
      by_cases hLength : resp.length = 0
      · have hNull : rookCall (.ok resp) = null := by
          rw [rookCall, prepare_response, if_pos hLength]
          rfl
        rw [hNull]
        exact iff_of_true ⟨none, rfl⟩ (.inl hLength)
      · have hRaised (h : ∃ e, resp.prepare_response = .error e) :
            ∃ answer, (rookCall (.ok resp)).asList.toOption.bind (listToResponse openFile) =
              some answer := by
          obtain ⟨e, he⟩ := h
          rw [rookCall, he]
          exact listToResponse_on_error openFile e
        by_cases hList : resp.IsList
        · cases prepare_response_cases hList hLength with
          | inl h => exact iff_of_true (hRaised h.1) (.inr (.inr (h.2.imp id .inl)))
          | inr h =>
              obtain ⟨hHeaders, hBody, prepared, pasted, hResp, hPrepared, hPasted⟩ := h
              have hCalled : rookCall (.ok resp) = namedList prepared := by
                rw [rookCall, hResp]
                rfl
              rw [hCalled]
              simp only [Answered, hLength, hList, hHeaders, hBody, not_true, false_or]
              exact listToResponse_iff openFile hPrepared hPasted
        · exact iff_of_true (hRaised (prepare_response_of_not_isList hLength hList))
            (.inr (.inl hList))

/-- The promise of `rookCall` resolves to the value that `rookCall` has without it. -/
theorem rookCallPromise_eq (response : Except RError RValue) :
    rookCallPromise response = rookCall response := by
  cases response <;> rfl

end RValue

namespace Connection

variable {File : Type} [HttpParser] [Zlib] [RText]

omit [RText] in
/-- The background thread is given this response for the request. -/
def Schedules (before after : Connection File) (request : Nat)
    (response : Option (HttpResponse (Body File))) : Prop :=
  after.backgroundQueue =
    before.backgroundQueue ++ [.onMessageCompleteComplete request response]

omit [RText] in
theorem getResponse_returned {conn : Connection File} (h : conn.responseScheduled = false)
    (request : Nat) (answer : Option (AppAnswer File)) (now : Tm) :
    conn.Schedules (conn.getResponse request (.returned answer) now) request
      (answer.map (AppAnswer.toResponse now)) := by
  rw [Schedules, getResponse, h]
  rfl

omit [RText] in
theorem settle_returned {conn : Connection File} {index request : Nat}
    (h : conn.promises[index]? = some request) (answer : Option (AppAnswer File)) (now : Tm) :
    ∃ after, conn.settle index (.returned answer) now = some after ∧
      conn.Schedules after request (answer.map (AppAnswer.toResponse now)) := by
  rw [settle, h]
  exact ⟨_, rfl, rfl⟩

omit [RText] in
/-- Nothing is scheduled for a promise that cannot be turned into a response. -/
theorem settle_malformed {conn after : Connection File} {index : Nat} {now : Tm}
    (h : conn.settle index .malformed now = some after) (request : Nat)
    (response : Option (HttpResponse (Body File))) : ¬conn.Schedules after request response := by
  intro hScheduled
  have hQueue : after.backgroundQueue = conn.backgroundQueue := by
    simp only [settle, Option.bind_eq_bind, Option.bind_eq_some_iff] at h
    obtain ⟨first, -, hAfter⟩ := h
    rw [← Option.some.inj hAfter]
  rw [Schedules, hQueue] at hScheduled
  exact List.append_right_eq_self.not.2 (List.cons_ne_nil _ _) hScheduled.symm

/-- A value or an error is answered in the same way when the function of the application
returns it and when it returns a promise, which is settled with it however long after,
exactly if the promise is answered at all. -/
theorem promise_answers_iff (openFile : Bytes → Bool → Option File) (conn later : Connection File)
    (request index : Nat) (response : Except RError RValue) (now : Tm)
    (h : conn.responseScheduled = false) (hPromise : later.promises[index]? = some request) :
    conn.getResponse request .promise now =
        { conn.observe (.call request) with promises := conn.promises ++ [request] } ∧
      ((∃ answer after,
        conn.Schedules
          (conn.getResponse request (callbackOutcome openFile (RValue.rookCall response)) now)
          request answer ∧
        later.settle index (callbackOutcome openFile (RValue.rookCallPromise response)) now =
          some after ∧
        later.Schedules after request answer) ↔ RValue.Answered openFile response) := by
  constructor
  · rw [getResponse, h]
    rfl
  rw [RValue.rookCallPromise_eq, ← RValue.rookCall_iff]
  constructor
  · intro hBoth
    obtain ⟨answer, after, -, hSettled, hScheduled⟩ := hBoth
    cases hConverted : (RValue.rookCall response).asList.toOption.bind
        (listToResponse openFile) with
    | none =>
        rw [callbackOutcome, hConverted] at hSettled
        exact absurd hScheduled (settle_malformed hSettled request answer)
    | some converted => exact ⟨converted, rfl⟩
  · intro hAnswer
    obtain ⟨answer, hAnswer⟩ := hAnswer
    have hOutcome : callbackOutcome openFile (RValue.rookCall response) = .returned answer := by
      rw [callbackOutcome, hAnswer]
    rw [hOutcome]
    obtain ⟨after, hSettled, hScheduled⟩ := settle_returned hPromise answer now
    exact ⟨answer.map (AppAnswer.toResponse now), after, getResponse_returned h request answer now,
      hSettled, hScheduled⟩

/-- `list(status = 200L, headers = list("Content-Type" = "text/plain"), body = "hello")` -/
def helloResponse : RValue :=
  .namedList
    [(ascii "status", .vector (.integer [200])),
      (ascii "headers", .namedList
        [(ascii "Content-Type", .vector (.character [some (ascii "text/plain")]))]),
      (ascii "body", .vector (.character [some (ascii "hello")]))]

omit [HttpParser] [Zlib] [RText] in
theorem promise_answers_hello :
    let _ : HttpParser := httpParser
    let _ : Zlib := HttpResponse.SampleStream.zlib
    let _ : RText := sampleText
    let openFile : Bytes → Bool → Option InMemoryDataSource := fun _ _ => none
    let conn : Connection InMemoryDataSource :=
      .fresh WSHixie76Parser.textInfo WSHixie76Parser.textInfo
    let later := conn.getResponse 1 .promise .epoch
    ∃ answer after,
      conn.Schedules (conn.getResponse 1
        (callbackOutcome openFile (RValue.rookCall (.ok helloResponse))) .epoch) 1 answer ∧
      later.settle 0 (callbackOutcome openFile (RValue.rookCallPromise (.ok helloResponse)))
        .epoch = some after ∧
      later.Schedules after 1 answer := by
  intro parser zlib text openFile conn later
  have hConverted : ∃ answer, (RValue.rookCall (.ok helloResponse)).asList.toOption.bind
      (listToResponse openFile) = some answer := ⟨_, rfl⟩
  exact (promise_answers_iff openFile conn later 1 0 (.ok helloResponse) .epoch rfl rfl).2.2
    ((RValue.rookCall_iff openFile (.ok helloResponse)).1 hConverted)

/-- `list(status = "200", headers = list("Content-Type" = "text/plain"), body = "hello")` -/
def quotedStatus : RValue :=
  .namedList
    [(ascii "status", .vector (.character [some (ascii "200")])),
      (ascii "headers", .namedList
        [(ascii "Content-Type", .vector (.character [some (ascii "text/plain")]))]),
      (ascii "body", .vector (.character [some (ascii "hello")]))]

omit [HttpParser] [Zlib] [RText] in
/-- A status that is a string is answered with an error, but not through a promise. -/
theorem quotedStatus_unanswered :
    let _ : HttpParser := httpParser
    let _ : Zlib := HttpResponse.SampleStream.zlib
    let _ : RText := sampleText
    let openFile : Bytes → Bool → Option InMemoryDataSource := fun _ _ => none
    let conn : Connection InMemoryDataSource :=
      .fresh WSHixie76Parser.textInfo WSHixie76Parser.textInfo
    let later := conn.getResponse 1 .promise .epoch
    conn.Schedules (conn.getResponse 1
        (callbackOutcome openFile (RValue.rookCall (.ok quotedStatus))) .epoch) 1
        (some (AppAnswer.errorResponse .epoch)) ∧
      ∃ after, later.settle 0
          (callbackOutcome openFile (RValue.rookCallPromise (.ok quotedStatus))) .epoch =
            some after ∧
        ∀ answer, ¬later.Schedules after 1 answer := by
  intro parser zlib text openFile conn later
  have hMalformed :
      callbackOutcome openFile (RValue.rookCallPromise (.ok quotedStatus)) = .malformed := rfl
  refine ⟨rfl, _, rfl, ?_⟩
  intro answer
  exact settle_malformed (congrArg (later.settle 0 · .epoch) hMalformed.symm) 1 answer

end Connection

end Httpuv
