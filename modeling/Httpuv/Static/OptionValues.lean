import Httpuv.Static.Configuration

/-! The options that come out of the conversions are the ones that go in. -/
namespace Httpuv

open RValue

/-- The options, for what holds of each of them. -/
inductive OptionName where
  | indexhtml
  | fallthrough
  | html_charset
  | headers
  | validation
  | exclude
  deriving DecidableEq

def OptionArguments.get (arguments : OptionArguments) : OptionName → RValue
  | .indexhtml => arguments.indexhtml
  | .fallthrough => arguments.fallthrough
  | .html_charset => arguments.html_charset
  | .headers => arguments.headers
  | .validation => arguments.validation
  | .exclude => arguments.exclude

def OptionArguments.gives (arguments : OptionArguments) (option : OptionName) : Bool :=
  !(arguments.get option).isNull

namespace StaticPathOptions

def isSet (options : StaticPathOptions) : OptionName → Bool
  | .indexhtml => options.indexhtml.isSome
  | .fallthrough => options.fallthrough.isSome
  | .html_charset => options.html_charset.isSome
  | .headers => options.headers.isSome
  | .validation => options.validation.isSome
  | .exclude => options.exclude.isSome

/-- A pattern that `validateRequestHeaders` can read. -/
def Readable (pattern : List Bytes) : Prop :=
  pattern = [] ∨ ∃ name value, pattern = [ascii "==", name, value]

/-- No option is missing, and validation does not throw. -/
structure Complete (options : StaticPathOptions) : Prop where
  all_set : ∀ option, options.isSet option = true
  validates : ∀ headers, options.validateRequestHeaders headers ≠ none

theorem isSet_merge (a b : StaticPathOptions) (option : OptionName) :
    (merge a b).isSet option = (a.isSet option || b.isSet option) := by
  cases option <;> simp [merge, isSet]

theorem validateRequestHeaders_ne_none {options : StaticPathOptions}
    (hSet : options.isSet .validation = true)
    (hReadable : ∀ pattern, options.validation = some pattern → Readable pattern)
    (headers : RequestHeaders) : options.validateRequestHeaders headers ≠ none := by
  obtain ⟨pattern, hPattern⟩ := Option.isSome_iff_exists.1 hSet
  unfold validateRequestHeaders
  rcases hReadable pattern hPattern with rfl | ⟨name, value, rfl⟩
  · simp [hPattern]
  · cases hFind : headers.find name <;> simp [hPattern, hFind]

end StaticPathOptions

section Conversion

/-- A value that is not NULL and can be read sets its option. -/
theorem optional_as_isSome {α : Type} {read : RValue → Option α} {value : RValue}
    {result : Option α} (h : optional_as read value = some result) :
    result.isSome = !value.isNull := by
  unfold optional_as at h
  split_ifs at h with hNull
  · rw [hNull, ← Option.some.inj h]
    rfl
  · obtain ⟨converted, -, rfl⟩ := Option.map_eq_some_iff.1 h
    simp [hNull]

theorem StaticPathOptions.isSet_construct {opts : ROptions} {options : StaticPathOptions}
    (h : StaticPathOptions.construct opts = some options) (option : OptionName) :
    options.isSet option = opts.gives option := by
  unfold StaticPathOptions.construct at h
  split_ifs at h
  simp only [Option.bind_eq_bind, Option.bind_eq_some_iff, Option.pure_def] at h
  obtain ⟨indexhtml, hIndexhtml, fallthrough, hFallthrough, html_charset, hCharset, headers,
    hHeaders, validation, hValidation, exclude, hExclude, hOptions⟩ := h
  obtain rfl := Option.some.inj hOptions
  cases option with
  | indexhtml => exact optional_as_isSome hIndexhtml
  | fallthrough => exact optional_as_isSome hFallthrough
  | html_charset => exact optional_as_isSome hCharset
  | headers => exact optional_as_isSome hHeaders
  | validation => exact optional_as_isSome hValidation
  | exclude => exact optional_as_isSome hExclude

end Conversion

section Normalization

variable [RText] [RSession]

/-- What validation is left with can be read as a pattern. -/
def RValue.ReadablePattern (validation : RValue) : Prop :=
  ∀ pattern, validation.asStrings = some pattern → StaticPathOptions.Readable pattern

omit [RText] [RSession] in
theorem readablePattern_nil {validation : RValue}
    (h : validation.atomic = some (.character [])) : validation.ReadablePattern := by
  intro pattern hPattern
  simp only [asStrings, h, Option.bind_eq_bind, Option.bind_some, Option.pure_def,
    List.map_nil, Option.some.injEq] at hPattern
  exact Or.inl hPattern.symm

omit [RText] [RSession] in
theorem RExpression.comparison_eq_some {expression : RExpression} {validation : RValue}
    (h : expression.comparison = some validation) :
    ∃ left right, validation = vector (.character [some (ascii "=="), left, right]) := by
  unfold comparison at h
  split at h
  · split_ifs at h with hName
    exact ⟨_, _, (hName ▸ (Option.some.inj h)).symm⟩
  · cases h

omit [RText] in
theorem parseValidation_eq_ok {text : Bytes} {validation : RValue}
    (h : parseValidation text = .ok validation) :
    ∃ left right, validation = vector (.character [some (ascii "=="), left, right]) := by
  unfold parseValidation at h
  cases hParse : RSession.parse text with
  | error e =>
      rw [hParse] at h
      cases h
  | ok expressions =>
      cases expressions with
      | nil =>
          rw [hParse] at h
          cases h
      | cons p rest =>
          cases hComparison : p.comparison with
          | none =>
              simp only [hParse, hComparison] at h
              cases h
          | some comparison =>
              simp only [hParse, hComparison] at h
              obtain rfl := Except.ok.inj h
              exact RExpression.comparison_eq_some hComparison

omit [RText] in
theorem normalizeValidation_eq_ok {validation normalized : RValue}
    (h : normalizeValidation validation = .ok normalized) :
    normalized.isNull = validation.isNull ∧ normalized.ReadablePattern := by
  unfold normalizeValidation at h
  split_ifs at h with hNull
  · obtain rfl := Except.ok.inj h
    refine ⟨rfl, ?_⟩
    intro pattern hPattern
    cases validation <;> simp_all [asStrings, atomic, isNull]
  · rw [Bool.not_eq_true] at hNull
    rw [hNull]
    split at h
    · next hEmpty =>
        obtain rfl := Except.ok.inj h
        exact ⟨hNull, readablePattern_nil hEmpty⟩
    · cases h
    · obtain rfl := Except.ok.inj h
      exact ⟨rfl, readablePattern_nil rfl⟩
    · obtain ⟨left, right, rfl⟩ := parseValidation_eq_ok h
      refine ⟨rfl, ?_⟩
      intro pattern hPattern
      exact Or.inr ⟨_, _, (Option.some.inj hPattern).symm⟩
    · cases h

omit [RSession] in
theorem normalizeHeaders_isNull {headers normalized : RValue}
    (h : normalizeHeaders headers = .ok normalized) : normalized.isNull = headers.isNull := by
  unfold normalizeHeaders at h
  split_ifs at h with hList
  · have hSome : headers.isNull = false := by
      cases headers <;> first | rfl | cases hList
    rw [hSome]
    unfold unlistHeaders at h
    dsimp only at h
    split_ifs at h
    · obtain rfl := Except.ok.inj h
      rfl
    · obtain rfl := Except.ok.inj h
      rfl
  · obtain rfl := Except.ok.inj h
    rfl

omit [RText] [RSession] in
theorem normalizeHtmlCharset_isNull (html_charset : RValue) :
    (normalizeHtmlCharset html_charset).isNull = html_charset.isNull := by
  unfold normalizeHtmlCharset
  split_ifs with hNull hEmpty
  · rfl
  · rw [Bool.not_eq_true] at hNull
    rw [hNull]
    rfl
  · rfl

/-- A normalized object is not changed. -/
theorem normalizeStaticPathOptions_of_normalized {opts : ROptions} (h : opts.normalized = true) :
    normalizeStaticPathOptions opts = .ok opts := if_pos h

/-- Normalization keeps the options that are given, and leaves a pattern that can be
read. -/
theorem staticPathOptions_eq_ok {arguments : OptionArguments} {opts : ROptions}
    (h : staticPathOptions arguments = .ok opts) :
    opts.normalized = true ∧ (∀ option, opts.gives option = arguments.gives option) ∧
      opts.validation.ReadablePattern ∧ opts.exclude = arguments.exclude := by
  unfold staticPathOptions normalizeStaticPathOptions at h
  rw [if_neg Bool.false_ne_true] at h
  cases hExclude : checkExclude arguments.exclude with
  | error e =>
      rw [hExclude] at h
      cases h
  | ok _ =>
      cases hHeaders : normalizeHeaders arguments.headers with
      | error e =>
          rw [hExclude, hHeaders] at h
          cases h
      | ok headers =>
          cases hValidation : normalizeValidation arguments.validation with
          | error e =>
              rw [hExclude, hHeaders, hValidation] at h
              cases h
          | ok validation =>
              rw [hExclude, hHeaders, hValidation] at h
              obtain rfl := Except.ok.inj h
              obtain ⟨hNull, hReadable⟩ := normalizeValidation_eq_ok hValidation
              refine ⟨rfl, ?_, hReadable, rfl⟩
              intro option
              cases option with
              | html_charset => exact congrArg not (normalizeHtmlCharset_isNull _)
              | headers => exact congrArg not (normalizeHeaders_isNull hHeaders)
              | validation => exact congrArg not hNull
              | indexhtml | fallthrough | exclude => rfl

end Normalization

namespace StaticPathOptions

/-- The pattern of the options, if there is one, can be read. -/
def Sound (options : StaticPathOptions) : Prop :=
  ∀ pattern, options.validation = some pattern → Readable pattern

theorem Sound.merge {a b : StaticPathOptions} (ha : a.Sound) (hb : b.Sound) :
    (merge a b).Sound := by
  intro pattern hPattern
  rcases Option.or_eq_some_iff.1 hPattern with hOwn | ⟨-, hOverall⟩
  · exact ha pattern hOwn
  · exact hb pattern hOverall

theorem Sound.complete {options : StaticPathOptions} (hSound : options.Sound)
    (hSet : ∀ option, options.isSet option = true) : options.Complete :=
  ⟨hSet, validateRequestHeaders_ne_none (hSet .validation) hSound⟩

theorem sound_construct {opts : ROptions} {options : StaticPathOptions}
    (h : StaticPathOptions.construct opts = some options)
    (hReadable : opts.validation.ReadablePattern) : options.Sound := by
  unfold StaticPathOptions.construct at h
  split_ifs at h
  simp only [Option.bind_eq_bind, Option.bind_eq_some_iff, Option.pure_def] at h
  obtain ⟨_, _, _, _, _, _, _, _, validation, hValidation, _, _, hOptions⟩ := h
  obtain rfl := Option.some.inj hOptions
  rintro pattern rfl
  unfold optional_as at hValidation
  split_ifs at hValidation
  · cases hValidation
  · obtain ⟨read, hRead, hSame⟩ := Option.map_eq_some_iff.1 hValidation
    exact hReadable pattern (Option.some.inj hSame ▸ hRead)

/-- What one assignment keeps, the assignments up to an exception keep. -/
theorem assignAll_keeps {P : StaticPathOptions → Prop}
    {assignments : List (StaticPathOptions → Option StaticPathOptions)}
    (hStep : ∀ assignment ∈ assignments, ∀ options assigned, P options →
      assignment options = some assigned → P assigned)
    {options : StaticPathOptions} (h : P options) : P (assignAll assignments options) := by
  induction assignments generalizing options with
  | nil => exact h
  | cons assignment rest ih =>
      rw [assignAll]
      cases hAssigned : assignment options with
      | none => exact h
      | some assigned =>
          apply ih
          · exact fun other hOther => hStep other (List.mem_cons_of_mem _ hOther)
          · exact hStep assignment List.mem_cons_self options assigned h hAssigned

/-- What options have that come from other ones by assignments. -/
structure KeptFrom (options assigned : StaticPathOptions) : Prop where
  isSet : ∀ option, options.isSet option = true → assigned.isSet option = true
  sound : assigned.Sound

theorem KeptFrom.setOption {α : Type} {read : RValue → Option α}
    {assign : StaticPathOptions → α → StaticPathOptions} {value : RValue}
    {options old assigned : StaticPathOptions} (h : KeptFrom options old)
    (hAssigned : StaticPathOptions.setOption read assign value old = some assigned)
    (hSet : ∀ converted option, old.isSet option = true → (assign old converted).isSet option = true)
    (hSound : ∀ converted, read value = some converted → (assign old converted).Sound) :
    KeptFrom options assigned := by
  unfold StaticPathOptions.setOption at hAssigned
  split_ifs at hAssigned
  · exact Option.some.inj hAssigned ▸ h
  · obtain ⟨converted, hRead, rfl⟩ := Option.map_eq_some_iff.1 hAssigned
    exact ⟨fun option hOption => hSet converted option (h.isSet option hOption),
      hSound converted hRead⟩

/-- Updates set options, and never unset one. -/
theorem setOptions_keeps {options : StaticPathOptions} {opts : ROptions}
    (hSound : options.Sound) (hReadable : opts.validation.ReadablePattern) :
    KeptFrom options (options.setOptions opts) := by
  refine assignAll_keeps ?_ ⟨fun option hSet => hSet, hSound⟩
  intro assignment hAssignment old assigned hKept hAssigned
  simp only [assignments, List.mem_cons, List.not_mem_nil, or_false] at hAssignment
  rcases hAssignment with rfl | rfl | rfl | rfl | rfl | rfl
  all_goals
    refine hKept.setOption hAssigned (by rintro _ (_ | _) h <;> first | rfl | exact h) ?_
  -- the one assignment that changes the pattern
  case inr.inr.inr.inr.inl =>
    rintro converted hRead pattern hPattern
    exact hReadable _ (Option.some.inj hPattern ▸ hRead)
  all_goals exact fun _ _ => hKept.sound

end StaticPathOptions

section Paths

variable [RText] [RSession]

namespace PathArgument

omit [RText] [RSession] in
/-- The options that a constructor is called with. -/
def arguments : PathArgument → OptionArguments
  | .staticPath _ options => options.arguments false
  | .excludeStaticPath => PathOptions.inherited.arguments true
  | .value _ => PathOptions.inherited.arguments false

omit [RText] [RSession] in
def excluded : PathArgument → Bool
  | .excludeStaticPath => true
  | _ => false

/-- What is made of an argument. -/
def construct (argument : PathArgument) : Option StaticPath := do
  StaticPath.construct (← (as_staticPath argument).toOption)

theorem staticPath_eq_ok {path : RValue} {options : PathOptions} {sp : RStaticPath}
    (h : Httpuv.staticPath path options = .ok sp) :
    staticPathOptions (options.arguments false) = .ok sp.options := by
  unfold Httpuv.staticPath at h
  split at h
  · next text hAtomic =>
      split_ifs at h with hEmpty
      cases hPath : RSession.normalizePath text with
      | error e =>
          rw [hPath] at h
          cases h
      | ok path =>
          cases hOptions : staticPathOptions (options.arguments false) with
          | error e =>
              rw [hPath, hOptions] at h
              cases h
          | ok opts =>
              have hNormalized := (staticPathOptions_eq_ok hOptions).1
              rw [hPath, hOptions] at h
              change (do
                let normalized ← normalizeStaticPathOptions opts
                Except.ok ({ path, options := normalized } : RStaticPath)) = .ok sp at h
              rw [normalizeStaticPathOptions_of_normalized hNormalized] at h
              obtain rfl := Except.ok.inj h
              rfl
  · cases h
  · cases h

theorem as_staticPath_eq_ok {argument : PathArgument} {sp : RStaticPath}
    (h : as_staticPath argument = .ok sp) :
    staticPathOptions argument.arguments = .ok sp.options := by
  cases argument with
  | staticPath path options => exact staticPath_eq_ok h
  | excludeStaticPath =>
      cases hOptions : staticPathOptions (PathOptions.inherited.arguments true) with
      | error e =>
          rw [as_staticPath, Httpuv.excludeStaticPath, hOptions] at h
          cases h
      | ok opts =>
          rw [as_staticPath, Httpuv.excludeStaticPath, hOptions] at h
          obtain rfl := Except.ok.inj h
          exact hOptions
  | value path =>
      rw [as_staticPath] at h
      split_ifs at h
      exact staticPath_eq_ok h

end PathArgument

end Paths

theorem StaticPathOptions.exclude_construct {opts : ROptions} {options : StaticPathOptions}
    (h : StaticPathOptions.construct opts = some options) {exclude : Bool}
    (hExclude : opts.exclude = vector (.logical [some exclude])) :
    options.exclude = some exclude := by
  unfold StaticPathOptions.construct at h
  split_ifs at h
  simp only [Option.bind_eq_bind, Option.bind_eq_some_iff, Option.pure_def] at h
  obtain ⟨_, _, _, _, _, _, _, _, _, _, read, hRead, hOptions⟩ := h
  obtain rfl := Option.some.inj hOptions
  rw [hExclude] at hRead
  exact (Option.some.inj hRead).symm

theorem StaticPath.construct_eq_some {rsp : RStaticPath} {sp : StaticPath}
    (h : StaticPath.construct rsp = some sp) :
    StaticPathOptions.construct rsp.options = some sp.options := by
  rw [StaticPath.construct, Option.bind_eq_bind, Option.bind_eq_some_iff] at h
  obtain ⟨options, hOptions, hChecked⟩ := h
  split_ifs at hChecked
  rw [hOptions, ← Option.some.inj hChecked]

section Arguments

variable [RText] [RSession]

/-- The options of a path are the ones it is constructed with. -/
theorem PathArgument.construct_eq_some {argument : PathArgument} {sp : StaticPath}
    (h : argument.construct = some sp) :
    (∀ option, sp.options.isSet option = argument.arguments.gives option) ∧
      sp.options.Sound ∧ sp.options.exclude = some argument.excluded := by
  rw [construct, Option.bind_eq_bind, Option.bind_eq_some_iff] at h
  obtain ⟨rsp, hResult, hConstruct⟩ := h
  have hOk : as_staticPath argument = .ok rsp := by
    cases hCases : as_staticPath argument with
    | error e =>
        rw [hCases] at hResult
        cases hResult
    | ok other =>
        rw [hCases] at hResult
        rw [Option.some.inj hResult]
  obtain ⟨-, hGives, hReadable, hExclude⟩ := staticPathOptions_eq_ok (as_staticPath_eq_ok hOk)
  have hOptions := StaticPath.construct_eq_some hConstruct
  refine ⟨?_, StaticPathOptions.sound_construct hOptions hReadable, ?_⟩
  · exact fun option => (StaticPathOptions.isSet_construct hOptions option).trans (hGives option)
  · apply StaticPathOptions.exclude_construct hOptions
    rw [hExclude]
    cases argument <;> rfl

end Arguments

end Httpuv
