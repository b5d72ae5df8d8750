import Httpuv.Http.Date

/-! The values of R that a function of the application can return, and the base
functions that the package applies to them. -/
namespace Httpuv

/-- The message of a condition, a character vector. -/
abbrev RError := List Bytes

inductive RDouble where
  | finite (value : Rat)
  | infinite (negative : Bool)
  | nan
  | na
  deriving DecidableEq, Repr

/-- An atomic vector. A missing value is `none`, and the smallest integer. -/
inductive RVector where
  | logical (values : List (Option Bool))
  | integer (values : List Int32)
  | double (values : List RDouble)
  | complex (values : List (RDouble × RDouble))
  | character (values : List (Option Bytes))
  | raw (values : List UInt8)
  deriving DecidableEq

namespace RVector

def length : RVector → Nat
  | logical values => values.length
  | integer values => values.length
  | double values => values.length
  | complex values => values.length
  | character values => values.length
  | raw values => values.length

/-- The vectors of length one that `lapply` and `[[` take out. -/
def elements : RVector → List RVector
  | logical values => values.map (fun value => logical [value])
  | integer values => values.map (fun value => integer [value])
  | double values => values.map (fun value => double [value])
  | complex values => values.map (fun value => complex [value])
  | character values => values.map (fun value => character [value])
  | raw values => values.map (fun value => raw [value])

theorem length_elements (vector : RVector) : vector.elements.length = vector.length := by
  cases vector <;> exact List.length_map _

end RVector

/-- A vector with its attribute `names`. -/
structure NamedVector where
  names : List Bytes
  values : RVector
  size : names.length = values.length

/-- `other` is a function, a symbol or a pointer, none of which has elements that
`$` could find. Objects with methods of their own do not occur. -/
inductive RValue where
  | null
  | vector (values : RVector)
  | namedVector (values : NamedVector)
  | list (elements : List RValue)
  | namedList (elements : List (Bytes × RValue))
  | other (type source : Bytes)

/-- A list without or with names. -/
inductive RList where
  | unnamed (elements : List RValue)
  | named (elements : List (Bytes × RValue))

/-- The texts that R makes of a number, of an element of a list and of a function or
symbol, and the list it makes of these. -/
class RText where
  number : Rat → Bytes
  complex : RDouble × RDouble → Bytes
  deparse : RValue → Bytes
  asCharacter : Bytes → Bytes → Except RError (List Bytes)
  asList : Bytes → Bytes → Except RError RList

/-- Texts of whole numbers, and a closure. -/
@[reducible] def sampleText : RText where
  number value := formatInt value.floor
  complex _ := []
  deparse _ := []
  asCharacter type _ :=
    .error [ascii "cannot coerce type '" ++ type ++ ascii "' to vector of type 'character'"]
  asList _ source := .ok (.unnamed [.vector (.character [some source])])

namespace RDouble

/-- `IntegerFromReal`: a number that does not fit is missing. -/
def toInteger : RDouble → Int32
  | finite value =>
      if value < 2147483648 ∧ -2147483648 < value then Int32.ofInt (value.num.tdiv value.den)
      else Int32.minValue
  | _ => Int32.minValue

def toLogical : RDouble → Option Bool
  | finite value => some (value != 0)
  | infinite _ => some true
  | nan | na => none

def asCharacter [RText] : RDouble → Bytes
  | finite value => RText.number value
  | infinite false => ascii "Inf"
  | infinite true => ascii "-Inf"
  | nan => ascii "NaN"
  | na => ascii "NA"

def isNaN (number : RDouble) : Bool := number = nan || number = na

end RDouble

def complexToInteger (number : RDouble × RDouble) : Int32 :=
  if number.1.isNaN || number.2.isNaN then Int32.minValue else number.1.toInteger

def complexToLogical (number : RDouble × RDouble) : Option Bool :=
  if number.1.isNaN || number.2.isNaN then none
  else some (number.1 != .finite 0 || number.2 != .finite 0)

def integerToLogical (value : Int32) : Option Bool :=
  if value = Int32.minValue then none else some (value != 0)

def integerToRaw (value : Int32) : UInt8 :=
  if 0 ≤ value.toInt ∧ value.toInt ≤ 255 then value.toInt.toNat.toUInt8 else 0

/-- The spellings of `as.logical`. -/
def stringToLogical : Option Bytes → Option Bool
  | none => none
  | some text =>
      if [ascii "T", ascii "True", ascii "TRUE", ascii "true"].contains text then some true
      else if [ascii "F", ascii "False", ascii "FALSE", ascii "false"].contains text then
        some false
      else none

def rawText (byte : UInt8) : Bytes :=
  let digit (n : UInt8) : UInt8 := if n < 10 then 48 + n else 87 + n
  [digit (byte / 16), digit (byte % 16)]

namespace RVector

/-- `as.logical` -/
def asLogical : RVector → List (Option Bool)
  | logical values => values
  | integer values => values.map integerToLogical
  | double values => values.map RDouble.toLogical
  | complex values => values.map complexToLogical
  | character values => values.map stringToLogical
  | raw values => values.map (fun byte => some (byte != 0))

/-- `paste` with one argument. A missing value has a text, too. -/
def paste [RText] : RVector → List Bytes
  | logical values => values.map (fun
      | none => ascii "NA"
      | some true => ascii "TRUE"
      | some false => ascii "FALSE")
  | integer values => values.map (fun value =>
      if value = Int32.minValue then ascii "NA" else formatInt value.toInt)
  | double values => values.map RDouble.asCharacter
  | complex values => values.map RText.complex
  | character values => values.map (fun value => value.getD (ascii "NA"))
  | raw values => values.map rawText

/-- Coercion to the integer type. There is none for strings. -/
def toIntegers : RVector → Option (List Int32)
  | logical values => some (values.map (fun
      | none => Int32.minValue
      | some value => if value then 1 else 0))
  | integer values => some values
  | double values => some (values.map RDouble.toInteger)
  | complex values => some (values.map complexToInteger)
  | raw values => some (values.map (fun byte => Int32.ofNat byte.toNat))
  | character _ => none

end RVector

namespace RValue

def length : RValue → Nat
  | null => 0
  | vector values => values.length
  | namedVector values => values.values.length
  | list elements => elements.length
  | namedList elements => elements.length
  | other _ _ => 1

def names : RValue → Option (List Bytes)
  | namedVector values => some values.names
  | namedList elements => some (elements.map Prod.fst)
  | _ => none

/-- The element of a name. -/
def byName (elements : List (Bytes × RValue)) (name : Bytes) : Option RValue :=
  (elements.find? (fun element => element.1 == name)).map Prod.snd

/-- The first element of this name, or the only one whose name begins with it. -/
def partialMatch (elements : List (Bytes × RValue)) (name : Bytes) : RValue :=
  match byName elements name with
  | some value => value
  | none =>
      match elements.filter (fun element => name.isPrefixOf element.1) with
      | [element] => element.2
      | _ => null

/-- `x$name` -/
def dollar (x : RValue) (name : Bytes) : Except RError RValue :=
  match x with
  | null | list _ => .ok null
  | namedList elements => .ok (partialMatch elements name)
  | vector _ | namedVector _ => .error [ascii "$ operator is invalid for atomic vectors"]
  | other type _ => .error [ascii "object of type '" ++ type ++ ascii "' is not subsettable"]

/-- `x[[name]]` for a name that `x` has. -/
def element (x : RValue) (name : Bytes) : Except RError RValue :=
  let found := match x with
    | namedList elements => byName elements name
    | namedVector values =>
        byName (values.names.zip (values.values.elements.map vector)) name
    | _ => none
  match found with
  | some value => .ok value
  | none => .error [ascii "subscript out of bounds"]

/-- The elements of a list, whose missing names are empty. -/
def fields : RValue → List (Bytes × RValue)
  | list elements => elements.map (fun value => ([], value))
  | namedList elements => elements
  | _ => []

/-- Replaces the first element of a name or adds one. -/
def setField : List (Bytes × RValue) → Bytes → RValue → List (Bytes × RValue)
  | [], name, value => [(name, value)]
  | (key, old) :: rest, name, value =>
      if key = name then (key, value) :: rest else (key, old) :: setField rest name value

/-- Removes the first element of a name. -/
def dropField : List (Bytes × RValue) → Bytes → List (Bytes × RValue)
  | [], _ => []
  | (key, value) :: rest, name =>
      if key = name then rest else (key, value) :: dropField rest name

/-- `x$name <- value` for a list. -/
def assign (x : RValue) (name : Bytes) (value : RValue) : RValue :=
  match value with
  | null =>
      match x with
      | namedList elements => namedList (dropField elements name)
      | _ => x
  | _ => namedList (setField x.fields name value)

/-- `as.list`, also where Rcpp converts a value to a `List`. -/
def asList [RText] : RValue → Except RError RList
  | null => .ok (.unnamed [])
  | vector values => .ok (.unnamed (values.elements.map vector))
  | namedVector values => .ok (.named (values.names.zip (values.values.elements.map vector)))
  | list elements => .ok (.unnamed elements)
  | namedList elements => .ok (.named elements)
  | other type source => RText.asList type source

/-- `paste` with one argument. An element of a list that is a string of its own stands
for itself. -/
def paste [RText] : RValue → Except RError (List Bytes)
  | null => .ok []
  | vector values => .ok values.paste
  | namedVector values => .ok values.values.paste
  | list elements => .ok (elements.map deparse)
  | namedList elements => .ok (elements.map (fun element => deparse element.2))
  | other type source => RText.asCharacter type source
where
  deparse : RValue → Bytes
    | vector (.character [value]) => value.getD (ascii "NA")
    | value => RText.deparse value

/-- `as.logical`. The elements of a list have to be of length one. -/
def asLogical : RValue → Except RError (List (Option Bool))
  | null => .ok []
  | vector values => .ok values.asLogical
  | namedVector values => .ok values.values.asLogical
  | list elements => elements.mapM asElement
  | namedList elements => (elements.map Prod.snd).mapM asElement
  | other type _ =>
      .error [ascii "cannot coerce type '" ++ type ++ ascii "' to vector of type 'logical'"]
where
  asElement : RValue → Except RError (Option Bool)
    | vector values => single values
    | namedVector values => single values.values
    | list [_] | namedList [_] => .ok none
    | _ => notCoerced
  single (values : RVector) : Except RError (Option Bool) :=
    match values.asLogical with
    | [value] => .ok value
    | _ => notCoerced
  notCoerced : Except RError (Option Bool) :=
    .error [ascii "(list) object cannot be coerced to type 'logical'"]

/-- The vector of an atomic value. -/
def atomic : RValue → Option RVector
  | vector values => some values
  | namedVector values => some values.values
  | _ => none

/-- `Rcpp::as<int>`, with `none` for an exception. -/
def asInt (value : RValue) : Option Int := do
  let values ← value.atomic
  match ← values.toIntegers with
  | [single] => return single.toInt
  | _ => none

/-- `Rcpp::as<bool>`. A missing value is true. -/
def asBool (value : RValue) : Option Bool := do
  let values ← value.atomic
  match values with
  | .character _ => none
  | _ =>
      match values.asLogical with
      | [single] => return single.getD true
      | _ => none

/-- `Rcpp::as<std::string>` -/
def asString (value : RValue) : Option Bytes := do
  match ← value.atomic with
  | .character [text] => return text.getD (ascii "NA")
  | _ => none

/-- `charToRaw` of a character vector, which takes the first string. -/
def charToRaw (value : RValue) : Option Bytes := do
  match ← value.atomic with
  | .character values => return (← values.head?).getD (ascii "NA")
  | _ => none

/-- The bytes of an `Rcpp::RawVector`. -/
def asRaw (value : RValue) : Option Bytes := do
  match ← value.atomic with
  | .raw bytes => return bytes
  | values => return (← values.toIntegers).map integerToRaw

/-- `Rf_isString` -/
def isString (value : RValue) : Bool :=
  match value.atomic with
  | some (.character _) => true
  | _ => false

def isNull : RValue → Bool
  | null => true
  | _ => false

end RValue

namespace RValue

/-- All elements of a name. -/
def allNamed (elements : List (Bytes × RValue)) (name : Bytes) : List RValue :=
  (elements.filter (fun element => element.1 == name)).map Prod.snd

theorem byName_isSome (elements : List (Bytes × RValue)) (name : Bytes) :
    (byName elements name).isSome = true ↔ name ∈ elements.map Prod.fst := by
  simp [byName]

theorem byName_eq (elements : List (Bytes × RValue)) (name : Bytes) :
    byName elements name = (allNamed elements name).head? := by
  simp [byName, allNamed]

theorem allNamed_setField_self (elements : List (Bytes × RValue)) (name : Bytes)
    (value : RValue) :
    allNamed (setField elements name value) name = value :: (allNamed elements name).tail := by
  induction elements with
  | nil => simp [setField, allNamed]
  | cons element rest ih =>
      by_cases h : element.1 = name
      · simp [setField, allNamed, h]
      · simpa [setField, allNamed, h] using ih

theorem allNamed_dropField_self (elements : List (Bytes × RValue)) (name : Bytes) :
    allNamed (dropField elements name) name = (allNamed elements name).tail := by
  induction elements with
  | nil => rfl
  | cons element rest ih =>
      by_cases h : element.1 = name
      · simp [dropField, allNamed, h]
      · simpa [dropField, allNamed, h] using ih

/-- An assignment is not seen by what looks at other names. -/
theorem filter_setField (test : Bytes → Bool) {name : Bytes} (h : test name = false)
    (elements : List (Bytes × RValue)) (value : RValue) :
    (setField elements name value).filter (fun element => test element.1) =
      elements.filter (fun element => test element.1) := by
  induction elements with
  | nil => simp [setField, h]
  | cons element rest ih =>
      by_cases he : element.1 = name
      · simp [setField, he, h]
      · simp [setField, he, List.filter_cons, ih]

theorem filter_dropField (test : Bytes → Bool) {name : Bytes} (h : test name = false)
    (elements : List (Bytes × RValue)) :
    (dropField elements name).filter (fun element => test element.1) =
      elements.filter (fun element => test element.1) := by
  induction elements with
  | nil => rfl
  | cons element rest ih =>
      by_cases he : element.1 = name
      · simp [dropField, he, h]
      · simp [dropField, he, List.filter_cons, ih]

theorem allNamed_setField_of_ne {name other : Bytes} (h : name ≠ other)
    (elements : List (Bytes × RValue)) (value : RValue) :
    allNamed (setField elements name value) other = allNamed elements other := by
  have hTest : (name == other) = false := beq_eq_false_iff_ne.2 h
  exact congrArg (List.map Prod.snd) (filter_setField (· == other) hTest elements value)

theorem allNamed_dropField_of_ne {name other : Bytes} (h : name ≠ other)
    (elements : List (Bytes × RValue)) :
    allNamed (dropField elements name) other = allNamed elements other := by
  have hTest : (name == other) = false := beq_eq_false_iff_ne.2 h
  exact congrArg (List.map Prod.snd) (filter_dropField (· == other) hTest elements)

theorem setField_setField (elements : List (Bytes × RValue)) (name : Bytes)
    (first second : RValue) :
    setField (setField elements name first) name second = setField elements name second := by
  induction elements with
  | nil => simp [setField]
  | cons element rest ih =>
      by_cases h : element.1 = name
      · simp [setField, h]
      · simpa [setField, h] using ih

theorem partialMatch_setField_self (elements : List (Bytes × RValue)) (name : Bytes)
    (value : RValue) : partialMatch (setField elements name value) name = value := by
  have hFirst : byName (setField elements name value) name = some value := by
    rw [byName_eq, allNamed_setField_self, List.head?_cons]
  rw [partialMatch, hFirst]

theorem partialMatch_setField_of_not_isPrefixOf {name other : Bytes}
    (h : other.isPrefixOf name = false) (elements : List (Bytes × RValue)) (value : RValue) :
    partialMatch (setField elements name value) other = partialMatch elements other := by
  have hne : name ≠ other := by
    intro he
    rw [he, List.isPrefixOf_iff_prefix.2 (List.prefix_refl other)] at h
    cases h
  have hFirst : byName (setField elements name value) other = byName elements other := by
    rw [byName_eq, byName_eq, allNamed_setField_of_ne hne]
  rw [partialMatch, partialMatch, hFirst, filter_setField other.isPrefixOf h]

end RValue

namespace RList

def lapplyNamed (function : RValue → Except RError RValue) (element : Bytes × RValue) :
    Except RError (Bytes × RValue) :=
  return (element.1, ← function element.2)

/-- `lapply`, which keeps the names. -/
def lapply (function : RValue → Except RError RValue) : RList → Except RError RList
  | unnamed elements => return unnamed (← elements.mapM function)
  | named elements => return named (← elements.mapM (lapplyNamed function))

def value : RList → RValue
  | unnamed elements => .list elements
  | named elements => .namedList elements

end RList

end Httpuv
