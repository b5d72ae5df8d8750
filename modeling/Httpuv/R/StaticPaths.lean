import Httpuv.R.Values
import Mathlib.Data.List.DropRight

/-! Static paths and their options as the functions of the package make them, before
they are converted. -/
namespace Httpuv

/-- An expression as the parser of R returns it. A name in quotes in front of an argument
list is a symbol. -/
inductive RExpression where
  | symbol (name : Bytes)
  | string (value : Option Bytes)
  | constant (source : Bytes)
  | call (function : RExpression) (arguments : List RExpression)

/-- `parse(text = )`, and `normalizePath(mustWork = TRUE)` on the file system. -/
class RSession where
  parse : Bytes → Except RError (List RExpression)
  normalizePath : Bytes → Except RError Bytes

/-- The elements of a `staticPathOptions` list. One that is missing is NULL. -/
structure OptionArguments where
  indexhtml : RValue
  fallthrough : RValue
  html_charset : RValue
  headers : RValue
  validation : RValue
  exclude : RValue

/-- The list with its attribute `normalized`. -/
structure ROptions extends OptionArguments where
  normalized : Bool

/-- An object of class `staticPath`. -/
structure RStaticPath where
  path : Bytes
  options : ROptions

namespace RValue

def string (text : Bytes) : RValue := vector (.character [some text])

/-- `is.list` -/
def isList : RValue → Bool
  | list _ | namedList _ => true
  | _ => false

/-- `class` -/
def className : RValue → Bytes
  | null => ascii "NULL"
  | vector values => atomicClass values
  | namedVector values => atomicClass values.values
  | list _ | namedList _ => ascii "list"
  | other type _ =>
      if [ascii "closure", ascii "builtin", ascii "special"].contains type then ascii "function"
      else if type = ascii "symbol" then ascii "name"
      else type
where
  atomicClass : RVector → Bytes
    | .logical _ => ascii "logical"
    | .integer _ => ascii "integer"
    | .double _ => ascii "numeric"
    | .complex _ => ascii "complex"
    | .character _ => ascii "character"
    | .raw _ => ascii "raw"

/-- Strings with their names. -/
def namedStrings (strings : List (Bytes × Bytes)) : RValue :=
  namedVector {
    names := strings.map Prod.fst
    values := .character (strings.map (fun named => some named.2))
    size := by simp [RVector.length] }

/-- The names that `unlist` makes for what an element of a list consists of. -/
def unlistNames (base : Bytes) (tags : List Bytes) : List Bytes :=
  tags.mapIdx (fun seqno tag =>
    if base = [] then tag
    else if tag ≠ [] then base ++ ascii "." ++ tag
    else if tags.length = 1 then base
    else base ++ Framing.Numeral.format 10 (seqno + 1))

/-- An element of a list in the character vector that `unlist` returns. -/
def unlistStrings [RText] (element : Bytes × RValue) : List (Bytes × Bytes) :=
  match element.2.atomic with
  | some values =>
      (unlistNames element.1 (element.2.names.getD (values.elements.map (fun _ => [])))).zip
        values.paste
  | none => []

/-- `unlist(headers, recursive = FALSE)` and what is made of its result: an empty one is
an empty character vector, and any other has to be a character vector with names. -/
def unlistHeaders [RText] (elements : List (Bytes × RValue)) : Except RError RValue :=
  if (elements.map (fun element => element.2.length)).sum = 0 then return namedStrings []
  else if elements.all (fun element => element.2.isNull || element.2.atomic.isSome) &&
      elements.any (fun element => element.2.isString) then
    let strings := elements.flatMap unlistStrings
    if strings.any (fun named => named.1.isEmpty) then .error failure
    else return namedStrings strings
  else .error failure
where
  failure : RError := [ascii "`headers` option must be a named list or character vector."]

end RValue

open RValue

/-- `==` between two strings, as a character vector. -/
def RExpression.comparison : RExpression → Option RValue
  | call (symbol name) [string left, string right] =>
      if name = ascii "==" then some (vector (.character [some name, left, right])) else none
  | _ => none

section Normalization

variable [RText] [RSession]

def normalizeHtmlCharset (html_charset : RValue) : RValue :=
  if html_charset.isNull then html_charset
  else if html_charset.length = 0 then RValue.string []
  else html_charset

def checkExclude (exclude : RValue) : Except RError Unit :=
  if exclude.isNull then return ()
  else
    match exclude.atomic with
    | some (.logical [_]) => return ()
    | _ => .error [ascii "`exclude` option must be TRUE or FALSE."]

/-- A character vector has not been checked. -/
def normalizeHeaders (headers : RValue) : Except RError RValue :=
  if headers.isList then unlistHeaders headers.fields else return headers

/-- Only the first expression of the text counts. -/
def parseValidation (text : Bytes) : Except RError RValue :=
  let comparison := match RSession.parse text with
    | .ok (p :: _) => p.comparison
    | _ => none
  match comparison with
  | some validation => return validation
  | none => .error
      [ascii "`validation` must be a string of the form: '\"xxx\" == \"yyy\"'"]

def normalizeValidation (validation : RValue) : Except RError RValue :=
  if validation.isNull then return validation
  else
    match validation.atomic with
    | some (.character []) => return validation
    | some (.character [none]) =>
        .error [ascii "missing value where TRUE/FALSE needed"]
    | some (.character [some []]) => return vector (.character [])
    | some (.character [some text]) => parseValidation text
    | _ => .error
        [ascii "`validation` option must be a character vector with zero or one element."]

def normalizeStaticPathOptions (opts : ROptions) : Except RError ROptions :=
  if opts.normalized then return opts
  else do
    checkExclude opts.exclude
    let headers ← normalizeHeaders opts.headers
    let validation ← normalizeValidation opts.validation
    return {
      opts with
      html_charset := normalizeHtmlCharset opts.html_charset
      headers
      validation
      normalized := true }

def staticPathOptions (arguments : OptionArguments) : Except RError ROptions :=
  normalizeStaticPathOptions { arguments with normalized := false }

omit [RText] [RSession] in
/-- The default arguments of `staticPathOptions`. -/
def OptionArguments.defaults : OptionArguments where
  indexhtml := vector (.logical [some true])
  fallthrough := vector (.logical [some false])
  html_charset := RValue.string (ascii "utf-8")
  headers := list []
  validation := vector (.character [])
  exclude := vector (.logical [some false])

/-- The options of one path, none of which has to be given. -/
structure PathOptions where
  indexhtml : RValue
  fallthrough : RValue
  html_charset : RValue
  headers : RValue
  validation : RValue

omit [RText] [RSession] in
def PathOptions.arguments (options : PathOptions) (exclude : Bool) : OptionArguments where
  indexhtml := options.indexhtml
  fallthrough := options.fallthrough
  html_charset := options.html_charset
  headers := options.headers
  validation := options.validation
  exclude := vector (.logical [some exclude])

omit [RText] [RSession] in
def PathOptions.inherited : PathOptions where
  indexhtml := null
  fallthrough := null
  html_charset := null
  headers := null
  validation := null

def staticPath (path : RValue) (options : PathOptions) : Except RError RStaticPath :=
  match path.atomic with
  | some (.character [some text]) =>
      if text = [] then .error failure
      else do
        let path ← RSession.normalizePath text
        let options ← staticPathOptions (options.arguments false)
        return { path, options := ← normalizeStaticPathOptions options }
  | some (.character [none]) => .error [ascii "missing value where TRUE/FALSE needed"]
  | _ => .error failure
where
  failure : RError := [ascii "`path` must be a non-empty string."]

def excludeStaticPath : Except RError RStaticPath := do
  let options ← staticPathOptions (PathOptions.inherited.arguments true)
  return { path := [], options }

/-- What is given as a static path: a value of one of the constructors, or a value that
`as.staticPath` is to convert. -/
inductive PathArgument where
  | staticPath (path : RValue) (options : PathOptions)
  | excludeStaticPath
  | value (path : RValue)

def as_staticPath : PathArgument → Except RError RStaticPath
  | .staticPath path options => Httpuv.staticPath path options
  | .excludeStaticPath => Httpuv.excludeStaticPath
  | .value path =>
      if path.isString then Httpuv.staticPath path .inherited
      else .error
        [ascii "Cannot convert object of class " ++ path.className ++
          ascii " to a staticPath object."]

omit [RText] [RSession] in
/-- `sub("/+$", "", path)` -/
def stripSlashes (path : Bytes) : Bytes := path.rdropWhile (· == 47)

omit [RText] [RSession] in
/-- A slash is put in front of a name, and those at its end are removed. -/
def normalizeName (path : Bytes) : Bytes :=
  let path := if path.head? = some 47 then path else 47 :: path
  if path = [47] then path else stripSlashes path

def normalizePathArgument (path : Bytes × PathArgument) : Except RError (Bytes × RStaticPath) :=
  return (normalizeName path.1, ← as_staticPath path.2)

def normalizeStaticPaths (paths : List (Bytes × PathArgument)) :
    Except RError (List (Bytes × RStaticPath)) :=
  if paths.any (fun path => path.1.isEmpty) then
    .error [ascii "paths must be a named character vector, a named list containing strings and staticPath objects, or NULL."]
  else paths.mapM normalizePathArgument

end Normalization

end Httpuv
