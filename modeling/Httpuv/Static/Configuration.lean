import Httpuv.R.StaticPaths
import Httpuv.Static.Confinement

/-! The configuration of static serving, from the values of R to the options that every
path that is served has. -/
namespace Httpuv

namespace RValue

/-- `Rcpp::as<std::vector<std::string>>` -/
def asStrings (value : RValue) : Option (List Bytes) := do
  match ← value.atomic with
  | .character values => return values.map (fun text => text.getD (ascii "NA"))
  | _ => none

/-- `Rcpp::as<ResponseHeaders>`. The conversion of other vectors to strings drops the
names. -/
def asResponseHeaders : RValue → Option ResponseHeaders
  | namedVector { names, values := .character values, size := _ } =>
      if names.any List.isEmpty then none
      else some (names.zip (values.map (fun text => text.getD (ascii "NA"))))
  | _ => none

/-- `optional_as`, with `none` for an exception. -/
def optional_as {α : Type} (read : RValue → Option α) (value : RValue) : Option (Option α) :=
  if value.isNull then some none else (read value).map some

end RValue

open RValue

namespace StaticPathOptions

/-- The constructor, with `none` for an exception. -/
def construct (options : ROptions) : Option StaticPathOptions :=
  if options.normalized then do
    let indexhtml ← optional_as asBool options.indexhtml
    let fallthrough ← optional_as asBool options.fallthrough
    let html_charset ← optional_as asString options.html_charset
    let headers ← optional_as asResponseHeaders options.headers
    let validation ← optional_as asStrings options.validation
    let exclude ← optional_as asBool options.exclude
    return { indexhtml, fallthrough, html_charset, headers, validation, exclude }
  else none

/-- One of the assignments of `setOptions`. NULL does not change an option. -/
def setOption {α : Type} (read : RValue → Option α)
    (assign : StaticPathOptions → α → StaticPathOptions) (value : RValue)
    (options : StaticPathOptions) : Option StaticPathOptions :=
  if value.isNull then some options else (read value).map (assign options)

/-- The assignments in the order in which they are made. -/
def assignments (opts : OptionArguments) : List (StaticPathOptions → Option StaticPathOptions) :=
  [setOption asBool (fun options value => { options with indexhtml := some value })
    opts.indexhtml,
   setOption asBool (fun options value => { options with fallthrough := some value })
    opts.fallthrough,
   setOption asString (fun options value => { options with html_charset := some value })
    opts.html_charset,
   setOption asResponseHeaders (fun options value => { options with headers := some value })
    opts.headers,
   setOption asStrings (fun options value => { options with validation := some value })
    opts.validation,
   setOption asBool (fun options value => { options with exclude := some value })
    opts.exclude]

/-- The assignments up to the first one that throws. -/
def assignAll : List (StaticPathOptions → Option StaticPathOptions) → StaticPathOptions →
    StaticPathOptions
  | [], options => options
  | assignment :: rest, options =>
      match assignment options with
      | some assigned => assignAll rest assigned
      | none => options

def setOptions (options : StaticPathOptions) (opts : ROptions) : StaticPathOptions :=
  assignAll (assignments opts.toOptionArguments) options

end StaticPathOptions

/-- The constructor, with `none` for an exception. -/
def StaticPath.construct (sp : RStaticPath) : Option StaticPath := do
  let options ← StaticPathOptions.construct sp.options
  if h : (sp.path ≠ [] ∨ options.exclude = some true) ∧ sp.path.getLast? ≠ some 47 ∧
      0 ∉ sp.path then
    some {
      path := sp.path
      options
      excluded_or_some := h.1
      no_trailing_slash := h.2.1
      terminated := h.2.2 }
  else none

namespace StaticPathManager

/-- `std::map::insert`, which keeps the value of a name that is there. -/
def insert (path_map : List (PathName × StaticPath)) (path : PathName) (sp : StaticPath) :
    List (PathName × StaticPath) :=
  if path_map.any (fun entry => entry.1 == path) then path_map else path_map ++ [(path, sp)]

/-- One element of a list in `toMap` and in the constructor. -/
def insertElement (path_map : List (PathName × StaticPath)) (element : Bytes × RStaticPath) :
    Option (List (PathName × StaticPath)) := do
  if h : element.1 ≠ [] ∧ 0 ∉ element.1 then
    return insert path_map ⟨element.1, h⟩ (← StaticPath.construct element.2)
  else none

def toMap (elements : List (Bytes × RStaticPath)) : Option (List (PathName × StaticPath)) :=
  elements.foldlM insertElement []

def construct (path_list : List (Bytes × RStaticPath)) (options_list : ROptions) :
    Option StaticPathManager :=
  return {
    options := ← StaticPathOptions.construct options_list
    path_map := ← toMap path_list }

def setAll (manager : StaticPathManager) (elements : List (Bytes × RStaticPath)) :
    Option StaticPathManager :=
  return (← toMap elements).foldl (fun manager entry => manager.set entry.1 entry.2) manager

def removeAll (manager : StaticPathManager) (paths : List Bytes) : StaticPathManager :=
  paths.foldl remove manager

def setOptions (manager : StaticPathManager) (opts : ROptions) : StaticPathManager :=
  { manager with options := manager.options.setOptions opts }

end StaticPathManager

/-- What `AppWrapper` reads from an application. -/
structure StaticConfiguration where
  staticPaths : List (Bytes × PathArgument)
  staticPathOptions : Option OptionArguments

/-- The methods of a server that change the configuration. -/
inductive StaticUpdate where
  | setStaticPath (paths : List (Bytes × PathArgument))
  | removeStaticPath (path : RValue)
  | setStaticPathOption (opts : List (Bytes × RValue))

section Updates

variable [RText] [RSession]

omit [RText] [RSession] in
/-- The names of the options. -/
def optionNames : List Bytes :=
  [ascii "indexhtml", ascii "fallthrough", ascii "html_charset", ascii "headers",
    ascii "validation", ascii "exclude"]

omit [RText] [RSession] in
/-- The options of a list whose duplicates have been dropped. -/
def OptionArguments.ofList (opts : List (Bytes × RValue)) : OptionArguments :=
  let option (name : Bytes) := (byName opts name).getD null
  { indexhtml := option (ascii "indexhtml")
    fallthrough := option (ascii "fallthrough")
    html_charset := option (ascii "html_charset")
    headers := option (ascii "headers")
    validation := option (ascii "validation")
    exclude := option (ascii "exclude") }

omit [RText] [RSession] in
def unknownOptions (names : List Bytes) : Bytes :=
  ascii "Unknown options: " ++ names.eraseDups.flatMap (fun name => name ++ ascii " , ")

def setStaticPathOption (opts : List (Bytes × RValue)) : Except RError ROptions :=
  if opts.any (fun opt => opt.1.isEmpty) then .error [ascii "All items must be named."]
  else do
    let normalized ← normalizeStaticPathOptions
      { OptionArguments.ofList opts with normalized := false }
    let unknown := (opts.map Prod.fst).filter (fun name => !optionNames.contains name)
    if unknown = [] then return normalized
    else .error [unknownOptions unknown]

/-- The manager of a new application, with `none` for an error. -/
def StaticConfiguration.construct (app : StaticConfiguration) : Option StaticPathManager := do
  let paths ← (normalizeStaticPaths app.staticPaths).toOption
  let options ← (Httpuv.staticPathOptions (app.staticPathOptions.getD .defaults)).toOption
  let options ← (normalizeStaticPathOptions options).toOption
  StaticPathManager.construct paths options

/-- An update that raises an error changes nothing, but the options that `setOptions`
has assigned before it throws stay assigned. -/
def StaticPathManager.update (manager : StaticPathManager) : StaticUpdate → StaticPathManager
  | .setStaticPath paths =>
      match normalizeStaticPaths paths with
      | .ok paths => (manager.setAll paths).getD manager
      | .error _ => manager
  | .removeStaticPath path =>
      match path.paste with
      | .ok paths => manager.removeAll paths
      | .error _ => manager
  | .setStaticPathOption opts =>
      match setStaticPathOption opts with
      | .ok opts => manager.setOptions opts
      | .error _ => manager

end Updates

end Httpuv
