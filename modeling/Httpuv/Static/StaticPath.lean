import Httpuv.Paths.Segments
import Httpuv.Static.Uri

/-! Static paths, their options, and the search for the one that matches a URL. -/
namespace Httpuv

/-- An option that is not set is inherited. -/
structure StaticPathOptions where
  indexhtml : Option Bool
  fallthrough : Option Bool
  html_charset : Option Bytes
  headers : Option ResponseHeaders
  validation : Option (List Bytes)
  exclude : Option Bool
  deriving DecidableEq, Repr

namespace StaticPathOptions

/-- Values in `a` take precedence. -/
def merge (a b : StaticPathOptions) : StaticPathOptions where
  indexhtml := a.indexhtml.or b.indexhtml
  fallthrough := a.fallthrough.or b.fallthrough
  html_charset := a.html_charset.or b.html_charset
  headers := a.headers.or b.headers
  validation := a.validation.or b.validation
  exclude := a.exclude.or b.exclude

/-- Goes over all bytes also when it has found a difference. -/
def constant_time_compare (a b : Bytes) : Bool :=
  a.length == b.length &&
    (a.zip b).foldl (fun result bytes => result ||| (bytes.1 ^^^ bytes.2)) 0 == 0

/-- The pattern is `==` with a name and a value, or empty. Any other one, and a
missing one, throws or is read beyond its end. -/
def validateRequestHeaders (options : StaticPathOptions) (headers : RequestHeaders) : Option Bool :=
  match options.validation with
  | none => none
  | some [] => some true
  | some [operator, name, value] =>
      if operator = ascii "==" then
        match headers.find name with
        | some actual => some (constant_time_compare actual value)
        | none => some false
      else none
  | some _ => none

end StaticPathOptions

/-- A directory or file to serve, without a trailing slash, or an excluded path.
The path comes from R, whose strings hold no NUL. -/
structure StaticPath where
  path : Bytes
  options : StaticPathOptions
  excluded_or_some : path ≠ [] ∨ options.exclude = some true
  no_trailing_slash : path.getLast? ≠ some 47
  terminated : 0 ∉ path
  deriving DecidableEq

/-- A name as `StaticPathManager` takes it from R: a string that is not empty. -/
abbrev PathName := {name : Bytes // name ≠ [] ∧ 0 ∉ name}

structure StaticPathManager where
  path_map : List (PathName × StaticPath)
  options : StaticPathOptions

namespace StaticPathManager

/-- The options of the entry are merged with the overall ones. -/
def get (manager : StaticPathManager) (path : Bytes) : Option StaticPath :=
  (manager.path_map.find? (fun entry => entry.1.1 == path)).map (fun entry =>
    { entry.2 with
      options := entry.2.options.merge manager.options
      excluded_or_some := by
        rcases entry.2.excluded_or_some with hPath | hExclude
        · exact Or.inl hPath
        · exact Or.inr (by simp [StaticPathOptions.merge, hExclude]) })

/-- An existing name keeps its place. -/
def set (manager : StaticPathManager) (path : PathName) (sp : StaticPath) : StaticPathManager :=
  if manager.path_map.any (fun entry => entry.1 == path) then
    { manager with
      path_map := manager.path_map.map (fun entry =>
        if entry.1 = path then (entry.1, sp) else entry) }
  else { manager with path_map := manager.path_map ++ [(path, sp)] }

def remove (manager : StaticPathManager) (path : Bytes) : StaticPathManager :=
  { manager with path_map := manager.path_map.filter (fun entry => entry.1.1 != path) }

/-- What has been found: the name, its static path, and what follows the name. -/
structure Match where
  pre_slash : Bytes
  sp : StaticPath
  post_slash : Bytes

/-- The check of `pre_slash` in the loop. -/
def found (manager : StaticPathManager) (pre_slash post_slash : Bytes) : Option Match :=
  (manager.get pre_slash).map (fun sp => { pre_slash, sp, post_slash })

/-- The part before the slash at `found_idx`; the leading slash stands for itself. -/
def preSlash (path : Bytes) (found_idx : Nat) : Bytes :=
  if path.take found_idx = [] then [47] else path.take found_idx

/-- The loop once nothing has been found from `found_idx` on. `find_last_of`
goes down from the position before it. -/
def matchBefore (manager : StaticPathManager) (path : Bytes) : Nat → Option Match
  | 0 => none
  | found_idx + 1 =>
      if path[found_idx]? = some 47 then
        match manager.found (preSlash path found_idx) (path.drop (found_idx + 1)) with
        | some result => some result
        | none => manager.matchBefore path found_idx
      else manager.matchBefore path found_idx

/-- The loop: the whole path is tried first. -/
def matchPath (manager : StaticPathManager) (path : Bytes) : Option Match :=
  match manager.found path [] with
  | some result => some result
  | none => manager.matchBefore path (path.length + 1)

/-- One trailing slash does not count, except in the path that is just a slash. -/
def stripTrailingSlash (path : Bytes) : Bytes :=
  if 1 < path.length ∧ path.getLast? = some 47 then path.dropLast else path

/-- The match with the name it was found under. -/
def matchName (manager : StaticPathManager) (url_path : Bytes) : Option Match :=
  if url_path = [] then none
  else if 92 ∈ url_path then none
  else manager.matchPath (stripTrailingSlash url_path)

def matchStaticPath (manager : StaticPathManager) (url_path : Bytes) :
    Option (StaticPath × Bytes) :=
  (manager.matchName url_path).map (fun result => (result.sp, result.post_slash))

end StaticPathManager

end Httpuv
