import Httpuv.Posix.FileTree
import Httpuv.Static.FileObject
import Httpuv.Static.FileResponses

/-! Requests for what is not there, on a file system that is a tree of directories and
regular files which can all be read. -/
namespace Httpuv

open FileTree

/-- Pathnames as POSIX has them. -/
def posix : Alphabet UInt8 := { slash := 47, dot := 46 }

structure FileData where
  content : Bytes
  mtime : Int
  deriving DecidableEq, Repr

/-- The value on Linux. -/
def ENOTDIR : Int := 20

def errnoOf : Failure → Int
  | .missing => ENOENT
  | .notDirectory => ENOTDIR

def statusOf : Node FileData → FileStatus
  | .directory data => { isDirectory := true, size := data.content.length, mtime := data.mtime }
  | .file data => { isDirectory := false, size := data.content.length, mtime := data.mtime }

/-- A node that has been opened, and how far it has been read. -/
structure OpenNode where
  node : Node FileData
  offset : Nat
  deriving DecidableEq, Repr

section Trees

variable (tree : FileTree.Tree UInt8 FileData) (current : tree.Directory)

/-- The system calls on a tree. -/
@[reducible] def treeFiles : FileSystem OpenNode where
  stat pathname := (tree.resolve posix current pathname).toOption.map statusOf
  openFile pathname :=
    match tree.resolve posix current pathname with
    | .error failure => .error (if errnoOf failure = ENOENT then .notFound else .other)
    | .ok node => .ok { node, offset := 0 }
  fstat fd := some (statusOf fd.node)
  read fd desired :=
    match fd.node with
    | .directory _ => none
    | .file data =>
        let bytes := (data.content.drop fd.offset).take desired
        some (bytes, { fd with offset := fd.offset + bytes.length })

/-- There is a regular file at the pathname. -/
def IsFile (pathname : Bytes) : Prop :=
  ∃ data, tree.resolve posix current pathname = .ok (.file data)

/-- What `initialize` makes of what is at a pathname. -/
def opening :
    Except Failure (Node FileData) → FileDataSourceResult × Option (FileDataSource OpenNode)
  | .error .missing => (.notExist, none)
  | .error .notDirectory => (.error, none)
  | .ok (.directory _) => (.isDir, none)
  | .ok (.file data) =>
      (.ok, some { fd := { node := .file data, offset := 0 }, length := data.content.length })

section Lookups

variable {tree current} {options : StaticPathOptions} {method : Bytes} {headers : RequestHeaders}
  {now : Tm} {pathname : Bytes} {sp : StaticPath} {subpath : Bytes}

theorem initializeFrom_tree : @FileDataSource.initializeFrom OpenNode (treeFiles tree current)
    pathname = opening (tree.resolve posix current (cString pathname)) := by
  unfold FileDataSource.initializeFrom FileSystem.openFile
  dsimp only
  cases tree.resolve posix current (cString pathname) with
  | error failure => cases failure <;> rfl
  | ok node => cases node <;> rfl

theorem isDirectory_tree : @isDirectory OpenNode (treeFiles tree current) pathname = true ↔
    ∃ data, tree.resolve posix current (cString pathname) = .ok (.directory data) := by
  unfold isDirectory FileSystem.stat
  dsimp only
  cases tree.resolve posix current (cString pathname) with
  | error failure => simp [Except.toOption]
  | ok node => cases node <;> simp [Except.toOption, statusOf]

/-- Without a file only a file on the way makes a difference. -/
theorem serveFile_missing [Calendar] [MimeMap] (hFile : ¬ IsFile tree current (cString pathname)) :
    let _ : FileSystem OpenNode := treeFiles tree current
    (serveFile options method headers now pathname : StaticResult (FileDataSource OpenNode)) =
      if tree.resolve posix current (cString pathname) = .error .notDirectory then
        .response (AppAnswer.error_response 500 now)
      else fallThroughOr options 404 now := by
  intro files
  rw [serveFile, initializeFrom_tree]
  cases hResolve : tree.resolve posix current (cString pathname) with
  | error failure => cases failure <;> simp [opening]
  | ok node =>
      cases node with
      | directory data => simp [opening]
      | file data => exact absurd ⟨data, hResolve⟩ hFile

/-- Where a page is asked for, its directory is there. -/
theorem cutOff_servedPath : tree.resolve posix current (cString (@servedPath OpenNode
      (treeFiles tree current) sp subpath)) = .error .notDirectory ↔
    tree.CutOff posix current (cString (sp.path ++ below subpath)) := by
  rw [← Tree.resolve_eq_notDirectory, servedPath]
  split_ifs with hPage
  · obtain ⟨data, hDirectory⟩ := isDirectory_tree.1 hPage.1
    have hName : posix.slash ∉ ascii "index.html" := by decide
    refine iff_of_false ?_ (by simp [hDirectory])
    rw [List.append_assoc]
    change tree.resolve posix current (cString (_ ++ ascii "/index.html")) ≠ _
    rw [cString_page]
    split_ifs
    · simp [hDirectory]
    · exact Tree.resolve_child hDirectory hName
  · rfl

/-- **What is not there is answered as not found**, or left to R, exactly if no regular
file stands on the way to it. -/
theorem missing_file_iff [Calendar] [MimeMap] {manager : StaticPathManager} {head : RequestHead}
    (hAdmitted : Admitted manager method head sp subpath) {indexhtml fall : Bool}
    (hIndex : sp.options.indexhtml = some indexhtml) (hFall : sp.options.fallthrough = some fall) :
    let _ : FileSystem OpenNode := treeFiles tree current
    (¬ IsFile tree current (cString (servedPath OpenNode sp subpath)) →
      (staticFileResponse manager method head now : StaticAnswer (FileDataSource OpenNode)).result =
        if fall then .fallThrough else .response (AppAnswer.error_response 404 now)) ↔
      ¬ tree.CutOff posix current (cString (sp.path ++ below subpath)) := by
  intro files
  have hNotFound : (fallThroughOr sp.options 404 now : StaticResult (FileDataSource OpenNode)) =
      if fall then .fallThrough else .response (AppAnswer.error_response 404 now) := by
    rw [fallThroughOr, hFall]
    cases fall <;> rfl
  rw [staticFileResponse_admitted hAdmitted now, serveLocal_eq hIndex, ← cutOff_servedPath]
  constructor
  · intro h hCut
    have hNone : ¬ IsFile tree current (cString (servedPath OpenNode sp subpath)) := by
      rintro ⟨data, hFile⟩
      rw [hCut] at hFile
      cases hFile
    have hAnswer := h hNone
    rw [serveFile_missing hNone, if_pos hCut] at hAnswer
    cases fall with
    | true => cases hAnswer
    | false =>
        have hStatus : (500 : Int) = 404 :=
          congrArg HttpResponse.statusCode (StaticResult.response.inj hAnswer)
        exact absurd hStatus (by decide)
  · intro hOpen hNone
    rw [serveFile_missing hNone, if_neg hOpen, hNotFound]

end Lookups

end Trees

/-- The directory `/srv` with files in it. -/
def sampleTree (names : List Bytes) : FileTree.Tree UInt8 FileData where
  node location :=
    if location = [] ∨ location = [ascii "srv"] then some (.directory { content := [], mtime := 0 })
    else if location ∈ names.map ([·, ascii "srv"]) then
      some (.file { content := ascii "x", mtime := 1 })
    else none
  root := ⟨_, rfl⟩
  parent name location h := by
    by_cases hTop : location = [] ∨ location = [ascii "srv"]
    · exact ⟨_, if_pos hTop⟩
    · by_cases hFile : name :: location ∈ names.map ([·, ascii "srv"])
      · obtain ⟨file, -, hLocation⟩ := List.mem_map.1 hFile
        exact absurd (Or.inr (List.tail_eq_of_cons_eq hLocation).symm) hTop
      · rw [not_or] at hTop
        rw [if_neg (by simp [hTop.1]), if_neg hFile] at h
        exact absurd rfl h

/-- The directory is looked at from the root. -/
@[reducible] def sampleTreeFiles (names : List Bytes) : FileSystem OpenNode :=
  treeFiles (sampleTree names) (sampleTree names).rootDirectory

/-- A name that is not there. -/
theorem missing_name :
    let _ : FileSystem OpenNode := sampleTreeFiles [ascii "f"]
    let _ : Calendar := ⟨fun _ => .epoch⟩
    let _ : MimeMap := ⟨fun _ => []⟩
    (staticFileResponse sampleStaticPaths (ascii "GET") (sampleHead (ascii "/a/g") []) .epoch :
      StaticAnswer (FileDataSource OpenNode)).result =
        .response (AppAnswer.error_response 404 .epoch) := by
  intro files calendar mime
  obtain ⟨sp, subpath, hAdmitted, hIndex, hFall, hPath⟩ : ∃ sp subpath,
      Admitted sampleStaticPaths (ascii "GET") (sampleHead (ascii "/a/g") []) sp subpath ∧
        sp.options.indexhtml = some true ∧ sp.options.fallthrough = some false ∧
          sp.path ++ below subpath = ascii "/srv/g" :=
    ⟨_, _, ⟨rfl, rfl, rfl, rfl, Or.inl rfl, rfl, rfl⟩, rfl, rfl, by decide +kernel⟩
  have hMissing : (sampleTree [ascii "f"]).resolve posix (sampleTree [ascii "f"]).rootDirectory
      (cString (ascii "/srv/g")) = .error .missing := by
    decide +kernel
  have hServed : servedPath OpenNode sp subpath = ascii "/srv/g" := by
    have hDirectory : isDirectory OpenNode (ascii "/srv/g") = false := by decide +kernel
    simp [servedPath, hPath, hDirectory]
  refine (missing_file_iff hAdmitted hIndex hFall).2 ?_ ?_
  · rw [hPath, ← FileTree.Tree.resolve_eq_notDirectory, hMissing]
    simp
  · rw [hServed, IsFile, hMissing]
    simp

/-- A name behind the one of a file. -/
theorem file_on_the_way :
    let _ : FileSystem OpenNode := sampleTreeFiles [ascii "f"]
    let _ : Calendar := ⟨fun _ => .epoch⟩
    let _ : MimeMap := ⟨fun _ => []⟩
    (∃ sp subpath, Admitted sampleStaticPaths (ascii "GET") (sampleHead (ascii "/a/f/g") []) sp
        subpath ∧ sp.options.fallthrough = some false ∧
        servedPath OpenNode sp subpath = ascii "/srv/f/g") ∧
      ¬ IsFile (sampleTree [ascii "f"]) (sampleTree [ascii "f"]).rootDirectory (ascii "/srv/f/g") ∧
      (staticFileResponse sampleStaticPaths (ascii "GET") (sampleHead (ascii "/a/f/g") []) .epoch :
        StaticAnswer (FileDataSource OpenNode)).result =
          .response (AppAnswer.error_response 500 .epoch) := by
  intro files calendar mime
  have hCut : (sampleTree [ascii "f"]).resolve posix (sampleTree [ascii "f"]).rootDirectory
      (ascii "/srv/f/g") = .error .notDirectory := by
    decide +kernel
  refine ⟨⟨_, _, ⟨rfl, rfl, rfl, rfl, Or.inl rfl, rfl, rfl⟩, rfl, by decide +kernel⟩, ?_, rfl⟩
  rw [IsFile, hCut]
  simp

end Httpuv
