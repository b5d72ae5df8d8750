import Httpuv.Http.DataSource
import Httpuv.Static.Uri

/-! Files on Unix: `FileDataSource`, and what `fs.cpp` says of a pathname. -/
namespace Httpuv

/-- What `stat` and `fstat` report. -/
structure FileStatus where
  isDirectory : Bool
  size : Nat
  mtime : Int
  deriving DecidableEq, Repr

/-- Whether `errno` is `ENOENT`. -/
inductive OpenError where
  | notFound
  | other
  deriving DecidableEq, Repr

/-- The system calls on files. A pathname is what C sees of it, and a descriptor
stands for the rest of the open file. -/
class FileSystem (Descriptor : Type) where
  stat : Bytes → Option FileStatus
  openFile : Bytes → Except OpenError Descriptor
  fstat : Descriptor → Option FileStatus
  read : Descriptor → Nat → Option (Bytes × Descriptor)

inductive FileDataSourceResult where
  | ok
  | notExist
  | isDir
  | error
  deriving DecidableEq, Repr

structure FileDataSource (Descriptor : Type) where
  fd : Descriptor
  length : Nat
  deriving DecidableEq, Repr

section Files

variable {Descriptor : Type} [FileSystem Descriptor]

def isDirectory (Descriptor : Type) [FileSystem Descriptor] (filename : Bytes) : Bool :=
  match FileSystem.stat Descriptor (cString filename) with
  | some sb => sb.isDirectory
  | none => false

namespace FileDataSource

/-- The method `initialize` for a file that is not owned. -/
def initializeFrom (path : Bytes) : FileDataSourceResult × Option (FileDataSource Descriptor) :=
  match FileSystem.openFile (cString path) with
  | .error .notFound => (.notExist, none)
  | .error .other => (.error, none)
  | .ok fd =>
      match FileSystem.fstat fd with
      | none => (.error, none)
      | some info =>
          if info.isDirectory then (.isDir, none) else (.ok, some { fd, length := info.size })

/-- The time of the last change, or 0. -/
def getMtime (source : FileDataSource Descriptor) : Int :=
  match FileSystem.fstat source.fd with
  | some res => res.mtime
  | none => 0

instance : DataSource (FileDataSource Descriptor) where
  size source := source.length
  getData source bytesDesired :=
    if bytesDesired = 0 then some ([], source)
    else
      (FileSystem.read source.fd bytesDesired).map (fun result =>
        (result.1, { source with fd := result.2 }))

end FileDataSource

end Files

/-- What follows the last slash. -/
def basename (path : Bytes) : Bytes := (path.reverse.takeWhile (· ≠ 47)).reverse

/-- What follows the last dot. Where there is none, `find_last_of` gives `npos`,
and the position behind it is the first one. -/
def find_extension (filename : Bytes) : Bytes :=
  match filename.reverse.findIdx? (· == 46) with
  | none => filename
  | some after => if after + 1 = filename.length then [] else filename.drop (filename.length - after)

end Httpuv
