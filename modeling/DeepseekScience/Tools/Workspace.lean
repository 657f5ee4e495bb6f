import DeepseekScience.Lib.Calls
import DeepseekScience.Tools.Router

/-! Workspace access through directory descriptors (`context.rs`). Paths are walked component by
component without following links, and files are replaced through a temporary one. Between two
system calls others may change directory entries, and every call may fail. -/
namespace DeepseekScience.Tools

open Calls

/-! The file system. -/

/-- The bytes of a file: UTF-8 text, or so many other bytes. -/
inductive Content where
  | text (text : Text)
  | binary (size : ℕ)
  deriving DecidableEq

inductive Inode where
  | file (content : Content)
  | dir (entries : List (Text × ℕ))
  | symlink (target : Text)
  | special
  deriving DecidableEq

def Inode.entries : Inode → List (Text × ℕ)
  | .dir entries => entries
  | _ => []

def Inode.mapEntries (f : List (Text × ℕ) → List (Text × ℕ)) : Inode → Inode
  | .dir entries => .dir (f entries)
  | inode => inode

def Inode.content? : Inode → Option Content
  | .file content => some content
  | _ => none

def Inode.isDirectory : Inode → Bool
  | .dir _ => true
  | _ => false

/-- Inodes by their numbers; a directory descriptor is the number of its inode. -/
structure Disk where
  inodes : List Inode

namespace Disk

def entries (d : Disk) (dir : ℕ) : List (Text × ℕ) := (d.inodes[dir]?.map Inode.entries).getD []

def entry (d : Disk) (dir : ℕ) (name : Text) : Option ℕ := (d.entries dir).lookup name

def inode (d : Disk) (dir : ℕ) (name : Text) : Option Inode :=
  (d.entry dir name).bind fun ino => d.inodes[ino]?

def isDir (d : Disk) (ino : ℕ) : Bool := d.inodes[ino]?.any Inode.isDirectory

def modifyEntries (d : Disk) (dir : ℕ) (f : List (Text × ℕ) → List (Text × ℕ)) : Disk :=
  ⟨d.inodes.modify dir (Inode.mapEntries f)⟩

def setEntry (d : Disk) (dir : ℕ) (name : Text) (ino : ℕ) : Disk :=
  d.modifyEntries dir fun entries => (name, ino) :: entries.filter fun e => e.1 != name

def removeEntry (d : Disk) (dir : ℕ) (name : Text) : Disk :=
  d.modifyEntries dir fun entries => entries.filter fun e => e.1 != name

/-- A new inode under a name. -/
def create (d : Disk) (dir : ℕ) (name : Text) (inode : Inode) : Disk :=
  ⟨(d.setEntry dir name d.inodes.length).inodes ++ [inode]⟩

def write (d : Disk) (ino : ℕ) (content : Content) : Disk := ⟨d.inodes.set ino (.file content)⟩

end Disk

/-- What others do to an entry of a directory. -/
inductive Move where
  | put (dir : ℕ) (name : Text) (inode : Inode)
  | link (dir : ℕ) (name : Text) (ino : ℕ)
  | remove (dir : ℕ) (name : Text)

def Disk.move (d : Disk) : Move → Disk
  | .put dir name inode => d.create dir name inode
  | .link dir name ino => d.setEntry dir name ino
  | .remove dir name => d.removeEntry dir name

inductive Errno where
  | noent
  | exist
  | loop
  | notdir
  | isdir
  | notempty
  | other (message : Text)
  deriving DecidableEq

def Errno.message : Errno → Text
  | .noent => "No such file or directory (os error 2)".toList
  | .exist => "File exists (os error 17)".toList
  | .loop => "Too many levels of symbolic links (os error 40)".toList
  | .notdir => "Not a directory (os error 20)".toList
  | .isdir => "Is a directory (os error 21)".toList
  | .notempty => "Directory not empty (os error 39)".toList
  | .other message => message

/-- A failure of a system call; a failed write leaves part of its bytes. -/
structure Fault where
  errno : Errno
  left : Content := .text []

/-- What happens before a system call, and whether the call fails for reasons of its own. -/
structure Turn where
  moves : List Move := []
  fault : Option Fault := none

structure System where
  disk : Disk
  pid : ℕ
  nextTemp : ℕ
  turns : List Turn

/-- A computation with system calls. -/
abbrev SystemCall (ε α : Type) := Call System ε α

/-! System calls. -/

/-- Others move, and then the call fails or takes place. -/
def System.enter (s : System) : Option Fault × System :=
  match s.turns with
  | [] => (none, s)
  | turn :: turns => (turn.fault, { s with disk := turn.moves.foldl Disk.move s.disk, turns := turns })

/-- A call that is decided by the disk that it finds. -/
def systemCall {α : Type} (act : Disk → Except Errno (α × Disk)) : SystemCall Errno α := fun s =>
  match s.enter with
  | (some fault, s) => (.error fault.errno, s)
  | (none, s) =>
    match act s.disk with
    | .ok (a, disk) => (.ok a, { s with disk := disk })
    | .error e => (.error e, s)

/-- `openat` with `O_DIRECTORY | O_NOFOLLOW`. -/
def openDirectory (dir : ℕ) (name : Text) : SystemCall Errno ℕ := systemCall fun d =>
  match d.entry dir name with
  | none => .error .noent
  | some ino =>
    match d.inodes[ino]? with
    | some (.dir _) => .ok (ino, d)
    | some (.symlink _) => .error .loop
    | _ => .error .notdir

/-- `openat` with `O_RDONLY | O_NOFOLLOW`. -/
def openRead (dir : ℕ) (name : Text) : SystemCall Errno ℕ := systemCall fun d =>
  match d.entry dir name with
  | none => .error .noent
  | some ino =>
    match d.inodes[ino]? with
    | none => .error .noent
    | some (.symlink _) => .error .loop
    | some _ => .ok (ino, d)

/-- `fstat`: whether an open inode is a regular file. -/
def isRegular (ino : ℕ) : SystemCall Errno Bool := systemCall fun d =>
  match d.inodes[ino]? with
  | some (.file _) => .ok (true, d)
  | _ => .ok (false, d)

/-- `read` up to the end. -/
def readContent (ino : ℕ) : SystemCall Errno Content := systemCall fun d =>
  match d.inodes[ino]? with
  | some (.file content) => .ok (content, d)
  | _ => .error .isdir

def mkdirat (dir : ℕ) (name : Text) : SystemCall Errno Unit := systemCall fun d =>
  match d.entry dir name with
  | some _ => .error .exist
  | none => .ok ((), d.create dir name (.dir []))

/-- `openat` with `O_CREAT | O_EXCL`. -/
def createExclusive (dir : ℕ) (name : Text) : SystemCall Errno ℕ := systemCall fun d =>
  match d.entry dir name with
  | some _ => .error .exist
  | none => .ok (d.inodes.length, d.create dir name (.file (.text [])))

def writeAll (ino : ℕ) (content : Content) : SystemCall Errno Unit := fun s =>
  match s.enter with
  | (some fault, s) => (.error fault.errno, { s with disk := s.disk.write ino fault.left })
  | (none, s) => (.ok (), { s with disk := s.disk.write ino content })

def unlinkat (dir : ℕ) (name : Text) : SystemCall Errno Unit := systemCall fun d =>
  match d.inode dir name with
  | none => .error .noent
  | some (.dir _) => .error .isdir
  | some _ => .ok ((), d.removeEntry dir name)

/-- `renameat` within one directory. -/
def renameat (dir : ℕ) (source target : Text) : SystemCall Errno Unit := systemCall fun d =>
  match d.entry dir source with
  | none => .error .noent
  | some ino =>
    let renamed := (d.removeEntry dir source).setEntry dir target ino
    if d.entry dir target = some ino then .ok ((), d)
    else
      match d.inode dir target with
      | none => .ok ((), renamed)
      | some (.dir entries) =>
        if !d.isDir ino then .error .isdir
        else if !entries.isEmpty then .error .notempty
        else .ok ((), renamed)
      | some _ => if d.isDir ino then .error .notdir else .ok ((), renamed)

/-! Paths. -/

/-- The components of a relative path below the workspace. -/
def workspaceComponents (rel : Text) (allowEmpty : Bool) : Except ToolError (List Text) :=
  let trimmed := trim rel
  if trimmed.isEmpty then
    if allowEmpty then .ok [] else .error (.pathEscape "empty path".toList)
  else if trimmed.head? = some '/' then .error (.pathEscape rel)
  else
    let components := (trimmed.splitOn '/').filter fun c => !c.isEmpty && c != ".".toList
    if components.contains "..".toList then .error (.pathEscape rel)
    else if components.isEmpty && !allowEmpty then .error (.pathEscape rel)
    else .ok components

/-- A name for a system call. -/
def componentCstring (component : Text) : SystemCall ToolError Text :=
  if component.contains '\x00' then .fail (.invalidArgs "path contains NUL".toList)
  else pure component

def mapWorkspaceIo (path : Text) : Errno → ToolError
  | .noent => .notFound path
  | .loop => .pathEscape path
  | .notdir => .pathEscape path
  | error => .io error.message

def openDirAt (parent : ℕ) (name path : Text) : SystemCall ToolError ℕ := do
  let name ← componentCstring name
  (openDirectory parent name).mapError (mapWorkspaceIo path)

/-- A directory that exists already is as good. -/
def mkdirAt (parent : ℕ) (name : Text) : SystemCall ToolError Unit := do
  let name ← componentCstring name
  match ← (mkdirat parent name).attempt with
  | .ok () => pure ()
  | .error .exist => pure ()
  | .error error => .fail (.io error.message)

/-- The directories on the way; missing ones are made when they may be. -/
def openDirChain (create : Bool) (path : Text) : ℕ → List Text → SystemCall ToolError ℕ
  | current, [] => pure current
  | current, component :: rest => do
    match ← (openDirAt current component path).attempt with
    | .ok next => openDirChain create path next rest
    | .error (.notFound name) =>
      if create then
        mkdirAt current component
        let next ← openDirAt current component path
        openDirChain create path next rest
      else .fail (.notFound name)
    | .error error => .fail error

def openParent (root : ℕ) (components : List Text) (create : Bool) (path : Text) :
    SystemCall ToolError (ℕ × Text) :=
  match components.getLast? with
  | none => .fail (.pathEscape path)
  | some name => do
    let parent ← openDirChain create path root components.dropLast
    pure (parent, name)

/-! Files. -/

def openRegularAt (parent : ℕ) (name path : Text) : SystemCall ToolError ℕ := do
  let name ← componentCstring name
  let file ← (openRead parent name).mapError (mapWorkspaceIo path)
  let regular ← (isRegular file).mapError fun e => .io e.message
  if regular then pure file
  else .fail (.invalidArgs (path ++ " is not a regular file".toList))

def openFile (root : ℕ) (rel : Text) : SystemCall ToolError ℕ := do
  let components ← .ofExcept (workspaceComponents rel false)
  let parent ← openParent root components false rel
  openRegularAt parent.1 parent.2 rel

def readToString (ino : ℕ) : SystemCall ToolError Text := do
  match ← (readContent ino).mapError fun e => ToolError.io e.message with
  | .text text => pure text
  | .binary _ => .fail (.io "stream did not contain valid UTF-8".toList)

def tempName (pid sequence : ℕ) : Text :=
  ".dss-tmp-".toList ++ natText pid ++ '-' :: natText sequence

/-- The next name for a temporary file. -/
def nextTempName : SystemCall ToolError Text := fun s =>
  (.ok (tempName s.pid s.nextTemp), { s with nextTemp := s.nextTemp + 1 })

/-- The temporary file goes; whether that fails is not looked at. -/
def cleanUp (parent : ℕ) (temp : Text) : SystemCall ToolError Unit := fun s =>
  (.ok (), (unlinkat parent temp s).2)

/-- The attempts of `atomic_write_at` to find a temporary name that is free. -/
def writeAttempts (parent : ℕ) (name : Text) (content : Content) (path : Text) :
    ℕ → SystemCall ToolError Unit
  | 0 => .fail (.io Errno.exist.message)
  | attempts + 1 => do
    let temp ← nextTempName
    match ← (createExclusive parent temp).attempt with
    | .error .exist => writeAttempts parent name content path attempts
    | .error error => .fail (mapWorkspaceIo path error)
    | .ok ino =>
      match ← (writeAll ino content).attempt with
      | .error error =>
        cleanUp parent temp
        .fail (.io error.message)
      | .ok () =>
        match ← (renameat parent temp name).attempt with
        | .ok () => pure ()
        | .error error =>
          cleanUp parent temp
          .fail (mapWorkspaceIo path error)

/-- The file is written under a temporary name and takes the place of the entry by renaming; the
temporary file goes when something fails. -/
def atomicWriteAt (parent : ℕ) (name : Text) (content : Content) (path : Text) :
    SystemCall ToolError Unit := do
  let name ← componentCstring name
  writeAttempts parent name content path 64

def atomicWrite (root : ℕ) (rel : Text) (content : Content) : SystemCall ToolError Unit := do
  let components ← .ofExcept (workspaceComponents rel false)
  let parent ← openParent root components true rel
  atomicWriteAt parent.1 parent.2 content rel

end DeepseekScience.Tools
