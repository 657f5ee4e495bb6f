import Mathlib
import DeepseekScience.Tools.Undisturbed

/-! `SecureWorkspace` with a log of its system calls: which directory each of them is given, and
the disk that it finds and leaves. Files are opened, replaced, removed, renamed and listed through
directory descriptors, while others move entries between any two calls. -/
namespace DeepseekScience.Tools.Secure

open Calls

/-- A system call with the descriptors and names that it is given. -/
inductive SysOp where
  | openDirectory (dir : ℕ) (name : Text)
  | openRead (dir : ℕ) (name : Text)
  | fstat (ino : ℕ)
  | fstatat (dir : ℕ) (name : Text)
  | readdir (dir : ℕ)
  | mkdirat (dir : ℕ) (name : Text)
  | createExclusive (dir : ℕ) (name : Text)
  | writeAll (ino : ℕ)
  | unlinkat (dir : ℕ) (name : Text)
  | renameat (fromDir : ℕ) (source : Text) (toDir : ℕ) (target : Text)
  deriving DecidableEq

/-- The directories in which a call reads or changes entries. -/
def SysOp.parents : SysOp → List ℕ
  | .openDirectory dir _ => [dir]
  | .openRead dir _ => [dir]
  | .fstat _ => []
  | .fstatat dir _ => [dir]
  | .readdir dir => [dir]
  | .mkdirat dir _ => [dir]
  | .createExclusive dir _ => [dir]
  | .writeAll _ => []
  | .unlinkat dir _ => [dir]
  | .renameat fromDir _ toDir _ => [fromDir, toDir]

/-- The entries that a call may change. -/
def SysOp.targets : SysOp → List (ℕ × Text)
  | .mkdirat dir name => [(dir, name)]
  | .createExclusive dir name => [(dir, name)]
  | .unlinkat dir name => [(dir, name)]
  | .renameat fromDir source toDir target => [(fromDir, source), (toDir, target)]
  | _ => []

/-- One call: the disk behind the moves of the others, the disk that it leaves, whether it has
failed for reasons of its own, and the inode that it has opened. -/
structure SysEvent where
  op : SysOp
  before : Disk
  after : Disk
  faulted : Bool
  opened : Option ℕ

structure Logged where
  system : System
  log : List SysEvent := []

/-- A computation whose system calls are logged. -/
abbrev LoggedCall (ε α : Type) := Call Logged ε α

/-- A computation without system calls. -/
def silent {ε α : Type} (x : SystemCall ε α) : LoggedCall ε α := fun t =>
  ((x t.system).1, { t with system := (x t.system).2 })

/-- What is logged of a call. `opened` is the descriptor in its result. -/
def eventOf {α : Type} (op : SysOp) (opened : α → Option ℕ) (x : SystemCall Errno α)
    (s : System) : SysEvent where
  op := op
  before := s.enter.2.disk
  after := (x s).2.disk
  faulted := s.enter.1.isSome
  opened := (x s).1.toOption.bind opened

def logged {α : Type} (op : SysOp) (opened : α → Option ℕ) (x : SystemCall Errno α) :
    LoggedCall Errno α := fun t =>
  ((x t.system).1,
    { system := (x t.system).2, log := t.log ++ [eventOf op opened x t.system] })

section
/-! The system calls that are not there yet. -/

/-- `fstatat` with `AT_SYMLINK_NOFOLLOW`. -/
def fstatat (dir : ℕ) (name : Text) : SystemCall Errno Inode := systemCall fun d =>
  match d.inode dir name with
  | none => .error .noent
  | some inode => .ok (inode, d)

/-- `openat` of `.`, and the names of an open directory. -/
def readdir (dir : ℕ) : SystemCall Errno (List Text) := systemCall fun d =>
  .ok ((d.entries dir).map Prod.fst, d)

/-- The disk behind a renaming. -/
def renameOn (fromDir : ℕ) (source : Text) (toDir : ℕ) (target : Text) (d : Disk) :
    Except Errno (Unit × Disk) :=
  match d.entry fromDir source with
  | none => .error .noent
  | some ino =>
    let renamed := (d.removeEntry fromDir source).setEntry toDir target ino
    if d.entry toDir target = some ino then .ok ((), d)
    else
      match d.inode toDir target with
      | none => .ok ((), renamed)
      | some (.dir entries) =>
        if !d.isDir ino then .error .isdir
        else if !entries.isEmpty then .error .notempty
        else .ok ((), renamed)
      | some _ => if d.isDir ino then .error .notdir else .ok ((), renamed)

/-- `renameat` between two directories. -/
def renameBetween (fromDir : ℕ) (source : Text) (toDir : ℕ) (target : Text) :
    SystemCall Errno Unit := systemCall (renameOn fromDir source toDir target)

theorem renameBetween_self (dir : ℕ) (source target : Text) :
    renameBetween dir source dir target = renameat dir source target := rfl

end

section
/-! Directories. -/

def componentCstring (component : Text) : LoggedCall ToolError Text :=
  silent (Tools.componentCstring component)

def openDirAt (parent : ℕ) (name path : Text) : LoggedCall ToolError ℕ := do
  let name ← componentCstring name
  (logged (.openDirectory parent name) some (openDirectory parent name)).mapError
    (mapWorkspaceIo path)

def mkdirAt (parent : ℕ) (name : Text) : LoggedCall ToolError Unit := do
  let name ← componentCstring name
  match ← (logged (.mkdirat parent name) (fun _ => none) (mkdirat parent name)).attempt with
  | .ok () => pure ()
  | .error .exist => pure ()
  | .error error => .fail (.io error.message)

def openDirChain (create : Bool) (path : Text) : ℕ → List Text → LoggedCall ToolError ℕ
  | current, [] => pure current
  | current, component :: rest => do
    match ← (openDirAt current component path).attempt with
    | .ok next => openDirChain create path next rest
    | .error (.notFound name) =>
      if create then
        mkdirAt current component
        let next ← openDirAt current component path
        openDirChain create path next rest
      else .fail (.notFound name)
    | .error error => .fail error

def openParent (root : ℕ) (components : List Text) (create : Bool) (path : Text) :
    LoggedCall ToolError (ℕ × Text) :=
  match components.getLast? with
  | none => .fail (.pathEscape path)
  | some name => do
    let parent ← openDirChain create path root components.dropLast
    pure (parent, name)

end

section
/-! Files. -/

def openRegularAt (parent : ℕ) (name path : Text) : LoggedCall ToolError ℕ := do
  let name ← componentCstring name
  let file ← (logged (.openRead parent name) some (openRead parent name)).mapError
    (mapWorkspaceIo path)
  let regular ← (logged (.fstat file) (fun _ => none) (isRegular file)).mapError
    fun e => .io e.message
  if regular then pure file
  else .fail (.invalidArgs (path ++ " is not a regular file".toList))

def openFile (root : ℕ) (rel : Text) : LoggedCall ToolError ℕ := do
  let components ← .ofExcept (workspaceComponents rel false)
  let parent ← openParent root components false rel
  openRegularAt parent.1 parent.2 rel

def unlinkFileAt (parent : ℕ) (name path : Text) : LoggedCall ToolError Unit := do
  let name ← componentCstring name
  (logged (.unlinkat parent name) (fun _ => none) (unlinkat parent name)).mapError
    (mapWorkspaceIo path)

def ensureRegularEntry (parent : ℕ) (name path : Text) : LoggedCall ToolError Unit := do
  let _ ← openRegularAt parent name path
  pure ()

def removeFile (root : ℕ) (rel : Text) : LoggedCall ToolError Unit := do
  let components ← .ofExcept (workspaceComponents rel false)
  let parent ← openParent root components false rel
  ensureRegularEntry parent.1 parent.2 rel
  unlinkFileAt parent.1 parent.2 rel

def clearOutputFile (root : ℕ) (rel : Text) : LoggedCall ToolError Unit := do
  let components ← .ofExcept (workspaceComponents rel false)
  let parent ← openParent root components false rel
  let name ← componentCstring parent.2
  match ← (logged (.fstatat parent.1 name) (fun _ => none) (fstatat parent.1 name)).attempt with
  | .ok (.dir _) => .fail (.invalidArgs (rel ++ " is a directory, not an output file".toList))
  | .ok _ => unlinkFileAt parent.1 parent.2 rel
  | .error .noent => pure ()
  | .error error => .fail (.io error.message)

def renameFileAt (fromParent : ℕ) (fromName : Text) (toParent : ℕ) (toName path : Text) :
    LoggedCall ToolError Unit := do
  let fromName ← componentCstring fromName
  let toName ← componentCstring toName
  (logged (.renameat fromParent fromName toParent toName) (fun _ => none)
    (renameBetween fromParent fromName toParent toName)).mapError (mapWorkspaceIo path)

def renameFile (root : ℕ) (source target : Text) : LoggedCall ToolError Unit := do
  let fromComponents ← .ofExcept (workspaceComponents source false)
  let toComponents ← .ofExcept (workspaceComponents target false)
  let fromParent ← openParent root fromComponents false source
  let toParent ← openParent root toComponents true target
  let _ ← openRegularAt fromParent.1 fromParent.2 source
  renameFileAt fromParent.1 fromParent.2 toParent.1 toParent.2 source

/-- The temporary file goes; whether that fails is not looked at. -/
def cleanUp (parent : ℕ) (temp : Text) : LoggedCall ToolError Unit := do
  let _ ← (logged (.unlinkat parent temp) (fun _ => none) (unlinkat parent temp)).attempt
  pure ()

def writeAttempts (parent : ℕ) (name : Text) (content : Content) (path : Text) :
    ℕ → LoggedCall ToolError Unit
  | 0 => .fail (.io Errno.exist.message)
  | attempts + 1 => do
    let temp ← silent nextTempName
    match ← (logged (.createExclusive parent temp) some (createExclusive parent temp)).attempt with
    | .error .exist => writeAttempts parent name content path attempts
    | .error error => .fail (mapWorkspaceIo path error)
    | .ok ino =>
      match ← (logged (.writeAll ino) (fun _ => none) (writeAll ino content)).attempt with
      | .error error =>
        cleanUp parent temp
        .fail (.io error.message)
      | .ok () =>
        match ← (logged (.renameat parent temp parent name) (fun _ => none)
          (renameBetween parent temp parent name)).attempt with
        | .ok () => pure ()
        | .error error =>
          cleanUp parent temp
          .fail (mapWorkspaceIo path error)

def atomicWriteAt (parent : ℕ) (name : Text) (content : Content) (path : Text) :
    LoggedCall ToolError Unit := do
  let name ← componentCstring name
  writeAttempts parent name content path 64

def atomicWrite (root : ℕ) (rel : Text) (content : Content) : LoggedCall ToolError Unit := do
  let components ← .ofExcept (workspaceComponents rel false)
  let parent ← openParent root components true rel
  atomicWriteAt parent.1 parent.2 content rel

end

section
/-! Listings. -/

structure WorkspaceEntry where
  path : Text
  name : Text
  size : ℕ
  isDir : Bool
  deriving DecidableEq

def skip : List Text :=
  [".git".toList, ".venv".toList, "__pycache__".toList, "node_modules".toList, "target".toList]

def isSkipped (name : Text) : Bool :=
  skip.contains name || ".dss-sandbox-".toList.isPrefixOf name || ".dss-tmp-".toList.isPrefixOf name

/-- `Path::join` with one name. -/
def joinPath (pre name : Text) : Text := if pre.isEmpty then name else pre ++ '/' :: name

def displayPath (path : Text) : Text := path.map fun c => if c = '\\' then '/' else c

def sizeOf : Content → ℕ
  | .text text => byteLen text
  | .binary size => size

def directoryNames (dir : ℕ) : LoggedCall ToolError (List Text) := do
  let names ← (logged (.readdir dir) (fun _ => none) (readdir dir)).mapError
    fun e => ToolError.io e.message
  pure (names.mergeSort fun a b => decide (a ≤ b))

/-- `below` lists a directory on the next level, where there is one left. -/
def walkNames (below : Option (ℕ → Text → List WorkspaceEntry →
    LoggedCall ToolError (List WorkspaceEntry))) (dir : ℕ) (pre : Text) :
    List Text → List WorkspaceEntry → LoggedCall ToolError (List WorkspaceEntry)
  | [], out => pure out
  | name :: rest, out =>
    if isSkipped name then walkNames below dir pre rest out
    else do
      let cname ← componentCstring name
      match ← (logged (.fstatat dir cname) (fun _ => none) (fstatat dir cname)).attempt with
      | .error .noent => walkNames below dir pre rest out
      | .error error => .fail (.io error.message)
      | .ok (.dir _) =>
        let relative := joinPath pre name
        let out := out ++ [{ path := displayPath relative, name := name, size := 0, isDir := true }]
        match below with
        | none => walkNames below dir pre rest out
        | some below =>
          match ← (openDirAt dir name relative).attempt with
          | .ok child => do
            let out ← below child relative out
            walkNames (some below) dir pre rest out
          | .error (.notFound _) => walkNames (some below) dir pre rest out
          | .error (.pathEscape _) => walkNames (some below) dir pre rest out
          | .error error => .fail error
      | .ok (.file content) =>
        let relative := joinPath pre name
        walkNames below dir pre rest
          (out ++ [{ path := displayPath relative, name := name, size := sizeOf content,
                     isDir := false }])
      | .ok _ => walkNames below dir pre rest out

/-- `levels` is how much deeper than this directory the listing goes. -/
def walkDirectory : ℕ → ℕ → Text → List WorkspaceEntry →
    LoggedCall ToolError (List WorkspaceEntry)
  | 0, dir, pre, out => do walkNames none dir pre (← directoryNames dir) out
  | levels + 1, dir, pre, out => do
    walkNames (some (walkDirectory levels)) dir pre (← directoryNames dir) out

def list (root : ℕ) (rel : Option Text) (maxDepth : ℕ) :
    LoggedCall ToolError (List WorkspaceEntry) := do
  let components ←
    match rel with
    | none => pure []
    | some value => .ofExcept (workspaceComponents value true)
  let start ← openDirChain false (rel.getD []) root components
  let entries ← walkDirectory maxDepth start [] []
  pure (entries.mergeSort fun a b => decide (a.path ≤ b.path))

end

/-- The operations of the workspace. -/
inductive WorkspaceOp where
  | openFile (rel : Text)
  | atomicWrite (rel : Text) (content : Content)
  | removeFile (rel : Text)
  | clearOutputFile (rel : Text)
  | renameFile (source target : Text)
  | list (rel : Option Text) (maxDepth : ℕ)

def discard {α : Type} (x : LoggedCall ToolError α) : LoggedCall ToolError Unit := do
  let _ ← x
  pure ()

def WorkspaceOp.run (root : ℕ) : WorkspaceOp → LoggedCall ToolError Unit
  | .openFile rel => discard (Secure.openFile root rel)
  | .atomicWrite rel content => Secure.atomicWrite root rel content
  | .removeFile rel => Secure.removeFile root rel
  | .clearOutputFile rel => Secure.clearOutputFile root rel
  | .renameFile source target => Secure.renameFile root source target
  | .list rel maxDepth => discard (Secure.list root rel maxDepth)

section
/-! The log changes nothing: the operations do what they do without one. -/

variable {ε ε₂ α β : Type} {x : LoggedCall ε α} {y : SystemCall ε α}

def Erases (x : LoggedCall ε α) (y : SystemCall ε α) : Prop :=
  ∀ t, (x t).1 = (y t.system).1 ∧ (x t).2.system = (y t.system).2

theorem erases_pure (a : α) : Erases (pure a : LoggedCall ε α) (pure a) := fun _ => ⟨rfl, rfl⟩

theorem erases_fail (e : ε) : Erases (Call.fail e : LoggedCall ε α) (Call.fail e) :=
  fun _ => ⟨rfl, rfl⟩

theorem erases_ofExcept (r : Except ε α) :
    Erases (Call.ofExcept r : LoggedCall ε α) (Call.ofExcept r) := fun _ => ⟨rfl, rfl⟩

theorem erases_silent (y : SystemCall ε α) : Erases (silent y) y := fun _ => ⟨rfl, rfl⟩

theorem erases_logged (op : SysOp) (opened : α → Option ℕ) (y : SystemCall Errno α) :
    Erases (logged op opened y) y := fun _ => ⟨rfl, rfl⟩

theorem erases_bind {f : α → LoggedCall ε β} {g : α → SystemCall ε β} (hx : Erases x y)
    (hf : ∀ a, Erases (f a) (g a)) : Erases (x >>= f) (y >>= g) := by
  intro t
  obtain ⟨hresult, hsystem⟩ := hx t
  simp only [Bind.bind]
  cases hrun : x t with
  | mk r t' =>
    cases hrun' : y t.system with
    | mk r' s' =>
      simp only [hrun, hrun'] at hresult hsystem
      subst hresult hsystem
      cases r with
      | error e => exact ⟨rfl, rfl⟩
      | ok a => exact hf a t'

theorem erases_attempt (hx : Erases x y) :
    Erases (x.attempt : LoggedCall ε₂ (Except ε α)) y.attempt := by
  intro t
  obtain ⟨hresult, hsystem⟩ := hx t
  simp [Call.attempt, hresult, hsystem]

theorem erases_mapError {f : ε → ε₂} (hx : Erases x y) :
    Erases (x.mapError f) (y.mapError f) := by
  intro t
  obtain ⟨hresult, hsystem⟩ := hx t
  simp [Call.mapError, hresult, hsystem]

theorem erases_openDirAt (dir : ℕ) (name path : Text) :
    Erases (openDirAt dir name path) (Tools.openDirAt dir name path) :=
  erases_bind (erases_silent _) fun _ => erases_mapError (erases_logged _ _ _)

theorem erases_mkdirAt (dir : ℕ) (name : Text) :
    Erases (mkdirAt dir name) (Tools.mkdirAt dir name) := by
  apply erases_bind (erases_silent _)
  intro name
  apply erases_bind (erases_attempt (erases_logged _ _ _))
  intro r
  cases r with
  | ok _ => exact erases_pure _
  | error e =>
    cases e with
    | exist => exact erases_pure _
    | _ => exact erases_fail _

theorem erases_openDirChain (create : Bool) (path : Text) (dir : ℕ) (components : List Text) :
    Erases (openDirChain create path dir components)
      (Tools.openDirChain create path dir components) := by
  induction components generalizing dir with
  | nil => exact erases_pure dir
  | cons component rest ih =>
    apply erases_bind (erases_attempt (erases_openDirAt dir component path))
    intro r
    cases r with
    | ok next => exact ih next
    | error e =>
      cases e with
      | notFound name =>
        dsimp only
        split_ifs
        · apply erases_bind (erases_mkdirAt dir component)
          intro _
          exact erases_bind (erases_openDirAt dir component path) ih
        · exact erases_fail _
      | _ => exact erases_fail _

theorem erases_openParent (root : ℕ) (components : List Text) (create : Bool) (path : Text) :
    Erases (openParent root components create path)
      (Tools.openParent root components create path) := by
  unfold openParent Tools.openParent
  cases components.getLast? with
  | none => exact erases_fail _
  | some name =>
    exact erases_bind (erases_openDirChain create path root _) fun _ => erases_pure _

theorem erases_openFile (root : ℕ) (rel : Text) :
    Erases (openFile root rel) (Tools.openFile root rel) := by
  apply erases_bind (erases_ofExcept _)
  intro components
  apply erases_bind (erases_openParent root components false rel)
  intro parent
  apply erases_bind (erases_silent _)
  intro name
  apply erases_bind (erases_mapError (erases_logged _ _ _))
  intro file
  apply erases_bind (erases_mapError (erases_logged _ _ _))
  intro regular
  split_ifs
  · exact erases_pure _
  · exact erases_fail _

theorem erases_cleanUp (dir : ℕ) (temp : Text) :
    Erases (cleanUp dir temp) (Tools.cleanUp dir temp) := fun _ => ⟨rfl, rfl⟩

theorem erases_writeAttempts (dir : ℕ) (name : Text) (content : Content) (path : Text)
    (attempts : ℕ) : Erases (writeAttempts dir name content path attempts)
      (Tools.writeAttempts dir name content path attempts) := by
  induction attempts with
  | zero => exact erases_fail _
  | succ attempts ih =>
    apply erases_bind (erases_silent _)
    intro temp
    apply erases_bind (erases_attempt (erases_logged _ _ _))
    intro r
    cases r with
    | error e =>
      cases e with
      | exist => exact ih
      | _ => exact erases_fail _
    | ok ino =>
      apply erases_bind (erases_attempt (erases_logged _ _ _))
      intro r
      cases r with
      | error e => exact erases_bind (erases_cleanUp dir temp) fun _ => erases_fail _
      | ok _ =>
        dsimp only
        rw [renameBetween_self]
        apply erases_bind (erases_attempt (erases_logged _ _ _))
        intro r
        cases r with
        | ok _ => exact erases_pure _
        | error e => exact erases_bind (erases_cleanUp dir temp) fun _ => erases_fail _

theorem erases_atomicWrite (root : ℕ) (rel : Text) (content : Content) :
    Erases (atomicWrite root rel content) (Tools.atomicWrite root rel content) := by
  apply erases_bind (erases_ofExcept _)
  intro components
  apply erases_bind (erases_openParent root components true rel)
  intro parent
  apply erases_bind (erases_silent _)
  exact fun name => erases_writeAttempts parent.1 name content rel 64

end
end DeepseekScience.Tools.Secure
