import DeepseekScience.Lib.Runs
import DeepseekScience.Tools.SecureWorkspace

/-! The operations of the workspace stay in directories that were reached from its root through
real directory entries, whatever others move in the meantime. -/
namespace DeepseekScience.Tools.Secure

open Calls

section
/-! What a call may do. -/

/-- A directory that was opened on the way down from the root, each step of which was a real
directory entry when it was taken. -/
inductive Reached (root : ℕ) : List SysEvent → ℕ → Prop
  | root {log : List SysEvent} : Reached root log root
  | step {before after : List SysEvent} {event : SysEvent} {dir ino : ℕ} {name : Text}
    (parent : Reached root before dir) (opens : event.op = .openDirectory dir name)
    (opened : event.opened = some ino) (real : event.before.step dir name = some ino) :
    Reached root (before ++ event :: after) ino

/-- A file that the operation has created itself. -/
def Created (log : List SysEvent) (ino : ℕ) : Prop :=
  ∃ event ∈ log, event.opened = some ino ∧ ∃ dir name, event.op = .createExclusive dir name

/-- An inode, without the entries that it has. -/
def bare (inode : Inode) : Inode := inode.mapEntries fun _ => []

/-- The inode that a call opens is the one of the entry itself, and not a link. -/
def SysOp.OpensAt (d : Disk) (ino : ℕ) : SysOp → Prop
  | .openDirectory dir name => d.step dir name = some ino
  | .openRead dir name => d.entry dir name = some ino ∧
      ∀ target, d.inodes[ino]? ≠ some (.symlink target)
  | .createExclusive dir name => d.entry dir name = none ∧ ino = d.inodes.length
  | _ => False

/-- A call follows no link: it opens what its entry names, and changes nothing but the entries that
it names, and the file that it writes. -/
structure SysEvent.Exact (event : SysEvent) : Prop where
  opened : ∀ ino, event.opened = some ino → event.op.OpensAt event.before ino
  entries : ∀ dir name, (dir, name) ∉ event.op.targets → event.op ≠ .writeAll dir →
    event.before.isDir dir = true → event.after.entry dir name = event.before.entry dir name
  inodes : ∀ ino, ino < event.before.inodes.length → event.op ≠ .writeAll ino →
    event.after.inodes[ino]?.map bare = event.before.inodes[ino]?.map bare

/-- A call behind a log: its directories were reached, and the file that it writes was created. -/
structure Allowed (root : ℕ) (log : List SysEvent) (event : SysEvent) : Prop where
  parents : ∀ dir ∈ event.op.parents, Reached root log dir
  written : ∀ ino, event.op = .writeAll ino → Created log ino
  exact : event.Exact

def Confined (root : ℕ) (log : List SysEvent) : Prop :=
  ∀ before event after, log = before ++ event :: after → Allowed root before event

variable {root : ℕ} {log : List SysEvent}

theorem Reached.append {dir : ℕ} (h : Reached root log dir) (more : List SysEvent) :
    Reached root (log ++ more) dir := by
  cases h with
  | root => exact .root
  | step parent opens opened real =>
    rw [List.append_assoc]
    exact .step parent opens opened real

theorem Created.append {ino : ℕ} (h : Created log ino) (more : List SysEvent) :
    Created (log ++ more) ino := by
  obtain ⟨event, hmem, hevent⟩ := h
  exact ⟨event, List.mem_append_left more hmem, hevent⟩

theorem Confined.concat (h : Confined root log) {event : SysEvent}
    (hevent : Allowed root log event) : Confined root (log ++ [event]) := by
  intro before other after hsplit
  obtain ⟨-, rfl, rfl⟩ | ⟨rest, -, rfl⟩ := Runs.concat_eq_split.mp hsplit
  · exact hevent
  · exact h before other rest rfl

end

section
/-! Each system call is exact. -/

variable {α : Type} {op : SysOp} {opened : α → Option ℕ}

theorem bare_mapEntries (f : List (Text × ℕ) → List (Text × ℕ)) (inode : Inode) :
    bare (inode.mapEntries f) = bare inode := by
  cases inode <;> rfl

theorem bare_modifyEntries (d : Disk) (dir : ℕ) (f : List (Text × ℕ) → List (Text × ℕ))
    (ino : ℕ) : (d.modifyEntries dir f).inodes[ino]?.map bare = d.inodes[ino]?.map bare := by
  rw [Disk.inodes_modifyEntries, Option.map_map]
  congr 1
  funext inode
  simp only [Function.comp_apply]
  split_ifs
  · exact bare_mapEntries f inode
  · rfl

/-- A call that is decided by the disk is exact if it is wherever it takes place. -/
theorem exact_systemCall {act : Disk → Except Errno (α × Disk)}
    (hopened : ∀ d a d' ino, act d = .ok (a, d') → opened a = some ino → op.OpensAt d ino)
    (hentries : ∀ d a d' dir name, act d = .ok (a, d') → (dir, name) ∉ op.targets →
      d.isDir dir = true → d'.entry dir name = d.entry dir name)
    (hinodes : ∀ d a d' ino, act d = .ok (a, d') → ino < d.inodes.length →
      d'.inodes[ino]?.map bare = d.inodes[ino]?.map bare) (s : System) :
    (eventOf op opened (systemCall act) s).Exact := by
  cases henter : s.enter with
  | mk fault s' =>
    cases fault with
    | some fault =>
      have hevent : eventOf op opened (systemCall act) s =
          ⟨op, s'.disk, s'.disk, true, none⟩ := by
        simp [eventOf, systemCall, henter, Except.toOption]
      rw [hevent]
      exact ⟨by simp, fun _ _ _ _ _ => rfl, fun _ _ _ => rfl⟩
    | none =>
      cases hact : act s'.disk with
      | error e =>
        have hevent : eventOf op opened (systemCall act) s =
            ⟨op, s'.disk, s'.disk, false, none⟩ := by
          simp [eventOf, systemCall, henter, hact, Except.toOption]
        rw [hevent]
        exact ⟨by simp, fun _ _ _ _ _ => rfl, fun _ _ _ => rfl⟩
      | ok result =>
        obtain ⟨a, d'⟩ := result
        have hevent : eventOf op opened (systemCall act) s =
            ⟨op, s'.disk, d', false, opened a⟩ := by
          simp [eventOf, systemCall, henter, hact, Except.toOption]
        rw [hevent]
        exact ⟨fun ino h => hopened _ _ _ ino hact h,
          fun dir name hname _ hdir => hentries _ _ _ dir name hact hname hdir,
          fun ino hino _ => hinodes _ _ _ ino hact hino⟩

/-- A call that only looks at the disk. -/
theorem exact_look {act : Disk → Except Errno (α × Disk)}
    (hopened : ∀ d a d' ino, act d = .ok (a, d') → opened a = some ino → op.OpensAt d ino)
    (hsame : ∀ d a d', act d = .ok (a, d') → d' = d) (s : System) :
    (eventOf op opened (systemCall act) s).Exact := by
  apply exact_systemCall hopened
  · intro d a d' dir name hact _ _
    rw [hsame d a d' hact]
  · intro d a d' ino hact _
    rw [hsame d a d' hact]

theorem exact_openDirectory (dir : ℕ) (name : Text) (s : System) :
    (eventOf (.openDirectory dir name) some (openDirectory dir name) s).Exact := by
  apply exact_look
  · intro d a d' ino hact hopened
    obtain rfl := Option.some.inj hopened
    cases hentry : d.entry dir name with
    | none => simp [hentry] at hact
    | some found =>
      simp only [hentry] at hact
      split at hact
      · rename_i hinode
        obtain ⟨rfl, -⟩ := Prod.mk.inj (Except.ok.inj hact)
        simp [SysOp.OpensAt, Disk.step, Disk.isDir, hentry, hinode, Inode.isDirectory]
      · cases hact
      · cases hact
  · intro d a d' hact
    repeat' split at hact
    all_goals simp_all

theorem exact_openRead (dir : ℕ) (name : Text) (s : System) :
    (eventOf (.openRead dir name) some (openRead dir name) s).Exact := by
  apply exact_look
  · intro d a d' ino hact hopened
    obtain rfl := Option.some.inj hopened
    cases hentry : d.entry dir name with
    | none => simp [hentry] at hact
    | some found =>
      simp only [hentry] at hact
      split at hact
      · cases hact
      · cases hact
      · rename_i hlink hinode
        obtain ⟨rfl, -⟩ := Prod.mk.inj (Except.ok.inj hact)
        refine ⟨hentry, fun target htarget => hlink target ?_⟩
        exact Option.some.inj (hinode.symm.trans htarget)
  · intro d a d' hact
    repeat' split at hact
    all_goals simp_all

theorem exact_fstat (ino : ℕ) (s : System) :
    (eventOf (.fstat ino) (fun _ => none) (isRegular ino) s).Exact := by
  apply exact_look
  · simp
  · intro d a d' hact
    repeat' split at hact
    all_goals simp_all

theorem exact_fstatat (dir : ℕ) (name : Text) (s : System) :
    (eventOf (.fstatat dir name) (fun _ => none) (fstatat dir name) s).Exact := by
  apply exact_look
  · simp
  · intro d a d' hact
    split at hact
    all_goals simp_all

theorem exact_readdir (dir : ℕ) (s : System) :
    (eventOf (.readdir dir) (fun _ => none) (readdir dir) s).Exact := by
  apply exact_look
  · simp
  · intro d a d' hact
    simp_all

theorem bare_create {d : Disk} {ino : ℕ} (h : ino < d.inodes.length) (dir : ℕ) (name : Text)
    (inode : Inode) : (d.create dir name inode).inodes[ino]?.map bare = d.inodes[ino]?.map bare := by
  rw [Disk.inodes_create_of_lt h]
  exact bare_modifyEntries d dir _ ino

theorem ne_of_not_mem {dir dir' : ℕ} {name name' : Text} (h : (dir', name') ∉ [(dir, name)]) :
    dir' ≠ dir ∨ name' ≠ name := by
  rw [List.mem_singleton, Prod.mk.injEq, not_and_or] at h
  exact h

theorem exact_mkdirat (dir : ℕ) (name : Text) (s : System) :
    (eventOf (.mkdirat dir name) (fun _ => none) (mkdirat dir name) s).Exact := by
  apply exact_systemCall
  · simp
  · intro d a d' dir' name' hact hname hdir
    split at hact
    · cases hact
    · obtain ⟨-, rfl⟩ := Prod.mk.inj (Except.ok.inj hact)
      exact Disk.entry_create_of_ne (ne_of_not_mem hname) hdir
  · intro d a d' ino hact hino
    split at hact
    · cases hact
    · obtain ⟨-, rfl⟩ := Prod.mk.inj (Except.ok.inj hact)
      exact bare_create hino dir name _

theorem exact_createExclusive (dir : ℕ) (name : Text) (s : System) :
    (eventOf (.createExclusive dir name) some (createExclusive dir name) s).Exact := by
  apply exact_systemCall
  · intro d a d' ino hact hopened
    obtain rfl := Option.some.inj hopened
    split at hact
    · cases hact
    · rename_i hentry
      obtain ⟨rfl, -⟩ := Prod.mk.inj (Except.ok.inj hact)
      exact ⟨hentry, rfl⟩
  · intro d a d' dir' name' hact hname hdir
    split at hact
    · cases hact
    · obtain ⟨-, rfl⟩ := Prod.mk.inj (Except.ok.inj hact)
      exact Disk.entry_create_of_ne (ne_of_not_mem hname) hdir
  · intro d a d' ino hact hino
    split at hact
    · cases hact
    · obtain ⟨-, rfl⟩ := Prod.mk.inj (Except.ok.inj hact)
      exact bare_create hino dir name _

theorem exact_unlinkat (dir : ℕ) (name : Text) (s : System) :
    (eventOf (.unlinkat dir name) (fun _ => none) (unlinkat dir name) s).Exact := by
  apply exact_systemCall
  · simp
  · intro d a d' dir' name' hact hname hdir
    split at hact
    · cases hact
    · cases hact
    · obtain ⟨-, rfl⟩ := Prod.mk.inj (Except.ok.inj hact)
      exact Disk.entry_removeEntry_of_ne (ne_of_not_mem hname)
  · intro d a d' ino hact hino
    split at hact
    · cases hact
    · cases hact
    · obtain ⟨-, rfl⟩ := Prod.mk.inj (Except.ok.inj hact)
      exact bare_modifyEntries d dir _ ino

/-- A renaming that takes place moves the entry, unless both are the same file. -/
theorem renameOn_ok {fromDir toDir : ℕ} {source target : Text} {d d' : Disk} {a : Unit}
    (h : renameOn fromDir source toDir target d = .ok (a, d')) :
    ∃ ino, d.entry fromDir source = some ino ∧
      ((d.entry toDir target = some ino ∧ d' = d) ∨
        d' = (d.removeEntry fromDir source).setEntry toDir target ino) := by
  unfold renameOn at h
  cases hsource : d.entry fromDir source with
  | none => simp [hsource] at h
  | some ino =>
    refine ⟨ino, rfl, ?_⟩
    simp only [hsource] at h
    repeat' split at h
    all_goals simp_all

theorem exact_renameBetween (fromDir : ℕ) (source : Text) (toDir : ℕ) (target : Text)
    (s : System) : (eventOf (.renameat fromDir source toDir target) (fun _ => none)
      (renameBetween fromDir source toDir target) s).Exact := by
  apply exact_systemCall
  · simp
  · intro d a d' dir name hact hname _
    obtain ⟨ino, -, ⟨-, rfl⟩ | rfl⟩ := renameOn_ok hact
    · rfl
    · simp only [SysOp.targets, List.mem_cons, Prod.mk.injEq, List.not_mem_nil, or_false,
        not_or, not_and_or] at hname
      rw [Disk.entry_setEntry_of_ne hname.2, Disk.entry_removeEntry_of_ne hname.1]
  · intro d a d' ino hact _
    obtain ⟨moved, -, ⟨-, rfl⟩ | rfl⟩ := renameOn_ok hact
    · rfl
    · exact (bare_modifyEntries _ toDir _ ino).trans (bare_modifyEntries d fromDir _ ino)

theorem entry_write_of_ne {d : Disk} {dir ino : ℕ} (h : ino ≠ dir) (content : Content)
    (name : Text) : (d.write ino content).entry dir name = d.entry dir name := by
  unfold Disk.entry Disk.entries
  rw [Disk.inodes_write_of_ne h]

theorem writeAll_disk (ino : ℕ) (content : Content) (s : System) :
    ∃ left, (writeAll ino content s).2.disk = s.enter.2.disk.write ino left := by
  unfold writeAll
  split
  · rename_i fault s' henter
    exact ⟨fault.left, by simp [henter]⟩
  · rename_i s' henter
    exact ⟨content, by simp [henter]⟩

theorem exact_writeAll (ino : ℕ) (content : Content) (s : System) :
    (eventOf (.writeAll ino) (fun _ => none) (writeAll ino content) s).Exact := by
  obtain ⟨left, hleft⟩ := writeAll_disk ino content s
  constructor
  · simp [eventOf]
  · intro dir name _ hdir _
    have hne : ino ≠ dir := fun heq => hdir (heq ▸ rfl)
    simp only [eventOf, hleft, entry_write_of_ne hne]
  · intro other _ hother
    have hne : ino ≠ other := fun heq => hother (heq ▸ rfl)
    simp only [eventOf, hleft, Disk.inodes_write_of_ne hne]

end

section
/-! Every operation is confined. -/

/-- What an operation has in hand: a directory descriptor, or a file of its own. -/
inductive Handle where
  | directory (ino : ℕ)
  | file (ino : ℕ)
  deriving DecidableEq

def Handle.Backed (root : ℕ) (log : List SysEvent) : Handle → Prop
  | .directory ino => Reached root log ino
  | .file ino => Created log ino

theorem Handle.Backed.append {root : ℕ} {log : List SysEvent} {handle : Handle}
    (h : handle.Backed root log) (more : List SysEvent) : handle.Backed root (log ++ more) := by
  cases handle with
  | directory ino => exact Reached.append h more
  | file ino => exact Created.append h more

structure Held (root : ℕ) (handles : List Handle) (t : Logged) : Prop where
  confined : Confined root t.log
  backed : ∀ handle ∈ handles, handle.Backed root t.log

/-- From handles that are backed the computation stays confined, and so does the handle that its
result has. -/
def Keeps {ε α : Type} (root : ℕ) (handles : List Handle) (found : α → Option Handle)
    (x : LoggedCall ε α) : Prop :=
  Triple (Held root handles) x fun r t => Held root handles t ∧
    ∀ a, r = .ok a → ∀ handle, found a = some handle → handle.Backed root t.log

def nothing {α : Type} : α → Option Handle := fun _ => none

variable {ε ε₂ α β : Type} {root : ℕ} {handles : List Handle} {found : α → Option Handle}
  {found' : β → Option Handle} {x : LoggedCall ε α}

theorem keeps_pure {a : α} (h : ∀ handle, found a = some handle → handle ∈ handles) :
    Keeps root handles found (pure a : LoggedCall ε α) := by
  apply triple_pure
  intro t ht
  refine ⟨ht, fun a' ha handle hhandle => ?_⟩
  obtain rfl := Except.ok.inj ha
  exact ht.backed handle (h handle hhandle)

theorem keeps_fail {e : ε} : Keeps root handles found (Call.fail e : LoggedCall ε α) :=
  triple_fail fun _ ht => ⟨ht, fun _ h => by cases h⟩

theorem keeps_ofExcept {r : Except ε α} :
    Keeps root handles nothing (Call.ofExcept r : LoggedCall ε α) :=
  triple_ofExcept fun _ ht => ⟨ht, fun _ _ _ h => by cases h⟩

theorem keeps_silent {y : SystemCall ε α} : Keeps root handles nothing (silent y) :=
  ⟨fun _ ht => ⟨⟨ht.confined, ht.backed⟩, fun _ _ _ h => by cases h⟩⟩

theorem keeps_bind {f : α → LoggedCall ε β} (hx : Keeps root handles found x)
    (hf : ∀ a, Keeps root ((found a).toList ++ handles) found' (f a)) :
    Keeps root handles found' (x >>= f) := by
  apply triple_bind hx
  · intro a
    constructor
    rintro t ⟨ht, hfound⟩
    have hboth : Held root ((found a).toList ++ handles) t := by
      refine ⟨ht.confined, fun handle hmem => ?_⟩
      obtain hmem | hmem := List.mem_append.mp hmem
      · exact hfound a rfl handle (by simpa using hmem)
      · exact ht.backed handle hmem
    obtain ⟨hend, hresult⟩ := (hf a).run t hboth
    refine ⟨⟨hend.confined, fun handle hmem => ?_⟩, hresult⟩
    exact hend.backed handle (List.mem_append_right _ hmem)
  · rintro e t ⟨ht, -⟩
    exact ⟨ht, fun _ h => by cases h⟩

/-- What follows needs no handle of the result. -/
theorem keeps_then {f : α → LoggedCall ε β} (hx : Keeps root handles nothing x)
    (hf : ∀ a, Keeps root handles found' (f a)) : Keeps root handles found' (x >>= f) :=
  keeps_bind hx hf

theorem keeps_attempt (hx : Keeps root handles found x) :
    Keeps root handles (fun r => r.toOption.bind found)
      (x.attempt : LoggedCall ε₂ (Except ε α)) := by
  apply (triple_attempt hx).imp fun _ h => h
  rintro r t ⟨inner, rfl, ht, hfound⟩
  refine ⟨ht, fun a ha handle hhandle => ?_⟩
  obtain rfl := Except.ok.inj ha
  cases inner with
  | error e => cases hhandle
  | ok a => exact hfound a rfl handle hhandle

theorem keeps_mapError {f : ε → ε₂} (hx : Keeps root handles found x) :
    Keeps root handles found (x.mapError f) := by
  apply (triple_mapError hx).imp fun _ h => h
  rintro r t ⟨inner, rfl, ht, hfound⟩
  refine ⟨ht, fun a ha => ?_⟩
  cases inner with
  | error e => cases ha
  | ok a' => exact hfound a (congrArg Except.ok (Except.ok.inj ha))

theorem keeps_attempt_nothing (hx : Keeps root handles nothing x) :
    Keeps root handles nothing (x.attempt : LoggedCall ε₂ (Except ε α)) := by
  apply (triple_attempt hx).imp fun _ h => h
  rintro r t ⟨inner, -, ht, -⟩
  exact ⟨ht, fun _ _ _ h => by cases h⟩

/-- A call on handles in hand. -/
theorem keeps_logged {op : SysOp} {opened : α → Option ℕ} {y : SystemCall Errno α}
    {found : α → Option Handle} (hparents : ∀ dir ∈ op.parents, .directory dir ∈ handles)
    (hwritten : ∀ ino, op = .writeAll ino → .file ino ∈ handles)
    (hexact : ∀ s, (eventOf op opened y s).Exact)
    (hfound : ∀ a handle, found a = some handle →
      (∃ dir name ino, op = .openDirectory dir name ∧ opened a = some ino ∧
        handle = .directory ino) ∨
      ∃ dir name ino, op = .createExclusive dir name ∧ opened a = some ino ∧
        handle = .file ino) : Keeps root handles found (logged op opened y) := by
  constructor
  intro t ht
  have hparent : ∀ dir ∈ op.parents, Reached root t.log dir :=
    fun dir hdir => ht.backed _ (hparents dir hdir)
  have hallowed : Allowed root t.log (eventOf op opened y t.system) :=
    ⟨hparent, fun ino hop => ht.backed _ (hwritten ino hop), hexact t.system⟩
  refine ⟨⟨ht.confined.concat hallowed, fun handle hmem => (ht.backed handle hmem).append _⟩, ?_⟩
  intro a ha handle hhandle
  have hopened : (eventOf op opened y t.system).opened = opened a := by
    have hrun : (y t.system).1 = .ok a := ha
    simp [eventOf, hrun, Except.toOption]
  obtain ⟨dir, name, ino, rfl, hino, rfl⟩ | ⟨dir, name, ino, rfl, hino, rfl⟩ :=
    hfound a handle hhandle
  · have hreal := (hexact t.system).opened ino (hopened.trans hino)
    exact .step (hparent dir (by simp [SysOp.parents])) rfl (hopened.trans hino) hreal
  · exact ⟨_, List.mem_append_right _ (List.mem_singleton_self _), hopened.trans hino,
      dir, name, rfl⟩

theorem keeps_call {op : SysOp} {opened : α → Option ℕ} {y : SystemCall Errno α}
    (hparents : ∀ dir ∈ op.parents, .directory dir ∈ handles)
    (hwritten : ∀ ino, op = .writeAll ino → .file ino ∈ handles)
    (hexact : ∀ s, (eventOf op opened y s).Exact) :
    Keeps root handles nothing (logged op opened y) :=
  keeps_logged hparents hwritten hexact fun _ _ h => by cases h

theorem keeps_openDirectory {dir : ℕ} (hdir : .directory dir ∈ handles) (name : Text) :
    Keeps root handles (fun ino => some (.directory ino))
      (logged (.openDirectory dir name) some (openDirectory dir name)) := by
  apply keeps_logged (by simpa [SysOp.parents] using hdir) (by simp) (exact_openDirectory dir name)
  intro ino handle hhandle
  exact Or.inl ⟨dir, name, ino, rfl, rfl, (Option.some.inj hhandle).symm⟩

theorem keeps_createExclusive {dir : ℕ} (hdir : .directory dir ∈ handles) (name : Text) :
    Keeps root handles (fun ino => some (.file ino))
      (logged (.createExclusive dir name) some (createExclusive dir name)) := by
  apply keeps_logged (by simpa [SysOp.parents] using hdir) (by simp)
    (exact_createExclusive dir name)
  intro ino handle hhandle
  exact Or.inr ⟨dir, name, ino, rfl, rfl, (Option.some.inj hhandle).symm⟩

theorem keeps_openDirAt {dir : ℕ} (hdir : .directory dir ∈ handles) (name path : Text) :
    Keeps root handles (fun ino => some (.directory ino)) (openDirAt dir name path) :=
  keeps_then keeps_silent fun name => keeps_mapError (keeps_openDirectory hdir name)

theorem keeps_mkdirAt {dir : ℕ} (hdir : .directory dir ∈ handles) (name : Text) :
    Keeps root handles nothing (mkdirAt dir name) := by
  apply keeps_then keeps_silent
  intro name
  apply keeps_then (keeps_attempt_nothing (keeps_call (by simpa [SysOp.parents] using hdir)
    (by simp) (exact_mkdirat dir name)))
  intro r
  split
  · exact keeps_pure (by simp [nothing])
  · exact keeps_pure (by simp [nothing])
  · exact keeps_fail

theorem keeps_openDirChain {create : Bool} {path : Text} {dir : ℕ} {components : List Text}
    (hdir : .directory dir ∈ handles) :
    Keeps root handles (fun ino => some (.directory ino))
      (openDirChain create path dir components) := by
  induction components generalizing dir handles with
  | nil => exact keeps_pure (by simpa [eq_comm] using hdir)
  | cons component rest ih =>
    apply keeps_bind (keeps_attempt (keeps_openDirAt hdir component path))
    intro r
    split
    · exact ih (by simp [Except.toOption])
    · simp only [Except.toOption, Option.bind_none, Option.toList_none, List.nil_append]
      split_ifs
      · apply keeps_then (keeps_mkdirAt hdir component)
        intro _
        apply keeps_bind (keeps_openDirAt hdir component path)
        exact fun next => ih (by simp)
      · exact keeps_fail
    · exact keeps_fail

theorem keeps_openParent {create : Bool} {path : Text} {components : List Text}
    (hroot : .directory root ∈ handles) :
    Keeps root handles (fun parent => some (.directory parent.1))
      (openParent root components create path) := by
  unfold openParent
  split
  · exact keeps_fail
  · apply keeps_bind (keeps_openDirChain hroot)
    exact fun parent => keeps_pure (by simp)

theorem keeps_openRegularAt {dir : ℕ} (hdir : .directory dir ∈ handles) (name path : Text) :
    Keeps root handles nothing (openRegularAt dir name path) := by
  apply keeps_then keeps_silent
  intro name
  apply keeps_then (keeps_mapError (keeps_call (by simpa [SysOp.parents] using hdir) (by simp)
    (exact_openRead dir name)))
  intro file
  apply keeps_then (keeps_mapError (keeps_call (by simp [SysOp.parents]) (by simp)
    (exact_fstat file)))
  intro regular
  split_ifs
  · exact keeps_pure (by simp [nothing])
  · exact keeps_fail

theorem keeps_unlinkFileAt {dir : ℕ} (hdir : .directory dir ∈ handles) (name path : Text) :
    Keeps root handles nothing (unlinkFileAt dir name path) := by
  apply keeps_then keeps_silent
  intro name
  exact keeps_mapError (keeps_call (by simpa [SysOp.parents] using hdir) (by simp)
    (exact_unlinkat dir name))

theorem keeps_cleanUp {dir : ℕ} (hdir : .directory dir ∈ handles) (temp : Text) :
    Keeps root handles nothing (cleanUp dir temp) := by
  apply keeps_then (keeps_attempt_nothing (keeps_call (by simpa [SysOp.parents] using hdir)
    (by simp) (exact_unlinkat dir temp)))
  exact fun _ => keeps_pure (by simp [nothing])

theorem keeps_writeAttempts {dir : ℕ} (hdir : .directory dir ∈ handles) (name : Text)
    (content : Content) (path : Text) (attempts : ℕ) :
    Keeps root handles nothing (writeAttempts dir name content path attempts) := by
  induction attempts with
  | zero => exact keeps_fail
  | succ attempts ih =>
    apply keeps_then keeps_silent
    intro temp
    apply keeps_bind (keeps_attempt (keeps_createExclusive hdir temp))
    intro r
    split
    · exact ih
    · exact keeps_fail
    · rename_i ino
      have hdir' : Handle.directory dir ∈ Handle.file ino :: handles :=
        List.mem_cons_of_mem _ hdir
      apply keeps_then (keeps_attempt_nothing (keeps_call (by simp [SysOp.parents])
        (by simp [Except.toOption]) (exact_writeAll ino content)))
      intro r
      split
      · exact keeps_then (keeps_cleanUp hdir' temp) fun _ => keeps_fail
      · apply keeps_then (keeps_attempt_nothing (keeps_call
          (by simpa [SysOp.parents, Except.toOption] using hdir) (by simp)
          (exact_renameBetween dir temp dir name)))
        intro r
        split
        · exact keeps_pure (by simp [nothing])
        · exact keeps_then (keeps_cleanUp hdir' temp) fun _ => keeps_fail

theorem keeps_openFile (hroot : .directory root ∈ handles) (rel : Text) :
    Keeps root handles nothing (openFile root rel) := by
  apply keeps_then keeps_ofExcept
  intro components
  apply keeps_bind (keeps_openParent hroot)
  exact fun parent => keeps_openRegularAt (by simp) parent.2 rel

theorem keeps_atomicWrite (hroot : .directory root ∈ handles) (rel : Text) (content : Content) :
    Keeps root handles nothing (atomicWrite root rel content) := by
  apply keeps_then keeps_ofExcept
  intro components
  apply keeps_bind (keeps_openParent hroot)
  intro parent
  apply keeps_then keeps_silent
  exact fun name => keeps_writeAttempts (by simp) name content rel 64

theorem keeps_removeFile (hroot : .directory root ∈ handles) (rel : Text) :
    Keeps root handles nothing (removeFile root rel) := by
  apply keeps_then keeps_ofExcept
  intro components
  apply keeps_bind (keeps_openParent hroot)
  intro parent
  have hparent : Handle.directory parent.1 ∈
      (some (Handle.directory parent.1)).toList ++ handles := by simp
  apply keeps_then (keeps_then (keeps_openRegularAt hparent parent.2 rel) fun _ =>
    keeps_pure (by simp [nothing]))
  exact fun _ => keeps_unlinkFileAt hparent parent.2 rel

theorem keeps_clearOutputFile (hroot : .directory root ∈ handles) (rel : Text) :
    Keeps root handles nothing (clearOutputFile root rel) := by
  apply keeps_then keeps_ofExcept
  intro components
  apply keeps_bind (keeps_openParent hroot)
  intro parent
  have hparent : Handle.directory parent.1 ∈
      (some (Handle.directory parent.1)).toList ++ handles := by simp
  apply keeps_then keeps_silent
  intro name
  apply keeps_then (keeps_attempt_nothing (keeps_call (by simp [SysOp.parents]) (by simp)
    (exact_fstatat parent.1 name)))
  intro r
  split
  · exact keeps_fail
  · exact keeps_unlinkFileAt hparent parent.2 rel
  · exact keeps_pure (by simp [nothing])
  · exact keeps_fail

theorem keeps_renameFile (hroot : .directory root ∈ handles) (source target : Text) :
    Keeps root handles nothing (renameFile root source target) := by
  apply keeps_then keeps_ofExcept
  intro fromComponents
  apply keeps_then keeps_ofExcept
  intro toComponents
  apply keeps_bind (keeps_openParent hroot)
  intro fromParent
  apply keeps_bind (keeps_openParent (by simp [hroot]))
  intro toParent
  apply keeps_then (keeps_openRegularAt (by simp) fromParent.2 source)
  intro _
  apply keeps_then keeps_silent
  intro fromName
  apply keeps_then keeps_silent
  intro toName
  apply keeps_mapError
  exact keeps_call (by simp [SysOp.parents]) (by simp)
    (exact_renameBetween fromParent.1 fromName toParent.1 toName)

theorem keeps_directoryNames {dir : ℕ} (hdir : .directory dir ∈ handles) :
    Keeps root handles nothing (directoryNames dir) := by
  apply keeps_then (keeps_mapError (keeps_call (by simpa [SysOp.parents] using hdir) (by simp)
    (exact_readdir dir)))
  exact fun names => keeps_pure (by simp [nothing])

theorem keeps_walkNames {dir : ℕ} {below : Option (ℕ → Text → List WorkspaceEntry →
      LoggedCall ToolError (List WorkspaceEntry))}
    (hbelow : ∀ walk, below = some walk → ∀ handles child, .directory child ∈ handles →
      ∀ pre out, Keeps root handles nothing (walk child pre out))
    (hdir : .directory dir ∈ handles) (pre : Text) (names : List Text)
    (out : List WorkspaceEntry) : Keeps root handles nothing (walkNames below dir pre names out) := by
  induction names generalizing out handles with
  | nil => exact keeps_pure (by simp [nothing])
  | cons name rest ih =>
    unfold walkNames
    split_ifs
    · exact ih hdir out
    · apply keeps_then keeps_silent
      intro cname
      apply keeps_then (keeps_attempt_nothing (keeps_call (by simpa [SysOp.parents] using hdir)
        (by simp) (exact_fstatat dir cname)))
      intro r
      split
      · exact ih hdir out
      · exact keeps_fail
      · split
        · exact ih hdir _
        · rename_i walk
          apply keeps_bind (keeps_attempt (keeps_openDirAt hdir name (joinPath pre name)))
          intro r
          split
          · rename_i child
            apply keeps_then (hbelow walk rfl _ child (by simp [Except.toOption]) _ _)
            exact fun out => ih (List.mem_append_right _ hdir) out
          · exact ih hdir _
          · exact ih hdir _
          · exact keeps_fail
      · exact ih hdir _
      · exact ih hdir out

theorem keeps_walkDirectory (levels : ℕ) {dir : ℕ} (hdir : .directory dir ∈ handles) (pre : Text)
    (out : List WorkspaceEntry) :
    Keeps root handles nothing (walkDirectory levels dir pre out) := by
  induction levels generalizing dir pre out handles with
  | zero =>
    apply keeps_then (keeps_directoryNames hdir)
    exact fun names => keeps_walkNames (by simp) hdir pre names out
  | succ levels ih =>
    apply keeps_then (keeps_directoryNames hdir)
    intro names
    apply keeps_walkNames _ hdir pre names out
    intro walk hwalk handles child hchild pre out
    obtain rfl := Option.some.inj hwalk
    exact ih hchild pre out

theorem keeps_list (hroot : .directory root ∈ handles) (rel : Option Text) (maxDepth : ℕ) :
    Keeps root handles nothing (list root rel maxDepth) := by
  have hwalk (components : List Text) : Keeps root handles nothing (do
      let start ← openDirChain false (rel.getD []) root components
      let entries ← walkDirectory maxDepth start [] []
      pure (entries.mergeSort fun a b => decide (a.path ≤ b.path)) :
        LoggedCall ToolError (List WorkspaceEntry)) := by
    apply keeps_bind (keeps_openDirChain hroot)
    intro start
    apply keeps_then (keeps_walkDirectory maxDepth (by simp) [] [])
    exact fun entries => keeps_pure (by simp [nothing])
  unfold list
  cases rel with
  | none => exact keeps_then (keeps_pure (by simp [nothing])) hwalk
  | some value => exact keeps_then keeps_ofExcept hwalk

theorem keeps_run (op : WorkspaceOp) : Keeps root [.directory root] nothing (op.run root) := by
  have hroot : Handle.directory root ∈ [Handle.directory root] := List.mem_singleton_self _
  cases op with
  | openFile rel =>
    exact keeps_then (keeps_openFile hroot rel) fun _ => keeps_pure (by simp [nothing])
  | atomicWrite rel content => exact keeps_atomicWrite hroot rel content
  | removeFile rel => exact keeps_removeFile hroot rel
  | clearOutputFile rel => exact keeps_clearOutputFile hroot rel
  | renameFile source target => exact keeps_renameFile hroot source target
  | list rel maxDepth =>
    exact keeps_then (keeps_list hroot rel maxDepth) fun _ => keeps_pure (by simp [nothing])

theorem confined_run (root : ℕ) (op : WorkspaceOp) (s : System) :
    Confined root (op.run root { system := s }).2.log := by
  refine ((keeps_run op).run { system := s } ⟨?_, ?_⟩).1.confined
  · intro before event after hsplit
    simp at hsplit
  · intro handle hmem
    rw [List.mem_singleton.mp hmem]
    exact Reached.root

end
end DeepseekScience.Tools.Secure
