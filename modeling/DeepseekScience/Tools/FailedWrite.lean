import DeepseekScience.Tools.Confinement

/-! What a write leaves in the directory: the new file in the place of the old entry, or, when it
fails, everything but the directories on the way as it was, with its temporary file removed. -/
namespace DeepseekScience.Tools.Secure

open Calls

section
/-! Entries that a failed write may change. -/

/-- Nothing but a directory on the way, or the entry of a temporary file of the log, is changed. -/
def SysEvent.Harmless (log : List SysEvent) (event : SysEvent) : Prop :=
  ∀ dir name, event.before.isDir dir = true → event.op ≠ .writeAll dir →
    event.after.entry dir name ≠ event.before.entry dir name →
      (∃ dir name, event.op = .mkdirat dir name) ∨
        ∃ created ∈ log, created.op = .createExclusive dir name

/-- The file that an event has created is not under its name any more, unless the call that was to
remove it has failed for reasons of its own. -/
def RemovedAfter (event : SysEvent) (later : List SysEvent) : Prop :=
  ∀ dir name ino, event.op = .createExclusive dir name → event.opened = some ino →
    ∃ removal ∈ later, removal.op = .unlinkat dir name ∧
      (removal.faulted = true ∨ removal.after.entry dir name ≠ some ino)

def Removed (log : List SysEvent) : Prop :=
  ∀ before event after, log = before ++ event :: after → RemovedAfter event after

structure Undone (log : List SysEvent) : Prop where
  harmless : ∀ event ∈ log, event.Harmless log
  removed : Removed log

/-- The last call has put what is under a temporary name in the place of the entry. -/
def Placed (name : Text) (log : List SysEvent) : Prop :=
  ∃ before event dir temp ino, log = before ++ [event] ∧ event.op = .renameat dir temp dir name ∧
    event.before.entry dir temp = some ino ∧ event.after.entry dir name = some ino

/-- An event that changes nothing of the kind and leaves nothing to remove. -/
def SysEvent.Quiet (event : SysEvent) : Prop :=
  (∀ log, event.Harmless log) ∧ ∀ later, RemovedAfter event later

variable {log quiet : List SysEvent} {event : SysEvent}

theorem undone_nil : Undone [] := ⟨by simp, by simp [Removed]⟩

theorem SysEvent.Harmless.mono {more : List SysEvent} (h : event.Harmless log) (hmore : log ⊆ more) :
    event.Harmless more := by
  intro dir name hdir hwritten hchanged
  obtain hmade | ⟨created, hmem, hop⟩ := h dir name hdir hwritten hchanged
  · exact Or.inl hmade
  · exact Or.inr ⟨created, hmore hmem, hop⟩

theorem Removed.cons (h : Removed log) (hremoved : RemovedAfter event log) :
    Removed (event :: log) := by
  intro before other after hsplit
  obtain ⟨-, hother⟩ | ⟨rest, -, hrest⟩ := List.cons_eq_append_iff.mp hsplit
  · obtain ⟨rfl, rfl⟩ := List.cons.inj hother
    exact hremoved
  · exact h rest other after hrest

theorem Removed.append (h : Removed log) (hquiet : ∀ event ∈ quiet, event.Quiet) :
    Removed (quiet ++ log) := by
  induction quiet with
  | nil => exact h
  | cons event quiet ih =>
    obtain ⟨hevent, hrest⟩ := List.forall_mem_cons.mp hquiet
    exact (ih hrest).cons (hevent.2 _)

theorem Undone.cons (h : Undone log) (hharmless : event.Harmless (event :: log))
    (hremoved : RemovedAfter event log) : Undone (event :: log) := by
  constructor
  · intro other hother
    obtain rfl | hother := List.mem_cons.mp hother
    · exact hharmless
    · exact (h.harmless other hother).mono (List.subset_cons_self _ _)
  · exact h.removed.cons hremoved

theorem Undone.append (h : Undone log) (hquiet : ∀ event ∈ quiet, event.Quiet) :
    Undone (quiet ++ log) := by
  induction quiet with
  | nil => exact h
  | cons event quiet ih =>
    obtain ⟨hevent, hrest⟩ := List.forall_mem_cons.mp hquiet
    exact (ih hrest).cons (hevent.1 _) (hevent.2 _)

theorem harmless_of_targets (hexact : event.Exact)
    (htargets : ∀ target ∈ event.op.targets, ∃ created ∈ log,
      created.op = .createExclusive target.1 target.2) : event.Harmless log := by
  intro dir name hdir hwritten hchanged
  by_cases hmem : (dir, name) ∈ event.op.targets
  · exact Or.inr (htargets _ hmem)
  · exact absurd (hexact.entries dir name hmem hwritten hdir) hchanged

theorem removedAfter_of_ne
    (hop : ∀ dir name, event.op ≠ .createExclusive dir name) (later : List SysEvent) :
    RemovedAfter event later :=
  fun dir name _ h => absurd h (hop dir name)

theorem removedAfter_of_none (hopened : event.opened = none)
    (later : List SysEvent) : RemovedAfter event later := by
  intro dir name ino _ h
  simp [hopened] at h

/-- A call without targets, or with one that is made on the way. -/
theorem quiet_of_look (hexact : event.Exact) (htargets : event.op.targets = []) :
    event.Quiet := by
  constructor
  · exact fun _ => harmless_of_targets hexact (by simp [htargets])
  · apply removedAfter_of_ne
    intro dir name hop
    simp [hop, SysOp.targets] at htargets

theorem quiet_of_mkdirat {dir : ℕ} {name : Text}
    (hop : event.op = .mkdirat dir name) : event.Quiet :=
  ⟨fun _ _ _ _ _ _ => Or.inl ⟨dir, name, hop⟩, removedAfter_of_ne (by simp [hop])⟩

end

section
/-! The way to the directory is quiet. -/

variable {ε ε₂ α β : Type} {P : SysEvent → Prop} {x : LoggedCall ε α}

/-- A computation only appends events of a kind. -/
def Emits (P : SysEvent → Prop) (x : LoggedCall ε α) : Prop :=
  ∀ t, ∃ new, (x t).2.log = t.log ++ new ∧ ∀ event ∈ new, P event

theorem emits_nothing (h : ∀ t, (x t).2.log = t.log) : Emits P x :=
  fun t => ⟨[], by simp [h], by simp⟩

theorem emits_bind {f : α → LoggedCall ε β} (hx : Emits P x) (hf : ∀ a, Emits P (f a)) :
    Emits P (x >>= f) := by
  intro t
  obtain ⟨new, hnew, hall⟩ := hx t
  simp only [Bind.bind]
  cases hrun : x t with
  | mk r t' =>
    rw [hrun] at hnew
    cases r with
    | error e => exact ⟨new, hnew, hall⟩
    | ok a =>
      obtain ⟨more, hmore, hrest⟩ := hf a t'
      refine ⟨new ++ more, ?_, ?_⟩
      · rw [hmore, hnew, List.append_assoc]
      · exact fun event h => (List.mem_append.mp h).elim (hall event) (hrest event)

theorem emits_attempt (hx : Emits P x) : Emits P (x.attempt : LoggedCall ε₂ (Except ε α)) := hx

theorem emits_mapError {f : ε → ε₂} (hx : Emits P x) : Emits P (x.mapError f) := hx

theorem emits_logged {op : SysOp} {opened : α → Option ℕ} {y : SystemCall Errno α}
    (h : ∀ s, P (eventOf op opened y s)) : Emits P (logged op opened y) :=
  fun t => ⟨[eventOf op opened y t.system], rfl, by simpa using h t.system⟩

theorem emits_openDirAt (dir : ℕ) (name path : Text) :
    Emits SysEvent.Quiet (openDirAt dir name path) := by
  apply emits_bind (emits_nothing fun _ => rfl)
  intro name
  exact emits_mapError (emits_logged fun s => quiet_of_look (exact_openDirectory dir name s) rfl)

theorem emits_mkdirAt (dir : ℕ) (name : Text) : Emits SysEvent.Quiet (mkdirAt dir name) := by
  apply emits_bind (emits_nothing fun _ => rfl)
  intro name
  apply emits_bind (emits_attempt (emits_logged fun s => quiet_of_mkdirat rfl))
  intro r
  split
  · exact emits_nothing fun _ => rfl
  · exact emits_nothing fun _ => rfl
  · exact emits_nothing fun _ => rfl

theorem emits_openDirChain (create : Bool) (path : Text) (dir : ℕ) (components : List Text) :
    Emits SysEvent.Quiet (openDirChain create path dir components) := by
  induction components generalizing dir with
  | nil => exact emits_nothing fun _ => rfl
  | cons component rest ih =>
    apply emits_bind (emits_attempt (emits_openDirAt dir component path))
    intro r
    split
    · exact ih _
    · split_ifs
      · apply emits_bind (emits_mkdirAt dir component)
        intro _
        exact emits_bind (emits_openDirAt dir component path) ih
      · exact emits_nothing fun _ => rfl
    · exact emits_nothing fun _ => rfl

theorem emits_openParent (root : ℕ) (components : List Text) (create : Bool) (path : Text) :
    Emits SysEvent.Quiet (openParent root components create path) := by
  unfold openParent
  split
  · exact emits_nothing fun _ => rfl
  · apply emits_bind (emits_openDirChain create path root _)
    exact fun parent => emits_nothing fun _ => rfl

end

section
/-! The temporary file. -/

/-- The inode is there, and it is no directory. -/
def Solid (d : Disk) (ino : ℕ) : Prop := ino < d.inodes.length ∧ d.isDir ino = false

theorem isDirectory_bare (inode : Inode) : (bare inode).isDirectory = inode.isDirectory := by
  cases inode <;> rfl

/-- Inodes that stay up to their entries stay what they are. -/
theorem Solid.of_bare {d d' : Disk} {ino : ℕ} (h : Solid d ino)
    (hbare : d'.inodes[ino]?.map bare = d.inodes[ino]?.map bare) : Solid d' ino := by
  obtain ⟨hlt, hdir⟩ := h
  rw [List.getElem?_eq_getElem hlt] at hbare
  cases hinode : d'.inodes[ino]? with
  | none => simp [hinode] at hbare
  | some inode =>
    constructor
    · exact (List.getElem?_eq_some_iff.mp hinode).1
    · have hsame : inode.isDirectory = d.inodes[ino].isDirectory := by
        rw [hinode] at hbare
        rw [← isDirectory_bare, ← isDirectory_bare d.inodes[ino], Option.some.inj hbare]
      unfold Disk.isDir at hdir ⊢
      rw [List.getElem?_eq_getElem hlt, Option.any_some] at hdir
      rw [hinode, Option.any_some, hsame, hdir]

theorem Solid.move {d : Disk} {ino : ℕ} (h : Solid d ino) (move : Move) :
    Solid (d.move move) ino := by
  apply h.of_bare
  cases move with
  | put dir name inode => exact bare_create h.1 dir name inode
  | link dir name ino' => exact bare_modifyEntries d dir _ ino
  | remove dir name => exact bare_modifyEntries d dir _ ino

theorem Solid.enter {s : System} {ino : ℕ} (h : Solid s.disk ino) :
    Solid s.enter.2.disk ino := by
  have hmoves : ∀ (moves : List Move) (d : Disk), Solid d ino →
      Solid (moves.foldl Disk.move d) ino := by
    intro moves
    induction moves with
    | nil => exact fun _ hd => hd
    | cons move moves ih => exact fun d hd => ih _ (hd.move move)
  unfold System.enter
  split
  · exact h
  · exact hmoves _ _ h

/-- The file that is created is a file, for every call that follows. -/
theorem createExclusive_ok {dir ino : ℕ} {name : Text} {s : System}
    (h : (createExclusive dir name s).1 = .ok ino) : Solid (createExclusive dir name s).2.disk ino := by
  unfold createExclusive systemCall at h ⊢
  cases henter : s.enter with
  | mk fault s' =>
    rw [henter] at h
    cases fault with
    | some fault => simp at h
    | none =>
      cases hentry : s'.disk.entry dir name with
      | some found => simp [hentry] at h
      | none =>
        simp only [hentry] at h ⊢
        obtain rfl := Except.ok.inj h
        have hself := Disk.inodes_create_self s'.disk dir name (.file (.text []))
        constructor
        · exact (List.getElem?_eq_some_iff.mp hself).1
        · simp [Disk.isDir, hself, Inode.isDirectory]

theorem Solid.writeAll {s : System} {ino : ℕ} (h : Solid s.disk ino) (content : Content) :
    Solid (writeAll ino content s).2.disk ino := by
  obtain ⟨left, hleft⟩ := writeAll_disk ino content s
  have hlt := h.enter.1
  rw [hleft]
  constructor
  · simpa [Disk.write] using hlt
  · simp [Disk.isDir, Disk.write, List.getElem?_set_self hlt, Inode.isDirectory]

theorem Solid.renameBetween {s : System} {ino : ℕ} (h : Solid s.disk ino) (dir : ℕ)
    (source target : Text) : Solid (renameBetween dir source dir target s).2.disk ino := by
  have hexact := exact_renameBetween dir source dir target s
  exact h.enter.of_bare (hexact.inodes ino h.enter.1 (by simp [eventOf]))

theorem entry_removeEntry_self (d : Disk) (dir : ℕ) (name : Text) :
    (d.removeEntry dir name).entry dir name = none := by
  have hgone (entries : List (Text × ℕ)) :
      (entries.filter fun e => e.1 != name).lookup name = none := by
    rw [List.lookup_eq_none_iff]
    intro entry hentry
    have hne : entry.1 ≠ name := by simpa using (List.mem_filter.mp hentry).2
    simpa using hne.symm
  unfold Disk.entry Disk.removeEntry
  rw [Disk.entries_modifyEntries]
  split_ifs with hdir
  · exact hgone _
  · have hnone : d.entries dir = [] := by
      have hnot : d.isDir dir = false := by simpa using hdir
      unfold Disk.isDir at hnot
      unfold Disk.entries
      cases hinode : d.inodes[dir]? with
      | none => rfl
      | some inode => cases inode <;> simp_all [Inode.isDirectory, Inode.entries]
    rw [hnone]
    rfl

/-- Behind its removal the file is not under the name any more. -/
theorem removed_unlinkat {s : System} {dir ino : ℕ} {name : Text} (h : Solid s.disk ino)
    {opened : Unit → Option ℕ} :
    (eventOf (.unlinkat dir name) opened (unlinkat dir name) s).faulted = true ∨
      (eventOf (.unlinkat dir name) opened (unlinkat dir name) s).after.entry dir name ≠
        some ino := by
  have hsolid := h.enter
  simp only [eventOf, unlinkat, systemCall]
  cases henter : s.enter with
  | mk fault s' =>
    rw [henter] at hsolid
    cases fault with
    | some fault => exact Or.inl rfl
    | none =>
      right
      dsimp only at hsolid ⊢
      cases hinode : s'.disk.inode dir name with
      | none =>
        intro hentry
        have hlt := hsolid.1
        simp [Disk.inode, hentry] at hinode
        omega
      | some inode =>
        cases inode with
        | dir entries =>
          intro hentry
          have hdir := hsolid.2
          simp [Disk.inode, hentry] at hinode
          simp [Disk.isDir, hinode, Inode.isDirectory] at hdir
        | _ => simp [entry_removeEntry_self]

/-- A renaming that fails changes nothing. -/
theorem renameBetween_error {s : System} {dir : ℕ} {source target : Text} {e : Errno}
    (h : (renameBetween dir source dir target s).1 = .error e) :
    (renameBetween dir source dir target s).2.disk = s.enter.2.disk := by
  unfold renameBetween systemCall at h ⊢
  cases henter : s.enter with
  | mk fault s' =>
    rw [henter] at h
    cases fault with
    | some fault => rfl
    | none =>
      dsimp only at h ⊢
      cases hact : renameOn dir source dir target s'.disk with
      | error e' => rfl
      | ok result => simp [hact] at h

theorem renameBetween_ok {s : System} {dir : ℕ} {source target : Text}
    (h : (renameBetween dir source dir target s).1 = .ok ()) :
    ∃ ino, s.enter.2.disk.entry dir source = some ino ∧
      (renameBetween dir source dir target s).2.disk.entry dir target = some ino := by
  unfold renameBetween systemCall at h ⊢
  cases henter : s.enter with
  | mk fault s' =>
    rw [henter] at h
    cases fault with
    | some fault => simp at h
    | none =>
      dsimp only at h ⊢
      cases hact : renameOn dir source dir target s'.disk with
      | error e => simp [hact] at h
      | ok result =>
        obtain ⟨a, d'⟩ := result
        obtain ⟨ino, hsource, ⟨htarget, rfl⟩ | rfl⟩ := renameOn_ok hact
        · exact ⟨ino, hsource, htarget⟩
        · refine ⟨ino, hsource, Disk.entry_setEntry_self ?_ target ino⟩
          show (s'.disk.modifyEntries dir _).isDir dir = true
          rw [Disk.isDir_modifyEntries]
          exact Disk.isDir_of_entry hsource

end

section
/-! The attempts. -/

/-- What a computation makes of the calls before it when it fails, and when it succeeds. -/
def WriteEnds (name : Text) (earlier : List SysEvent) (x : LoggedCall ToolError Unit)
    (t : Logged) : Prop :=
  ∃ new, (x t).2.log = t.log ++ new ∧ (∀ e, (x t).1 = .error e → Undone (earlier ++ new)) ∧
    ((x t).1 = .ok () → Placed name (earlier ++ new))

variable {α : Type} {name : Text} {t t' : Logged} {earlier : List SysEvent}

theorem writeEnds_fail {e : ToolError} (h : Undone earlier) :
    WriteEnds name earlier (Call.fail e) t := by
  refine ⟨[], by simp [Call.fail], fun _ _ => ?_, fun h => by cases h⟩
  rwa [List.append_nil]

theorem writeEnds_pure (h : Placed name earlier) : WriteEnds name earlier (pure ()) t := by
  refine ⟨[], (List.append_nil _).symm, ?_, fun _ => ?_⟩
  · intro e he
    cases he
  · rwa [List.append_nil]

/-- A computation behind one that has run. -/
theorem writeEnds_bind {x : LoggedCall ToolError α} {f : α → LoggedCall ToolError Unit} {a : α}
    {events : List SysEvent} (hx : x t = (.ok a, t')) (hlog : t'.log = t.log ++ events)
    (hf : WriteEnds name (earlier ++ events) (f a) t') : WriteEnds name earlier (x >>= f) t := by
  obtain ⟨new, hnew, herror, hok⟩ := hf
  have hrun : (x >>= f) t = f a t' := by simp only [Bind.bind, hx]
  rw [List.append_assoc] at herror hok
  refine ⟨events ++ new, ?_, ?_, ?_⟩
  · rw [hrun, hnew, hlog, List.append_assoc]
  · rwa [hrun]
  · rwa [hrun]

theorem writeEnds_attempt {op : SysOp} {opened : α → Option ℕ} {y : SystemCall Errno α}
    {f : Except Errno α → LoggedCall ToolError Unit}
    (h : WriteEnds name (earlier ++ [eventOf op opened y t.system]) (f (y t.system).1)
      { system := (y t.system).2, log := t.log ++ [eventOf op opened y t.system] }) :
    WriteEnds name earlier ((logged op opened y).attempt >>= f) t :=
  writeEnds_bind rfl rfl h

theorem Placed.append {log : List SysEvent} (h : Placed name log) (events : List SysEvent) :
    Placed name (events ++ log) := by
  obtain ⟨before, event, dir, temp, ino, rfl, hevent⟩ := h
  exact ⟨events ++ before, event, dir, temp, ino, by simp, hevent⟩

/-- The events of a temporary file and of its removal. -/
def createEvent (dir : ℕ) (temp : Text) (s : System) : SysEvent :=
  eventOf (.createExclusive dir temp) some (createExclusive dir temp) s

def removalEvent (dir : ℕ) (temp : Text) (s : System) : SysEvent :=
  eventOf (.unlinkat dir temp) (fun _ => none) (unlinkat dir temp) s

theorem harmless_createEvent {dir : ℕ} {temp : Text} {s : System} {log : List SysEvent}
    (h : createEvent dir temp s ∈ log) : (createEvent dir temp s).Harmless log := by
  apply harmless_of_targets (exact_createExclusive dir temp s)
  simpa [eventOf, SysOp.targets] using ⟨_, h, rfl⟩

theorem harmless_removalEvent {dir : ℕ} {temp : Text} {s s' : System} {log : List SysEvent}
    (h : createEvent dir temp s ∈ log) : (removalEvent dir temp s').Harmless log := by
  apply harmless_of_targets (exact_unlinkat dir temp s')
  simpa [eventOf, SysOp.targets] using ⟨_, h, rfl⟩

theorem quiet_of_failed {dir : ℕ} {source target : Text} {s : System}
    (h : (renameBetween dir source dir target s).2.disk = s.enter.2.disk) :
    (eventOf (.renameat dir source dir target) (fun _ => none)
      (renameBetween dir source dir target) s).Quiet := by
  constructor
  · intro _ dir' name' _ _ hchanged
    simp [eventOf, h] at hchanged
  · exact removedAfter_of_ne (by simp [eventOf])

/-- The temporary file is removed, and the write fails. -/
theorem writeEnds_cleanUp {dir ino : ℕ} {temp : Text} {s : System} {between : List SysEvent}
    (hcreated : (createEvent dir temp s).opened = some ino)
    (hbetween : ∀ event ∈ between, event.Quiet) (hsolid : Solid t.system.disk ino) (e : ToolError) :
    WriteEnds name (createEvent dir temp s :: between)
      (cleanUp dir temp >>= fun _ => Call.fail e) t := by
  refine ⟨[removalEvent dir temp t.system], rfl, fun _ _ => ⟨?_, ?_⟩, fun h => by cases h⟩
  · intro event hevent
    obtain rfl | hevent | hevent : event = createEvent dir temp s ∨ event ∈ between ∨
        event = removalEvent dir temp t.system := by simpa [or_assoc] using hevent
    · exact harmless_createEvent List.mem_cons_self
    · exact (hbetween event hevent).1 _
    · rw [hevent]
      exact harmless_removalEvent List.mem_cons_self
  · have hremoval : Removed [removalEvent dir temp t.system] :=
      undone_nil.removed.cons (removedAfter_of_ne (by simp [removalEvent, eventOf]) _)
    apply (hremoval.append hbetween).cons
    intro dir' name' ino' hop hino'
    obtain ⟨rfl, rfl⟩ : dir = dir' ∧ temp = name' := by simpa [createEvent, eventOf] using hop
    obtain rfl := Option.some.inj (hcreated.symm.trans hino')
    exact ⟨_, List.mem_append_right _ (List.mem_singleton_self _), rfl, removed_unlinkat hsolid⟩

theorem writeEnds_writeAttempts (dir : ℕ) (content : Content) (path : Text) (attempts : ℕ) :
    WriteEnds name [] (writeAttempts dir name content path attempts) t := by
  induction attempts generalizing t with
  | zero => exact writeEnds_fail undone_nil
  | succ attempts ih =>
    obtain ⟨pid, sequence, t', hname, hlog⟩ : ∃ pid sequence t',
        silent nextTempName t = (.ok (tempName pid sequence), t') ∧ t'.log = t.log :=
      ⟨_, _, _, rfl, rfl⟩
    apply writeEnds_bind hname (hlog.trans (List.append_nil _).symm)
    apply writeEnds_attempt
    cases hcreate : (createExclusive dir (tempName pid sequence) t'.system).1 with
    | error e =>
      have hremoved : ∀ later,
          RemovedAfter (createEvent dir (tempName pid sequence) t'.system) later := by
        apply removedAfter_of_none
        simp [createEvent, eventOf, hcreate, Except.toOption]
      have hundone : Undone [createEvent dir (tempName pid sequence) t'.system] :=
        undone_nil.cons (harmless_createEvent List.mem_cons_self) (hremoved _)
      split
      · obtain ⟨new, hnew, herror, hok⟩ := ih
        exact ⟨new, hnew, fun e he => (herror e he).cons
          (harmless_createEvent List.mem_cons_self) (hremoved _), fun h => (hok h).append _⟩
      · exact writeEnds_fail hundone
      · rename_i hok
        cases hok
    | ok ino =>
      have hopened : (createEvent dir (tempName pid sequence) t'.system).opened = some ino := by
        simp [createEvent, eventOf, hcreate, Except.toOption]
      have hsolid := createExclusive_ok hcreate
      apply writeEnds_attempt
      have hwrite := quiet_of_look (exact_writeAll ino content
        (createExclusive dir (tempName pid sequence) t'.system).2) rfl
      have hwritten := hsolid.writeAll content
      split
      · exact writeEnds_cleanUp hopened (by simpa using hwrite) hwritten _
      · apply writeEnds_attempt
        split
        · rename_i hrename
          obtain ⟨moved, hsource, htarget⟩ := renameBetween_ok hrename
          exact writeEnds_pure ⟨_, _, dir, tempName pid sequence, moved, rfl, rfl, hsource, htarget⟩
        · rename_i e hrename
          have hquiet := quiet_of_failed (renameBetween_error hrename)
          exact writeEnds_cleanUp hopened (by simpa using ⟨hwrite, hquiet⟩)
            (hwritten.renameBetween dir (tempName pid sequence) name) _

/-- A write that fails has changed nothing but what it made on the way and what it has removed
again, and one that succeeds ends with the replacement of its entry. -/
structure AtomicWriteEnds (rel : Text) (r : Except ToolError Unit) (log : List SysEvent) :
    Prop where
  undone : ∀ e, r = .error e → Undone log
  placed : r = .ok () → ∃ components name, workspaceComponents rel false = .ok components ∧
    components.getLast? = some name ∧ Placed name log

theorem openParent_name {root : ℕ} {components : List Text} {create : Bool} {path : Text}
    {parent : ℕ × Text} (h : (openParent root components create path t).1 = .ok parent) :
    components.getLast? = some parent.2 := by
  unfold openParent at h
  cases hlast : components.getLast? with
  | none =>
    rw [hlast] at h
    cases h
  | some last =>
    simp only [hlast, Bind.bind] at h
    cases hchain : openDirChain create path root components.dropLast t with
    | mk r t' =>
      rw [hchain] at h
      cases r with
      | error e => cases h
      | ok dir =>
        obtain rfl := Except.ok.inj h
        rfl

theorem atomicWriteEnds (root : ℕ) (rel : Text) (content : Content) (s : System) :
    AtomicWriteEnds rel (atomicWrite root rel content { system := s }).1
      (atomicWrite root rel content { system := s }).2.log := by
  unfold atomicWrite
  cases hcomponents : workspaceComponents rel false with
  | error e => exact ⟨fun _ _ => undone_nil, fun h => by cases h⟩
  | ok components =>
    obtain ⟨quiet, hlog, hquiet⟩ := emits_openParent root components true rel { system := s }
    simp only [Bind.bind, Call.ofExcept]
    have hparentName := @openParent_name { system := s } root components true rel
    cases hparent : openParent root components true rel { system := s } with
    | mk r t =>
      rw [hparent] at hlog hparentName
      simp only [List.nil_append] at hlog
      cases r with
      | error e =>
        refine ⟨fun _ _ => ?_, fun h => by cases h⟩
        simpa [hlog] using undone_nil.append hquiet
      | ok parent =>
        have hname := hparentName rfl
        dsimp only
        unfold atomicWriteAt componentCstring Tools.componentCstring
        split_ifs
        · refine ⟨fun _ _ => ?_, fun h => by cases h⟩
          show Undone t.log
          simpa [hlog] using undone_nil.append hquiet
        · obtain ⟨new, hnew, herror, hok⟩ :=
            @writeEnds_writeAttempts parent.2 t parent.1 content rel 64
          have hend : (writeAttempts parent.1 parent.2 content rel 64 t).2.log = quiet ++ new := by
            rw [hnew, hlog]
          constructor
          · intro e he
            show Undone (writeAttempts parent.1 parent.2 content rel 64 t).2.log
            rw [hend]
            exact (herror e he).append hquiet
          · intro hdone
            refine ⟨components, parent.2, hcomponents, hname, ?_⟩
            show Placed parent.2 (writeAttempts parent.1 parent.2 content rel 64 t).2.log
            rw [hend]
            exact (hok hdone).append quiet

end

section
/-! A disk that is full, and then fails. -/

/-- The temporary file is created, writing to it fails, and so does its removal. -/
def fullDisk : System where
  disk := ⟨[.dir []]⟩
  pid := 7
  nextTemp := 0
  turns := [{}, { fault := some { errno := .other "No space left on device".toList } },
    { fault := some { errno := .other "Input/output error".toList } }]

def savedNotes : WorkspaceOp := .atomicWrite "notes.md".toList (.text "a".toList)

end
end DeepseekScience.Tools.Secure
