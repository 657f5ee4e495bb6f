import DeepseekScience.Tools.Undisturbed

/-! A file is replaced as a whole or not at all, wherever the write fails. -/
namespace DeepseekScience.Tools

open Calls

variable {d : Disk}

theorem writeAll_spec (ino : ℕ) (content : Content) :
    Triple (On d) (writeAll ino content) fun r s =>
      (r = .ok () ∧ On (d.write ino content) s) ∨
        ∃ e left, r = .error e ∧ On (d.write ino left) s := by
  constructor
  intro s hs
  have henter := hs.enter
  unfold writeAll
  cases hrun : s.enter with
  | mk fault s' =>
    rw [hrun] at henter
    obtain ⟨rfl, hquiet⟩ := henter
    cases fault with
    | some fault => exact Or.inr ⟨fault.errno, fault.left, rfl, rfl, hquiet⟩
    | none => exact Or.inl ⟨rfl, rfl, hquiet⟩

theorem createExclusive_spec (dir : ℕ) (name : Text) :
    Triple (On d) (createExclusive dir name) fun r s =>
      (r = .ok d.inodes.length ∧ d.entry dir name = none ∧
        On (d.create dir name (.file (.text []))) s) ∨ ∃ e, r = .error e ∧ On d s := by
  unfold createExclusive
  apply (triple_systemCall _).imp fun _ h => h
  rintro r s (⟨ino, d', hact, rfl, hs⟩ | h)
  · cases hentry : d.entry dir name with
    | some found =>
      rw [hentry] at hact
      cases hact
    | none =>
      rw [hentry] at hact
      obtain ⟨rfl, rfl⟩ := Prod.mk.inj (Except.ok.inj hact)
      exact Or.inl ⟨rfl, rfl, hs⟩
  · exact Or.inr h

theorem unlinkat_spec (dir : ℕ) (name : Text) :
    Triple (On d) (unlinkat dir name) fun _ s => On d s ∨ On (d.removeEntry dir name) s := by
  unfold unlinkat
  apply (triple_systemCall _).imp fun _ h => h
  rintro r s (⟨_, d', hact, -, hs⟩ | ⟨e, -, hs⟩)
  · split at hact
    · cases hact
    · cases hact
    · obtain ⟨-, rfl⟩ := Prod.mk.inj (Except.ok.inj hact)
      exact Or.inr hs
  · exact Or.inl hs

/-- A file takes the place of another file. -/
theorem renameat_spec {dir ino oldIno : ℕ} {temp name : Text} {old : Content}
    (htemp : d.entry dir temp = some ino) (hname : d.entry dir name = some oldIno)
    (hold : d.fileContent oldIno = some old) (hne : oldIno ≠ ino) (hfile : d.isDir ino = false) :
    Triple (On d) (renameat dir temp name) fun r s =>
      (r = .ok () ∧ On ((d.removeEntry dir temp).setEntry dir name ino) s) ∨
        ∃ e, r = .error e ∧ On d s := by
  obtain ⟨oldInode, hinode, hcontent⟩ := Option.bind_eq_some_iff.mp hold
  have htarget : d.inode dir name = some oldInode := by
    unfold Disk.inode
    rw [hname]
    exact hinode
  unfold renameat
  apply (triple_systemCall _).imp fun _ h => h
  rintro r s (⟨_, d', hact, rfl, hs⟩ | h)
  · simp only [htemp, hname, htarget, hfile, Option.some.injEq, hne, if_false] at hact
    cases oldInode with
    | file content =>
      obtain ⟨-, rfl⟩ := Prod.mk.inj (Except.ok.inj hact)
      exact Or.inl ⟨rfl, hs⟩
    | _ => cases hcontent
  · exact Or.inr h

/-- The file has been replaced, or nothing is lost. -/
def WroteOrKept (d : Disk) (dir : ℕ) (name : Text) (content : Content)
    (r : Except ToolError Unit) (s : System) : Prop :=
  Quiet s.turns ∧ (r = .ok () → d.Replaced s.disk dir name content) ∧
    ∀ e, r = .error e → d.Grows s.disk

theorem wroteOrKept_error {dir : ℕ} {name : Text} {content : Content} {s : System} {d' : Disk}
    (hs : On d' s) (hgrows : d.Grows d') (e : ToolError) :
    WroteOrKept d dir name content (.error e) s := by
  obtain ⟨rfl, hquiet⟩ := hs
  exact ⟨hquiet, fun h => (by cases h), fun _ _ => hgrows⟩

/-- The temporary file goes, or stays when that fails; nothing else changes. -/
theorem cleanup_spec {d' : Disk} {dir : ℕ} {temp name : Text} {content : Content}
    (hgrows : d.Grows d') (hfree : d.entry dir temp = none) (e : ToolError) :
    Triple (On d') (cleanUp dir temp >>= fun _ => Call.fail e)
      (WroteOrKept d dir name content) := by
  constructor
  intro s hs
  show WroteOrKept d dir name content (.error e) (unlinkat dir temp s).2
  rcases (unlinkat_spec dir temp).run s hs with hs | hs
  · exact wroteOrKept_error hs hgrows e
  · exact wroteOrKept_error hs (hgrows.removeEntry hfree) e

/-- The disk with a temporary file. -/
def withTemp (d : Disk) (dir : ℕ) (temp : Text) (content : Content) : Disk :=
  (d.create dir temp (.file (.text []))).write d.inodes.length content

theorem withTemp_inode (dir : ℕ) (temp : Text) (content : Content) :
    (withTemp d dir temp content).inodes[d.inodes.length]? = some (.file content) := by
  apply List.getElem?_set_self
  have hsome := Disk.inodes_create_self d dir temp (.file (.text []))
  exact (List.getElem?_eq_some_iff.mp hsome).1

theorem withTemp_isDir (dir : ℕ) (temp : Text) (content : Content) :
    (withTemp d dir temp content).isDir d.inodes.length = false := by
  unfold Disk.isDir
  rw [withTemp_inode]
  rfl

theorem withTemp_fileContent (dir : ℕ) (temp : Text) (content : Content) :
    (withTemp d dir temp content).fileContent d.inodes.length = some content := by
  unfold Disk.fileContent
  rw [withTemp_inode]
  rfl

theorem withTemp_entry {dir : ℕ} (hdir : d.isDir dir = true) (temp : Text) (content : Content) :
    (withTemp d dir temp content).entry dir temp = some d.inodes.length := by
  rw [← Disk.entry_create_self hdir temp (.file (.text []))]
  unfold withTemp Disk.entry Disk.entries
  rw [Disk.inodes_write_of_ne (Disk.isDir_lt hdir).ne']

theorem withTemp_grows {dir : ℕ} {temp : Text} (hfree : d.entry dir temp = none)
    (content : Content) : d.Grows (withTemp d dir temp content) := by
  apply (Disk.grows_create hfree _).write le_rfl
  unfold Disk.isDir
  rw [Disk.inodes_create_self]
  rfl

/-- Every attempt replaces the file or keeps it, by induction on the attempts. -/
theorem writeAttempts_spec {dir : ℕ} {name : Text} {old content : Content} {path : Text}
    (hold : d.fileIn dir name = some old) (attempts : ℕ) :
    Triple (On d) (writeAttempts dir name content path attempts)
      (WroteOrKept d dir name content) := by
  obtain ⟨oldIno, hentry, hcontent⟩ := Option.bind_eq_some_iff.mp hold
  induction attempts with
  | zero =>
    apply triple_fail
    intro s hs
    exact wroteOrKept_error hs (Disk.Grows.refl d) _
  | succ attempts ih =>
    rw [writeAttempts]
    apply triple_bind (R := fun r s => (∃ temp, r = .ok temp) ∧ On d s)
    · exact ⟨fun s hs => ⟨⟨_, rfl⟩, hs.disk, hs.quiet⟩⟩
    · intro temp
      apply triple_bind (triple_attempt ((createExclusive_spec dir temp).imp (fun _ h => h.2)
        fun _ _ h => h))
      · intro r
        constructor
        rintro s ⟨inner, hinner, hcreated⟩
        obtain rfl := Except.ok.inj hinner
        rcases hcreated with ⟨rfl, hfree, hs⟩ | ⟨e, rfl, hs⟩
        · have hdir := Disk.isDir_of_entry hentry
          dsimp only
          apply (triple_bind (Q := WroteOrKept d dir name content)
            (triple_attempt (writeAll_spec d.inodes.length content)) _ _).run s hs
          · intro r
            constructor
            rintro s ⟨inner, hinner, hwritten⟩
            obtain rfl := Except.ok.inj hinner
            rcases hwritten with ⟨rfl, hs⟩ | ⟨e, left, rfl, hs⟩
            · have hgrows := withTemp_grows hfree content
              have hrename := renameat_spec (withTemp_entry hdir temp content)
                (hgrows.entry dir name oldIno hentry) (hgrows.fileContent oldIno old hcontent)
                (Disk.fileContent_lt hcontent).ne (withTemp_isDir dir temp content)
              dsimp only
              apply (triple_bind (Q := WroteOrKept d dir name content)
                (triple_attempt hrename) _ _).run s hs
              · intro r
                constructor
                rintro s ⟨inner, hinner, hrenamed⟩
                obtain rfl := Except.ok.inj hinner
                rcases hrenamed with ⟨rfl, hs⟩ | ⟨e, rfl, hs⟩
                · obtain ⟨hdisk, hquiet⟩ := hs
                  constructor
                  · exact hquiet
                  · constructor
                    · intro _
                      show d.Replaced s.disk dir name content
                      rw [hdisk]
                      apply (hgrows.removeEntry hfree).setEntry hold
                      show (Disk.modifyEntries _ dir _).fileContent d.inodes.length = some content
                      rw [Disk.fileContent_modifyEntries, withTemp_fileContent]
                    · intro e h
                      cases h
                · exact (cleanup_spec hgrows hfree _).run s hs
              · rintro e s ⟨inner, hinner, -⟩
                cases hinner
            · exact (cleanup_spec (withTemp_grows hfree left) hfree _).run s hs
          · rintro e s ⟨inner, hinner, -⟩
            cases hinner
        · cases e with
          | exist => exact ih.run s hs
          | _ => exact wroteOrKept_error hs (Disk.Grows.refl d) _
      · rintro e s ⟨inner, hinner, -⟩
        cases hinner
    · rintro e s ⟨⟨temp, htemp⟩, -⟩
      cases htemp

/-- What a write leaves at a path: the new content when it succeeds, else the old one. -/
def LeavesAt (d : Disk) (root : ℕ) (path : Text) (content : Content)
    (r : Except ToolError Unit) (s : System) : Prop :=
  (r = .ok () → s.disk.fileOf root path = some content) ∧
    ∀ e, r = .error e → s.disk.fileOf root path = d.fileOf root path

theorem leavesAt_kept {root : ℕ} {path : Text} {content old : Content} {s : System}
    (hold : d.fileOf root path = some old) (hgrows : d.Grows s.disk) (e : ToolError) :
    LeavesAt d root path content (.error e) s := by
  constructor
  · intro h
    cases h
  · intro _ _
    obtain ⟨components, hpath, hfile⟩ := Option.bind_eq_some_iff.mp hold
    rw [hold]
    unfold Disk.fileOf
    rw [hpath]
    exact hgrows.fileAt hfile

theorem atomicWrite_spec {root : ℕ} {path : Text} {old content : Content}
    (hold : d.fileOf root path = some old) :
    Triple (On d) (atomicWrite root path content) (LeavesAt d root path content) := by
  obtain ⟨components, hpath, hfile⟩ := Option.bind_eq_some_iff.mp hold
  obtain ⟨dir, hwalk, hrest⟩ := Option.bind_eq_some_iff.mp hfile
  obtain ⟨name, hname, hcontent⟩ := Option.bind_eq_some_iff.mp hrest
  have hkept : ∀ (e : ToolError) s, On d s → LeavesAt d root path content (.error e) s := by
    intro e s hs
    apply leavesAt_kept hold
    rw [hs.disk]
    exact Disk.Grows.refl d
  have hcomponents : workspaceComponents path false = .ok components := by
    obtain ⟨hok, -⟩ := Option.filter_eq_some_iff.mp hpath
    cases hresult : workspaceComponents path false with
    | error e =>
      rw [hresult] at hok
      cases hok
    | ok found =>
      rw [hresult] at hok
      rw [Option.some.inj hok]
  unfold atomicWrite
  rw [hcomponents]
  apply triple_bind (triple_ofExcept (r := .ok components)
    (Q := fun r s => r = .ok components ∧ On d s) fun s hs => ⟨rfl, hs⟩)
  · intro found
    constructor
    rintro s ⟨hfound, hs⟩
    obtain rfl := Except.ok.inj hfound
    apply (triple_bind (Q := LeavesAt d root path content)
      (openParent_spec fun _ => by rw [hwalk]; rfl) _ _).run s hs
    · intro parent
      constructor
      rintro s ⟨hs, hparent⟩
      obtain ⟨hwalk', hname', -⟩ := hparent parent rfl
      obtain rfl := Option.some.inj (hwalk.symm.trans hwalk')
      obtain rfl := Option.some.inj (hname.symm.trans hname')
      apply (triple_componentCstring _ hkept).run s hs
      intro _
      apply (writeAttempts_spec hcontent 64).imp fun _ h => h
      rintro r s ⟨-, hreplaced, hgrows⟩
      cases r with
      | ok u =>
        constructor
        · intro _
          unfold Disk.fileOf
          rw [hpath]
          exact (hreplaced rfl).fileAt hwalk hname
        · intro e h
          cases h
      | error e => exact leavesAt_kept hold (hgrows e rfl) e
    · intro e s hs
      exact hkept e s hs.1
  · rintro e s ⟨h, -⟩
    cases h

end DeepseekScience.Tools
