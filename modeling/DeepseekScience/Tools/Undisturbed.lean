import DeepseekScience.Tools.Workspace

/-! Workspace access under the write lock: nobody else moves entries, and a file keeps its content
until the rename that replaces it. -/
namespace DeepseekScience.Tools

open Calls

namespace Disk

def fileContent (d : Disk) (ino : ℕ) : Option Content := d.inodes[ino]?.bind Inode.content?

/-- The directory under a name. -/
def step (d : Disk) (dir : ℕ) (name : Text) : Option ℕ := (d.entry dir name).filter d.isDir

/-- The content of the regular file under a name. -/
def fileIn (d : Disk) (dir : ℕ) (name : Text) : Option Content :=
  (d.entry dir name).bind d.fileContent

/-- The directory that is reached through real directories. -/
def walk (d : Disk) : ℕ → List Text → Option ℕ
  | dir, [] => some dir
  | dir, name :: rest => (d.step dir name).bind fun next => d.walk next rest

def fileAt (d : Disk) (root : ℕ) (components : List Text) : Option Content :=
  (d.walk root components.dropLast).bind fun dir =>
    components.getLast?.bind fun name => d.fileIn dir name

/-- Nothing is lost: inodes stay what they are, and entries stay where they are. -/
structure Grows (d d' : Disk) : Prop where
  isDir : ∀ ino, d.isDir ino = true → d'.isDir ino = true
  fileContent : ∀ ino content, d.fileContent ino = some content →
    d'.fileContent ino = some content
  entry : ∀ dir name ino, d.entry dir name = some ino → d'.entry dir name = some ino

theorem Grows.refl (d : Disk) : d.Grows d := ⟨fun _ h => h, fun _ _ h => h, fun _ _ _ h => h⟩

theorem Grows.step {d d' : Disk} (h : d.Grows d') {dir ino : ℕ} {name : Text}
    (hstep : d.step dir name = some ino) : d'.step dir name = some ino := by
  obtain ⟨hentry, hdir⟩ := Option.filter_eq_some_iff.mp hstep
  exact Option.filter_eq_some_iff.mpr ⟨h.entry dir name ino hentry, h.isDir ino hdir⟩

theorem Grows.fileIn {d d' : Disk} (h : d.Grows d') {dir : ℕ} {name : Text} {content : Content}
    (hfile : d.fileIn dir name = some content) : d'.fileIn dir name = some content := by
  obtain ⟨ino, hentry, hcontent⟩ := Option.bind_eq_some_iff.mp hfile
  exact Option.bind_eq_some_iff.mpr
    ⟨ino, h.entry dir name ino hentry, h.fileContent ino content hcontent⟩

/-- A walk only needs its steps. -/
theorem walk_of_steps {d d' : Disk}
    (h : ∀ dir name ino, d.step dir name = some ino → d'.step dir name = some ino) {dir target : ℕ}
    {components : List Text} (hwalk : d.walk dir components = some target) :
    d'.walk dir components = some target := by
  induction components generalizing dir with
  | nil => exact hwalk
  | cons name rest ih =>
    obtain ⟨next, hstep, hrest⟩ := Option.bind_eq_some_iff.mp hwalk
    exact Option.bind_eq_some_iff.mpr ⟨next, h dir name next hstep, ih hrest⟩

theorem Grows.fileAt {d d' : Disk} (h : d.Grows d') {root : ℕ} {components : List Text}
    {content : Content} (hfile : d.fileAt root components = some content) :
    d'.fileAt root components = some content := by
  obtain ⟨dir, hwalk, hrest⟩ := Option.bind_eq_some_iff.mp hfile
  obtain ⟨name, hname, hcontent⟩ := Option.bind_eq_some_iff.mp hrest
  exact Option.bind_eq_some_iff.mpr ⟨dir, walk_of_steps (fun _ _ _ => h.step) hwalk,
    Option.bind_eq_some_iff.mpr ⟨name, hname, h.fileIn hcontent⟩⟩

/-! Changed entries. -/

theorem inodes_modifyEntries (d : Disk) (dir : ℕ) (f : List (Text × ℕ) → List (Text × ℕ))
    (ino : ℕ) : (d.modifyEntries dir f).inodes[ino]? =
      d.inodes[ino]?.map fun inode => if dir = ino then inode.mapEntries f else inode :=
  List.getElem?_modify ..

@[simp] theorem isDir_modifyEntries (d : Disk) (dir : ℕ)
    (f : List (Text × ℕ) → List (Text × ℕ)) (ino : ℕ) :
    (d.modifyEntries dir f).isDir ino = d.isDir ino := by
  unfold isDir
  rw [inodes_modifyEntries]
  cases d.inodes[ino]? with
  | none => rfl
  | some inode =>
    show Inode.isDirectory (if dir = ino then _ else inode) = _
    split_ifs
    · cases inode <;> rfl
    · rfl

@[simp] theorem fileContent_modifyEntries (d : Disk) (dir : ℕ)
    (f : List (Text × ℕ) → List (Text × ℕ)) (ino : ℕ) :
    (d.modifyEntries dir f).fileContent ino = d.fileContent ino := by
  unfold fileContent
  rw [inodes_modifyEntries]
  cases d.inodes[ino]? with
  | none => rfl
  | some inode =>
    show Inode.content? (if dir = ino then _ else inode) = _
    split_ifs
    · cases inode <;> rfl
    · rfl

theorem entries_modifyEntries (d : Disk) (dir : ℕ) (f : List (Text × ℕ) → List (Text × ℕ))
    (dir' : ℕ) : (d.modifyEntries dir f).entries dir' =
      if dir = dir' ∧ d.isDir dir = true then f (d.entries dir') else d.entries dir' := by
  unfold entries isDir
  rw [inodes_modifyEntries]
  by_cases hdir : dir = dir'
  · subst hdir
    cases d.inodes[dir]? with
    | none => simp
    | some inode => cases inode <;> simp [Inode.mapEntries, Inode.entries, Inode.isDirectory]
  · simp only [hdir, false_and, if_false, Option.map_id']

theorem lookup_filter_ne {α : Type} {entries : List (Text × α)} {name name' : Text}
    (h : name' ≠ name) :
    (entries.filter fun e => e.1 != name).lookup name' = entries.lookup name' := by
  induction entries with
  | nil => rfl
  | cons e rest ih =>
    obtain ⟨k, v⟩ := e
    by_cases hk : k = name
    · subst hk
      rw [List.filter_cons_of_neg (by simp), ih, List.lookup_cons, beq_false_of_ne h]
    · rw [List.filter_cons_of_pos (by simpa using hk), List.lookup_cons, List.lookup_cons, ih]

theorem entry_setEntry_self {d : Disk} {dir : ℕ} (hdir : d.isDir dir = true) (name : Text)
    (ino : ℕ) : (d.setEntry dir name ino).entry dir name = some ino := by
  unfold entry setEntry
  rw [entries_modifyEntries, if_pos ⟨rfl, hdir⟩]
  simp

theorem entry_setEntry_of_ne {d : Disk} {dir dir' : ℕ} {name name' : Text}
    (h : dir' ≠ dir ∨ name' ≠ name) (ino : ℕ) :
    (d.setEntry dir name ino).entry dir' name' = d.entry dir' name' := by
  unfold entry setEntry
  rw [entries_modifyEntries]
  split_ifs with hsame
  · obtain ⟨rfl, -⟩ := hsame
    have hne : name' ≠ name := h.resolve_left fun hdir => hdir rfl
    rw [List.lookup_cons, beq_false_of_ne hne, lookup_filter_ne hne]
  · rfl

theorem entry_removeEntry_of_ne {d : Disk} {dir dir' : ℕ} {name name' : Text}
    (h : dir' ≠ dir ∨ name' ≠ name) :
    (d.removeEntry dir name).entry dir' name' = d.entry dir' name' := by
  unfold entry removeEntry
  rw [entries_modifyEntries]
  split_ifs with hsame
  · obtain ⟨rfl, -⟩ := hsame
    exact lookup_filter_ne (h.resolve_left fun hdir => hdir rfl)
  · rfl

theorem isDir_of_entry {d : Disk} {dir ino : ℕ} {name : Text} (h : d.entry dir name = some ino) :
    d.isDir dir = true := by
  unfold entry entries at h
  unfold isDir
  cases hinode : d.inodes[dir]? with
  | none => simp [hinode] at h
  | some inode => cases inode <;> simp_all [Inode.entries, Inode.isDirectory]

theorem isDir_lt {d : Disk} {ino : ℕ} (h : d.isDir ino = true) : ino < d.inodes.length := by
  by_contra hlt
  rw [isDir, List.getElem?_eq_none (by omega)] at h
  cases h

theorem fileContent_lt {d : Disk} {ino : ℕ} {content : Content}
    (h : d.fileContent ino = some content) : ino < d.inodes.length := by
  by_contra hlt
  rw [fileContent, List.getElem?_eq_none (by omega)] at h
  cases h

theorem length_modifyEntries (d : Disk) (dir : ℕ) (f : List (Text × ℕ) → List (Text × ℕ)) :
    (d.modifyEntries dir f).inodes.length = d.inodes.length := List.length_modify ..

/-! A temporary file beside the others. -/

theorem inodes_create_of_lt {d : Disk} {dir ino : ℕ} {name : Text} {inode : Inode}
    (h : ino < d.inodes.length) :
    (d.create dir name inode).inodes[ino]? = (d.setEntry dir name d.inodes.length).inodes[ino]? :=
  List.getElem?_append_left (by
    show ino < (d.modifyEntries dir _).inodes.length
    rw [length_modifyEntries]
    exact h)

theorem entry_create_of_ne {d : Disk} {dir dir' : ℕ} {name name' : Text} {inode : Inode}
    (h : dir' ≠ dir ∨ name' ≠ name) (hdir : d.isDir dir' = true) :
    (d.create dir name inode).entry dir' name' = d.entry dir' name' := by
  have hset := entry_setEntry_of_ne (d := d) h d.inodes.length
  unfold entry entries at hset ⊢
  rw [inodes_create_of_lt (isDir_lt hdir), hset]

theorem grows_create {d : Disk} {dir : ℕ} {name : Text} (hfree : d.entry dir name = none)
    (inode : Inode) : d.Grows (d.create dir name inode) := by
  constructor
  · intro ino h
    unfold isDir
    rw [inodes_create_of_lt (isDir_lt h)]
    show (d.modifyEntries dir _).isDir ino = true
    rw [isDir_modifyEntries, h]
  · intro ino content h
    unfold fileContent
    rw [inodes_create_of_lt (fileContent_lt h)]
    show (d.modifyEntries dir _).fileContent ino = some content
    rw [fileContent_modifyEntries, h]
  · intro dir' name' ino h
    have hne : dir' ≠ dir ∨ name' ≠ name := by
      by_contra hboth
      rw [not_or, not_ne_iff, not_ne_iff] at hboth
      rw [hboth.1, hboth.2, hfree] at h
      cases h
    rw [entry_create_of_ne hne (isDir_of_entry h), h]

theorem entry_create_self {d : Disk} {dir : ℕ} (hdir : d.isDir dir = true) (name : Text)
    (inode : Inode) : (d.create dir name inode).entry dir name = some d.inodes.length := by
  have hset := entry_setEntry_self hdir name d.inodes.length
  unfold entry entries at hset ⊢
  rw [inodes_create_of_lt (isDir_lt hdir), hset]

theorem inodes_create_self (d : Disk) (dir : ℕ) (name : Text) (inode : Inode) :
    (d.create dir name inode).inodes[d.inodes.length]? = some inode := by
  have hlength : (d.setEntry dir name d.inodes.length).inodes.length = d.inodes.length :=
    length_modifyEntries d dir _
  unfold create
  rw [List.getElem?_append_right hlength.le, hlength, Nat.sub_self]
  rfl

theorem inodes_write_of_ne {d : Disk} {ino ino' : ℕ} (h : ino ≠ ino') (content : Content) :
    (d.write ino content).inodes[ino']? = d.inodes[ino']? := List.getElem?_set_ne h

/-- Writing to an inode that is new changes nothing of the others. -/
theorem Grows.write {d d' : Disk} (h : d.Grows d') {ino : ℕ} (hnew : d.inodes.length ≤ ino)
    (hfile : d'.isDir ino = false) (content : Content) : d.Grows (d'.write ino content) := by
  constructor
  · intro ino' h'
    have := isDir_lt h'
    unfold Disk.isDir
    rw [inodes_write_of_ne (by omega)]
    exact h.isDir ino' h'
  · intro ino' content' h'
    have := fileContent_lt h'
    unfold Disk.fileContent
    rw [inodes_write_of_ne (by omega)]
    exact h.fileContent ino' content' h'
  · intro dir name ino' h'
    have hentry := h.entry dir name ino' h'
    have hne : ino ≠ dir := by
      rintro rfl
      rw [isDir_of_entry hentry] at hfile
      cases hfile
    unfold Disk.entry Disk.entries
    rw [inodes_write_of_ne hne]
    exact hentry

theorem Grows.removeEntry {d d' : Disk} (h : d.Grows d') {dir : ℕ} {name : Text}
    (hfree : d.entry dir name = none) : d.Grows (d'.removeEntry dir name) := by
  constructor
  · intro ino h'
    show (d'.modifyEntries dir _).isDir ino = true
    rw [isDir_modifyEntries, h.isDir ino h']
  · intro ino content h'
    show (d'.modifyEntries dir _).fileContent ino = some content
    rw [fileContent_modifyEntries, h.fileContent ino content h']
  · intro dir' name' ino h'
    have hne : dir' ≠ dir ∨ name' ≠ name := by
      by_contra hboth
      rw [not_or, not_ne_iff, not_ne_iff] at hboth
      rw [hboth.1, hboth.2, hfree] at h'
      cases h'
    rw [entry_removeEntry_of_ne hne, h.entry dir' name' ino h']

/-- A file is replaced: the walks stay, and the entry has the new content. -/
structure Replaced (d d' : Disk) (dir : ℕ) (name : Text) (content : Content) : Prop where
  step : ∀ dir' name' ino, d.step dir' name' = some ino → d'.step dir' name' = some ino
  content : d'.fileIn dir name = some content

theorem Replaced.fileAt {d d' : Disk} {root dir : ℕ} {components : List Text} {name : Text}
    {content : Content} (h : Replaced d d' dir name content)
    (hwalk : d.walk root components.dropLast = some dir)
    (hname : components.getLast? = some name) : d'.fileAt root components = some content :=
  Option.bind_eq_some_iff.mpr ⟨dir, walk_of_steps h.step hwalk,
    Option.bind_eq_some_iff.mpr ⟨name, hname, h.content⟩⟩

/-- An inode takes the place of a file. -/
theorem Grows.setEntry {d d' : Disk} (h : d.Grows d') {dir ino : ℕ} {name : Text}
    {old content : Content} (hold : d.fileIn dir name = some old)
    (hcontent : d'.fileContent ino = some content) :
    Replaced d (d'.setEntry dir name ino) dir name content := by
  obtain ⟨oldIno, hentry, hfile⟩ := Option.bind_eq_some_iff.mp hold
  constructor
  · intro dir' name' ino' hstep
    obtain ⟨hentry', hdir⟩ := Option.filter_eq_some_iff.mp hstep
    have hne : dir' ≠ dir ∨ name' ≠ name := by
      by_contra hboth
      rw [not_or, not_ne_iff, not_ne_iff] at hboth
      rw [hboth.1, hboth.2, hentry] at hentry'
      obtain rfl := Option.some.inj hentry'
      unfold Disk.isDir at hdir
      unfold Disk.fileContent at hfile
      cases hinode : d.inodes[oldIno]? with
      | none => simp [hinode] at hdir
      | some inode => cases inode <;> simp_all [Inode.isDirectory, Inode.content?]
    apply Option.filter_eq_some_iff.mpr
    rw [entry_setEntry_of_ne hne, h.entry dir' name' ino' hentry']
    constructor
    · rfl
    · show (d'.modifyEntries dir _).isDir ino' = true
      rw [isDir_modifyEntries, h.isDir ino' hdir]
  · apply Option.bind_eq_some_iff.mpr
    use ino
    constructor
    · exact entry_setEntry_self (h.isDir dir (isDir_of_entry hentry)) name ino
    · show (d'.modifyEntries dir _).fileContent ino = some content
      rw [fileContent_modifyEntries, hcontent]

end Disk

/-! System calls while nobody else moves entries. -/

def Quiet (turns : List Turn) : Prop := ∀ turn ∈ turns, turn.moves = []

/-- The disk is as it is given, and only failures are to come. -/
structure On (d : Disk) (s : System) : Prop where
  disk : s.disk = d
  quiet : Quiet s.turns

variable {d : Disk}

theorem On.enter {s : System} (h : On d s) : On d s.enter.2 := by
  obtain ⟨disk, pid, nextTemp, turns⟩ := s
  obtain ⟨rfl, hquiet⟩ := h
  cases turns with
  | nil => exact ⟨rfl, hquiet⟩
  | cons turn turns =>
    constructor
    · show turn.moves.foldl Disk.move disk = disk
      rw [hquiet turn (List.mem_cons_self ..)]
      rfl
    · intro other hother
      exact hquiet other (List.mem_cons_of_mem _ hother)

/-- A call does what it does on the disk, or fails and leaves the disk alone. -/
theorem triple_systemCall {α : Type} (act : Disk → Except Errno (α × Disk)) :
    Triple (On d) (systemCall act) fun r s =>
      (∃ a d', act d = .ok (a, d') ∧ r = .ok a ∧ On d' s) ∨ ∃ e, r = .error e ∧ On d s := by
  constructor
  intro s hs
  have henter := hs.enter
  unfold systemCall
  cases hrun : s.enter with
  | mk fault s' =>
    rw [hrun] at henter
    cases fault with
    | some fault => exact Or.inr ⟨fault.errno, rfl, henter⟩
    | none =>
      obtain ⟨hdisk, hquiet⟩ := henter
      have hdisk : s'.disk = d := hdisk
      dsimp only
      rw [hdisk]
      cases hact : act d with
      | error e => exact Or.inr ⟨e, rfl, hdisk, hquiet⟩
      | ok result =>
        obtain ⟨a, d'⟩ := result
        exact Or.inl ⟨a, d', rfl, rfl, rfl, hquiet⟩

theorem openDirectory_spec (dir : ℕ) (name : Text) :
    Triple (On d) (openDirectory dir name) fun r s => On d s ∧
      ∀ ino, r = .ok ino → d.step dir name = some ino := by
  unfold openDirectory
  apply (triple_systemCall _).imp fun _ h => h
  rintro r s (⟨ino, d', hact, rfl, hs⟩ | ⟨e, rfl, hs⟩)
  · cases hentry : d.entry dir name with
    | none => simp [hentry] at hact
    | some found =>
      simp only [hentry] at hact
      split at hact
      · rename_i entries hinode
        obtain ⟨rfl, rfl⟩ := Prod.mk.inj (Except.ok.inj hact)
        constructor
        · exact hs
        · intro ino' hino'
          obtain rfl := Except.ok.inj hino'
          apply Option.filter_eq_some_iff.mpr
          constructor
          · exact hentry
          · unfold Disk.isDir
            rw [hinode]
            rfl
      · cases hact
      · cases hact
  · exact ⟨hs, fun _ h => by cases h⟩

/-- A name with a NUL fails; any other is taken as it is. -/
theorem triple_componentCstring {α : Type} {name : Text} {f : Text → SystemCall ToolError α}
    {post : Except ToolError α → System → Prop}
    (hf : '\x00' ∉ name → Triple (On d) (f name) post)
    (herror : ∀ e s, On d s → post (.error e) s) :
    Triple (On d) (componentCstring name >>= f) post := by
  unfold componentCstring
  split_ifs with hnul
  · exact ⟨fun s hs => herror _ s hs⟩
  · exact ⟨(hf (by simpa using hnul)).run⟩

theorem openDirAt_spec (parent : ℕ) (name path : Text) :
    Triple (On d) (openDirAt parent name path) fun r s => On d s ∧
      ∀ ino, r = .ok ino → d.step parent name = some ino ∧ '\x00' ∉ name := by
  unfold openDirAt
  apply triple_componentCstring
  · intro hnul
    apply (triple_mapError (openDirectory_spec parent name)).imp fun _ h => h
    rintro r s ⟨inner, rfl, hs, hstep⟩
    constructor
    · exact hs
    · intro ino hino
      cases inner with
      | error e => cases hino
      | ok ino' => exact ⟨hstep ino (congrArg Except.ok (Except.ok.inj hino)), hnul⟩
  · intro e s hs
    exact ⟨hs, fun _ h => by cases h⟩

/-- Nothing is made where there is an entry. -/
theorem mkdirAt_spec {parent ino : ℕ} {name : Text} (hentry : d.entry parent name = some ino) :
    Triple (On d) (mkdirAt parent name) fun _ s => On d s := by
  have hmkdir : Triple (On d) (mkdirat parent name) fun _ s => On d s := by
    unfold mkdirat
    apply (triple_systemCall _).imp fun _ h => h
    rintro r s (⟨_, d', hact, -, -⟩ | ⟨e, -, hs⟩)
    · rw [hentry] at hact
      cases hact
    · exact hs
  unfold mkdirAt
  apply triple_componentCstring
  · intro _
    apply triple_bind (triple_attempt hmkdir)
    · intro r
      constructor
      rintro s ⟨inner, -, hs⟩
      split <;> exact hs
    · rintro e s ⟨inner, hinner, -⟩
      cases hinner
  · exact fun e s hs => hs

/-- The disk is as before, and a result is the directory that a walk reaches. -/
def EndsAt (d : Disk) (dir : ℕ) (components : List Text) (r : Except ToolError ℕ) (s : System) :
    Prop :=
  On d s ∧ ∀ target, r = .ok target →
    d.walk dir components = some target ∧ ∀ c ∈ components, '\x00' ∉ c

theorem endsAt_error {dir : ℕ} {components : List Text} (e : ToolError) (s : System) (h : On d s) :
    EndsAt d dir components (.error e) s := ⟨h, fun _ htarget => by cases htarget⟩

/-- The chain ends in the directory that a walk reaches; where there is one nothing is made. By
induction on the components. -/
theorem openDirChain_spec {create : Bool} {path : Text} {dir : ℕ} {components : List Text}
    (hcreate : create = true → (d.walk dir components).isSome) :
    Triple (On d) (openDirChain create path dir components) (EndsAt d dir components) := by
  induction components generalizing dir with
  | nil =>
    apply triple_pure
    intro s hs
    constructor
    · exact hs
    · intro target htarget
      obtain rfl := Except.ok.inj htarget
      exact ⟨rfl, fun c hc => absurd hc List.not_mem_nil⟩
  | cons component rest ih =>
    -- What follows from the next directory, however it was opened.
    have hnext : ∀ next, d.step dir component = some next → '\x00' ∉ component →
        Triple (On d) (openDirChain create path next rest) (EndsAt d dir (component :: rest)) := by
      intro next hstep hnul
      have hwalk : d.walk dir (component :: rest) = d.walk next rest := by
        rw [Disk.walk, hstep]
        rfl
      rw [hwalk] at hcreate
      apply (ih hcreate).imp fun _ h => h
      rintro r s ⟨hs, hrest⟩
      constructor
      · exact hs
      · intro target htarget
        obtain ⟨htarget, hcomponents⟩ := hrest target htarget
        rw [hwalk]
        exact ⟨htarget, List.forall_mem_cons.mpr ⟨hnul, hcomponents⟩⟩
    have hopen : Triple (On d) (openDirAt dir component path >>= fun next =>
        openDirChain create path next rest) (EndsAt d dir (component :: rest)) := by
      apply triple_bind (openDirAt_spec dir component path)
      · intro next
        constructor
        rintro s ⟨hs, hopened⟩
        obtain ⟨hstep, hnul⟩ := hopened next rfl
        exact (hnext next hstep hnul).run s hs
      · intro e s hs
        exact endsAt_error e s hs.1
    rw [openDirChain]
    apply triple_bind (triple_attempt (openDirAt_spec dir component path))
    · intro r
      constructor
      rintro s ⟨inner, hinner, hs, hopened⟩
      obtain rfl := Except.ok.inj hinner
      split
      · rename_i next
        obtain ⟨hstep, hnul⟩ := hopened next rfl
        exact (hnext next hstep hnul).run s hs
      · split_ifs with hmake
        · obtain ⟨target, htarget⟩ := Option.isSome_iff_exists.mp (hcreate hmake)
          obtain ⟨next, hstep, -⟩ := Option.bind_eq_some_iff.mp htarget
          have hentry := (Option.filter_eq_some_iff.mp hstep).1
          exact (triple_bind (mkdirAt_spec hentry) (fun _ => hopen) endsAt_error).run s hs
        · exact endsAt_error _ s hs
      · exact endsAt_error _ s hs
    · rintro e s ⟨inner, hinner, -⟩
      cases hinner

theorem openParent_spec {create : Bool} {path : Text} {root : ℕ} {components : List Text}
    (hcreate : create = true → (d.walk root components.dropLast).isSome) :
    Triple (On d) (openParent root components create path) fun r s => On d s ∧
      ∀ parent, r = .ok parent → d.walk root components.dropLast = some parent.1 ∧
        components.getLast? = some parent.2 ∧ ∀ c ∈ components.dropLast, '\x00' ∉ c := by
  unfold openParent
  cases hlast : components.getLast? with
  | none =>
    apply triple_fail
    intro s hs
    exact ⟨hs, fun _ h => by cases h⟩
  | some name =>
    apply triple_bind (openDirChain_spec hcreate)
    · intro dir
      apply triple_pure
      rintro s ⟨hs, hdir⟩
      constructor
      · exact hs
      · intro parent hparent
        obtain rfl := Except.ok.inj hparent
        obtain ⟨hwalk, hnames⟩ := hdir dir rfl
        exact ⟨hwalk, rfl, hnames⟩
    · intro e s hs
      exact ⟨hs.1, fun _ h => by cases h⟩

/-! Reading a file. -/

/-- The components of a path that a system call takes. -/
def filePath (path : Text) : Option (List Text) :=
  (workspaceComponents path false).toOption.filter fun components =>
    components.all fun c => !c.contains '\x00'

/-- The content of the regular file at a path. -/
def Disk.fileOf (d : Disk) (root : ℕ) (path : Text) : Option Content :=
  (filePath path).bind (d.fileAt root)

/-- The inode is the regular file at a path. -/
def IsFileOf (d : Disk) (root : ℕ) (path : Text) (ino : ℕ) : Prop :=
  ∃ components dir name content, filePath path = some components ∧
    d.walk root components.dropLast = some dir ∧ components.getLast? = some name ∧
    d.entry dir name = some ino ∧ d.fileContent ino = some content

theorem isFileOf_fileOf {root ino : ℕ} {path : Text} (h : IsFileOf d root path ino) :
    d.fileOf root path = d.fileContent ino := by
  obtain ⟨components, dir, name, content, hpath, hwalk, hname, hentry, -⟩ := h
  simp [Disk.fileOf, hpath, Disk.fileAt, hwalk, hname, Disk.fileIn, hentry]

theorem openRead_spec (dir : ℕ) (name : Text) :
    Triple (On d) (openRead dir name) fun r s => On d s ∧
      ∀ ino, r = .ok ino → d.entry dir name = some ino := by
  unfold openRead
  apply (triple_systemCall _).imp fun _ h => h
  rintro r s (⟨ino, d', hact, rfl, hs⟩ | ⟨e, rfl, hs⟩)
  · cases hentry : d.entry dir name with
    | none => simp [hentry] at hact
    | some found =>
      simp only [hentry] at hact
      split at hact
      · cases hact
      · cases hact
      · obtain ⟨rfl, rfl⟩ := Prod.mk.inj (Except.ok.inj hact)
        exact ⟨hs, fun _ h => congrArg some (Except.ok.inj h)⟩
  · exact ⟨hs, fun _ h => by cases h⟩

theorem isRegular_spec (ino : ℕ) :
    Triple (On d) (isRegular ino) fun r s => On d s ∧
      (r = .ok true → ∃ content, d.fileContent ino = some content) := by
  unfold isRegular
  apply (triple_systemCall _).imp fun _ h => h
  rintro r s (⟨regular, d', hact, rfl, hs⟩ | ⟨e, rfl, hs⟩)
  · split at hact
    · rename_i content hinode
      obtain ⟨rfl, rfl⟩ := Prod.mk.inj (Except.ok.inj hact)
      exact ⟨hs, fun _ => ⟨content, by rw [Disk.fileContent, hinode]; rfl⟩⟩
    · obtain ⟨rfl, rfl⟩ := Prod.mk.inj (Except.ok.inj hact)
      exact ⟨hs, fun h => by cases h⟩
  · exact ⟨hs, fun h => by cases h⟩

theorem openRegularAt_spec (parent : ℕ) (name path : Text) :
    Triple (On d) (openRegularAt parent name path) fun r s => On d s ∧
      ∀ ino, r = .ok ino → '\x00' ∉ name ∧ d.entry parent name = some ino ∧
        ∃ content, d.fileContent ino = some content := by
  unfold openRegularAt
  apply triple_componentCstring
  · intro hnul
    apply triple_bind (triple_mapError (openRead_spec parent name))
    · intro file
      constructor
      rintro s ⟨inner, hinner, hs, hopened⟩
      have hentry : d.entry parent name = some file := by
        cases inner with
        | error e => cases hinner
        | ok ino => exact hopened file (congrArg Except.ok (Except.ok.inj hinner).symm)
      apply (triple_bind (Q := fun r s => On d s ∧ ∀ ino, r = .ok ino → '\x00' ∉ name ∧
        d.entry parent name = some ino ∧ ∃ content, d.fileContent ino = some content)
        (triple_mapError (isRegular_spec file)) _ _).run s hs
      · intro regular
        constructor
        rintro s ⟨inner, hinner, hs, hregular⟩
        split_ifs with htrue
        · constructor
          · exact hs
          · intro ino hino
            obtain rfl := Except.ok.inj hino
            constructor
            · exact hnul
            · constructor
              · exact hentry
              · apply hregular
                cases inner with
                | error e => cases hinner
                | ok b => rw [← Except.ok.inj hinner, htrue]
        · exact ⟨hs, fun _ h => by cases h⟩
      · rintro e s ⟨inner, -, hs, -⟩
        exact ⟨hs, fun _ h => by cases h⟩
    · rintro e s ⟨inner, -, hs, -⟩
      exact ⟨hs, fun _ h => by cases h⟩
  · intro e s hs
    exact ⟨hs, fun _ h => by cases h⟩

theorem filePath_eq_some {path : Text} {components : List Text}
    (h : workspaceComponents path false = .ok components) (hnul : ∀ c ∈ components, '\x00' ∉ c) :
    filePath path = some components := by
  unfold filePath
  rw [h]
  apply Option.filter_eq_some_iff.mpr
  constructor
  · rfl
  · rw [List.all_eq_true]
    intro c hc
    simpa using hnul c hc

theorem openFile_spec (root : ℕ) (rel : Text) :
    Triple (On d) (openFile root rel) fun r s => On d s ∧
      ∀ ino, r = .ok ino → IsFileOf d root rel ino := by
  unfold openFile
  apply triple_bind (triple_ofExcept (r := workspaceComponents rel false)
    (Q := fun r s => r = workspaceComponents rel false ∧ On d s) fun s hs => ⟨rfl, hs⟩)
  · intro components
    constructor
    rintro s ⟨hcomponents, hs⟩
    apply (triple_bind (Q := fun r s => On d s ∧ ∀ ino, r = .ok ino → IsFileOf d root rel ino)
      (openParent_spec fun h => by cases h) _ _).run s hs
    · intro parent
      constructor
      rintro s ⟨hs, hparent⟩
      obtain ⟨hwalk, hname, hnames⟩ := hparent parent rfl
      obtain ⟨hs', hopened⟩ := (openRegularAt_spec parent.1 parent.2 rel).run s hs
      constructor
      · exact hs'
      · intro ino hino
        obtain ⟨hnul, hentry, content, hcontent⟩ := hopened ino hino
        use components, parent.1, parent.2, content
        constructor
        · apply filePath_eq_some hcomponents.symm
          intro c hc
          have hsplit := List.dropLast_append_getLast? parent.2 hname
          rw [← hsplit] at hc
          rcases List.mem_append.mp hc with hc | hc
          · exact hnames c hc
          · rw [List.mem_singleton.mp hc]
            exact hnul
        · exact ⟨hwalk, hname, hentry, hcontent⟩
    · intro e s hs
      exact ⟨hs.1, fun _ h => by cases h⟩
  · intro e s hs
    exact ⟨hs.2, fun _ h => by cases h⟩

theorem readToString_spec (ino : ℕ) :
    Triple (On d) (readToString ino) fun r s => On d s ∧
      ∀ t, r = .ok t → d.fileContent ino = some (.text t) := by
  have hread : Triple (On d) (readContent ino) fun r s => On d s ∧
      ∀ content, r = .ok content → d.fileContent ino = some content := by
    unfold readContent
    apply (triple_systemCall _).imp fun _ h => h
    rintro r s (⟨content, d', hact, rfl, hs⟩ | ⟨e, rfl, hs⟩)
    · split at hact
      · rename_i found hinode
        obtain ⟨rfl, rfl⟩ := Prod.mk.inj (Except.ok.inj hact)
        constructor
        · exact hs
        · intro content hcontent
          obtain rfl := Except.ok.inj hcontent
          rw [Disk.fileContent, hinode]
          rfl
      · cases hact
    · exact ⟨hs, fun _ h => by cases h⟩
  unfold readToString
  apply triple_bind (triple_mapError hread)
  · intro content
    constructor
    rintro s ⟨inner, hinner, hs, hcontent⟩
    have hfound : d.fileContent ino = some content := by
      cases inner with
      | error e => cases hinner
      | ok found => exact hcontent content (congrArg Except.ok (Except.ok.inj hinner).symm)
    split
    · rename_i text
      constructor
      · exact hs
      · intro t ht
        obtain rfl := Except.ok.inj ht
        exact hfound
    · exact ⟨hs, fun _ h => by cases h⟩
  · rintro e s ⟨inner, -, hs, -⟩
    exact ⟨hs, fun _ h => by cases h⟩

end DeepseekScience.Tools
