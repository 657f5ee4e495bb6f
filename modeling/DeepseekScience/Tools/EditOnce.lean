import DeepseekScience.Tools.AtomicWrite
import DeepseekScience.Tools.EditFile

/-! An edit replaces the only occurrence of a text, unless other occurrences overlap the one that
is found. -/
namespace DeepseekScience.Tools

open Calls Occurrences

section
variable {pattern replacement t : Text}

/-- Several occurrences, all beginning within the first. -/
def OverlapsOnly (pattern t : Text) : Prop :=
  ∃ i, Occurs pattern t i ∧ (∀ j, Occurs pattern t j → i ≤ j ∧ j < i + pattern.length) ∧
    ∃ j, i < j ∧ Occurs pattern t j

theorem matchCount_eq_zero (hne : pattern ≠ []) :
    matchCount pattern t = 0 ↔ ∀ i, ¬Occurs pattern t i := by
  rw [← first_eq_none hne, matchCount_first hne]
  cases first pattern t with
  | none => simp
  | some i => simp

theorem matchCount_eq_one (hne : pattern ≠ []) :
    matchCount pattern t = 1 ↔ ∃ i, first pattern t = some i ∧
      ∀ j, i + pattern.length ≤ j → ¬Occurs pattern t j := by
  rw [matchCount_first hne]
  cases first pattern t with
  | none => simp
  | some i =>
    have hrest : matchCount pattern (t.drop (i + pattern.length)) = 0 ↔
        ∀ j, i + pattern.length ≤ j → ¬Occurs pattern t j := by
      rw [matchCount_eq_zero hne]
      constructor
      · intro h j hj hoccurs
        apply h (j - (i + pattern.length))
        rw [occurs_drop, Nat.add_sub_cancel' hj]
        exact hoccurs
      · intro h j hoccurs
        exact h _ (Nat.le_add_right _ j) (occurs_drop.mp hoccurs)
    simp only [Option.some.injEq, exists_eq_left']
    rw [← hrest]
    omega

/-- One match is the only occurrence, or the others overlap it. -/
theorem matchCount_eq_one_iff (hne : pattern ≠ []) :
    matchCount pattern t = 1 ↔ (∃! i, Occurs pattern t i) ∨ OverlapsOnly pattern t := by
  rw [matchCount_eq_one hne]
  constructor
  · rintro ⟨i, hfirst, hbehind⟩
    obtain ⟨hoccurs, hbefore⟩ := (first_eq_some hne).mp hfirst
    have hwithin : ∀ j, Occurs pattern t j → i ≤ j ∧ j < i + pattern.length := by
      intro j hj
      constructor
      · exact Nat.le_of_not_lt fun hlt => hbefore j hlt hj
      · exact Nat.lt_of_not_le fun hle => hbehind j hle hj
    by_cases hother : ∃ j, i < j ∧ Occurs pattern t j
    · exact Or.inr ⟨i, hoccurs, hwithin, hother⟩
    · left
      use i
      constructor
      · exact hoccurs
      · intro j hj
        by_contra hne'
        apply hother
        have := hwithin j hj
        exact ⟨j, by omega, hj⟩
  · rintro (⟨i, hoccurs, honly⟩ | ⟨i, hoccurs, hwithin, -⟩)
    · use i
      constructor
      · apply (first_eq_some hne).mpr
        constructor
        · exact hoccurs
        · intro j hlt hj
          have := honly j hj
          omega
      · intro j hle hj
        have := honly j hj
        have hpos := List.length_pos_of_ne_nil hne
        omega
    · use i
      constructor
      · apply (first_eq_some hne).mpr
        constructor
        · exact hoccurs
        · intro j hlt hj
          have := hwithin j hj
          omega
      · intro j hle hj
        have := hwithin j hj
        omega

theorem intercalate_cons {sep piece : Text} {pieces : List Text} (h : pieces ≠ []) :
    List.intercalate sep (piece :: pieces) = piece ++ sep ++ List.intercalate sep pieces := by
  obtain ⟨next, rest, rfl⟩ := List.exists_cons_of_ne_nil h
  simp [List.intercalate, List.intersperse]

/-- The text between the occurrences that are replaced: there are as many of these as are
counted. By induction on the length of the text. -/
theorem replaceText_pieces (hne : pattern ≠ []) (replacement t : Text) :
    ∃ pieces : List Text, pieces.length = matchCount pattern t + 1 ∧
      t = List.intercalate pattern pieces ∧
      replaceText pattern replacement t = List.intercalate replacement pieces ∧
      ∀ piece ∈ pieces, ∀ i, ¬Occurs pattern piece i := by
  induction hlength : t.length using Nat.strong_induction_on generalizing t with
  | _ n ih =>
    rw [matchCount_first hne, replaceText_first hne]
    cases hfirst : first pattern t with
    | none =>
      use [t]
      constructor
      · rfl
      · constructor
        · simp [List.intercalate]
        · constructor
          · simp [List.intercalate]
          · intro piece hpiece
            rw [List.mem_singleton.mp hpiece]
            exact (first_eq_none hne).mp hfirst
    | some i =>
      obtain ⟨hoccurs, hbefore⟩ := (first_eq_some hne).mp hfirst
      have hpos := List.length_pos_of_ne_nil hne
      have hle := hoccurs.le_length hne
      obtain ⟨pieces, hcount, hsplit, hreplaced, hfree⟩ := ih
        (t.drop (i + pattern.length)).length (by rw [List.length_drop]; omega) _ rfl
      have hsome : pieces ≠ [] := by
        rintro rfl
        simp at hcount
      use t.take i :: pieces
      constructor
      · show pieces.length + 1 = 1 + matchCount pattern (t.drop (i + pattern.length)) + 1
        omega
      · constructor
        · rw [intercalate_cons hsome, ← hsplit]
          obtain ⟨rest, hrest⟩ := hoccurs
          rw [List.append_assoc, ← List.drop_drop, ← hrest, List.drop_left, hrest,
            List.take_append_drop]
        · constructor
          · dsimp only
            rw [intercalate_cons hsome, hreplaced]
          · intro piece hpiece j hj
            rcases List.mem_cons.mp hpiece with rfl | hpiece
            · have hbound := hj.le_length hne
              rw [List.length_take] at hbound
              apply hbefore j (by omega)
              apply hj.trans
              rw [List.drop_take]
              exact List.take_prefix _ _
            · exact hfree piece hpiece j hj

end

/-! What an edit has to do. -/

/-- The file under a path of a workspace that could be opened. -/
def fileUnder (workspace : Except ToolError ℕ) (d : Disk) (path : Text) : Option Content :=
  workspace.toOption.bind fun root => d.fileOf root path

/-- The edited file: the only occurrence is replaced, or all that are counted. -/
def EditedTo (a : EditArgs) (content : Text) (out : Text) (after : Option Content) : Prop :=
  if a.replaceAll = some true then
    ∃ pieces : List Text, 1 < pieces.length ∧ content = List.intercalate a.oldString pieces ∧
      after = some (.text (List.intercalate a.newString pieces)) ∧
      (∀ piece ∈ pieces, ∀ i, ¬Occurs a.oldString piece i) ∧
      out = "edited ".toList ++ a.path ++ " (".toList ++ natText (pieces.length - 1) ++
        " replacement".toList ++ (if pieces.length - 1 = 1 then [] else "s".toList) ++ ")".toList
  else
    (∃! i, Occurs a.oldString content i) ∧ ∃ before behind,
      content = before ++ a.oldString ++ behind ∧
      after = some (.text (before ++ a.newString ++ behind))

/-- A success is an edit of the file that was there, and every other result leaves the file as it
was. -/
def EditsOrKeeps (a : EditArgs) (before after : Option Content)
    (r : Except ToolError ToolOutput) : Prop :=
  match r with
  | .ok ⟨out, false⟩ => ∃ content, before = some (.text content) ∧ EditedTo a content out after
  | _ => after = before

/-- No occurrence overlaps the one that would be replaced without a second match behind it. -/
def Unambiguous (a : EditArgs) (before : Option Content) : Prop :=
  a.replaceAll = some true ∨
    ∀ content, before = some (.text content) → ¬OverlapsOnly a.oldString content

/-- The text that is written is the edit that was asked for. -/
theorem editedTo_editedText {a : EditArgs} (hne : a.oldString ≠ []) {content : Text}
    (hcount : matchCount a.oldString content ≠ 0)
    (hone : a.replaceAll ≠ some true → ∃! i, Occurs a.oldString content i) :
    EditedTo a content (editedMessage a (matchCount a.oldString content))
      (some (.text (editedText a content))) := by
  unfold EditedTo
  split_ifs with hall
  · obtain ⟨pieces, hlength, hsplit, hreplaced, hfree⟩ :=
      replaceText_pieces hne a.newString content
    have hedited : editedText a content = List.intercalate a.newString pieces := by
      unfold editedText
      rw [hall, ← hreplaced]
      rfl
    use pieces
    constructor
    · omega
    · constructor
      · exact hsplit
      · constructor
        · rw [hedited]
        · constructor
          · exact hfree
          · rw [hlength, Nat.add_sub_cancel]
            rfl
  · constructor
    · exact hone hall
    · obtain ⟨i, hoccurs, honly⟩ := hone hall
      have hfirst : first a.oldString content = some i := by
        apply (first_eq_some hne).mpr
        constructor
        · exact hoccurs
        · intro j hlt hj
          have := honly j hj
          omega
      have hoption : a.replaceAll.getD false = false := by
        cases hvalue : a.replaceAll with
        | none => rfl
        | some value =>
          cases value with
          | false => rfl
          | true => exact absurd hvalue hall
      use content.take i, content.drop (i + a.oldString.length)
      constructor
      · obtain ⟨rest, hrest⟩ := hoccurs
        rw [List.append_assoc, ← List.drop_drop, ← hrest, List.drop_left, hrest,
          List.take_append_drop]
      · unfold editedText
        rw [hoption, replaceFirst_first, hfirst]
        rfl

theorem getD_eq_false {all : Option Bool} (h : all ≠ some true) : all.getD false = false := by
  cases all with
  | none => rfl
  | some value =>
    cases value with
    | false => rfl
    | true => exact absurd rfl h

theorem editContent_spec {a : EditArgs} (hne : a.oldString ≠ []) {root : ℕ} {d : Disk}
    {content : Text} (hold : d.fileOf root a.path = some (.text content))
    (hclear : Unambiguous a (d.fileOf root a.path)) :
    Triple (On d) (editContent a root content) fun r s =>
      EditsOrKeeps a (d.fileOf root a.path) (s.disk.fileOf root a.path) r := by
  have hsame : ∀ out s, On d s →
      EditsOrKeeps a (d.fileOf root a.path) (s.disk.fileOf root a.path) (.ok ⟨out, true⟩) := by
    intro out s hs
    show s.disk.fileOf root a.path = d.fileOf root a.path
    rw [hs.disk]
  unfold editContent
  dsimp only
  split_ifs with hzero hmany
  · exact triple_pure (hsame _)
  · exact triple_pure (hsame _)
  · have hone : a.replaceAll ≠ some true → ∃! i, Occurs a.oldString content i := by
      intro hall
      have hcount : matchCount a.oldString content = 1 := by
        simp only [getD_eq_false hall, Bool.not_false, Bool.true_and, decide_eq_true_eq] at hmany
        omega
      apply ((matchCount_eq_one_iff hne).mp hcount).resolve_right
      exact hclear.resolve_left hall content hold
    apply triple_bind (@atomicWrite_spec d root a.path _ (.text (editedText a content)) hold)
    · intro u
      apply triple_pure
      rintro s ⟨hwritten, -⟩
      use content
      constructor
      · exact hold
      · rw [hwritten rfl]
        exact editedTo_editedText hne hzero hone
    · rintro e s ⟨-, hleft⟩
      exact hleft e rfl

theorem editFile_spec {a : EditArgs} (hne : a.oldString ≠ []) (workspace : Except ToolError ℕ)
    (d : Disk) (hclear : Unambiguous a (fileUnder workspace d a.path)) :
    Triple (On d) (editFile a workspace) fun r s =>
      EditsOrKeeps a (fileUnder workspace d a.path) (fileUnder workspace s.disk a.path) r := by
  have hkept : ∀ (e : ToolError) s, On d s → EditsOrKeeps a (fileUnder workspace d a.path)
      (fileUnder workspace s.disk a.path) (.error e) := by
    intro e s hs
    show fileUnder workspace s.disk a.path = fileUnder workspace d a.path
    rw [hs.disk]
  unfold editFile
  cases workspace with
  | error e =>
    constructor
    intro s hs
    exact hkept e s hs
  | ok root =>
    have hread : Triple (On d) (openFile root a.path >>= fun file => readToString file >>=
        editContent a root) fun r s =>
        EditsOrKeeps a (d.fileOf root a.path) (s.disk.fileOf root a.path) r := by
      apply triple_bind (openFile_spec root a.path)
      · intro file
        apply triple_intro
        rintro s ⟨hs, hfile⟩
        have hbefore := isFileOf_fileOf (hfile file rfl)
        apply triple_bind ((readToString_spec file).imp (by rintro _ rfl; exact hs) fun _ _ h => h)
        · intro content
          apply triple_intro
          rintro s ⟨hs, hcontent⟩
          exact (editContent_spec hne (hbefore.trans (hcontent content rfl)) hclear).imp
            (by rintro _ rfl; exact hs) fun _ _ h => h
        · intro e s hs
          exact hkept e s hs.1
      · intro e s hs
        exact hkept e s hs.1
    exact ⟨hread.run⟩

/-! A run in which no system call fails. -/

section
variable {d : Disk} {pid sequence : ℕ}

theorem bind_eq {ε α β : Type} {x : SystemCall ε α} {f : α → SystemCall ε β} {s s' : System} {a : α}
    (h : x s = (.ok a, s')) : (x >>= f) s = f a s' := by
  simp only [Bind.bind, h]

theorem isDir_inode {ino : ℕ} (h : d.isDir ino = true) :
    ∃ entries, d.inodes[ino]? = some (.dir entries) := by
  unfold Disk.isDir at h
  cases hinode : d.inodes[ino]? with
  | none => simp [hinode] at h
  | some inode => cases inode <;> simp_all [Inode.isDirectory]

theorem componentCstring_run {name : Text} (h : '\x00' ∉ name) (s : System) :
    componentCstring name s = (.ok name, s) := by
  unfold componentCstring
  rw [if_neg (by simpa using h)]
  rfl

theorem openDirAt_run {parent ino : ℕ} {name path : Text} (hnul : '\x00' ∉ name)
    (hstep : d.step parent name = some ino) :
    openDirAt parent name path ⟨d, pid, sequence, []⟩ = (.ok ino, ⟨d, pid, sequence, []⟩) := by
  obtain ⟨hentry, hdir⟩ := Option.filter_eq_some_iff.mp hstep
  obtain ⟨entries, hinode⟩ := isDir_inode hdir
  unfold openDirAt
  rw [bind_eq (componentCstring_run hnul _)]
  simp [Call.mapError, openDirectory, systemCall, System.enter, hentry, hinode, Except.mapError]

theorem openDirChain_run {create : Bool} {path : Text} {dir target : ℕ} {components : List Text}
    (hwalk : d.walk dir components = some target) (hnul : ∀ c ∈ components, '\x00' ∉ c) :
    openDirChain create path dir components ⟨d, pid, sequence, []⟩ =
      (.ok target, ⟨d, pid, sequence, []⟩) := by
  induction components generalizing dir with
  | nil =>
    obtain rfl := Option.some.inj hwalk
    rfl
  | cons component rest ih =>
    obtain ⟨next, hstep, hrest⟩ := Option.bind_eq_some_iff.mp hwalk
    obtain ⟨hfirst, hothers⟩ := List.forall_mem_cons.mp hnul
    have hopen : (Call.attempt (openDirAt dir component path) : SystemCall ToolError (Except ToolError ℕ))
        ⟨d, pid, sequence, []⟩ = (.ok (.ok next), ⟨d, pid, sequence, []⟩) := by
      rw [Call.attempt, openDirAt_run hfirst hstep]
    rw [openDirChain, bind_eq hopen]
    exact ih hrest hothers

theorem openParent_run {create : Bool} {path name : Text} {root dir : ℕ} {components : List Text}
    (hwalk : d.walk root components.dropLast = some dir) (hname : components.getLast? = some name)
    (hnul : ∀ c ∈ components, '\x00' ∉ c) :
    openParent root components create path ⟨d, pid, sequence, []⟩ =
      (.ok (dir, name), ⟨d, pid, sequence, []⟩) := by
  unfold openParent
  rw [hname]
  dsimp only
  rw [bind_eq (openDirChain_run hwalk fun c hc => hnul c (List.mem_of_mem_dropLast hc))]
  rfl

/-- Where a file lies. -/
structure Located (d : Disk) (root : ℕ) (path : Text) (content : Content) where
  components : List Text
  dir : ℕ
  name : Text
  ino : ℕ
  parsed : workspaceComponents path false = .ok components
  plain : ∀ c ∈ components, '\x00' ∉ c
  walk : d.walk root components.dropLast = some dir
  last : components.getLast? = some name
  entry : d.entry dir name = some ino
  content : d.inodes[ino]? = some (.file content)

theorem located_of_fileOf {root : ℕ} {path : Text} {content : Content}
    (h : d.fileOf root path = some content) : Nonempty (Located d root path content) := by
  obtain ⟨components, hpath, hfile⟩ := Option.bind_eq_some_iff.mp h
  obtain ⟨dir, hwalk, hrest⟩ := Option.bind_eq_some_iff.mp hfile
  obtain ⟨name, hname, hin⟩ := Option.bind_eq_some_iff.mp hrest
  obtain ⟨ino, hentry, hcontent⟩ := Option.bind_eq_some_iff.mp hin
  obtain ⟨inode, hinode, hfound⟩ := Option.bind_eq_some_iff.mp hcontent
  obtain ⟨hparsed, hplain⟩ := Option.filter_eq_some_iff.mp hpath
  refine ⟨⟨components, dir, name, ino, ?_, ?_, hwalk, hname, hentry, ?_⟩⟩
  · cases hresult : workspaceComponents path false with
    | error e =>
      rw [hresult] at hparsed
      cases hparsed
    | ok found =>
      rw [hresult] at hparsed
      rw [Option.some.inj hparsed]
  · intro c hc
    simpa using List.all_eq_true.mp hplain c hc
  · cases inode with
    | file found => rw [hinode, Option.some.inj hfound]
    | _ => cases hfound

theorem Located.name_plain {root : ℕ} {path : Text} {content : Content}
    (l : Located d root path content) : '\x00' ∉ l.name :=
  l.plain _ (List.mem_of_getLast? l.last)

theorem openFile_run {root : ℕ} {path : Text} {content : Content}
    (l : Located d root path content) :
    openFile root path ⟨d, pid, sequence, []⟩ = (.ok l.ino, ⟨d, pid, sequence, []⟩) := by
  have hparsed : (Call.ofExcept (workspaceComponents path false) : SystemCall ToolError (List Text))
      ⟨d, pid, sequence, []⟩ = (.ok l.components, ⟨d, pid, sequence, []⟩) := by
    rw [l.parsed]
    rfl
  unfold openFile
  rw [bind_eq hparsed, bind_eq (openParent_run l.walk l.last l.plain)]
  unfold openRegularAt
  rw [bind_eq (componentCstring_run l.name_plain _)]
  have hopen : (openRead l.dir l.name).mapError (mapWorkspaceIo path) ⟨d, pid, sequence, []⟩ =
      (.ok l.ino, ⟨d, pid, sequence, []⟩) := by
    simp [Call.mapError, openRead, systemCall, System.enter, l.entry, l.content, Except.mapError]
  have hregular : (isRegular l.ino).mapError (fun e => ToolError.io e.message)
      ⟨d, pid, sequence, []⟩ = (.ok true, ⟨d, pid, sequence, []⟩) := by
    simp [Call.mapError, isRegular, systemCall, System.enter, l.content, Except.mapError]
  rw [bind_eq hopen, bind_eq hregular]
  rfl

theorem readToString_run {root : ℕ} {path text : Text} (l : Located d root path (.text text)) :
    readToString l.ino ⟨d, pid, sequence, []⟩ = (.ok text, ⟨d, pid, sequence, []⟩) := by
  have hread : (readContent l.ino).mapError (fun e => ToolError.io e.message)
      ⟨d, pid, sequence, []⟩ = (.ok (.text text), ⟨d, pid, sequence, []⟩) := by
    simp [Call.mapError, readContent, systemCall, System.enter, l.content, Except.mapError]
  unfold readToString
  rw [bind_eq hread]
  rfl

theorem tempName_injective (pid : ℕ) : Function.Injective (tempName pid) := by
  intro a b h
  have hdigits : Nat.toDigits 10 a = Nat.toDigits 10 b :=
    (List.cons.inj (List.append_cancel_left h)).2
  rw [← Nat.ofDigitChars_ten_toDigits (n := a), hdigits, Nat.ofDigitChars_ten_toDigits]

/-- There is a temporary name that is free. -/
theorem exists_free (d : Disk) (dir pid : ℕ) :
    ∃ sequence, d.entry dir (tempName pid sequence) = none := by
  obtain ⟨temp, ⟨sequence, rfl⟩, hfree⟩ := (Set.infinite_range_of_injective
    (tempName_injective pid)).exists_notMem_finset ((d.entries dir).map Prod.fst).toFinset
  use sequence
  unfold Disk.entry
  rw [List.lookup_eq_none_iff]
  intro entry hentry
  simp only [List.mem_toFinset] at hfree
  simp only [bne_iff_ne, ne_eq]
  intro heq
  exact hfree (List.mem_map.mpr ⟨entry, hentry, heq.symm⟩)

theorem atomicWrite_run {root : ℕ} {path : Text} {old content : Content}
    (l : Located d root path old) (hfree : d.entry l.dir (tempName pid sequence) = none) :
    (atomicWrite root path content ⟨d, pid, sequence, []⟩).1 = .ok () := by
  have hparsed : (Call.ofExcept (workspaceComponents path false) : SystemCall ToolError (List Text))
      ⟨d, pid, sequence, []⟩ = (.ok l.components, ⟨d, pid, sequence, []⟩) := by
    rw [l.parsed]
    rfl
  have hdir := Disk.isDir_of_entry l.entry
  have hlt : l.ino < d.inodes.length := (List.getElem?_eq_some_iff.mp l.content).1
  have hcontent : d.fileContent l.ino = some old := by
    unfold Disk.fileContent
    rw [l.content]
    rfl
  have hgrows := withTemp_grows hfree content
  have htemp := withTemp_entry hdir (tempName pid sequence) content
  have hname := hgrows.entry l.dir l.name l.ino l.entry
  obtain ⟨oldInode, hinode, hfound⟩ :=
    Option.bind_eq_some_iff.mp (hgrows.fileContent l.ino old hcontent)
  have htarget : (withTemp d l.dir (tempName pid sequence) content).inode l.dir l.name =
      some oldInode := by
    unfold Disk.inode
    rw [hname]
    exact hinode
  have hcreate : (Call.attempt (createExclusive l.dir (tempName pid sequence)) :
      SystemCall ToolError (Except Errno ℕ)) ⟨d, pid, sequence + 1, []⟩ = (.ok (.ok d.inodes.length),
        ⟨d.create l.dir (tempName pid sequence) (.file (.text [])), pid, sequence + 1, []⟩) := by
    simp [Call.attempt, createExclusive, systemCall, System.enter, hfree]
  have hwrite : (Call.attempt (writeAll d.inodes.length content) :
      SystemCall ToolError (Except Errno Unit)) ⟨d.create l.dir (tempName pid sequence) (.file (.text [])), pid, sequence + 1, []⟩ =
        (.ok (.ok ()), ⟨withTemp d l.dir (tempName pid sequence) content, pid, sequence + 1, []⟩) :=
    rfl
  have hrename : ∃ s, (Call.attempt (renameat l.dir (tempName pid sequence) l.name) :
      SystemCall ToolError (Except Errno Unit)) ⟨withTemp d l.dir (tempName pid sequence) content, pid, sequence + 1, []⟩ =
        (.ok (.ok ()), s) := by
    have hfile := withTemp_isDir (d := d) l.dir (tempName pid sequence) content
    cases oldInode with
    | file content' =>
      simp [Call.attempt, renameat, systemCall, System.enter, htemp, hname, htarget, hfile, hlt.ne]
    | _ => cases hfound
  obtain ⟨s, hrename⟩ := hrename
  unfold atomicWrite
  rw [bind_eq hparsed, bind_eq (openParent_run l.walk l.last l.plain)]
  unfold atomicWriteAt
  rw [bind_eq (componentCstring_run l.name_plain _), writeAttempts]
  have hnext : nextTempName ⟨d, pid, sequence, []⟩ =
      (.ok (tempName pid sequence), ⟨d, pid, sequence + 1, []⟩) := rfl
  rw [bind_eq hnext, bind_eq hcreate]
  dsimp only
  rw [bind_eq hwrite]
  dsimp only
  rw [bind_eq hrename]
  rfl

end

/-- An edit under the lock, whatever system calls fail. -/
def EditsSafely (a : EditArgs) (workspace : Except ToolError ℕ) (d : Disk) : Prop :=
  ∀ pid nextTemp turns, Quiet turns →
    let run := editFile a workspace ⟨d, pid, nextTemp, turns⟩
    EditsOrKeeps a (fileUnder workspace d a.path) (fileUnder workspace run.2.disk a.path) run.1

/-- An edit that nothing disturbs succeeds where one match is counted. -/
theorem editFile_succeeds {a : EditArgs} {root : ℕ} {d : Disk} {content : Text}
    (hfile : d.fileOf root a.path = some (.text content))
    (hcount : matchCount a.oldString content = 1) (pid : ℕ) :
    ∃ nextTemp out, (editFile a (.ok root) ⟨d, pid, nextTemp, []⟩).1 = .ok ⟨out, false⟩ := by
  obtain ⟨l⟩ := located_of_fileOf hfile
  obtain ⟨sequence, hfree⟩ := exists_free d l.dir pid
  use sequence, editedMessage a 1
  have hroot : (Call.ofExcept (.ok root) : SystemCall ToolError ℕ) ⟨d, pid, sequence, []⟩ =
      (.ok root, ⟨d, pid, sequence, []⟩) := rfl
  unfold editFile
  rw [bind_eq hroot, bind_eq (openFile_run l), bind_eq (readToString_run l)]
  have hwrite := @atomicWrite_run d pid sequence root a.path _ (.text (editedText a content)) l hfree
  unfold editContent
  simp only [hcount, Nat.one_ne_zero, Nat.lt_irrefl, decide_false, Bool.and_false, if_false,
    Bool.false_eq_true]
  cases hrun : atomicWrite root a.path (.text (editedText a content)) ⟨d, pid, sequence, []⟩ with
  | mk r s =>
    rw [hrun] at hwrite
    obtain rfl : r = .ok () := hwrite
    rw [bind_eq hrun]
    rfl

/-- Edits are safe exactly when no occurrence overlaps the match that is counted alone. -/
theorem editsSafely_iff {a : EditArgs} (hne : a.oldString ≠ []) (workspace : Except ToolError ℕ)
    (d : Disk) :
    EditsSafely a workspace d ↔ Unambiguous a (fileUnder workspace d a.path) := by
  constructor
  · intro h
    by_contra hnot
    unfold Unambiguous at hnot
    push Not at hnot
    obtain ⟨hall, content, hbefore, hoverlaps⟩ := hnot
    cases workspace with
    | error e => cases hbefore
    | ok root =>
      have hcount := (matchCount_eq_one_iff hne).mpr (Or.inr hoverlaps)
      obtain ⟨nextTemp, out, hrun⟩ := editFile_succeeds hbefore hcount 0
      have hedit := h 0 nextTemp [] fun _ hturn => absurd hturn List.not_mem_nil
      simp only [hrun] at hedit
      obtain ⟨content', hbefore', hedited⟩ := hedit
      obtain rfl : content = content' :=
        Content.text.inj (Option.some.inj (hbefore.symm.trans hbefore'))
      unfold EditedTo at hedited
      rw [if_neg hall] at hedited
      obtain ⟨k, -, honly⟩ := hedited.1
      obtain ⟨i, hi, -, j, hlt, hj⟩ := hoverlaps
      have hik := honly i hi
      have hjk := honly j hj
      omega
  · intro hclear pid nextTemp turns hquiet
    exact (editFile_spec hne workspace d hclear).run ⟨d, pid, nextTemp, turns⟩ ⟨rfl, hquiet⟩

/-- A directory with one file. -/
def oneFile (content : String) : Disk :=
  ⟨[.dir [("a.txt".toList, 1)], .file (.text content.toList)]⟩

def editAa (content : Text) : EditArgs := ⟨"a.txt".toList, "aa".toList, content, none⟩

theorem oneFile_content (content : String) :
    fileUnder (.ok 0) (oneFile content) "a.txt".toList = some (.text content.toList) := by
  have hpath : filePath "a.txt".toList = some ["a.txt".toList] := by decide +kernel
  simp only [fileUnder, Except.toOption, Option.bind_some, Disk.fileOf, hpath]
  rfl

theorem singleMatch_edited : EditsSafely (editAa "b".toList) (.ok 0) (oneFile "xaay") := by
  apply (editsSafely_iff (by decide) _ _).mpr
  right
  intro content hcontent
  rw [show (editAa "b".toList).path = "a.txt".toList from rfl, oneFile_content] at hcontent
  obtain rfl := Content.text.inj (Option.some.inj hcontent)
  have hplace : ∀ i, Occurs "aa".toList "xaay".toList i → i = 1 := by
    intro i hi
    have hle := hi.le_length (by decide)
    have hbound : i ≤ 2 := by
      have hlength : i + 2 ≤ 4 := hle
      omega
    interval_cases i
    · exact absurd hi (by unfold Occurs; decide)
    · rfl
    · exact absurd hi (by unfold Occurs; decide)
  rintro ⟨i, hi, -, j, hlt, hj⟩
  have hione := hplace i hi
  have hjone := hplace j hj
  omega

/-- In three equal letters two of them stand twice, and the first place is replaced. -/
theorem overlapping_edited : (editFile (editAa "b".toList) (.ok 0) ⟨oneFile "aaa", 0, 0, []⟩).1 =
      .ok ⟨"edited a.txt (1 replacement)".toList, false⟩ ∧
    ¬EditsSafely (editAa "b".toList) (.ok 0) (oneFile "aaa") := by
  have hrun : (editFile (editAa "b".toList) (.ok 0) ⟨oneFile "aaa", 0, 0, []⟩).1 =
      .ok ⟨"edited a.txt (1 replacement)".toList, false⟩ := by decide +kernel
  constructor
  · exact hrun
  · intro h
    have hedit := h 0 0 [] fun _ hturn => absurd hturn List.not_mem_nil
    simp only [hrun] at hedit
    obtain ⟨content, hcontent, hedited⟩ := hedit
    rw [show (editAa "b".toList).path = "a.txt".toList from rfl, oneFile_content] at hcontent
    obtain rfl := Content.text.inj (Option.some.inj hcontent)
    have hzero : Occurs "aa".toList "aaa".toList 0 := by unfold Occurs; decide
    have hone : Occurs "aa".toList "aaa".toList 1 := by unfold Occurs; decide
    obtain ⟨k, -, honly⟩ := hedited.1
    have hk := honly 0 hzero
    have hk' := honly 1 hone
    omega

end DeepseekScience.Tools
