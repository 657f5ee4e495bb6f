import DeepseekScience.Skills.Frontmatter

/-! Skill files with either line ending. The header of a file with CRLF is sliced off too early,
and the closing line stays in the body. -/
namespace DeepseekScience.Skills

inductive LineEnding
  | lf
  | crlf
  deriving DecidableEq, Repr

def LineEnding.text : LineEnding → Text
  | .lf => "\n".toList
  | .crlf => "\r\n".toList

def nameLine (name : Text) : Text := "name".toList ++ ':' :: ' ' :: name

def descriptionLine (description : Text) : Text := "description".toList ++ ':' :: ' ' :: description

/-- A line with another key. -/
def IsOtherKey (line : Text) : Prop :=
  ∃ k v, line = k ++ ':' :: v ∧ ':' ∉ k ∧ trim k ≠ "name".toList ∧ trim k ≠ "description".toList

/-- A text that is one line with either line ending. -/
def IsLine (line : Text) : Prop := '\n' ∉ line ∧ line.getLast? ≠ some '\r'

def endLines (e : LineEnding) (lines : List Text) : Text := lines.flatMap fun line => line ++ e.text

def fence : Text := "---".toList

def fileText (e : LineEnding) (lines : List Text) (body : Text) : Text :=
  endLines e (fence :: (lines ++ [fence])) ++ body

/-- A skill file: the lines of its header are those of the name, of the description, and further
ones that say nothing about either. -/
structure SkillFile where
  name : Text
  description : Text
  lines : List Text
  body : Text
  ending : LineEnding
  validName : isValidName name = true
  shortDescription : description.length ≤ descriptionMax
  plainDescription : ∀ c ∈ description, c ≠ '\n' ∧ c ≠ '\r' ∧ c ≠ '"' ∧ c ≠ '\''
  trimmedDescription : trim description = description
  hasName : nameLine name ∈ lines
  hasDescription : descriptionLine description ∈ lines
  onlyLines : ∀ line ∈ lines, line = nameLine name ∨ line = descriptionLine description ∨
    IsLine line ∧ (isIndented line = true ∨ IsOtherKey line)
  bodyStart : ∀ c, body.head? = some c → c ≠ '\n' ∧ c ≠ '\r' ∧ c ≠ '-'
  size : byteLen (fileText ending lines body) ≤ skillMaxBytes

def SkillFile.text (f : SkillFile) : Text := fileText f.ending f.lines f.body

/-- What the file should be read as. -/
def SkillFile.skill (f : SkillFile) (source : Text) : Skill :=
  ⟨f.name, f.description, source, f.body⟩

/-! Characters. -/

section
variable {c : Char} {t : Text}

theorem isWhitespace_of_isNameChar (h : isNameChar c = true) : isWhitespace c = false := by
  simp only [isNameChar, Bool.or_eq_true, decide_eq_true_eq, beq_iff_eq, Char.le_def,
    UInt32.le_iff_toNat_le] at h
  rcases h with ((⟨hlow, hhigh⟩ | ⟨hlow, hhigh⟩) | rfl) | rfl
  · have hlow : 97 ≤ c.toNat := hlow
    have hhigh : c.toNat ≤ 122 := hhigh
    simp [isWhitespace]
    omega
  · have hlow : 48 ≤ c.toNat := hlow
    have hhigh : c.toNat ≤ 57 := hhigh
    simp [isWhitespace]
    omega
  · decide
  · decide

theorem trim_of_forall (h : ∀ c ∈ t, isWhitespace c = false) : trim t = t := by
  have hdrop : ∀ s : Text, (∀ c ∈ s, isWhitespace c = false) → s.dropWhile isWhitespace = s := by
    intro s hs
    cases s with
    | nil => rfl
    | cons d s =>
      rw [List.dropWhile_cons_of_neg]
      simp [hs d (List.mem_cons_self ..)]
  unfold trim trimEnd trimStart
  rw [hdrop t h, hdrop _ fun c hc => h c (List.mem_reverse.mp hc), List.reverse_reverse]

theorem trimChar_of_notMem (h : c ∉ t) : trimChar c t = t := by
  have hdrop : ∀ s : Text, c ∉ s → s.dropWhile (· == c) = s := by
    intro s hs
    cases s with
    | nil => rfl
    | cons d s =>
      rw [List.mem_cons, not_or] at hs
      rw [List.dropWhile_cons_of_neg]
      simp [Ne.symm hs.1]
  unfold trimChar
  rw [hdrop t h, hdrop _ fun hc => h (List.mem_reverse.mp hc), List.reverse_reverse]

theorem mem_dropWhile {p : Char → Bool} (hp : p c = false) (h : c ∈ t) : c ∈ t.dropWhile p := by
  rw [← List.takeWhile_append_dropWhile (p := p) (l := t), List.mem_append] at h
  rcases h with h | h
  · have hpos := List.mem_takeWhile_imp h
    rw [hp] at hpos
    cases hpos
  · exact h

theorem mem_trim_of_not_isWhitespace (hc : isWhitespace c = false) (h : c ∈ t) : c ∈ trim t := by
  unfold trim trimEnd trimStart
  apply List.mem_reverse.mpr
  apply mem_dropWhile hc
  exact List.mem_reverse.mpr (mem_dropWhile hc h)

theorem mem_of_mem_trim (h : c ∈ trim t) : c ∈ t := by
  unfold trim trimEnd trimStart at h
  have hmem := (List.dropWhile_suffix _).subset (List.mem_reverse.mp h)
  exact (List.dropWhile_suffix _).subset (List.mem_reverse.mp hmem)

theorem dash_mem_of_isClosing (h : isClosing t = true) : '-' ∈ t := by
  apply mem_of_mem_trim
  rw [beq_iff_eq.mp h]
  decide

theorem colon_notMem_of_isClosing (h : isClosing t = true) : ':' ∉ t := by
  intro hmem
  have hcolon := mem_trim_of_not_isWhitespace (by decide) hmem
  rw [beq_iff_eq.mp h] at hcolon
  exact absurd hcolon (by decide)

end

/-! The lines of the header. -/

section
variable {h : Header} {line k v name description : Text}

theorem splitKv_append (hk : ':' ∉ k) : splitKv (k ++ ':' :: v) = some (k, v) := by
  unfold splitKv
  rw [dropWhile_ne_append hk, takeWhile_ne_append hk]

theorem plainValue_space (htrim : trim v = v) (hquote : '"' ∉ v) (hsingle : '\'' ∉ v) :
    plainValue (' ' :: v) = v := by
  have hspace : trim (' ' :: v) = trim v := by
    unfold trim trimStart
    rw [List.dropWhile_cons_of_pos (by decide)]
  unfold plainValue
  rw [hspace, htrim, trimChar_of_notMem hquote, trimChar_of_notMem hsingle]

theorem isNameChar_of_isValidName (hname : isValidName name = true) :
    ∀ c ∈ name, isNameChar c = true := by
  unfold isValidName at hname
  rw [Bool.and_eq_true, List.all_eq_true] at hname
  exact hname.2

theorem readLine_nameLine (hname : isValidName name = true) :
    h.readLine (nameLine name) = { h with name := some name } := by
  have hchars := isNameChar_of_isValidName hname
  have htrim := trim_of_forall fun c hc => isWhitespace_of_isNameChar (hchars c hc)
  have hnot : ∀ c, isNameChar c = false → c ∉ name := by
    intro c hc hmem
    rw [hchars c hmem] at hc
    cases hc
  have hvalue := plainValue_space htrim (hnot '"' (by decide)) (hnot '\'' (by decide))
  have hindent : isIndented (nameLine name) = false := rfl
  unfold Header.readLine
  rw [hindent, nameLine, splitKv_append (by decide)]
  simp only [hvalue]
  rfl

theorem readLine_descriptionLine (hshort : description.length ≤ descriptionMax)
    (hplain : ∀ c ∈ description, c ≠ '\n' ∧ c ≠ '\r' ∧ c ≠ '"' ∧ c ≠ '\'')
    (htrim : trim description = description) :
    h.readLine (descriptionLine description) = { h with description := some description } := by
  have hvalue := plainValue_space htrim (fun hc => (hplain _ hc).2.2.1 rfl)
    fun hc => (hplain _ hc).2.2.2 rfl
  have hindent : isIndented (descriptionLine description) = false := rfl
  have hkv : splitKv (descriptionLine description) =
      some ("description".toList, ' ' :: description) := splitKv_append (by decide)
  unfold Header.readLine
  rw [hindent, hkv]
  have hkey : trim "description".toList = "description".toList := by decide
  have hother : "description".toList ≠ "name".toList := by decide
  simp only [hvalue, hkey, hother, Nat.not_lt.mpr hshort, if_false, if_true, Bool.false_eq_true]

theorem readLine_other (hline : isIndented line = true ∨ IsOtherKey line) :
    h.readLine line = h := by
  unfold Header.readLine
  by_cases hindent : isIndented line = true
  · rw [if_pos hindent]
  · rw [if_neg hindent]
    obtain ⟨k, v, rfl, hk, hname, hdescription⟩ := hline.resolve_left hindent
    rw [splitKv_append hk]
    simp only [hname, hdescription, if_false]

end

section
variable (f : SkillFile)

/-- A line of the header sets what it is about and leaves the rest. -/
theorem SkillFile.readLine {line : Text} (hline : line ∈ f.lines) (h : Header) :
    (line = nameLine f.name ∧ h.readLine line = { h with name := some f.name }) ∨
      (line = descriptionLine f.description ∧
        h.readLine line = { h with description := some f.description }) ∨
      ((isIndented line = true ∨ IsOtherKey line) ∧ h.readLine line = h) := by
  rcases f.onlyLines line hline with rfl | rfl | ⟨-, hother⟩
  · left
    exact ⟨rfl, readLine_nameLine f.validName⟩
  · right; left
    exact ⟨rfl, readLine_descriptionLine f.shortDescription f.plainDescription
      f.trimmedDescription⟩
  · right; right
    exact ⟨hother, readLine_other hother⟩

theorem SkillFile.readLines_name {lines : List Text} (hlines : ∀ line ∈ lines, line ∈ f.lines)
    {h : Header} (hname : nameLine f.name ∈ lines ∨ h.name = some f.name) :
    (lines.foldl Header.readLine h).name = some f.name := by
  induction lines generalizing h with
  | nil => exact hname.resolve_left List.not_mem_nil
  | cons line rest ih =>
    apply ih fun l hl => hlines l (List.mem_cons_of_mem _ hl)
    by_cases hrest : nameLine f.name ∈ rest
    · left
      exact hrest
    · right
      rcases hname with hname | hname
      · obtain rfl := (List.mem_cons.mp hname).resolve_right hrest
        rw [readLine_nameLine f.validName]
      · rcases f.readLine (hlines line (List.mem_cons_self ..)) h with ⟨-, h⟩ | ⟨-, h⟩ | ⟨-, h⟩
        · rw [h]
        · rw [h]
          exact hname
        · rw [h]
          exact hname

theorem SkillFile.readLines_description {lines : List Text}
    (hlines : ∀ line ∈ lines, line ∈ f.lines) {h : Header}
    (hdescription : descriptionLine f.description ∈ lines ∨ h.description = some f.description) :
    (lines.foldl Header.readLine h).description = some f.description := by
  induction lines generalizing h with
  | nil => exact hdescription.resolve_left List.not_mem_nil
  | cons line rest ih =>
    apply ih fun l hl => hlines l (List.mem_cons_of_mem _ hl)
    by_cases hrest : descriptionLine f.description ∈ rest
    · left
      exact hrest
    · right
      rcases hdescription with hdescription | hdescription
      · obtain rfl := (List.mem_cons.mp hdescription).resolve_right hrest
        rw [readLine_descriptionLine f.shortDescription f.plainDescription f.trimmedDescription]
      · rcases f.readLine (hlines line (List.mem_cons_self ..)) h with ⟨-, h⟩ | ⟨-, h⟩ | ⟨-, h⟩
        · rw [h]
          exact hdescription
        · rw [h]
        · rw [h]
          exact hdescription

/-- The header as a whole. -/
theorem SkillFile.readHeader :
    f.lines.foldl Header.readLine Header.empty = ⟨some f.name, some f.description⟩ := by
  have hname := f.readLines_name (h := Header.empty) (fun _ h => h) (Or.inl f.hasName)
  have hdescription := f.readLines_description (h := Header.empty) (fun _ h => h)
    (Or.inl f.hasDescription)
  cases hheader : f.lines.foldl Header.readLine Header.empty with
  | mk name description =>
    rw [hheader] at hname hdescription
    rw [show name = _ from hname, show description = _ from hdescription]

theorem IsLine.of_value {key v : Text} (hkey : '\n' ∉ key ∧ '\r' ∉ key) (hlf : '\n' ∉ v)
    (hcr : '\r' ∉ v) : IsLine (key ++ ':' :: ' ' :: v) := by
  have hnot : ∀ c, c ∉ key → c ∉ v → c ≠ ':' → c ≠ ' ' → c ∉ key ++ ':' :: ' ' :: v := by
    intro c hc hv hcolon hspace
    simp only [List.mem_append, List.mem_cons, not_or]
    exact ⟨hc, hcolon, hspace, hv⟩
  constructor
  · exact hnot _ hkey.1 hlf (by decide) (by decide)
  · intro hlast
    exact hnot _ hkey.2 hcr (by decide) (by decide) (List.mem_of_getLast? hlast)

theorem IsLine.nameLine {name : Text} (hname : isValidName name = true) :
    IsLine (nameLine name) := by
  have hchars := isNameChar_of_isValidName hname
  have hnot : ∀ c, isNameChar c = false → c ∉ name := by
    intro c hc hmem
    rw [hchars c hmem] at hc
    cases hc
  exact IsLine.of_value (by decide) (hnot '\n' (by decide)) (hnot '\r' (by decide))

theorem IsLine.descriptionLine {description : Text}
    (hplain : ∀ c ∈ description, c ≠ '\n' ∧ c ≠ '\r' ∧ c ≠ '"' ∧ c ≠ '\'') :
    IsLine (descriptionLine description) := by
  exact IsLine.of_value (by decide) (fun h => (hplain _ h).1 rfl) fun h => (hplain _ h).2.1 rfl

theorem SkillFile.isLine : ∀ line ∈ f.lines ++ [fence], IsLine line := by
  intro line hline
  rcases List.mem_append.mp hline with hline | hline
  · rcases f.onlyLines line hline with rfl | rfl | ⟨h, -⟩
    · exact IsLine.nameLine f.validName
    · exact IsLine.descriptionLine f.plainDescription
    · exact h
  · rw [List.mem_singleton.mp hline]
    unfold IsLine
    decide

theorem colon_mem (k v : Text) : ':' ∈ k ++ ':' :: v :=
  List.mem_append_right _ (List.mem_cons_self ..)

/-- A line of the header that closes it is indented. -/
theorem SkillFile.isIndented_of_isClosing {line : Text} (hline : line ∈ f.lines)
    (hclosing : isClosing line = true) : isIndented line = true := by
  have hcolon := colon_notMem_of_isClosing hclosing
  rcases f.onlyLines line hline with rfl | rfl | ⟨-, hindent | ⟨k, v, rfl, -⟩⟩
  · exact absurd (colon_mem _ _) hcolon
  · exact absurd (colon_mem _ _) hcolon
  · exact hindent
  · exact absurd (colon_mem _ _) hcolon

end

end DeepseekScience.Skills
