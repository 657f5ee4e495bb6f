import DeepseekScience.Lib.Occurrences
import DeepseekScience.TextSearch
import DeepseekScience.Tools.Workspace

/-! Replacing in a file (`builtin/files.rs`, `edit_file`). -/
namespace DeepseekScience.Tools

open Calls Occurrences

/-- `str::matches(..).count()` for a pattern that is not empty, behind characters to be passed
over. -/
def countFrom (pattern : Text) : ℕ → Text → ℕ
  | _, [] => 0
  | n + 1, _ :: t => countFrom pattern n t
  | 0, c :: t =>
    if pattern.isPrefixOf (c :: t) then 1 + countFrom pattern (pattern.length - 1) t
    else countFrom pattern 0 t

def matchCount (pattern t : Text) : ℕ := countFrom pattern 0 t

/-- `str::replacen` with one replacement. -/
def replaceFirst (pattern replacement : Text) : Text → Text
  | [] => []
  | c :: t =>
    if pattern.isPrefixOf (c :: t) then replacement ++ (c :: t).drop pattern.length
    else c :: replaceFirst pattern replacement t

structure EditArgs where
  path : Text
  oldString : Text
  newString : Text
  replaceAll : Option Bool := none

def editedText (a : EditArgs) (content : Text) : Text :=
  if a.replaceAll.getD false then replaceText a.oldString a.newString content
  else replaceFirst a.oldString a.newString content

def editedMessage (a : EditArgs) (count : ℕ) : Text :=
  "edited ".toList ++ a.path ++ " (".toList ++ natText count ++ " replacement".toList ++
    (if count = 1 then [] else "s".toList) ++ ")".toList

/-- The edit of a content that was read. -/
def editContent (a : EditArgs) (root : ℕ) (content : Text) : SystemCall ToolError ToolOutput :=
  let count := matchCount a.oldString content
  if count = 0 then pure ⟨"old_string not found in ".toList ++ a.path, true⟩
  else if !a.replaceAll.getD false && decide (1 < count) then
    pure ⟨"old_string appears ".toList ++ natText count ++ " times in ".toList ++ a.path ++
      "; set replace_all=true or make old_string unique".toList, true⟩
  else do
    atomicWrite root a.path (.text (editedText a content))
    pure ⟨editedMessage a count, false⟩

/-- `EditFileTool::call` under the write lock; the workspace is the inode of its root. -/
def editFile (a : EditArgs) (workspace : Except ToolError ℕ) : SystemCall ToolError ToolOutput := do
  let root ← .ofExcept workspace
  let file ← openFile root a.path
  let content ← readToString file
  editContent a root content

/-! What is counted and replaced. -/

variable {pattern replacement t : Text}

theorem countFrom_drop (n : ℕ) (t : Text) : countFrom pattern n t = countFrom pattern 0 (t.drop n) := by
  induction t generalizing n with
  | nil => cases n <;> rfl
  | cons c t ih =>
    cases n with
    | zero => rfl
    | succ n => exact ih n

theorem replaceFrom_drop (n : ℕ) (t : Text) :
    replaceFrom pattern replacement n t = replaceFrom pattern replacement 0 (t.drop n) := by
  induction t generalizing n with
  | nil => cases n <;> rfl
  | cons c t ih =>
    cases n with
    | zero => rfl
    | succ n => exact ih n

/-- The text up to the first match, and behind it. -/
theorem matchCount_first (hne : pattern ≠ []) (t : Text) :
    matchCount pattern t =
      match first pattern t with
      | none => 0
      | some i => 1 + matchCount pattern (t.drop (i + pattern.length)) := by
  induction t with
  | nil => rfl
  | cons c t ih =>
    have hpos := List.length_pos_of_ne_nil hne
    unfold matchCount at ih ⊢
    rw [countFrom, first]
    split_ifs with hmatch
    · rw [countFrom_drop]
      show _ = 1 + countFrom pattern 0 ((c :: t).drop (0 + pattern.length))
      rw [Nat.zero_add, ← List.drop_succ_cons (a := c), Nat.sub_add_cancel hpos]
    · rw [ih]
      cases first pattern t with
      | none => rfl
      | some i =>
        show 1 + _ = 1 + countFrom pattern 0 ((c :: t).drop (i + 1 + pattern.length))
        rw [show i + 1 + pattern.length = i + pattern.length + 1 by omega, List.drop_succ_cons]

theorem replaceText_first (hne : pattern ≠ []) (t : Text) :
    replaceText pattern replacement t =
      match first pattern t with
      | none => t
      | some i => t.take i ++ replacement ++
          replaceText pattern replacement (t.drop (i + pattern.length)) := by
  induction t with
  | nil => rfl
  | cons c t ih =>
    have hpos := List.length_pos_of_ne_nil hne
    unfold replaceText at ih ⊢
    rw [replaceFrom, first]
    split_ifs with hmatch
    · rw [replaceFrom_drop]
      show _ = [] ++ replacement ++ replaceFrom _ _ 0 ((c :: t).drop (0 + pattern.length))
      rw [Nat.zero_add, ← List.drop_succ_cons (a := c), Nat.sub_add_cancel hpos, List.nil_append]
    · rw [ih]
      cases first pattern t with
      | none => rfl
      | some i =>
        show _ = (c :: t.take i) ++ replacement ++
          replaceFrom _ _ 0 ((c :: t).drop (i + 1 + pattern.length))
        rw [show i + 1 + pattern.length = i + pattern.length + 1 by omega, List.drop_succ_cons]
        rfl

theorem replaceFirst_first (t : Text) :
    replaceFirst pattern replacement t =
      match first pattern t with
      | none => t
      | some i => t.take i ++ replacement ++ t.drop (i + pattern.length) := by
  induction t with
  | nil => rfl
  | cons c t ih =>
    rw [replaceFirst, first]
    split_ifs with hmatch
    · simp
    · rw [ih]
      cases first pattern t with
      | none => rfl
      | some i =>
        show _ = (c :: t.take i) ++ replacement ++ (c :: t).drop (i + 1 + pattern.length)
        rw [show i + 1 + pattern.length = i + pattern.length + 1 by omega, List.drop_succ_cons]
        rfl

end DeepseekScience.Tools
