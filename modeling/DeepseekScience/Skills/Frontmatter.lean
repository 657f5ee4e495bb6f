import DeepseekScience.Skills.Search
import DeepseekScience.TextLines
import DeepseekScience.TextSearch

/-! The front matter of a SKILL.md file (dss-skills, `frontmatter.rs`). -/
namespace DeepseekScience.Skills

def skillMaxBytes : ℕ := 65536

def descriptionMax : ℕ := 1024

/-- A slice off a character boundary. -/
inductive SliceFailure
  | slice
  deriving DecidableEq, Repr

def isNameChar (c : Char) : Bool :=
  decide ('a' ≤ c ∧ c ≤ 'z') || decide ('0' ≤ c ∧ c ≤ '9') || c == '-' || c == '/'

def isValidName (name : Text) : Bool := !name.isEmpty && name.all isNameChar

/-- `str::trim_start_matches` with three dashes. -/
def trimDashes : Text → Text
  | '-' :: '-' :: '-' :: rest => trimDashes rest
  | t => t

/-- `str::trim_start_matches` with the line breaks. -/
def trimLineBreaks (t : Text) : Text := t.dropWhile fun c => c == '\n' || c == '\r'

/-- `str::trim_start_matches` with the byte order mark. -/
def trimBom (t : Text) : Text := t.dropWhile (· == '\uFEFF')

/-- `str::trim_matches` with one character. -/
def trimChar (c : Char) (t : Text) : Text :=
  ((t.dropWhile (· == c)).reverse.dropWhile (· == c)).reverse

/-- The text behind the opening line. -/
def afterOpening : Text → Option Text
  | '-' :: '-' :: '-' :: '\n' :: after => some after
  | '-' :: '-' :: '-' :: '\r' :: '\n' :: after => some after
  | _ => none

def isClosing (line : Text) : Bool := trim line == "---".toList

/-- The lengths of the lines in front, with one byte for the end of each. -/
def offsetOf (lines : List Text) (idx : ℕ) : ℕ := ((lines.take idx).map fun l => byteLen l + 1).sum

def findFrontmatterEnd (s : Text) : Option ℕ :=
  ((textLines s).findIdx? isClosing).map (offsetOf (textLines s))

def splitKv (line : Text) : Option (Text × Text) :=
  match line.dropWhile (· != ':') with
  | [] => none
  | _ :: v => some (line.takeWhile (· != ':'), v)

/-- What the lines have said so far. -/
structure Header where
  name : Option Text
  description : Option Text

def Header.empty : Header := ⟨none, none⟩

def isIndented (line : Text) : Bool := line.head? == some ' ' || line.head? == some '\t'

def plainValue (v : Text) : Text := trimChar '\'' (trimChar '"' (trim v))

/-- One top-level line. -/
def Header.readLine (h : Header) (line : Text) : Header :=
  if isIndented line then h
  else
    match splitKv line with
    | none => h
    | some (k, v) =>
      let val := plainValue v
      if trim k = "name".toList then { h with name := some val }
      else if trim k = "description".toList then
        { h with description := some (if descriptionMax < val.length then val.take descriptionMax
          else val) }
      else h

def skillOf (h : Header) (body source : Text) : Option Skill := do
  let name ← h.name
  if isValidName name then some ⟨name, h.description.getD [], source, body⟩ else none

/-- The header is sliced off at the offset of the closing line. -/
def parseSkill (content source : Text) : Except SliceFailure (Option Skill) :=
  if skillMaxBytes < byteLen content then .ok none
  else
    match afterOpening (trimBom content) with
    | none => .ok none
    | some after =>
      match findFrontmatterEnd after with
      | none => .ok none
      | some stop =>
        if isCharBoundary stop after then
          let header := (textLines (takeBytes stop after)).foldl Header.readLine Header.empty
          .ok (skillOf header (trimLineBreaks (trimDashes (dropBytes stop after))) source)
        else .error .slice

/-! Where the slice falls. -/

def rawLines (t : Text) : List Text := Lines.lines '\n' t

def endsCrlf (line : Text) : Bool := "\r\n".toList.isSuffixOf line

/-- The text in front of the closing line, and the number of its lines that end with CRLF. -/
def headerText (after : Text) (idx : ℕ) : Text := ((rawLines after).take idx).flatten

def crlfLines (after : Text) (idx : ℕ) : ℕ := ((rawLines after).take idx).countP endsCrlf

section
variable {t after : Text} {idx : ℕ}

theorem headerText_append (after : Text) (idx : ℕ) :
    headerText after idx ++ ((rawLines after).drop idx).flatten = after := by
  unfold headerText
  rw [← List.flatten_append, List.take_append_drop]
  exact Lines.flatten_lines after

theorem byteLen_chompLine (piece : Text) :
    byteLen (chompLine (piece ++ ['\n'])) + 1 + (if endsCrlf (piece ++ ['\n']) then 1 else 0) =
      byteLen (piece ++ ['\n']) := by
  induction piece using List.reverseRecOn with
  | nil => decide
  | append_singleton piece c _ =>
    by_cases hc : c = '\r'
    · subst hc
      have hchomp : chompLine (piece ++ ['\r'] ++ ['\n']) = piece := by simp [chompLine]
      have hcrlf : endsCrlf (piece ++ ['\r'] ++ ['\n']) = true := by simp [endsCrlf]
      have hsize : '\r'.utf8Size = 1 ∧ '\n'.utf8Size = 1 := by decide
      rw [hchomp, hcrlf]
      simp [hsize]
    · have hchomp : chompLine (piece ++ [c] ++ ['\n']) = piece ++ [c] := by simp [chompLine, hc]
      have hcrlf : endsCrlf (piece ++ [c] ++ ['\n']) = false := by
        simp [endsCrlf, List.isSuffixOf, List.isPrefixOf, Ne.symm hc]
      have hsize : '\n'.utf8Size = 1 := by decide
      rw [hchomp, hcrlf]
      simp [hsize, Nat.add_assoc]

/-- Every line with CRLF moves the offset by one byte. -/
theorem offset_add_crlf {lines : List Text} (h : ∀ line ∈ lines, ∃ piece, line = piece ++ ['\n']) :
    ((lines.map chompLine).map fun l => byteLen l + 1).sum + lines.countP endsCrlf =
      byteLen lines.flatten := by
  induction lines with
  | nil => rfl
  | cons line rest ih =>
    obtain ⟨piece, rfl⟩ := h line (List.mem_cons_self ..)
    have hrest := ih fun l hl => h l (List.mem_cons_of_mem _ hl)
    have hline := byteLen_chompLine piece
    simp only [List.map_cons, List.sum_cons, List.countP_cons, List.flatten_cons, byteLen_append]
      at hrest hline ⊢
    omega

theorem offsetOf_add (h : idx < (rawLines after).length) :
    offsetOf (textLines after) idx + crlfLines after idx = byteLen (headerText after idx) := by
  unfold offsetOf textLines
  rw [← List.map_take]
  exact offset_add_crlf (Lines.take_terminated h)

theorem isCharBoundary_append_eq {n : ℕ} {s t : Text} (h : n ≤ byteLen s) :
    isCharBoundary n (s ++ t) = isCharBoundary n s := by
  induction s generalizing n with
  | nil =>
    obtain rfl : n = 0 := Nat.le_zero.mp h
    cases t <;> rfl
  | cons c s ih =>
    cases n with
    | zero => rfl
    | succ n =>
      rw [byteLen_cons] at h
      rw [List.cons_append, isCharBoundary, isCharBoundary, ih (by omega)]

/-- So many bytes in front of the end of the header as it has lines with CRLF stands a character. -/
def SlicesKept (content : Text) : Prop :=
  byteLen content ≤ skillMaxBytes → ∀ after, afterOpening (trimBom content) = some after →
    ∀ idx, (textLines after).findIdx? isClosing = some idx →
      isCharBoundary (byteLen (headerText after idx) - crlfLines after idx)
        (headerText after idx) = true

theorem isCharBoundary_offset (h : (textLines after).findIdx? isClosing = some idx) :
    isCharBoundary (offsetOf (textLines after) idx) after =
      isCharBoundary (byteLen (headerText after idx) - crlfLines after idx)
        (headerText after idx) := by
  obtain ⟨hlt, -⟩ := List.findIdx?_eq_some_iff_getElem.mp h
  have hlt : idx < (rawLines after).length := by simpa [textLines, rawLines] using hlt
  have hoffset := offsetOf_add hlt
  have heq : byteLen (headerText after idx) - crlfLines after idx =
      offsetOf (textLines after) idx := by omega
  have happend := @isCharBoundary_append_eq (offsetOf (textLines after) idx)
    (headerText after idx) ((rawLines after).drop idx).flatten (by omega)
  rw [headerText_append] at happend
  rw [heq, happend]

/-- A text is read without a failure exactly when its slices are kept. -/
theorem parseSkill_ok_iff (content source : Text) :
    (∃ skill, parseSkill content source = .ok skill) ↔ SlicesKept content := by
  unfold parseSkill SlicesKept findFrontmatterEnd
  by_cases hsize : skillMaxBytes < byteLen content
  · rw [if_pos hsize]
    exact ⟨fun _ hle => absurd hle (Nat.not_le.mpr hsize), fun _ => ⟨_, rfl⟩⟩
  · rw [if_neg hsize]
    cases hafter : afterOpening (trimBom content) with
    | none => simp
    | some after =>
      cases hidx : (textLines after).findIdx? isClosing with
      | none => simp [hidx]
      | some idx =>
        simp only [hidx, Option.map_some, isCharBoundary_offset hidx, Option.some.injEq,
          forall_eq', Nat.not_lt.mp hsize, true_imp_iff]
        split_ifs with hboundary
        · exact ⟨fun _ => hboundary, fun _ => ⟨_, rfl⟩⟩
        · constructor
          · rintro ⟨skill, hskill⟩
            cases hskill
          · exact fun h => absurd h hboundary

end

end DeepseekScience.Skills
