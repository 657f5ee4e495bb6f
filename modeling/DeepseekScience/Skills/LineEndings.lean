import DeepseekScience.Skills.SkillFile

/-! What a skill file is read as: with LF it is the skill that it spells, with CRLF it never is. -/
namespace DeepseekScience.Skills

section
variable {e : LineEnding} {lines before behind : List Text} {line t : Text}

theorem endLines_cons (e : LineEnding) (line : Text) (lines : List Text) :
    endLines e (line :: lines) = line ++ e.text ++ endLines e lines := rfl

theorem endLines_append (e : LineEnding) (before behind : List Text) :
    endLines e (before ++ behind) = endLines e before ++ endLines e behind :=
  List.flatMap_append

theorem rawLines_endLines (h : ∀ line ∈ lines, IsLine line) (t : Text) :
    rawLines (endLines e lines ++ t) = lines.map (· ++ e.text) ++ rawLines t := by
  induction lines with
  | nil => rfl
  | cons line rest ih =>
    have hlf := (h line (List.mem_cons_self ..)).1
    have hrest := ih fun l hl => h l (List.mem_cons_of_mem _ hl)
    rw [endLines_cons, List.map_cons, List.cons_append, ← hrest, List.append_assoc]
    cases e with
    | lf =>
      have hline := Lines.lines_append line (endLines .lf rest ++ t) hlf
      rw [List.append_assoc]
      exact hline
    | crlf =>
      have hcr : '\n' ∉ line ++ ['\r'] := by simpa using hlf
      have hline := Lines.lines_append (line ++ ['\r']) (endLines .crlf rest ++ t) hcr
      rw [List.append_assoc, List.append_assoc] at hline
      rw [List.append_assoc]
      exact hline

theorem chompLine_ended (h : IsLine line) : chompLine (line ++ e.text) = line := by
  cases e with
  | lf =>
    induction line using List.reverseRecOn with
    | nil => rfl
    | append_singleton line c _ =>
      have hc : c ≠ '\r' := by
        rintro rfl
        exact h.2 (by simp)
      simp [chompLine, LineEnding.text, hc]
  | crlf => simp [chompLine, LineEnding.text]

theorem textLines_endLines (h : ∀ line ∈ lines, IsLine line) (t : Text) :
    textLines (endLines e lines ++ t) = lines ++ textLines t := by
  have hchomp : (lines.map (· ++ e.text)).map chompLine = lines := by
    rw [List.map_map]
    conv_rhs => rw [← List.map_id lines]
    apply List.map_congr_left
    intro line hline
    exact chompLine_ended (h line hline)
  unfold textLines
  rw [show Lines.lines '\n' _ = _ from rawLines_endLines h t, List.map_append, hchomp]
  rfl

theorem findIdx?_closing (hbefore : ∀ l ∈ before, isClosing l = false)
    (hline : isClosing line = true) :
    (before ++ line :: behind).findIdx? isClosing = some before.length := by
  induction before with
  | nil => simp [List.findIdx?_cons, hline]
  | cons first rest ih =>
    rw [List.cons_append, List.findIdx?_cons, hbefore first (List.mem_cons_self ..),
      ih fun l hl => hbefore l (List.mem_cons_of_mem _ hl)]
    rfl

/-- The first closing line of lines one of which closes. -/
theorem exists_closing (h : ∃ line ∈ lines, isClosing line = true) :
    ∃ before line behind, lines = before ++ line :: behind ∧
      (∀ l ∈ before, isClosing l = false) ∧ isClosing line = true := by
  induction lines with
  | nil =>
    obtain ⟨line, hline, -⟩ := h
    exact absurd hline List.not_mem_nil
  | cons first rest ih =>
    cases hfirst : isClosing first with
    | true => exact ⟨[], first, rest, rfl, fun l hl => absurd hl List.not_mem_nil, hfirst⟩
    | false =>
      obtain ⟨line, hline, hclosing⟩ := h
      have hne : line ≠ first := by
        rintro rfl
        rw [hfirst] at hclosing
        cases hclosing
      obtain ⟨before, l, behind, rfl, hbefore, hl⟩ :=
        ih ⟨line, (List.mem_cons.mp hline).resolve_left hne, hclosing⟩
      use first :: before, l, behind, rfl
      constructor
      · intro l hl
        rcases List.mem_cons.mp hl with rfl | hl
        · exact hfirst
        · exact hbefore l hl
      · exact hl

/-- The offset leaves out a byte for every line with CRLF. -/
theorem offset_endLines (e : LineEnding) (before behind : List Text) :
    offsetOf (before ++ behind) before.length + (if e = .crlf then before.length else 0) =
      byteLen (endLines e before) := by
  unfold offsetOf
  rw [List.take_left]
  induction before with
  | nil => simp [endLines]
  | cons line rest ih =>
    have hlf : byteLen "\n".toList = 1 := by decide
    have hcrlf : byteLen "\r\n".toList = 2 := by decide
    rw [endLines_cons, byteLen_append, byteLen_append, ← ih]
    cases e with
    | lf =>
      simp only [LineEnding.text, hlf, List.map_cons, List.sum_cons, reduceCtorEq, if_false]
      omega
    | crlf =>
      simp only [LineEnding.text, hcrlf, List.map_cons, List.sum_cons, List.length_cons, if_true]
      omega

end

/-! Bodies that keep the closing line. -/

section
variable {c : Char} {t v : Text}

theorem trimDashes_append (hc : c ≠ '-') (u v : Text) :
    ∃ x, trimDashes (u ++ c :: v) = x ++ c :: v := by
  induction u using trimDashes.induct with
  | case1 rest ih => exact ih
  | case2 u hu =>
    use u
    match u with
    | [] => simp [trimDashes, hc]
    | [a] => simp [trimDashes, hc]
    | [a, b] => simp [trimDashes, hc]
    | a :: b :: d :: rest =>
      have hthree : ¬(a = '-' ∧ b = '-' ∧ d = '-') := by
        rintro ⟨rfl, rfl, rfl⟩
        exact hu rest rfl
      unfold trimDashes
      split
      · simp_all
      · rfl

theorem trimLineBreaks_append (hlf : c ≠ '\n') (hcr : c ≠ '\r') (u v : Text) :
    ∃ x, trimLineBreaks (u ++ c :: v) = x ++ c :: v := by
  induction u with
  | nil =>
    use []
    unfold trimLineBreaks
    rw [List.nil_append, List.dropWhile_cons_of_neg]
    simp [hlf, hcr]
  | cons d u ih =>
    by_cases hd : (d == '\n' || d == '\r') = true
    · obtain ⟨x, hx⟩ := ih
      use x
      rw [← hx]
      exact List.dropWhile_cons_of_pos hd
    · use d :: u
      exact List.dropWhile_cons_of_neg hd

/-- A dash behind a character that is none is never trimmed. -/
theorem trimmed_length (hc : c ≠ '-') (hv : '-' ∈ v) (u t : Text) :
    t.length < (trimLineBreaks (trimDashes (u ++ c :: (v ++ t)))).length := by
  obtain ⟨first, second, rfl⟩ := List.append_of_mem hv
  obtain ⟨x, hx⟩ := trimDashes_append hc u (first ++ '-' :: second ++ t)
  rw [hx, List.append_assoc, List.cons_append, ← List.cons_append, ← List.append_assoc]
  obtain ⟨y, hy⟩ := trimLineBreaks_append (c := '-') (by decide) (by decide)
    (x ++ c :: first) (second ++ t)
  rw [hy]
  simp only [List.length_append, List.length_cons]
  omega

end

section
variable (f : SkillFile) (source : Text) {before behind : List Text} {line : Text}

theorem SkillFile.afterOpening :
    afterOpening (trimBom f.text) =
      some (endLines f.ending (f.lines ++ [fence]) ++ f.body) := by
  unfold SkillFile.text fileText
  rw [endLines_cons]
  cases f.ending with
  | lf => rfl
  | crlf => rfl

theorem SkillFile.not_too_long : ¬skillMaxBytes < byteLen f.text := Nat.not_lt.mpr f.size

/-- The file is read at its first closing line. -/
theorem SkillFile.parse (hsplit : f.lines ++ [fence] = before ++ line :: behind)
    (hbefore : ∀ l ∈ before, isClosing l = false) (hline : isClosing line = true) :
    parseSkill f.text source =
      let after := endLines f.ending before ++ (endLines f.ending (line :: behind) ++ f.body)
      let stop := offsetOf (before ++ [line]) before.length
      if isCharBoundary stop after then
        let header := (textLines (takeBytes stop after)).foldl Header.readLine Header.empty
        .ok (skillOf header (trimLineBreaks (trimDashes (dropBytes stop after))) source)
      else .error .slice := by
  have hlines := @textLines_endLines f.ending _ f.isLine f.body
  have hidx : findFrontmatterEnd (endLines f.ending (f.lines ++ [fence]) ++ f.body) =
      some (offsetOf (before ++ [line]) before.length) := by
    unfold findFrontmatterEnd
    rw [hlines, hsplit, List.append_assoc, List.cons_append, findIdx?_closing hbefore hline]
    unfold offsetOf
    rw [Option.map_some, List.take_left, List.take_left]
  unfold parseSkill
  rw [if_neg f.not_too_long, f.afterOpening]
  simp only [hidx]
  rw [hsplit, endLines_append, List.append_assoc]

theorem skillOf_eq_some {h : Header} {body source : Text} {skill : Skill}
    (hskill : skillOf h body source = some skill) : h.name ≠ none ∧ skill.body = body := by
  unfold skillOf at hskill
  cases hname : h.name with
  | none =>
    rw [hname] at hskill
    cases hskill
  | some name =>
    rw [hname] at hskill
    simp only [Option.bind_eq_bind, Option.bind_some, Option.ite_none_right_eq_some,
      Option.some.injEq] at hskill
    obtain ⟨-, rfl⟩ := hskill
    exact ⟨by simp, rfl⟩

/-- With CRLF the header is sliced off before its last line feed. -/
theorem early_slice {v : Text} (hbefore : before ≠ [])
    (hboundary : isCharBoundary (offsetOf (before ++ behind) before.length)
      (endLines .crlf before ++ v) = true) :
    ∃ u, dropBytes (offsetOf (before ++ behind) before.length) (endLines .crlf before ++ v) =
      u ++ '\n' :: v := by
  have hoffset := offset_endLines .crlf before behind
  rw [if_pos rfl] at hoffset
  have hpos := List.length_pos_of_ne_nil hbefore
  obtain ⟨x, y, heq, hlen⟩ := exists_append_of_isCharBoundary hboundary
  rw [heq, hlen, dropBytes_append]
  rcases List.append_eq_append_iff.mp heq with ⟨w, hx, -⟩ | ⟨w, hheader, rfl⟩
  · rw [hx, byteLen_append] at hlen
    omega
  · have hend : ∃ z, endLines .crlf before = z ++ ['\n'] := by
      obtain ⟨rest, last, rfl⟩ := List.eq_nil_or_concat'  before |>.resolve_left hbefore
      use endLines .crlf rest ++ last ++ ['\r']
      rw [endLines_append]
      simp [endLines, LineEnding.text]
    obtain ⟨z, hz⟩ := hend
    rcases List.eq_nil_or_concat' w with rfl | ⟨u, d, rfl⟩
    · rw [List.append_nil] at hheader
      rw [hheader] at hoffset
      omega
    · rw [hheader, ← List.append_assoc] at hz
      obtain ⟨-, hd⟩ := List.append_inj' hz rfl
      use u
      rw [hd, List.append_assoc]
      rfl

/-- A file that is read as its skill has LF, and no line of its header closes it. -/
theorem SkillFile.ending_of_parse (h : parseSkill f.text source = .ok (some (f.skill source))) :
    f.ending = .lf ∧ ∀ line ∈ f.lines, trim line ≠ fence := by
  have hfence : ∃ line ∈ f.lines ++ [fence], isClosing line = true :=
    ⟨fence, List.mem_append_right _ (List.mem_singleton_self _), by decide⟩
  obtain ⟨before, line, behind, hsplit, hbefore, hline⟩ := exists_closing hfence
  rw [f.parse source hsplit hbefore hline] at h
  simp only at h
  split_ifs at h with hboundary
  obtain ⟨hname, hbody⟩ := skillOf_eq_some (Except.ok.inj h)
  have hdash := dash_mem_of_isClosing hline
  have hrest : ∀ e, endLines e (line :: behind) ++ f.body =
      line ++ (e.text ++ endLines e behind) ++ f.body := by
    intro e
    rw [endLines_cons, List.append_assoc line]
  cases hending : f.ending with
  | crlf =>
    exfalso
    rw [hending] at hbody hname hboundary
    by_cases hnone : before = []
    · subst hnone
      apply hname
      rw [show offsetOf ([] ++ [line]) [].length = 0 from rfl, takeBytes_zero]
      rfl
    · obtain ⟨u, hu⟩ := early_slice hnone hboundary
      have hlong := @trimmed_length '\n' (line ++ (LineEnding.crlf.text ++ endLines .crlf behind))
        (by decide) (List.mem_append_left _ hdash) u f.body
      rw [hu, hrest] at hbody
      rw [← hbody] at hlong
      exact lt_irrefl _ hlong
  | lf =>
    use rfl
    intro l hl hclosing
    have hl' : isClosing l = true := beq_iff_eq.mpr hclosing
    have hnot : l ∉ before := by
      intro hmem
      rw [hbefore l hmem] at hl'
      cases hl'
    have hmem : line ∈ f.lines := by
      rcases List.append_eq_append_iff.mp hsplit with ⟨more, hmore, -⟩ | ⟨more, hmore, hbehind⟩
      · rw [hmore] at hnot
        exact absurd (List.mem_append_left _ hl) hnot
      · cases more with
        | nil =>
          rw [List.append_nil] at hmore
          exact absurd (hmore ▸ hl) hnot
        | cons first more =>
          obtain ⟨rfl, -⟩ := List.cons.inj hbehind
          rw [hmore]
          exact List.mem_append_right _ (List.mem_cons_self ..)
    have hoffset := offset_endLines .lf before [line]
    rw [if_neg (by decide), Nat.add_zero] at hoffset
    rw [hending, hoffset, dropBytes_append, hrest] at hbody
    have hindent := f.isIndented_of_isClosing hmem hline
    cases line with
    | nil => cases hdash
    | cons c rest =>
      have hc : c ≠ '-' := by
        rintro rfl
        cases hindent
      have hin : '-' ∈ rest := (List.mem_cons.mp hdash).resolve_left (Ne.symm hc)
      have hlong := @trimmed_length c (rest ++ (LineEnding.lf.text ++ endLines .lf behind)) hc
        (List.mem_append_left _ hin) [] f.body
      rw [List.nil_append, ← List.cons_append, ← List.cons_append, ← hbody] at hlong
      exact lt_irrefl _ hlong

/-- A file with LF is read as its skill when no line of its header closes it. -/
theorem SkillFile.parse_of_lf (hending : f.ending = .lf)
    (hlines : ∀ line ∈ f.lines, trim line ≠ fence) :
    parseSkill f.text source = .ok (some (f.skill source)) := by
  have hbefore : ∀ l ∈ f.lines, isClosing l = false := fun l hl => beq_false_of_ne (hlines l hl)
  have hline : ∀ line ∈ f.lines, IsLine line := fun line hmem =>
    f.isLine line (List.mem_append_left _ hmem)
  have hoffset := offset_endLines .lf f.lines [fence]
  rw [if_neg (by decide), Nat.add_zero] at hoffset
  have hread : textLines (endLines .lf f.lines) = f.lines := by
    have h := @textLines_endLines .lf _ hline []
    rw [List.append_nil] at h
    rw [h]
    exact List.append_nil _
  have hbody : trimLineBreaks (trimDashes (endLines .lf [fence] ++ f.body)) = f.body := by
    show (f.body.dropWhile fun c => c == '\n' || c == '\r') = f.body
    cases hb : f.body with
    | nil => rfl
    | cons c rest =>
      obtain ⟨hlf, hcr, -⟩ := f.bodyStart c (by rw [hb]; rfl)
      rw [List.dropWhile_cons_of_neg]
      simp [hlf, hcr]
  rw [f.parse source rfl hbefore (by decide)]
  simp only [hending, hoffset, isCharBoundary_append, takeBytes_append, dropBytes_append, if_true,
    hread, hbody, f.readHeader]
  unfold skillOf
  simp [f.validName, SkillFile.skill]

/-- A file is read as its skill exactly when it has LF and no indented line of it reads like the
closing one; and a text is read without a failure exactly when the slice of its header is kept. -/
theorem parseSkill_iff (content source : Text) :
    (∀ f : SkillFile, parseSkill f.text source = .ok (some (f.skill source)) ↔
      f.ending = .lf ∧ ∀ line ∈ f.lines, trim line ≠ fence) ∧
    ((∃ skill, parseSkill content source = .ok skill) ↔ SlicesKept content) := by
  constructor
  · intro f
    constructor
    · exact f.ending_of_parse source
    · rintro ⟨hending, hlines⟩
      exact f.parse_of_lf source hending hlines
  · exact parseSkill_ok_iff content source

end

/-! Two files with CRLF. -/

def crlfFile : SkillFile where
  name := "plot".toList
  description := "Plots data.".toList
  lines := [nameLine "plot".toList, descriptionLine "Plots data.".toList]
  body := "Steps.".toList
  ending := .crlf
  validName := by decide
  shortDescription := by
    show 11 ≤ 1024
    norm_num
  plainDescription := by
    have hall : ("Plots data.".toList.all fun c =>
        decide (c ≠ '\n' ∧ c ≠ '\r' ∧ c ≠ '"' ∧ c ≠ '\'')) = true := by decide
    exact fun c hc => of_decide_eq_true (List.all_eq_true.mp hall c hc)
  trimmedDescription := by decide
  hasName := by decide
  hasDescription := by decide
  onlyLines := by
    intro line hline
    rcases List.mem_cons.mp hline with rfl | hline
    · exact Or.inl rfl
    · exact Or.inr (Or.inl (List.mem_singleton.mp hline))
  bodyStart := by
    intro c hc
    obtain rfl : 'S' = c := Option.some.inj hc
    decide
  size := by decide +kernel

/-- A file whose header has three lines, the last of which ends with two bytes of one character. -/
def accentedText : Text :=
  endLines .crlf ["---".toList, "name: plot".toList, "license: MIT".toList,
    "description: Café".toList, "---".toList] ++ "Steps.".toList

/-- The closing line gets into the body, and a slice inside a character fails. -/
theorem crlf_misread :
    parseSkill crlfFile.text [] = .ok (some { crlfFile.skill [] with
      body := "---\r\nSteps.".toList }) ∧
    parseSkill accentedText [] = .error .slice := by
  constructor
  · rfl
  · rfl

end DeepseekScience.Skills
