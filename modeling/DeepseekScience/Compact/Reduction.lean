import DeepseekScience.Compact.MutationArgs

/-! When the free pass makes a message longer. Truncation never does; a projected envelope does when
the parts that it copies are long, and a mutation when the path that its notices repeat is long. -/
namespace DeepseekScience.Compact

/-- `serde_json::to_string`: no whitespace, and only control characters, quotes and backslashes are
escaped. -/
structure WritesCompactly (serde : SerdeJson) (escape : Char → Text) : Prop where
  string : ∀ s, serde.toText (.string s) = '"' :: (s.flatMap escape ++ ['"'])
  array : ∀ items,
    serde.toText (.array items) = '[' :: (joinText [','] (items.map serde.toText) ++ [']'])
  object : ∀ members, serde.toText (.object members) = '\x7b' :: (joinText [','] (members.map fun m =>
    serde.toText (.string m.1) ++ ':' :: serde.toText m.2) ++ ['\x7d'])
  plain : ∀ c : Char, ' ' ≤ c → c ≠ '"' → c ≠ '\\' → escape c = [c]

variable {serde : SerdeJson} {escape : Char → Text}

def isPlain (c : Char) : Bool := decide (' ' ≤ c) && c != '"' && c != '\\'

/-- The characters of a text inside a JSON string. -/
def escapedChars (escape : Char → Text) (t : Text) : ℕ := (t.flatMap escape).length

theorem WritesCompactly.escapedChars_plain (hw : WritesCompactly serde escape) {t : Text}
    (h : t.all isPlain = true) : escapedChars escape t = t.length := by
  induction t with
  | nil => rfl
  | cons c t ih =>
    simp only [List.all_cons, Bool.and_eq_true, isPlain, bne_iff_ne, decide_eq_true_eq] at h
    have hc := hw.plain c h.1.1.1 h.1.1.2 h.1.2
    have ht := ih (by simpa [isPlain] using h.2)
    simp only [escapedChars, List.flatMap_cons, List.length_append, hc, List.length_cons,
      List.length_nil] at ht ⊢
    omega

theorem escapedChars_append (s t : Text) :
    escapedChars escape (s ++ t) = escapedChars escape s + escapedChars escape t := by
  simp only [escapedChars, List.flatMap_append, List.length_append]

theorem WritesCompactly.length_string (hw : WritesCompactly serde escape) (s : Text) :
    (serde.toText (.string s)).length = escapedChars escape s + 2 := by
  rw [hw.string, List.length_cons, List.length_append, escapedChars]
  rfl

theorem length_joinText (parts : List Text) (h : parts ≠ []) :
    (joinText [','] parts).length + 1 = (parts.map fun part => part.length + 1).sum := by
  induction parts with
  | nil => exact absurd rfl h
  | cons part rest ih =>
    cases rest with
    | nil => simp [joinText, List.intercalate]
    | cons other rest =>
      have := ih (List.cons_ne_nil other rest)
      simp only [joinText, List.intercalate, List.intersperse_cons_cons, List.flatten_cons,
        List.length_append, List.map_cons, List.sum_cons, List.length_cons, List.length_nil] at this ⊢
      omega

/-- The characters of an object, by those of its values. -/
theorem WritesCompactly.length_object (hw : WritesCompactly serde escape)
    {members : List (Text × Json)} (h : members ≠ []) :
    (serde.toText (.object members)).length =
      (members.map fun m => escapedChars escape m.1 + 4 + (serde.toText m.2).length).sum + 1 := by
  have hjoin := length_joinText (members.map fun m =>
    serde.toText (.string m.1) ++ ':' :: serde.toText m.2) (by simpa using h)
  have hsum : ((members.map fun m => serde.toText (.string m.1) ++ ':' :: serde.toText m.2).map
      fun part => part.length + 1).sum =
      (members.map fun m => escapedChars escape m.1 + 4 + (serde.toText m.2).length).sum := by
    rw [List.map_map]
    congr 1
    apply List.map_congr_left
    intro m _
    simp only [Function.comp_apply, List.length_append, List.length_cons, hw.length_string]
    omega
  rw [hw.object]
  simp only [List.length_cons, List.length_append, List.length_nil]
  omega

/-- The characters of an array, by those of its items. -/
theorem WritesCompactly.length_array (hw : WritesCompactly serde escape) {items : List Json}
    (h : items ≠ []) :
    (serde.toText (.array items)).length =
      (items.map fun item => (serde.toText item).length + 1).sum + 1 := by
  have hjoin := length_joinText (items.map serde.toText) (by simpa using h)
  rw [List.map_map] at hjoin
  rw [hw.array]
  simp only [List.length_cons, List.length_append, List.length_nil, Function.comp_def] at hjoin ⊢
  omega

theorem natText_plain (n : ℕ) : (natText n).all isPlain = true := by
  rw [List.all_eq_true]
  intro c hc
  have hdigit := Nat.isDigit_of_mem_toDigits (by decide) (by decide) hc
  simp only [Char.isDigit, Bool.and_eq_true, decide_eq_true_eq] at hdigit
  simp only [isPlain, Bool.and_eq_true, decide_eq_true_eq, bne_iff_ne]
  have hle : '0' ≤ c := hdigit.1
  refine ⟨⟨Char.le_trans (by decide) hle, ?_⟩, ?_⟩
  · rintro rfl
    exact absurd hle (by decide)
  · rintro rfl
    exact absurd hdigit.2 (by decide)

/-! Truncation. -/

theorem add_lt_ten_pow {k : ℕ} (h : 5 ≤ k) : k + 4100 < 10 ^ k := by
  induction k, h using Nat.le_induction with
  | base => decide
  | succ k _ ih =>
    rw [pow_succ]
    omega

theorem length_natText_le {n : ℕ} (h : toolresultThreshold < n) :
    (natText n).length + 4100 ≤ n := by
  have hn : 8000 < n := h
  obtain ⟨k, rfl⟩ : ∃ k, n = k + 4100 := ⟨n - 4100, by omega⟩
  have := (Nat.length_toDigits_le_iff (by decide) (by omega)).mpr
    (add_lt_ten_pow (k := k) (by omega))
  rw [natText]
  omega

theorem length_append₅ (a b c d e : Text) :
    (a ++ b ++ c ++ d ++ e).length = a.length + b.length + c.length + d.length + e.length := by
  simp only [List.length_append]

theorem length_truncationNotice (chars : ℕ) :
    (truncationNotice chars).length = (natText chars).length + 59 := by
  have hfront : "\n\n[microcompact: tool result truncated from ".toList.length = 44 := by decide
  have hback : " to ".toList.length + (natText toolresultKeep).length + " chars]".toList.length = 15 := by
    decide
  have hsplit : (truncationNotice chars).length = _ := length_append₅ _ _ _ _ _
  rw [hfront] at hsplit
  omega

theorem length_truncated_le {content : Text} (h : toolresultThreshold < content.length) :
    (content.take toolresultKeep ++ truncationNotice content.length).length ≤ content.length := by
  have hdigits := length_natText_le h
  have hkeep : toolresultKeep = 4000 := rfl
  rw [List.length_append, List.length_take, length_truncationNotice, hkeep]
  omega

/-! Projection. -/

/-- The characters of the fields that the projection copies whole. -/
def copiedChars (serde : SerdeJson) (source : Json) (frames : List Json) : ℕ :=
  ([copied source "agent".toList, projectedCard source, copied source "registry".toList,
    copied source "request".toList, .array (frames.map responseRow), copied source "terminal".toList,
    copied source "warnings".toList].map fun value => (serde.toText value).length).sum

/-- The characters of the projection without remote content: its own fields and the copied ones. -/
def envelopeChars (serde : SerdeJson) (source : Json) (frames : List Json) (note : Text) : ℕ :=
  291 + note.length + copiedChars serde source frames

/-- An object with plain keys. -/
theorem WritesCompactly.length_plainObject (hw : WritesCompactly serde escape)
    {members : List (Text × Json)} (h : members ≠ [])
    (hplain : (members.all fun m => m.1.all isPlain) = true) :
    (serde.toText (.object members)).length = (members.map fun m => m.1.length + 4).sum +
      (members.map fun m => (serde.toText m.2).length).sum + 1 := by
  rw [hw.length_object h]
  congr 1
  rw [← List.sum_map_add]
  congr 1
  apply List.map_congr_left
  intro m hm
  rw [hw.escapedChars_plain (List.all_eq_true.mp hplain m hm)]

theorem length_responseColumns (hw : WritesCompactly serde escape) :
    (serde.toText (.array (responseColumns.map Json.string))).length = 80 := by
  have hstring : ∀ t ∈ responseColumns, (serde.toText (.string t)).length = t.length + 2 := by
    intro t ht
    have hplain : responseColumns.all (fun t => t.all isPlain) = true := by decide
    rw [hw.length_string, hw.escapedChars_plain (List.all_eq_true.mp hplain t ht)]
  rw [hw.length_array (by decide), List.map_map]
  have hmap : (responseColumns.map
      ((fun item => (serde.toText item).length + 1) ∘ Json.string)) =
      responseColumns.map fun t => t.length + 3 := by
    apply List.map_congr_left
    intro t ht
    rw [Function.comp_apply, hstring t ht]
  rw [hmap]
  decide

theorem length_projectedEnvelope (hw : WritesCompactly serde escape) (source : Json)
    (frames : List Json) {note : Text} (hnote : note.all isPlain = true)
    (semantic : List SemanticItem) :
    (serde.toText (projectedEnvelope source frames note semantic)).length + 2 =
      envelopeChars serde source frames note +
        (serde.toText (.array (semantic.map SemanticItem.toJson))).length := by
  have hschema : (serde.toText (.string a2aLlmViewSchema)).length = 21 := by
    rw [hw.length_string, hw.escapedChars_plain (by decide)]
    decide
  have hsource : (serde.toText (.string a2aResultSchema)).length = 24 := by
    rw [hw.length_string, hw.escapedChars_plain (by decide)]
    decide
  have htext : (serde.toText (.string note)).length = note.length + 2 := by
    rw [hw.length_string, hw.escapedChars_plain hnote]
  have hcolumns := length_responseColumns hw
  rw [projectedEnvelope, hw.length_plainObject (List.cons_ne_nil _ _) rfl, envelopeChars, copiedChars]
  simp only [List.map_cons, List.map_nil, List.sum_cons, List.sum_nil, hschema, hsource, htext,
    hcolumns]
  have hkeys : "agent".toList.length + 4 + ("card".toList.length + 4 +
      ("projection_note".toList.length + 4 + ("registry".toList.length + 4 +
      ("remote_content".toList.length + 4 + ("request".toList.length + 4 +
      ("response_columns".toList.length + 4 + ("responses".toList.length + 4 +
      ("schema".toList.length + 4 + ("source_schema".toList.length + 4 +
      ("terminal".toList.length + 4 + ("warnings".toList.length + 4 + 0))))))))))) = 161 := by decide
  rw [hkeys]
  generalize (serde.toText (copied source "agent".toList)).length = agent
  generalize (serde.toText (projectedCard source)).length = card
  generalize (serde.toText (copied source "registry".toList)).length = registry
  generalize (serde.toText (copied source "request".toList)).length = request
  generalize (serde.toText (copied source "terminal".toList)).length = terminal
  generalize (serde.toText (copied source "warnings".toList)).length = warnings
  clear hkeys hcolumns hschema hsource
  omega

theorem length_array_ge (hw : WritesCompactly serde escape) (items : List Json) :
    (serde.toText (.array [])).length ≤ (serde.toText (.array items)).length := by
  rw [hw.array, hw.array]
  simp only [List.length_cons, List.length_append, List.map_nil, joinText, List.intercalate,
    List.intersperse_nil, List.flatten_nil, List.length_nil]
  omega

/-- The projection fits, or it is the envelope without remote content. -/
theorem fitProjection_cases (render : Text → List SemanticItem → Text) {rounds : ℕ} {note : Text}
    (semantic : List SemanticItem) (h : semantic.length = rounds) :
    ∃ last items, fitProjection render rounds note semantic = render last items ∧
      (last = note ∨ last = omittedNote) ∧
      ((render last items).length ≤ projectionTarget ∨
        items = [] ∧ last = if semantic = [] then note else omittedNote) := by
  induction rounds generalizing note semantic with
  | zero =>
    obtain rfl := List.length_eq_zero_iff.mp h
    exact ⟨note, [], rfl, Or.inl rfl, Or.inr ⟨rfl, (if_pos rfl).symm⟩⟩
  | succ rounds ih =>
    have hne : semantic ≠ [] := by
      intro hempty
      rw [hempty] at h
      cases h
    rw [fitProjection, if_neg hne]
    split_ifs with hfit
    · exact ⟨note, semantic, rfl, Or.inl rfl, Or.inl hfit⟩
    · have hlen : semantic.dropLast.length = rounds := by
        rw [List.length_dropLast]
        omega
      obtain ⟨last, items, heq, hlast, hcase⟩ := ih semantic.dropLast hlen
      rw [ite_self] at hcase
      exact ⟨last, items, heq, Or.inr ((or_self _).mp hlast), hcase⟩

def noteLeft (serde : SerdeJson) (frames : List Json) : Text :=
  if (collectFrames serde frames).output = [] then fullNote else omittedNote

theorem fullNote_plain : fullNote.all isPlain = true := by decide +kernel

theorem omittedNote_plain : omittedNote.all isPlain = true := by decide +kernel

theorem length_fullNote : fullNote.length = 117 := by decide +kernel

theorem length_omittedNote : omittedNote.length = 130 := by decide +kernel

/-- The characters of a projection: those of the envelope without remote content, or few anyway. -/
theorem length_compacted (hw : WritesCompactly serde escape) {content compacted : Text}
    {source : Json} {frames : List Json} (hsource : a2aSource serde content = some (source, frames))
    (h : compactA2aToolResult serde content = some compacted) :
    compacted.length = envelopeChars serde source frames (noteLeft serde frames) ∨
      compacted.length ≤ projectionTarget ∧
        envelopeChars serde source frames (noteLeft serde frames) ≤ projectionTarget + 13 := by
  rw [compactA2aToolResult, hsource, Option.map_some] at h
  obtain rfl := Option.some.inj h
  obtain ⟨last, items, heq, hlast, hcase⟩ := fitProjection_cases
    (fun note items => serde.toText (projectedEnvelope source frames note items))
    (collectFrames serde frames).output rfl
  simp only at heq ⊢
  rw [heq]
  have hplain : last.all isPlain = true := by
    rcases hlast with hlast | hlast <;> rw [hlast]
    · exact fullNote_plain
    · exact omittedNote_plain
  have hlen := length_projectedEnvelope hw source frames hplain items
  have hleft : (noteLeft serde frames).length ≤ last.length + 13 := by
    have hfull := length_fullNote
    have homitted := length_omittedNote
    rw [noteLeft]
    split_ifs <;> rcases hlast with hlast | hlast <;> rw [hlast] <;> omega
  have hempty : (serde.toText (.array [])).length = 2 := by
    rw [hw.array]
    rfl
  rcases hcase with hfit | ⟨hitems, hnote⟩
  · have hge := length_array_ge hw (items.map SemanticItem.toJson)
    simp only [envelopeChars] at hlen ⊢
    exact Or.inr ⟨hfit, by omega⟩
  · rw [hitems, List.map_nil, hempty] at hlen
    rw [hitems]
    have hsame : last = noteLeft serde frames := hnote
    rw [hsame] at hlen ⊢
    exact Or.inl (by omega)

/-! Mutations. -/

/-- The characters of a notice inside a JSON string: the path is repeated. -/
def noticeChars (escape : Char → Text) (name path : Text) (member : Text × Json) : ℕ :=
  89 + member.1.length + name.length + (natText (member.2.asStr.getD []).length).length +
    escapedChars escape path

/-- The characters of a member behind the pass, with its key and punctuation. -/
def memberChars (serde : SerdeJson) (escape : Char → Text) (name path : Text)
    (member : Text × Json) : ℕ :=
  escapedChars escape member.1 + 4 +
    if isCompacted member then noticeChars escape name path member + 2
    else (serde.toText member.2).length

/-- The characters of the arguments of a call behind the pass: those of the members that are kept
and of the notices. -/
def argumentChars (serde : SerdeJson) (escape : Char → Text) (successfulCalls : List Text)
    (call : ToolCall) : ℕ :=
  if call.id ∈ successfulCalls ∧ isFileMutation call.function.name = true ∧
      toolresultThreshold < call.function.arguments.length then
    match serde.fromStr call.function.arguments with
    | some (.object members) =>
      if members.any isCompacted then
        (members.map (memberChars serde escape call.function.name (mutationPath members))).sum + 1
      else call.function.arguments.length
    | _ => call.function.arguments.length
  else call.function.arguments.length

theorem escapedChars_append₉ (a b c d e f g h i : Text) :
    escapedChars escape (a ++ b ++ c ++ d ++ e ++ f ++ g ++ h ++ i) =
      escapedChars escape a + escapedChars escape b + escapedChars escape c +
        escapedChars escape d + escapedChars escape e + escapedChars escape f +
        escapedChars escape g + escapedChars escape h + escapedChars escape i := by
  simp only [escapedChars_append]

theorem escapedChars_omittedNotice (hw : WritesCompactly serde escape) {field name : Text}
    (hfield : field ∈ mutationFields) (hname : isFileMutation name = true) (path : Text) (n : ℕ) :
    escapedChars escape (omittedNotice field name path n) =
      89 + field.length + name.length + (natText n).length + escapedChars escape path := by
  have hsplit : escapedChars escape (omittedNotice field name path n) = _ :=
    escapedChars_append₉ _ _ _ _ _ _ _ _ _
  have hfields : (mutationFields.all fun field => field.all isPlain) = true := by decide
  have hnames : name.all isPlain = true := by
    simp only [isFileMutation, Bool.or_eq_true, beq_iff_eq] at hname
    rcases hname with hname | hname <;> rw [hname] <;> decide
  have hopen : escapedChars escape "[microcompact: ".toList = 15 :=
    (hw.escapedChars_plain (by decide)).trans (by decide)
  have homitted : escapedChars escape " omitted after successful ".toList = 26 :=
    (hw.escapedChars_plain (by decide)).trans (by decide)
  have hsemi : escapedChars escape "; ".toList = 2 :=
    (hw.escapedChars_plain (by decide)).trans (by decide)
  have hread : escapedChars escape " chars; use read_file on ".toList = 25 :=
    (hw.escapedChars_plain (by decide)).trans (by decide)
  have hclose : escapedChars escape " for current content]".toList = 21 :=
    (hw.escapedChars_plain (by decide)).trans (by decide)
  rw [hopen, homitted, hsemi, hread, hclose, hw.escapedChars_plain (natText_plain n),
    hw.escapedChars_plain hnames,
    hw.escapedChars_plain (List.all_eq_true.mp hfields field hfield)] at hsplit
  omega

theorem length_compactField (hw : WritesCompactly serde escape) {name : Text}
    (hname : isFileMutation name = true) (path : Text) (member : Text × Json) :
    escapedChars escape (compactField name path member).1 + 4 +
        (serde.toText (compactField name path member).2).length =
      memberChars serde escape name path member := by
  obtain ⟨field, value⟩ := member
  rw [compactField, memberChars, isCompacted]
  split
  · rename_i text htext
    simp only at htext
    subst htext
    simp only [Json.asStr, Option.any_some, List.contains_iff_mem, Bool.and_eq_true,
      decide_eq_true_eq]
    split_ifs with hlong
    · simp only [hw.length_string, escapedChars_omittedNotice hw hlong.1 hname, noticeChars,
        Json.asStr, Option.getD_some]
    · rfl
  · rename_i hother
    rw [if_neg]
    intro hcompacted
    simp only [Bool.and_eq_true] at hcompacted
    cases value with
    | string text => exact hother text rfl
    | _ => cases hcompacted.2

theorem length_compactCall (hw : WritesCompactly serde escape) (ids : List Text)
    (call : ToolCall) :
    (compactCall serde ids call).function.arguments.length =
      argumentChars serde escape ids call := by
  rw [compactCall, argumentChars, rewriteCall]
  by_cases hid : call.id ∈ ids
  · rw [if_pos hid]
    by_cases hname : isFileMutation call.function.name = true
    · by_cases hlong : toolresultThreshold < call.function.arguments.length
      · rw [if_neg (by simp [hname, hlong]), if_pos ⟨hid, hname, hlong⟩]
        cases hread : serde.fromStr call.function.arguments with
        | none => rfl
        | some value =>
          cases value with
          | object members =>
            simp only
            split_ifs with hany
            · have hne : members ≠ [] := by
                rintro rfl
                cases hany
              simp only
              rw [hw.length_object (by simpa using hne), List.map_map]
              congr 2
              apply List.map_congr_left
              intro member _
              exact length_compactField hw hname _ member
            · rfl
          | _ => rfl
      · rw [if_pos (Or.inr (by omega)), if_neg fun h => hlong h.2.2]
    · rw [if_pos (Or.inl (by simpa using hname)), if_neg fun h => hname h.2.1]
  · rw [if_neg hid, if_neg fun h => hid h.1]

/-- The estimate of a message, with other lengths of its content and of its arguments. -/
def tokensWith (m : ChatMessage) (content : ℕ) (arguments : ToolCall → ℕ) : ℕ :=
  (content + (m.reasoningContent.getD []).length +
    ((m.toolCalls.getD []).map fun call => call.function.name.length + arguments call).sum +
    (m.toolCallId.getD []).length + 8) / charsPerToken

theorem tokensWith_mono {m : ChatMessage} {content content' : ℕ} (h : content ≤ content')
    (arguments : ToolCall → ℕ) :
    tokensWith m content arguments ≤ tokensWith m content' arguments := by
  rw [tokensWith, tokensWith]
  apply Nat.div_le_div_right
  omega

/-- What the pass writes into a message is not longer than what it replaces there: the projection
without remote content, and the notices. -/
def NoLonger (serde : SerdeJson) (escape : Char → Text) (successfulCalls : List Text)
    (m : ChatMessage) : Prop :=
  match m.role with
  | .assistant =>
    tokensWith m (m.content.getD []).length (argumentChars serde escape successfulCalls) ≤
      estimateMessageTokens m
  | .tool =>
    ∀ content, m.content = some content → toolresultThreshold < content.length →
      ∀ source frames, a2aSource serde content = some (source, frames) →
        tokensWith m (envelopeChars serde source frames (noteLeft serde frames))
          (fun call => call.function.arguments.length) ≤ estimateMessageTokens m
  | _ => True

theorem estimate_assistant (hw : WritesCompactly serde escape) (ids : List Text)
    (m : ChatMessage) :
    estimateMessageTokens (compactSuccessfulFileMutations serde ids m) =
      tokensWith m (m.content.getD []).length (argumentChars serde escape ids) := by
  rw [estimateMessageTokens, tokensWith, compactSuccessfulFileMutations]
  cases m.toolCalls with
  | none => rfl
  | some calls =>
    simp only [Option.map_some, Option.getD_some, List.map_map]
    congr 5
    apply List.map_congr_left
    intro call _
    rw [Function.comp_apply, length_compactCall hw, (compactCall_head serde ids call).2.2]

theorem estimate_content (m : ChatMessage) (role : Role) (content : Text) :
    estimateMessageTokens { m with role := role, content := some content } =
      tokensWith m content.length fun call => call.function.arguments.length := rfl

theorem compactOne_reduces_iff (hw : WritesCompactly serde escape) (ids : List Text)
    (m : ChatMessage) :
    estimateMessageTokens (compactOne serde ids m) ≤ estimateMessageTokens m ↔
      NoLonger serde escape ids m := by
  rw [compactOne, NoLonger]
  cases m.role with
  | assistant => simp only [estimate_assistant hw]
  | system => exact iff_of_true le_rfl trivial
  | user => exact iff_of_true le_rfl trivial
  | other _ => exact iff_of_true le_rfl trivial
  | tool =>
    simp only
    cases hcontent : m.content with
    | none => simp
    | some content =>
      simp only [Option.some.injEq, forall_eq']
      by_cases hsmall : content.length ≤ toolresultThreshold
      · rw [if_pos hsmall]
        exact iff_of_true le_rfl fun hlong => absurd hsmall (by omega)
      · have hlong : toolresultThreshold < content.length := by omega
        have hm : estimateMessageTokens m =
            tokensWith m content.length fun call => call.function.arguments.length := by
          rw [estimateMessageTokens, tokensWith, hcontent, Option.getD_some]
        rw [if_neg hsmall]
        cases hsource : a2aSource serde content with
        | none =>
          rw [compactA2aToolResult, hsource, Option.map_none]
          simp only [estimate_content, hm]
          exact iff_of_true (tokensWith_mono (length_truncated_le hlong) _)
            fun _ _ _ hnone => absurd hnone (by simp)
        | some envelope =>
          obtain ⟨source, frames⟩ := envelope
          cases hcompacted : compactA2aToolResult serde content with
          | none => rw [compactA2aToolResult, hsource] at hcompacted; cases hcompacted
          | some compacted =>
            simp only [estimate_content, hm, Option.some.injEq, Prod.mk.injEq]
            have hright : (toolresultThreshold < content.length → ∀ source' frames',
                source = source' ∧ frames = frames' →
                  tokensWith m (envelopeChars serde source' frames' (noteLeft serde frames'))
                    (fun call => call.function.arguments.length) ≤
                  tokensWith m content.length fun call => call.function.arguments.length) ↔
                tokensWith m (envelopeChars serde source frames (noteLeft serde frames))
                    (fun call => call.function.arguments.length) ≤
                  tokensWith m content.length fun call => call.function.arguments.length := by
              constructor
              · exact fun h => h hlong source frames ⟨rfl, rfl⟩
              · rintro h - _ _ ⟨rfl, rfl⟩
                exact h
            rw [hright]
            have htarget : projectionTarget + 13 ≤ toolresultThreshold := by decide
            rcases length_compacted hw hsource hcompacted with heq | ⟨hfit, hbare⟩
            · rw [heq]
            · exact iff_of_true (tokensWith_mono (by omega) _) (tokensWith_mono (by omega) _)

/-- No message behind the pass is estimated at more than the message that it comes from. -/
def ReducesEstimates (serde : SerdeJson) (view : List ChatMessage) : Prop :=
  ∀ (i : ℕ) (m m' : ChatMessage), view[i]? = some m → (microcompact serde view)[i]? = some m' →
    estimateMessageTokens m' ≤ estimateMessageTokens m

/-- The pass lengthens no message exactly where what it writes is not longer than what it
replaces. -/
theorem microcompact_reduces_iff (hw : WritesCompactly serde escape) {view : List ChatMessage} :
    ReducesEstimates serde view ↔ ∀ m ∈ view, NoLonger serde escape (successfulCallIds view) m := by
  constructor
  · intro hreduces m hm
    obtain ⟨i, hi⟩ := List.mem_iff_getElem?.mp hm
    apply (compactOne_reduces_iff hw _ m).mp
    apply hreduces i m _ hi
    rw [microcompact, List.getElem?_map, hi, Option.map_some]
  · intro hnoLonger i m m' hm hm'
    rw [microcompact, List.getElem?_map, hm, Option.map_some, Option.some.injEq] at hm'
    rw [← hm']
    exact (compactOne_reduces_iff hw _ m).mpr (hnoLonger m (List.mem_of_getElem? hm))

/-- The escapes of `serde_json`. -/
def jsonEscape (c : Char) : Text :=
  if c = '"' then ['\\', '"']
  else if c = '\\' then ['\\', '\\']
  else if c = '\n' then ['\\', 'n']
  else if c = '\r' then ['\\', 'r']
  else if c = '\t' then ['\\', 't']
  else if c.toNat = 8 then ['\\', 'b']
  else if c.toNat = 12 then ['\\', 'f']
  else if c < ' ' then
    ['\\', 'u', '0', '0'] ++ (if c.toNat < 16 then ['0'] else []) ++ Nat.toDigits 16 c.toNat
  else [c]

mutual

/-- JSON text without whitespace. -/
def jsonText : Json → Text
  | .null => "null".toList
  | .bool value => if value then "true".toList else "false".toList
  | .number literal => literal
  | .string value => '"' :: (value.flatMap jsonEscape ++ ['"'])
  | .array items => '[' :: (joinText [','] (itemTexts items) ++ [']'])
  | .object members => '\x7b' :: (joinText [','] (memberTexts members) ++ ['\x7d'])

def itemTexts : List Json → List Text
  | [] => []
  | item :: rest => jsonText item :: itemTexts rest

def memberTexts : List (Text × Json) → List Text
  | [] => []
  | (key, value) :: rest =>
    ('"' :: (key.flatMap jsonEscape ++ ['"']) ++ ':' :: jsonText value) :: memberTexts rest

end

theorem itemTexts_eq (items : List Json) : itemTexts items = items.map jsonText := by
  induction items with
  | nil => rw [itemTexts, List.map_nil]
  | cons item rest ih => rw [itemTexts, ih, List.map_cons]

theorem memberTexts_eq (members : List (Text × Json)) :
    memberTexts members = members.map fun m => jsonText (.string m.1) ++ ':' :: jsonText m.2 := by
  induction members with
  | nil => rw [memberTexts, List.map_nil]
  | cons m rest ih => rw [memberTexts, ih, List.map_cons, jsonText]

/-- A serializer whose reader knows one text. -/
def serdeOf (value : Json) : SerdeJson where
  fromStr text := if text = jsonText value then some value else none
  toText := jsonText

theorem writesCompactly_serdeOf (value : Json) : WritesCompactly (serdeOf value) jsonEscape where
  string s := by
    show jsonText _ = _
    rw [jsonText]
  array items := by
    show jsonText _ = _
    rw [jsonText, itemTexts_eq]
    rfl
  object members := by
    show jsonText _ = _
    rw [jsonText, memberTexts_eq]
    rfl
  plain c hspace hquote hbackslash := by
    have hcode : 32 ≤ c.toNat := hspace
    rw [jsonEscape, if_neg hquote, if_neg hbackslash, if_neg, if_neg, if_neg, if_neg, if_neg, if_neg]
    · exact fun h => absurd hspace (Char.not_le.mpr h)
    · omega
    · omega
    · rintro rfl
      exact absurd hspace (by decide)
    · rintro rfl
      exact absurd hspace (by decide)
    · rintro rfl
      exact absurd hspace (by decide)

/-- The arguments of a write, as members. -/
def writeMembers (path content : Text) : List (Text × Json) :=
  [("content".toList, .string content), ("path".toList, .string path)]

/-- A successful write. -/
def successfulWrite (path content : Text) : List ChatMessage :=
  [ChatMessage.ofAssistantToolCalls [ToolCall.ofFunction ['1'] "write_file".toList
      (jsonText (.object (writeMembers path content)))],
    oneResult false]

section
variable {path content : Text}

theorem length_plainText {t : Text} (h : t.all isPlain = true) :
    (jsonText (.string t)).length = t.length + 2 := by
  have hw := writesCompactly_serdeOf .null
  exact (hw.length_string t).trans (by rw [hw.escapedChars_plain h])

theorem length_writeArguments (hpath : path.all isPlain = true)
    (hcontent : content.all isPlain = true) :
    (jsonText (.object (writeMembers path content))).length = path.length + content.length + 24 := by
  have h : (jsonText (.object (writeMembers path content))).length = _ :=
    (writesCompactly_serdeOf .null).length_plainObject (List.cons_ne_nil _ _) rfl
  have hkeys : ((writeMembers path content).map fun m => m.1.length + 4).sum = 19 := rfl
  have hvalues : ((writeMembers path content).map fun m =>
      ((serdeOf .null).toText m.2).length).sum = content.length + 2 + (path.length + 2) := by
    rw [← length_plainText hpath, ← length_plainText hcontent]
    rfl
  omega

theorem writeMembers_compacted (hfield : toolresultKeep < content.length) :
    isCompacted ("content".toList, .string content) = true := by
  rw [isCompacted]
  simp only [Json.asStr, Option.any_some, hfield, decide_true, Bool.and_true]
  decide

theorem any_isCompacted (hfield : toolresultKeep < content.length) :
    (writeMembers path content).any isCompacted = true := by
  rw [writeMembers, List.any_cons, writeMembers_compacted hfield, Bool.true_or]

theorem memberChars_notice (serde : SerdeJson) (escape : Char → Text) (name path : Text)
    {field text : Text} (h : isCompacted (field, .string text) = true) :
    memberChars serde escape name path (field, .string text) = escapedChars escape field + 4 +
      (89 + field.length + name.length + (natText text.length).length +
        escapedChars escape path + 2) := by
  rw [memberChars, if_pos h]
  rfl

theorem memberChars_kept (serde : SerdeJson) (escape : Char → Text) (name path : Text)
    {member : Text × Json} (h : isCompacted member = false) :
    memberChars serde escape name path member =
      escapedChars escape member.1 + 4 + (serde.toText member.2).length := by
  rw [memberChars, if_neg (by simp [h])]

theorem argumentChars_object {serde : SerdeJson} (escape : Char → Text) {ids : List Text}
    (call : ToolCall) {members : List (Text × Json)} (hid : call.id ∈ ids)
    (hname : isFileMutation call.function.name = true)
    (hlong : toolresultThreshold < call.function.arguments.length)
    (hread : serde.fromStr call.function.arguments = some (.object members))
    (hany : members.any isCompacted = true) :
    argumentChars serde escape ids call =
      (members.map (memberChars serde escape call.function.name (mutationPath members))).sum + 1 := by
  rw [argumentChars, if_pos ⟨hid, hname, hlong⟩, hread]
  exact if_pos hany

/-- The arguments of a long write behind the pass. -/
theorem argumentChars_write (hpath : path.all isPlain = true)
    (hcontent : content.all isPlain = true)
    (hlong : toolresultThreshold < path.length + content.length + 24)
    (hfield : toolresultKeep < content.length) :
    argumentChars (serdeOf (.object (writeMembers path content))) jsonEscape [['1']]
      (ToolCall.ofFunction ['1'] "write_file".toList
        (jsonText (.object (writeMembers path content)))) =
      2 * path.length + (natText content.length).length + 130 := by
  have hchars := argumentChars_object jsonEscape
    (ToolCall.ofFunction ['1'] "write_file".toList
      (jsonText (.object (writeMembers path content)))) (List.mem_singleton.mpr rfl)
    (show isFileMutation "write_file".toList = true by decide)
    ((length_writeArguments hpath hcontent).symm ▸ hlong)
    (show (serdeOf (.object (writeMembers path content))).fromStr
      (jsonText (.object (writeMembers path content))) = _ from if_pos rfl) (any_isCompacted hfield)
  have hnotice := memberChars_notice (serdeOf (.object (writeMembers path content))) jsonEscape
    "write_file".toList path (writeMembers_compacted hfield)
  have hkept := memberChars_kept (serdeOf (.object (writeMembers path content))) jsonEscape
    "write_file".toList path
    (show isCompacted ("path".toList, .string path) = false from rfl)
  have hcontentKey : escapedChars jsonEscape "content".toList = 7 := by decide
  have hpathKey : escapedChars jsonEscape "path".toList = 4 := by decide
  have hname : "write_file".toList.length = 10 := by decide
  have hfieldName : "content".toList.length = 7 := by decide
  have hpathText : ((serdeOf (.object (writeMembers path content))).toText (.string path)).length =
      path.length + 2 := length_plainText hpath
  rw [hcontentKey, hname, hfieldName, (writesCompactly_serdeOf .null).escapedChars_plain hpath]
    at hnotice
  rw [hpathKey, hpathText] at hkept
  have hsum : ((writeMembers path content).map (memberChars
      (serdeOf (.object (writeMembers path content))) jsonEscape "write_file".toList path)).sum =
      (7 + 4 + (89 + 7 + 10 + (natText content.length).length + path.length + 2)) +
      ((4 + 4 + (path.length + 2)) + 0) := by
    rw [← hnotice, ← hkept]
    rfl
  apply hchars.trans
  show ((writeMembers path content).map (memberChars
    (serdeOf (.object (writeMembers path content))) jsonEscape "write_file".toList path)).sum + 1 = _
  rw [hsum]
  clear hchars hnotice hkept hsum hcontentKey hpathKey hname hfieldName hpathText
  omega

/-- What the write of a view is estimated at, before the pass and behind it. -/
theorem estimate_write (hpath : path.all isPlain = true) (hcontent : content.all isPlain = true) :
    estimateMessageTokens (ChatMessage.ofAssistantToolCalls [ToolCall.ofFunction ['1']
      "write_file".toList (jsonText (.object (writeMembers path content)))]) =
      (path.length + content.length + 42) / charsPerToken := by
  have hname : "write_file".toList.length = 10 := by decide
  have h : estimateMessageTokens (ChatMessage.ofAssistantToolCalls [ToolCall.ofFunction ['1']
      "write_file".toList (jsonText (.object (writeMembers path content)))]) =
      (0 + 0 + (("write_file".toList.length +
        (jsonText (.object (writeMembers path content))).length) + 0) + 0 + 8) / charsPerToken := rfl
  rw [h, hname, length_writeArguments hpath hcontent]
  congr 1
  omega

theorem noLonger_write_iff (hpath : path.all isPlain = true) (hcontent : content.all isPlain = true)
    (hlong : toolresultThreshold < path.length + content.length + 24)
    (hfield : toolresultKeep < content.length) :
    (∀ m ∈ successfulWrite path content,
      NoLonger (serdeOf (.object (writeMembers path content))) jsonEscape
        (successfulCallIds (successfulWrite path content)) m) ↔
      (2 * path.length + (natText content.length).length + 148) / charsPerToken ≤
        (path.length + content.length + 42) / charsPerToken := by
  have hids : successfulCallIds (successfulWrite path content) = [['1']] := rfl
  have hresult : NoLonger (serdeOf (.object (writeMembers path content))) jsonEscape [['1']]
      (oneResult false) := by
    rintro text htext hlarge
    obtain rfl := Option.some.inj htext
    exact absurd hlarge (by decide)
  have hname : "write_file".toList.length = 10 := by decide
  have htokens : tokensWith (ChatMessage.ofAssistantToolCalls [ToolCall.ofFunction ['1']
      "write_file".toList (jsonText (.object (writeMembers path content)))]) 0
      (argumentChars (serdeOf (.object (writeMembers path content))) jsonEscape [['1']]) =
      (0 + 0 + (("write_file".toList.length + argumentChars
        (serdeOf (.object (writeMembers path content))) jsonEscape [['1']]
        (ToolCall.ofFunction ['1'] "write_file".toList
          (jsonText (.object (writeMembers path content))))) + 0) + 0 + 8) / charsPerToken := rfl
  rw [hname, argumentChars_write hpath hcontent hlong hfield] at htokens
  have hchars : 0 + 0 + (10 + (2 * path.length + (natText content.length).length + 130) + 0) + 0 + 8
      = 2 * path.length + (natText content.length).length + 148 := by
    omega
  rw [hchars] at htokens
  rw [hids, ← htokens, ← estimate_write hpath hcontent, successfulWrite]
  constructor
  · exact fun h => h _ List.mem_cons_self
  · intro h m hm
    rcases List.mem_cons.mp hm with rfl | hm
    · exact h
    · rw [List.mem_singleton.mp hm]
      exact hresult

end

theorem replicate_plain (n : ℕ) : (List.replicate n 'x').all isPlain = true := by
  rw [List.all_replicate]
  split_ifs
  · rfl
  · decide

/-- A long write to a short path gets shorter. -/
theorem microcompact_reduces_shortPath :
    ReducesEstimates (serdeOf (.object (writeMembers "a.py".toList (List.replicate 8001 'x'))))
      (successfulWrite "a.py".toList (List.replicate 8001 'x')) := by
  have hplain := replicate_plain 8001
  have hlen : (List.replicate 8001 'x').length = 8001 := List.length_replicate
  generalize List.replicate 8001 'x' = content at hplain hlen ⊢
  have hpath : "a.py".toList.length = 4 := by decide
  apply (microcompact_reduces_iff (writesCompactly_serdeOf _)).mpr
  apply (noLonger_write_iff (by decide) hplain _ _).mpr
  · rw [hpath, hlen]
    decide
  · rw [hpath, hlen]
    decide
  · rw [hlen]
    decide

/-- A notice that repeats a long path is longer than the content that it replaces. -/
theorem longPath_grows : ¬∀ (serde : SerdeJson) (escape : Char → Text) (view : List ChatMessage),
    WritesCompactly serde escape → ReducesEstimates serde view := by
  intro h
  have hcontent := replicate_plain 4001
  have hcontentLen : (List.replicate 4001 'x').length = 4001 := List.length_replicate
  have hpath := replicate_plain 5000
  have hpathLen : (List.replicate 5000 'x').length = 5000 := List.length_replicate
  generalize List.replicate 4001 'x' = content at hcontent hcontentLen
  generalize List.replicate 5000 'x' = path at hpath hpathLen
  have hw := writesCompactly_serdeOf (.object (writeMembers path content))
  have hall := (noLonger_write_iff hpath hcontent (by rw [hpathLen, hcontentLen]; decide)
    (by rw [hcontentLen]; decide)).mp
      fun m hm => by
        obtain ⟨i, hi⟩ := List.mem_iff_getElem?.mp hm
        apply (compactOne_reduces_iff hw _ m).mp
        apply h _ _ (successfulWrite path content) hw i m _ hi
        rw [microcompact, List.getElem?_map, hi, Option.map_some]
  rw [hpathLen, hcontentLen] at hall
  exact absurd hall (by decide)

end DeepseekScience.Compact
