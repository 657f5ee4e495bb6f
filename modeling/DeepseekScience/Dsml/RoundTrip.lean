import DeepseekScience.Dsml.Opener
import DeepseekScience.Dsml.Render

/-! Decoding undoes encoding: a batch of calls, rendered as one stand-alone envelope in any
spelling and layout, is parsed back to the same calls. -/
namespace DeepseekScience.Dsml

theorem requireRawTag_opening {name : TagName} (s : TagSpelling name) {attrs : List (Text × Text)}
    (hattrs : PlainAttributes attrs) {between : Text} (h : isInert between = true) (rest : Text) :
    requireRawTag (between ++ '<' :: (s.opening attrs ++ rest)) =
      .ok ⟨between, ⟨name, false, attrs⟩, rest⟩ := by
  rw [requireRawTag, findNextRawDsmlTag_inert h (s.parseCandidateTag_opening hattrs rest)
    (s.findTagEnd_opening hattrs rest)]

theorem requireRawTag_closing {name : TagName} (s : TagSpelling name) {between : Text}
    (h : isInert between = true) (rest : Text) :
    requireRawTag (between ++ '<' :: (s.closing ++ rest)) =
      .ok ⟨between, ⟨name, true, []⟩, rest⟩ := by
  rw [requireRawTag, findNextRawDsmlTag_inert h (s.parseCandidateTag_closing rest)
    (s.findTagEnd_closing rest)]

/-- A name that can stand between the quotes of an attribute. -/
structure AttributeName (limit : ℕ) where
  text : Text
  ne_nil : text ≠ []
  len_le : byteLen text ≤ limit
  quote : '"' ∉ text
  tagEnd : '>' ∉ text

/-- Whitespace between two tags. -/
structure Gap where
  text : Text
  blank : allWhitespace text = true

section
variable (json : SerdeJson)

/-- A parameter with its rendering. The body of a string is the string itself; any other
value stands as JSON text that reads as the value. -/
structure RenderedParameter where
  name : AttributeName maxToolParameterNameBytes
  isString : Bool
  body : Text
  value : Json
  reads : if isString then value = .string body else json.fromStr (trim body) = some value
  inert : isInert body = true
  gap : Gap
  opener : TagSpelling .parameter
  closer : TagSpelling .parameter

/-- The members of the argument object after the parameters, in order. -/
def insertParameters (params : List (RenderedParameter json)) (members : List (Text × Json)) :
    List (Text × Json) :=
  params.foldl (fun members p => insertMember p.name.text p.value members) members

/-- A call with its rendering, within the limits of one call. -/
structure RenderedCall where
  name : AttributeName maxToolNameBytes
  params : List (RenderedParameter json)
  nodup : (params.map (·.name.text)).Nodup
  params_le : params.length ≤ maxToolParametersPerCall
  bodies_le : (params.map (byteLen ·.body)).sum ≤ maxToolArgumentBytesPerCall
  arguments_le :
    byteLen (json.toText (.object (insertParameters json params []))) ≤ maxToolArgumentBytesPerCall
  gap : Gap
  opener : TagSpelling .invoke
  closeGap : Gap
  closer : TagSpelling .invoke

/-- A batch with its rendering as one envelope, within the limits of one turn. -/
structure RenderedTurn where
  calls : List (RenderedCall json)
  calls_ne : calls ≠ []
  calls_le : calls.length ≤ maxToolCallsPerTurn
  total_le : (calls.map fun call =>
    byteLen (json.toText (.object (insertParameters json call.params [])))).sum ≤
      maxToolArgumentBytesTotal
  lead : Gap
  lead_lines : lead.text = [] ∨ lead.text.getLast? = some '\n'
  indent : ℕ
  indent_le : indent ≤ 3
  opener : TagSpelling .toolCalls
  closeGap : Gap
  closer : TagSpelling .toolCalls
  trail : Gap

variable {json}

def RenderedParameter.attrs (p : RenderedParameter json) : List (Text × Text) :=
  [("name".toList, p.name.text), ("string".toList, (if p.isString then "true" else "false").toList)]

def RenderedParameter.text (p : RenderedParameter json) : Text :=
  p.gap.text ++ '<' :: (p.opener.opening p.attrs ++ (p.body ++ '<' :: p.closer.closing))

def RenderedCall.members (call : RenderedCall json) : List (Text × Json) :=
  insertParameters json call.params []

/-- The call as the protocol transports it. -/
def RenderedCall.parsed (call : RenderedCall json) : ParsedDsmlCall :=
  ⟨call.name.text, json.toText (.object call.members)⟩

def RenderedCall.text (call : RenderedCall json) : Text :=
  call.gap.text ++ '<' :: (call.opener.opening [("name".toList, call.name.text)] ++
    (call.params.flatMap (·.text) ++ (call.closeGap.text ++ '<' :: call.closer.closing)))

/-- The envelope behind its first `<`. -/
def RenderedTurn.behind (turn : RenderedTurn json) : Text :=
  turn.opener.opening [] ++ (turn.calls.flatMap (·.text) ++
    (turn.closeGap.text ++ '<' :: (turn.closer.closing ++ turn.trail.text)))

def RenderedTurn.text (turn : RenderedTurn json) : Text :=
  turn.lead.text ++ (List.replicate turn.indent ' ' ++ '<' :: turn.behind)

theorem RenderedParameter.plainAttributes (p : RenderedParameter json) :
    PlainAttributes p.attrs where
  key_ne := by simp [attrs]
  key_chars := by
    intro attr ha
    rcases List.mem_cons.mp ha with rfl | ha
    · exact List.all_eq_true.mp (by decide : "name".toList.all isAttributeKeyChar = true)
    · rw [List.mem_singleton.mp ha]
      exact List.all_eq_true.mp (by decide : "string".toList.all isAttributeKeyChar = true)
  key_lower := by
    intro attr ha
    rcases List.mem_cons.mp ha with rfl | ha
    · rfl
    · rw [List.mem_singleton.mp ha]
      rfl
  keys_nodup := (by decide : ["name".toList, "string".toList].Nodup)
  value_quote := by
    intro attr ha
    rcases List.mem_cons.mp ha with rfl | ha
    · exact p.name.quote
    · rw [List.mem_singleton.mp ha]
      cases p.isString <;> decide
  value_end := by
    intro attr ha
    rcases List.mem_cons.mp ha with rfl | ha
    · exact p.name.tagEnd
    · rw [List.mem_singleton.mp ha]
      cases p.isString <;> decide

theorem AttributeName.plainAttributes {limit : ℕ} (name : AttributeName limit) :
    PlainAttributes [("name".toList, name.text)] where
  key_ne := by simp
  key_chars := by
    intro attr ha
    rw [List.mem_singleton.mp ha]
    exact List.all_eq_true.mp (by decide : "name".toList.all isAttributeKeyChar = true)
  key_lower := by
    intro attr ha
    rw [List.mem_singleton.mp ha]
    rfl
  keys_nodup := by simp
  value_quote := by simpa using name.quote
  value_end := by simpa using name.tagEnd

theorem PlainAttributes.nil : PlainAttributes [] :=
  ⟨by simp, by simp, by simp, by simp, by simp, by simp⟩

/-- One parameter body is read back up to its closing tag. -/
theorem parseParameter_body (p : RenderedParameter json)
    (hlen : byteLen p.body ≤ maxToolArgumentBytesPerCall) (rest : Text) :
    parseParameter json (p.body ++ '<' :: (p.closer.closing ++ rest)) p.isString =
      .ok (p.value, byteLen p.body, rest) := by
  have hreads := p.reads
  have hle : ¬ byteLen p.body > maxToolArgumentBytesPerCall := by omega
  simp only [parseParameter, requireRawTag_closing p.closer p.inert, bind, Except.bind, pure,
    Except.pure, requireAttrs]
  cases hs : p.isString with
  | true =>
    simp only [hs, if_true] at hreads
    simp [hle, hreads]
  | false =>
    simp only [hs, Bool.false_eq_true, if_false] at hreads
    simp [hle, hreads]

theorem parseStringFlag_render (isString : Bool) :
    parseStringFlag (if isString then "true" else "false").toList = .ok isString := by
  cases isString <;> rfl

/-- One round of the parameter loop reads one rendered parameter. -/
theorem parseInvokeFrom_cons (p : RenderedParameter json) {name rest : Text} {fuel bytes : ℕ}
    {arguments : List (Text × Json)} (hcount : arguments.length < maxToolParametersPerCall)
    (hfresh : arguments.lookup p.name.text = none)
    (hbytes : bytes + byteLen p.body ≤ maxToolArgumentBytesPerCall) :
    parseInvokeFrom json name (fuel + 1) (p.text ++ rest) arguments bytes =
      parseInvokeFrom json name fuel rest (insertMember p.name.text p.value arguments)
        (bytes + byteLen p.body) := by
  have hraw : requireRawTag (p.text ++ rest) = .ok ⟨p.gap.text, ⟨.parameter, false, p.attrs⟩,
      p.body ++ '<' :: (p.closer.closing ++ rest)⟩ := by
    have := requireRawTag_opening p.opener p.plainAttributes
      (isInert_of_allWhitespace p.gap.blank) (p.body ++ '<' :: (p.closer.closing ++ rest))
    simpa [RenderedParameter.text] using this
  have hname : requiredAttr ⟨.parameter, false, p.attrs⟩ "name".toList = .ok p.name.text := rfl
  have hflag : requiredAttr ⟨.parameter, false, p.attrs⟩ "string".toList =
      .ok (if p.isString then "true" else "false").toList := rfl
  have hnameLen : ¬ byteLen p.name.text > maxToolParameterNameBytes := by
    have := p.name.len_le
    omega
  have hbody := parseParameter_body p (by omega) rest
  have hcount' : ¬ maxToolParametersPerCall ≤ arguments.length := by omega
  have hbytes' : ¬ bytes + byteLen p.body > maxToolArgumentBytesPerCall := by omega
  rw [parseInvokeFrom]
  simp only [hraw, bind, Except.bind, requireWhitespace, p.gap.blank, if_true, hname, hflag,
    hnameLen, hcount', hfresh, parseStringFlag_render, hbody, hbytes']
  simp [RenderedParameter.attrs, p.name.ne_nil]

theorem parseInvokeFrom_nil {name : Text} {gap : Gap} (closer : TagSpelling .invoke) {rest : Text}
    {fuel bytes : ℕ} {arguments : List (Text × Json)}
    (hlen : byteLen (json.toText (.object arguments)) ≤ maxToolArgumentBytesPerCall) :
    parseInvokeFrom json name (fuel + 1) (gap.text ++ '<' :: (closer.closing ++ rest)) arguments
      bytes = .ok (⟨name, json.toText (.object arguments)⟩, rest) := by
  have hlen' : ¬ byteLen (json.toText (.object arguments)) > maxToolArgumentBytesPerCall := by
    omega
  rw [parseInvokeFrom]
  simp only [requireRawTag_closing closer (isInert_of_allWhitespace gap.blank), bind, Except.bind,
    requireWhitespace, gap.blank, if_true, requireAttrs, hlen']
  simp [pure, Except.pure]

/-- The parameter loop reads all rendered parameters of a call. -/
theorem parseInvokeFrom_render {name : Text} {gap : Gap} (closer : TagSpelling .invoke)
    {rest : Text} (params : List (RenderedParameter json)) {fuel bytes : ℕ}
    {arguments : List (Text × Json)} (hfuel : params.length < fuel)
    (hcount : arguments.length + params.length ≤ maxToolParametersPerCall)
    (hnodup : (params.map (·.name.text)).Nodup)
    (hfresh : ∀ p ∈ params, arguments.lookup p.name.text = none)
    (hbytes : bytes + (params.map (byteLen ·.body)).sum ≤ maxToolArgumentBytesPerCall)
    (hlen : byteLen (json.toText (.object (insertParameters json params arguments))) ≤
      maxToolArgumentBytesPerCall) :
    parseInvokeFrom json name fuel
        (params.flatMap (·.text) ++ (gap.text ++ '<' :: (closer.closing ++ rest))) arguments bytes =
      .ok (⟨name, json.toText (.object (insertParameters json params arguments))⟩, rest) := by
  obtain ⟨fuel, rfl⟩ := Nat.exists_eq_succ_of_ne_zero (Nat.ne_of_gt (Nat.zero_lt_of_lt hfuel))
  induction params generalizing fuel bytes arguments with
  | nil => exact parseInvokeFrom_nil closer hlen
  | cons p params ih =>
    simp only [List.length_cons, List.map_cons, List.sum_cons, List.nodup_cons] at *
    obtain ⟨fuel, rfl⟩ := Nat.exists_eq_succ_of_ne_zero (n := fuel) (by omega)
    rw [List.flatMap_cons, List.append_assoc,
      parseInvokeFrom_cons p (by omega) (hfresh p List.mem_cons_self) (by omega)]
    have hp := hfresh p List.mem_cons_self
    have hnext : ∀ q ∈ params,
        (insertMember p.name.text p.value arguments).lookup q.name.text = none := by
      intro q hq
      have hne : q.name.text ≠ p.name.text := fun he =>
        hnodup.1 (he ▸ List.mem_map_of_mem (f := (·.name.text)) hq)
      rw [lookup_insertMember hp, if_neg hne]
      exact hfresh q (List.mem_cons_of_mem _ hq)
    exact ih (by rw [length_insertMember]; omega) hnodup.2 hnext (by omega) hlen fuel (by omega)

theorem length_le_flatMap {α : Type} (f : α → Text) (hf : ∀ a, f a ≠ []) (l : List α) :
    l.length ≤ (l.flatMap f).length := by
  induction l with
  | nil => rfl
  | cons a l ih =>
    have := List.length_pos_iff.mpr (hf a)
    simp only [List.flatMap_cons, List.length_append, List.length_cons]
    omega

theorem RenderedParameter.text_ne_nil (p : RenderedParameter json) : p.text ≠ [] := by
  simp [RenderedParameter.text]

theorem RenderedCall.text_ne_nil (call : RenderedCall json) : call.text ≠ [] := by
  simp [RenderedCall.text]

/-- The inside of one rendered call is read back. -/
theorem parseInvoke_render (call : RenderedCall json) (rest : Text) :
    parseInvoke json (call.params.flatMap (·.text) ++
      (call.closeGap.text ++ '<' :: (call.closer.closing ++ rest))) call.name.text =
      .ok (call.parsed, rest) := by
  refine parseInvokeFrom_render call.closer call.params ?_ ?_ call.nodup (fun _ _ => rfl) ?_
    call.arguments_le
  · have := length_le_flatMap (·.text) RenderedParameter.text_ne_nil call.params
    simp only [List.length_append]
    omega
  · simpa using call.params_le
  · simpa using call.bodies_le

/-- One round of the call loop reads one rendered call. -/
theorem parseToolCallsBlockFrom_cons (call : RenderedCall json) {rest : Text} {fuel total : ℕ}
    {calls : List ParsedDsmlCall} (hcount : calls.length < maxToolCallsPerTurn)
    (htotal : total + byteLen call.parsed.arguments ≤ maxToolArgumentBytesTotal) :
    parseToolCallsBlockFrom json (fuel + 1) (call.text ++ rest) calls total =
      parseToolCallsBlockFrom json fuel rest (calls ++ [call.parsed])
        (total + byteLen call.parsed.arguments) := by
  have hraw : requireRawTag (call.text ++ rest) = .ok ⟨call.gap.text,
      ⟨.invoke, false, [("name".toList, call.name.text)]⟩, call.params.flatMap (·.text) ++
        (call.closeGap.text ++ '<' :: (call.closer.closing ++ rest))⟩ := by
    have := requireRawTag_opening call.opener call.name.plainAttributes
      (isInert_of_allWhitespace call.gap.blank) (call.params.flatMap (·.text) ++
        (call.closeGap.text ++ '<' :: (call.closer.closing ++ rest)))
    simpa [RenderedCall.text] using this
  have hname : requiredSingleAttr ⟨.invoke, false, [("name".toList, call.name.text)]⟩
      "name".toList = .ok call.name.text := rfl
  have hnameLen : ¬ byteLen call.name.text > maxToolNameBytes := by
    have := call.name.len_le
    omega
  have hcount' : ¬ maxToolCallsPerTurn ≤ calls.length := by omega
  have htotal' : ¬ total + byteLen call.parsed.arguments > maxToolArgumentBytesTotal := by omega
  rw [parseToolCallsBlockFrom]
  simp only [hraw, bind, Except.bind, requireWhitespace, call.gap.blank, if_true, hname, hnameLen,
    parseInvoke_render, hcount', htotal']
  simp [call.name.ne_nil]

theorem parseToolCallsBlockFrom_nil {gap : Gap} (closer : TagSpelling .toolCalls) {rest : Text}
    {fuel total : ℕ} {calls : List ParsedDsmlCall} (hne : calls ≠ []) :
    parseToolCallsBlockFrom json (fuel + 1) (gap.text ++ '<' :: (closer.closing ++ rest)) calls
      total = .ok (calls, rest) := by
  rw [parseToolCallsBlockFrom]
  simp only [requireRawTag_closing closer (isInert_of_allWhitespace gap.blank), bind, Except.bind,
    requireWhitespace, gap.blank, if_true, requireAttrs]
  simp [hne, pure, Except.pure]

/-- The call loop reads all rendered calls of a batch. -/
theorem parseToolCallsBlockFrom_render {gap : Gap} (closer : TagSpelling .toolCalls)
    {rest : Text} (batch : List (RenderedCall json)) {fuel total : ℕ}
    {calls : List ParsedDsmlCall} (hfuel : batch.length < fuel) (hne : calls ≠ [] ∨ batch ≠ [])
    (hcount : calls.length + batch.length ≤ maxToolCallsPerTurn)
    (htotal : total + (batch.map (byteLen ·.parsed.arguments)).sum ≤ maxToolArgumentBytesTotal) :
    parseToolCallsBlockFrom json fuel
        (batch.flatMap (·.text) ++ (gap.text ++ '<' :: (closer.closing ++ rest))) calls total =
      .ok (calls ++ batch.map (·.parsed), rest) := by
  obtain ⟨fuel, rfl⟩ := Nat.exists_eq_succ_of_ne_zero (Nat.ne_of_gt (Nat.zero_lt_of_lt hfuel))
  induction batch generalizing fuel total calls with
  | nil => simpa using parseToolCallsBlockFrom_nil closer (hne.resolve_right (by simp))
  | cons call batch ih =>
    simp only [List.length_cons, List.map_cons, List.sum_cons] at *
    obtain ⟨fuel, rfl⟩ := Nat.exists_eq_succ_of_ne_zero (n := fuel) (by omega)
    rw [List.flatMap_cons, List.append_assoc,
      parseToolCallsBlockFrom_cons call (by omega) (by omega),
      ih (Or.inl (by simp)) (by simp only [List.length_append, List.length_singleton]; omega)
        (by omega) fuel (by omega), List.append_assoc, List.singleton_append]

theorem RenderedTurn.standsAlone (turn : RenderedTurn json) :
    StandsAlone turn.text turn.lead.text turn.indent turn.behind :=
  ⟨rfl, turn.lead.blank, turn.lead_lines, turn.indent_le⟩

theorem insertParameters_perm (params : List (RenderedParameter json))
    (members : List (Text × Json)) : (insertParameters json params members).Perm
      (members ++ params.map fun p => (p.name.text, p.value)) := by
  induction params generalizing members with
  | nil => simp [insertParameters]
  | cons p params ih =>
    have hstep := ih (insertMember p.name.text p.value members)
    have hperm := (insertMember_perm p.name.text p.value members).append_right
      (params.map fun p => (p.name.text, p.value))
    exact hstep.trans (hperm.trans List.perm_middle.symm)

/-- The block of a rendered turn is read back up to the trailing whitespace. -/
theorem parseToolCallsBlock_render (turn : RenderedTurn json) :
    parseToolCallsBlock json (turn.calls.flatMap (·.text) ++
      (turn.closeGap.text ++ '<' :: (turn.closer.closing ++ turn.trail.text))) =
      .ok (turn.calls.map (·.parsed), turn.trail.text) := by
  refine parseToolCallsBlockFrom_render turn.closer turn.calls ?_ (Or.inr turn.calls_ne) ?_ ?_
  · have := length_le_flatMap (·.text) RenderedCall.text_ne_nil turn.calls
    simp only [List.length_append]
    omega
  · simpa using turn.calls_le
  · simpa [RenderedCall.parsed, RenderedCall.members] using turn.total_le

/-- Within the size limit of a turn, a rendered batch is parsed to its calls, in order. -/
theorem parse_renderedTurn (turn : RenderedTurn json)
    (hlen : byteLen turn.text ≤ maxAssistantTextBytes) :
    parseAssistantText json turn.text = .ok (.toolCalls [] (turn.calls.map (·.parsed))) := by
  have halone := turn.standsAlone
  have hblock := parseToolCallsBlock_render turn
  obtain ⟨block, hdef⟩ : ∃ block, block = turn.calls.flatMap (·.text) ++
    (turn.closeGap.text ++ '<' :: (turn.closer.closing ++ turn.trail.text)) := ⟨_, rfl⟩
  have hbehind : turn.behind = turn.opener.opening [] ++ block := by rw [hdef]; rfl
  rw [← hdef] at hblock
  have hfind := halone.findNextVisibleDsmlTag_opener
    (hbehind ▸ turn.opener.parseCandidateTag_opening PlainAttributes.nil block)
    (hbehind ▸ turn.opener.findTagEnd_opening PlainAttributes.nil block)
  have hstop : turn.lead.text.length + turn.indent + 1 + (turn.behind.length - block.length) =
      (turn.lead.text ++ List.replicate turn.indent ' ' ++ '<' :: turn.opener.opening []).length := by
    simp only [hbehind, List.length_append, List.length_replicate, List.length_cons]
    omega
  have htext : turn.text =
      turn.lead.text ++ List.replicate turn.indent ' ' ++ '<' :: turn.opener.opening [] ++ block := by
    rw [RenderedTurn.text, hbehind]
    simp
  have hdrop : turn.text.drop
      (turn.lead.text.length + turn.indent + 1 + (turn.behind.length - block.length)) = block := by
    rw [hstop, htext, List.drop_left]
  have htrail : ∃ init, turn.text = init ++ turn.trail.text :=
    ⟨turn.lead.text ++ List.replicate turn.indent ' ' ++ '<' :: turn.opener.opening [] ++
      (turn.calls.flatMap (·.text) ++ (turn.closeGap.text ++ '<' :: turn.closer.closing)),
      by rw [htext, hdef]; simp⟩
  have hrest : turn.text.drop (turn.text.length - turn.trail.text.length) = turn.trail.text := by
    obtain ⟨init, hinit⟩ := htrail
    rw [hinit, List.length_append, Nat.add_sub_cancel, List.drop_left]
  have hblank : '<' ∉ turn.text.drop (turn.text.length - turn.trail.text.length) := by
    rw [hrest]
    exact lt_notMem_of_allWhitespace turn.trail.blank
  have hnone := findNextVisibleDsmlTag_none hblank
  have hlen' : ¬ byteLen turn.text > maxAssistantTextBytes := by omega
  simp only [parseAssistantText, hlen', hfind, bind, Except.bind, pure, Except.pure,
    halone.isExecutableTopLevelOpener_opener, requireAttrs, hdrop, hblock, hnone, turn.trail.blank]
  simp

/-- Decoding undoes encoding within the size limit of a turn: the calls come back in order
under their names, and the argument object of a call has exactly the given members. -/
theorem decode_encode (turn : RenderedTurn json)
    (hlen : byteLen turn.text ≤ maxAssistantTextBytes) :
    parseAssistantText json turn.text = .ok (.toolCalls [] (turn.calls.map (·.parsed))) ∧
      ∀ call ∈ turn.calls, call.parsed = ⟨call.name.text, json.toText (.object call.members)⟩ ∧
        call.members.Perm (call.params.map fun p => (p.name.text, p.value)) := by
  refine ⟨parse_renderedTurn turn hlen, fun call _ => ⟨rfl, ?_⟩⟩
  have := insertParameters_perm call.params []
  rwa [List.nil_append] at this

end

/-- Printing of one string member, as far as the examples need it. -/
def oneStringJson : SerdeJson where
  fromStr := fun _ => none
  toText
    | .object [(key, .string value)] => "\x7b\"".toList ++ key ++ "\":\"".toList ++ value ++ "\"\x7d".toList
    | _ => "\x7b\x7d".toList

def asciiSpelling (name : TagName) : TagSpelling name :=
  ⟨'|', rfl, false, "DSML".toList, by decide, name.word, by cases name <;> decide⟩

def noGap : Gap := ⟨[], rfl⟩

/-- The envelope of one call behind a lead of blank lines. -/
def oneCallTurn (lead : Gap) (lines : lead.text = [] ∨ lead.text.getLast? = some '\n') :
    RenderedTurn oneStringJson where
  calls := [{
    name := ⟨"run_python".toList, by decide, by decide, by decide, by decide⟩
    params := [{
      name := ⟨"code".toList, by decide, by decide, by decide, by decide⟩
      isString := true
      body := "print(1)".toList
      value := .string "print(1)".toList
      reads := rfl
      inert := by decide
      gap := noGap
      opener := asciiSpelling .parameter
      closer := asciiSpelling .parameter }]
    nodup := by simp
    params_le := by decide
    bodies_le := by decide
    arguments_le := by decide
    gap := noGap
    opener := asciiSpelling .invoke
    closeGap := noGap
    closer := asciiSpelling .invoke }]
  calls_ne := by simp
  calls_le := by decide
  total_le := by decide
  lead := lead
  lead_lines := lines
  indent := 0
  indent_le := by decide
  opener := asciiSpelling .toolCalls
  closeGap := noGap
  closer := asciiSpelling .toolCalls
  trail := noGap

theorem decode_encode_oneCall :
    byteLen (oneCallTurn noGap (Or.inl rfl)).text ≤ maxAssistantTextBytes ∧
      parseAssistantText oneStringJson (oneCallTurn noGap (Or.inl rfl)).text =
        .ok (.toolCalls [] [⟨"run_python".toList, "\x7b\"code\":\"print(1)\"\x7d".toList⟩]) := by
  have hlen : byteLen (oneCallTurn noGap (Or.inl rfl)).text ≤ maxAssistantTextBytes := by decide +kernel
  exact ⟨hlen, (decode_encode _ hlen).1⟩

/-- Blank lines up to the size limit of a turn. -/
def longLead : Gap where
  text := List.replicate maxAssistantTextBytes '\n'
  blank := by
    rw [allWhitespace, List.all_replicate]
    decide

theorem longLead_lines : longLead.text = [] ∨ longLead.text.getLast? = some '\n' :=
  Or.inr (by rw [longLead, List.getLast?_replicate, if_neg (by simp [maxAssistantTextBytes])])

/-- The size limit of a turn counts the whitespace around the envelope, too. -/
theorem oneCall_tooLarge_behind_longLead :
    parseAssistantText oneStringJson (oneCallTurn longLead longLead_lines).text =
        .error .tooLarge ∧
      parseAssistantText oneStringJson (oneCallTurn longLead longLead_lines).text ≠
        .ok (.toolCalls [] ((oneCallTurn longLead longLead_lines).calls.map (·.parsed))) := by
  have hlead : byteLen longLead.text = maxAssistantTextBytes := by
    rw [longLead, byteLen, List.map_replicate, List.sum_replicate]
    exact Nat.mul_one _
  have hlen : byteLen (oneCallTurn longLead longLead_lines).text > maxAssistantTextBytes := by
    rw [RenderedTurn.text, byteLen_append, show (oneCallTurn longLead longLead_lines).lead =
      longLead from rfl, hlead, byteLen_append, byteLen_cons]
    have := utf8Size_pos '<'
    omega
  have herror : parseAssistantText oneStringJson (oneCallTurn longLead longLead_lines).text =
      .error .tooLarge := by
    simp only [parseAssistantText, hlen, if_true]
    rfl
  exact ⟨herror, by rw [herror]; exact fun h => by cases h⟩

end DeepseekScience.Dsml
