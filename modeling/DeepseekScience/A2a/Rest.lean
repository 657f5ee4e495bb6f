import DeepseekScience.A2a.Types
import DeepseekScience.Lib.Transaction

/-! The addresses of remote tasks (dss-a2a, `protocol.rs` and `types.rs`): a request for a task is
checked, and the tenant and the task id become segments behind the path of the agent's interface. -/
namespace DeepseekScience.A2a

open Net

inductive InvokeAction where
  | send
  | submit
  | getTask
  | cancelTask
  deriving DecidableEq

structure InvokeRequest where
  action : InvokeAction
  task : Text := []
  skillId : Option Text := none
  taskId : Option Text := none
  contextId : Option Text := none
  timeoutSeconds : Option ℕ := none

namespace InvokeRequest

def ofGetTask (taskId : Text) : InvokeRequest where
  action := .getTask
  taskId := some taskId

def ofCancelTask (taskId : Text) : InvokeRequest where
  action := .cancelTask
  taskId := some taskId

/-- The check of the optional ids, in their order. -/
def validateLabels : List (Text × Option Text) → Except A2aError Unit
  | [] => .ok ()
  | (label, value) :: rest =>
    if value.any (fun v => decide (512 < byteLen v) || v.any isControl) then
      .error (.invalidConfig (label ++ " is too long or contains control characters".toList))
    else validateLabels rest

def validate (request : InvokeRequest) : Except A2aError Unit :=
  if (request.action = .send ∨ request.action = .submit) ∧ (trim request.task).isEmpty = true then
    .error (.invalidConfig "task must not be empty".toList)
  else if maxTaskBytes < byteLen request.task then
    .error (.invalidConfig ("task exceeds ".toList ++ natText maxTaskBytes ++ " bytes".toList))
  else do
    validateLabels [("skill_id".toList, request.skillId), ("task_id".toList, request.taskId),
      ("context_id".toList, request.contextId)]
    if (request.action = .getTask ∨ request.action = .cancelTask) ∧
        request.taskId.all (fun taskId => (trim taskId).isEmpty) = true then
      .error (.invalidConfig "task_id is required for get_task and cancel_task".toList)
    else
      match request.timeoutSeconds with
      | some timeout => validateTimeout timeout
      | none => .ok ()

end InvokeRequest

def maxTenantBytes : ℕ := 2048

/-- The tenant of an interface in a card. -/
def parseInterfaceTenant (interface : List (Text × Json)) : Except A2aError (Option Text) :=
  match interface.lookup "tenant".toList with
  | none | some .null => .ok none
  | some (.string value) =>
    if byteLen value ≤ maxTenantBytes ∧ value.any isControl = false then .ok (some value)
    else
      .error (.invalidCard ("interface tenant exceeds ".toList ++ natText maxTenantBytes ++
        " bytes or contains control characters".toList))
  | some _ => .error (.invalidCard "interface tenant must be a string".toList)

/-- How the `url` package writes a path segment, and how a segment is read. -/
structure SegmentCodec where
  encode : Text → Text
  decode : Text → Text
  encode_nil : encode [] = []
  decode_encode : ∀ s, s.any isControl = false → decode (encode s) = s
  slash_notMem : ∀ s, '/' ∉ encode s

inductive Method where
  | get
  | post
  deriving DecidableEq

structure OutboundOperation where
  url : Url
  method : Method
  body : Option Json
  requestId : Option Text
  operation : Text

/-- `PathSegmentsMut::pop_if_empty`. -/
def popIfEmpty (path : Text) : Text :=
  if 1 < path.length ∧ path.getLast? = some '/' then path.dropLast else path

/-- A path that is ready for one more segment. -/
def openPath (path : Text) : Text := if path.length = 1 then path else path ++ ['/']

section
variable (lib : A2aLib) (codec : SegmentCodec)

/-- `PathSegmentsMut::push`. -/
def pushSegment (path segment : Text) : Text :=
  if segment = ".".toList ∨ segment = "..".toList then path
  else openPath path ++ codec.encode segment

def parseInterfaceUrl (interface : SelectedInterface) : Except A2aError Url :=
  match lib.parseUrl interface.url with
  | some url => .ok url
  | none => .error (.protocol "selected interface URL became invalid".toList)

def appendSegments (url : Url) (segments : List Text) : Except A2aError Url :=
  match url.path with
  | '/' :: _ =>
    .ok { url with
      path := segments.foldl (pushSegment codec) (popIfEmpty url.path)
      query := none }
  | _ => .error (.protocol "interface URL cannot be a base URL".toList)

def appendV1RestSegments (url : Url) (tenant : Option Text) (segments : List Text) :
    Except A2aError Url := do
  match tenant with
  | some tenant =>
    let url ← appendSegments codec url [tenant]
    appendSegments codec url segments
  | none => appendSegments codec url segments

/-- The parameters of a task operation: the members stay sorted. -/
def taskParams (interface : SelectedInterface) (members : List (Text × Json)) : Json :=
  match interface.protocolVersion, interface.tenant with
  | .v1, some tenant => .object (insertMember "tenant".toList (.string tenant) members)
  | _, _ => .object members

def rpcBody (requestId method : Text) (params : Json) : Json :=
  .object [("id".toList, .string requestId), ("jsonrpc".toList, .string "2.0".toList),
    ("method".toList, .string method), ("params".toList, params)]

/-- The segments of a task behind the path of an interface. -/
def taskUrl (interface : SelectedInterface) (segment : Text) : Except A2aError Url := do
  let url ← parseInterfaceUrl lib interface
  match interface.protocolVersion with
  | .v1 => appendV1RestSegments codec url interface.tenant ["tasks".toList, segment]
  | .v03 => appendSegments codec url ["v1".toList, "tasks".toList, segment]

def buildGetTask (interface : SelectedInterface) (taskId requestId : Text) :
    Except A2aError OutboundOperation :=
  match interface.binding with
  | .jsonRpc => do
    let method := match interface.protocolVersion with
      | .v1 => "GetTask".toList
      | .v03 => "tasks/get".toList
    let params := taskParams interface
      [("historyLength".toList, .number "50".toList), ("id".toList, .string taskId)]
    let url ← parseInterfaceUrl lib interface
    return ⟨url, .post, some (rpcBody requestId method params), some requestId, method⟩
  | .httpJson => do
    let url ← taskUrl lib codec interface taskId
    let url := { url with query := some "historyLength=50".toList }
    return ⟨url, .get, none, none, "tasks/get".toList⟩

def buildCancelTask (interface : SelectedInterface) (taskId requestId : Text) :
    Except A2aError OutboundOperation :=
  let params := taskParams interface [("id".toList, .string taskId)]
  match interface.binding with
  | .jsonRpc => do
    let method := match interface.protocolVersion with
      | .v1 => "CancelTask".toList
      | .v03 => "tasks/cancel".toList
    let url ← parseInterfaceUrl lib interface
    return ⟨url, .post, some (rpcBody requestId method params), some requestId, method⟩
  | .httpJson => do
    let url ← taskUrl lib codec interface (taskId ++ ":cancel".toList)
    return ⟨url, .post, none, none, "tasks/cancel".toList⟩

end

/-! What an address should be. -/

inductive TaskOperation where
  | get
  | cancel
  deriving DecidableEq

/-- The tenant of an interface and the id of a task there. -/
structure TaskAddress where
  tenant : Option Text
  taskId : Text
  deriving DecidableEq

namespace TaskOperation

def verb : TaskOperation → Text
  | get => []
  | cancel => ":cancel".toList

def request (op : TaskOperation) (taskId : Text) : InvokeRequest :=
  match op with
  | get => .ofGetTask taskId
  | cancel => .ofCancelTask taskId

def build (op : TaskOperation) (lib : A2aLib) (codec : SegmentCodec)
    (interface : SelectedInterface) (taskId requestId : Text) : Except A2aError OutboundOperation :=
  match op with
  | get => buildGetTask lib codec interface taskId requestId
  | cancel => buildCancelTask lib codec interface taskId requestId

end TaskOperation

/-- The interface of a card with the REST binding. -/
def restInterface (url : Text) (version : ProtocolVersion) (tenant : Option Text) :
    SelectedInterface where
  url := url
  binding := .httpJson
  protocolVersion := version
  tenant := tenant

/-- An address that passes the checks of requests and cards; cards of version 0.3 have no tenant. -/
structure Addressable (op : TaskOperation) (version : ProtocolVersion) (a : TaskAddress) : Prop where
  request : (op.request a.taskId).validate = .ok ()
  tenant : ∀ t, a.tenant = some t → byteLen t ≤ maxTenantBytes ∧ t.any isControl = false
  v03 : version = .v03 → a.tenant = none

/-- The segments that an address is to be spelled with. -/
def addressSegments (op : TaskOperation) (version : ProtocolVersion) (a : TaskAddress) :
    List Text :=
  (match version with
    | .v1 => a.tenant.toList
    | .v03 => ["v1".toList]) ++ ["tasks".toList, a.taskId ++ op.verb]

/-- The path goes on from the base with these segments. -/
def Locates (codec : SegmentCodec) (base : Text) (segments : List Text) (path : Text) : Prop :=
  ∃ rest, path = base ++ rest ∧
    (((stripPrefixChar '/' rest).getD rest).splitOn '/').map codec.decode = segments

/-- The segments that a path setter leaves out. -/
def isDots (segment : Text) : Bool := segment = ".".toList || segment = "..".toList

/-- Nothing in the address is left out of a path behind the base. -/
def Spelled (op : TaskOperation) (base : Text) (a : TaskAddress) : Prop :=
  base ≠ "//".toList ∧ (∀ t, a.tenant = some t → t ≠ [] ∧ isDots t = false) ∧
    (op = .get → isDots a.taskId = false)

section
variable {lib : A2aLib} {codec : SegmentCodec} {op : TaskOperation} {version : ProtocolVersion}
  {path base s t : Text} {segments : List Text} {a : TaskAddress}

/-- Texts that segments are made of. -/
def Writable (s : Text) : Prop := s ≠ [] ∧ s.any isControl = false

/-- Segments behind one another. -/
def joinSegments (codec : SegmentCodec) (segments : List Text) : Text :=
  ['/'].intercalate (segments.map codec.encode)

theorem encode_ne_nil (h : Writable s) : codec.encode s ≠ [] := by
  intro hnil
  apply h.1
  have hdecode := codec.decode_encode s h.2
  have hempty := codec.decode_encode [] rfl
  rw [hnil, ← codec.encode_nil, hempty] at hdecode
  exact hdecode.symm

theorem openPath_length_pos (path : Text) : 0 < (openPath path).length := by
  unfold openPath
  split_ifs <;> simp_all

theorem pushSegment_dots (h : isDots s = true) : pushSegment codec path s = path := by
  rw [isDots, Bool.or_eq_true, decide_eq_true_eq, decide_eq_true_eq] at h
  exact if_pos h

theorem pushSegment_eq (h : isDots s = false) :
    pushSegment codec path s = openPath path ++ codec.encode s := by
  rw [isDots, Bool.or_eq_false_iff, decide_eq_false_iff_not, decide_eq_false_iff_not] at h
  exact if_neg (not_or.mpr h)

theorem openPath_append (h : Writable s) :
    openPath (openPath path ++ codec.encode s) = openPath path ++ codec.encode s ++ ['/'] := by
  have hpos := openPath_length_pos path
  have hencode := List.length_pos_of_ne_nil (@encode_ne_nil codec s h)
  have hlong : (openPath path ++ codec.encode s).length ≠ 1 := by
    rw [List.length_append]
    omega
  rw [openPath, if_neg hlong]

theorem joinSegments_cons_cons (s s' : Text) (segments : List Text) :
    joinSegments codec (s :: s' :: segments) =
      codec.encode s ++ '/' :: joinSegments codec (s' :: segments) := by
  rw [joinSegments, List.map_cons, List.map_cons, List.intercalate_cons_cons]
  simp [joinSegments]

/-- Segments that are not left out are appended one after the other. -/
theorem foldl_pushSegment (hs : ∀ s ∈ segments, Writable s ∧ isDots s = false)
    (hne : segments ≠ []) (path : Text) :
    segments.foldl (pushSegment codec) path = openPath path ++ joinSegments codec segments := by
  induction segments generalizing path with
  | nil => exact absurd rfl hne
  | cons s segments ih =>
    obtain ⟨⟨hwritable, hdots⟩, hrest⟩ := List.forall_mem_cons.mp hs
    rw [List.foldl_cons, pushSegment_eq hdots]
    cases segments with
    | nil => rw [joinSegments, List.map_singleton, List.intercalate_singleton, List.foldl_nil]
    | cons s' segments =>
      rw [ih hrest (List.cons_ne_nil _ _), openPath_append hwritable, joinSegments_cons_cons]
      simp

/-! The paths that the program builds. -/

theorem popIfEmpty_head {rest : Text} (h : path = '/' :: rest) :
    ∃ rest', popIfEmpty path = '/' :: rest' := by
  unfold popIfEmpty
  split_ifs with hpop
  · subst h
    cases rest with
    | nil => exact absurd hpop.1 (by simp)
    | cons c rest => exact ⟨(c :: rest).dropLast, rfl⟩
  · exact ⟨rest, h⟩

theorem popIfEmpty_length (path : Text) : (popIfEmpty path).length ≤ path.length := by
  unfold popIfEmpty
  split_ifs
  · rw [List.length_dropLast]
    omega
  · exact le_rfl

/-- An open path ends with a slash, and is at most that longer. -/
theorem openPath_spec {rest : Text} (h : path = '/' :: rest) :
    (openPath path).getLast? = some '/' ∧ (openPath path).length ≤ path.length + 1 := by
  unfold openPath
  split_ifs with hlen
  · subst h
    obtain rfl := List.eq_nil_of_length_eq_zero (Nat.succ_inj.mp hlen)
    exact ⟨rfl, Nat.le_succ _⟩
  · exact ⟨List.getLast?_concat, by rw [List.length_append]; exact le_rfl⟩

/-- Opening the path undoes the removal of an empty segment, unless there is nothing else. -/
theorem openPath_popIfEmpty {rest : Text} (h : base = '/' :: rest) (hbase : base ≠ "//".toList) :
    openPath (popIfEmpty base) = if base.getLast? = some '/' then base else base ++ ['/'] := by
  unfold popIfEmpty
  by_cases hlast : base.getLast? = some '/'
  · rw [if_pos hlast]
    obtain ⟨front, hfront⟩ := List.getLast?_eq_some_iff.mp hlast
    split_ifs with hlong
    · rw [hfront, List.dropLast_concat]
      have hne : front.length ≠ 1 := by
        intro hone
        apply hbase
        rw [hfront] at h ⊢
        obtain ⟨c, rfl⟩ := List.length_eq_one_iff.mp hone
        obtain ⟨rfl, -⟩ := List.cons.inj h
        rfl
      rw [openPath, if_neg hne]
    · have hone : base.length = 1 := by
        rw [not_and_or] at hlong
        have hpos : 0 < base.length := by simp [h]
        obtain hlong | hlong := hlong
        · omega
        · exact absurd hlast hlong
      rw [openPath, if_pos hone]
  · rw [if_neg hlast, if_neg fun hpop => hlast hpop.2]
    have hone : base.length ≠ 1 := by
      intro hone
      subst h
      obtain rfl := List.eq_nil_of_length_eq_zero (Nat.succ_inj.mp hone)
      exact hlast rfl
    rw [openPath, if_neg hone]

/-- An empty segment is taken off again. -/
theorem popIfEmpty_openPath {rest : Text} (h : path = '/' :: rest) :
    popIfEmpty (openPath path) = path := by
  unfold openPath
  split_ifs with hlen
  · rw [popIfEmpty, if_neg fun hpop => absurd hpop.1 (by omega)]
  · have hlong : 1 < (path ++ ['/']).length := by
      rw [List.length_append, h]
      simp
    rw [popIfEmpty, if_pos ⟨hlong, List.getLast?_concat⟩, List.dropLast_concat]

/-- A segment that is not empty stays. -/
theorem popIfEmpty_append (h : Writable s) :
    popIfEmpty (path ++ codec.encode s) = path ++ codec.encode s := by
  rw [popIfEmpty, if_neg]
  rintro ⟨-, hlast⟩
  rw [List.getLast?_append_of_ne_nil _ (encode_ne_nil h)] at hlast
  exact codec.slash_notMem s (List.mem_of_getLast? hlast)

/-- The segments of an address that are not left out. -/
def keptSegments (op : TaskOperation) (version : ProtocolVersion) (a : TaskAddress) : List Text :=
  (match version with
    | .v1 => a.tenant.toList.filter fun t => !t.isEmpty && !isDots t
    | .v03 => ["v1".toList]) ++
  "tasks".toList :: [a.taskId ++ op.verb].filter fun s => !isDots s

theorem length_splitOn (t : Text) : (t.splitOn '/').length = t.count '/' + 1 := by
  induction t with
  | nil => rfl
  | cons c t ih =>
    rw [List.splitOn_cons_eq_if_modifyHead, List.count_cons]
    split_ifs with hc
    · rw [List.length_cons, ih]
    · rw [List.length_modifyHead, ih, Nat.add_zero]

theorem splitOn_joinSegments (hne : segments ≠ []) :
    (joinSegments codec segments).splitOn '/' = segments.map codec.encode := by
  apply List.splitOn_intercalate
  · intro l hl
    obtain ⟨s, -, rfl⟩ := List.mem_map.mp hl
    exact codec.slash_notMem s
  · simpa using hne

theorem foldl_filter_dots (segments : List Text) (path : Text) :
    segments.foldl (pushSegment codec) path =
      (segments.filter fun s => !isDots s).foldl (pushSegment codec) path := by
  induction segments generalizing path with
  | nil => rfl
  | cons s segments ih =>
    cases hs : isDots s with
    | true =>
      rw [List.foldl_cons, pushSegment_dots hs, List.filter_cons_of_neg (by simp [hs])]
      exact ih path
    | false =>
      rw [List.filter_cons_of_pos (by simp [hs]), List.foldl_cons, List.foldl_cons]
      exact ih _

theorem validateLabels_ok {label : Text} {value : Text} {labels : List (Text × Option Text)}
    (h : InvokeRequest.validateLabels labels = .ok ()) (hmem : (label, some value) ∈ labels) :
    value.any isControl = false := by
  induction labels with
  | nil => exact absurd hmem List.not_mem_nil
  | cons first labels ih =>
    obtain ⟨label', value'⟩ := first
    unfold InvokeRequest.validateLabels at h
    split_ifs at h with hbad
    obtain heq | hmem := List.mem_cons.mp hmem
    · obtain ⟨-, rfl⟩ := Prod.mk.inj heq
      rw [Option.any_some, Bool.or_eq_true, not_or] at hbad
      exact Bool.eq_false_iff.mpr hbad.2
    · exact ih h hmem

/-- What the checks of a request say of its task id. -/
theorem request_ok (h : (op.request s).validate = .ok ()) :
    s.any isControl = false ∧ (trim s).isEmpty = false := by
  have haction : (op.request s).action = .getTask ∨ (op.request s).action = .cancelTask := by
    cases op
    · exact Or.inl rfl
    · exact Or.inr rfl
  have htask : (op.request s).taskId = some s := by cases op <;> rfl
  unfold InvokeRequest.validate at h
  split_ifs at h with _ _ hid
  · obtain ⟨_, -, h⟩ := Transactions.bind_eq_ok.mp h
    cases h
  · obtain ⟨⟨⟩, hlabels, -⟩ := Transactions.bind_eq_ok.mp h
    refine ⟨@validateLabels_ok "task_id".toList s _ hlabels (by simp [htask]), ?_⟩
    rw [not_and, htask] at hid
    exact Bool.eq_false_iff.mpr (hid haction)

theorem writable_of_request (h : (op.request s).validate = .ok ()) : Writable (s ++ op.verb) := by
  obtain ⟨hcontrol, htrim⟩ := request_ok h
  constructor
  · intro hnil
    rw [(List.append_eq_nil_iff.mp hnil).1] at htrim
    cases htrim
  · rw [List.any_append, hcontrol, Bool.false_or]
    cases op <;> decide

theorem tasks_writable : Writable "tasks".toList := ⟨by decide, by decide⟩

/-- The last two segments of an address. -/
theorem foldl_tasks (hs : Writable s) (path : Text) :
    ["tasks".toList, s].foldl (pushSegment codec) path =
      openPath path ++ joinSegments codec ("tasks".toList :: [s].filter fun s => !isDots s) := by
  rw [foldl_filter_dots, List.filter_cons_of_pos (by decide), foldl_pushSegment _ (by simp)]
  simp only [List.forall_mem_cons, List.mem_filter, List.mem_singleton]
  refine ⟨⟨tasks_writable, by decide⟩, ?_⟩
  rintro s' ⟨rfl, hdots⟩
  exact ⟨hs, by simpa using hdots⟩

theorem appendSegments_eq {url : Url} {rest : Text} (h : url.path = '/' :: rest)
    (segments : List Text) : appendSegments codec url segments =
      .ok { url with
        path := segments.foldl (pushSegment codec) (popIfEmpty url.path)
        query := none } := by
  rw [appendSegments]
  simp only [h]

/-- The path that an address gets: what is not left out, behind the base without its last empty
segment; a tenant of dots costs another empty segment. -/
theorem taskUrl_eq {url : Text} {parsed : Url} {rest : Text} (hparsed : lib.parseUrl url = some parsed)
    (hpath : parsed.path = '/' :: rest) (ha : Addressable op version a) :
    ∃ root, (root = popIfEmpty parsed.path ∨ root = popIfEmpty (popIfEmpty parsed.path)) ∧
      ((∀ t, a.tenant = some t → isDots t = false) → root = popIfEmpty parsed.path) ∧
      taskUrl lib codec (restInterface url version a.tenant) (a.taskId ++ op.verb) =
        .ok { parsed with
          path := openPath root ++ joinSegments codec (keptSegments op version a)
          query := none } := by
  have hid := writable_of_request ha.request
  have hurl : parseInterfaceUrl lib (restInterface url version a.tenant) = .ok parsed := by
    rw [parseInterfaceUrl, restInterface, hparsed]
  obtain ⟨rest', hpopped⟩ := popIfEmpty_head hpath
  rw [taskUrl, hurl]
  show ∃ root, _ ∧ _ ∧ (match version with
    | .v1 => appendV1RestSegments codec parsed a.tenant ["tasks".toList, a.taskId ++ op.verb]
    | .v03 => appendSegments codec parsed ["v1".toList, "tasks".toList, a.taskId ++ op.verb]) = _
  cases version with
  | v03 =>
    refine ⟨_, Or.inl rfl, fun _ => rfl, ?_⟩
    dsimp only
    rw [appendSegments_eq hpath, List.foldl_cons, foldl_tasks hid, pushSegment_eq (by decide),
      openPath_append ⟨by decide, by decide⟩]
    simp only [keptSegments, List.cons_append, List.nil_append, joinSegments_cons_cons,
      List.append_assoc]
  | v1 =>
    cases htenant : a.tenant with
    | none =>
      refine ⟨_, Or.inl rfl, fun _ => rfl, ?_⟩
      rw [appendV1RestSegments, appendSegments_eq hpath, foldl_tasks hid]
      simp only [keptSegments, htenant]
      rfl
    | some t =>
      have happend : ∀ path rest'', pushSegment codec (popIfEmpty parsed.path) t = path →
          path = '/' :: rest'' →
          appendV1RestSegments codec parsed (some t) ["tasks".toList, a.taskId ++ op.verb] =
            .ok { parsed with
              path := openPath (popIfEmpty path) ++
                joinSegments codec ("tasks".toList :: [a.taskId ++ op.verb].filter fun s => !isDots s)
              query := none } := by
        intro path rest'' hpush hslash
        rw [appendV1RestSegments, appendSegments_eq hpath, List.foldl_cons, List.foldl_nil, hpush]
        show appendSegments codec { parsed with path := path, query := none } _ = _
        rw [appendSegments_eq hslash, foldl_tasks hid]
      by_cases hdots : isDots t = true
      · refine ⟨_, Or.inr rfl, fun h => absurd (h t rfl) (by simp [hdots]), ?_⟩
        rw [happend _ rest' (pushSegment_dots hdots) hpopped]
        simp [keptSegments, htenant, hdots]
      · have hkept := Bool.eq_false_iff.mpr hdots
        refine ⟨_, Or.inl rfl, fun _ => rfl, ?_⟩
        have hhead : ∃ rest'', openPath (popIfEmpty parsed.path) = '/' :: rest'' := by
          rw [hpopped, openPath]
          split_ifs
          · exact ⟨_, rfl⟩
          · exact ⟨_, rfl⟩
        obtain ⟨rest'', hopened⟩ := hhead
        by_cases hempty : t = []
        · subst hempty
          have hpush : pushSegment codec (popIfEmpty parsed.path) [] =
              openPath (popIfEmpty parsed.path) := by
            rw [pushSegment_eq hkept, codec.encode_nil, List.append_nil]
          rw [happend _ rest'' hpush hopened, popIfEmpty_openPath hpopped]
          simp [keptSegments, htenant]
        · have ht : Writable t := ⟨hempty, (ha.tenant t htenant).2⟩
          have hslash : openPath (popIfEmpty parsed.path) ++ codec.encode t =
              '/' :: (rest'' ++ codec.encode t) := by rw [hopened, List.cons_append]
          rw [happend _ _ (pushSegment_eq hkept) hslash, popIfEmpty_append ht, openPath_append ht]
          have hsegments : keptSegments op .v1 a =
              t :: "tasks".toList :: [a.taskId ++ op.verb].filter fun s => !isDots s := by
            simp [keptSegments, htenant, hkept, hempty]
          rw [hsegments, joinSegments_cons_cons, List.append_assoc, List.append_assoc]
          rfl

/-- The URL of a task operation. -/
def addressUrl (lib : A2aLib) (codec : SegmentCodec) (op : TaskOperation) (url : Text)
    (version : ProtocolVersion) (requestId : Text) (a : TaskAddress) : Except A2aError Url :=
  (op.build lib codec (restInterface url version a.tenant) a.taskId requestId).map
    OutboundOperation.url

/-- The operations differ in the query. -/
def TaskOperation.finish : TaskOperation → Url → Url
  | get, url => { url with query := some "historyLength=50".toList }
  | cancel, url => url

theorem finish_path (op : TaskOperation) (url : Url) : (op.finish url).path = url.path := by
  cases op <;> rfl

theorem addressUrl_eq {url requestId : Text} {parsed : Url}
    (h : taskUrl lib codec (restInterface url version a.tenant) (a.taskId ++ op.verb) = .ok parsed) :
    addressUrl lib codec op url version requestId a = .ok (op.finish parsed) := by
  cases op with
  | get =>
    rw [TaskOperation.verb, List.append_nil] at h
    rw [addressUrl, TaskOperation.build, buildGetTask]
    show Except.map _ (taskUrl lib codec _ _ >>= _) = _
    rw [h]
    rfl
  | cancel =>
    rw [addressUrl, TaskOperation.build, buildCancelTask]
    show Except.map _ (taskUrl lib codec _ (a.taskId ++ TaskOperation.cancel.verb) >>= _) = _
    rw [h]
    rfl

theorem keptSegments_ne_nil : keptSegments op version a ≠ [] := by
  unfold keptSegments
  exact List.append_ne_nil_of_right_ne_nil _ (List.cons_ne_nil _ _)

theorem isDots_verb : isDots (a.taskId ++ op.verb) = false ↔ (op = .get → isDots a.taskId = false) := by
  cases op with
  | get =>
    rw [TaskOperation.verb, List.append_nil]
    exact ⟨fun h _ => h, fun h => h rfl⟩
  | cancel =>
    refine iff_of_true ?_ (fun h => by cases h)
    rw [isDots, Bool.or_eq_false_iff, decide_eq_false_iff_not, decide_eq_false_iff_not]
    constructor <;> intro h <;> have hlen := congrArg List.length h <;>
      rw [List.length_append] at hlen <;>
      simp [TaskOperation.verb] at hlen

/-- What is left out makes the spelling shorter. -/
theorem spelled_of_length (ha : Addressable op version a)
    (hlen : (addressSegments op version a).length ≤ (keptSegments op version a).length) :
    (∀ t, a.tenant = some t → t ≠ [] ∧ isDots t = false) ∧
      isDots (a.taskId ++ op.verb) = false := by
  have hfilter : ([a.taskId ++ op.verb].filter fun s => !isDots s).length =
      if isDots (a.taskId ++ op.verb) then 0 else 1 := by
    cases hdots : isDots (a.taskId ++ op.verb) <;> simp [hdots]
  unfold addressSegments keptSegments at hlen
  simp only [List.length_append, List.length_cons, hfilter] at hlen
  cases version with
  | v03 =>
    have htenant := ha.v03 rfl
    rw [htenant]
    split_ifs at hlen with hdots
    · simp at hlen
    · exact ⟨fun t h => (by cases h), Bool.eq_false_iff.mpr hdots⟩
  | v1 =>
    cases htenant : a.tenant with
    | none =>
      rw [htenant] at hlen
      split_ifs at hlen with hdots
      · simp at hlen
      · exact ⟨fun t h => (by cases h), Bool.eq_false_iff.mpr hdots⟩
    | some t =>
      rw [htenant] at hlen
      by_cases ht : (!t.isEmpty && !isDots t) = true
      · split_ifs at hlen with hdots
        · simp [ht] at hlen
        · refine ⟨?_, Bool.eq_false_iff.mpr hdots⟩
          rintro t' ⟨⟩
          simpa using ht
      · have hnone : [t].filter (fun t => !List.isEmpty t && !isDots t) = [] := by
          rw [List.filter_cons, if_neg ht, List.filter_nil]
        rw [Option.toList_some, hnone] at hlen
        split_ifs at hlen <;> simp at hlen

theorem keptSegments_eq (htenant : ∀ t, a.tenant = some t → t ≠ [] ∧ isDots t = false)
    (hid : isDots (a.taskId ++ op.verb) = false) :
    keptSegments op version a = addressSegments op version a := by
  unfold keptSegments addressSegments
  rw [List.filter_cons_of_pos (by simp [hid]), List.filter_nil]
  cases version with
  | v03 => rfl
  | v1 =>
    cases h : a.tenant with
    | none => rfl
    | some t =>
      obtain ⟨hne, hdots⟩ := htenant t h
      simp [hne, hdots]

theorem addressSegments_writable (ha : Addressable op version a)
    (htenant : ∀ t, a.tenant = some t → t ≠ []) :
    ∀ s ∈ addressSegments op version a, Writable s := by
  have hid := writable_of_request ha.request
  intro s hs
  unfold addressSegments at hs
  rw [List.mem_append, List.mem_cons, List.mem_singleton] at hs
  obtain hs | rfl | rfl := hs
  · cases version with
    | v03 =>
      obtain rfl := List.mem_singleton.mp hs
      exact ⟨by decide, by decide⟩
    | v1 =>
      have ht := Option.mem_toList.mp hs
      exact ⟨htenant s ht, (ha.tenant s ht).2⟩
  · exact tasks_writable
  · exact hid

/-- A joined path does not begin with a slash. -/
theorem joinSegments_head (hs : Writable s) (segments : List Text) :
    ∃ c rest, joinSegments codec (s :: segments) = c :: rest ∧ c ≠ '/' := by
  obtain ⟨c, rest, hencode⟩ := List.exists_cons_of_ne_nil (@encode_ne_nil codec s hs)
  have hc : c ≠ '/' := by
    rintro rfl
    exact codec.slash_notMem s (hencode ▸ List.mem_cons_self)
  cases segments with
  | nil => exact ⟨c, rest, by rw [joinSegments, List.map_singleton, List.intercalate_singleton,
      hencode], hc⟩
  | cons s' segments =>
    rw [joinSegments_cons_cons, hencode]
    exact ⟨c, _, rfl, hc⟩

theorem keptSegments_head (ha : Addressable op version a) :
    ∃ s more, keptSegments op version a = s :: more ∧ Writable s := by
  unfold keptSegments
  cases version with
  | v03 => exact ⟨_, _, rfl, by decide, by decide⟩
  | v1 =>
    cases htenant : a.tenant with
    | none => exact ⟨_, _, rfl, tasks_writable⟩
    | some t =>
      by_cases ht : (!t.isEmpty && !isDots t) = true
      · have hne : t ≠ [] := by
          rintro rfl
          cases ht
        refine ⟨t, "tasks".toList :: [a.taskId ++ op.verb].filter fun s => !isDots s, ?_, hne,
          (ha.tenant t htenant).2⟩
        dsimp only [Option.toList_some]
        rw [List.filter_cons, if_pos ht]
        rfl
      · refine ⟨"tasks".toList, [a.taskId ++ op.verb].filter fun s => !isDots s, ?_,
          tasks_writable⟩
        dsimp only [Option.toList_some]
        rw [List.filter_cons, if_neg ht]
        rfl

theorem count_strip_le (t : Text) :
    ((stripPrefixChar '/' t).getD t).count '/' ≤ t.count '/' := by
  cases t with
  | nil => exact le_rfl
  | cons c t =>
    rw [stripPrefixChar]
    split_ifs
    · rw [Option.getD_some, List.count_cons]
      exact Nat.le_add_right _ _
    · exact le_rfl

/-- What follows the base is at most what is joined behind the open path. -/
theorem count_rest_le {root rest rest' w : Text} (hbase : base = '/' :: rest')
    (hroot : root = popIfEmpty base ∨ root = popIfEmpty (popIfEmpty base))
    (h : openPath root ++ w = base ++ rest) :
    ((stripPrefixChar '/' rest).getD rest).count '/' ≤ w.count '/' := by
  have hlength : root.length ≤ base.length := by
    obtain rfl | rfl := hroot
    · exact popIfEmpty_length base
    · exact (popIfEmpty_length _).trans (popIfEmpty_length base)
  have hslash : ∃ root', root = '/' :: root' := by
    obtain ⟨popped, hpopped⟩ := popIfEmpty_head hbase
    obtain rfl | rfl := hroot
    · exact ⟨popped, hpopped⟩
    · exact popIfEmpty_head hpopped
  obtain ⟨root', hslash⟩ := hslash
  obtain ⟨hlast, hopen⟩ := openPath_spec hslash
  obtain ⟨more, -, rfl⟩ | ⟨more, hlonger, rfl⟩ := List.append_eq_append_iff.mp h
  · apply (count_strip_le rest).trans
    rw [List.count_append]
    exact Nat.le_add_left _ _
  · have hone := congrArg List.length hlonger
    rw [List.length_append] at hone
    cases more with
    | nil => exact count_strip_le w
    | cons c more =>
      rw [List.length_cons] at hone
      obtain rfl := List.eq_nil_of_length_eq_zero (show more.length = 0 by omega)
      rw [hlonger, List.getLast?_concat] at hlast
      obtain rfl := Option.some.inj hlast
      exact le_rfl

/-- A path goes on with the segments of an address exactly when none is left out. -/
theorem locates_iff {root rest : Text} (hbase : base = '/' :: rest)
    (hroot : root = popIfEmpty base ∨ root = popIfEmpty (popIfEmpty base))
    (hplain : (∀ t, a.tenant = some t → isDots t = false) → root = popIfEmpty base)
    (ha : Addressable op version a) :
    Locates codec base (addressSegments op version a)
      (openPath root ++ joinSegments codec (keptSegments op version a)) ↔ Spelled op base a := by
  obtain ⟨s, more, hkept, hs⟩ := keptSegments_head ha
  obtain ⟨c, w, hjoin, hc⟩ := @joinSegments_head codec s hs more
  rw [← hkept] at hjoin
  have hstrip : (stripPrefixChar '/' (joinSegments codec (keptSegments op version a))).getD
      (joinSegments codec (keptSegments op version a)) =
      joinSegments codec (keptSegments op version a) := by
    rw [hjoin, stripPrefixChar, if_neg hc]
    rfl
  have hsplit := @splitOn_joinSegments codec (keptSegments op version a) keptSegments_ne_nil
  constructor
  · rintro ⟨behind, hpath, hsegments⟩
    have hlength : (addressSegments op version a).length ≤ (keptSegments op version a).length := by
      have hcount := count_rest_le hbase hroot hpath
      have hpieces := congrArg List.length hsplit
      rw [length_splitOn, List.length_map] at hpieces
      rw [← hsegments, List.length_map, length_splitOn]
      omega
    obtain ⟨htenant, hid⟩ := spelled_of_length ha hlength
    refine ⟨?_, htenant, isDots_verb.mp hid⟩
    rintro rfl
    have hopen : openPath root = ['/'] := by
      obtain rfl | rfl := hroot <;> decide
    rw [hopen, hjoin] at hpath
    obtain ⟨-, hpath⟩ := List.cons.inj hpath
    exact hc (List.cons.inj hpath).1
  · rintro ⟨hslashes, htenant, hid⟩
    have hall := @keptSegments_eq op version a htenant (isDots_verb.mpr hid)
    have hwritable := addressSegments_writable ha fun t ht => (htenant t ht).1
    have hread : ((joinSegments codec (keptSegments op version a)).splitOn '/').map codec.decode =
        addressSegments op version a := by
      rw [hsplit, hall, List.map_map]
      conv_rhs => rw [← List.map_id (addressSegments op version a)]
      exact List.map_congr_left fun s hs => codec.decode_encode s (hwritable s hs).2
    rw [hplain fun t ht => (htenant t ht).2, openPath_popIfEmpty hbase hslashes]
    split_ifs
    · exact ⟨_, rfl, by rw [hstrip, hread]⟩
    · refine ⟨'/' :: joinSegments codec (keptSegments op version a), ?_, hread⟩
      rw [List.append_assoc]
      rfl

/-- The segments of an address tell it from all others of its kind. -/
theorem addressSegments_injective {b : TaskAddress} (ha : Addressable op version a)
    (hb : Addressable op version b)
    (h : addressSegments op version a = addressSegments op version b) : a = b := by
  unfold addressSegments at h
  obtain ⟨htenants, hids⟩ := List.append_inj' h rfl
  have hid : a.taskId = b.taskId := by
    simpa using hids
  have htenant : a.tenant = b.tenant := by
    cases version with
    | v03 => rw [ha.v03 rfl, hb.v03 rfl]
    | v1 =>
      have hheads := congrArg List.head? htenants
      rwa [Option.head?_toList, Option.head?_toList] at hheads
  obtain ⟨tenant, taskId⟩ := a
  obtain ⟨tenant', taskId'⟩ := b
  exact congrArg₂ TaskAddress.mk htenant hid

end

/-- The addresses of two tasks behind one interface: both URLs are built, each goes on from the
path of the interface with the segments of its address, and different addresses differ in the URL. -/
def AddressesWell (lib : A2aLib) (codec : SegmentCodec) (op : TaskOperation) (url : Text)
    (version : ProtocolVersion) (requestId : Text) (base : Text) (a b : TaskAddress) : Prop :=
  ∃ u v, addressUrl lib codec op url version requestId a = .ok u ∧
    addressUrl lib codec op url version requestId b = .ok v ∧
    Locates codec base (addressSegments op version a) u.path ∧
    Locates codec base (addressSegments op version b) v.path ∧ (a ≠ b → u ≠ v)

/-- The path of an HTTP URL begins with a slash. -/
def SlashPaths (lib : A2aLib) : Prop :=
  ∀ t url, lib.parseUrl t = some url → url.isHttp = true → ∃ rest, url.path = '/' :: rest

theorem validateEndpoint_ok {lib : A2aLib} {url : Text} {parsed : Url}
    (h : validateEndpoint lib url = .ok parsed) :
    lib.parseUrl url = some parsed ∧ parsed.isHttp = true := by
  unfold validateEndpoint at h
  split_ifs at h
  split at h
  · cases h
  · next parsed' hparsed =>
    split_ifs at h with hhttp
    obtain rfl := Except.ok.inj h
    exact ⟨hparsed, by simpa using hhttp⟩

/-- Addresses are kept apart and read back exactly when none of their segments is left out. -/
theorem addressesWell_iff {lib : A2aLib} {codec : SegmentCodec} {op : TaskOperation} {url : Text}
    {version : ProtocolVersion} {requestId : Text} {parsed : Url} {a b : TaskAddress}
    (hlib : SlashPaths lib) (hurl : validateEndpoint lib url = .ok parsed)
    (ha : Addressable op version a) (hb : Addressable op version b) :
    AddressesWell lib codec op url version requestId parsed.path a b ↔
      Spelled op parsed.path a ∧ Spelled op parsed.path b := by
  obtain ⟨hparsed, hhttp⟩ := validateEndpoint_ok hurl
  obtain ⟨rest, hpath⟩ := hlib url parsed hparsed hhttp
  obtain ⟨root, hroot, hplain, hbuilt⟩ := @taskUrl_eq lib codec op version a url parsed rest hparsed hpath ha
  obtain ⟨root', hroot', hplain', hbuilt'⟩ := @taskUrl_eq lib codec op version b url parsed rest hparsed hpath hb
  have hu := @addressUrl_eq lib codec op version a url requestId _ hbuilt
  have hv := @addressUrl_eq lib codec op version b url requestId _ hbuilt'
  rw [AddressesWell, hu, hv, ← locates_iff hpath hroot hplain ha,
    ← locates_iff hpath hroot' hplain' hb]
  constructor
  · rintro ⟨u, v, hau, hbv, hlocates, hlocates', -⟩
    rw [← Except.ok.inj hau, finish_path] at hlocates
    rw [← Except.ok.inj hbv, finish_path] at hlocates'
    exact ⟨hlocates, hlocates'⟩
  · rintro ⟨hlocates, hlocates'⟩
    refine ⟨_, _, rfl, rfl, ?_, ?_, ?_⟩
    · rwa [finish_path]
    · rwa [finish_path]
    · intro hne heq
      apply hne
      have hpaths := congrArg Url.path heq
      rw [finish_path, finish_path] at hpaths
      dsimp only at hpaths
      obtain ⟨behind, hbehind, hsegments⟩ := hlocates
      obtain ⟨behind', hbehind', hsegments'⟩ := hlocates'
      rw [hbehind, hbehind'] at hpaths
      rw [List.append_cancel_left hpaths, hsegments'] at hsegments
      exact addressSegments_injective ha hb hsegments.symm

/-! A sample: an agent at one address, and a codec that writes slashes and percent signs apart. -/

def encodeChar (c : Char) : Text :=
  if c = '%' then "%25".toList else if c = '/' then "%2F".toList else [c]

def decodeText : Text → Text
  | '%' :: '2' :: '5' :: t => '%' :: decodeText t
  | '%' :: '2' :: 'F' :: t => '/' :: decodeText t
  | c :: t => c :: decodeText t
  | [] => []

theorem decodeText_encode (s : Text) : decodeText (s.flatMap encodeChar) = s := by
  induction s with
  | nil => rfl
  | cons c s ih =>
    rw [List.flatMap_cons, encodeChar]
    split_ifs with hpercent hslash
    · rw [hpercent]
      exact congrArg ('%' :: ·) ih
    · rw [hslash]
      exact congrArg ('/' :: ·) ih
    · have hplain : ∀ t, decodeText (c :: t) = c :: decodeText t := by
        intro t
        rw [decodeText]
        · exact fun t' h => absurd h hpercent
        · exact fun t' h => absurd h hpercent
      rw [List.singleton_append, hplain, ih]

def sampleCodec : SegmentCodec where
  encode s := s.flatMap encodeChar
  decode := decodeText
  encode_nil := rfl
  decode_encode s _ := decodeText_encode s
  slash_notMem s h := by
    obtain ⟨c, -, hc⟩ := List.mem_flatMap.mp h
    unfold encodeChar at hc
    split_ifs at hc with hpercent hslash
    · exact absurd hc (by decide)
    · exact absurd hc (by decide)
    · exact hslash (List.mem_singleton.mp hc).symm

def sampleEndpoint : Text := "https://agent.example/a2a".toList

def sampleParsed : Url where
  scheme := "https".toList
  host := some "agent.example".toList
  path := "/a2a".toList

def sampleA2aLib : A2aLib where
  parseUrl t := if t = sampleEndpoint then some sampleParsed else none
  toLowercase t := t
  digestPrefix _ := []

theorem sampleA2aLib_slashPaths : SlashPaths sampleA2aLib := by
  intro t url h _
  change (if _ then _ else _) = _ at h
  split_ifs at h
  obtain rfl := Option.some.inj h
  exact ⟨_, rfl⟩

def dotTask : TaskAddress := ⟨none, ".".toList⟩

def dotsTask : TaskAddress := ⟨none, "..".toList⟩

def tenantTask : TaskAddress := ⟨some "lab/a".toList, "task-1".toList⟩

theorem dotTask_addressable : Addressable .get .v1 dotTask :=
  ⟨rfl, fun t h => (by cases h), fun h => (by cases h)⟩

theorem dotsTask_addressable : Addressable .get .v1 dotsTask :=
  ⟨rfl, fun t h => (by cases h), fun h => (by cases h)⟩

theorem tenantTask_addressable : Addressable .get .v1 tenantTask := by
  refine ⟨rfl, ?_, fun h => (by cases h)⟩
  rintro t ⟨⟩
  decide

/-- Two tasks at one URL. -/
theorem dot_tasks_collide : Addressable .get .v1 dotTask ∧ Addressable .get .v1 dotsTask ∧
    dotTask ≠ dotsTask ∧
    addressUrl sampleA2aLib sampleCodec .get sampleEndpoint .v1 [] dotTask =
      .ok { sampleParsed with path := "/a2a/tasks".toList, query := some "historyLength=50".toList } ∧
    addressUrl sampleA2aLib sampleCodec .get sampleEndpoint .v1 [] dotsTask =
      .ok { sampleParsed with path := "/a2a/tasks".toList, query := some "historyLength=50".toList } :=
  ⟨dotTask_addressable, dotsTask_addressable, by decide, rfl, rfl⟩

/-- The main theorem on the sample. -/
theorem addressesWell_iff_sample :
    AddressesWell sampleA2aLib sampleCodec .get sampleEndpoint .v1 [] "/a2a".toList tenantTask
        dotTask ↔
      Spelled .get "/a2a".toList tenantTask ∧ Spelled .get "/a2a".toList dotTask :=
  @addressesWell_iff sampleA2aLib sampleCodec .get sampleEndpoint .v1 [] sampleParsed tenantTask
    dotTask sampleA2aLib_slashPaths rfl tenantTask_addressable dotTask_addressable

end DeepseekScience.A2a
