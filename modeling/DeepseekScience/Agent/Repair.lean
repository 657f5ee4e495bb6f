import DeepseekScience.Agent.Gates
import DeepseekScience.Llm.Pairing

/-! The gate on artifact repairs. It joins results to calls by id over the whole slice, so an id
that is used again moves a result to a later turn. -/
namespace DeepseekScience.Agent

/-- The results that report no error, in the order of the messages. -/
def successfulResults (messages : List ChatMessage) : List PairedResult :=
  (pairedResults messages).filter fun r => r.message.isError = some false

/-- The tool of a result: the name on the message, else the one of the call that it answers. -/
def ownName (r : PairedResult) : Text := r.message.name.getD r.call.function.name

def lastWhere (p : Text → Bool) (name : PairedResult → Text) (rs : List PairedResult) :
    Option PairedResult :=
  (rs.filter fun r => p (name r)).getLast?

/-- What the gate is to report about the successful results. -/
def RepairOutcome (rs : List PairedResult) : ArtifactRepairProgress → Prop
  | .missingMutation => ∀ r ∈ rs, isArtifactMutationTool (ownName r) = false
  | .missingVerification => ∃ mutation, lastWhere isArtifactMutationTool ownName rs = some mutation ∧
      ∀ r ∈ rs, isArtifactVerificationTool (ownName r) = true → r.turn ≤ mutation.turn
  | .complete => ∃ mutation, lastWhere isArtifactMutationTool ownName rs = some mutation ∧
      ∃ r ∈ rs, isArtifactVerificationTool (ownName r) = true ∧ mutation.turn < r.turn

/-- The messages that declare a call with an id. -/
def declaringTurns (messages : List ChatMessage) (id : Text) : List ℕ :=
  (messages.zipIdx.filter fun (m, _) => (m.toolCalls.getD []).any fun call => call.id == id).map
    Prod.snd

/-- The name on the message, else the one of the last call of the slice with the same id. -/
def seenName (messages : List ChatMessage) (r : PairedResult) : Text :=
  r.message.name.getD (((callSites messages).lookup r.call.id).elim [] Prod.fst)

/-- Ids that are used again make no difference: a mutation is seen when there is one, and the last
verification is later than the last mutation exactly when its id is declared in a turn behind all
that declare the id of the mutation. -/
def AttributedAlike (messages : List ChatMessage) : Prop :=
  let rs := successfulResults messages
  (lastWhere isArtifactMutationTool ownName rs = none ↔
    lastWhere isArtifactMutationTool (seenName messages) rs = none) ∧
  ((∃ mutation check, lastWhere isArtifactMutationTool ownName rs = some mutation ∧
      lastWhere isArtifactVerificationTool ownName rs = some check ∧ mutation.turn < check.turn) ↔
    ∃ mutation check, lastWhere isArtifactMutationTool (seenName messages) rs = some mutation ∧
      lastWhere isArtifactVerificationTool (seenName messages) rs = some check ∧
      ∃ n ∈ declaringTurns messages check.call.id,
        ∀ k ∈ declaringTurns messages mutation.call.id, k < n)

theorem any_any_iff {α : Type} {o o' : Option α} {p : α → α → Prop} [∀ a b, Decidable (p a b)] :
    (o.any fun a => o'.any fun b => decide (p a b)) = true ↔
      ∃ a b, o = some a ∧ o' = some b ∧ p a b := by
  cases o <;> cases o' <;> simp

instance decidableSomePair {α : Type} {o o' : Option α} {p : α → α → Prop} [∀ a b, Decidable (p a b)] :
    Decidable (∃ a b, o = some a ∧ o' = some b ∧ p a b) :=
  decidable_of_iff _ any_any_iff

instance (messages : List ChatMessage) : Decidable (AttributedAlike messages) :=
  inferInstanceAs (Decidable ((_ ↔ _) ∧ (_ ↔ _)))

theorem not_verification_of_mutation {name : Text} (h : isArtifactMutationTool name = true) :
    isArtifactVerificationTool name = false := by
  simp only [isArtifactMutationTool, Bool.or_eq_true, beq_iff_eq] at h
  rcases h with rfl | rfl <;> decide

/-- One round of the loop, for a result whose call is known. -/
def RepairTurns.observeResult (messages : List ChatMessage) (seenTurn : PairedResult → ℕ)
    (t : RepairTurns) (r : PairedResult) : RepairTurns :=
  if isArtifactMutationTool (seenName messages r) then { t with mutation := some (seenTurn r) }
  else if isArtifactVerificationTool (seenName messages r) then
    { t with verification := some (seenTurn r) }
  else t

/-- The turn of the last call of the slice with the id of a result. -/
def seenTurn (messages : List ChatMessage) (r : PairedResult) : ℕ :=
  ((callSites messages).lookup r.call.id).elim 0 Prod.snd

theorem foldl_observeResult (messages : List ChatMessage) (rs : List PairedResult) :
    rs.foldl (RepairTurns.observeResult messages (seenTurn messages)) {} =
      ⟨(lastWhere isArtifactMutationTool (seenName messages) rs).map (seenTurn messages),
        (lastWhere isArtifactVerificationTool (seenName messages) rs).map (seenTurn messages)⟩ := by
  induction rs using List.reverseRecOn with
  | nil => rfl
  | append_singleton rs r ih =>
    rw [List.foldl_append, ih, List.foldl_cons, List.foldl_nil, RepairTurns.observeResult]
    simp only [lastWhere, List.filter_append, List.getLast?_append]
    split_ifs with hmutation hverification
    · simp [hmutation, not_verification_of_mutation hmutation]
    · simp [hmutation, hverification]
    · simp [hmutation, hverification]

theorem mem_callSites {messages : List ChatMessage} {site : Text × Text × ℕ} :
    site ∈ callSites messages ↔ ∃ m, (m, site.2.2) ∈ messages.zipIdx ∧
      ∃ call ∈ m.toolCalls.getD [], site.1 = call.id ∧ site.2.1 = call.function.name := by
  obtain ⟨id, name, index⟩ := site
  simp only [callSites, List.mem_reverse, List.mem_flatMap, List.mem_map, Prod.mk.injEq,
    Prod.exists]
  constructor
  · rintro ⟨m, n, hm, call, hcall, rfl, rfl, rfl⟩
    exact ⟨m, hm, call, hcall, rfl, rfl⟩
  · rintro ⟨m, hm, call, hcall, rfl, rfl⟩
    exact ⟨m, index, hm, call, hcall, rfl, rfl, rfl⟩

/-- The calls of every message are found. -/
theorem isSome_lookup_callSites {messages : List ChatMessage} {m : ChatMessage} {call : ToolCall}
    (hm : m ∈ messages) (hcall : call ∈ m.toolCalls.getD []) :
    ((callSites messages).lookup call.id).isSome = true := by
  obtain ⟨n, hn, rfl⟩ := List.mem_iff_getElem.mp hm
  have hsite : (call.id, call.function.name, n) ∈ callSites messages :=
    mem_callSites.mpr ⟨messages[n], List.mem_zipIdx_iff_getElem?.mpr (by simp [hn]), call, hcall,
      rfl, rfl⟩
  rw [Option.isSome_iff_ne_none, Ne, List.lookup_eq_none_iff]
  push Not
  exact ⟨_, hsite, by simp⟩

/-- Later turns stand in front. -/
theorem callSites_sorted (messages : List ChatMessage) :
    (callSites messages).Pairwise fun a b => b.2.2 ≤ a.2.2 := by
  rw [callSites, List.pairwise_reverse, List.pairwise_flatMap]
  constructor
  · intro entry _
    rw [List.pairwise_map]
    exact List.pairwise_of_forall fun _ _ => le_rfl
  · have hsorted : (messages.zipIdx.map Prod.snd).Pairwise (· < ·) := by
      rw [List.zipIdx_map_snd]
      exact List.pairwise_lt_range'
    refine (List.pairwise_map.mp hsorted).imp fun hlt x hx y hy => ?_
    obtain ⟨-, -, rfl⟩ := List.mem_map.mp hx
    obtain ⟨-, -, rfl⟩ := List.mem_map.mp hy
    exact hlt.le

theorem mem_declaringTurns {messages : List ChatMessage} {id : Text} {n : ℕ} :
    n ∈ declaringTurns messages id ↔ ∃ name, (id, name, n) ∈ callSites messages := by
  simp only [declaringTurns, List.mem_map, List.mem_filter, List.any_eq_true, beq_iff_eq,
    Prod.exists, exists_eq_right, mem_callSites]
  constructor
  · rintro ⟨m, hm, call, hcall, rfl⟩
    exact ⟨call.function.name, m, hm, call, hcall, rfl, rfl⟩
  · rintro ⟨name, m, hm, call, hcall, rfl, rfl⟩
    exact ⟨m, hm, call, hcall, rfl⟩

/-- The turn of the last call with an id is the latest one that declares the id. -/
theorem seenTurn_isGreatest {messages : List ChatMessage} {r : PairedResult}
    (h : ((callSites messages).lookup r.call.id).isSome = true) :
    IsGreatest {n | n ∈ declaringTurns messages r.call.id} (seenTurn messages r) := by
  obtain ⟨⟨name, n⟩, hsite⟩ := Option.isSome_iff_exists.mp h
  have hn : seenTurn messages r = n := by rw [seenTurn, hsite]; rfl
  obtain ⟨front, back, hsplit, hfront⟩ := List.lookup_eq_some_iff.mp hsite
  constructor
  · rw [hn]
    apply mem_declaringTurns.mpr
    exact ⟨name, hsplit ▸ List.mem_append_right _ List.mem_cons_self⟩
  · intro k hk
    rw [hn]
    obtain ⟨name', hk⟩ := mem_declaringTurns.mp hk
    have hsorted := callSites_sorted messages
    rw [hsplit] at hk hsorted
    rcases List.mem_append.mp hk with hk | hk
    · have := hfront _ hk
      simp at this
    · rcases List.mem_cons.mp hk with hk | hk
      · exact (congrArg (fun site => site.2.2) hk).le
      · exact (List.pairwise_cons.mp (List.pairwise_append.mp hsorted).2.1).1 _ hk

theorem seenTurn_lt_iff {messages : List ChatMessage} {r r' : PairedResult}
    (h : ((callSites messages).lookup r.call.id).isSome = true)
    (h' : ((callSites messages).lookup r'.call.id).isSome = true) :
    seenTurn messages r < seenTurn messages r' ↔
      ∃ n ∈ declaringTurns messages r'.call.id, ∀ k ∈ declaringTurns messages r.call.id, k < n := by
  obtain ⟨hmem, hmax⟩ := seenTurn_isGreatest h
  obtain ⟨hmem', hmax'⟩ := seenTurn_isGreatest h'
  constructor
  · exact fun hlt => ⟨_, hmem', fun k hk => (hmax hk).trans_lt hlt⟩
  · rintro ⟨n, hn, hlt⟩
    exact (hlt _ hmem).trans_le (hmax' hn)

theorem answered_mem {turn : Turn} {m : ChatMessage} {call : ToolCall}
    (h : turn.answered m = some call) : call ∈ turn.calls ∧ m.toolCallId = some call.id :=
  ⟨List.mem_of_find?_eq_some h, by simpa using List.find?_some h⟩

theorem foldl_observe (messages : List ChatMessage) {suffix : List ChatMessage} {index : ℕ}
    {turn : Turn}
    (hpaired : PairedFrom index turn suffix)
    (hturn : ∀ call ∈ turn.calls, ((callSites messages).lookup call.id).isSome = true)
    (hsuffix : ∀ m ∈ suffix, m ∈ messages) (t : RepairTurns) :
    suffix.foldl (RepairTurns.observe (callSites messages)) t =
      ((pairedResultsFrom index turn suffix).filter fun r => r.message.isError = some false).foldl
        (RepairTurns.observeResult messages (seenTurn messages)) t := by
  induction suffix generalizing index turn t with
  | nil => rfl
  | cons m rest ih =>
    obtain ⟨hanswered, -, -, hrest⟩ := hpaired
    have hnext : ∀ call ∈ (turn.next index m).calls,
        ((callSites messages).lookup call.id).isSome = true := by
      intro call hcall
      simp only [Turn.next] at hcall
      split_ifs at hcall
      · exact hturn call hcall
      · exact isSome_lookup_callSites (hsuffix m List.mem_cons_self) hcall
    rw [List.foldl_cons, pairedResultsFrom, List.filter_append, List.foldl_append,
      ih hrest hnext fun m' hm' => hsuffix m' (List.mem_cons_of_mem _ hm')]
    congr 1
    by_cases hrole : m.role = .tool
    · obtain ⟨call, hcall⟩ := Option.isSome_iff_exists.mp (hanswered hrole)
      obtain ⟨hmem, hid⟩ := answered_mem hcall
      obtain ⟨⟨name, site⟩, hsite⟩ := Option.isSome_iff_exists.mp (hturn call hmem)
      simp only [RepairTurns.observe, hrole, hcall, hid, if_true, Option.map_some,
        Option.toList_some, Option.bind_some, hsite, ne_eq, not_true_eq_false, false_or]
      by_cases herror : m.isError = some false
      · simp [herror, RepairTurns.observeResult, seenName, seenTurn, hsite]
      · simp [herror]
    · simp [RepairTurns.observe, hrole]

theorem pairedResultsFrom_spec {messages : List ChatMessage} (suffix : List ChatMessage)
    (index : ℕ) (turn : Turn)
    (hturn : ∀ call ∈ turn.calls, ((callSites messages).lookup call.id).isSome = true)
    (hsuffix : ∀ m ∈ suffix, m ∈ messages) (hindex : turn.index ≤ index) :
    (∀ r ∈ pairedResultsFrom index turn suffix,
        ((callSites messages).lookup r.call.id).isSome = true ∧ turn.index ≤ r.turn) ∧
      (pairedResultsFrom index turn suffix).Pairwise fun r r' => r.turn ≤ r'.turn := by
  induction suffix generalizing index turn with
  | nil => exact ⟨fun r hr => absurd hr List.not_mem_nil, List.Pairwise.nil⟩
  | cons m rest ih =>
    have hnext : (∀ call ∈ (turn.next index m).calls,
        ((callSites messages).lookup call.id).isSome = true) ∧
        turn.index ≤ (turn.next index m).index ∧ (turn.next index m).index ≤ index + 1 := by
      simp only [Turn.next]
      split_ifs
      · exact ⟨hturn, le_rfl, hindex.trans (Nat.le_succ index)⟩
      · exact ⟨fun call hcall => isSome_lookup_callSites (hsuffix m List.mem_cons_self) hcall, hindex,
          Nat.le_succ index⟩
    obtain ⟨hcalls, hle, hlt⟩ := hnext
    obtain ⟨hrest, hsorted⟩ := ih _ _ hcalls (fun m' hm' => hsuffix m' (List.mem_cons_of_mem _ hm')) hlt
    have hfirst : ∀ r ∈ (if m.role = .tool then
        ((turn.answered m).map fun call => (⟨m, call, turn.index⟩ : PairedResult)).toList else []),
        r.turn = turn.index ∧ r.call ∈ turn.calls := by
      intro r hr
      split_ifs at hr
      · obtain ⟨call, hcall, rfl⟩ := Option.map_eq_some_iff.mp (Option.mem_toList.mp hr)
        exact ⟨rfl, (answered_mem hcall).1⟩
      · exact absurd hr List.not_mem_nil
    rw [pairedResultsFrom]
    constructor
    · intro r hr
      rcases List.mem_append.mp hr with hr | hr
      · exact ⟨hturn _ (hfirst r hr).2, (hfirst r hr).1.ge⟩
      · exact ⟨(hrest r hr).1, hle.trans (hrest r hr).2⟩
    · rw [List.pairwise_append]
      refine ⟨?_, hsorted, fun r hr r' hr' => ?_⟩
      · apply List.Pairwise.imp_of_mem _ (List.pairwise_of_forall fun _ _ => trivial)
        intro r r' hr hr' _
        rw [(hfirst r hr).1, (hfirst r' hr').1]
      · rw [(hfirst r hr).1]
        exact hle.trans (hrest r' hr').2

theorem lastWhere_eq_none {p : Text → Bool} {name : PairedResult → Text} {rs : List PairedResult} :
    lastWhere p name rs = none ↔ ∀ r ∈ rs, p (name r) = false := by
  simp [lastWhere]

theorem mem_of_lastWhere {p : Text → Bool} {name : PairedResult → Text} {rs : List PairedResult}
    {r : PairedResult} (h : lastWhere p name rs = some r) : r ∈ rs ∧ p (name r) = true :=
  List.mem_filter.mp (List.mem_of_getLast? h)

/-- In a list that is sorted by turn the last result has the latest turn. -/
theorem turn_le_lastWhere {p : Text → Bool} {name : PairedResult → Text} {rs : List PairedResult}
    (hsorted : rs.Pairwise fun r r' => r.turn ≤ r'.turn) {last r : PairedResult}
    (hlast : lastWhere p name rs = some last) (hr : r ∈ rs) (hp : p (name r) = true) :
    r.turn ≤ last.turn := by
  obtain ⟨front, hfront⟩ := List.getLast?_eq_some_iff.mp hlast
  have hpairwise := hsorted.filter fun r => p (name r)
  have hmem : r ∈ rs.filter fun r => p (name r) := List.mem_filter.mpr ⟨hr, hp⟩
  rw [hfront] at hpairwise hmem
  rcases List.mem_append.mp hmem with hmem | hmem
  · exact (List.pairwise_append.mp hpairwise).2.2 r hmem last List.mem_cons_self
  · rw [List.mem_singleton.mp hmem]

section
variable {rs : List PairedResult}

/-- A mutation in an earlier turn than the last verification. -/
def CheckedLater (rs : List PairedResult) : Prop :=
  ∃ mutation check, lastWhere isArtifactMutationTool ownName rs = some mutation ∧
    lastWhere isArtifactVerificationTool ownName rs = some check ∧ mutation.turn < check.turn

instance (rs : List PairedResult) : Decidable (CheckedLater rs) :=
  inferInstanceAs (Decidable (∃ _ _, _ ∧ _ ∧ _))

theorem repairOutcome_complete (hsorted : rs.Pairwise fun r r' => r.turn ≤ r'.turn) :
    RepairOutcome rs .complete ↔ CheckedLater rs := by
  constructor
  · rintro ⟨mutation, hmutation, r, hr, hcheck, hlt⟩
    cases hlast : lastWhere isArtifactVerificationTool ownName rs with
    | none =>
      rw [lastWhere_eq_none.mp hlast r hr] at hcheck
      cases hcheck
    | some check =>
      exact ⟨mutation, check, hmutation, hlast,
        hlt.trans_le (turn_le_lastWhere hsorted hlast hr hcheck)⟩
  · rintro ⟨mutation, check, hmutation, hcheck, hlt⟩
    obtain ⟨hmem, hp⟩ := mem_of_lastWhere hcheck
    exact ⟨mutation, hmutation, check, hmem, hp, hlt⟩

theorem repairOutcome_missingVerification (hsorted : rs.Pairwise fun r r' => r.turn ≤ r'.turn) :
    RepairOutcome rs .missingVerification ↔
      lastWhere isArtifactMutationTool ownName rs ≠ none ∧ ¬CheckedLater rs := by
  constructor
  · rintro ⟨mutation, hmutation, hnone⟩
    constructor
    · rw [hmutation]
      exact Option.some_ne_none mutation
    · rintro ⟨mutation', check, hmutation', hcheck, hlt⟩
      rw [hmutation] at hmutation'
      obtain rfl := Option.some.inj hmutation'
      obtain ⟨hmem, hp⟩ := mem_of_lastWhere hcheck
      exact absurd hlt (not_lt.mpr (hnone check hmem hp))
  · rintro ⟨hsome, hnot⟩
    obtain ⟨mutation, hmutation⟩ := Option.ne_none_iff_exists'.mp hsome
    refine ⟨mutation, hmutation, fun r hr hcheck => ?_⟩
    by_contra hlt
    exact hnot ((repairOutcome_complete hsorted).mp
      ⟨mutation, hmutation, r, hr, hcheck, not_le.mp hlt⟩)

end

/-- What the results of a slice have in common. -/
theorem successfulResults_spec (messages : List ChatMessage) :
    (∀ r ∈ successfulResults messages, ((callSites messages).lookup r.call.id).isSome = true) ∧
      (successfulResults messages).Pairwise fun r r' => r.turn ≤ r'.turn := by
  obtain ⟨hmem, hsorted⟩ := pairedResultsFrom_spec messages 0 {}
    (fun call hcall => absurd hcall List.not_mem_nil) (fun m hm => hm) le_rfl
  exact ⟨fun r hr => (hmem r (List.mem_filter.mp hr).1).1, hsorted.filter _⟩

/-- The gate in terms of the results, as it attributes them. -/
theorem artifactRepairProgress_eq {messages : List ChatMessage} (h : Paired messages) :
    artifactRepairProgress messages =
      match lastWhere isArtifactMutationTool (seenName messages) (successfulResults messages) with
      | none => .missingMutation
      | some mutation =>
        if (lastWhere isArtifactVerificationTool (seenName messages)
            (successfulResults messages)).any fun check =>
              decide (seenTurn messages mutation < seenTurn messages check) then .complete
        else .missingVerification := by
  have hfold := foldl_observe messages h
    (fun call hcall => absurd hcall List.not_mem_nil) (fun m hm => hm) {}
  rw [show ((pairedResultsFrom 0 {} messages).filter fun r => r.message.isError = some false) =
    successfulResults messages from rfl, foldl_observeResult] at hfold
  rw [artifactRepairProgress]
  simp only [hfold]
  cases lastWhere isArtifactMutationTool (seenName messages) (successfulResults messages) with
  | none => rfl
  | some mutation =>
    simp only [Option.map_some, Option.any_map]

/-- One call and its result. -/
def toolTurn (id name : Text) (isError : Bool) : List ChatMessage :=
  [ChatMessage.ofAssistantToolCalls [ToolCall.ofFunction id name []],
    { ChatMessage.ofTool id [] (some name) with isError := some isError }]

end DeepseekScience.Agent
