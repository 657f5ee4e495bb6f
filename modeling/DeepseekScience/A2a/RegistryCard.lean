import DeepseekScience.A2a.Card

/-! The lenient reader of cards that a registry describes agrees with the strict one, but for the
two deviations that it warns of. -/
namespace DeepseekScience.A2a

open Net Transactions

/-- What a card says of one of its interfaces. -/
structure CardInterface where
  url : Option Json
  binding : ProtocolBinding
  protocolVersion : ProtocolVersion
  tenant : Option Json

/-- The first interface of a card with a binding and a version that the client supports. -/
def firstSupported (raw : Json) : Option CardInterface :=
  if isV1 raw then
    (((raw.get? "supportedInterfaces".toList).bind Json.asArray).getD []).findSome?
      fun interface => (supportedBinding interface).map fun binding =>
        ⟨interface.get? "url".toList, binding, .v1, interface.get? "tenant".toList⟩
  else
    (match v03Candidates raw with
      | .ok candidates => candidates
      | .error _ => []).findSome? fun (url, transport) =>
        (v03Binding transport).map fun binding => ⟨some url, binding, .v03, none⟩

/-- Binding, version and tenant are those of the first supported interface. -/
def SelectsFirst (raw : Json) (selected : SelectedInterface) : Prop :=
  ∃ interface, firstSupported raw = some interface ∧ selected.binding = interface.binding ∧
    selected.protocolVersion = interface.protocolVersion ∧
    selected.tenant = interface.tenant.bind Json.asStr

/-- The first supported interface has a wildcard as its host. -/
def HasWildcardHost (lib : A2aLib) (raw : Json) (descriptor : Url) : Prop :=
  ∃ interface text advertised, firstSupported raw = some interface ∧
    interface.url = some (.string text) ∧ lib.parseUrl text = some advertised ∧
    isLiteralWildcardInterface advertised = true ∧ advertised ≠ descriptor

/-- The card asks for an API key in the one way that is tolerated. -/
def RequiresApiKey (raw : Json) : Prop :=
  ∃ requirements, raw.get? "securityRequirements".toList = some (.array requirements) ∧
    requirements ≠ [] ∧ (∀ r ∈ requirements, requirementIsEmpty r = false) ∧
    exactApiKeyOnly raw requirements = true

/-- The endpoints that a registry may name. -/
def EndpointAllowed (descriptor : Url) (allowLoopbackHttp : Bool) : Prop :=
  descriptor.scheme = "https".toList ∨ allowedTestEndpoint descriptor allowLoopbackHttp = true

section
variable {lib : A2aLib} {serialize : Url → Text} {cardUrl descriptor : Url} {raw value : Json}

/-! The interfaces. -/

theorem firstInterface_eq_some {α : Type} {read : Json → Except A2aError (Option α)}
    {interfaces : List Json} {a : α} (h : firstInterface read interfaces = .ok (some a)) :
    ∃ before interface after, interfaces = before ++ interface :: after ∧
      (∀ x ∈ before, read x = .ok none) ∧ read interface = .ok (some a) := by
  induction interfaces with
  | nil => exact absurd h (by simp [firstInterface])
  | cons interface rest ih =>
    rw [firstInterface] at h
    rcases hread : read interface with e | _ | b
    · rw [hread] at h
      exact absurd h (by simp)
    · rw [hread] at h
      obtain ⟨before, first, after, rfl, hbefore, hfirst⟩ := ih h
      exact ⟨interface :: before, first, after, rfl, List.forall_mem_cons.mpr ⟨hread, hbefore⟩,
        hfirst⟩
    · rw [hread] at h
      obtain rfl : b = a := by simpa using h
      exact ⟨[], interface, rest, rfl, by simp, hread⟩

/-- Interfaces that are passed over do not count. -/
theorem firstInterface_append {α : Type} {read : Json → Except A2aError (Option α)}
    {before after : List Json} {interface : Json} {a : α}
    (hbefore : ∀ x ∈ before, read x = .ok none) (h : read interface = .ok (some a)) :
    firstInterface read (before ++ interface :: after) = .ok (some a) := by
  induction before with
  | nil => rw [List.nil_append, firstInterface, h]
  | cons x before ih =>
    obtain ⟨hx, hrest⟩ := List.forall_mem_cons.mp hbefore
    rw [List.cons_append, firstInterface, hx]
    exact ih hrest

theorem validateEndpoint_eq_ok {text : Text} {url : Url} (h : validateEndpoint lib text = .ok url) :
    lib.parseUrl text = some url := by
  unfold validateEndpoint at h
  split_ifs at h
  cases hparse : lib.parseUrl text with
  | none =>
    rw [hparse] at h
    exact absurd h (by simp)
  | some parsed =>
    rw [hparse] at h
    dsimp only at h
    split_ifs at h
    exact congrArg some (Except.ok.inj h)

theorem parseInterfaceTenant_eq_ok {members : List (Text × Json)} {tenant : Option Text}
    (h : parseInterfaceTenant members = .ok tenant) :
    tenant = (members.lookup "tenant".toList).bind Json.asStr := by
  unfold parseInterfaceTenant at h
  split at h
  · rename_i hnone
    rw [hnone]
    exact (Except.ok.inj h).symm
  · rename_i hnull
    rw [hnull]
    exact (Except.ok.inj h).symm
  · rename_i value hvalue
    split_ifs at h
    rw [hvalue]
    exact (Except.ok.inj h).symm
  · exact absurd h (by simp)

theorem parseCardInterfaceUrl_eq_ok {field : Option Json} {url : Url} :
    parseCardInterfaceUrl lib cardUrl field = .ok url ↔
      ∃ text, field.bind Json.asStr = some text ∧ validateEndpoint lib text = .ok url ∧
        sameOrigin cardUrl url = true := by
  unfold parseCardInterfaceUrl
  cases field.bind Json.asStr with
  | none => simp
  | some text =>
    simp only [bind_eq_ok, Option.some.injEq, exists_eq_left']
    constructor
    · rintro ⟨parsed, hparsed, horigin⟩
      split_ifs at horigin with hsame
      obtain rfl := Except.ok.inj horigin
      exact ⟨hparsed, hsame⟩
    · rintro ⟨hparsed, hsame⟩
      exact ⟨url, hparsed, if_pos hsame⟩

/-- The strict reader passes an interface over. -/
theorem parseV1Interface_eq_none :
    parseV1Interface lib serialize cardUrl value = .ok none ↔
      (asObject value).isSome = true ∧ supportedBinding value = none := by
  unfold parseV1Interface
  cases asObject value with
  | none => simp
  | some members =>
    cases supportedBinding value with
    | none => simp
    | some binding =>
      simp only [bind_eq_ok, pure_eq_ok]
      constructor
      · rintro ⟨_, -, _, -, h⟩
        exact absurd h (by simp)
      · rintro ⟨-, h⟩
        exact absurd h (by simp)

/-- What the strict reader takes from an interface. -/
theorem parseV1Interface_eq_some {selected : SelectedInterface} :
    parseV1Interface lib serialize cardUrl value = .ok (some selected) ↔
      ∃ members binding text url tenant, asObject value = some members ∧
        supportedBinding value = some binding ∧
        (value.get? "url".toList).bind Json.asStr = some text ∧
        validateEndpoint lib text = .ok url ∧ sameOrigin cardUrl url = true ∧
        parseInterfaceTenant members = .ok tenant ∧
        selected = ⟨serialize url, binding, .v1, tenant⟩ := by
  unfold parseV1Interface
  cases asObject value with
  | none => simp
  | some members =>
    cases supportedBinding value with
    | none => simp
    | some binding =>
      simp only [bind_eq_ok, parseCardInterfaceUrl_eq_ok, pure_eq_ok, Option.some.injEq]
      constructor
      · rintro ⟨url, ⟨text, htext, hurl, hsame⟩, tenant, htenant, rfl⟩
        exact ⟨members, binding, text, url, tenant, rfl, rfl, htext, hurl, hsame, htenant, rfl⟩
      · rintro ⟨_, _, text, url, tenant, rfl, rfl, htext, hurl, hsame, htenant, rfl⟩
        exact ⟨url, ⟨text, htext, hurl, hsame⟩, tenant, htenant, rfl⟩

/-- The lenient reader passes the same interfaces over. -/
theorem parseRegistryV1Interface_eq_none :
    parseRegistryV1Interface lib serialize cardUrl descriptor value = .ok none ↔
      (asObject value).isSome = true ∧ supportedBinding value = none := by
  unfold parseRegistryV1Interface
  cases asObject value with
  | none => simp
  | some members =>
    cases supportedBinding value with
    | none => simp
    | some binding =>
      cases (value.get? "url".toList).bind Json.asStr with
      | none => simp
      | some text =>
        simp only [bind_eq_ok, pure_eq_ok]
        constructor
        · rintro ⟨_, -, _, -, _, -, h⟩
          exact absurd h (by simp)
        · rintro ⟨-, h⟩
          exact absurd h (by simp)

/-- What the lenient reader takes from an interface. -/
theorem parseRegistryV1Interface_eq_some {selected : SelectedInterface} {repaired : Bool} :
    parseRegistryV1Interface lib serialize cardUrl descriptor value =
        .ok (some (selected, repaired)) ↔
      ∃ members binding text advertised effective tenant, asObject value = some members ∧
        supportedBinding value = some binding ∧
        (value.get? "url".toList).bind Json.asStr = some text ∧
        validateEndpoint lib text = .ok advertised ∧
        registryEndpoint cardUrl advertised descriptor = .ok (effective, repaired) ∧
        parseInterfaceTenant members = .ok tenant ∧
        selected = ⟨serialize effective, binding, .v1, tenant⟩ := by
  unfold parseRegistryV1Interface
  cases asObject value with
  | none => simp
  | some members =>
    cases supportedBinding value with
    | none => simp
    | some binding =>
      cases (value.get? "url".toList).bind Json.asStr with
      | none => simp
      | some text =>
        simp only [bind_eq_ok, pure_eq_ok, Option.some.injEq, Prod.mk.injEq, Prod.exists]
        constructor
        · rintro ⟨advertised, hurl, effective, _, hendpoint, tenant, htenant, rfl, rfl⟩
          exact ⟨members, binding, text, advertised, effective, tenant, rfl, rfl, rfl, hurl,
            hendpoint, htenant, rfl⟩
        · rintro ⟨_, _, _, advertised, effective, tenant, rfl, rfl, rfl, hurl, hendpoint, htenant,
            rfl⟩
          exact ⟨advertised, hurl, effective, repaired, hendpoint, tenant, htenant, rfl, rfl⟩

theorem registryEndpoint_eq_ok {advertised effective : Url} {repaired : Bool}
    (h : registryEndpoint cardUrl advertised descriptor = .ok (effective, repaired)) :
    effective = descriptor ∧
      (repaired = true ↔ isLiteralWildcardInterface advertised = true ∧ advertised ≠ descriptor) ∧
      (repaired = false ↔ advertised = descriptor) := by
  unfold registryEndpoint at h
  split_ifs at h with heq hwildcard
  · obtain ⟨rfl, rfl⟩ := Prod.mk.inj (Except.ok.inj h)
    simp [heq]
  · obtain ⟨rfl, rfl⟩ := Prod.mk.inj (Except.ok.inj h)
    simp [hwildcard.1, heq]

/-! Selecting the first supported interface. -/

theorem firstSupported_v1 {interfaces before after : List Json} {interface : Json}
    {binding : ProtocolBinding}
    (hraw : (raw.get? "supportedInterfaces".toList).bind Json.asArray = some interfaces)
    (hsplit : interfaces = before ++ interface :: after)
    (hbefore : ∀ x ∈ before, supportedBinding x = none)
    (hbinding : supportedBinding interface = some binding) :
    firstSupported raw = some ⟨interface.get? "url".toList, binding, .v1,
      interface.get? "tenant".toList⟩ := by
  have hv1 : isV1 raw = true := by
    unfold isV1
    cases hfield : raw.get? "supportedInterfaces".toList with
    | none =>
      rw [hfield] at hraw
      exact absurd hraw (by simp)
    | some field => rfl
  unfold firstSupported
  rw [if_pos hv1, hraw, Option.getD_some, hsplit, List.findSome?_append]
  have hnone : before.findSome? (fun interface => (supportedBinding interface).map fun binding =>
      (⟨interface.get? "url".toList, binding, .v1, interface.get? "tenant".toList⟩ :
        CardInterface)) = none := by
    rw [List.findSome?_eq_none_iff]
    intro x hx
    rw [hbefore x hx, Option.map_none]
  rw [hnone, Option.none_or, List.findSome?_cons, hbinding, Option.map_some]

theorem parseV1Interfaces_eq_ok {interfaces : List Json}
    (h : parseV1Interfaces raw = .ok interfaces) :
    (raw.get? "supportedInterfaces".toList).bind Json.asArray = some interfaces := by
  unfold parseV1Interfaces at h
  cases hfield : (raw.get? "supportedInterfaces".toList).bind Json.asArray with
  | none =>
    rw [hfield] at h
    exact absurd h (by simp)
  | some list =>
    rw [hfield] at h
    dsimp only at h
    split_ifs at h
    simp only [bind_eq_ok, pure_eq_ok] at h
    obtain ⟨-, -, rfl⟩ := h
    rfl

theorem tenant_of_members {members : List (Text × Json)} {tenant : Option Text}
    (hvalue : asObject value = some members) (h : parseInterfaceTenant members = .ok tenant) :
    tenant = (value.get? "tenant".toList).bind Json.asStr := by
  rw [parseInterfaceTenant_eq_ok h]
  cases value with
  | object list =>
    obtain rfl : list = members := by simpa [asObject] using hvalue
    rfl
  | _ => exact absurd hvalue (by simp [asObject])

/-! Whole cards. -/

theorem parseV1Card_eq_ok {parsed : ParsedAgentCard} {bearerConfigured : Bool} :
    parseV1Card lib serialize cardUrl raw bearerConfigured = .ok parsed ↔
      ∃ name description agentVersion interfaces selected,
        parseV1Head raw = .ok (name, description, agentVersion) ∧
        validateSecurity raw "securityRequirements".toList bearerConfigured = .ok () ∧
        parseV1Interfaces raw = .ok interfaces ∧
        firstInterface (parseV1Interface lib serialize cardUrl) interfaces = .ok (some selected) ∧
        parsed = ⟨v1Summary raw name description agentVersion, selected, raw⟩ := by
  unfold parseV1Card
  simp only [bind_eq_ok]
  constructor
  · rintro ⟨⟨name, description, agentVersion⟩, hhead, ⟨⟩, hsecurity, interfaces, hinterfaces,
      _ | selected, hselected, hparsed⟩
    · exact absurd hparsed (by simp)
    · exact ⟨name, description, agentVersion, interfaces, selected, hhead, hsecurity, hinterfaces,
        hselected, (pure_eq_ok.mp hparsed).symm⟩
  · rintro ⟨name, description, agentVersion, interfaces, selected, hhead, hsecurity, hinterfaces,
      hselected, rfl⟩
    exact ⟨_, hhead, (), hsecurity, interfaces, hinterfaces, some selected, hselected, rfl⟩

/-- The warnings of a repaired card. -/
def repairWarnings (endpointRepaired apiKeyMismatch : Bool) : List Text :=
  (if endpointRepaired then [registryEndpointOverrideWarning] else []) ++
    if apiKeyMismatch then [registryApiKeyWarning] else []

theorem repairWarnings_eq_nil {repaired mismatch : Bool} :
    repairWarnings repaired mismatch = [] ↔ repaired = false ∧ mismatch = false := by
  revert repaired mismatch
  decide

theorem parseRegistryV1Card_eq_ok {parsed : ParsedAgentCard} {warnings : List Text} :
    parseRegistryV1Card lib serialize cardUrl raw descriptor = .ok (parsed, warnings) ↔
      ∃ name description agentVersion mismatch interfaces selected repaired,
        parseV1Head raw = .ok (name, description, agentVersion) ∧
        validateRegistryAnonymousSecurity raw = .ok mismatch ∧
        parseV1Interfaces raw = .ok interfaces ∧
        firstInterface (parseRegistryV1Interface lib serialize cardUrl descriptor) interfaces =
          .ok (some (selected, repaired)) ∧
        parsed = ⟨v1Summary raw name description agentVersion, selected, raw⟩ ∧
        warnings = repairWarnings repaired mismatch := by
  unfold parseRegistryV1Card
  simp only [bind_eq_ok]
  constructor
  · rintro ⟨⟨name, description, agentVersion⟩, hhead, mismatch, hsecurity, interfaces, hinterfaces,
      _ | ⟨selected, repaired⟩, hselected, hparsed⟩
    · exact absurd hparsed (by simp)
    · obtain ⟨rfl, rfl⟩ := Prod.mk.inj (pure_eq_ok.mp hparsed)
      exact ⟨name, description, agentVersion, mismatch, interfaces, selected, repaired, hhead,
        hsecurity, hinterfaces, hselected, rfl, rfl⟩
  · rintro ⟨name, description, agentVersion, mismatch, interfaces, selected, repaired, hhead,
      hsecurity, hinterfaces, hselected, rfl, rfl⟩
    exact ⟨_, hhead, mismatch, hsecurity, interfaces, hinterfaces, some (selected, repaired),
      hselected, rfl⟩

/-- The interface that the strict reader takes from a v0.3 card. -/
theorem selectV03_eq_ok {candidates : List (Json × Json)} {selected : SelectedInterface}
    (h : selectV03 lib serialize cardUrl candidates = .ok selected) :
    ∃ urlJson binding text url, candidates.findSome? (fun (url, transport) =>
        (v03Binding transport).map fun binding => (⟨some url, binding, .v03, none⟩ : CardInterface)) =
          some ⟨some urlJson, binding, .v03, none⟩ ∧
      validateEndpoint lib text = .ok url ∧ sameOrigin cardUrl url = true ∧
      selected = ⟨serialize url, binding, .v03, none⟩ := by
  induction candidates with
  | nil => exact absurd h (by simp [selectV03])
  | cons candidate rest ih =>
    obtain ⟨urlJson, transport⟩ := candidate
    rw [selectV03] at h
    rw [List.findSome?_cons]
    cases hbinding : v03Binding transport with
    | none =>
      rw [hbinding] at h
      obtain ⟨urlJson', binding, text, url, hfound, hrest⟩ := ih h
      exact ⟨urlJson', binding, text, url, by simp only [hbinding, Option.map_none, hfound], hrest⟩
    | some binding =>
      rw [hbinding] at h
      simp only [bind_eq_ok, parseCardInterfaceUrl_eq_ok, pure_eq_ok] at h
      obtain ⟨url, ⟨text, -, hurl, hsame⟩, rfl⟩ := h
      exact ⟨urlJson, binding, text, url, by simp only [hbinding, Option.map_some], hurl, hsame, rfl⟩

theorem parseV03Card_eq_ok {parsed : ParsedAgentCard} {bearerConfigured : Bool}
    (h : parseV03Card lib serialize cardUrl raw bearerConfigured = .ok parsed) :
    ∃ candidates, v03Candidates raw = .ok candidates ∧
      selectV03 lib serialize cardUrl candidates = .ok parsed.selectedInterface := by
  unfold parseV03Card at h
  split at h
  · exact absurd h (by simp)
  · split_ifs at h
    simp only [bind_eq_ok, pure_eq_ok] at h
    obtain ⟨_, -, _, -, -, -, candidates, hcandidates, selected, hselected, _, -, rfl⟩ := h
    exact ⟨candidates, hcandidates, hselected⟩

/-- The strict reader takes the first supported interface, on the origin of the card. -/
theorem parseAgentCard_selects {parsed : ParsedAgentCard} {bearerConfigured : Bool}
    (h : parseAgentCard lib serialize cardUrl raw bearerConfigured = .ok parsed) :
    SelectsFirst raw parsed.selectedInterface ∧ ∃ text url, validateEndpoint lib text = .ok url ∧
      sameOrigin cardUrl url = true ∧ parsed.selectedInterface.url = serialize url := by
  unfold parseAgentCard at h
  split_ifs at h with hobject hv1
  · obtain ⟨name, description, agentVersion, interfaces, selected, -, -, hinterfaces, hselected,
      rfl⟩ := parseV1Card_eq_ok.mp h
    obtain ⟨before, interface, after, hsplit, hbefore, hread⟩ := firstInterface_eq_some hselected
    obtain ⟨members, binding, text, url, tenant, hmembers, hbinding, -, hurl, hsame, htenant, rfl⟩ :=
      parseV1Interface_eq_some.mp hread
    have hfirst := firstSupported_v1 (parseV1Interfaces_eq_ok hinterfaces) hsplit
      (fun x hx => (parseV1Interface_eq_none.mp (hbefore x hx)).2) hbinding
    exact ⟨⟨_, hfirst, rfl, rfl, tenant_of_members hmembers htenant⟩, text, url, hurl, hsame, rfl⟩
  · obtain ⟨candidates, hcandidates, hselected⟩ := parseV03Card_eq_ok h
    obtain ⟨urlJson, binding, text, url, hfound, hurl, hsame, hselected⟩ := selectV03_eq_ok hselected
    rw [hselected]
    refine ⟨⟨⟨some urlJson, binding, .v03, none⟩, ?_, rfl, rfl, rfl⟩, text, url, hurl, hsame, rfl⟩
    unfold firstSupported
    rw [if_neg hv1, hcandidates]
    exact hfound

/-- What a repaired card comes from. -/
theorem parseRegistryV1Card_selects {parsed : ParsedAgentCard} {warnings : List Text}
    (h : parseRegistryV1Card lib serialize cardUrl raw descriptor = .ok (parsed, warnings)) :
    SelectsFirst raw parsed.selectedInterface ∧
      parsed.selectedInterface.url = serialize descriptor ∧
      ∃ repaired mismatch, warnings = repairWarnings repaired mismatch ∧
        validateRegistryAnonymousSecurity raw = .ok mismatch ∧
        (repaired = true ↔ HasWildcardHost lib raw descriptor) := by
  obtain ⟨name, description, agentVersion, mismatch, interfaces, selected, repaired, -, hsecurity,
    hinterfaces, hselected, rfl, rfl⟩ := parseRegistryV1Card_eq_ok.mp h
  obtain ⟨before, interface, after, hsplit, hbefore, hread⟩ := firstInterface_eq_some hselected
  obtain ⟨members, binding, text, advertised, effective, tenant, hmembers, hbinding, htext, hurl,
    hendpoint, htenant, rfl⟩ := parseRegistryV1Interface_eq_some.mp hread
  obtain ⟨rfl, hrepaired, -⟩ := registryEndpoint_eq_ok hendpoint
  have hfirst := firstSupported_v1 (parseV1Interfaces_eq_ok hinterfaces) hsplit
    (fun x hx => (parseRegistryV1Interface_eq_none.mp (hbefore x hx)).2) hbinding
  refine ⟨⟨_, hfirst, rfl, rfl, tenant_of_members hmembers htenant⟩, rfl, repaired, mismatch, rfl,
    hsecurity, ?_⟩
  have hurlText : interface.get? "url".toList = some (.string text) := by
    cases hfield : interface.get? "url".toList with
    | none =>
      rw [hfield] at htext
      exact absurd htext (by simp)
    | some field =>
      rw [hfield, Option.bind_some] at htext
      cases field with
      | string value => rw [Option.some.inj htext]
      | _ => exact absurd htext (by simp [Json.asStr])
  rw [hrepaired]
  constructor
  · rintro ⟨hwildcard, hne⟩
    exact ⟨_, text, advertised, hfirst, hurlText, validateEndpoint_eq_ok hurl, hwildcard, hne⟩
  · rintro ⟨found, text', advertised', hfound, hfoundUrl, hparse, hwildcard, hne⟩
    rw [hfirst] at hfound
    obtain rfl := Option.some.inj hfound
    dsimp only at hfoundUrl
    rw [hurlText] at hfoundUrl
    obtain rfl : text = text' := by simpa using hfoundUrl
    rw [validateEndpoint_eq_ok hurl] at hparse
    obtain rfl := Option.some.inj hparse
    exact ⟨hwildcard, hne⟩

/-- The tolerated API key, or no requirement at all. -/
theorem validateRegistryAnonymousSecurity_eq_ok {mismatch : Bool}
    (h : validateRegistryAnonymousSecurity raw = .ok mismatch) :
    (mismatch = true ↔ RequiresApiKey raw) ∧
      (mismatch = false → validateSecurity raw "securityRequirements".toList false = .ok ()) := by
  unfold validateRegistryAnonymousSecurity at h
  unfold validateSecurity
  cases hfield : raw.get? "securityRequirements".toList with
  | none =>
    rw [hfield] at h
    obtain rfl := Except.ok.inj h
    refine ⟨⟨fun hne => absurd hne (by simp), ?_⟩, fun _ => rfl⟩
    rintro ⟨requirements, hrequirements, -⟩
    rw [hfield] at hrequirements
    exact absurd hrequirements (by simp)
  | some field =>
    rw [hfield] at h
    cases field with
    | array requirements =>
      dsimp only at h ⊢
      split_ifs at h with hnone hexact
      · obtain rfl := Except.ok.inj h
        refine ⟨⟨fun hne => absurd hne (by simp), ?_⟩, fun _ => if_pos hnone⟩
        rintro ⟨_, hrequirements, hne, hfull, -⟩
        rw [hfield] at hrequirements
        obtain rfl := Json.array.inj (Option.some.inj hrequirements)
        rcases Bool.or_eq_true_iff.mp hnone with hempty | hany
        · exact absurd (List.isEmpty_iff.mp hempty) hne
        · obtain ⟨r, hr, hrempty⟩ := List.any_eq_true.mp hany
          rw [hfull r hr] at hrempty
          exact absurd hrempty (by simp)
      · obtain rfl := Except.ok.inj h
        refine ⟨⟨fun _ => ?_, fun _ => rfl⟩, fun hne => absurd hne (by simp)⟩
        rw [Bool.or_eq_true_iff, not_or, List.isEmpty_iff] at hnone
        refine ⟨requirements, hfield, hnone.1, fun r hr => ?_, hexact⟩
        by_contra hempty
        rw [Bool.not_eq_false] at hempty
        exact hnone.2 (List.any_eq_true.mpr ⟨r, hr, hempty⟩)
    | _ => exact absurd h (by simp)

/-- What the lenient reader takes without a repair, the strict one takes as well. -/
theorem parseV1Card_of_unrepaired {parsed : ParsedAgentCard}
    (horigin : sameOrigin cardUrl descriptor = true)
    (h : parseRegistryV1Card lib serialize cardUrl raw descriptor = .ok (parsed, [])) :
    parseV1Card lib serialize cardUrl raw false = .ok parsed := by
  obtain ⟨name, description, agentVersion, mismatch, interfaces, selected, repaired, hhead,
    hsecurity, hinterfaces, hselected, rfl, hwarnings⟩ := parseRegistryV1Card_eq_ok.mp h
  obtain ⟨rfl, rfl⟩ := repairWarnings_eq_nil.mp hwarnings.symm
  obtain ⟨before, interface, after, rfl, hbefore, hread⟩ := firstInterface_eq_some hselected
  obtain ⟨members, binding, text, advertised, effective, tenant, hmembers, hbinding, htext, hurl,
    hendpoint, htenant, rfl⟩ := parseRegistryV1Interface_eq_some.mp hread
  obtain ⟨rfl, -, hsame⟩ := registryEndpoint_eq_ok hendpoint
  obtain rfl := hsame.mp rfl
  have hstrict : parseV1Interface lib serialize cardUrl interface =
      .ok (some ⟨serialize advertised, binding, .v1, tenant⟩) :=
    parseV1Interface_eq_some.mpr ⟨members, binding, text, advertised, tenant, hmembers, hbinding,
      htext, hurl, horigin, htenant, rfl⟩
  refine parseV1Card_eq_ok.mpr ⟨name, description, agentVersion, _, _, hhead,
    (validateRegistryAnonymousSecurity_eq_ok hsecurity).2 rfl, hinterfaces,
    firstInterface_append (fun x hx => ?_) hstrict, rfl⟩
  exact parseV1Interface_eq_none.mpr (parseRegistryV1Interface_eq_none.mp (hbefore x hx))

/-! The lenient reader. -/

theorem parseRegistryAgentCard_eq_ok {parsed : ParsedAgentCard} {warnings : List Text}
    {allowLoopbackHttp : Bool} :
    parseRegistryAgentCard lib serialize cardUrl raw descriptor allowLoopbackHttp =
        .ok (parsed, warnings) ↔
      EndpointAllowed descriptor allowLoopbackHttp ∧ sameOrigin cardUrl descriptor = true ∧
        ((parseAgentCard lib serialize cardUrl raw false = .ok parsed ∧
          validateEndpoint lib parsed.selectedInterface.url = .ok descriptor ∧ warnings = []) ∨
        ((∀ p, parseAgentCard lib serialize cardUrl raw false ≠ .ok p) ∧ isV1 raw = true ∧
          parseRegistryV1Card lib serialize cardUrl raw descriptor = .ok (parsed, warnings))) := by
  unfold parseRegistryAgentCard EndpointAllowed
  by_cases hallowed : descriptor.scheme = "https".toList ∨
      allowedTestEndpoint descriptor allowLoopbackHttp = true
  · rw [if_neg (by simpa [or_iff_not_imp_left] using hallowed)]
    cases horigin : sameOrigin cardUrl descriptor with
    | false => simp
    | true =>
      simp only [Bool.not_true, Bool.false_eq_true, if_false, hallowed, true_and]
      cases hstrict : parseAgentCard lib serialize cardUrl raw false with
      | ok strict =>
        simp only [bind_eq_ok, Except.ok.injEq, ne_eq, forall_eq', false_and, or_false]
        constructor
        · rintro ⟨selected, hselected, hresult⟩
          split_ifs at hresult with hsame
          obtain ⟨rfl, rfl⟩ := Prod.mk.inj (Except.ok.inj hresult)
          exact ⟨rfl, hsame ▸ hselected, rfl⟩
        · rintro ⟨rfl, hselected, rfl⟩
          exact ⟨descriptor, hselected, if_pos rfl⟩
      | error error =>
        cases hv1 : isV1 raw with
        | false => simp
        | true => simp
  · rw [if_pos (by simpa [not_or] using hallowed)]
    constructor
    · intro h
      exact absurd h (by simp)
    · rintro ⟨h, -⟩
      exact absurd h hallowed

/-- Without a warning the strict reader has accepted the card. -/
theorem parseRegistryAgentCard_unwarned {parsed : ParsedAgentCard} {allowLoopbackHttp : Bool} :
    parseRegistryAgentCard lib serialize cardUrl raw descriptor allowLoopbackHttp =
        .ok (parsed, []) ↔
      EndpointAllowed descriptor allowLoopbackHttp ∧
        parseAgentCard lib serialize cardUrl raw false = .ok parsed ∧
        sameOrigin cardUrl descriptor = true ∧
        validateEndpoint lib parsed.selectedInterface.url = .ok descriptor := by
  rw [parseRegistryAgentCard_eq_ok]
  constructor
  · rintro ⟨hallowed, horigin, ⟨hstrict, hselected, -⟩ | ⟨hstrict, hv1, hcard⟩⟩
    · exact ⟨hallowed, hstrict, horigin, hselected⟩
    · -- a card that needs no repair would have been accepted
      have hobject : raw.isObject = true := by
        cases raw with
        | object members => rfl
        | _ => exact absurd hv1 (by simp [isV1, Json.get?])
      have haccepted : parseAgentCard lib serialize cardUrl raw false = .ok parsed := by
        unfold parseAgentCard
        rw [hobject, hv1]
        exact parseV1Card_of_unrepaired horigin hcard
      exact absurd haccepted (hstrict parsed)
  · rintro ⟨hallowed, hstrict, horigin, hselected⟩
    exact ⟨hallowed, horigin, Or.inl ⟨hstrict, hselected, rfl⟩⟩

end

theorem mem_repairWarnings {repaired mismatch : Bool} :
    (repairWarnings repaired mismatch).Nodup ∧
      (∀ w ∈ repairWarnings repaired mismatch,
        w = registryEndpointOverrideWarning ∨ w = registryApiKeyWarning) ∧
      (registryEndpointOverrideWarning ∈ repairWarnings repaired mismatch ↔ repaired = true) ∧
      (registryApiKeyWarning ∈ repairWarnings repaired mismatch ↔ mismatch = true) := by
  revert repaired mismatch
  decide

/-- The repair of a card stays inside the descriptor: what is accepted is the descriptor's endpoint
under the first supported interface, without a warning exactly what the strict reader accepts there,
and with a warning for each of the two deviations that the card has. -/
theorem parseRegistryAgentCard_inside_descriptor (lib : A2aLib) (serialize : Url → Text)
    (hserialize : ∀ text url, lib.parseUrl text = some url → lib.parseUrl (serialize url) = some url)
    (cardUrl : Url) (raw : Json) (descriptor : Url) (allowLoopbackHttp : Bool) :
    (∀ parsed warnings,
      parseRegistryAgentCard lib serialize cardUrl raw descriptor allowLoopbackHttp =
        .ok (parsed, warnings) →
      parsed.selectedInterface.url = serialize descriptor ∧ sameOrigin cardUrl descriptor = true ∧
        SelectsFirst raw parsed.selectedInterface ∧
        (warnings ≠ [] → warnings.Nodup ∧
          (∀ w ∈ warnings, w = registryEndpointOverrideWarning ∨ w = registryApiKeyWarning) ∧
          (registryEndpointOverrideWarning ∈ warnings ↔ HasWildcardHost lib raw descriptor) ∧
          (registryApiKeyWarning ∈ warnings ↔ RequiresApiKey raw))) ∧
    ∀ parsed,
      parseRegistryAgentCard lib serialize cardUrl raw descriptor allowLoopbackHttp =
        .ok (parsed, []) ↔
      EndpointAllowed descriptor allowLoopbackHttp ∧
        parseAgentCard lib serialize cardUrl raw false = .ok parsed ∧
        validateEndpoint lib parsed.selectedInterface.url = .ok descriptor := by
  have hselected : ∀ parsed, parseAgentCard lib serialize cardUrl raw false = .ok parsed →
      validateEndpoint lib parsed.selectedInterface.url = .ok descriptor →
      parsed.selectedInterface.url = serialize descriptor ∧
        sameOrigin cardUrl descriptor = true := by
    intro parsed hstrict hendpoint
    obtain ⟨-, text, url, hurl, hsame, htext⟩ := parseAgentCard_selects hstrict
    have hback := hserialize text url (validateEndpoint_eq_ok hurl)
    rw [htext] at hendpoint ⊢
    rw [validateEndpoint_eq_ok hendpoint] at hback
    obtain rfl := Option.some.inj hback
    exact ⟨rfl, hsame⟩
  constructor
  · intro parsed warnings h
    obtain ⟨-, horigin, ⟨hstrict, hendpoint, rfl⟩ | ⟨-, -, hcard⟩⟩ :=
      parseRegistryAgentCard_eq_ok.mp h
    · exact ⟨(hselected parsed hstrict hendpoint).1, horigin, (parseAgentCard_selects hstrict).1,
        fun hne => absurd rfl hne⟩
    · obtain ⟨hfirst, hurl, repaired, mismatch, rfl, hsecurity, hrepaired⟩ :=
        parseRegistryV1Card_selects hcard
      refine ⟨hurl, horigin, hfirst, fun _ => ?_⟩
      obtain ⟨hnodup, honly, hendpoint, hkey⟩ := @mem_repairWarnings repaired mismatch
      exact ⟨hnodup, honly, hendpoint.trans hrepaired,
        hkey.trans (validateRegistryAnonymousSecurity_eq_ok hsecurity).1⟩
  · intro parsed
    rw [parseRegistryAgentCard_unwarned]
    constructor
    · rintro ⟨hallowed, hstrict, -, hendpoint⟩
      exact ⟨hallowed, hstrict, hendpoint⟩
    · rintro ⟨hallowed, hstrict, hendpoint⟩
      exact ⟨hallowed, hstrict, (hselected parsed hstrict hendpoint).2, hendpoint⟩

/-! Cards of one agent. -/

def agentUrl (scheme host : Text) (port : Option ℕ) : Url where
  scheme := scheme
  host := some host
  port := port
  path := "/a2a".toList

def secureAgent : Url := agentUrl "https".toList "agent.test".toList none
def plainAgent : Url := agentUrl "http".toList "agent.test".toList none
def wildcardAgent : Url := agentUrl "http".toList "0.0.0.0".toList (some 8888)

/-- The texts of the three addresses. -/
def agentTexts : List (Text × Url) :=
  [("https://agent.test/a2a".toList, secureAgent), ("http://agent.test/a2a".toList, plainAgent),
    ("http://0.0.0.0:8888/a2a".toList, wildcardAgent)]

def agentLib : A2aLib where
  parseUrl text := agentTexts.lookup text
  toLowercase := toAsciiLowercase
  digestPrefix := fun _ => []

def agentText (url : Url) : Text :=
  ((agentTexts.find? fun entry => entry.2 = url).map Prod.fst).getD []

theorem agentText_parses (text : Text) (url : Url) (h : agentLib.parseUrl text = some url) :
    agentLib.parseUrl (agentText url) = some url := by
  obtain ⟨front, back, hsplit, -⟩ := List.lookup_eq_some_iff.mp h
  have hmem : (text, url) ∈ agentTexts := by
    rw [hsplit]
    exact List.mem_append_right _ (List.mem_cons_self ..)
  have hall : agentTexts.all fun entry =>
      decide (agentLib.parseUrl (agentText entry.2) = some entry.2) := by decide +kernel
  exact of_decide_eq_true (List.all_eq_true.mp hall _ hmem)

/-- A card with one interface, and what it says of its security. -/
def agentCard (endpoint : Text) (security : List (Text × Json)) : Json :=
  .object ([("name".toList, .string "Physics".toList),
    ("description".toList, .string "Specialist".toList), ("version".toList, .string "2".toList),
    ("supportedInterfaces".toList, .array [.object [("url".toList, .string endpoint),
      ("protocolBinding".toList, .string "JSONRPC".toList),
      ("protocolVersion".toList, .string "1.0".toList)]]),
    ("capabilities".toList, .object []),
    ("defaultInputModes".toList, .array [.string "text/plain".toList]),
    ("defaultOutputModes".toList, .array [.string "text/plain".toList]),
    ("skills".toList, .array [.object [("id".toList, .string "a".toList),
      ("name".toList, .string "A".toList), ("description".toList, .string "B".toList),
      ("tags".toList, .array [.string "c".toList])]])] ++ security)

/-- The API key that a registry tolerates. -/
def apiKeySecurity : List (Text × Json) :=
  [("securitySchemes".toList, .object [("apiKey".toList, .object [("apiKeySecurityScheme".toList,
      .object [("in".toList, .string "header".toList),
        ("name".toList, .string "X-API-Key".toList)])])]),
    ("securityRequirements".toList, .array [.object [("schemes".toList,
      .object [("apiKey".toList, .object [])])]])]

/-- A wildcard interface behind an API key is repaired, with both warnings. -/
theorem parseRegistryAgentCard_inside_descriptor_wildcard :
    ∃ parsed warnings, parseRegistryAgentCard agentLib agentText secureAgent
        (agentCard "http://0.0.0.0:8888/a2a".toList apiKeySecurity) secureAgent false =
          .ok (parsed, warnings) ∧
      warnings.length = 2 ∧ parsed.selectedInterface.url = "https://agent.test/a2a".toList := by
  have hrun : (match parseRegistryAgentCard agentLib agentText secureAgent
      (agentCard "http://0.0.0.0:8888/a2a".toList apiKeySecurity) secureAgent false with
    | .ok (_, warnings) => decide (warnings.length = 2)
    | .error _ => false) = true := by decide +kernel
  cases hparse : parseRegistryAgentCard agentLib agentText secureAgent
      (agentCard "http://0.0.0.0:8888/a2a".toList apiKeySecurity) secureAgent false with
  | error e =>
    rw [hparse] at hrun
    exact absurd hrun (by simp)
  | ok result =>
    obtain ⟨parsed, warnings⟩ := result
    rw [hparse] at hrun
    have hinside := (parseRegistryAgentCard_inside_descriptor agentLib agentText agentText_parses
      secureAgent _ secureAgent false).1 parsed warnings hparse
    exact ⟨parsed, warnings, rfl, of_decide_eq_true hrun, hinside.1⟩

theorem toOption_eq_some {ε α : Type} {x : Except ε α} {a : α} :
    x.toOption = some a ↔ x = .ok a := by
  cases x with
  | error e => exact ⟨fun h => absurd h (by simp [Except.toOption]), fun h => absurd h (by simp)⟩
  | ok b => simp [Except.toOption]

/-- The strict reader accepts the card of an agent without TLS and takes the descriptor's endpoint;
the lenient one refuses the descriptor. -/
theorem plain_descriptor_refused :
    (∃ parsed, parseAgentCard agentLib agentText plainAgent
        (agentCard "http://agent.test/a2a".toList []) false = .ok parsed ∧
      validateEndpoint agentLib parsed.selectedInterface.url = .ok plainAgent) ∧
      ∀ parsed allowLoopbackHttp, parseRegistryAgentCard agentLib agentText plainAgent
        (agentCard "http://agent.test/a2a".toList []) plainAgent allowLoopbackHttp ≠
          .ok (parsed, []) := by
  constructor
  · have hrun : ((parseAgentCard agentLib agentText plainAgent
        (agentCard "http://agent.test/a2a".toList []) false).toOption.bind fun parsed =>
          (validateEndpoint agentLib parsed.selectedInterface.url).toOption) =
            some plainAgent := by decide +kernel
    obtain ⟨parsed, hparsed, hendpoint⟩ := Option.bind_eq_some_iff.mp hrun
    exact ⟨parsed, toOption_eq_some.mp hparsed, toOption_eq_some.mp hendpoint⟩
  · intro parsed allowLoopbackHttp h
    rcases (parseRegistryAgentCard_unwarned.mp h).1 with hscheme | htest
    · exact absurd hscheme (by decide)
    · cases allowLoopbackHttp <;> exact absurd htest (by decide)

end DeepseekScience.A2a
