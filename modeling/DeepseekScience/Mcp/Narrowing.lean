import DeepseekScience.Mcp.SchemaMeaning
import DeepseekScience.Mcp.ToolSchema

/-! The narrowing of schemas. It drops what stands beside a union, so that it is sound exactly when
nothing that is dropped refuses a value which the rest accepts. -/
namespace DeepseekScience.Mcp

open Transactions

/-- Induction along properties and items. -/
theorem schema_induction {P : Json → Prop} (plain : ∀ v, v.isObject = false → P v)
    (object : ∀ members,
      (∀ properties, ("properties".toList, Json.object properties) ∈ members →
        ∀ m ∈ properties, P m.2) →
      (∀ items, ("items".toList, items) ∈ members → P items) → P (.object members))
    (v : Json) : P v := by
  induction hn : sizeOf v using Nat.strong_induction_on generalizing v with
  | h n ih =>
    cases v with
    | object members =>
      subst hn
      apply object
      · intro properties hproperties m hm
        apply ih _ _ _ rfl
        have hmember := List.sizeOf_lt_of_mem hproperties
        have hproperty := List.sizeOf_lt_of_mem hm
        obtain ⟨name, property⟩ := m
        simp only [Prod.mk.sizeOf_spec, Json.object.sizeOf_spec] at hmember hproperty ⊢
        omega
      · intro items hitems
        apply ih _ _ _ rfl
        have hmember := List.sizeOf_lt_of_mem hitems
        simp only [Prod.mk.sizeOf_spec, Json.object.sizeOf_spec] at hmember ⊢
        omega
    | null => exact plain _ rfl
    | bool b => exact plain _ rfl
    | number literal => exact plain _ rfl
    | string t => exact plain _ rfl
    | array items => exact plain _ rfl

section
variable {members branch : List (Text × Json)} {key : Text} {value : Json}

theorem mem_of_lookup {α : Type} {l : List (Text × α)} {a : α} (h : l.lookup key = some a) :
    (key, a) ∈ l := by
  obtain ⟨front, back, rfl, -⟩ := List.lookup_eq_some_iff.mp h
  exact List.mem_append_right _ (List.mem_cons_self ..)

/-! What a replacement is made of. -/

theorem onlyKeys_iff {keys : List Text} :
    onlyKeys keys members = true ↔ ∀ m ∈ members, m.1 ∈ keys := by
  simp [onlyKeys]

theorem scalarKind_eq_some {kind : Text} (h : scalarKind value = some (kind, members)) :
    value = .object members ∧ members.lookup "type".toList = some (.string kind) ∧
      kind ∈ scalarKinds ∧ ∀ m ∈ members, m.1 = "type".toList := by
  unfold scalarKind at h
  cases value with
  | object object =>
    dsimp only at h
    obtain ⟨k, hk, h⟩ := Option.bind_eq_some_iff.mp h
    split_ifs at h with hscalar
    obtain ⟨rfl, rfl⟩ := Prod.mk.inj (Option.some.inj h)
    obtain ⟨t, ht, hstr⟩ := Option.bind_eq_some_iff.mp hk
    rw [Bool.and_eq_true, onlyKeys_iff] at hscalar
    cases t with
    | string s =>
      obtain rfl : s = k := Option.some.inj hstr
      exact ⟨rfl, ht, by simpa using hscalar.1, fun m hm => List.mem_singleton.mp (hscalar.2 m hm)⟩
    | _ => exact absurd hstr (by simp [Json.asStr])
  | _ => exact absurd h (by simp)

/-- The scalar branch of a union. -/
structure ScalarBranch (members branch : List (Text × Json)) (kind : Text) : Prop where
  branches : ∃ branches, members.lookup "anyOf".toList = some (.array branches) ∧
    .object branch ∈ branches
  named : branch.lookup "type".toList = some (.string kind)
  scalar : kind ∈ scalarKinds
  keys : ∀ m ∈ branch, m.1 = "type".toList

theorem scalarBranch_of_unionBranch (h : unionBranch members = some branch) :
    ∃ kind, ScalarBranch members branch kind := by
  obtain ⟨branches, hbranches, hscalar⟩ := Option.bind_eq_some_iff.mp h
  obtain ⟨any, hany, harray⟩ := Option.bind_eq_some_iff.mp hbranches
  unfold simpleScalarOrArrayScalarBranch at hscalar
  split_ifs at hscalar with hlength
  obtain ⟨scalar, hfound, hmatch⟩ := Option.bind_eq_some_iff.mp hscalar
  split_ifs at hmatch with hmatching
  obtain rfl := Option.some.inj hmatch
  obtain ⟨b, hb, hkind⟩ := List.exists_of_findSome?_eq_some hfound
  obtain ⟨rfl, htype, hknown, hkeys⟩ := scalarKind_eq_some hkind
  cases any with
  | array items =>
    obtain rfl : items = branches := Option.some.inj harray
    exact ⟨scalar.1, ⟨items, hany, hb⟩, htype, hknown, hkeys⟩
  | _ => exact absurd harray (by simp [Json.asArray])

theorem lookup_annotate (hkey : key ∉ displayKeys) :
    (annotate members branch).lookup key = branch.lookup key := by
  unfold annotate
  generalize displayKeys = keys at hkey
  induction keys generalizing branch with
  | nil => rfl
  | cons k rest ih =>
    rw [List.foldl_cons, ih fun h => hkey (List.mem_cons_of_mem _ h)]
    cases members.lookup k with
    | none => rfl
    | some v =>
      show (insertEntry k v branch).lookup key = _
      rw [lookup_insertEntry, if_neg]
      rintro rfl
      exact hkey (List.mem_cons_self ..)

theorem mem_insertEntry {α : Type} {k : Text} {a : α} {l : List (Text × α)} {m : Text × α}
    (h : m ∈ insertEntry k a l) : m = (k, a) ∨ m ∈ l := by
  induction l with
  | nil => exact Or.inl (List.mem_singleton.mp h)
  | cons e rest ih =>
    obtain ⟨k', a'⟩ := e
    rw [insertEntry] at h
    split_ifs at h with heq hlt
    · rcases List.mem_cons.mp h with rfl | h
      · exact Or.inl rfl
      · exact Or.inr (List.mem_cons_of_mem _ h)
    · rcases List.mem_cons.mp h with rfl | h
      · exact Or.inl rfl
      · exact Or.inr h
    · rcases List.mem_cons.mp h with rfl | h
      · exact Or.inr (List.mem_cons_self ..)
      · exact (ih h).imp_right (List.mem_cons_of_mem _)

theorem mem_annotate {m : Text × Json} (h : m ∈ annotate members branch) :
    m.1 ∈ displayKeys ∨ m ∈ branch := by
  unfold annotate at h
  generalize displayKeys = keys at h ⊢
  induction keys generalizing branch with
  | nil => exact Or.inr h
  | cons k rest ih =>
    rw [List.foldl_cons] at h
    rcases ih h with hkey | hbranch
    · exact Or.inl (List.mem_cons_of_mem _ hkey)
    · cases hk : members.lookup k with
      | none => exact Or.inr (by simpa only [hk] using hbranch)
      | some v =>
        rw [hk] at hbranch
        rcases mem_insertEntry hbranch with rfl | hbranch
        · exact Or.inl (List.mem_cons_self ..)
        · exact Or.inr hbranch

/-- A replacement holds a type and annotations. -/
theorem keys_annotate {kind : Text} (h : ScalarBranch members branch kind) {m : Text × Json}
    (hm : m ∈ annotate members branch) : m.1 ∈ "type".toList :: displayKeys := by
  rcases mem_annotate hm with hkey | hbranch
  · exact List.mem_cons_of_mem _ hkey
  · rw [h.keys m hbranch]
    exact List.mem_cons_self ..

theorem lookup_annotate_eq_none {kind : Text} (h : ScalarBranch members branch kind)
    (hkey : key ∉ "type".toList :: displayKeys) : (annotate members branch).lookup key = none := by
  rw [List.lookup_eq_none_iff]
  intro m hm
  apply bne_iff_ne.mpr
  rintro rfl
  exact hkey (keys_annotate h hm)

/-! The walk along properties and items. -/

/-- What the walk does to the value of a keyword. -/
def narrowed (key : Text) (value : Json) : Json :=
  if key = "properties".toList then normalizeProperties value
  else if key = "items".toList then normalizeScalarOrArrayUnions value
  else value

theorem normalizeMembers_eq_map (members : List (Text × Json)) :
    normalizeMembers members = members.map fun m => (m.1, narrowed m.1 m.2) := by
  induction members with
  | nil => rfl
  | cons m rest ih => rw [normalizeMembers, ih, List.map_cons, narrowed]

theorem normalizeEach_eq_map (properties : List (Text × Json)) :
    normalizeEach properties =
      properties.map fun m => (m.1, normalizeScalarOrArrayUnions m.2) := by
  induction properties with
  | nil => rfl
  | cons m rest ih => rw [normalizeEach, ih, List.map_cons]

theorem lookup_map_value {α β : Type} (f : Text → α → β) (l : List (Text × α)) :
    (l.map fun m => (m.1, f m.1 m.2)).lookup key = (l.lookup key).map (f key) := by
  induction l with
  | nil => rfl
  | cons m rest ih =>
    rw [List.map_cons, List.lookup_cons, List.lookup_cons, ih]
    cases hkey : key == m.1 with
    | true =>
      obtain rfl := beq_iff_eq.mp hkey
      rfl
    | false => rfl

theorem lookup_normalizeMembers :
    (normalizeMembers members).lookup key = (members.lookup key).map (narrowed key) := by
  rw [normalizeMembers_eq_map, lookup_map_value narrowed]

theorem lookup_normalizeEach :
    (normalizeEach members).lookup key =
      (members.lookup key).map normalizeScalarOrArrayUnions := by
  rw [normalizeEach_eq_map, lookup_map_value fun _ => normalizeScalarOrArrayUnions]

theorem narrowed_eq_self (hproperties : key ≠ "properties".toList) (hitems : key ≠ "items".toList) :
    narrowed key value = value := by
  rw [narrowed, if_neg hproperties, if_neg hitems]

theorem unionBranch_normalizeMembers :
    unionBranch (normalizeMembers members) = unionBranch members := by
  unfold unionBranch
  rw [lookup_normalizeMembers]
  cases members.lookup "anyOf".toList with
  | none => rfl
  | some value =>
    rw [Option.map_some, narrowed_eq_self (by decide) (by decide)]

/-- Narrowing a narrowed schema changes nothing. -/
theorem normalize_idempotent (schema : Json) :
    normalizeScalarOrArrayUnions (normalizeScalarOrArrayUnions schema) =
      normalizeScalarOrArrayUnions schema := by
  induction schema using schema_induction with
  | plain v hv => cases v <;> first | rfl | exact absurd hv (by simp [Json.isObject])
  | object members hproperties hitems =>
    rw [normalizeScalarOrArrayUnions]
    cases hunion : unionBranch members with
    | some branch =>
      obtain ⟨kind, hbranch⟩ := scalarBranch_of_unionBranch hunion
      have hnone : unionBranch (annotate members branch) = none := by
        unfold unionBranch
        rw [lookup_annotate_eq_none hbranch (by decide)]
        rfl
      dsimp only
      rw [normalizeScalarOrArrayUnions, hnone]
      dsimp only
      rw [normalizeMembers_eq_map]
      congr 1
      rw [← List.map_id (annotate members branch), List.map_map]
      apply List.map_congr_left
      intro m hm
      have hkey := keys_annotate hbranch hm
      show (m.1, narrowed m.1 m.2) = m
      rw [narrowed_eq_self]
      · rintro hname
        rw [hname] at hkey
        exact absurd hkey (by decide)
      · rintro hname
        rw [hname] at hkey
        exact absurd hkey (by decide)
    | none =>
      dsimp only
      rw [normalizeScalarOrArrayUnions, unionBranch_normalizeMembers, hunion]
      dsimp only
      congr 1
      simp only [normalizeMembers_eq_map, List.map_map]
      apply List.map_congr_left
      rintro ⟨name, member⟩ hm
      show (name, narrowed name (narrowed name member)) = (name, narrowed name member)
      congr 1
      by_cases hname : name = "properties".toList
      · subst hname
        rw [narrowed, if_pos rfl, narrowed, if_pos rfl]
        cases member with
        | object properties =>
          show Json.object (normalizeEach (normalizeEach properties)) =
            .object (normalizeEach properties)
          congr 1
          simp only [normalizeEach_eq_map, List.map_map]
          apply List.map_congr_left
          intro p hp
          show (p.1, _) = _
          rw [hproperties properties hm p hp]
        | _ => rfl
      · by_cases hname' : name = "items".toList
        · subst hname'
          rw [narrowed, if_neg hname, if_pos rfl, narrowed, if_neg hname, if_pos rfl]
          exact hitems member hm
        · rw [narrowed_eq_self hname hname', narrowed_eq_self hname hname']

/-! The keywords of an accepted schema. -/

/-- The schemas that properties and items lead to. -/
inductive Reachable : Json → Json → Prop
  | self (schema : Json) : Reachable schema schema
  | property {schema properties : List (Text × Json)} {name : Text} {property reached : Json}
      (listed : schema.lookup "properties".toList = some (.object properties))
      (mem : (name, property) ∈ properties) (tail : Reachable property reached) :
      Reachable (.object schema) reached
  | items {schema : List (Text × Json)} {each reached : Json}
      (listed : schema.lookup "items".toList = some each) (tail : Reachable each reached) :
      Reachable (.object schema) reached

/-- Whatever is reached is an object with known keywords. -/
def OnlyAllowed (schema : Json) : Prop :=
  ∀ reached, Reachable schema reached →
    ∃ members, reached = .object members ∧ ∀ m ∈ members, m.1 ∈ allowedKeywords

theorem checkKeywords_eq_ok (h : checkKeywords members = .ok ()) :
    ∀ m ∈ members, m.1 ∈ allowedKeywords := by
  induction members with
  | nil => exact fun m hm => absurd hm List.not_mem_nil
  | cons m rest ih =>
    rw [checkKeywords] at h
    split_ifs at h with hallowed
    exact List.forall_mem_cons.mpr ⟨by simpa using hallowed, ih h⟩

theorem validateEach_eq_ok (h : validateEach members = .ok ()) :
    ∀ m ∈ members, validateSchemaObject false m.2 = .ok () := by
  induction members with
  | nil => exact fun m hm => absurd hm List.not_mem_nil
  | cons m rest ih =>
    rw [validateEach] at h
    split_ifs at h with hobject
    · obtain ⟨⟨⟩, hproperty, hrest⟩ := bind_eq_ok.mp h
      exact List.forall_mem_cons.mpr ⟨hproperty, ih hrest⟩
    · cases h

/-- The properties are an object of accepted schemas. -/
theorem validateProperties_eq_ok (h : validateProperties members = .ok ())
    (hlisted : members.lookup "properties".toList = some value) :
    ∃ properties, value = .object properties ∧
      ∀ m ∈ properties, validateSchemaObject false m.2 = .ok () := by
  induction members with
  | nil => exact absurd hlisted (by simp)
  | cons m rest ih =>
    rw [validateProperties] at h
    rw [List.lookup_cons] at hlisted
    split_ifs at h with hkey
    · rw [hkey, beq_self_eq_true] at hlisted
      obtain rfl : m.2 = value := Option.some.inj hlisted
      cases hvalue : m.2 with
      | object properties =>
        rw [hvalue] at h
        exact ⟨properties, rfl, validateEach_eq_ok h⟩
      | _ =>
        rw [hvalue] at h
        cases h
    · rw [beq_eq_false_iff_ne.mpr (Ne.symm hkey)] at hlisted
      exact ih h hlisted

theorem validateItems_eq_ok (h : validateItems members = .ok ())
    (hlisted : members.lookup "items".toList = some value) :
    validateSchemaObject false value = .ok () := by
  induction members with
  | nil => exact absurd hlisted (by simp)
  | cons m rest ih =>
    rw [validateItems] at h
    rw [List.lookup_cons] at hlisted
    split_ifs at h with hkey hobject
    · rw [hkey, beq_self_eq_true] at hlisted
      obtain rfl : m.2 = value := Option.some.inj hlisted
      exact h
    · rw [beq_eq_false_iff_ne.mpr (Ne.symm hkey)] at hlisted
      exact ih h hlisted

/-- An accepted schema has known keywords everywhere. -/
theorem onlyAllowed_of_valid {topLevel : Bool} {schema : Json}
    (h : validateSchemaObject topLevel schema = .ok ()) : OnlyAllowed schema := by
  intro reached hreached
  induction hreached generalizing topLevel with
  | self schema =>
    cases schema with
    | object members =>
      rw [validateSchemaObject] at h
      obtain ⟨⟨⟩, hkeywords, -⟩ := bind_eq_ok.mp h
      exact ⟨members, rfl, checkKeywords_eq_ok hkeywords⟩
    | _ => cases h
  | property listed mem tail ih =>
    rw [validateSchemaObject] at h
    obtain ⟨⟨⟩, -, h⟩ := bind_eq_ok.mp h
    obtain ⟨⟨⟩, -, h⟩ := bind_eq_ok.mp h
    obtain ⟨⟨⟩, hproperties, -⟩ := bind_eq_ok.mp h
    obtain ⟨properties, hvalue, hall⟩ := validateProperties_eq_ok hproperties listed
    obtain rfl := Json.object.inj hvalue
    exact ih (hall _ mem)
  | items listed tail ih =>
    rw [validateSchemaObject] at h
    obtain ⟨⟨⟩, -, h⟩ := bind_eq_ok.mp h
    obtain ⟨⟨⟩, -, h⟩ := bind_eq_ok.mp h
    obtain ⟨⟨⟩, -, h⟩ := bind_eq_ok.mp h
    obtain ⟨⟨⟩, -, h⟩ := bind_eq_ok.mp h
    obtain ⟨⟨⟩, -, h⟩ := bind_eq_ok.mp h
    obtain ⟨⟨⟩, hitems, -⟩ := bind_eq_ok.mp h
    exact ih (validateItems_eq_ok hitems listed)

theorem OnlyAllowed.keys (h : OnlyAllowed (.object members)) :
    ∀ m ∈ members, m.1 ∈ allowedKeywords := by
  obtain ⟨members', hsame, hkeys⟩ := h _ (Reachable.self _)
  obtain rfl := Json.object.inj hsame
  exact hkeys

theorem OnlyAllowed.lookup_eq_none (h : OnlyAllowed (.object members))
    (hkey : key ∉ allowedKeywords) : members.lookup key = none := by
  rw [List.lookup_eq_none_iff]
  intro m hm
  apply bne_iff_ne.mpr
  rintro rfl
  exact hkey (h.keys m hm)

theorem OnlyAllowed.property {properties : List (Text × Json)} {m : Text × Json}
    (h : OnlyAllowed (.object members))
    (hlisted : members.lookup "properties".toList = some (.object properties))
    (hm : m ∈ properties) : OnlyAllowed m.2 :=
  fun reached hreached => h reached (Reachable.property hlisted hm hreached)

theorem OnlyAllowed.items (h : OnlyAllowed (.object members))
    (hlisted : members.lookup "items".toList = some value) : OnlyAllowed value :=
  fun reached hreached => h reached (Reachable.items hlisted hreached)

theorem OnlyAllowed.object {schema : Json} (h : OnlyAllowed schema) :
    ∃ members, schema = .object members := by
  obtain ⟨members, hschema, -⟩ := h _ (Reachable.self _)
  exact ⟨members, hschema⟩

end

section
variable {D : Dialect} {members branch : List (Text × Json)} {key kind : Text} {value v : Json}

/-! What the accepted keywords mean. -/

theorem lookup_assertions {assertion : Json → Json → Prop}
    (h : D.assertions.lookup key = some assertion) {expected : Json} :
    D.Asserts members key expected v ↔ assertion expected v := by
  unfold Dialect.Asserts
  rw [h]

/-- Known keywords do not look at the schema around them. -/
theorem asserts_congr (hkey : key ∈ allowedKeywords) {members' : List (Text × Json)}
    {expected : Json} :
    D.Asserts members key expected v ↔ D.Asserts members' key expected v := by
  have hknown : (D.assertions.lookup key).isSome = true := by
    rw [List.lookup_isSome_iff]
    have hkeys : D.assertions.map Prod.fst = allowedKeywords ++ ["anyOf".toList] := rfl
    have hmem : key ∈ D.assertions.map Prod.fst := by
      rw [hkeys]
      exact List.mem_append_left _ hkey
    obtain ⟨m, hm, rfl⟩ := List.mem_map.mp hmem
    exact ⟨m, hm, beq_self_eq_true _⟩
  obtain ⟨assertion, hassertion⟩ := Option.isSome_iff_exists.mp hknown
  rw [lookup_assertions hassertion, lookup_assertions hassertion]

theorem asserts_type : D.Asserts members "type".toList (.string kind) v ↔ D.HasType kind v :=
  Iff.rfl

theorem asserts_of_mem_free {expected : Json}
    (hkey : key ∈ "anyOf".toList :: "properties".toList :: "items".toList :: displayKeys) :
    D.Asserts members key expected v := by
  have hfree : ∀ k ∈ "anyOf".toList :: "properties".toList :: "items".toList :: displayKeys,
      D.assertions.lookup k = some Dialect.Free := by
    intro k hk
    simp only [displayKeys, List.mem_cons, List.not_mem_nil, or_false] at hk
    rcases hk with rfl | rfl | rfl | rfl | rfl | rfl | rfl
    all_goals rfl
  exact (lookup_assertions (hfree key hkey)).mpr trivial

/-- A value of a scalar type has no parts. -/
structure IsScalar (v : Json) : Prop where
  noMember : ∀ name, v.get? name = none
  noItems : ∀ parts, v ≠ .array parts

theorem isScalar_of_hasType (hkind : kind ∈ scalarKinds) (h : D.HasType kind v) : IsScalar v := by
  cases h with
  | array items => exact absurd hkind (by decide)
  | object members => exact absurd hkind (by decide)
  | _ => exact ⟨fun _ => rfl, fun _ => Json.noConfusion⟩

/-- A schema accepts a scalar exactly when its assertions and its union do. -/
theorem validates_scalar_iff (hscalar : IsScalar v) :
    Validates D (.object members) v ↔
      (∀ keyword expected, members.lookup keyword = some expected →
        D.Asserts members keyword expected v) ∧
      ∀ branches, members.lookup "anyOf".toList = some (.array branches) →
        ValidatesAny D branches v := by
  constructor
  · intro h
    cases h with
    | object asserted properties additional items anyOf => exact ⟨asserted, anyOf⟩
  · rintro ⟨hasserted, hany⟩
    apply Validates.object hasserted
    · intro _ name _ _ _ _ hpart
      rw [hscalar.noMember name] at hpart
      cases hpart
    · intro _ name _ _ _ _ hpart
      rw [hscalar.noMember name] at hpart
      cases hpart
    · intro _ parts _ _ _ hparts
      exact absurd hparts (hscalar.noItems parts)
    · exact hany

/-- The scalar branch of a union accepts the values of its type. -/
theorem validates_branch (h : ScalarBranch members branch kind) (hv : D.HasType kind v) :
    Validates D (.object branch) v := by
  have hnone : ∀ key, key ≠ "type".toList → branch.lookup key = none := by
    intro key hkey
    rw [List.lookup_eq_none_iff]
    intro m hm
    rw [h.keys m hm]
    exact bne_iff_ne.mpr hkey
  rw [validates_scalar_iff (isScalar_of_hasType h.scalar hv)]
  constructor
  · intro keyword expected hexpected
    by_cases hkey : keyword = "type".toList
    · subst hkey
      rw [h.named] at hexpected
      obtain rfl := Option.some.inj hexpected
      exact asserts_type.mpr hv
    · rw [hnone keyword hkey] at hexpected
      cases hexpected
  · intro branches hbranches
    rw [hnone _ (by decide)] at hbranches
    cases hbranches

/-- A replacement accepts the values of its type, and no others. -/
theorem validates_annotate_iff (h : ScalarBranch members branch kind) :
    Validates D (.object (annotate members branch)) v ↔ D.HasType kind v := by
  have hnamed : (annotate members branch).lookup "type".toList = some (.string kind) := by
    rw [lookup_annotate (by decide), h.named]
  constructor
  · intro hv
    cases hv with
    | object asserted => exact asserts_type.mp (asserted _ _ hnamed)
  · intro hv
    rw [validates_scalar_iff (isScalar_of_hasType h.scalar hv)]
    constructor
    · intro keyword expected hexpected
      by_cases hkey : keyword = "type".toList
      · subst hkey
        rw [hnamed] at hexpected
        obtain rfl := Option.some.inj hexpected
        exact asserts_type.mpr hv
      · have hmem := keys_annotate h (mem_of_lookup hexpected)
        rcases List.mem_cons.mp hmem with hmem | hmem
        · exact absurd hmem hkey
        · apply asserts_of_mem_free
          simp only [List.mem_cons] at hmem ⊢
          exact Or.inr (Or.inr (Or.inr hmem))
    · intro branches hbranches
      rw [lookup_annotate_eq_none h (by decide)] at hbranches
      cases hbranches

/-! The schema read with every union as its scalar. -/

/-- What the schema accepts when a union stands for its scalar type alone, and nothing that stands
beside it counts. -/
inductive ReadsAsScalars (D : Dialect) : Json → Json → Prop
  | union {schema branch : List (Text × Json)} {kind : Text} {value : Json}
      (union : unionBranch schema = some branch)
      (named : branch.lookup "type".toList = some (.string kind)) (hasType : D.HasType kind value) :
      ReadsAsScalars D (.object schema) value
  | plain {schema : List (Text × Json)} {value : Json} (plain : unionBranch schema = none)
      (asserted : ∀ keyword expected, schema.lookup keyword = some expected →
        D.Asserts schema keyword expected value)
      (properties : ∀ properties name property part,
        schema.lookup "properties".toList = some (.object properties) →
        properties.lookup name = some property → value.get? name = some part →
        ReadsAsScalars D property part)
      (additional : ∀ rest name part,
        schema.lookup "additionalProperties".toList = some rest → isSchema rest = true →
        D.IsAdditional schema name → value.get? name = some part → Validates D rest part)
      (items : ∀ each parts part, schema.lookup "items".toList = some each →
        value = .array parts → part ∈ parts → ReadsAsScalars D each part) :
      ReadsAsScalars D (.object schema) value

/-- A union and the part of the value that it is asked about. -/
inductive UnionAt : Json → Json → List (Text × Json) → Json → Prop
  | here {schema branch : List (Text × Json)} {value : Json}
      (union : unionBranch schema = some branch) : UnionAt (.object schema) value schema value
  | property {schema properties union : List (Text × Json)} {name : Text}
      {value property part scalar : Json} (plain : unionBranch schema = none)
      (listed : schema.lookup "properties".toList = some (.object properties))
      (named : properties.lookup name = some property) (hpart : value.get? name = some part)
      (tail : UnionAt property part union scalar) : UnionAt (.object schema) value union scalar
  | items {schema union : List (Text × Json)} {each part scalar : Json} {parts : List Json}
      (plain : unionBranch schema = none)
      (listed : schema.lookup "items".toList = some each) (mem : part ∈ parts)
      (tail : UnionAt each part union scalar) :
      UnionAt (.object schema) (.array parts) union scalar

/-- What stands beside the union does not refuse the value. -/
def SiblingsAccept (D : Dialect) (union : List (Text × Json)) (value : Json) : Prop :=
  ∀ keyword expected, union.lookup keyword = some expected →
    D.Asserts union keyword expected value

/-- No value that the schema accepts as far as its unions are scalars is refused by what stands
beside one of them. -/
def NothingLost (D : Dialect) (schema : Json) : Prop :=
  ∀ value, ReadsAsScalars D schema value →
    ∀ union scalar, UnionAt schema value union scalar → SiblingsAccept D union scalar

/-- Whatever the first schema accepts the second one does. -/
def Narrows (D : Dialect) (mounted original : Json) : Prop :=
  ∀ value, Validates D mounted value → Validates D original value

/-! The walk keeps the meaning of what it does not replace. -/

theorem normalize_union (h : unionBranch members = some branch) :
    normalizeScalarOrArrayUnions (.object members) = .object (annotate members branch) := by
  rw [normalizeScalarOrArrayUnions, h]

theorem normalize_plain (h : unionBranch members = none) :
    normalizeScalarOrArrayUnions (.object members) = .object (normalizeMembers members) := by
  rw [normalizeScalarOrArrayUnions, h]

theorem isObject_normalize {schema : Json} :
    (normalizeScalarOrArrayUnions schema).isObject = schema.isObject := by
  cases schema with
  | object members =>
    rw [normalizeScalarOrArrayUnions]
    cases unionBranch members with
    | none => rfl
    | some branch => rfl
  | _ => rfl

theorem keys_of_normalizeMembers (h : OnlyAllowed (.object (normalizeMembers members))) :
    ∀ m ∈ members, m.1 ∈ allowedKeywords := by
  intro m hm
  apply h.keys (m.1, narrowed m.1 m.2)
  rw [normalizeMembers_eq_map]
  exact List.mem_map_of_mem hm

theorem lookup_eq_none_of_keys (h : ∀ m ∈ members, m.1 ∈ allowedKeywords)
    (hkey : key ∉ allowedKeywords) : members.lookup key = none := by
  rw [List.lookup_eq_none_iff]
  intro m hm
  apply bne_iff_ne.mpr
  rintro rfl
  exact hkey (h m hm)

theorem lookup_normalize_properties {narrow : List (Text × Json)} :
    (normalizeMembers members).lookup "properties".toList = some (.object narrow) ↔
      ∃ properties, members.lookup "properties".toList = some (.object properties) ∧
        normalizeEach properties = narrow := by
  rw [lookup_normalizeMembers, Option.map_eq_some_iff]
  constructor
  · rintro ⟨listed, hlisted, hnarrow⟩
    rw [narrowed, if_pos rfl] at hnarrow
    cases listed with
    | object properties => exact ⟨properties, hlisted, Json.object.inj hnarrow⟩
    | _ => cases hnarrow
  · rintro ⟨properties, hlisted, rfl⟩
    exact ⟨.object properties, hlisted, by rw [narrowed, if_pos rfl, normalizeProperties]⟩

theorem lookup_normalize_items {narrow : Json} :
    (normalizeMembers members).lookup "items".toList = some narrow ↔
      ∃ each, members.lookup "items".toList = some each ∧
        normalizeScalarOrArrayUnions each = narrow := by
  rw [lookup_normalizeMembers, Option.map_eq_some_iff]
  have hnarrowed : ∀ each, narrowed "items".toList each = normalizeScalarOrArrayUnions each := by
    intro each
    rw [narrowed, if_neg (by decide), if_pos rfl]
  simp only [hnarrowed]

theorem lookup_normalize_other (hproperties : key ≠ "properties".toList)
    (hitems : key ≠ "items".toList) :
    (normalizeMembers members).lookup key = members.lookup key := by
  rw [lookup_normalizeMembers]
  cases members.lookup key with
  | none => rfl
  | some value => rw [Option.map_some, narrowed_eq_self hproperties hitems]

/-- The names of the properties stay as they are. -/
theorem isAdditional_normalize {name : Text} :
    D.IsAdditional (normalizeMembers members) name ↔ D.IsAdditional members name := by
  have hpatterns : (normalizeMembers members).lookup "patternProperties".toList =
      members.lookup "patternProperties".toList := lookup_normalize_other (by decide) (by decide)
  unfold Dialect.IsAdditional
  rw [hpatterns, lookup_normalizeMembers]
  apply and_congr_left
  intro _
  cases members.lookup "properties".toList with
  | none => exact Iff.rfl
  | some listed =>
    rw [Option.map_some, narrowed, if_pos rfl, Option.getD_some, Option.getD_some]
    cases listed with
    | object properties =>
      show (List.lookup name (normalizeEach properties)).isNone = true ↔
        (List.lookup name properties).isNone = true
      rw [lookup_normalizeEach, Option.isNone_map]
    | _ => exact Iff.rfl

theorem tupleLength_of_keys (h : ∀ m ∈ members, m.1 ∈ allowedKeywords) :
    tupleLength members = 0 := by
  unfold tupleLength
  rw [lookup_eq_none_of_keys h (by decide)]
  rfl

/-- The assertions of an accepted schema are those in front of the walk. -/
theorem asserts_normalize (h : ∀ m ∈ members, m.1 ∈ allowedKeywords) :
    (∀ keyword expected, (normalizeMembers members).lookup keyword = some expected →
        D.Asserts (normalizeMembers members) keyword expected v) ↔
      ∀ keyword expected, members.lookup keyword = some expected →
        D.Asserts members keyword expected v := by
  have hsame : ∀ keyword, (∀ expected, (normalizeMembers members).lookup keyword = some expected →
        D.Asserts (normalizeMembers members) keyword expected v) ↔
      ∀ expected, members.lookup keyword = some expected →
        D.Asserts members keyword expected v := by
    intro keyword
    by_cases hproperties : keyword = "properties".toList
    · subst hproperties
      exact iff_of_true (fun _ _ => asserts_of_mem_free (by decide))
        fun _ _ => asserts_of_mem_free (by decide)
    by_cases hitems : keyword = "items".toList
    · subst hitems
      exact iff_of_true (fun _ _ => asserts_of_mem_free (by decide))
        fun _ _ => asserts_of_mem_free (by decide)
    rw [lookup_normalize_other hproperties hitems]
    apply forall_congr'
    intro expected
    apply imp_congr_right
    intro hlisted
    exact asserts_congr (h _ (mem_of_lookup hlisted))
  exact forall_congr' hsame

/-- The mounted schema accepts what the original one does with its unions read as scalars, by
induction along properties and items. -/
theorem validates_normalize_iff {schema : Json}
    (h : OnlyAllowed (normalizeScalarOrArrayUnions schema)) (value : Json) :
    Validates D (normalizeScalarOrArrayUnions schema) value ↔ ReadsAsScalars D schema value := by
  induction schema using schema_induction generalizing value with
  | plain schema hschema =>
    obtain ⟨members, hobject⟩ := h.object
    have hplain := @isObject_normalize schema
    rw [hobject, hschema] at hplain
    cases hplain
  | object members ihproperties ihitems =>
    cases hunion : unionBranch members with
    | some branch =>
      obtain ⟨kind, hbranch⟩ := scalarBranch_of_unionBranch hunion
      rw [normalize_union hunion, validates_annotate_iff hbranch]
      constructor
      · exact ReadsAsScalars.union hunion hbranch.named
      · intro hreads
        cases hreads with
        | union hunion' hnamed htype =>
          obtain rfl := Option.some.inj (hunion.symm.trans hunion')
          obtain rfl := Json.string.inj (Option.some.inj (hbranch.named.symm.trans hnamed))
          exact htype
        | plain hplain =>
          rw [hunion] at hplain
          cases hplain
    | none =>
      rw [normalize_plain hunion] at h ⊢
      have hkeys := keys_of_normalizeMembers h
      have hproperty : ∀ {properties name property}, members.lookup "properties".toList =
            some (.object properties) → properties.lookup name = some property →
          ∀ part, Validates D (normalizeScalarOrArrayUnions property) part ↔
            ReadsAsScalars D property part := by
        intro properties name property hlisted hnamed
        have hmem := mem_of_lookup hnamed
        apply ihproperties properties (mem_of_lookup hlisted) (name, property) hmem
        have hmem' : (name, normalizeScalarOrArrayUnions property) ∈ normalizeEach properties := by
          rw [normalizeEach_eq_map]
          exact List.mem_map_of_mem hmem
        exact h.property (lookup_normalize_properties.mpr ⟨properties, hlisted, rfl⟩) hmem'
      have hitem : ∀ {each}, members.lookup "items".toList = some each →
          OnlyAllowed (normalizeScalarOrArrayUnions each) ∧
            ∀ part, Validates D (normalizeScalarOrArrayUnions each) part ↔
              ReadsAsScalars D each part := by
        intro each hlisted
        have hallowed := h.items (lookup_normalize_items.mpr ⟨each, hlisted, rfl⟩)
        exact ⟨hallowed, ihitems each (mem_of_lookup hlisted) hallowed⟩
      constructor
      · intro hv
        cases hv with
        | object asserted properties additional items =>
          apply ReadsAsScalars.plain hunion ((asserts_normalize hkeys).mp asserted)
          · intro ps name property part hlisted hnamed hpart
            rw [← hproperty hlisted hnamed]
            apply properties _ name _ part
              (lookup_normalize_properties.mpr ⟨ps, hlisted, rfl⟩) _ hpart
            rw [lookup_normalizeEach, hnamed, Option.map_some]
          · intro rest name part hlisted hschema hadditional hpart
            apply additional rest name part _ hschema
              ((isAdditional_normalize).mpr hadditional) hpart
            rw [lookup_normalize_other (by decide) (by decide), hlisted]
          · intro each parts part hlisted hparts hmem
            obtain ⟨hallowed, hiff⟩ := hitem hlisted
            obtain ⟨object, hobject⟩ := hallowed.object
            rw [← hiff]
            apply items _ parts part (lookup_normalize_items.mpr ⟨each, hlisted, rfl⟩) _ hparts
            · rw [tupleLength_of_keys h.keys, List.drop_zero]
              exact hmem
            · rw [hobject]
              rfl
      · intro hreads
        cases hreads with
        | union hunion' =>
          rw [hunion] at hunion'
          cases hunion'
        | plain _ asserted properties additional items =>
          apply Validates.object ((asserts_normalize hkeys).mpr asserted)
          · intro narrow name property part hlisted hnamed hpart
            obtain ⟨ps, hlisted', rfl⟩ := lookup_normalize_properties.mp hlisted
            rw [lookup_normalizeEach, Option.map_eq_some_iff] at hnamed
            obtain ⟨property, hnamed, rfl⟩ := hnamed
            rw [hproperty hlisted' hnamed]
            exact properties ps name property part hlisted' hnamed hpart
          · intro rest name part hlisted hschema hadditional hpart
            rw [lookup_normalize_other (by decide) (by decide)] at hlisted
            exact additional rest name part hlisted hschema
              ((isAdditional_normalize).mp hadditional) hpart
          · intro narrow parts part hlisted hschema hparts hmem
            obtain ⟨each, hlisted', rfl⟩ := lookup_normalize_items.mp hlisted
            rw [tupleLength_of_keys h.keys, List.drop_zero] at hmem
            rw [(hitem hlisted').2]
            exact items each parts part hlisted' hparts hmem
          · intro branches hbranches
            rw [lookup_eq_none_of_keys h.keys (by decide)] at hbranches
            cases hbranches

/-- A union accepts a scalar of its type exactly when its siblings do. -/
theorem validates_union_iff (h : ScalarBranch members branch kind) (hv : D.HasType kind v) :
    Validates D (.object members) v ↔ SiblingsAccept D members v := by
  rw [validates_scalar_iff (isScalar_of_hasType h.scalar hv)]
  constructor
  · exact fun hboth => hboth.1
  · intro hsiblings
    refine ⟨hsiblings, fun branches hbranches => ?_⟩
    obtain ⟨branches', hbranches', hmem⟩ := h.branches
    obtain rfl := Json.array.inj (Option.some.inj (hbranches.symm.trans hbranches'))
    exact ValidatesAny.of_mem hmem (validates_branch h hv)

/-- A value that is read so is accepted exactly when the siblings of all unions accept their parts
of it. -/
theorem validates_iff_siblings {schema : Json}
    (h : OnlyAllowed (normalizeScalarOrArrayUnions schema)) (hreads : ReadsAsScalars D schema v) :
    Validates D schema v ↔
      ∀ union scalar, UnionAt schema v union scalar → SiblingsAccept D union scalar := by
  induction hreads with
  | @union schema branch kind value hunion hnamed htype =>
    obtain ⟨kind', hbranch⟩ := scalarBranch_of_unionBranch hunion
    obtain rfl := Json.string.inj (Option.some.inj (hbranch.named.symm.trans hnamed))
    rw [validates_union_iff hbranch htype]
    constructor
    · intro hsiblings union scalar hat
      cases hat with
      | here => exact hsiblings
      | property hplain =>
        rw [hunion] at hplain
        cases hplain
      | items hplain =>
        rw [hunion] at hplain
        cases hplain
    · exact fun hall => hall schema value (UnionAt.here hunion)
  | @plain schema value hplain asserted properties additional items ihproperties ihitems =>
    rw [normalize_plain hplain] at h
    have hkeys := keys_of_normalizeMembers h
    have hproperty : ∀ {properties name property},
        schema.lookup "properties".toList = some (.object properties) →
        properties.lookup name = some property →
        OnlyAllowed (normalizeScalarOrArrayUnions property) := by
      intro properties name property hlisted hnamed
      have hmem : (name, normalizeScalarOrArrayUnions property) ∈ normalizeEach properties := by
        rw [normalizeEach_eq_map]
        exact List.mem_map_of_mem (mem_of_lookup hnamed)
      exact h.property (lookup_normalize_properties.mpr ⟨properties, hlisted, rfl⟩) hmem
    have hitem : ∀ {each}, schema.lookup "items".toList = some each →
        OnlyAllowed (normalizeScalarOrArrayUnions each) := fun hlisted =>
      h.items (lookup_normalize_items.mpr ⟨_, hlisted, rfl⟩)
    constructor
    · intro hv union scalar hat
      cases hv with
      | object _ vproperties _ vitems =>
        cases hat with
        | here hunion =>
          rw [hplain] at hunion
          cases hunion
        | property _ hlisted hnamed hpart tail =>
          apply (ihproperties _ _ _ _ hlisted hnamed hpart (hproperty hlisted hnamed)).mp _ _ _ tail
          exact vproperties _ _ _ _ hlisted hnamed hpart
        | @items _ _ each part _ parts _ hlisted hmem tail =>
          apply (ihitems _ _ _ hlisted rfl hmem (hitem hlisted)).mp _ _ _ tail
          apply vitems each parts part hlisted _ rfl
          · rw [tupleLength_of_keys hkeys, List.drop_zero]
            exact hmem
          · obtain ⟨object, hobject⟩ := (hitem hlisted).object
            have hkind := @isObject_normalize each
            rw [hobject] at hkind
            cases each with
            | object _ => rfl
            | _ => cases hkind
    · intro hall
      apply Validates.object asserted
      · intro ps name property part hlisted hnamed hpart
        apply (ihproperties _ _ _ _ hlisted hnamed hpart (hproperty hlisted hnamed)).mpr
        exact fun union scalar hat =>
          hall union scalar (UnionAt.property hplain hlisted hnamed hpart hat)
      · exact additional
      · intro each parts part hlisted _ hparts hmem
        subst hparts
        rw [tupleLength_of_keys hkeys, List.drop_zero] at hmem
        apply (ihitems _ _ _ hlisted rfl hmem (hitem hlisted)).mpr
        exact fun union scalar hat => hall union scalar (UnionAt.items hplain hlisted hmem hat)
      · intro branches hbranches
        rw [lookup_eq_none_of_keys hkeys (by decide)] at hbranches
        cases hbranches

/-- The narrowing of an accepted schema is sound exactly when nothing is lost. -/
theorem narrows_iff {schema : Json} (h : OnlyAllowed (normalizeScalarOrArrayUnions schema)) :
    Narrows D (normalizeScalarOrArrayUnions schema) schema ↔ NothingLost D schema := by
  constructor
  · intro hnarrows value hreads
    apply (validates_iff_siblings h hreads).mp
    exact hnarrows value ((validates_normalize_iff h value).mpr hreads)
  · intro hnothing value hv
    have hreads := (validates_normalize_iff h value).mp hv
    exact (validates_iff_siblings h hreads).mpr (hnothing value hreads)

/-- With nothing but annotations beside its unions a schema loses nothing. -/
theorem nothingLost_of_display {schema : Json}
    (h : ∀ value union scalar, UnionAt schema value union scalar →
      ∀ m ∈ union, m.1 ∈ "anyOf".toList :: displayKeys) : NothingLost D schema := by
  intro value _ union scalar hat keyword expected hexpected
  apply asserts_of_mem_free
  have hkey := h value union scalar hat _ (mem_of_lookup hexpected)
  simp only [List.mem_cons] at hkey ⊢
  exact hkey.imp_right fun hdisplay => Or.inr (Or.inr hdisplay)

/-! The schema of a tool. -/

theorem parseTool_schema {tool : McpTool} (h : parseTool value = .ok tool) :
    tool.inputSchema = normalizeScalarOrArrayUnions (inputSchemaOf value) ∧
      OnlyAllowed tool.inputSchema := by
  obtain ⟨name, -, h⟩ := bind_eq_ok.mp h
  obtain ⟨description, -, h⟩ := bind_eq_ok.mp h
  obtain ⟨⟨⟩, hchecked, h⟩ := bind_eq_ok.mp h
  obtain ⟨annotations, -, h⟩ := bind_eq_ok.mp h
  obtain rfl := pure_eq_ok.mp h
  refine ⟨rfl, ?_⟩
  dsimp only
  generalize normalizeScalarOrArrayUnions (inputSchemaOf value) = schema at hchecked ⊢
  cases hvalid : validateToolInputSchema schema with
  | error message =>
    rw [hvalid] at hchecked
    cases hchecked
  | ok _ =>
    apply @onlyAllowed_of_valid true
    unfold validateToolInputSchema at hvalid
    cases schema with
    | object members =>
      dsimp only at hvalid
      split at hvalid
      · exact hvalid
      · split_ifs at hvalid
        exact hvalid
      · cases hvalid
    | _ => cases hvalid

/-- What is mounted for an accepted tool has known keywords only and is not narrowed further; and
what it accepts the server's schema does, exactly when nothing is lost. -/
theorem parseTool_narrows_iff (D : Dialect) {value : Json} {tool : McpTool}
    (h : parseTool value = .ok tool) :
    (Narrows D tool.inputSchema (inputSchemaOf value) ∧ OnlyAllowed tool.inputSchema ∧
      normalizeScalarOrArrayUnions tool.inputSchema = tool.inputSchema) ↔
    NothingLost D (inputSchemaOf value) := by
  obtain ⟨hschema, hallowed⟩ := parseTool_schema h
  rw [hschema] at hallowed ⊢
  rw [narrows_iff hallowed]
  constructor
  · exact fun hall => hall.1
  · exact fun hnothing => ⟨hnothing, hallowed, normalize_idempotent _⟩

end

/-! A search with one term or several. -/

def textUnion : List (Text × Json) :=
  [("anyOf".toList, .array [.object [("type".toList, .string "string".toList)],
    .object [("items".toList, .object [("type".toList, .string "string".toList)]),
      ("type".toList, .string "array".toList)]])]

/-- The definition of the tool, with something beside the union. -/
def searchTool (beside : Text × Json) : Json :=
  .object [("inputSchema".toList, .object [
      ("properties".toList, .object [("q".toList, .object (textUnion ++ [beside]))]),
      ("type".toList, .string "object".toList)]),
    ("name".toList, .string "search".toList)]

def mountedSearch (beside : List (Text × Json)) : McpTool where
  name := "search".toList
  inputSchema := .object [
    ("properties".toList, .object [("q".toList,
      .object (beside ++ [("type".toList, .string "string".toList)]))]),
    ("type".toList, .string "object".toList)]

def plainDialect : Dialect where
  number := fun _ => 0
  equal := Eq
  occursIn := fun pattern t => pattern <:+: t
  format := fun _ _ => True
  other := fun _ _ _ _ => True

theorem unionBranch_search (beside : Text × Json) :
    unionBranch (textUnion ++ [beside]) = some [("type".toList, .string "string".toList)] := rfl

/-- The tool has one union, that of its property. -/
theorem unionAt_searchTool {beside : Text × Json} {value scalar : Json}
    {union : List (Text × Json)}
    (h : UnionAt (inputSchemaOf (searchTool beside)) value union scalar) :
    union = textUnion ++ [beside] := by
  cases h with
  | here hunion => cases hunion
  | items _ hlisted => cases hlisted
  | @property _ properties _ name _ property _ _ _ hlisted hnamed _ tail =>
    obtain rfl : [("q".toList, Json.object (textUnion ++ [beside]))] = properties :=
      Json.object.inj (Option.some.inj hlisted)
    have hmem := mem_of_lookup hnamed
    rw [List.mem_singleton] at hmem
    obtain ⟨-, rfl⟩ := Prod.mk.inj hmem
    cases tail with
    | here => rfl
    | property hplain =>
      rw [unionBranch_search] at hplain
      cases hplain
    | items hplain =>
      rw [unionBranch_search] at hplain
      cases hplain

theorem parseTool_narrows_described :
    parseTool (searchTool ("description".toList, .string "Terms".toList)) =
      .ok (mountedSearch [("description".toList, .string "Terms".toList)]) ∧
    Narrows plainDialect (mountedSearch [("description".toList, .string "Terms".toList)]).inputSchema
      (inputSchemaOf (searchTool ("description".toList, .string "Terms".toList))) := by
  have hparsed : parseTool (searchTool ("description".toList, .string "Terms".toList)) =
      .ok (mountedSearch [("description".toList, .string "Terms".toList)]) := rfl
  refine ⟨hparsed, ((parseTool_narrows_iff plainDialect hparsed).mpr ?_).1⟩
  apply nothingLost_of_display
  intro value union scalar hat m hm
  rw [unionAt_searchTool hat] at hm
  rcases List.mem_append.mp hm with hm | hm
  · obtain rfl := List.mem_singleton.mp hm
    exact List.mem_cons_self ..
  · obtain rfl := List.mem_singleton.mp hm
    show "description".toList ∈ "anyOf".toList :: displayKeys
    decide

/-- A term is read by the schema as far as its union is a scalar. -/
theorem readsAsScalars_search (D : Dialect) (beside : Text × Json) (term : Text) :
    ReadsAsScalars D (inputSchemaOf (searchTool beside))
      (.object [("q".toList, .string term)]) := by
  apply ReadsAsScalars.plain rfl
  · intro keyword expected hexpected
    have hmem := mem_of_lookup hexpected
    simp only [List.mem_cons, List.not_mem_nil, or_false, Prod.mk.injEq] at hmem
    rcases hmem with ⟨rfl, rfl⟩ | ⟨rfl, rfl⟩
    · exact asserts_of_mem_free (by decide)
    · exact asserts_type.mpr (Dialect.HasType.object _)
  · intro properties name property part hlisted hnamed hpart
    obtain rfl : [("q".toList, Json.object (textUnion ++ [beside]))] = properties :=
      Json.object.inj (Option.some.inj hlisted)
    have hmem := mem_of_lookup hnamed
    rw [List.mem_singleton] at hmem
    obtain ⟨rfl, rfl⟩ := Prod.mk.inj hmem
    obtain rfl : Json.string term = part := Option.some.inj hpart
    exact ReadsAsScalars.union (unionBranch_search beside) rfl (Dialect.HasType.string term)
  · intro rest name part hlisted
    cases hlisted
  · intro each parts part hlisted
    cases hlisted

/-- The length that stands beside the union is dropped, and a term is mounted that the server
refuses. -/
theorem minLength_lost :
    parseTool (searchTool ("minLength".toList, .number "3".toList)) = .ok (mountedSearch []) ∧
    ∀ D : Dialect, ¬ Narrows D (mountedSearch []).inputSchema
      (inputSchemaOf (searchTool ("minLength".toList, .number "3".toList))) := by
  have hparsed : parseTool (searchTool ("minLength".toList, .number "3".toList)) =
      .ok (mountedSearch []) := rfl
  refine ⟨hparsed, fun D hnarrows => ?_⟩
  obtain ⟨hschema, hallowed⟩ := parseTool_schema hparsed
  rw [hschema] at hnarrows hallowed
  have hreads := readsAsScalars_search D ("minLength".toList, .number "3".toList) "a".toList
  have hat : UnionAt (inputSchemaOf (searchTool ("minLength".toList, .number "3".toList)))
      (.object [("q".toList, .string "a".toList)])
      (textUnion ++ [("minLength".toList, .number "3".toList)]) (.string "a".toList) := by
    have hnamed : [("q".toList, Json.object (textUnion ++
        [("minLength".toList, .number "3".toList)]))].lookup "q".toList =
        some (.object (textUnion ++ [("minLength".toList, .number "3".toList)])) := rfl
    exact UnionAt.property rfl rfl hnamed rfl (UnionAt.here (unionBranch_search _))
  have hsiblings := (narrows_iff hallowed).mp hnarrows _ hreads _ _ hat
  have hlength : 3 ≤ 1 := hsiblings "minLength".toList (.number "3".toList) rfl
  omega

end DeepseekScience.Mcp
