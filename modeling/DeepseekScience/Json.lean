import DeepseekScience.Text

/-! JSON values, and the serializer that the sources take from a package. -/
namespace DeepseekScience

inductive Json where
  | null
  | bool (value : Bool)
  | number (literal : Text)
  | string (value : Text)
  | array (items : List Json)
  | object (members : List (Text × Json))

namespace Json

/-- `Value::index` with a key: null for whatever is not a member. -/
def get (key : Text) : Json → Json
  | .object members => (members.lookup key).getD .null
  | _ => .null

/-- `Value::get` with a key. -/
def get? (key : Text) : Json → Option Json
  | .object members => members.lookup key
  | _ => none

def asStr : Json → Option Text
  | .string value => some value
  | _ => none

def asArray : Json → Option (List Json)
  | .array items => some items
  | _ => none

def isObject : Json → Bool
  | .object _ => true
  | _ => false

/-- `Value::as_u64`: the value of an unsigned literal that fits. -/
def asU64 : Json → Option ℕ
  | .number literal =>
    let value := literal.foldl (fun n c => n * 10 + (c.toNat - '0'.toNat)) 0
    if !literal.isEmpty && literal.all Char.isDigit && decide (value < 2 ^ 64) then some value
    else none
  | _ => none

/-- A property of every value, from the parts to the whole. -/
@[elab_as_elim]
theorem part_induction {P : Json → Prop} (null : P .null) (bool : ∀ value, P (.bool value))
    (number : ∀ literal, P (.number literal)) (string : ∀ value, P (.string value))
    (array : ∀ items, (∀ item ∈ items, P item) → P (.array items))
    (object : ∀ members, (∀ member ∈ members, P member.2) → P (.object members))
    (value : Json) : P value :=
  @Json.rec P (fun items => ∀ item ∈ items, P item) (fun members => ∀ member ∈ members, P member.2)
    (fun member => P member.2) null bool number string array object
    (by simp) (fun _ _ head tail => List.forall_mem_cons.mpr ⟨head, tail⟩)
    (by simp) (fun _ _ head tail => List.forall_mem_cons.mpr ⟨head, tail⟩) (fun _ _ value => value)
    value

end Json

/-- Reading and printing of JSON text; `serde_json` is not part of the sources. -/
structure SerdeJson where
  fromStr : Text → Option Json
  toText : Json → Text

/-- `Map::insert` for a key that the map does not contain: members stay sorted by key. -/
def insertMember (key : Text) (value : Json) : List (Text × Json) → List (Text × Json)
  | [] => [(key, value)]
  | (k, v) :: rest =>
    if key < k then (key, value) :: (k, v) :: rest else (k, v) :: insertMember key value rest

theorem insertMember_perm (key : Text) (value : Json) (members : List (Text × Json)) :
    (insertMember key value members).Perm ((key, value) :: members) := by
  induction members with
  | nil => exact List.Perm.refl _
  | cons m rest ih =>
    obtain ⟨k, v⟩ := m
    simp only [insertMember]
    split_ifs
    · exact List.Perm.refl _
    · exact (ih.cons (k, v)).trans (List.Perm.swap _ _ _)

theorem length_insertMember (key : Text) (value : Json) (members : List (Text × Json)) :
    (insertMember key value members).length = members.length + 1 :=
  (insertMember_perm key value members).length_eq

theorem lookup_insertMember {key : Text} {value : Json} {members : List (Text × Json)}
    (fresh : members.lookup key = none) (k : Text) :
    (insertMember key value members).lookup k =
      if k = key then some value else members.lookup k := by
  induction members with
  | nil => by_cases h : k = key <;> simp [insertMember, List.lookup_cons, h, beq_eq_false_iff_ne.mpr]
  | cons m rest ih =>
    obtain ⟨k', v⟩ := m
    have hk : key ≠ k' := by
      rintro rfl
      simp at fresh
    have hrest : rest.lookup key = none := by
      simpa [List.lookup_cons, beq_eq_false_iff_ne.mpr hk] using fresh
    simp only [insertMember]
    split_ifs with hlt heq heq
    · subst heq
      simp
    · simp [List.lookup_cons, beq_eq_false_iff_ne.mpr heq]
    · subst heq
      simp [List.lookup_cons, beq_eq_false_iff_ne.mpr hk, ih hrest]
    · have := ih hrest
      simp only [heq, if_false] at this
      simp only [List.lookup_cons, this]

/-- `BTreeMap::insert`: replace the value of a key, or put it where the order of keys has it. -/
def insertEntry {α : Type} (key : Text) (value : α) : List (Text × α) → List (Text × α)
  | [] => [(key, value)]
  | (k, v) :: rest =>
    if key = k then (key, value) :: rest
    else if key < k then (key, value) :: (k, v) :: rest
    else (k, v) :: insertEntry key value rest

@[simp] theorem lookup_insertEntry {α : Type} (key : Text) (value : α)
    (entries : List (Text × α)) (k : Text) :
    (insertEntry key value entries).lookup k =
      if k = key then some value else entries.lookup k := by
  induction entries with
  | nil => by_cases h : k = key <;> simp [insertEntry, List.lookup_cons, h, beq_eq_false_iff_ne.mpr]
  | cons e rest ih =>
    obtain ⟨k', v⟩ := e
    simp only [insertEntry]
    by_cases h : k = key
    · subst h
      rw [if_pos rfl] at ih ⊢
      split_ifs with heq hlt
      · simp
      · simp
      · simpa [List.lookup_cons, beq_eq_false_iff_ne.mpr heq] using ih
    · rw [if_neg h] at ih ⊢
      split_ifs with heq hlt
      · subst heq
        simp [List.lookup_cons, beq_eq_false_iff_ne.mpr h]
      · simp [List.lookup_cons, beq_eq_false_iff_ne.mpr h]
      · simp only [List.lookup_cons, ih]

end DeepseekScience
