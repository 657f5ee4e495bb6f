import DeepseekScience.Lib.Replacement
import DeepseekScience.A2a.Invoke
import DeepseekScience.Tools.Entities
import DeepseekScience.Verify.Review
import DeepseekScience.Llm.Secrets

/-! What a frame keeps of the body of a response: the bearer token of the agent, wherever the other
side repeats it in a string or a key, gives way to a placeholder. -/
namespace DeepseekScience.A2a
open DeepseekScience.Core Redaction Replacement Tools Verify

def placeholder : Text := "<redacted>".toList

/-- The key of a member whose redacted key is taken. -/
def collisionKey (baseKey : Text) (collision : ℕ) : Text :=
  baseKey ++ ("#redacted-".toList ++ natText collision)

/-- The search for a key that the object does not have; the turns are as many as its keys. -/
def safeKeyFrom (taken : List Text) (baseKey : Text) : ℕ → ℕ → Text → Text
  | 0, _, safeKey => safeKey
  | n + 1, collision, safeKey =>
    if safeKey ∈ taken then
      safeKeyFrom taken baseKey n (collision + 1) (collisionKey baseKey collision)
    else safeKey

def safeKey (taken : List Text) (baseKey : Text) : Text :=
  safeKeyFrom taken baseKey taken.length 1 baseKey

/-- The next member of the object that is built. -/
def placeMember (token key : Text) (item : Json) (object : List (Text × Json)) :
    List (Text × Json) :=
  insertEntry (safeKey (object.map Prod.fst) (replaceText token placeholder key)) item object

mutual

/-- `redact_value` for a token that is not empty. -/
def redactValue (token : Text) : Json → Json
  | .string text => .string (replaceText token placeholder text)
  | .array items => .array (redactItems token items)
  | .object members => .object (redactMembers token members [])
  | .null => .null
  | .bool value => .bool value
  | .number literal => .number literal

def redactItems (token : Text) : List Json → List Json
  | [] => []
  | item :: items => redactValue token item :: redactItems token items

/-- The members that are left, and the object that is built. -/
def redactMembers (token : Text) : List (Text × Json) → List (Text × Json) → List (Text × Json)
  | [], object => object
  | (key, item) :: previous, object =>
    redactMembers token previous (placeMember token key (redactValue token item) object)

end

def redactJson (token : Option Text) (value : Json) : Json :=
  match token.filter (!·.isEmpty) with
  | some token => redactValue token value
  | none => value

/-- The loop of `redact_bytes`, behind bytes to be passed over: the output, and whether anything
was redacted. -/
def redactFrom (needle : List UInt8) : ℕ → List UInt8 → List UInt8 × Bool
  | _, [] => ([], false)
  | n + 1, _ :: bytes => redactFrom needle n bytes
  | 0, byte :: bytes =>
    if needle.isPrefixOf (byte :: bytes) then
      (utf8Bytes placeholder ++ (redactFrom needle (needle.length - 1) bytes).1, true)
    else
      let rest := redactFrom needle 0 bytes
      (byte :: rest.1, rest.2)

def redactBytes (bytes : List UInt8) (token : Option Text) : List UInt8 × Bool :=
  match token.filter (!·.isEmpty) with
  | some token => redactFrom (utf8Bytes token) 0 bytes
  | none => (bytes, false)

/-- What reading a body takes from packages. -/
structure BodyLib where
  fromSlice : List UInt8 → Except Text Json
  /-- Base64 in the standard alphabet. -/
  encode : List UInt8 → Text

/-- The value of a body, and whether it was valid JSON. -/
def losslessJson (lib : BodyLib) (bytes : List UInt8) (token : Option Text) : Json × Bool :=
  match lib.fromSlice bytes with
  | .ok value => (value, true)
  | .error error =>
    let (safeBytes, redacted) := redactBytes bytes token
    (.object [("_invalid_json".toList, .bool true), ("_parse_error".toList, .string error),
      ("_raw_base64".toList, .string (lib.encode safeBytes)),
      ("_raw_redacted".toList, .bool redacted)], false)

/-- The payload of the frame that records a response. -/
def framePayload (lib : BodyLib) (config : A2aAgentConfig) (bytes : List UInt8) : Json :=
  redactJson config.bearerToken (losslessJson lib bytes config.bearerToken).1

mutual

/-- Every string and every key of a value. -/
def texts : Json → List Text
  | .string text => [text]
  | .array items => itemTexts items
  | .object members => memberTexts members
  | .null | .bool _ | .number _ => []

def itemTexts : List Json → List Text
  | [] => []
  | item :: items => texts item ++ itemTexts items

def memberTexts : List (Text × Json) → List Text
  | [] => []
  | (key, item) :: members => key :: (texts item ++ memberTexts members)

end

mutual

/-- The scalars of a value, in the order of the walk. -/
def scalars : Json → List Json
  | .array items => itemScalars items
  | .object members => memberScalars members
  | .null => [.null]
  | .bool value => [.bool value]
  | .number literal => [.number literal]
  | .string text => [.string text]

def itemScalars : List Json → List Json
  | [] => []
  | item :: items => scalars item ++ itemScalars items

def memberScalars : List (Text × Json) → List Json
  | [] => []
  | (_, item) :: members => scalars item ++ memberScalars members

end

mutual

/-- The members of every object stand in the order of their keys, as a map keeps them. -/
def Ordered : Json → Prop
  | .array items => OrderedItems items
  | .object members => SortedEntries members ∧ OrderedMembers members
  | .null | .bool _ | .number _ | .string _ => True

def OrderedItems : List Json → Prop
  | [] => True
  | item :: items => Ordered item ∧ OrderedItems items

def OrderedMembers : List (Text × Json) → Prop
  | [] => True
  | (_, item) :: members => Ordered item ∧ OrderedMembers members

end

/-- A token that neither the placeholder nor the numbers of collisions can spell in part. -/
structure Concealable (token : Text) : Prop where
  nonempty : token ≠ []
  opening : '<' ∉ token
  closing : '>' ∉ token
  mark : '#' ∉ token
  foreign : ∀ n, ¬ token <:+: "redacted-".toList ++ natText n

section
/-! Texts. -/

variable {token t : Text} {needle : List UInt8}

theorem replaced_replaceText (hne : token ≠ []) (standIn t : Text) :
    Replaced token standIn t (replaceText token standIn t) := by
  induction t using walk_induction hne with
  | nil => exact Replaced.nil
  | hit t ih =>
    rw [replaceText_append hne]
    exact Replaced.hit ih
  | pass c t hmiss ih =>
    rw [replaceText_cons hmiss]
    exact Replaced.pass hmiss ih

theorem redactFrom_skip (u bytes : List UInt8) :
    redactFrom needle u.length (u ++ bytes) = redactFrom needle 0 bytes := by
  induction u with
  | nil => rfl
  | cons b u ih => simpa [redactFrom] using ih

theorem redactFrom_append (hne : needle ≠ []) (bytes : List UInt8) :
    redactFrom needle 0 (needle ++ bytes) =
      (utf8Bytes placeholder ++ (redactFrom needle 0 bytes).1, true) := by
  cases needle with
  | nil => exact absurd rfl hne
  | cons b u =>
    have hmatch : (b :: u).isPrefixOf (b :: (u ++ bytes)) = true :=
      List.isPrefixOf_iff_prefix.mpr ⟨bytes, rfl⟩
    rw [List.cons_append, redactFrom, if_pos hmatch, List.length_cons, Nat.add_sub_cancel,
      redactFrom_skip]

theorem redactFrom_cons {b : UInt8} {bytes : List UInt8} (hmiss : ¬ needle <+: b :: bytes) :
    redactFrom needle 0 (b :: bytes) =
      (b :: (redactFrom needle 0 bytes).1, (redactFrom needle 0 bytes).2) := by
  rw [redactFrom, if_neg (by rwa [List.isPrefixOf_iff_prefix])]

theorem replaced_redactFrom (hne : needle ≠ []) (bytes : List UInt8) :
    Replaced needle (utf8Bytes placeholder) bytes (redactFrom needle 0 bytes).1 := by
  induction bytes using walk_induction hne with
  | nil => exact Replaced.nil
  | hit bytes ih =>
    rw [redactFrom_append hne]
    exact Replaced.hit ih
  | pass b bytes hmiss ih =>
    rw [redactFrom_cons hmiss]
    exact Replaced.pass hmiss ih

/-- The flag tells whether the token was there. -/
theorem redactFrom_flag (hne : needle ≠ []) (bytes : List UInt8) :
    (redactFrom needle 0 bytes).2 = true ↔ needle <:+: bytes := by
  induction bytes using walk_induction hne with
  | nil => simp [redactFrom, hne]
  | hit bytes ih =>
    rw [redactFrom_append hne]
    exact iff_of_true rfl ⟨[], bytes, rfl⟩
  | pass b bytes hmiss ih => rw [redactFrom_cons hmiss, ih, List.infix_cons_iff, or_iff_right hmiss]

theorem utf8Bytes_ne_nil (hne : t ≠ []) : utf8Bytes t ≠ [] := by
  intro h
  have hlength := congrArg List.length h
  have := length_le_byteLen t
  have := List.length_pos_of_ne_nil hne
  simp at hlength
  omega

/-- A small byte in the encoding of a character is the character. -/
theorem ascii_of_mem {c : Char} {b : UInt8} (hmem : b ∈ String.utf8EncodeChar c) (hb : b < 128) :
    String.utf8EncodeChar c = [b] ∧ Char.ofNat b.toNat = c := by
  obtain ⟨j, hj⟩ := List.mem_iff_getElem?.mp hmem
  have hsize := utf8Size_of_ascii hj hb
  have hsmall : c.val.toNat ≤ 127 := Char.utf8Size_eq_one_iff.mp hsize
  rw [String.utf8EncodeChar_eq_singleton hsize, List.mem_singleton] at hmem
  subst hmem
  refine ⟨String.utf8EncodeChar_eq_singleton hsize, ?_⟩
  have hvalue : c.val.toUInt8.toNat = c.toNat := by
    rw [UInt32.toNat_toUInt8, Nat.mod_eq_of_lt (by omega)]
    rfl
  rw [hvalue, Char.ofNat_toNat]

theorem mem_of_ascii {b : UInt8} (hmem : b ∈ utf8Bytes t) (hb : b < 128) :
    Char.ofNat b.toNat ∈ t := by
  obtain ⟨c, hc, hmem⟩ := List.mem_flatMap.mp hmem
  rwa [(ascii_of_mem hmem hb).2]

/-- ASCII text is read off its bytes. -/
theorem decode_ascii (h : ∀ b ∈ utf8Bytes t, b < 128) :
    (utf8Bytes t).map (fun b => Char.ofNat b.toNat) = t := by
  induction t with
  | nil => rfl
  | cons c t ih =>
    rw [utf8Bytes_cons] at h ⊢
    have hne : String.utf8EncodeChar c ≠ [] := fun hnil => by
      have hlength := congrArg List.length hnil
      have := Char.utf8Size_pos c
      simp at hlength
      omega
    obtain ⟨b, hb⟩ := List.exists_mem_of_ne_nil _ hne
    obtain ⟨hbytes, hchar⟩ := ascii_of_mem hb (h b (List.mem_append_left _ hb))
    simp [hbytes, hchar, ih fun b' hb' => h b' (List.mem_append_right _ hb')]

end

section
/-! Keys. -/

variable {taken : List Text} {baseKey key : Text}

theorem natText_injective : Function.Injective natText := by
  intro m n h
  have hvalue := congrArg (fun t => Nat.ofDigitChars 10 t 0) h
  simpa [natText] using hvalue

theorem collisionKey_injective : Function.Injective (collisionKey baseKey) := by
  intro m n h
  simpa [collisionKey, natText_injective.eq_iff] using h

theorem collisionKey_ne (n : ℕ) : baseKey ≠ collisionKey baseKey n := by
  intro h
  have hlength := congrArg List.length h
  simp [collisionKey] at hlength

/-- A search that ends at a taken key has tried as many taken keys as it had turns. -/
theorem tried_of_taken {n collision : ℕ} (h : safeKeyFrom taken baseKey n collision key ∈ taken) :
    key :: (List.range' collision n).map (collisionKey baseKey) ⊆ taken := by
  induction n generalizing collision key with
  | zero => simpa [safeKeyFrom] using h
  | succ n ih =>
    rw [safeKeyFrom] at h
    split_ifs at h with htaken
    · rw [List.range'_succ, List.map_cons]
      exact List.cons_subset.mpr ⟨htaken, ih h⟩
    · exact absurd h htaken

/-- The key that is chosen is free. -/
theorem safeKey_fresh : safeKey taken baseKey ∉ taken := by
  intro h
  have hsubset := tried_of_taken h
  have hnodup : (baseKey :: (List.range' 1 taken.length).map (collisionKey baseKey)).Nodup := by
    refine List.nodup_cons.mpr ⟨?_, (List.nodup_range' ..).map collisionKey_injective⟩
    simp [(collisionKey_ne _).symm]
  have hlength := (hnodup.subperm hsubset).length_le
  simp at hlength

theorem safeKeyFrom_cases {n collision : ℕ} :
    safeKeyFrom taken baseKey n collision key = key ∨
      ∃ k, safeKeyFrom taken baseKey n collision key = collisionKey baseKey k := by
  induction n generalizing collision key with
  | zero => exact Or.inl rfl
  | succ n ih =>
    rw [safeKeyFrom]
    split_ifs
    · obtain h | h := @ih (collisionKey baseKey collision) (collision + 1)
      · exact Or.inr ⟨collision, h⟩
      · exact Or.inr h
    · exact Or.inl rfl

theorem safeKey_cases : safeKey taken baseKey = baseKey ∨
    ∃ k, safeKey taken baseKey = collisionKey baseKey k := safeKeyFrom_cases

theorem safeKey_of_free (h : baseKey ∉ taken) : safeKey taken baseKey = baseKey := by
  unfold safeKey
  cases taken.length with
  | zero => rfl
  | succ n => rw [safeKeyFrom, if_neg h]

theorem insertEntry_fresh {members : List (Text × Json)} {value : Json}
    (h : key ∉ members.map Prod.fst) :
    insertEntry key value members = insertMember key value members := by
  induction members with
  | nil => rfl
  | cons m rest ih =>
    simp only [List.map_cons, List.mem_cons, not_or] at h
    rw [insertEntry, insertMember, if_neg h.1, ih h.2]

end

section
/-! Tokens. -/

variable {token : Text}

namespace Concealable

variable (h : Concealable token)
include h

theorem not_in_word : ¬ token <:+: "redacted".toList := fun hword =>
  h.foreign 0 (hword.trans ⟨[], ['-', '0'], rfl⟩)

theorem fenced : Fenced token placeholder where
  nonempty := h.nonempty
  fence := ⟨'<', "redacted".toList, '>', rfl, h.opening, h.closing, h.not_in_word⟩

theorem fenced_bytes : Fenced (utf8Bytes token) (utf8Bytes placeholder) where
  nonempty := utf8Bytes_ne_nil h.nonempty
  fence := by
    refine ⟨60, utf8Bytes "redacted".toList, 62, by decide +kernel, ?_, ?_, ?_⟩
    · exact fun hmem => h.opening (mem_of_ascii hmem (by decide))
    · exact fun hmem => h.closing (mem_of_ascii hmem (by decide))
    · intro hword
      have hascii : ∀ b ∈ utf8Bytes "redacted".toList, b < 128 := by decide +kernel
      have hdecoded := hword.map fun b => Char.ofNat b.toNat
      rw [decode_ascii hascii, decode_ascii fun b hb => hascii b (hword.subset hb)] at hdecoded
      exact h.not_in_word hdecoded

theorem text_free (t : Text) : ¬ token <:+: replaceText token placeholder t :=
  h.fenced.not_occurs (replaced_replaceText h.nonempty placeholder t)

theorem key_free (t : Text) (taken : List Text) :
    ¬ token <:+: safeKey taken (replaceText token placeholder t) := by
  intro hoccurs
  obtain hkey | ⟨n, hkey⟩ := @safeKey_cases taken (replaceText token placeholder t)
  · exact h.text_free t (hkey ▸ hoccurs)
  · rw [hkey, collisionKey] at hoccurs
    obtain hbase | hnumber := occurs_of_fenced h.mark hoccurs
    · exact h.text_free t hbase
    · exact h.foreign n hnumber

end Concealable

end

section
/-! Values. -/

variable {token t key : Text} {item : Json} {items : List Json}
  {previous object : List (Text × Json)}

theorem redactItems_eq : redactItems token items = items.map (redactValue token) := by
  induction items with
  | nil => rw [redactItems, List.map_nil]
  | cons item items ih => rw [redactItems, ih, List.map_cons]

theorem mem_itemTexts : t ∈ itemTexts items ↔ ∃ item ∈ items, t ∈ texts item := by
  induction items with
  | nil => simp [itemTexts]
  | cons item items ih => simp [itemTexts, ih]

theorem mem_memberTexts : t ∈ memberTexts object ↔ ∃ m ∈ object, t = m.1 ∨ t ∈ texts m.2 := by
  induction object with
  | nil => simp [memberTexts]
  | cons m object ih =>
    obtain ⟨key, item⟩ := m
    simp [memberTexts, ih, or_assoc]

theorem length_memberTexts :
    (memberTexts object).length = (object.map fun m => (texts m.2).length + 1).sum := by
  induction object with
  | nil => rfl
  | cons m object ih =>
    obtain ⟨key, item⟩ := m
    simp [memberTexts, ih]
    omega

theorem length_itemTexts : (itemTexts items).length = (items.map fun i => (texts i).length).sum := by
  induction items with
  | nil => rfl
  | cons item items ih => simp [itemTexts, ih]

theorem itemScalars_eq : itemScalars items = items.flatMap scalars := by
  induction items with
  | nil => rfl
  | cons item items ih => simp [itemScalars, ih]

theorem memberScalars_eq : memberScalars object = object.flatMap fun m => scalars m.2 := by
  induction object with
  | nil => rfl
  | cons m object ih =>
    obtain ⟨key, item⟩ := m
    simp [memberScalars, ih]

theorem orderedItems_iff : OrderedItems items ↔ ∀ item ∈ items, Ordered item := by
  induction items with
  | nil => simp [OrderedItems]
  | cons item items ih => simp [OrderedItems, ih]

theorem orderedMembers_iff : OrderedMembers object ↔ ∀ m ∈ object, Ordered m.2 := by
  induction object with
  | nil => simp [OrderedMembers]
  | cons m object ih =>
    obtain ⟨key, item⟩ := m
    simp [OrderedMembers, ih]

/-- A member more, and no member less. -/
theorem placeMember_perm (token key : Text) (item : Json) (object : List (Text × Json)) :
    (placeMember token key item object).Perm
      ((safeKey (object.map Prod.fst) (replaceText token placeholder key), item) :: object) := by
  rw [placeMember, insertEntry_fresh safeKey_fresh]
  exact insertMember_perm ..

/-- What holds of every member that is placed holds of every member of the object. -/
theorem forall_redactMembers {P : Text × Json → Prop} (hobject : ∀ m ∈ object, P m)
    (hplaced : ∀ m ∈ previous, ∀ taken,
      P (safeKey taken (replaceText token placeholder m.1), redactValue token m.2)) :
    ∀ m ∈ redactMembers token previous object, P m := by
  induction previous generalizing object with
  | nil => simpa [redactMembers] using hobject
  | cons m previous ih =>
    obtain ⟨key, item⟩ := m
    rw [redactMembers]
    refine ih (fun m hm => ?_) fun m hm => hplaced m (List.mem_cons_of_mem _ hm)
    obtain rfl | hm := List.mem_cons.mp ((placeMember_perm ..).subset hm)
    · exact hplaced (key, item) List.mem_cons_self _
    · exact hobject m hm

/-- The values of the object are those of the members. -/
theorem redactMembers_perm : ((redactMembers token previous object).map Prod.snd).Perm
    (previous.map (fun m => redactValue token m.2) ++ object.map Prod.snd) := by
  induction previous generalizing object with
  | nil => simp [redactMembers]
  | cons m previous ih =>
    obtain ⟨key, item⟩ := m
    rw [redactMembers]
    refine ih.trans ?_
    have hplaced := (placeMember_perm token key (redactValue token item) object).map Prod.snd
    simpa using (hplaced.append_left _).trans List.perm_middle

theorem sorted_redactMembers (h : SortedEntries object) :
    SortedEntries (redactMembers token previous object) := by
  induction previous generalizing object with
  | nil => simpa [redactMembers] using h
  | cons m previous ih =>
    obtain ⟨key, item⟩ := m
    rw [redactMembers]
    exact ih (h.insertEntry _ _)

theorem insertEntry_last (h : ∀ m ∈ object, m.1 < key) :
    insertEntry key item object = object ++ [(key, item)] := by
  induction object with
  | nil => rfl
  | cons m object ih =>
    obtain ⟨k, v⟩ := m
    obtain ⟨hlt, hrest⟩ := List.forall_mem_cons.mp h
    rw [insertEntry, if_neg hlt.ne', if_neg hlt.asymm, ih hrest, List.cons_append]

/-- Members that have nothing to hide stay, in their order. -/
theorem redactMembers_of_free (hsorted : SortedEntries (object ++ previous))
    (hkeys : ∀ m ∈ previous, replaceText token placeholder m.1 = m.1)
    (hvalues : ∀ m ∈ previous, redactValue token m.2 = m.2) :
    redactMembers token previous object = object ++ previous := by
  induction previous generalizing object with
  | nil => simp [redactMembers]
  | cons m previous ih =>
    obtain ⟨key, item⟩ := m
    obtain ⟨hkey, hkeys⟩ := List.forall_mem_cons.mp hkeys
    obtain ⟨hvalue, hvalues⟩ := List.forall_mem_cons.mp hvalues
    have hbefore : ∀ m ∈ object, m.1 < key := fun m hm =>
      (List.pairwise_append.mp hsorted).2.2 m hm _ List.mem_cons_self
    have hfree : key ∉ object.map Prod.fst := by
      intro hmem
      obtain ⟨m, hm, heq⟩ := List.mem_map.mp hmem
      exact (hbefore m hm).ne heq
    have hplaced : placeMember token key (redactValue token item) object =
        object ++ [(key, item)] := by
      dsimp only at hkey hvalue
      rw [placeMember, hkey, hvalue, safeKey_of_free hfree, insertEntry_last hbefore]
    rw [redactMembers, hplaced, ih (by simpa using hsorted) hkeys hvalues]
    simp

theorem ordered_redactValue (token : Text) (value : Json) : Ordered (redactValue token value) := by
  induction value using Json.part_induction with
  | null | bool | number | string => simp [redactValue, Ordered]
  | array items ih => simpa [redactValue, Ordered, redactItems_eq, orderedItems_iff] using ih
  | object members ih =>
    rw [redactValue, Ordered, orderedMembers_iff]
    exact ⟨sorted_redactMembers List.Pairwise.nil,
      forall_redactMembers (by simp) fun m hm _ => ih m hm⟩

theorem scalars_redactValue (token : Text) (value : Json) :
    (scalars (redactValue token value)).Perm ((scalars value).map (redactValue token)) := by
  induction value using Json.part_induction with
  | null | bool | number | string => simp [redactValue, scalars]
  | array items ih =>
    rw [redactValue, scalars, scalars, itemScalars_eq, itemScalars_eq, redactItems_eq,
      List.flatMap_map, List.map_flatMap]
    exact List.Perm.flatMap_left _ ih
  | object members ih =>
    have hvalues := (@redactMembers_perm token members []).flatMap_right scalars
    rw [redactValue, scalars, scalars, memberScalars_eq, memberScalars_eq, List.map_flatMap]
    simp only [List.flatMap_map, List.map_nil, List.append_nil] at hvalues
    exact hvalues.trans (List.Perm.flatMap_left _ ih)

theorem length_texts_redactValue (token : Text) (value : Json) :
    (texts (redactValue token value)).length = (texts value).length := by
  induction value using Json.part_induction with
  | null | bool | number | string => simp [redactValue, texts]
  | array items ih =>
    rw [redactValue, texts, texts, length_itemTexts, length_itemTexts, redactItems_eq, List.map_map]
    exact congrArg List.sum (List.map_congr_left ih)
  | object members ih =>
    have hvalues := (@redactMembers_perm token members []).map fun v => (texts v).length + 1
    rw [redactValue, texts, texts, length_memberTexts, length_memberTexts]
    simp only [List.map_map, List.map_nil, List.append_nil] at hvalues
    refine hvalues.sum_eq.trans (congrArg List.sum (List.map_congr_left fun m hm => ?_))
    simp [ih m hm]

theorem redactValue_of_free {value : Json} (hne : token ≠ []) (hordered : Ordered value)
    (hfree : ∀ t ∈ texts value, ¬ token <:+: t) : redactValue token value = value := by
  have htext : ∀ t, ¬ token <:+: t → replaceText token placeholder t = t := fun t ht =>
    eq_of_free (replaced_replaceText hne placeholder t) ht
  induction value using Json.part_induction with
  | null | bool | number => simp [redactValue]
  | string text => simp [redactValue, htext text (hfree text (by simp [texts]))]
  | array items ih =>
    rw [Ordered, orderedItems_iff] at hordered
    rw [redactValue, redactItems_eq]
    refine congrArg Json.array ((List.map_congr_left fun item hitem => ?_).trans (List.map_id _))
    refine ih item hitem (hordered item hitem) fun t ht => hfree t ?_
    rw [texts, mem_itemTexts]
    exact ⟨item, hitem, ht⟩
  | object members ih =>
    rw [Ordered, orderedMembers_iff] at hordered
    simp only [texts, mem_memberTexts] at hfree
    rw [redactValue, redactMembers_of_free (by simpa using hordered.1), List.nil_append]
    · exact fun m hm => htext m.1 (hfree m.1 ⟨m, hm, Or.inl rfl⟩)
    · exact fun m hm => ih m hm (hordered.2 m hm) fun t ht => hfree t ⟨m, hm, Or.inr ht⟩

theorem Concealable.value_free (h : Concealable token) (value : Json) :
    ∀ t ∈ texts (redactValue token value), ¬ token <:+: t := by
  induction value using Json.part_induction with
  | null | bool | number => simp [redactValue, texts]
  | string text => simpa [redactValue, texts] using h.text_free text
  | array items ih =>
    simp only [redactValue, texts, mem_itemTexts, redactItems_eq, List.mem_map]
    rintro t ⟨_, ⟨item, hitem, rfl⟩, ht⟩
    exact ih item hitem t ht
  | object members ih =>
    simp only [redactValue, texts, mem_memberTexts]
    have hmembers : ∀ m ∈ redactMembers token members [],
        ¬ token <:+: m.1 ∧ ∀ t ∈ texts m.2, ¬ token <:+: t :=
      forall_redactMembers (by simp) fun m hm taken => ⟨h.key_free m.1 taken, ih m hm⟩
    rintro t ⟨m, hm, rfl | ht⟩
    · exact (hmembers m hm).1
    · exact (hmembers m hm).2 t ht

theorem filter_isEmpty (hne : token ≠ []) : (some token).filter (!·.isEmpty) = some token := by
  simp [Option.filter, hne]

/-- Neither the payload of a frame nor the raw bytes that it keeps of a body that is no JSON nor a
diagnostic repeats the token; the flag of the raw bytes is right. -/
theorem bearerToken_concealed {config : A2aAgentConfig} (hconfig : config.bearerToken = some token)
    (h : Concealable token) (lib : BodyLib) (bytes : List UInt8) (diagnostic : Text) :
    (∀ t ∈ texts (framePayload lib config bytes), ¬ token <:+: t) ∧
      redactJson config.bearerToken (framePayload lib config bytes) =
        framePayload lib config bytes ∧
      ¬ utf8Bytes token <:+: (redactBytes bytes config.bearerToken).1 ∧
      ((redactBytes bytes config.bearerToken).2 = true ↔ utf8Bytes token <:+: bytes) ∧
      ¬ token <:+: redactText config diagnostic := by
  have hbytes := utf8Bytes_ne_nil h.nonempty
  simp only [framePayload, redactJson, redactBytes, redactText, hconfig, filter_isEmpty h.nonempty]
  refine ⟨h.value_free _, ?_, ?_, redactFrom_flag hbytes bytes, h.text_free diagnostic⟩
  · exact redactValue_of_free h.nonempty (ordered_redactValue ..) (h.value_free _)
  · exact h.fenced_bytes.not_occurs (replaced_redactFrom hbytes bytes)

theorem concealable_superSecret : Concealable "super-secret".toList where
  nonempty := by decide
  opening := by decide
  closing := by decide
  mark := by decide
  foreign n hoccurs := by
    have hmem : 'u' ∈ "redacted-".toList ++ natText n := hoccurs.subset (by decide)
    obtain hword | hdigit := List.mem_append.mp hmem
    · exact absurd hword (by decide)
    · exact absurd (Nat.isDigit_of_mem_toDigits (by decide) (by decide) hdigit) (by decide)

theorem bearerToken_concealed_superSecret :
    let config : A2aAgentConfig := { bearerToken := some "super-secret".toList }
    let lib : BodyLib := { fromSlice := fun _ => .error "expected value".toList, encode := fun _ => [] }
    (∀ t ∈ texts (framePayload lib config []), ¬ "super-secret".toList <:+: t) ∧
      redactJson config.bearerToken (framePayload lib config []) = framePayload lib config [] ∧
      ¬ utf8Bytes "super-secret".toList <:+: (redactBytes [] config.bearerToken).1 ∧
      ((redactBytes [] config.bearerToken).2 = true ↔ utf8Bytes "super-secret".toList <:+: []) ∧
      ¬ "super-secret".toList <:+: redactText config "Bearer super-secret".toList :=
  bearerToken_concealed rfl concealable_superSecret _ _ _

/-- Redaction drops nothing: the object stays a map, every scalar is there with its strings
redacted, no member is lost to another, and a value without the token is as it was. -/
theorem redactJson_keeps (token : Option Text) {value : Json} (hordered : Ordered value) :
    Ordered (redactJson token value) ∧
      (scalars (redactJson token value)).Perm ((scalars value).map (redactJson token)) ∧
      (texts (redactJson token value)).length = (texts value).length ∧
      ((∀ secret, token = some secret → secret ≠ [] → ∀ t ∈ texts value, ¬ secret <:+: t) →
        redactJson token value = value) := by
  unfold redactJson
  cases hfilter : token.filter (!·.isEmpty) with
  | none => exact ⟨hordered, by simp, rfl, fun _ => rfl⟩
  | some secret =>
    obtain ⟨htoken, hne⟩ := Option.filter_eq_some_iff.mp hfilter
    have hne : secret ≠ [] := by simpa using hne
    exact ⟨ordered_redactValue secret value, scalars_redactValue secret value,
      length_texts_redactValue secret value,
      fun hfree => redactValue_of_free hne hordered (hfree secret htoken hne)⟩

theorem redactJson_keeps_collision :
    let value : Json := .object [("<redacted>".toList, .bool true), ("key".toList, .null)]
    let token := some "key".toList
    Ordered (redactJson token value) ∧
      (scalars (redactJson token value)).Perm ((scalars value).map (redactJson token)) ∧
      (texts (redactJson token value)).length = (texts value).length ∧
      ((∀ secret, token = some secret → secret ≠ [] → ∀ t ∈ texts value, ¬ secret <:+: t) →
        redactJson token value = value) :=
  redactJson_keeps _ (by
    rw [Ordered, orderedMembers_iff]
    exact ⟨by simp [SortedEntries]; decide, by simp [Ordered]⟩)

end

end DeepseekScience.A2a
