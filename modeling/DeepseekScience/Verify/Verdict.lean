import DeepseekScience.Agent.Gates
import DeepseekScience.Core.Decode

/-! The verdict of the reviewer is read from the first opening to the last closing brace of its
reply. -/
namespace DeepseekScience.Verify

open Agent (Verdict)

structure Raw where
  verdict : Text
  findings : List Text
  repairScope : Option Text
  requiresToolAction : Bool
  deriving DecidableEq

def rawFields : List Text :=
  ["verdict".toList, "findings".toList, "repair_scope".toList, "requires_tool_action".toList]

/-- The derived deserializer: a known field stands at most once, others are ignored. -/
def decodeRaw (members : List (Text × Json)) : Option Raw :=
  if rawFields.any fun key => decide (1 < members.countP fun m => m.1 = key) then none
  else do
    let verdict ← Decode.required "verdict".toList Decode.text members
    let findings ← Decode.defaulted "findings".toList [] (Decode.list Decode.text) members
    let repairScope ← Decode.defaulted "repair_scope".toList none (Decode.option Decode.text) members
    let requiresToolAction ←
      Decode.defaulted "requires_tool_action".toList false Decode.bool members
    some ⟨verdict, findings, repairScope, requiresToolAction⟩

/-- The members that `serde_json` reads from the text of an object, in their order and with
repeated keys. -/
abbrev ObjectReader := Text → Option (List (Text × Json))

variable (read : ObjectReader)

def readRaw (text : Text) : Option Raw := (read text).bind decodeRaw

def Raw.toVerdict (raw : Raw) : Verdict :=
  let pass := raw.verdict == "pass".toList || raw.verdict == "warn".toList
  { pass := pass
    findings := if raw.verdict = "pass".toList then [] else raw.findings
    requiresToolAction :=
      !pass && (raw.requiresToolAction || raw.repairScope == some "artifact".toList) }

def parseVerdict (text : Text) : Option Verdict := do
  let start ← text.findIdx? (· = '{')
  let last ← rfindText ['}'] text
  if last ≤ start then none
  else
    let raw ← readRaw read ((text.take (last + 1)).drop start)
    some raw.toVerdict

/-- The text of an object, from its opening to its closing brace. -/
def ObjectText (text : Text) : Prop := ∃ body, text = '{' :: (body ++ ['}'])

/-- A reply that holds the verdict object `j` and no other one: wherever an object that the
deserializer accepts stands in the reply, it lies inside `j`. -/
structure VetoReply (p j s : Text) (raw : Raw) : Prop where
  object : ObjectText j
  reads : readRaw read j = some raw
  fail : raw.verdict = "fail".toList
  only : ∀ l o r, p ++ j ++ s = l ++ o ++ r → ObjectText o → (readRaw read o).isSome = true →
    p.length ≤ l.length ∧ s.length ≤ r.length

theorem rfindText_last {c : Char} {b : Text} (hb : c ∉ b) (a : Text) :
    rfindText [c] (a ++ c :: b) = some a.length := by
  induction a with
  | nil => simp [rfindText, rfindText_eq_none hb, List.isPrefixOf]
  | cons d a ih => simp [rfindText, ih]

variable {read}

/-- What is read is the widest object text of the reply. -/
theorem parseVerdict_slice {a o b : Text} (ho : ObjectText o) (ha : '{' ∉ a) (hb : '}' ∉ b) :
    parseVerdict read (a ++ o ++ b) = (readRaw read o).map Raw.toVerdict := by
  obtain ⟨body, rfl⟩ := ho
  have hstart : (a ++ '{' :: (body ++ ['}']) ++ b).findIdx? (fun c => decide (c = '{')) =
      some a.length := by
    rw [List.append_assoc, List.findIdx?_append]
    have hnone : a.findIdx? (fun c => decide (c = '{')) = none := by
      rw [List.findIdx?_eq_none_iff]
      intro c hc
      simpa using fun h : c = '{' => ha (h ▸ hc)
    simp [hnone, List.findIdx?_cons]
  have hlast : rfindText ['}'] (a ++ '{' :: (body ++ ['}']) ++ b) =
      some (a.length + body.length + 1) := by
    have := rfindText_last hb (a ++ '{' :: body)
    simpa [Nat.add_assoc] using this
  have hslice : ((a ++ '{' :: (body ++ ['}']) ++ b).take (a.length + body.length + 1 + 1)).drop
      a.length = '{' :: (body ++ ['}']) := by
    rw [List.take_left' (by simp [Nat.add_assoc]), List.drop_left]
  have hlt : ¬a.length + body.length + 1 ≤ a.length := by omega
  simp only [parseVerdict, hstart, hlast, Option.bind_eq_bind, Option.bind_some, if_neg hlt, hslice]
  cases readRaw read ('{' :: (body ++ ['}'])) <;> rfl

/-- A text up to the first occurrence of a character, and from there on. -/
theorem exists_front (x : Char) (p : Text) :
    ∃ a c, p = a ++ c ∧ x ∉ a ∧ (c = [] ∧ x ∉ p ∨ ∃ c', c = x :: c') := by
  refine ⟨p.takeWhile (· != x), p.dropWhile (· != x), List.takeWhile_append_dropWhile.symm,
    ?_, ?_⟩
  · intro hmem
    simpa using List.mem_takeWhile_imp hmem
  · cases hdrop : p.dropWhile (· != x) with
    | nil =>
      rw [List.dropWhile_eq_nil_iff] at hdrop
      exact Or.inl ⟨rfl, fun hx => by simpa using hdrop x hx⟩
    | cons d c' =>
      have hd := List.head_dropWhile_not (· != x) (by rw [hdrop]; exact List.cons_ne_nil d c')
      simp only [hdrop, List.head_cons, bne_eq_false_iff_eq] at hd
      exact Or.inr ⟨c', by rw [hd]⟩

/-- A text up to the last occurrence of a character, and the rest. -/
theorem exists_back (x : Char) (s : Text) :
    ∃ c b, s = c ++ b ∧ x ∉ b ∧ (c = [] ∧ x ∉ s ∨ ∃ c', c = c' ++ [x]) := by
  obtain ⟨a, c, hs, ha, hc⟩ := exists_front x s.reverse
  refine ⟨c.reverse, a.reverse, ?_, by simpa using ha, ?_⟩
  · rw [← List.reverse_append, ← hs, List.reverse_reverse]
  · rcases hc with ⟨rfl, hx⟩ | ⟨c', rfl⟩
    · exact Or.inl ⟨rfl, by simpa using hx⟩
    · exact Or.inr ⟨c'.reverse, List.reverse_cons⟩

/-- The widest object text of a reply. It is the given one exactly when no opening brace stands
in front of it and no closing one behind it. -/
theorem exists_widest {p j s : Text} (hj : ObjectText j) :
    ∃ a o b, p ++ j ++ s = a ++ o ++ b ∧ ObjectText o ∧ '{' ∉ a ∧ '}' ∉ b ∧
      ('{' ∉ p ∧ '}' ∉ s → o = j) ∧
      (p.length ≤ a.length → s.length ≤ b.length → '{' ∉ p ∧ '}' ∉ s) := by
  obtain ⟨body, rfl⟩ := hj
  obtain ⟨a, front, rfl, ha, hfront⟩ := exists_front '{' p
  obtain ⟨back, b, rfl, hb, hback⟩ := exists_back '}' s
  refine ⟨a, front ++ '{' :: (body ++ ['}']) ++ back, b, by simp, ?_, ha, hb, ?_, ?_⟩
  · rcases hfront with ⟨rfl, -⟩ | ⟨front, rfl⟩ <;> rcases hback with ⟨rfl, -⟩ | ⟨back, rfl⟩
    · exact ⟨body, by simp⟩
    · exact ⟨body ++ '}' :: back, by simp⟩
    · exact ⟨front ++ '{' :: body, by simp⟩
    · exact ⟨front ++ '{' :: body ++ '}' :: back, by simp⟩
  · rintro ⟨hp, hs⟩
    rcases hfront with ⟨rfl, -⟩ | ⟨front, rfl⟩
    · rcases hback with ⟨rfl, -⟩ | ⟨back, rfl⟩
      · simp
      · simp at hs
    · simp at hp
  · intro hp hs
    rcases hfront with ⟨rfl, hp'⟩ | ⟨front, rfl⟩
    · rcases hback with ⟨rfl, hs'⟩ | ⟨back, rfl⟩
      · exact ⟨by simpa using hp', hs'⟩
      · simp only [List.length_append, List.length_singleton] at hs
        omega
    · simp at hp

/-- Text around the verdict object of a reply is harmless exactly when no opening brace stands in
front of it and no closing one behind it. Otherwise the veto is lost. -/
theorem parseVerdict_surrounded {p j s : Text} {raw : Raw} (h : VetoReply read p j s raw) :
    parseVerdict read j = some raw.toVerdict ∧ raw.toVerdict.pass = false ∧
      (parseVerdict read (p ++ j ++ s) = parseVerdict read j ↔ '{' ∉ p ∧ '}' ∉ s) ∧
      (¬('{' ∉ p ∧ '}' ∉ s) → parseVerdict read (p ++ j ++ s) = none) := by
  have halone : parseVerdict read j = some raw.toVerdict := by
    have : parseVerdict read ([] ++ j ++ []) = (readRaw read j).map Raw.toVerdict :=
      parseVerdict_slice h.object (by simp) (by simp)
    rw [h.reads] at this
    simpa using this
  have hpass : raw.toVerdict.pass = false := by
    simp only [Raw.toVerdict, h.fail]
    rfl
  obtain ⟨a, o, b, heq, ho, ha, hb, hsame, houter⟩ := exists_widest (p := p) (s := s) h.object
  have hslice : parseVerdict read (p ++ j ++ s) = (readRaw read o).map Raw.toVerdict := by
    rw [heq]
    exact parseVerdict_slice ho ha hb
  have hnone : ¬('{' ∉ p ∧ '}' ∉ s) → parseVerdict read (p ++ j ++ s) = none := by
    intro hbraces
    rw [hslice, Option.map_eq_none_iff]
    by_contra hsome
    obtain ⟨hp, hs⟩ := h.only a o b heq ho (Option.isSome_iff_ne_none.mpr hsome)
    exact hbraces (houter hp hs)
  refine ⟨halone, hpass, ⟨fun hequal => ?_, fun hbraces => ?_⟩, hnone⟩
  · by_contra hbraces
    rw [hnone hbraces, halone] at hequal
    cases hequal
  · rw [hslice, hsame hbraces, h.reads, halone, Option.map_some]

def failText : Text := "\x7b\"verdict\":\"fail\"\x7d".toList

/-- A deserializer on replies whose only object is `failText`. -/
def readFail : ObjectReader := fun text =>
  if text = failText then some [("verdict".toList, .string "fail".toList)] else none

theorem vetoReply_readFail {p s : Text}
    (h : ∀ n ≤ (p ++ failText ++ s).length,
      ((p ++ failText ++ s).drop n).take failText.length = failText → n = p.length) :
    VetoReply readFail p failText s ⟨"fail".toList, [], none, false⟩ := by
  constructor
  · exact ⟨"\"verdict\":\"fail\"".toList, rfl⟩
  · decide
  · rfl
  · intro l o r heq _ ho
    have ho' : o = failText := by
      by_contra hne
      simp [readRaw, readFail, hne] at ho
    subst ho'
    have hn := h l.length (by rw [heq]; simp)
      (by rw [heq, List.append_assoc, List.drop_left, List.take_left])
    have hlen := congrArg List.length heq
    simp only [List.length_append] at hlen
    omega

theorem parseVerdict_surrounded_prose :
    parseVerdict readFail ("结果：".toList ++ failText ++ " 请修复。".toList) =
      parseVerdict readFail failText :=
  ((parseVerdict_surrounded (vetoReply_readFail (by decide +kernel))).2.2.1).mpr (by decide)

/-- A formula in front of the veto: the review is skipped. -/
theorem veto_lost_behind_braces :
    ¬∀ (read : ObjectReader) (p j s : Text) (raw : Raw), VetoReply read p j s raw →
      parseVerdict read (p ++ j ++ s) = parseVerdict read j := by
  intro h
  have hlost := congrArg Option.isSome
    (h readFail "集合 \x7bx\x7d 未定义：".toList failText [] _ (vetoReply_readFail (by decide +kernel)))
  revert hlost
  decide +kernel

end DeepseekScience.Verify
