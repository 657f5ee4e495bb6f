import DeepseekScience.Json
import Mathlib.Data.List.Sort

/-! Abstracts from inverted indexes (`builtin/openalex.rs`): sorting the listed positions gives
the words of a text back, in whatever order the index lists them. -/
namespace DeepseekScience.Tools

/-- The positions of a word that are unsigned integers; `usize` has 64 bits. -/
def wordPositions (word : Text) (idxs : Json) : List (ℕ × Text) :=
  match idxs with
  | .array items => items.filterMap fun idx => idx.asU64.map fun i => (i, word)
  | _ => []

/-- All positions with their words, in the order of the members. -/
def indexPositions (inverted : Option Json) : List (ℕ × Text) :=
  match inverted with
  | some (.object members) => members.flatMap fun entry => wordPositions entry.1 entry.2
  | _ => []

/-- `slice::join` with a blank. -/
def joinWords (words : List Text) : Text := List.intercalate " ".toList words

def reconstructAbstract (inverted : Option Json) : Text :=
  joinWords (((indexPositions inverted).insertionSort fun a b => a.1 ≤ b.1).map Prod.snd)

/-- The members hold every word of a text once, with the places of the word in any order. -/
structure InvertedIndex (words : List Text) (members : List (Text × Json)) : Prop where
  keys : (members.map Prod.fst).Nodup
  listed : ∀ word ∈ words, word ∈ members.map Prod.fst
  positions : ∀ word idxs, (word, idxs) ∈ members → ∃ items : List Json, ∃ positions : List ℕ,
    idxs = .array items ∧ items.map Json.asU64 = positions.map some ∧ positions.Nodup ∧
    ∀ i, i ∈ positions ↔ words[i]? = some word

/-- The words of a text with their places. -/
def placedWords (words : List Text) : List (ℕ × Text) := words.zipIdx.map Prod.swap

theorem mem_placedWords {words : List Text} {i : ℕ} {word : Text} :
    (i, word) ∈ placedWords words ↔ words[i]? = some word := by
  unfold placedWords
  rw [List.mem_map]
  constructor
  · rintro ⟨⟨word', i'⟩, hmem, heq⟩
    obtain ⟨rfl, rfl⟩ := Prod.mk.inj heq
    exact List.mem_zipIdx_iff_getElem?.mp hmem
  · intro h
    exact ⟨(word, i), List.mem_zipIdx_iff_getElem?.mpr h, rfl⟩

theorem placedWords_fst (words : List Text) :
    (placedWords words).map Prod.fst = List.range words.length := by
  unfold placedWords
  rw [List.map_map, List.range_eq_range', ← List.zipIdx_map_snd 0 words]
  rfl

theorem placedWords_snd (words : List Text) : (placedWords words).map Prod.snd = words := by
  unfold placedWords
  rw [List.map_map]
  exact List.zipIdx_map_fst 0 words

theorem placedWords_pairwise (words : List Text) :
    (placedWords words).Pairwise fun a b => a.1 < b.1 := by
  apply List.pairwise_map.mp
  rw [placedWords_fst]
  exact List.pairwise_lt_range

theorem wordPositions_eq {word : Text} {items : List Json} {positions : List ℕ}
    (h : items.map Json.asU64 = positions.map some) :
    wordPositions word (.array items) = positions.map fun i => (i, word) := by
  have hitems : wordPositions word (.array items) =
      (items.map Json.asU64).filterMap (Option.map fun i => (i, word)) := by
    rw [List.filterMap_map]
    rfl
  rw [hitems, h, List.filterMap_map, ← List.filterMap_eq_map]
  rfl

variable {words : List Text} {members : List (Text × Json)}

theorem InvertedIndex.mem_wordPositions (h : InvertedIndex words members) {word : Text}
    {idxs : Json} (hmem : (word, idxs) ∈ members) :
    (wordPositions word idxs).Nodup ∧ ∀ i word', (i, word') ∈ wordPositions word idxs ↔
      word' = word ∧ words[i]? = some word := by
  obtain ⟨items, positions, rfl, hitems, hnodup, hplaces⟩ := h.positions word idxs hmem
  rw [wordPositions_eq hitems]
  constructor
  · apply hnodup.map
    intro a b hab
    exact (Prod.mk.inj hab).1
  · intro i word'
    rw [List.mem_map]
    constructor
    · rintro ⟨i', hi', heq⟩
      obtain ⟨rfl, rfl⟩ := Prod.mk.inj heq
      exact ⟨rfl, (hplaces i').mp hi'⟩
    · rintro ⟨rfl, hi⟩
      exact ⟨i, (hplaces i).mpr hi, rfl⟩

/-- The index lists the words of the text at their places, each once. -/
theorem InvertedIndex.perm (h : InvertedIndex words members) :
    (indexPositions (some (.object members))).Perm (placedWords words) := by
  have hwords : (placedWords words).Nodup :=
    (placedWords_pairwise words).imp fun hlt heq => hlt.ne (congrArg Prod.fst heq)
  have hindex : (indexPositions (some (.object members))).Nodup := by
    apply List.nodup_flatMap.mpr
    constructor
    · intro entry hentry
      exact (h.mem_wordPositions hentry).1
    · have hkeys : members.Pairwise fun a b => a.1 ≠ b.1 := List.pairwise_map.mp h.keys
      apply hkeys.imp_of_mem
      intro a b ha hb hne entry hentry hentry'
      apply hne
      obtain ⟨i, word⟩ := entry
      rw [← (((h.mem_wordPositions ha).2 i word).mp hentry).1,
        ← (((h.mem_wordPositions hb).2 i word).mp hentry').1]
  apply (List.perm_ext_iff_of_nodup hindex hwords).mpr
  rintro ⟨i, word⟩
  rw [mem_placedWords]
  constructor
  · intro hmem
    obtain ⟨entry, hentry, hplace⟩ := List.mem_flatMap.mp hmem
    obtain ⟨rfl, hi⟩ := ((h.mem_wordPositions hentry).2 i word).mp hplace
    exact hi
  · intro hi
    obtain ⟨entry, hentry, rfl⟩ := List.mem_map.mp (h.listed word (List.mem_of_getElem? hi))
    exact List.mem_flatMap.mpr
      ⟨entry, hentry, ((h.mem_wordPositions hentry).2 i entry.1).mpr ⟨rfl, hi⟩⟩

/-- Sorting by positions leaves one order when no position is listed twice. -/
theorem insertionSort_positions {entries placed : List (ℕ × Text)} (hperm : entries.Perm placed)
    (hplaced : placed.Pairwise fun a b => a.1 < b.1) :
    (entries.insertionSort fun a b => a.1 ≤ b.1) = placed := by
  have hsorted : (entries.insertionSort fun a b => a.1 ≤ b.1).Pairwise fun a b => a.1 ≤ b.1 := by
    have htotal : Std.Total fun a b : ℕ × Text => a.1 ≤ b.1 := ⟨fun a b => Nat.le_total a.1 b.1⟩
    have htrans : IsTrans (ℕ × Text) fun a b => a.1 ≤ b.1 := ⟨fun _ _ _ => Nat.le_trans⟩
    exact List.pairwise_insertionSort _ _
  have hall := (List.perm_insertionSort (fun a b => a.1 ≤ b.1) entries).trans hperm
  apply List.Perm.eq_of_pairwise _ hsorted (hplaced.imp Nat.le_of_lt) hall
  intro a b ha hb hab hba
  have hinj : (placed.map Prod.fst).Nodup := List.pairwise_map.mpr (hplaced.imp Nat.ne_of_lt)
  exact List.inj_on_of_nodup_map hinj (hall.mem_iff.mp ha) hb (Nat.le_antisymm hab hba)

/-- An inverted index gives its text back, and whatever is given the text holds a key for every
unsigned integer that is listed under it, in the order of these integers. -/
theorem reconstructAbstract_inverts :
    (∀ words members, InvertedIndex words members →
      reconstructAbstract (some (.object members)) = joinWords words) ∧
    ∀ inverted, ∃ placed : List (ℕ × Text), placed.Perm (indexPositions inverted) ∧
      (placed.Pairwise fun a b => a.1 ≤ b.1) ∧
      reconstructAbstract inverted = joinWords (placed.map Prod.snd) := by
  constructor
  · intro words members h
    unfold reconstructAbstract
    rw [insertionSort_positions h.perm (placedWords_pairwise words), placedWords_snd]
  · intro inverted
    use (indexPositions inverted).insertionSort fun a b => a.1 ≤ b.1
    constructor
    · exact List.perm_insertionSort _ _
    · constructor
      · have htotal : Std.Total fun a b : ℕ × Text => a.1 ≤ b.1 := ⟨fun a b => Nat.le_total a.1 b.1⟩
        have htrans : IsTrans (ℕ × Text) fun a b => a.1 ≤ b.1 := ⟨fun _ _ _ => Nat.le_trans⟩
        exact List.pairwise_insertionSort _ _
      · rfl

/-- Places below the length are enough. -/
theorem mem_positions_iff {word : Text} {positions : List ℕ}
    (hbound : ∀ i ∈ positions, i < words.length)
    (h : ∀ i < words.length, (i ∈ positions ↔ words[i]? = some word)) (i : ℕ) :
    i ∈ positions ↔ words[i]? = some word := by
  constructor
  · intro hi
    exact (h i (hbound i hi)).mp hi
  · intro hi
    obtain ⟨hlt, -⟩ := List.getElem?_eq_some_iff.mp hi
    exact (h i hlt).mpr hi

theorem toBe_inverts :
    reconstructAbstract (some (.object
      [("be".toList, .array [.number "5".toList, .number "1".toList]),
        ("not".toList, .array [.number "3".toList]), ("or".toList, .array [.number "2".toList]),
        ("to".toList, .array [.number "0".toList, .number "4".toList])])) =
      joinWords (["to", "be", "or", "not", "to", "be"].map String.toList) := by
  apply reconstructAbstract_inverts.1
  constructor
  · decide
  · decide
  · intro word idxs hmem
    simp only [List.mem_cons, Prod.mk.injEq, List.not_mem_nil, or_false] at hmem
    obtain ⟨rfl, rfl⟩ | ⟨rfl, rfl⟩ | ⟨rfl, rfl⟩ | ⟨rfl, rfl⟩ := hmem
    · exact ⟨_, [5, 1], rfl, by decide, by decide, mem_positions_iff (by decide) (by decide)⟩
    · exact ⟨_, [3], rfl, by decide, by decide, mem_positions_iff (by decide) (by decide)⟩
    · exact ⟨_, [2], rfl, by decide, by decide, mem_positions_iff (by decide) (by decide)⟩
    · exact ⟨_, [0, 4], rfl, by decide, by decide, mem_positions_iff (by decide) (by decide)⟩

/-- An unsigned integer literal, however large. -/
def wholeNumber : Json → Option ℕ
  | .number literal =>
    if !literal.isEmpty && literal.all Char.isDigit then
      some (literal.foldl (fun n c => n * 10 + (c.toNat - '0'.toNat)) 0)
    else none
  | _ => none

/-- The unsigned integers that are listed, with their keys. -/
def listedIntegers (members : List (Text × List Json)) : List (ℕ × Text) :=
  members.flatMap fun entry => (entry.2.filterMap wholeNumber).map fun i => (i, entry.1)

/-- A listed integer that does not fit into 64 bits has no word in the text. -/
theorem farPosition_dropped : ¬∀ members : List (Text × List Json),
    ∃ placed : List (ℕ × Text), placed.Perm (listedIntegers members) ∧
      reconstructAbstract (some (.object (members.map fun entry => (entry.1, .array entry.2)))) =
        joinWords (placed.map Prod.snd) := by
  intro h
  obtain ⟨placed, hperm, htext⟩ := h [("far".toList, [.number "18446744073709551616".toList])]
  have hlisted : listedIntegers [("far".toList, [.number "18446744073709551616".toList])] =
      [(2 ^ 64, "far".toList)] := by decide +kernel
  rw [hlisted] at hperm
  rw [List.perm_singleton.mp hperm] at htext
  revert htext
  decide +kernel

end DeepseekScience.Tools
