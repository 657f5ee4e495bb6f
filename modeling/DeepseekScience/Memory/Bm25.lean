import Mathlib.Algebra.Order.Field.Rat
import DeepseekScience.Db.Memories

/-! The ranking of memories: the tokenizer, the Okapi score, the stateless ranking that
consolidation uses, and the index that recall keeps. -/
namespace DeepseekScience.Memory

open Db

/-- The Unicode tables of the language. -/
structure Unicode where
  isAlphanumeric : Char → Bool
  toLowercase : Text → Text

/-- Floating-point arithmetic on finite numbers: each operation rounds its exact result. -/
structure Floats where
  round : ℚ → ℚ
  ln : ℚ → ℚ

/-- How a hash map happens to iterate over its entries. -/
structure HashOrder where
  shuffle : List (Text × List Text) → List (Text × List Text)
  perm : ∀ docs, (shuffle docs).Perm docs

def insertionOrder : HashOrder := ⟨id, List.Perm.refl⟩

/-! Tokens. -/

def stopwordsEn : List Text :=
  ["the", "a", "an", "and", "or", "but", "of", "to", "in", "on", "at", "for", "is", "are", "was",
    "were", "be", "been", "being", "this", "that", "these", "those", "it", "its", "as", "by",
    "with", "from", "about", "into", "i", "you", "he", "she", "we", "they"].map String.toList

def stopwordsZh : List Text :=
  ["的", "了", "是", "在", "我", "你", "他", "她", "它", "们", "和", "与", "或", "也", "都", "这",
    "那", "有", "为", "以", "及", "等"].map String.toList

def isCjk (ch : Char) : Bool :=
  let c := ch.toNat
  (decide (0x4E00 ≤ c) && decide (c ≤ 0x9FFF)) || (decide (0x3400 ≤ c) && decide (c ≤ 0x4DBF)) ||
    (decide (0x3000 ≤ c) && decide (c ≤ 0x303F))

def pushBuf (u : Unicode) (buf : Text) (out : List Text) : List Text :=
  if buf.isEmpty then out
  else
    let w := u.toLowercase buf
    if w ∈ stopwordsEn then out else out ++ [w]

def pushCjk (ch : Char) (out : List Text) : List Text :=
  if isCjk ch = true ∧ [ch] ∉ stopwordsZh then out ++ [[ch]] else out

def tokenizeFrom (u : Unicode) : Text → Text → List Text → List Text
  | [], buf, out => pushBuf u buf out
  | ch :: text, buf, out =>
    if u.isAlphanumeric ch && !isCjk ch then tokenizeFrom u text (buf ++ [ch]) out
    else tokenizeFrom u text [] (pushCjk ch (pushBuf u buf out))

def tokenize (u : Unicode) (text : Text) : List Text := tokenizeFrom u text [] []

/-! Scores. -/

def bm25K1 : ℚ := 3 / 2

def bm25B : ℚ := 3 / 4

variable (u : Unicode) (f : Floats)

/-- What one term of the query adds to the score of a document in which it occurs. -/
def termScore (tf dl df n avgdl : ℚ) : ℚ :=
  let idf := max (f.ln (f.round (f.round (f.round (f.round (n - df) + 1 / 2) /
    f.round (df + 1 / 2)) + 1))) 0
  let denom := f.round (tf + f.round (bm25K1 * f.round (f.round (1 - bm25B) +
    f.round (bm25B * f.round (dl / max avgdl 1)))))
  f.round (f.round (idf * f.round (tf * f.round (bm25K1 + 1))) / denom)

/-- The score of a document; `df` counts the documents with a term. -/
def scoreDoc (doc qTerms : List Text) (df : Text → ℕ) (n : ℕ) (avgdl : ℚ) : ℚ :=
  qTerms.foldl (fun s t =>
    if doc.count t = 0 then s
    else if df t = 0 then s
    else f.round (s + termScore f (doc.count t) doc.length (df t) n avgdl)) 0

/-- The number of documents with a term. -/
def docFreq (docs : List (List Text)) (t : Text) : ℕ := docs.countP fun d => decide (t ∈ d)

/-- `recall` without an index: the ranking of the candidates, the best one first. -/
def bm25Recall (candidates : List MemoryRow) (query : Text) : List (MemoryRow × ℚ) :=
  let docs := candidates.map fun m => tokenize u m.body
  let n := docs.length
  let avgdl := f.round ((docs.map List.length).sum / max (n : ℚ) 1)
  let qTerms := tokenize u query
  let scored := candidates.filterMap fun m =>
    let s := scoreDoc f (tokenize u m.body) qTerms (docFreq docs) n avgdl
    if 0 < s then some (m, s) else none
  scored.insertionSort fun x y => y.2 ≤ x.2

/-- Here a term counts once for each of its occurrences, in a corpus of one document. -/
def selfScore (bodyUsedAsQuery : Text) : ℚ :=
  let doc := tokenize u bodyUsedAsQuery
  if doc.isEmpty then 0 else scoreDoc f doc doc doc.count 1 doc.length

/-- The index of recall: the tokens of each document under its id, in the order in which the
map iterates. The posting lists are read off the documents. -/
structure RecallIndex where
  docs : List (Text × List Text)
  n : ℕ
  avgdl : ℚ

namespace RecallIndex

def documents (candidates : List MemoryRow) : List (Text × List Text) :=
  candidates.map fun m => (m.id, tokenize u m.body)

def averageLength (docs : List (Text × List Text)) : ℚ :=
  if docs.length = 0 then 0
  else f.round ((docs.map fun d => d.2.length).sum / (docs.length : ℚ))

def build (order : HashOrder) (candidates : List MemoryRow) : RecallIndex :=
  let docs := documents u candidates
  { docs := order.shuffle docs
    n := docs.length
    avgdl := averageLength f docs }

def isEmpty (index : RecallIndex) : Bool := index.n == 0

def df (index : RecallIndex) : Text → ℕ := docFreq (index.docs.map Prod.snd)

/-- The score of a document of the index. -/
def score (index : RecallIndex) (query : Text) (doc : List Text) : ℚ :=
  scoreDoc f doc (tokenize u query) index.df index.n index.avgdl

def scored (index : RecallIndex) (query : Text) : List (Text × ℚ) :=
  index.docs.filterMap fun d =>
    let s := index.score u f query d.2
    if 0 < s then some (d.1, s) else none

def search (index : RecallIndex) (query : Text) (topN : ℕ) : List (Text × ℚ) :=
  if index.isEmpty then []
  else ((index.scored u f query).insertionSort fun x y => y.2 ≤ x.2).take topN

/-- The score of a document among the given ones. -/
def docScore (docs : List (Text × List Text)) (query : Text) (doc : List Text) : ℚ :=
  scoreDoc f doc (tokenize u query) (docFreq (docs.map Prod.snd)) docs.length
    (averageLength f docs)

/-- The index holds the given documents, in any order. -/
structure IndexOf (index : RecallIndex) (docs : List (Text × List Text)) : Prop where
  perm : index.docs.Perm docs
  count : index.n = docs.length
  average : index.avgdl = averageLength f docs

variable {u f} {index : RecallIndex} {docs docs' : List (Text × List Text)} {query : Text}
  {topN : ℕ} {hit : Text × ℚ}

theorem averageLength_perm (h : docs.Perm docs') :
    averageLength f docs = averageLength f docs' := by
  unfold averageLength
  rw [h.length_eq, (h.map fun d => d.2.length).sum_eq]

theorem indexOf_build (order : HashOrder) (candidates : List MemoryRow) :
    IndexOf f (build u f order candidates) (documents u candidates) :=
  ⟨order.perm _, rfl, rfl⟩

theorem IndexOf.of_perm (h : IndexOf f index docs) (hperm : docs.Perm docs') :
    IndexOf f index docs' :=
  ⟨h.perm.trans hperm, h.count.trans hperm.length_eq, h.average.trans (averageLength_perm hperm)⟩

theorem IndexOf.score_eq (h : IndexOf f index docs) (doc : List Text) :
    index.score u f query doc = docScore u f docs query doc := by
  unfold score docScore df
  have hdf : docFreq (index.docs.map Prod.snd) = docFreq (docs.map Prod.snd) :=
    funext fun t => (h.perm.map Prod.snd).countP_eq _
  rw [hdf, h.count, h.average]

theorem IndexOf.isEmpty_iff (h : IndexOf f index docs) : index.isEmpty = true ↔ docs = [] := by
  unfold isEmpty
  rw [h.count, beq_iff_eq, List.length_eq_zero_iff]

theorem mem_scored : hit ∈ index.scored u f query ↔
    ∃ d ∈ index.docs, 0 < index.score u f query d.2 ∧ hit = (d.1, index.score u f query d.2) := by
  unfold scored
  rw [List.mem_filterMap]
  constructor
  · rintro ⟨d, hd, hhit⟩
    simp only [Option.ite_none_right_eq_some, Option.some.injEq] at hhit
    exact ⟨d, hd, hhit.1, hhit.2.symm⟩
  · rintro ⟨d, hd, hpos, rfl⟩
    exact ⟨d, hd, if_pos hpos⟩

theorem mem_scored_of_mem_search (h : hit ∈ index.search u f query topN) :
    hit ∈ index.scored u f query := by
  unfold search at h
  split_ifs at h
  · exact absurd h List.not_mem_nil
  · exact (List.mem_insertionSort _).mp (List.mem_of_mem_take h)

/-- Whatever the index holds it answers with when there is room for it. -/
theorem IndexOf.mem_search (h : IndexOf f index docs)
    (hroom : (index.scored u f query).length ≤ topN) (hhit : hit ∈ index.scored u f query) :
    hit ∈ index.search u f query topN := by
  have hdocs : docs ≠ [] := by
    rintro rfl
    obtain ⟨d, hd, -, -⟩ := mem_scored.mp hhit
    exact absurd (h.perm.subset hd) List.not_mem_nil
  unfold search
  rw [if_neg (mt h.isEmpty_iff.mp hdocs), List.take_of_length_le]
  · exact (List.mem_insertionSort _).mpr hhit
  · rw [List.length_insertionSort]
    exact hroom

theorem IndexOf.length_scored (h : IndexOf f index docs) : (index.scored u f query).length =
    docs.countP fun d => decide (0 < docScore u f docs query d.2) := by
  unfold scored
  rw [(h.perm.filterMap _).length_eq, List.length_filterMap_eq_countP]
  refine List.countP_congr fun d _ => ?_
  simp only [h.score_eq]
  split_ifs with hpos
  · exact ⟨fun _ => decide_eq_true hpos, fun _ => rfl⟩
  · exact ⟨fun h => absurd h (by simp), fun h => absurd (of_decide_eq_true h) hpos⟩

end RecallIndex

end DeepseekScience.Memory
