import DeepseekScience.Llm.Secrets
import DeepseekScience.Llm.Sse

/-! The text that an error of the provider is reported with: the beginning of the body of its
answer, without credentials, however the network has cut the body. -/
namespace DeepseekScience.Llm

open Redaction

def errorBodyByteLimit : ℕ := 8 * 1024

def errorBodyCharLimit : ℕ := 500

structure BoundedBody where
  bytes : List UInt8
  truncated : Bool
  readFailed : Bool
  deriving DecidableEq

/-- The loop of `collect_bounded_body`, with the bytes that it has so far. -/
def collectFrom (byteLimit : ℕ) (bytes : List UInt8) : List Arrival → BoundedBody
  | [] => ⟨bytes, false, false⟩
  | .chunk chunk :: rest =>
    let remaining := byteLimit - bytes.length
    if remaining = 0 then ⟨bytes, true, false⟩
    else
      let taken := min remaining chunk.length
      let bytes := bytes ++ chunk.take taken
      if taken < chunk.length ∨ bytes.length = byteLimit then ⟨bytes, true, false⟩
      else collectFrom byteLimit bytes rest
  | _ :: _ => ⟨bytes, false, true⟩

def collectBoundedBody (chunks : List Arrival) (byteLimit : ℕ) : BoundedBody :=
  collectFrom byteLimit [] chunks

def truncateSnippet (value suffix : Text) : Text :=
  if suffix = [] ∧ value.length ≤ errorBodyCharLimit then value
  else
    let suffixChars := min suffix.length errorBodyCharLimit
    value.take (errorBodyCharLimit - suffixChars) ++ suffix.take suffixChars

def bodySuffix (body : BoundedBody) (redacted : Text) : Text :=
  if body.readFailed then " … [body read failed]".toList
  else if body.truncated ∨ errorBodyCharLimit < redacted.length then " … [truncated]".toList
  else []

/-- The redaction may fail in the model of its scanners, which it never does. -/
def errorBodySnippet (chunks : List Arrival) : Except RedactFault Text :=
  let body := collectBoundedBody chunks errorBodyByteLimit
  if body.bytes = [] ∧ body.readFailed = true then .ok "<failed to read error body>".toList
  else do
    let redacted ← redactCredentials (fromUtf8Lossy body.bytes)
    return truncateSnippet redacted (bodySuffix body redacted)

/-- The bytes that arrive, and whether the body breaks off behind them. -/
def delivered : List Arrival → List UInt8 × Bool
  | [] => ([], false)
  | .chunk chunk :: rest => (chunk ++ (delivered rest).1, (delivered rest).2)
  | _ :: _ => ([], true)

theorem collectFrom_eq {byteLimit : ℕ} (bytes : List UInt8) (hbytes : bytes.length < byteLimit)
    (chunks : List Arrival) :
    collectFrom byteLimit bytes chunks =
      if byteLimit ≤ bytes.length + (delivered chunks).1.length then
        ⟨(bytes ++ (delivered chunks).1).take byteLimit, true, false⟩
      else ⟨bytes ++ (delivered chunks).1, false, (delivered chunks).2⟩ := by
  induction chunks generalizing bytes with
  | nil => simp [collectFrom, delivered, hbytes]
  | cons arrival rest ih =>
    cases arrival with
    | chunk chunk =>
      have hroom : ¬ byteLimit - bytes.length = 0 := by omega
      simp only [collectFrom, delivered, if_neg hroom, List.length_append]
      by_cases hfull : byteLimit ≤ bytes.length + chunk.length
      · have hstop : min (byteLimit - bytes.length) chunk.length < chunk.length ∨
            bytes.length + (chunk.take (min (byteLimit - bytes.length) chunk.length)).length =
              byteLimit := by
          simp only [List.length_take]
          omega
        have htake : bytes ++ chunk.take (min (byteLimit - bytes.length) chunk.length) =
            (bytes ++ (chunk ++ (delivered rest).1)).take byteLimit := by
          rw [min_eq_left (by omega), List.take_append, List.take_of_length_le hbytes.le,
            List.take_append_of_le_length (by omega)]
        rw [if_pos hstop, if_pos (by omega), htake]
      · have htake : min (byteLimit - bytes.length) chunk.length = chunk.length := by omega
        have hgo : ¬ (chunk.length < chunk.length ∨ bytes.length + chunk.length = byteLimit) := by
          omega
        rw [htake, List.take_length, if_neg hgo, ih _ (by simp; omega)]
        simp only [List.length_append, List.append_assoc, Nat.add_assoc]
    | _ => simp [collectFrom, delivered, hbytes]

/-- The collected body does not depend on where the network has cut it. -/
theorem collectBoundedBody_eq {byteLimit : ℕ} (hlimit : 0 < byteLimit) (chunks : List Arrival) :
    collectBoundedBody chunks byteLimit =
      if byteLimit ≤ (delivered chunks).1.length then
        ⟨(delivered chunks).1.take byteLimit, true, false⟩
      else ⟨(delivered chunks).1, false, (delivered chunks).2⟩ := by
  have hcollect := collectFrom_eq [] hlimit chunks
  simpa [collectBoundedBody] using hcollect

theorem truncateSnippet_length (value suffix : Text) :
    (truncateSnippet value suffix).length ≤ errorBodyCharLimit := by
  unfold truncateSnippet
  split
  · rename_i hshort
    exact hshort.2
  · simp only [List.length_append, List.length_take]
    omega

/-- What is kept of a text, and the suffix behind it. -/
theorem truncateSnippet_shape (value suffix : Text) :
    ∃ n m, truncateSnippet value suffix = value.take n ++ suffix.take m := by
  unfold truncateSnippet
  split
  · rename_i hshort
    exact ⟨value.length, 0, by simp⟩
  · exact ⟨_, _, rfl⟩

theorem errorBodySnippet_ok (chunks : List Arrival) :
    ∃ snippet, errorBodySnippet chunks = .ok snippet ∧ snippet.length ≤ errorBodyCharLimit := by
  unfold errorBodySnippet
  simp only
  split
  · exact ⟨_, rfl, by decide⟩
  · obtain ⟨-, redacted, -, hredacted, -⟩ := redactCredentials_spec
      (fromUtf8Lossy (collectBoundedBody chunks errorBodyByteLimit).bytes)
    rw [hredacted]
    exact ⟨_, rfl, truncateSnippet_length _ _⟩

/-- The suffixes, and the text for a body of which nothing could be read. -/
def fixedSnippets : List Text :=
  ["<failed to read error body>".toList, " … [body read failed]".toList, " … [truncated]".toList, []]

/-- The text of an error is short and does not depend on where the network has cut the body, and
what it quotes of the body has gone through the redaction. -/
theorem errorBodySnippet_spec (chunks : List Arrival) :
    ∃ snippet, errorBodySnippet chunks = .ok snippet ∧ snippet.length ≤ errorBodyCharLimit ∧
      (∀ chunks', delivered chunks' = delivered chunks → errorBodySnippet chunks' = .ok snippet) ∧
      ∃ redacted, redactCredentials
          (fromUtf8Lossy ((delivered chunks).1.take errorBodyByteLimit)) = .ok redacted ∧
        ∃ n m, ∃ fixed ∈ fixedSnippets, snippet = redacted.take n ++ fixed.take m := by
  obtain ⟨snippet, hsnippet, hlength⟩ := errorBodySnippet_ok chunks
  have hlimit : 0 < errorBodyByteLimit := by decide
  refine ⟨snippet, hsnippet, hlength, ?_, ?_⟩
  · intro chunks' hsame
    have hbody : collectBoundedBody chunks' errorBodyByteLimit =
        collectBoundedBody chunks errorBodyByteLimit := by
      rw [collectBoundedBody_eq hlimit, collectBoundedBody_eq hlimit, hsame]
    rw [errorBodySnippet, hbody]
    exact hsnippet
  · have hbytes : (collectBoundedBody chunks errorBodyByteLimit).bytes =
        (delivered chunks).1.take errorBodyByteLimit := by
      rw [collectBoundedBody_eq hlimit]
      split
      · rfl
      · rename_i hshort
        exact (List.take_of_length_le (Nat.le_of_not_le hshort)).symm
    obtain ⟨-, redacted, -, hredacted, -⟩ := redactCredentials_spec
      (fromUtf8Lossy ((delivered chunks).1.take errorBodyByteLimit))
    refine ⟨redacted, hredacted, ?_⟩
    simp only [errorBodySnippet, hbytes, hredacted] at hsnippet
    split at hsnippet
    · obtain rfl := Except.ok.inj hsnippet
      refine ⟨0, errorBodyCharLimit, _, List.mem_cons_self, ?_⟩
      rw [List.take_zero, List.nil_append]
      exact (List.take_of_length_le (by decide)).symm
    · obtain rfl := Except.ok.inj hsnippet
      obtain ⟨n, m, hshape⟩ := truncateSnippet_shape redacted
        (bodySuffix (collectBoundedBody chunks errorBodyByteLimit) redacted)
      refine ⟨n, m, _, ?_, hshape⟩
      unfold bodySuffix fixedSnippets
      split_ifs <;> simp

end DeepseekScience.Llm
