import DeepseekScience.Dsml.Parser

/-! The incremental guard releases only text that cannot be part of a textual tool
envelope. Its cursors are tied to the whole turn by one invariant, which every push and
every external freeze keeps; the terminal decision then agrees with the whole-turn parse. -/
namespace DeepseekScience.Dsml

inductive IncrementalAssistantTextResult where
  | plain (text : Text)
  | toolCalls (visibleText : Text) (calls : List ParsedDsmlCall)
  deriving DecidableEq

inductive IncrementalAssistantTextState where
  | leadingWhitespace | streamingPlain
  deriving DecidableEq, Repr

/-- The cursors count bytes of `text`. -/
structure IncrementalAssistantTextGuard where
  text : Text := []
  state : IncrementalAssistantTextState := .leadingWhitespace
  scanCursor : ℕ := 0
  releasedCursor : ℕ := 0
  publicationFrozen : Bool := false
  observedRawLt : Bool := false
  deriving DecidableEq

/-- Scan to the first character that is not whitespace: the cursor behind it, and the character. -/
def scanLeadingFrom : Text → ℕ → ℕ × Option Char
  | [], cursor => (cursor, none)
  | c :: rest, cursor =>
    if isWhitespace c then scanLeadingFrom rest (cursor + c.utf8Size)
    else (cursor + c.utf8Size, some c)

/-- Scan to the first raw `<`: the cursor behind it, and its offset. -/
def scanPlainFrom : Text → ℕ → ℕ × Option ℕ
  | [], cursor => (cursor, none)
  | c :: rest, cursor =>
    if c = '<' then (cursor + 1, some cursor) else scanPlainFrom rest (cursor + c.utf8Size)

namespace IncrementalAssistantTextGuard

def bufferedLen (g : IncrementalAssistantTextGuard) : ℕ := byteLen g.text

/-- Stop incremental publication without discarding the canonical buffer. -/
def freezePublication (g : IncrementalAssistantTextGuard) : IncrementalAssistantTextGuard :=
  { g with publicationFrozen := true }

def scanLeading (g : IncrementalAssistantTextGuard) : IncrementalAssistantTextGuard :=
  match scanLeadingFrom (dropBytes g.scanCursor g.text) g.scanCursor with
  | (cursor, none) => { g with scanCursor := cursor }
  | (cursor, some c) =>
    if c = '<' then
      { g with scanCursor := cursor, observedRawLt := true, publicationFrozen := true }
    else { g with scanCursor := cursor, state := .streamingPlain }

def releasePlain (g : IncrementalAssistantTextGuard) (publicationWasFrozen : Bool) :
    Option Text × IncrementalAssistantTextGuard :=
  let (cursor, lt) := scanPlainFrom (dropBytes g.scanCursor g.text) g.scanCursor
  let safeEnd := lt.getD (byteLen g.text)
  let scanned :=
    { g with
      scanCursor := cursor
      observedRawLt := lt.isSome
      publicationFrozen := g.publicationFrozen || lt.isSome }
  if publicationWasFrozen || safeEnd = g.releasedCursor then (none, scanned)
  else
    (some (takeBytes (safeEnd - g.releasedCursor) (dropBytes g.releasedCursor g.text)),
      { scanned with releasedCursor := safeEnd })

/-- The scan of a delta that passed the size check and is already in the buffer. -/
def scanDelta (g : IncrementalAssistantTextGuard) : Option Text × IncrementalAssistantTextGuard :=
  if g.observedRawLt then (none, g)
  else
    let scanned := if g.state = .leadingWhitespace then g.scanLeading else g
    if scanned.observedRawLt || scanned.state = .leadingWhitespace then (none, scanned)
    else scanned.releasePlain g.publicationFrozen

/-- Buffer one provider delta and return the newly irrevocable plain prefix, if any. A
failed size check leaves the guard unchanged. -/
def push (g : IncrementalAssistantTextGuard) (chunk : Text) :
    Except DsmlError (Option Text × IncrementalAssistantTextGuard) :=
  if maxAssistantTextBytes < byteLen g.text + byteLen chunk then .error .tooLarge
  else .ok ({ g with text := g.text ++ chunk }.scanDelta)

/-- The canonical whole-turn decision, with only the text that `push` did not release. -/
def finish (json : SerdeJson) (g : IncrementalAssistantTextGuard) :
    Except DsmlError IncrementalAssistantTextResult :=
  match parseAssistantText json g.text with
  | .error e => .error e
  | .ok (.plain text) => .ok (.plain (dropBytes g.releasedCursor text))
  | .ok (.toolCalls visibleText calls) => .ok (.toolCalls visibleText calls)

end IncrementalAssistantTextGuard

/-- The part of a turn in front of its first raw `<`. -/
def plainPrefix (t : Text) : Text := t.takeWhile (· != '<')

theorem plainPrefix_of_notMem {t : Text} (h : '<' ∉ t) : plainPrefix t = t := by
  apply List.takeWhile_eq_self_iff.mpr
  intro c hc
  have : c ≠ '<' := fun he => h (he ▸ hc)
  simpa using this

theorem plainPrefix_append {a : Text} (h : '<' ∉ a) (b : Text) :
    plainPrefix (a ++ b) = a ++ plainPrefix b := by
  apply List.takeWhile_append_of_pos
  intro c hc
  have : c ≠ '<' := fun he => h (he ▸ hc)
  simpa using this

theorem plainPrefix_append_lt {a : Text} (h : '<' ∉ a) (b : Text) :
    plainPrefix (a ++ '<' :: b) = a := by
  rw [plainPrefix_append h]
  simp [plainPrefix]

theorem plainPrefix_append_of_mem {a : Text} (h : '<' ∈ a) (b : Text) :
    plainPrefix (a ++ b) = plainPrefix a := by
  obtain ⟨s, r, rfl, hs⟩ := List.eq_append_cons_of_mem h
  rw [List.append_assoc, List.cons_append, plainPrefix_append_lt hs, plainPrefix_append_lt hs]

theorem lt_notMem_plainPrefix (t : Text) : '<' ∉ plainPrefix t := by
  intro h
  simpa using List.mem_takeWhile_imp h

theorem plainPrefix_isPrefix (t : Text) : plainPrefix t <+: t := List.takeWhile_prefix _

theorem scanLeadingFrom_spec (s : Text) (n : ℕ) :
    (allWhitespace s = true ∧ scanLeadingFrom s n = (n + byteLen s, none)) ∨
      ∃ p c rest, s = p ++ c :: rest ∧ allWhitespace p = true ∧ isWhitespace c = false ∧
        scanLeadingFrom s n = (n + byteLen (p ++ [c]), some c) := by
  induction s generalizing n with
  | nil => exact Or.inl ⟨rfl, rfl⟩
  | cons c s ih =>
    by_cases hc : isWhitespace c = true
    · rcases ih (n + c.utf8Size) with ⟨hs, he⟩ | ⟨p, d, rest, rfl, hp, hd, he⟩
      · refine Or.inl ⟨by simpa [allWhitespace, hc] using hs, ?_⟩
        simp only [scanLeadingFrom, hc, if_true, he, byteLen_cons, Nat.add_assoc]
      · refine Or.inr ⟨c :: p, d, rest, rfl, by simpa [allWhitespace, hc] using hp, hd, ?_⟩
        simp only [scanLeadingFrom, hc, if_true, he, List.cons_append, byteLen_cons, Nat.add_assoc]
    · refine Or.inr ⟨[], c, s, rfl, rfl, by simpa using hc, ?_⟩
      simp [scanLeadingFrom, hc]

theorem scanPlainFrom_spec (s : Text) (n : ℕ) :
    ('<' ∉ s ∧ scanPlainFrom s n = (n + byteLen s, none)) ∨
      ∃ p rest, s = p ++ '<' :: rest ∧ '<' ∉ p ∧
        scanPlainFrom s n = (n + byteLen p + 1, some (n + byteLen p)) := by
  induction s generalizing n with
  | nil => exact Or.inl ⟨by simp, rfl⟩
  | cons c s ih =>
    by_cases hc : c = '<'
    · subst hc
      exact Or.inr ⟨[], s, rfl, by simp, by simp [scanPlainFrom]⟩
    · rcases ih (n + c.utf8Size) with ⟨hs, he⟩ | ⟨p, rest, rfl, hp, he⟩
      · refine Or.inl ⟨by simp [Ne.symm hc, hs], ?_⟩
        simp only [scanPlainFrom, hc, if_false, he, byteLen_cons, Nat.add_assoc]
      · refine Or.inr ⟨c :: p, rest, rfl, by simp [Ne.symm hc, hp], ?_⟩
        simp only [scanPlainFrom, hc, if_false, he, byteLen_cons, Nat.add_assoc]

/-- What the cursors of a guard say about its buffer, when `released` is the text that it
released so far. -/
structure Scanned (g : IncrementalAssistantTextGuard) (released : Text) : Prop where
  cursor : g.releasedCursor = byteLen released
  isPrefix : released <+: plainPrefix g.text
  observed : g.observedRawLt = decide ('<' ∈ g.text)
  scanned : g.observedRawLt = false → g.scanCursor = byteLen g.text
  frozen : g.observedRawLt = true → g.publicationFrozen = true
  leading : g.state = .leadingWhitespace ↔ allWhitespace (plainPrefix g.text) = true
  private_leading : g.state = .leadingWhitespace → released = []

theorem Scanned.new : Scanned {} [] where
  cursor := rfl
  isPrefix := List.nil_prefix
  observed := by simp
  scanned := fun _ => rfl
  frozen := by simp
  leading := by simp [plainPrefix, allWhitespace]
  private_leading := fun _ => rfl

theorem Scanned.freezePublication {g : IncrementalAssistantTextGuard} {released : Text}
    (h : Scanned g released) : Scanned g.freezePublication released :=
  ⟨h.cursor, h.isPrefix, h.observed, h.scanned, fun _ => rfl, h.leading, h.private_leading⟩

/-- Releasing from a guard in the plain state, which has scanned `a` of `a ++ b`. -/
theorem releasePlain_spec {g : IncrementalAssistantTextGuard} {released a b : Text}
    (htext : g.text = a ++ b) (hscan : g.scanCursor = byteLen a) (hlt : '<' ∉ a)
    (hws : allWhitespace a = false) (hstate : g.state = .streamingPlain)
    (hcursor : g.releasedCursor = byteLen released) (hpre : released <+: a) (frozen : Bool) :
    Scanned (g.releasePlain frozen).2 (released ++ (g.releasePlain frozen).1.getD []) ∧
      (g.releasePlain frozen).2.text = g.text ∧ (g.releasePlain frozen).1 ≠ some [] ∧
      (frozen = true → (g.releasePlain frozen).1 = none) ∧
      (g.publicationFrozen = true → (g.releasePlain frozen).2.publicationFrozen = true) := by
  obtain ⟨s, hs⟩ := hpre.trans (List.prefix_append a (plainPrefix b))
  rw [← plainPrefix_append hlt, ← htext] at hs
  obtain ⟨tail, ht⟩ := plainPrefix_isPrefix g.text
  have hsplit : g.text = released ++ (s ++ tail) := by rw [← List.append_assoc, hs, ht]
  -- The scan stops exactly at the end of the plain prefix.
  have hscanned : ∃ cursor lt, scanPlainFrom (dropBytes g.scanCursor g.text) g.scanCursor =
      (cursor, lt) ∧ lt.getD (byteLen g.text) = byteLen (plainPrefix g.text) ∧
      lt.isSome = decide ('<' ∈ g.text) ∧ (lt.isSome = false → cursor = byteLen g.text) := by
    rw [hscan, htext, dropBytes_append]
    rcases scanPlainFrom_spec b (byteLen a) with ⟨hb, he⟩ | ⟨p, rest, rfl, hp, he⟩
    · refine ⟨_, _, he, ?_, by simp [hlt, hb], by simp⟩
      rw [plainPrefix_of_notMem (by simp [hlt, hb]), Option.getD_none]
    · have hp' : '<' ∉ a ++ p := by simp [hlt, hp]
      refine ⟨_, _, he, ?_, by simp, by simp⟩
      rw [← List.append_assoc, plainPrefix_append_lt hp', Option.getD_some, byteLen_append]
  obtain ⟨cursor, lt, he, hsafe, hobs, hend⟩ := hscanned
  have hne : allWhitespace (plainPrefix g.text) = false := by
    rw [htext, plainPrefix_append hlt, allWhitespace_append, hws, Bool.false_and]
  have hlead : (g.state = .leadingWhitespace ↔ allWhitespace (plainPrefix g.text) = true) := by
    simp [hstate, hne]
  have hlen : byteLen (plainPrefix g.text) = byteLen released + byteLen s := by
    rw [← hs, byteLen_append]
  have hbyte : byteLen (plainPrefix g.text) - byteLen released = byteLen s := by omega
  have hout : takeBytes (byteLen s) (dropBytes (byteLen released) g.text) = s := by
    rw [hsplit, dropBytes_append, takeBytes_append]
  have hleading : g.state = .leadingWhitespace → released ++ s = [] := by simp [hstate]
  simp only [IncrementalAssistantTextGuard.releasePlain, he, hsafe, hcursor, hbyte, hout]
  split_ifs with hc
  · refine ⟨?_, rfl, by simp, fun _ => rfl, fun hf => by simp [hf]⟩
    rw [Option.getD_none, List.append_nil]
    exact ⟨rfl, ⟨s, hs⟩, hobs, hend, fun ho => Bool.or_eq_true_iff.mpr (Or.inr ho), hlead,
      fun hl => (List.append_eq_nil_iff.mp (hleading hl)).1⟩
  · simp only [Bool.or_eq_true, decide_eq_true_eq, not_or] at hc
    refine ⟨?_, rfl, ?_, fun hf => absurd hf hc.1, fun hf => by simp [hf]⟩
    · rw [Option.getD_some]
      exact ⟨by rw [hs], by rw [hs], hobs, hend,
        fun ho => Bool.or_eq_true_iff.mpr (Or.inr ho), hlead, hleading⟩
    · rintro ⟨⟩
      exact hc.2 (by rw [hlen]; rfl)

/-- One accepted delta keeps the invariant. -/
theorem scanDelta_spec {g : IncrementalAssistantTextGuard} {released : Text}
    (h : Scanned g released) (chunk : Text) :
    let r := { g with text := g.text ++ chunk }.scanDelta
    Scanned r.2 (released ++ r.1.getD []) ∧ r.2.text = g.text ++ chunk ∧ r.1 ≠ some [] ∧
      (g.publicationFrozen = true → r.1 = none ∧ r.2.publicationFrozen = true) := by
  intro r
  by_cases ho : g.observedRawLt = true
  · have hm : '<' ∈ g.text := by simpa [h.observed] using ho
    have hr : r = (none, { g with text := g.text ++ chunk }) := by
      simp [r, IncrementalAssistantTextGuard.scanDelta, ho]
    rw [hr]
    refine ⟨?_, rfl, by simp, fun hf => ⟨rfl, hf⟩⟩
    rw [Option.getD_none, List.append_nil]
    exact ⟨h.cursor, by simpa [plainPrefix_append_of_mem hm] using h.isPrefix,
      by simp [ho, hm], by simp [ho], h.frozen,
      by simpa [plainPrefix_append_of_mem hm] using h.leading, h.private_leading⟩
  · rw [Bool.not_eq_true] at ho
    have hm : '<' ∉ g.text := by simpa [h.observed] using ho
    have hcur := h.scanned ho
    have hself := plainPrefix_of_notMem hm
    have hpre : released <+: g.text := by simpa [hself] using h.isPrefix
    have hdrop : dropBytes g.scanCursor (g.text ++ chunk) = chunk := by
      rw [hcur, dropBytes_append]
    by_cases hl : g.state = .leadingWhitespace
    · have hrel := h.private_leading hl
      have hws : allWhitespace g.text = true := by simpa [hself] using h.leading.mp hl
      rcases scanLeadingFrom_spec chunk g.scanCursor with ⟨hw, he⟩ | ⟨p, c, rest, hsplit, hw, hc, he⟩
      · have hmc := lt_notMem_of_allWhitespace hw
        have hr : r = (none, { g with
            text := g.text ++ chunk
            scanCursor := g.scanCursor + byteLen chunk }) := by
          simp [r, IncrementalAssistantTextGuard.scanDelta,
            IncrementalAssistantTextGuard.scanLeading, ho, hl, hdrop, he]
        rw [hr]
        refine ⟨?_, rfl, by simp, fun hf => ⟨rfl, hf⟩⟩
        rw [Option.getD_none, List.append_nil]
        exact ⟨h.cursor, by simp [hrel], by simp [ho, hm, hmc], by simp [hcur], h.frozen,
          by simp [hl, plainPrefix_append hm, plainPrefix_of_notMem hmc, hws, hw],
          h.private_leading⟩
      · have hmp := lt_notMem_of_allWhitespace hw
        by_cases hlt : c = '<'
        · subst hlt
          have hr : r = (none, { g with
              text := g.text ++ chunk
              scanCursor := g.scanCursor + byteLen (p ++ ['<'])
              observedRawLt := true
              publicationFrozen := true }) := by
            simp [r, IncrementalAssistantTextGuard.scanDelta,
              IncrementalAssistantTextGuard.scanLeading, ho, hl, hdrop, he]
          rw [hr]
          refine ⟨?_, rfl, by simp, fun _ => ⟨rfl, rfl⟩⟩
          rw [Option.getD_none, List.append_nil]
          refine ⟨h.cursor, by simp [hrel], by simp [hsplit], by simp, fun _ => rfl, ?_,
            h.private_leading⟩
          simp [hl, hsplit, plainPrefix_append hm, plainPrefix_append_lt hmp, hws, hw]
        · have hr : r = ({ g with
              text := g.text ++ chunk
              scanCursor := g.scanCursor + byteLen (p ++ [c])
              state := .streamingPlain } : IncrementalAssistantTextGuard).releasePlain
                g.publicationFrozen := by
            simp [r, IncrementalAssistantTextGuard.scanDelta,
              IncrementalAssistantTextGuard.scanLeading, ho, hl, hdrop, he, hlt]
          have hspec := releasePlain_spec (g := { g with
              text := g.text ++ chunk
              scanCursor := g.scanCursor + byteLen (p ++ [c])
              state := .streamingPlain }) (a := g.text ++ (p ++ [c]))
            (b := rest) (by simp [hsplit]) (by simp [hcur]) (by simp [hm, hmp, Ne.symm hlt])
            (by simp [allWhitespace, hc]) rfl h.cursor
            (hpre.trans (List.prefix_append _ _)) g.publicationFrozen
          rw [← hr] at hspec
          exact ⟨hspec.1, hspec.2.1, hspec.2.2.1,
            fun hf => ⟨hspec.2.2.2.1 hf, hspec.2.2.2.2 hf⟩⟩
    · have hst : g.state = .streamingPlain := by
        cases hs : g.state with
        | leadingWhitespace => exact absurd hs hl
        | streamingPlain => rfl
      have hws : allWhitespace g.text = false := by
        have := mt h.leading.mpr hl
        simpa [hself] using this
      have hr : r = ({ g with text := g.text ++ chunk } :
          IncrementalAssistantTextGuard).releasePlain g.publicationFrozen := by
        simp [r, IncrementalAssistantTextGuard.scanDelta, ho, hst]
      have hspec := releasePlain_spec (g := { g with text := g.text ++ chunk }) (a := g.text) (b := chunk) rfl hcur hm hws hst h.cursor hpre
        g.publicationFrozen
      rw [← hr] at hspec
      exact ⟨hspec.1, hspec.2.1, hspec.2.2.1, fun hf => ⟨hspec.2.2.2.1 hf, hspec.2.2.2.2 hf⟩⟩

/-- A turn that is parsed as tool calls has only whitespace in front of its first `<`. -/
theorem allWhitespace_plainPrefix_of_toolCalls {json : SerdeJson} {text v : Text}
    {calls : List ParsedDsmlCall} (h : parseAssistantText json text = .ok (.toolCalls v calls)) :
    allWhitespace (plainPrefix text) = true := by
  rcases parseAssistantText_cases h with ⟨he, -⟩ | ⟨opener, _, _, hfind, hexec, -⟩
  · cases he
  · have hws := allWhitespace_of_isExecutableTopLevelOpener hexec
    obtain ⟨hb, hget⟩ := List.getElem?_eq_some_iff.mp (findNextVisibleDsmlTag_start hfind)
    have hsplit : text = text.take opener.start ++ '<' :: text.drop (opener.start + 1) := by
      rw [← hget, List.cons_getElem_drop_succ, List.take_append_drop]
    rw [hsplit, plainPrefix_append_lt (lt_notMem_of_allWhitespace hws)]
    exact hws

section
variable {json : SerdeJson} {g : IncrementalAssistantTextGuard}

theorem finish_plain_iff : (∃ r, g.finish json = .ok (.plain r)) ↔
    ∃ text, parseAssistantText json g.text = .ok (.plain text) := by
  unfold IncrementalAssistantTextGuard.finish
  split <;> simp_all

theorem finish_toolCalls_iff {v : Text} {calls : List ParsedDsmlCall} :
    g.finish json = .ok (.toolCalls v calls) ↔
      parseAssistantText json g.text = .ok (.toolCalls v calls) := by
  unfold IncrementalAssistantTextGuard.finish
  split <;> simp_all

theorem finish_error_iff {e : DsmlError} :
    g.finish json = .error e ↔ parseAssistantText json g.text = .error e := by
  unfold IncrementalAssistantTextGuard.finish
  split <;> simp_all

/-- A plain turn is the buffered text, so that its remainder is what was not released. -/
theorem finish_plain_eq {r : Text} (h : g.finish json = .ok (.plain r)) :
    r = dropBytes g.releasedCursor g.text := by
  unfold IncrementalAssistantTextGuard.finish at h
  split at h
  · cases h
  · rename_i text hp
    simp only [Except.ok.injEq, IncrementalAssistantTextResult.plain.injEq] at h
    rw [← h, parseAssistantText_plain_eq hp]
  · cases h

end

/-- One push below the size limit keeps the invariant; a frozen guard releases nothing. -/
theorem push_spec {g : IncrementalAssistantTextGuard} {released : Text} (h : Scanned g released)
    {chunk : Text} (hlen : byteLen (g.text ++ chunk) ≤ maxAssistantTextBytes) :
    ∃ out g', g.push chunk = .ok (out, g') ∧ Scanned g' (released ++ out.getD []) ∧
      g'.text = g.text ++ chunk ∧ out ≠ some [] ∧
      (g.publicationFrozen = true → out = none ∧ g'.publicationFrozen = true) := by
  rw [byteLen_append] at hlen
  refine ⟨_, _, ?_, scanDelta_spec h chunk⟩
  rw [IncrementalAssistantTextGuard.push, if_neg (by omega)]

/-- One thing that the owner of a guard does with it before `finish`. -/
inductive GuardOp where
  | push (chunk : Text)
  | freezePublication

/-- The text that the operations push, in order. -/
def pushedText : List GuardOp → Text
  | [] => []
  | .push chunk :: ops => chunk ++ pushedText ops
  | .freezePublication :: ops => pushedText ops

/-- The texts that the pushes release, in order, and the guard at the end. -/
def runGuard (g : IncrementalAssistantTextGuard) :
    List GuardOp → Except DsmlError (List Text × IncrementalAssistantTextGuard)
  | [] => .ok ([], g)
  | .push chunk :: ops => do
    let (released, g) ← g.push chunk
    let (later, g) ← runGuard g ops
    return (released.toList ++ later, g)
  | .freezePublication :: ops => runGuard g.freezePublication ops

/-- The invariant over a whole run of operations that stays below the size limit. -/
theorem runGuard_spec (ops : List GuardOp) {g : IncrementalAssistantTextGuard} {released : Text}
    (h : Scanned g released)
    (hlen : byteLen (g.text ++ pushedText ops) ≤ maxAssistantTextBytes) :
    ∃ pieces g', runGuard g ops = .ok (pieces, g') ∧ Scanned g' (released ++ pieces.flatten) ∧
      g'.text = g.text ++ pushedText ops ∧ [] ∉ pieces := by
  induction ops generalizing g released with
  | nil => exact ⟨[], g, rfl, by simpa using h, by simp [pushedText], by simp⟩
  | cons op ops ih =>
    cases op with
    | freezePublication => exact ih h.freezePublication hlen
    | push chunk =>
      rw [pushedText, ← List.append_assoc] at hlen
      have hfits : byteLen (g.text ++ chunk) ≤ maxAssistantTextBytes := by
        rw [byteLen_append] at hlen
        omega
      obtain ⟨out, g₁, hpush, hkeep, htext, hne, -⟩ := push_spec h hfits
      obtain ⟨pieces, g₂, hrun, hscan, htext₂, hempty⟩ := ih hkeep (by rwa [htext])
      have hpieces : (out.toList ++ pieces).flatten = out.getD [] ++ pieces.flatten := by
        cases out <;> simp
      refine ⟨out.toList ++ pieces, g₂, ?_, ?_, ?_, ?_⟩
      · simp only [runGuard, hpush, hrun, bind, Except.bind, pure, Except.pure]
      · rwa [hpieces, ← List.append_assoc]
      · rw [htext₂, htext, List.append_assoc, pushedText]
      · cases out with
        | none => simpa using hempty
        | some piece =>
          have hp : piece ≠ [] := fun he => hne (he ▸ rfl)
          simpa [hp.symm] using hempty

/-- However a turn is cut into chunks, and wherever its publication is frozen from outside,
the guard ends with the decision of the whole-turn parse, and what it released before is a
prefix of the turn that no envelope can claim. -/
theorem runGuard_agrees_with_parseAssistantText (json : SerdeJson) (ops : List GuardOp)
    (hlen : byteLen (pushedText ops) ≤ maxAssistantTextBytes) :
    ∃ released g, runGuard {} ops = .ok (released, g) ∧
      ((∃ r, g.finish json = .ok (.plain r)) ↔
        ∃ text, parseAssistantText json (pushedText ops) = .ok (.plain text)) ∧
      (∀ r, g.finish json = .ok (.plain r) → released.flatten ++ r = pushedText ops) ∧
      (∀ v calls, g.finish json = .ok (.toolCalls v calls) ↔
        parseAssistantText json (pushedText ops) = .ok (.toolCalls v calls)) ∧
      (∀ v calls, g.finish json = .ok (.toolCalls v calls) → released = []) ∧
      (∀ e, g.finish json = .error e ↔ parseAssistantText json (pushedText ops) = .error e) ∧
      released.flatten <+: pushedText ops ∧ '<' ∉ released.flatten := by
  obtain ⟨released, g, hrun, hscan, htext, hempty⟩ := runGuard_spec ops Scanned.new hlen
  rw [List.nil_append] at hscan htext
  have hlead₀ := hscan.isPrefix.trans (plainPrefix_isPrefix g.text)
  refine ⟨released, g, hrun, ?_⟩
  rw [← htext]
  refine ⟨finish_plain_iff, fun r hr => ?_, fun v calls => finish_toolCalls_iff,
    fun v calls hf => ?_, fun e => finish_error_iff, hlead₀,
    fun hm => lt_notMem_plainPrefix g.text (hscan.isPrefix.subset hm)⟩
  · obtain ⟨s, hs⟩ := hlead₀
    rw [finish_plain_eq hr, hscan.cursor, ← hs, dropBytes_append]
  · have hlead := hscan.leading.mpr
      (allWhitespace_plainPrefix_of_toolCalls (finish_toolCalls_iff.mp hf))
    have hflat := hscan.private_leading hlead
    cases released with
    | nil => rfl
    | cons piece pieces =>
      rw [List.flatten_cons, List.append_eq_nil_iff] at hflat
      exact absurd (List.mem_cons.mpr (Or.inl hflat.1.symm)) hempty

/-- Two chunks with a freeze between them. -/
theorem runGuard_agrees_with_parseAssistantText_frozen :
    byteLen (pushedText [.push "a".toList, .freezePublication, .push "b".toList]) ≤
        maxAssistantTextBytes ∧
      ∃ released g, runGuard {} [.push "a".toList, .freezePublication, .push "b".toList] =
          .ok (released, g) ∧ '<' ∉ released.flatten := by
  have hlen : byteLen (pushedText [.push "a".toList, .freezePublication, .push "b".toList]) ≤
      maxAssistantTextBytes := by decide
  obtain ⟨released, g, hrun, -, -, -, -, -, -, hlt⟩ :=
    runGuard_agrees_with_parseAssistantText ⟨fun _ => none, fun _ => []⟩ _ hlen
  exact ⟨hlen, released, g, hrun, hlt⟩

end DeepseekScience.Dsml
