import DeepseekScience.TextSearch
import DeepseekScience.Lib.Peel

/-! HTML to text (dss-tools, `builtin/web.rs`): the blocks that four passes cut, the tags, the
entities and the whitespace. A pass looks for its markers in a lower-cased copy and slices the
text at the positions found there. -/
namespace DeepseekScience.Tools

open Peeling Transactions

/-- How a pass fails: a slice off a character boundary, or a loop that never ends. -/
inductive ScanFailure
  | slice
  | endless
  deriving DecidableEq, Repr

/-- An ASCII marker. -/
structure Marker where
  text : Text
  ascii : text.all isAscii = true

/-- `&text[..n]` and `&text[n..]`. -/
def slice (n : ℕ) (t : Text) : Except ScanFailure (Text × Text) :=
  if isCharBoundary n t then .ok (takeBytes n t, dropBytes n t) else .error .slice

section
variable (T : CaseTables) (opening closing : Marker)

/-- The loop of `remove_blocks`, with the output and the rest. -/
def removeBlocksLoop : ℕ → Text → Text → Except ScanFailure Text
  | 0, _, _ => .error .endless
  | fuel + 1, out, rest =>
    match findText (T.toLowercase opening.text) (T.toLowercase rest) with
    | none => .ok (out ++ rest)
    | some start => do
      let (before, after) ← slice start rest
      match findText (T.toLowercase closing.text) (T.toLowercase after) with
      | some stop => do
        let (_, rest) ← slice (stop + byteLen closing.text) after
        removeBlocksLoop fuel (out ++ before) rest
      | none => removeBlocksLoop fuel (out ++ before) []

/-- A round that goes on makes the rest shorter, or repeats itself for ever. -/
def removeBlocks (s : Text) : Except ScanFailure Text :=
  removeBlocksLoop T opening closing (byteLen s + 1) [] s

end

def decodeEntities (s : Text) : Text :=
  [("&amp;", "&"), ("&lt;", "<"), ("&gt;", ">"), ("&quot;", "\""), ("&#39;", "'"), ("&#x27;", "'"),
    ("&nbsp;", " "), ("&mdash;", "—"), ("&ndash;", "–")].foldl
    (fun t (entity, character) => replaceText entity.toList character.toList t) s

def collapseFrom : Bool → Text → Text
  | _, [] => []
  | prevSpace, c :: t =>
    if isWhitespace c then
      if prevSpace then collapseFrom true t else ' ' :: collapseFrom true t
    else c :: collapseFrom false t

def collapseWhitespace (s : Text) : Text := trim (collapseFrom false s)

def stripTags : Bool → Text → Text
  | _, [] => []
  | inTag, c :: t =>
    if c = '<' then ' ' :: stripTags true t
    else if c = '>' then ' ' :: stripTags false t
    else if inTag then stripTags inTag t
    else c :: stripTags inTag t

/-- What `html_to_text` does with the text that is left of the blocks. -/
def plainText (s : Text) : Text := collapseWhitespace (decodeEntities (stripTags false s))

/-- The passes of `html_to_text`, in their order. -/
def htmlBlocks : List (Marker × Marker) :=
  [(⟨"<script".toList, by decide⟩, ⟨"</script>".toList, by decide⟩),
    (⟨"<style".toList, by decide⟩, ⟨"</style>".toList, by decide⟩),
    (⟨"<!--".toList, by decide⟩, ⟨"-->".toList, by decide⟩),
    (⟨"<noscript".toList, by decide⟩, ⟨"</noscript>".toList, by decide⟩)]

def removeAll (T : CaseTables) (passes : List (Marker × Marker)) (s : Text) :
    Except ScanFailure Text :=
  passes.foldlM (fun t pass => removeBlocks T pass.1 pass.2 t) s

def htmlToText (T : CaseTables) (html : Text) : Except ScanFailure Text :=
  (removeAll T htmlBlocks html).map plainText

/-! What the passes should cut, and what they cut. -/

/-- A piece that a pass takes off: the text that it keeps, and the block behind it. -/
abbrev Piece := Text × Text

section
variable (T : CaseTables) (opening closing : Marker)

/-- The position behind the next closing marker, or the end. -/
def blockEnd (after : Text) : ℕ :=
  match findIgnoreAsciiCase closing.text after with
  | some stop => stop + byteLen closing.text
  | none => byteLen after

/-- The text up to the next opening marker, the block that begins there, and the rest. -/
def nextBlock (rest : Text) : Option (Piece × Text) :=
  (findIgnoreAsciiCase opening.text rest).map fun start =>
    let after := dropBytes start rest
    ((takeBytes start rest, takeBytes (blockEnd closing after) after),
      dropBytes (blockEnd closing after) after)

/-- A round of `remove_blocks`: what it keeps, what it drops, and the rest. -/
def cutBlock (rest : Text) : Except ScanFailure (Option (Piece × Text)) :=
  match findText (T.toLowercase opening.text) (T.toLowercase rest) with
  | none => .ok none
  | some start => do
    let (before, after) ← slice start rest
    match findText (T.toLowercase closing.text) (T.toLowercase after) with
    | some stop => do
      let (block, rest) ← slice (stop + byteLen closing.text) after
      pure (some ((before, block), rest))
    | none => pure (some ((before, after), []))

def cutBlocks (s : Text) : Except ScanFailure (List Piece × Text) :=
  peel (cutBlock T opening closing) .endless (byteLen s + 1) s

/-- The text without its blocks. -/
def kept (pieces : List Piece) (last : Text) : Text := pieces.flatMap Prod.fst ++ last

/-- The position behind the next closing marker of the lower-case copy, or the end. -/
def blockEndInLower (after : Text) : ℕ :=
  match T.placeInLower closing.text after with
  | some stop => stop + byteLen closing.text
  | none => byteLen after

/-- The lower-case copy of the rest shows the next opening marker, and the end of the block behind
it, at the positions of the rest itself. -/
def SamePlaces (rest : Text) : Prop :=
  T.placeInLower opening.text rest = findIgnoreAsciiCase opening.text rest ∧
    ∀ start, findIgnoreAsciiCase opening.text rest = some start →
      blockEndInLower T closing (dropBytes start rest) = blockEnd closing (dropBytes start rest)

end

section
variable {T : CaseTables} {opening closing : Marker} {rest t block : Text} {n : ℕ}

theorem slice_ok (h : isCharBoundary n t = true) :
    slice n t = .ok (takeBytes n t, dropBytes n t) := if_pos h

theorem slice_eq_ok {parts : Text × Text} : slice n t = .ok parts ↔
    isCharBoundary n t = true ∧ parts = (takeBytes n t, dropBytes n t) := by
  unfold slice
  split_ifs with h
  · exact ⟨fun heq => ⟨h, (Except.ok.inj heq).symm⟩, fun heq => congrArg _ heq.2.symm⟩
  · exact ⟨fun heq => (by cases heq), fun heq => absurd heq.1 h⟩

/-- Cuts of one length are one cut. -/
theorem eq_of_takeBytes {m : ℕ} (hn : isCharBoundary n t = true) (hm : isCharBoundary m t = true)
    (h : takeBytes n t = takeBytes m t) : n = m := by
  rw [← byteLen_takeBytes hn, h, byteLen_takeBytes hm]

theorem isCharBoundary_byteLen (t : Text) : isCharBoundary (byteLen t) t = true := by
  have h := isCharBoundary_append t []
  rwa [List.append_nil] at h

theorem takeBytes_byteLen (t : Text) : takeBytes (byteLen t) t = t := by
  have h := takeBytes_append t []
  rwa [List.append_nil] at h

theorem dropBytes_byteLen (t : Text) : dropBytes (byteLen t) t = [] := by
  have h := dropBytes_append t []
  rwa [List.append_nil] at h

theorem isCharBoundary_blockEnd (after : Text) :
    isCharBoundary (blockEnd closing after) after = true := by
  unfold blockEnd
  split
  · next stop hfound =>
    obtain ⟨before, after, rfl, hstarts, rfl⟩ := firstAt_eq_some hfound
    obtain ⟨found, rest, rfl, hlen⟩ := startsIgnoreAsciiCase_spec closing.ascii hstarts
    have hcut := isCharBoundary_append (before ++ found) rest
    rwa [byteLen_append, hlen, List.append_assoc] at hcut
  · exact isCharBoundary_byteLen after

/-- A round of the pass, by the places that it finds. -/
theorem cutBlock_eq : cutBlock T opening closing rest =
    match T.placeInLower opening.text rest with
    | none => .ok none
    | some start => (do
      let (before, after) ← slice start rest
      let (block, rest) ← slice (blockEndInLower T closing after) after
      pure (some ((before, block), rest))) := by
  unfold cutBlock
  rw [findText_toLowercase opening.ascii]
  split
  · rfl
  · apply bind_congr
    rintro ⟨before, after⟩
    dsimp only
    rw [findText_toLowercase closing.ascii, blockEndInLower]
    split
    · rfl
    · rw [slice_ok (isCharBoundary_byteLen after), takeBytes_byteLen, dropBytes_byteLen]
      rfl

/-- What a round takes off, and what it leaves. -/
theorem cutBlock_eq_some {before : Text} (h : cutBlock T opening closing rest =
    .ok (some ((before, block), t))) :
    ∃ start, T.placeInLower opening.text rest = some start ∧ isCharBoundary start rest = true ∧
      before = takeBytes start rest ∧
      isCharBoundary (blockEndInLower T closing (dropBytes start rest)) (dropBytes start rest) =
        true ∧
      block = takeBytes (blockEndInLower T closing (dropBytes start rest)) (dropBytes start rest) ∧
      t = dropBytes (blockEndInLower T closing (dropBytes start rest)) (dropBytes start rest) := by
  rw [cutBlock_eq] at h
  split at h
  · cases h
  · next start hplace =>
    obtain ⟨⟨before', after⟩, hcut, h⟩ := bind_eq_ok.mp h
    obtain ⟨⟨block', rest'⟩, hcut', h⟩ := bind_eq_ok.mp h
    obtain ⟨hstart, hparts⟩ := slice_eq_ok.mp hcut
    obtain ⟨rfl, rfl⟩ := Prod.mk.inj hparts
    obtain ⟨hend, hparts⟩ := slice_eq_ok.mp hcut'
    obtain ⟨rfl, rfl⟩ := Prod.mk.inj hparts
    have heq := pure_eq_ok.mp h
    simp only [Option.some.injEq, Prod.mk.injEq] at heq
    obtain ⟨⟨rfl, rfl⟩, rfl⟩ := heq
    exact ⟨start, hplace, hstart, rfl, hend, rfl, rfl⟩

theorem cutBlock_eq_none (h : cutBlock T opening closing rest = .ok none) :
    T.placeInLower opening.text rest = none := by
  rw [cutBlock_eq] at h
  split at h
  · assumption
  · obtain ⟨_, -, h⟩ := bind_eq_ok.mp h
    obtain ⟨_, -, h⟩ := bind_eq_ok.mp h
    cases pure_eq_ok.mp h

/-- A round takes off the block that it should exactly when the places are the same. -/
theorem cutBlock_eq_nextBlock_iff : cutBlock T opening closing rest =
    .ok (nextBlock opening closing rest) ↔ SamePlaces T opening closing rest := by
  constructor
  · intro h
    cases hfound : findIgnoreAsciiCase opening.text rest with
    | none =>
      rw [nextBlock, hfound] at h
      refine ⟨(cutBlock_eq_none h).trans hfound.symm, ?_⟩
      exact fun start hstart => absurd (hfound.symm.trans hstart) (by simp)
    | some start =>
      rw [nextBlock, hfound] at h
      obtain ⟨start', hplace, hcut, hbefore, hcut', hblock, -⟩ := cutBlock_eq_some h
      obtain rfl := eq_of_takeBytes hcut (isCharBoundary_of_firstAt hfound) hbefore.symm
      refine ⟨hplace.trans hfound.symm, ?_⟩
      intro start hstart
      obtain rfl := Option.some.inj (hfound.symm.trans hstart)
      exact eq_of_takeBytes hcut' (isCharBoundary_blockEnd _) hblock.symm
  · rintro ⟨hopen, hend⟩
    rw [cutBlock_eq, hopen, nextBlock]
    cases hfound : findIgnoreAsciiCase opening.text rest with
    | none => rfl
    | some start =>
      dsimp only [Option.map_some]
      rw [slice_ok (isCharBoundary_of_firstAt hfound)]
      show (slice _ _ >>= _) = _
      rw [hend start hfound, slice_ok (isCharBoundary_blockEnd _)]
      rfl

/-- Nothing is lost between the pieces. -/
theorem nextBlock_pieces {piece : Piece} (h : nextBlock opening closing rest = some (piece, t)) :
    rest = piece.1 ++ piece.2 ++ t := by
  obtain ⟨start, -, heq⟩ := Option.map_eq_some_iff.mp h
  obtain ⟨rfl, rfl⟩ := Prod.mk.inj heq
  dsimp only
  rw [List.append_assoc, takeBytes_append_dropBytes, takeBytes_append_dropBytes]

theorem cutBlock_pieces {piece : Piece} (h : cutBlock T opening closing rest =
    .ok (some (piece, t))) : rest = piece.1 ++ piece.2 ++ t := by
  obtain ⟨before, block⟩ := piece
  obtain ⟨start, -, -, rfl, -, rfl, rfl⟩ := cutBlock_eq_some h
  dsimp only
  rw [List.append_assoc, takeBytes_append_dropBytes, takeBytes_append_dropBytes]

theorem peels_source {pieces : List Piece} {last : Text}
    (h : Peels (nextBlock opening closing) rest pieces last) :
    rest = pieces.flatMap (fun piece => piece.1 ++ piece.2) ++ last := by
  induction h with
  | stop _ => rfl
  | next hnext _ ih =>
    rw [List.flatMap_cons, List.append_assoc, ← ih]
    exact nextBlock_pieces hnext

/-- The loop goes round by round. -/
theorem removeBlocksLoop_succ (fuel : ℕ) (out rest : Text) :
    removeBlocksLoop T opening closing (fuel + 1) out rest =
      cutBlock T opening closing rest >>= fun
        | none => .ok (out ++ rest)
        | some (piece, rest') => removeBlocksLoop T opening closing fuel (out ++ piece.1) rest' := by
  rw [removeBlocksLoop, cutBlock]
  cases findText (T.toLowercase opening.text) (T.toLowercase rest) with
  | none => rfl
  | some start =>
    cases hcut : slice start rest with
    | error e => simp only [hcut, bind, Except.bind]
    | ok parts =>
      simp only [hcut, bind, Except.bind]
      cases findText (T.toLowercase closing.text) (T.toLowercase parts.2) with
      | none => rfl
      | some stop =>
        dsimp only
        cases slice (stop + byteLen closing.text) parts.2 <;> rfl

/-- The pass keeps what its rounds keep. -/
theorem removeBlocksLoop_eq (fuel : ℕ) (out rest : Text) :
    removeBlocksLoop T opening closing fuel out rest =
      (peel (cutBlock T opening closing) .endless fuel rest).map fun result =>
        out ++ kept result.1 result.2 := by
  induction fuel generalizing out rest with
  | zero => rfl
  | succ fuel ih =>
    rw [removeBlocksLoop_succ]
    cases hround : cutBlock T opening closing rest with
    | error e =>
      rw [peel, hround]
      rfl
    | ok taken =>
      cases taken with
      | none =>
        rw [peel_stop hround]
        rfl
      | some round =>
        obtain ⟨piece, rest'⟩ := round
        rw [peel_next hround]
        apply (ih _ _).trans
        cases peel (cutBlock T opening closing) .endless fuel rest' with
        | error e => rfl
        | ok result =>
          apply congrArg Except.ok
          show _ = out ++ kept (piece :: result.1) result.2
          simp only [kept, List.flatMap_cons, List.append_assoc]

theorem removeBlocks_of_cutBlocks {pieces : List Piece} {last : Text}
    (h : cutBlocks T opening closing t = .ok (pieces, last)) :
    removeBlocks T opening closing t = .ok (kept pieces last) := by
  rw [cutBlocks] at h
  rw [removeBlocks, removeBlocksLoop_eq, h]
  rfl

theorem byteLen_eq_zero (h : byteLen t = 0) : t = [] := by
  have := length_le_byteLen t
  exact List.eq_nil_of_length_eq_zero (by omega)

/-- What is left of a text is the text itself or shorter. -/
theorem eq_or_shorter {piece : Piece} (h : rest = piece.1 ++ piece.2 ++ t) :
    t = rest ∨ byteLen t < byteLen rest := by
  by_cases hpiece : byteLen (piece.1 ++ piece.2) = 0
  · rw [byteLen_eq_zero hpiece] at h
    exact Or.inl h.symm
  · have hlen := congrArg byteLen h
    rw [byteLen_append] at hlen
    exact Or.inr (by omega)

/-- The lower-case copy shows the places of the text at every rest that the scan comes to. -/
inductive Aligned (T : CaseTables) (opening closing : Marker) : Text → Prop
  | stop {rest : Text} : nextBlock opening closing rest = none → SamePlaces T opening closing rest →
      Aligned T opening closing rest
  | next {rest rest' : Text} {piece : Piece} :
      nextBlock opening closing rest = some (piece, rest') → SamePlaces T opening closing rest →
      Aligned T opening closing rest' → Aligned T opening closing rest

theorem agrees_iff_aligned : Agrees (cutBlock T opening closing) (nextBlock opening closing) rest ↔
    Aligned T opening closing rest := by
  constructor
  · intro h
    induction h with
    | stop hnone hcut =>
      exact .stop hnone (cutBlock_eq_nextBlock_iff.mp (by rw [hcut, hnone]))
    | next hsome hcut _ ih =>
      exact .next hsome (cutBlock_eq_nextBlock_iff.mp (by rw [hcut, hsome])) ih
  · intro h
    induction h with
    | stop hnone hplaces =>
      exact .stop hnone (by rw [cutBlock_eq_nextBlock_iff.mpr hplaces, hnone])
    | next hsome hplaces _ ih =>
      exact .next hsome (by rw [cutBlock_eq_nextBlock_iff.mpr hplaces, hsome]) ih

/-- The pass cuts exactly the blocks, and keeps all the rest in order. -/
def CutsExactly (T : CaseTables) (opening closing : Marker) (s cut : Text) : Prop :=
  ∃ pieces last, Peels (nextBlock opening closing) s pieces last ∧
    cutBlocks T opening closing s = .ok (pieces, last) ∧ cut = kept pieces last ∧
    removeBlocks T opening closing s = .ok cut

theorem cutsExactly_iff_aligned :
    (∃ cut, CutsExactly T opening closing t cut) ↔ Aligned T opening closing t := by
  rw [← agrees_iff_aligned, ← @peel_iff_agrees _ _ _ (cutBlock T opening closing)
    (nextBlock opening closing) .endless t (byteLen t + 1) byteLen _ _ (Nat.lt_succ_self _)]
  · constructor
    · rintro ⟨_, pieces, last, hpeels, hcut, -⟩
      exact ⟨pieces, last, hpeels, hcut⟩
    · rintro ⟨pieces, last, hpeels, hcut⟩
      exact ⟨_, pieces, last, hpeels, hcut, rfl, removeBlocks_of_cutBlocks hcut⟩
  · intro s piece s' s'' hcut hnext
    exact List.append_cancel_left ((cutBlock_pieces hcut).symm.trans (nextBlock_pieces hnext))
  · intro s piece s' hcut
    exact eq_or_shorter (cutBlock_pieces hcut)

theorem placeInLower_nil {pattern : Text} (h : pattern ≠ []) : T.placeInLower pattern [] = none := by
  obtain ⟨c, pattern, rfl⟩ := List.exists_cons_of_ne_nil h
  rfl

theorem cutBlock_ne_endless : cutBlock T opening closing rest ≠ .error .endless := by
  have hslice : ∀ n t, slice n t ≠ .error .endless := by
    intro n t
    unfold slice
    split_ifs <;> exact fun heq => by cases heq
  intro h
  rw [cutBlock_eq] at h
  split at h
  · cases h
  · next start _ =>
    cases hcut : slice start rest with
    | error e =>
      rw [hcut] at h
      cases h
      exact hslice _ _ hcut
    | ok parts =>
      rw [hcut] at h
      change (slice (blockEndInLower T closing parts.2) parts.2 >>= _) = _ at h
      cases hcut' : slice (blockEndInLower T closing parts.2) parts.2 with
      | error e =>
        rw [hcut'] at h
        cases h
        exact hslice _ _ hcut'
      | ok parts' =>
        rw [hcut'] at h
        cases h

/-- A pass with markers in it takes something away in every round. -/
theorem cutBlock_shrinks (hopening : opening.text ≠ []) (hclosing : closing.text ≠ [])
    {piece : Piece} (h : cutBlock T opening closing rest = .ok (some (piece, t))) :
    byteLen t < byteLen rest := by
  obtain ⟨before, block⟩ := piece
  have hpieces := cutBlock_pieces h
  obtain ⟨start, hplace, hcut, hbefore, hcut', hblock, -⟩ := cutBlock_eq_some h
  have hstart : byteLen before = start := by rw [hbefore, byteLen_takeBytes hcut]
  have hlen := congrArg byteLen hpieces
  rw [byteLen_append, byteLen_append, hblock, byteLen_takeBytes hcut'] at hlen
  have hrest : byteLen rest ≠ 0 := by
    intro hzero
    rw [byteLen_eq_zero hzero, placeInLower_nil hopening] at hplace
    cases hplace
  have hmarker : byteLen closing.text ≠ 0 := fun hzero => hclosing (byteLen_eq_zero hzero)
  have hafter : byteLen rest = start + byteLen (dropBytes start rest) := by
    conv_lhs => rw [← takeBytes_append_dropBytes start rest, byteLen_append, byteLen_takeBytes hcut]
  dsimp only at hlen
  unfold blockEndInLower at hlen
  split at hlen
  · omega
  · omega

theorem removeBlocks_ne_endless (hopening : opening.text ≠ []) (hclosing : closing.text ≠ []) :
    removeBlocks T opening closing t ≠ .error .endless := by
  have hends : peel (cutBlock T opening closing) .endless (byteLen t + 1) t ≠ .error .endless := by
    apply @peel_ne_endless _ _ _ _ _ _ _ byteLen _ _ (Nat.lt_succ_self _)
    · exact fun s => cutBlock_ne_endless
    · exact fun s b s' h => cutBlock_shrinks hopening hclosing h
  rw [removeBlocks, removeBlocksLoop_eq]
  cases hpeel : peel (cutBlock T opening closing) .endless (byteLen t + 1) t with
  | ok result => exact fun heq => by cases heq
  | error e =>
    rw [hpeel] at hends
    rintro ⟨⟩
    exact hends rfl

end

section
variable {T : CaseTables} {opening closing : Marker} {t : Text}

theorem samePlaces_of_keeps (ht : ∀ c ∈ t, T.Keeps c) : SamePlaces T opening closing t := by
  refine ⟨placeInLower_of_keeps opening.ascii ht, ?_⟩
  intro start _
  have hdrop : ∀ c ∈ dropBytes start t, T.Keeps c := by
    intro c hc
    apply ht
    rw [← takeBytes_append_dropBytes start t]
    exact List.mem_append_right _ hc
  rw [blockEndInLower, placeInLower_of_keeps closing.ascii hdrop, blockEnd]

/-- Texts in which lower-casing changes no length are cut exactly. -/
theorem aligned_of_keeps (hopening : opening.text ≠ []) (hclosing : closing.text ≠ [])
    (ht : ∀ c ∈ t, T.Keeps c) : Aligned T opening closing t := by
  have hsame : SamePlaces T opening closing t := samePlaces_of_keeps ht
  induction hn : byteLen t using Nat.strong_induction_on generalizing t with
  | _ n ih =>
    cases hnext : nextBlock opening closing t with
    | none => exact .stop hnext hsame
    | some round =>
      obtain ⟨piece, rest⟩ := round
      have hcut := cutBlock_eq_nextBlock_iff.mpr hsame
      rw [hnext] at hcut
      have hlt := cutBlock_shrinks hopening hclosing hcut
      have hrest : ∀ c ∈ rest, T.Keeps c := by
        intro c hc
        apply ht
        rw [nextBlock_pieces hnext]
        exact List.mem_append_right _ hc
      exact .next hnext hsame (ih _ (hn ▸ hlt) hrest (samePlaces_of_keeps hrest) rfl)

end

/-- Every pass cuts exactly its blocks. -/
def CutsAll (T : CaseTables) : List (Marker × Marker) → Text → Text → Prop
  | [], s, cut => cut = s
  | (opening, closing) :: passes, s, cut =>
    ∃ t, CutsExactly T opening closing s t ∧ CutsAll T passes t cut

/-- The lower-case copies show the places of the texts that the passes are to work on. -/
def AlignedAll (T : CaseTables) : List (Marker × Marker) → Text → Prop
  | [], _ => True
  | (opening, closing) :: passes, s =>
    Aligned T opening closing s ∧ ∀ pieces last,
      Peels (nextBlock opening closing) s pieces last → AlignedAll T passes (kept pieces last)

/-- The conversion ends, and its passes cut exactly the blocks. -/
def ConvertsExactly (T : CaseTables) (html : Text) : Prop :=
  ∃ cut, CutsAll T htmlBlocks html cut ∧ htmlToText T html = .ok (plainText cut)

section
variable {T : CaseTables} {passes : List (Marker × Marker)} {s cut : Text}

theorem CutsAll.removeAll (h : CutsAll T passes s cut) : removeAll T passes s = .ok cut := by
  induction passes generalizing s with
  | nil =>
    obtain rfl := h
    rfl
  | cons pass passes ih =>
    obtain ⟨t, ⟨_, _, -, -, -, hremove⟩, hrest⟩ := h
    rw [Tools.removeAll, List.foldlM_cons, hremove]
    exact ih hrest

theorem cutsAll_iff_alignedAll : (∃ cut, CutsAll T passes s cut) ↔ AlignedAll T passes s := by
  induction passes generalizing s with
  | nil => exact iff_of_true ⟨s, rfl⟩ trivial
  | cons pass passes ih =>
    constructor
    · rintro ⟨cut, t, hpass, hrest⟩
      refine ⟨cutsExactly_iff_aligned.mp ⟨t, hpass⟩, ?_⟩
      intro pieces last hpeels
      obtain ⟨pieces', last', hpeels', -, rfl, -⟩ := hpass
      obtain ⟨rfl, rfl⟩ := hpeels.unique hpeels'
      exact ih.mp ⟨cut, hrest⟩
    · rintro ⟨haligned, hrest⟩
      obtain ⟨t, hpass⟩ := cutsExactly_iff_aligned.mpr haligned
      obtain ⟨pieces, last, hpeels, -, rfl, -⟩ := id hpass
      obtain ⟨cut, hcut⟩ := ih.mpr (hrest pieces last hpeels)
      exact ⟨cut, _, hpass, hcut⟩

theorem removeAll_ne_endless (hpasses : ∀ pass ∈ passes, pass.1.text ≠ [] ∧ pass.2.text ≠ []) :
    removeAll T passes s ≠ .error .endless := by
  induction passes generalizing s with
  | nil => exact fun heq => by cases heq
  | cons pass passes ih =>
    obtain ⟨⟨hopening, hclosing⟩, hpasses⟩ := List.forall_mem_cons.mp hpasses
    rw [removeAll, List.foldlM_cons]
    cases hremove : removeBlocks T pass.1 pass.2 s with
    | ok t => exact ih hpasses
    | error e =>
      rintro ⟨⟩
      exact removeBlocks_ne_endless hopening hclosing hremove

end

/-- The conversion always ends, and with the text without exactly the blocks when, along the scans,
lower-casing moves no marker; a single pass cuts exactly its blocks on this condition too. -/
theorem html_cuts_iff_aligned (T : CaseTables) :
    (∀ html, htmlToText T html ≠ .error .endless ∧
      (ConvertsExactly T html ↔ AlignedAll T htmlBlocks html)) ∧
    ∀ opening closing s,
      (∃ cut, CutsExactly T opening closing s cut) ↔ Aligned T opening closing s := by
  refine ⟨fun html => ⟨?_, ?_⟩, fun opening closing s => cutsExactly_iff_aligned⟩
  · have hends : removeAll T htmlBlocks html ≠ .error .endless :=
      removeAll_ne_endless (by decide)
    rw [htmlToText]
    cases hremove : removeAll T htmlBlocks html with
    | ok text => exact fun heq => by cases heq
    | error e =>
      rw [hremove] at hends
      rintro ⟨⟩
      exact hends rfl
  · rw [← cutsAll_iff_alignedAll]
    constructor
    · rintro ⟨cut, hcut, -⟩
      exact ⟨cut, hcut⟩
    · rintro ⟨cut, hcut⟩
      refine ⟨cut, hcut, ?_⟩
      rw [htmlToText, hcut.removeAll]
      rfl

/-! A sample: the lower case of a capital sharp s is a byte shorter, so that the marker behind it is
looked for inside another character. -/

def sampleTables : CaseTables where
  lower c :=
    if isAscii c then [c.toLower]
    else if c = 'ẞ' then ['ß']
    else if c = 'Σ' then ['σ']
    else [c]
  cased c := c.isAlpha || c = 'ẞ' || c = 'é'
  caseIgnorable _ := false
  lower_ascii c h := if_pos h
  lower_tail c d hd := by split_ifs at hd <;> simp at hd
  lower_sigma := by decide

def sharpHtml : Text := "ẞé<script>x</script>b".toList

theorem sharpHtml_fails : htmlToText sampleTables sharpHtml = .error .slice ∧
    ¬ ConvertsExactly sampleTables sharpHtml := by
  have hfails : htmlToText sampleTables sharpHtml = .error .slice := by decide +kernel
  refine ⟨hfails, ?_⟩
  rintro ⟨cut, -, hcut⟩
  cases hfails.symm.trans hcut

end DeepseekScience.Tools
