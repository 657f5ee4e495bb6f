import DeepseekScience.Tools.Entities
import DeepseekScience.Lib.Transaction

/-! The RSS feed of a search (`builtin/web.rs`, `parse_bing_rss`): the link of an item is the
address that its feed escapes, unless the address itself spells an entity. -/
namespace DeepseekScience.Tools

open Transactions

structure SearchResult where
  title : Text
  url : Text
  snippet : Text
  deriving DecidableEq, Repr

/-- The texts around the first occurrence of a pattern. -/
def cutText (pattern : Text) : Text → Option (Text × Text)
  | [] => if pattern.isEmpty then some ([], []) else none
  | c :: t =>
    if pattern.isPrefixOf (c :: t) then some ([], (c :: t).drop pattern.length)
    else (cutText pattern t).map fun (before, after) => (c :: before, after)

def extractXmlElement (xml tag : Text) : Option Text := do
  let (_, after) ← cutText ('<' :: (tag ++ ['>'])) xml
  let (value, _) ← cutText ('<' :: '/' :: (tag ++ ['>'])) after
  some value

/-- `str::strip_prefix` and `str::strip_suffix`. -/
def stripAround (first last t : Text) : Option Text :=
  if first.isPrefixOf t then
    let t := t.drop first.length
    if last.isSuffixOf t then some (t.take (t.length - last.length)) else none
  else none

def rssValue (value : Text) : Text :=
  let value := trim value
  let value := (stripAround "<![CDATA[".toList "]]>".toList value).getD value
  trim (decodeEntities value)

/-- The text between tags; the tags leave nothing behind. -/
def dropTags : Bool → Text → Text
  | _, [] => []
  | inTag, c :: t =>
    if c = '<' then dropTags true t
    else if c = '>' then dropTags false t
    else if inTag then dropTags inTag t
    else c :: dropTags inTag t

def rssText (value : Text) : Text := collapseWhitespace (dropTags false (rssValue value))

/-- `Option::ok_or`. -/
def okOr (value : Option Text) (error : Text) : Except Text Text :=
  value.elim (.error error) .ok

def readItem (item : Text) : Except Text SearchResult := do
  let title ← okOr (extractXmlElement item "title".toList) "item is missing title".toList
  let url ← okOr (extractXmlElement item "link".toList) "item is missing link".toList
  let title := rssText title
  let url := rssValue url
  if title.isEmpty || url.isEmpty then .error "item has an empty title or link".toList
  else
    .ok ⟨title, url, ((extractXmlElement item "description".toList).map rssText).getD []⟩

/-- The loop, as long as fewer than `max` results are there. -/
def takeItems : ℕ → Text → Except Text (List SearchResult)
  | 0, _ => .ok []
  | max + 1, rest =>
    match cutText "<item>".toList rest with
    | none => .ok []
    | some (_, itemAndRest) =>
      match cutText "</item>".toList itemAndRest with
      | none => .error "unterminated item".toList
      | some (item, rest) => do
        let result ← readItem item
        let results ← takeItems max rest
        .ok (result :: results)

def parseBingRss (rss : Text) (max : ℕ) : Except Text (List SearchResult) :=
  if containsText "<rss ".toList rss && containsText "<channel>".toList rss &&
      containsText "</channel>".toList rss && containsText "</rss>".toList rss then
    takeItems max rss
  else .error "missing complete rss/channel envelope".toList

/-- The first items of a feed. -/
def rssItems : ℕ → Text → List Text
  | 0, _ => []
  | max + 1, rest =>
    match cutText "<item>".toList rest with
    | none => []
    | some (_, itemAndRest) =>
      match cutText "</item>".toList itemAndRest with
      | none => []
      | some (item, rest) => item :: rssItems max rest

/-! The results of the items. -/

section
variable {rest item before after t s : Text} {max : ℕ} {results : List SearchResult} {c : Char}

theorem takeItems_forall₂ (h : takeItems max rest = .ok results) :
    List.Forall₂ (fun item result => readItem item = .ok result) (rssItems max rest) results := by
  induction max generalizing rest results with
  | zero =>
    cases h
    exact List.Forall₂.nil
  | succ max ih =>
    unfold takeItems at h
    unfold rssItems
    cases hitem : cutText "<item>".toList rest with
    | none =>
      rw [hitem] at h
      cases h
      exact List.Forall₂.nil
    | some piece =>
      rw [hitem] at h
      simp only at h ⊢
      cases hend : cutText "</item>".toList piece.2 with
      | none =>
        rw [hend] at h
        cases h
      | some piece =>
        rw [hend] at h
        obtain ⟨result, hresult, h⟩ := bind_eq_ok.mp h
        obtain ⟨results, hresults, h⟩ := bind_eq_ok.mp h
        cases h
        exact List.Forall₂.cons hresult (ih hresults)

theorem readItem_url {result : SearchResult} {link : Text} (h : readItem item = .ok result)
    (hlink : extractXmlElement item "link".toList = some link) : result.url = rssValue link := by
  unfold readItem at h
  rw [hlink] at h
  obtain ⟨title, -, h⟩ := bind_eq_ok.mp h
  obtain ⟨url, hurl, h⟩ := bind_eq_ok.mp h
  have hurl : link = url := Except.ok.inj hurl
  by_cases hempty : ((rssText title).isEmpty || (rssValue url).isEmpty) = true
  · rw [if_pos hempty] at h
    exact absurd h (by simp only [reduceCtorEq, not_false_eq_true])
  · rw [if_neg hempty] at h
    rw [← Except.ok.inj h, hurl]

/-- The first occurrence of a pattern whose first character does not come again in it. -/
theorem cutText_append {pattern : Text} (hc : c ∉ pattern) (hbefore : ¬(c :: pattern) <:+: before)
    (after : Text) :
    cutText (c :: pattern) (before ++ (c :: pattern ++ after)) = some (before, after) := by
  induction before with
  | nil =>
    have hmatch : (c :: pattern).isPrefixOf (c :: (pattern ++ after)) = true :=
      List.isPrefixOf_iff_prefix.mpr (List.prefix_append (c :: pattern) after)
    rw [List.nil_append, List.cons_append, cutText, if_pos hmatch, ← List.cons_append,
      List.drop_left]
  | cons d before ih =>
    rw [List.infix_cons_iff, not_or] at hbefore
    have hnone : ¬(c :: pattern).isPrefixOf (d :: (before ++ (c :: pattern ++ after))) = true := by
      rw [List.isPrefixOf_iff_prefix]
      intro hmatch
      obtain ⟨rfl, hbehind⟩ := List.cons_prefix_cons.mp hmatch
      -- A match that goes beyond the text in front would have the first character again.
      have hfront := List.prefix_append before (c :: pattern ++ after)
      rcases List.prefix_or_prefix_of_prefix hbehind hfront with h | ⟨u, hu⟩
      · exact hbefore.1 (List.cons_prefix_cons.mpr ⟨rfl, h⟩)
      · cases u with
        | nil =>
          rw [List.append_nil] at hu
          exact hbefore.1 (List.cons_prefix_cons.mpr ⟨rfl, hu ▸ List.prefix_rfl⟩)
        | cons first u =>
          have hrest : ∀ v, pattern <+: before ++ v → first :: u <+: v := by
            intro v hv
            rwa [← hu, List.prefix_append_right_inj] at hv
          obtain ⟨rfl, -⟩ := List.cons_prefix_cons.mp (hrest _ hbehind)
          exact hc (hu ▸ List.mem_append_right _ (List.mem_cons_self ..))
    rw [List.cons_append, cutText, if_neg hnone, ih hbefore.2]
    rfl

/-- The link element of an item. -/
theorem extractXmlElement_link (hbefore : ¬"<link>".toList <:+: before) (hlink : '<' ∉ s) :
    extractXmlElement (before ++ "<link>".toList ++ s ++ "</link>".toList ++ after)
      "link".toList = some s := by
  have hopen := cutText_append (show '<' ∉ "link>".toList by decide) hbefore
    (s ++ ("</link>".toList ++ after))
  have hnone : ¬('<' :: "/link>".toList) <:+: s := fun h =>
    hlink (h.subset (List.mem_cons_self ..))
  have hclose := cutText_append (show '<' ∉ "/link>".toList by decide) hnone after
  have htext : before ++ "<link>".toList ++ s ++ "</link>".toList ++ after =
      before ++ ("<link>".toList ++ (s ++ ("</link>".toList ++ after))) := by
    simp only [List.append_assoc]
  unfold extractXmlElement
  rw [htext]
  show ((cutText ('<' :: "link>".toList) _).bind fun piece =>
    (cutText ('<' :: "/link>".toList) piece.2).bind fun piece => some piece.1) = some s
  rw [show "<link>".toList = '<' :: "link>".toList from rfl, hopen]
  show (cutText ('<' :: "/link>".toList) (s ++ ("</link>".toList ++ after))).bind _ = some s
  rw [show "</link>".toList = '<' :: "/link>".toList from rfl, hclose]
  rfl

theorem trim_length_le (t : Text) : (trim t).length ≤ t.length := by
  unfold trim trimEnd trimStart
  rw [List.length_reverse]
  apply (List.dropWhile_suffix _).length_le.trans
  rw [List.length_reverse]
  exact (List.dropWhile_suffix _).length_le

/-- An entity is not trimmed. -/
theorem clean_trim : Clean (trim t) ↔ Clean t := by
  constructor
  · intro h e he hwithin
    apply h e he
    obtain ⟨x, y, rfl⟩ := hwithin
    have htext : x ++ e.text ++ y = x ++ '&' :: (e.name ++ [';'] ++ y) := by
      simp [Entity.text]
    obtain ⟨z, hz⟩ := @dropWhile_append_cons '&' isWhitespace (by decide) x
      (e.name ++ [';'] ++ y)
    obtain ⟨z', hz'⟩ := @dropWhile_append_cons ';' isWhitespace (by decide) y.reverse
      (z ++ '&' :: e.name).reverse
    have hend : (z ++ '&' :: (e.name ++ [';'] ++ y)).reverse =
        y.reverse ++ ';' :: (z ++ '&' :: e.name).reverse := by simp
    unfold trim trimEnd trimStart
    rw [htext, hz, hend, hz']
    use z, z'.reverse
    simp [Entity.text]
  · intro h e he hwithin
    apply h e he
    apply hwithin.trans
    unfold trim trimEnd trimStart
    have hstart : (t.dropWhile isWhitespace).reverse <+: t.reverse :=
      (List.dropWhile_suffix isWhitespace).reverse
    have hend := ((List.dropWhile_suffix isWhitespace).trans
      (List.suffix_refl (t.dropWhile isWhitespace).reverse)).reverse
    rw [List.reverse_reverse] at hend
    exact hend.isInfix.trans (List.dropWhile_suffix isWhitespace).isInfix

/-- The address of an escaped link is the address exactly when that is clean. -/
theorem rssValue_iff (h : Escaped t s) : rssValue s = trim t ↔ Clean t := by
  have htrim := h.trim
  have hplain : stripAround "<![CDATA[".toList "]]>".toList (trim s) = none := by
    unfold stripAround
    rw [if_neg]
    rw [List.isPrefixOf_iff_prefix]
    intro hmatch
    exact htrim.lt_notMem (hmatch.subset (by decide))
  have hvalue : rssValue s = trim (decodeEntities (trim s)) := by
    show trim (decodeEntities ((stripAround _ _ (trim s)).getD (trim s))) = _
    rw [hplain]
    rfl
  rw [hvalue, htrim.decodeEntities, ← clean_trim]
  rcases decode_later (trim t) with ⟨hclean, hsame⟩ | ⟨hnot, hless⟩
  · rw [hsame]
    exact iff_of_true (trim_trim t) hclean
  · apply iff_of_false _ hnot
    intro heq
    have hle := trim_length_le (laterEntities.foldl Entity.decode (trim t))
    rw [heq] at hle
    omega

end

/-- Decoding undoes escaping, and the link of an item in a feed is its address, exactly when the
text that was escaped spells no entity besides that of the ampersand. -/
theorem decodeEntities_escaped_iff (t s : Text) :
    (Escaped t s → (decodeEntities s = t ↔ Clean t)) ∧
    ∀ (rss : Text) (max : ℕ) (results : List SearchResult), parseBingRss rss max = .ok results →
      ∀ (k : ℕ) (before after : Text),
        (rssItems max rss)[k]? =
          some (before ++ "<link>".toList ++ s ++ "</link>".toList ++ after) →
        ¬"<link>".toList <:+: before → Escaped t s →
          ∃ result, results[k]? = some result ∧ (result.url = trim t ↔ Clean t) := by
  constructor
  · intro h
    exact h.decodeEntities_iff
  · intro rss max results h k before after hitem hbefore hescaped
    unfold parseBingRss at h
    split_ifs at h
    have hlink := @extractXmlElement_link before after s hbefore hescaped.lt_notMem
    have hresults := takeItems_forall₂ h
    obtain ⟨hk, hk'⟩ := List.getElem?_eq_some_iff.mp hitem
    have hlength := hresults.length_eq
    have hlt : k < results.length := hlength ▸ hk
    use results.get ⟨k, hlt⟩
    constructor
    · exact List.getElem?_eq_getElem hlt
    · have hread := hresults.get hk hlt
      rw [List.get_eq_getElem, hk'] at hread
      rw [readItem_url hread hlink]
      exact rssValue_iff hescaped

/-! A feed with one item. -/

def address : Text := "https://example.com/?a=1&b=2".toList

def escapedAddress : Text := "https://example.com/?a=1&amp;b=2".toList

theorem escaped_address : Escaped address escapedAddress := by
  have hplain : ∀ u t s : Text, (u.all fun c => decide (spellings c = [[c]])) = true →
      Escaped t s → Escaped (u ++ t) (u ++ s) := by
    intro u t s hu h
    induction u with
    | nil => exact h
    | cons c u ih =>
      rw [List.all_cons, Bool.and_eq_true, decide_eq_true_eq] at hu
      have hc : [c] ∈ spellings c := by
        rw [hu.1]
        exact List.mem_singleton_self [c]
      exact @Escaped.cons c [c] _ _ hc (ih hu.2)
  have hend : Escaped ("b=2".toList ++ []) ("b=2".toList ++ []) :=
    hplain _ _ _ (by decide) Escaped.nil
  have hamp : Escaped ('&' :: "b=2".toList) ("&amp;".toList ++ "b=2".toList) :=
    Escaped.cons (by decide) hend
  exact hplain "https://example.com/?a=1".toList _ _ (by decide) hamp

def itemStart : Text := "<title>a</title>".toList

def sampleFeed : Text :=
  "<rss version=\"2.0\"><channel><item>".toList ++
    (itemStart ++ "<link>".toList ++ escapedAddress ++ "</link>".toList ++ []) ++
    "</item></channel></rss>".toList

theorem sampleFeed_link :
    (decodeEntities escapedAddress = address ↔ Clean address) ∧
      ∃ result, [(⟨"a".toList, address, []⟩ : SearchResult)][0]? = some result ∧
        (result.url = trim address ↔ Clean address) := by
  constructor
  · exact (decodeEntities_escaped_iff address escapedAddress).1 escaped_address
  · apply (decodeEntities_escaped_iff address escapedAddress).2 sampleFeed 5 _ (by rfl) 0 itemStart []
    · rfl
    · rw [← containsText_iff]
      decide
    · exact escaped_address

/-- A text that spells an entity comes back as what the entity stands for. -/
theorem spelledEntity_decoded :
    Escaped "&lt;".toList "&amp;lt;".toList ∧ decodeEntities "&amp;lt;".toList = "<".toList := by
  constructor
  · have hplain : Escaped "lt;".toList "lt;".toList :=
      Escaped.cons (w := ['l']) (by decide) (Escaped.cons (w := ['t']) (by decide)
        (Escaped.cons (w := [';']) (by decide) Escaped.nil))
    exact Escaped.cons (w := "&amp;".toList) (by decide) hplain
  · rfl

end DeepseekScience.Tools
