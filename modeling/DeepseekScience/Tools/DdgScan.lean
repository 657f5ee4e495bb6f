import DeepseekScience.Tools.Ddg

/-! Search result parsing on every page: the scan ends, finds its anchors at character boundaries,
and fails only where the window of a snippet ends inside a character. -/
namespace DeepseekScience.Tools

open Occurrences Redaction Transactions

section
variable {haystack needle bytes : List UInt8} {i j start fuel pos : ℕ} {found : Option ℕ}
  {html t : Text} {a b : Anchor} {max : ℕ}

/-! Searching bytes. -/

theorem findSubslice_eq_some (hne : needle ≠ []) (h : findSubslice haystack needle = some i) :
    Occurs needle haystack i ∧ ∀ j < i, ¬Occurs needle haystack j :=
  (first_eq_some hne).mp h

/-- The loop ends with the last occurrence behind the start, or with what it has found before. -/
theorem findLastFrom_spec (hne : needle ≠ []) (hfuel : haystack.length < fuel + start) :
    (∃ i, findLastFrom haystack needle fuel start found = some i ∧ start ≤ i ∧
        Occurs needle haystack i ∧ ∀ j, i < j → ¬Occurs needle haystack j) ∨
      (findLastFrom haystack needle fuel start found = found ∧
        ∀ j, start ≤ j → ¬Occurs needle haystack j) := by
  have hpos := List.length_pos_of_ne_nil hne
  have hshift : ∀ {k}, start ≤ k → Occurs needle haystack k →
      Occurs needle (haystack.drop start) (k - start) := by
    intro k hle hk
    rw [occurs_drop, Nat.add_sub_cancel' hle]
    exact hk
  induction fuel generalizing start found with
  | zero =>
    right
    use rfl
    intro j hj hoccurs
    have := hoccurs.le_length hne
    omega
  | succ fuel ih =>
    unfold findLastFrom
    split_ifs with hfits
    · cases hfirst : findSubslice (haystack.drop start) needle with
      | none =>
        right
        use rfl
        intro j hj hoccurs
        exact (first_eq_none hne).mp hfirst _ (hshift hj hoccurs)
      | some p =>
        obtain ⟨hp, -⟩ := findSubslice_eq_some hne hfirst
        rw [occurs_drop] at hp
        left
        have hnext := @ih (start + p + 1) (some (start + p)) (by omega) (by
          intro k hle hk
          rw [occurs_drop, Nat.add_sub_cancel' hle]
          exact hk)
        rcases hnext with ⟨i, hi, hle, hoccurs, hlast⟩ | ⟨hi, hnone⟩
        · exact ⟨i, hi, by omega, hoccurs, hlast⟩
        · exact ⟨start + p, hi, by omega, hp, fun j hj => hnone j hj⟩
    · right
      use rfl
      intro j hj hoccurs
      have := hoccurs.le_length hne
      omega

/-- The last occurrence. -/
theorem findLastBefore_eq_some (hne : needle ≠ []) (h : findLastBefore haystack needle = some i) :
    Occurs needle haystack i ∧ ∀ j, i < j → ¬Occurs needle haystack j := by
  unfold findLastBefore at h
  rcases @findLastFrom_spec haystack needle 0 (haystack.length + 1) none hne (by omega) with
    ⟨k, hk, -, hoccurs, hlast⟩ | ⟨hnone, -⟩
  · rw [hk] at h
    obtain rfl := Option.some.inj h
    exact ⟨hoccurs, hlast⟩
  · rw [hnone] at h
    cases h

theorem occurs_take (hne : needle ≠ []) (hle : j ≤ bytes.length) :
    Occurs needle (bytes.take j) i ↔ Occurs needle bytes i ∧ i + needle.length ≤ j := by
  have hpos := List.length_pos_of_ne_nil hne
  constructor
  · intro h
    have hlen := h.le_length hne
    rw [List.length_take, Nat.min_eq_left hle] at hlen
    unfold Occurs at h ⊢
    rw [List.drop_take] at h
    exact ⟨h.trans (List.take_prefix _ _), hlen⟩
  · rintro ⟨h, hlen⟩
    unfold Occurs at h ⊢
    rw [List.drop_take]
    have hlength := h.length_le
    rw [List.length_drop] at hlength
    apply List.prefix_of_prefix_length_le h (List.take_prefix _ _)
    rw [List.length_take, List.length_drop]
    omega

/-! Anchors. -/

/-- An anchor from a position on: its opening is the last one in front of the mark. -/
structure AnchorAt (bytes : List UInt8) (pos : ℕ) (a : Anchor) : Prop where
  le : pos ≤ a.anchorStart
  mark : Occurs markBytes bytes a.anchorStart
  opened : Occurs openBytes bytes a.aOpen
  before : a.aOpen + 2 ≤ a.anchorStart
  last : ∀ j, a.aOpen < j → Occurs openBytes bytes j → a.anchorStart < j + 2
  closed : Occurs closeBytes bytes a.aClose
  behind : a.anchorStart ≤ a.aClose

theorem nextAnchor_spec (h : nextAnchor bytes pos = some a) : AnchorAt bytes pos a := by
  have hmarkNe : markBytes ≠ [] := by decide
  have hopenNe : openBytes ≠ [] := by decide
  have hcloseNe : closeBytes ≠ [] := by decide
  have htwo : openBytes.length = 2 := by decide
  unfold nextAnchor at h
  obtain ⟨rel, hrel, h⟩ := Option.bind_eq_some_iff.mp h
  obtain ⟨aOpen, hopen, h⟩ := Option.bind_eq_some_iff.mp h
  obtain ⟨r, hr, h⟩ := Option.bind_eq_some_iff.mp h
  obtain rfl := Option.some.inj h
  have hmark := (findSubslice_eq_some hmarkNe hrel).1
  have hclose := (findSubslice_eq_some hcloseNe hr).1
  rw [occurs_drop] at hmark hclose
  have hle : pos + rel ≤ bytes.length := by
    have := hmark.le_length hmarkNe
    omega
  obtain ⟨hopened, hlast⟩ := findLastBefore_eq_some hopenNe hopen
  rw [occurs_take hopenNe hle, htwo] at hopened
  constructor
  · exact Nat.le_add_right pos rel
  · exact hmark
  · exact hopened.1
  · exact hopened.2
  · intro j hj hoccurs
    by_contra hnot
    apply hlast j hj
    rw [occurs_take hopenNe hle, htwo]
    exact ⟨hoccurs, Nat.not_lt.mp hnot⟩
  · exact hclose
  · exact Nat.le_add_right _ r

/-- A text can be cut where an ASCII character begins. -/
theorem isCharBoundary_of_occurs {first : UInt8} {rest : List UInt8} (hfirst : first < 128)
    (h : Occurs (first :: rest) (utf8Bytes html) i) : isCharBoundary i html = true := by
  apply AsciiEdge.isCharBoundary
  right; left
  exact ⟨first, h.getElem? (j := 0) (Nat.succ_pos _), hfirst⟩

/-! What an anchor says. -/

def Anchor.anchorHtml (page : Text) (a : Anchor) : Text :=
  dropBytes a.aOpen (takeBytes a.aClose page)

def Anchor.title (page : Text) (a : Anchor) : Text := trim (dropTags false (a.anchorHtml page))

def Anchor.rest (page : Text) (a : Anchor) : Text := dropBytes a.aClose page

/-- The number of bytes of the window behind the anchor. -/
def Anchor.win (page : Text) (a : Anchor) : ℕ := min (byteLen (a.rest page)) snippetWindow

def Anchor.window (page : Text) (a : Anchor) : Text := takeBytes (a.win page) (a.rest page)

def Anchor.read (page : Text) (a : Anchor) : SearchResult :=
  ⟨a.title page, (extractUddg (a.anchorHtml page)).getD [], windowSnippet (a.window page)⟩

/-- The window of the anchor ends between characters. -/
def Anchor.windowFits (page : Text) (a : Anchor) : Bool := isCharBoundary (a.win page) (a.rest page)

/-- Reading an anchor fails only where its window ends inside a character. -/
theorem readAnchor_eq (h : AnchorAt (utf8Bytes html) pos a) :
    readAnchor html a = if a.windowFits html then .ok (a.read html) else .error .slice := by
  have hopen : isCharBoundary a.aOpen html = true :=
    isCharBoundary_of_occurs (by decide) h.opened
  have hclose : isCharBoundary a.aClose html = true :=
    isCharBoundary_of_occurs (by decide) h.closed
  have hle : a.aOpen ≤ a.aClose := by
    have := h.before
    have := h.behind
    omega
  unfold readAnchor sliceBetween findSnippet
  rw [if_pos ⟨hle, hopen, hclose⟩, slice_ok hclose]
  unfold slice
  show (Except.bind (if isCharBoundary (a.win html) (a.rest html) = true then _ else _) _ >>= _) = _
  unfold Anchor.windowFits
  split_ifs
  · rfl
  · rfl

end

/-! The scan. -/

/-- The anchors that a scan visits, as long as fewer than `max` titles have been found. -/
def visited (html : Text) : ℕ → ℕ → ℕ → List Anchor
  | 0, _, _ => []
  | fuel + 1, max, pos =>
    if pos < byteLen html ∧ 0 < max then
      match nextAnchor (utf8Bytes html) pos with
      | none => []
      | some a =>
        a :: visited html fuel (if (a.title html).isEmpty then max else max - 1) (a.aClose + 4)
    else []

def titled (html : Text) (anchors : List Anchor) : List Anchor :=
  anchors.filter fun a => !(a.title html).isEmpty

def Anchor.found (page : Text) (a : Anchor) : Found := ⟨a, a.read page⟩

/-- What a scan of anchors adds to the results; it fails where a window ends inside a character. -/
def scanned (html : Text) (out : List Found) (anchors : List Anchor) :
    Except ScanFailure (List Found) :=
  if anchors.all fun a => a.windowFits html then
    .ok (out ++ (titled html anchors).map (Anchor.found html))
  else .error .slice

section
variable {html : Text} {a b : Anchor} {max pos fuel : ℕ} {out : List Found} {anchors : List Anchor}

theorem scanned_nil : scanned html out [] = .ok out := by
  simp [scanned, titled]

theorem scanned_unfit (h : a.windowFits html = false) :
    scanned html out (a :: anchors) = .error .slice := by
  simp [scanned, h]

theorem scanned_untitled (h : a.windowFits html = true) (hempty : (a.title html).isEmpty = true) :
    scanned html out (a :: anchors) = scanned html out anchors := by
  simp [scanned, titled, h, hempty]

theorem scanned_titled (h : a.windowFits html = true) (htitle : ¬(a.title html).isEmpty = true) :
    scanned html out (a :: anchors) = scanned html (out ++ [a.found html]) anchors := by
  simp [scanned, titled, h, htitle]

theorem AnchorAt.bounds (h : AnchorAt (utf8Bytes html) pos a) :
    pos ≤ a.aClose ∧ a.aClose + 4 ≤ byteLen html := by
  have hle := h.le
  have hbehind := h.behind
  have hfits := h.closed.le_length (by decide)
  have hfour : closeBytes.length = 4 := by decide
  rw [utf8Bytes_length, hfour] at hfits
  omega

/-- The scan ends with what the anchors say that it visits. By induction on the fuel, of which the
bytes behind the position are fewer. -/
theorem ddgLoop_eq (hpos : pos ≤ byteLen html) (hfuel : byteLen html < fuel + pos) :
    ddgLoop html max fuel pos out =
      scanned html out (visited html fuel (max - out.length) pos) := by
  induction fuel generalizing pos out with
  | zero => omega
  | succ fuel ih =>
    unfold ddgLoop visited
    by_cases hgo : pos < byteLen html ∧ out.length < max
    · have hgo' : pos < byteLen html ∧ 0 < max - out.length := by omega
      rw [if_pos hgo, if_pos hgo']
      cases hnext : nextAnchor (utf8Bytes html) pos with
      | none => exact scanned_nil.symm
      | some a =>
        have hanchor := nextAnchor_spec hnext
        have hbounds := hanchor.bounds
        have hnextPos : a.aClose + 4 ≤ byteLen html := hbounds.2
        have hnextFuel : byteLen html < fuel + (a.aClose + 4) := by omega
        simp only [readAnchor_eq hanchor]
        by_cases hfits : a.windowFits html = true
        · rw [if_pos hfits]
          show ddgLoop html max fuel (a.aClose + 4)
            (if (a.title html).isEmpty then out else out ++ [a.found html]) = _
          by_cases hempty : (a.title html).isEmpty = true
          · rw [if_pos hempty, if_pos hempty, scanned_untitled hfits hempty, ih hnextPos hnextFuel]
          · have hroom : max - (out ++ [a.found html]).length = max - out.length - 1 := by
              rw [List.length_append, List.length_singleton]
              omega
            rw [if_neg hempty, if_neg hempty, scanned_titled hfits hempty, ih hnextPos hnextFuel,
              hroom]
        · rw [if_neg hfits, scanned_unfit (Bool.eq_false_iff.mpr hfits)]
          rfl
    · have hgo' : ¬(pos < byteLen html ∧ 0 < max - out.length) := by omega
      rw [if_neg hgo, if_neg hgo']
      exact scanned_nil.symm

theorem AnchorAt.mono {first : ℕ} (h : AnchorAt (utf8Bytes html) pos a) (hle : first ≤ pos) :
    AnchorAt (utf8Bytes html) first a where
  le := hle.trans h.le
  mark := h.mark
  opened := h.opened
  before := h.before
  last := h.last
  closed := h.closed
  behind := h.behind

theorem visited_spec (hpos : pos ≤ byteLen html) :
    ∀ a ∈ visited html fuel max pos, AnchorAt (utf8Bytes html) pos a := by
  induction fuel generalizing max pos with
  | zero => simp [visited]
  | succ fuel ih =>
    unfold visited
    split_ifs with hgo
    · cases hnext : nextAnchor (utf8Bytes html) pos with
      | none => simp
      | some a =>
        have hanchor := nextAnchor_spec hnext
        obtain ⟨hle, hend⟩ := hanchor.bounds
        intro b hb
        rcases List.mem_cons.mp hb with rfl | hb
        · exact hanchor
        · exact (ih hend b hb).mono (by omega)
    · simp

theorem length_titled_visited : (titled html (visited html fuel max pos)).length ≤ max := by
  induction fuel generalizing max pos with
  | zero => simp [visited, titled]
  | succ fuel ih =>
    unfold visited
    split_ifs with hgo
    · cases hnext : nextAnchor (utf8Bytes html) pos with
      | none => simp [titled]
      | some a =>
        simp only [titled, List.filter_cons]
        by_cases hempty : (a.title html).isEmpty = true
        · rw [if_pos hempty]
          simpa [hempty, titled] using @ih max (a.aClose + 4)
        · rw [if_neg hempty]
          have hrest := @ih (max - 1) (a.aClose + 4)
          unfold titled at hrest
          simp only [hempty, Bool.not_false, if_true, List.length_cons]
          omega
    · simp [titled]

theorem cutText_eq_some {pattern t before after : Text}
    (h : cutText pattern t = some (before, after)) : t = before ++ pattern ++ after := by
  induction t generalizing before with
  | nil =>
    unfold cutText at h
    split_ifs at h with hempty
    cases h
    rw [List.isEmpty_iff.mp hempty]
    rfl
  | cons c t ih =>
    unfold cutText at h
    split_ifs at h with hmatch
    · cases h
      obtain ⟨rest, hrest⟩ := List.isPrefixOf_iff_prefix.mp hmatch
      rw [← hrest, List.drop_left, List.nil_append]
    · obtain ⟨⟨x, y⟩, hcut, heq⟩ := Option.map_eq_some_iff.mp h
      cases heq
      rw [ih hcut]
      rfl

/-- A snippet is text of its window. -/
theorem windowSnippet_spec (window : Text) : windowSnippet window = [] ∨
    ∃ piece, piece <:+: window ∧ windowSnippet window = trim (dropTags false piece) := by
  unfold windowSnippet
  cases hmark : cutText "result__snippet".toList window with
  | none => exact Or.inl rfl
  | some parts =>
    obtain ⟨before, behind⟩ := parts
    have hwindow := cutText_eq_some hmark
    have hafter : "result__snippet".toList ++ behind <:+: window := by
      rw [hwindow, List.append_assoc]
      exact (List.suffix_append before _).isInfix
    have hprefix : ∀ {pattern element rest : Text},
        cutText pattern ("result__snippet".toList ++ behind) = some (element, rest) →
        element <:+: window := by
      intro pattern element rest h
      apply List.IsInfix.trans _ hafter
      rw [cutText_eq_some h, List.append_assoc]
      exact (List.prefix_append element _).isInfix
    simp only
    cases hclose : cutText "</a>".toList ("result__snippet".toList ++ behind) with
    | some parts =>
      right
      exact ⟨parts.1, hprefix hclose, rfl⟩
    | none =>
      cases hcell : cutText "</td>".toList ("result__snippet".toList ++ behind) with
      | some parts =>
        right
        exact ⟨parts.1, hprefix hcell, rfl⟩
      | none => exact Or.inl rfl

end

/-! Pages. -/

/-- The anchors that the parser visits on a page. -/
def pageAnchors (html : Text) (max : ℕ) : List Anchor := visited html (byteLen html + 1) max 0

/-- Behind the opening of the first anchor another one opens, in front of the mark of the second. -/
def OpensBetween (bytes : List UInt8) (a b : Anchor) : Prop :=
  ∃ i, a.aOpen < i ∧ Occurs openBytes bytes i ∧ i + 2 ≤ b.anchorStart

/-- The windows of the anchors end between characters, and no two results share an opening. -/
structure PageFits (html : Text) (max : ℕ) : Prop where
  windows : ∀ a ∈ pageAnchors html max, a.windowFits html = true
  openings : (titled html (pageAnchors html max)).IsChain (OpensBetween (utf8Bytes html))

/-- The result has the text of its anchor as its title, and a snippet from the window behind. -/
structure IsRead (html : Text) (f : Found) : Prop where
  opened : Occurs openBytes (utf8Bytes html) f.anchor.aOpen
  marked : Occurs markBytes (utf8Bytes html) f.anchor.anchorStart
  closed : Occurs closeBytes (utf8Bytes html) f.anchor.aClose
  around : f.anchor.aOpen < f.anchor.anchorStart ∧ f.anchor.anchorStart ≤ f.anchor.aClose
  title : f.result.title = trim (dropTags false (f.anchor.anchorHtml html))
  title_ne_nil : f.result.title ≠ []
  snippet : f.result.snippet = [] ∨ ∃ piece, piece <:+: f.anchor.window html ∧
    f.result.snippet = trim (dropTags false piece)

/-- The parser ends without a failure, with at most `max` results, each from an anchor of its own,
in the order of the page. -/
def ReadsPage (html : Text) (max : ℕ) : Prop :=
  ∃ outcome, parseDdg html max = .ok outcome ∧ outcome.found.length ≤ max ∧
    (outcome.found.map fun f => f.anchor.aOpen).Pairwise (· < ·) ∧
    ∀ f ∈ outcome.found, IsRead html f

section
variable {html : Text} {max : ℕ} {a b : Anchor} {f : Found}

theorem parseDdg_eq (hpage : isDdgChallenge html = false) :
    (parseDdg html max).map DdgParseOutcome.found = scanned html [] (pageAnchors html max) := by
  have hloop := @ddgLoop_eq html max 0 (byteLen html + 1) [] (Nat.zero_le _) (by omega)
  unfold parseDdg
  rw [if_neg (by rw [hpage]; exact Bool.false_ne_true), hloop]
  show Except.map _ (Except.bind (scanned html [] (pageAnchors html max)) _) = _
  cases scanned html [] (pageAnchors html max) with
  | error e => rfl
  | ok out =>
    cases out with
    | nil =>
      show Except.ok (DdgParseOutcome.found (if isDdgExplicitNoResults html then _ else _)) = _
      cases isDdgExplicitNoResults html <;> rfl
    | cons f out => rfl

theorem pageAnchors_spec : ∀ a ∈ pageAnchors html max, AnchorAt (utf8Bytes html) 0 a :=
  visited_spec (Nat.zero_le _)

theorem isRead_found (h : a ∈ titled html (pageAnchors html max)) : IsRead html (a.found html) := by
  obtain ⟨hmem, htitle⟩ := List.mem_filter.mp h
  have hanchor := pageAnchors_spec a hmem
  constructor
  · exact hanchor.opened
  · exact hanchor.mark
  · exact hanchor.closed
  · have hbefore := hanchor.before
    have hbehind := hanchor.behind
    show a.aOpen < a.anchorStart ∧ a.anchorStart ≤ a.aClose
    omega
  · rfl
  · show a.title html ≠ []
    simpa using htitle
  · exact windowSnippet_spec _

/-- Another opening in front of the mark means a later opening. -/
theorem opensBetween_iff (h : AnchorAt (utf8Bytes html) 0 b) :
    OpensBetween (utf8Bytes html) a b ↔ a.aOpen < b.aOpen := by
  constructor
  · rintro ⟨i, hi, hoccurs, hle⟩
    by_contra hnot
    have hlast := h.last i (by omega) hoccurs
    omega
  · intro hlt
    exact ⟨b.aOpen, hlt, h.opened, h.before⟩

theorem isChain_openings :
    (titled html (pageAnchors html max)).IsChain (OpensBetween (utf8Bytes html)) ↔
      ((titled html (pageAnchors html max)).map Anchor.aOpen).Pairwise (· < ·) := by
  have hspec : ∀ a ∈ titled html (pageAnchors html max), AnchorAt (utf8Bytes html) 0 a :=
    fun a ha => pageAnchors_spec a (List.mem_filter.mp ha).1
  rw [← List.isChain_iff_pairwise, List.isChain_map]
  generalize titled html (pageAnchors html max) = anchors at hspec
  induction anchors with
  | nil => simp
  | cons a anchors ih =>
    cases anchors with
    | nil => simp
    | cons b anchors =>
      have hb := hspec b (List.mem_cons_of_mem _ (List.mem_cons_self ..))
      have hrest := ih fun c hc => hspec c (List.mem_cons_of_mem _ hc)
      rw [List.isChain_cons_cons, List.isChain_cons_cons, opensBetween_iff hb]
      exact and_congr_right fun _ => hrest

/-- A page that is read fits. -/
theorem ReadsPage.pageFits (h : ReadsPage html max) (hpage : isDdgChallenge html = false) :
    PageFits html max := by
  have hparse := @parseDdg_eq html max hpage
  obtain ⟨outcome, hok, -, hsorted, -⟩ := h
  unfold scanned at hparse
  rw [hok] at hparse
  split_ifs at hparse with hall
  · have hfound : outcome.found = (titled html (pageAnchors html max)).map (Anchor.found html) :=
      Except.ok.inj hparse
    rw [hfound, List.map_map] at hsorted
    exact ⟨List.all_eq_true.mp hall, isChain_openings.mpr hsorted⟩
  · exact absurd hparse (by simp [Except.map])

/-- A page that fits is read. -/
theorem PageFits.readsPage (h : PageFits html max) (hpage : isDdgChallenge html = false) :
    ReadsPage html max := by
  have hparse := @parseDdg_eq html max hpage
  have hall : ((pageAnchors html max).all fun a => a.windowFits html) = true :=
    List.all_eq_true.mpr h.windows
  unfold scanned at hparse
  rw [if_pos hall, List.nil_append] at hparse
  cases hok : parseDdg html max with
  | error e =>
    rw [hok] at hparse
    exact absurd hparse (by simp [Except.map])
  | ok outcome =>
    rw [hok] at hparse
    have hfound : outcome.found = (titled html (pageAnchors html max)).map (Anchor.found html) :=
      Except.ok.inj hparse
    use outcome, hok
    rw [hfound, List.length_map, List.map_map]
    constructor
    · exact length_titled_visited
    · constructor
      · exact isChain_openings.mp h.openings
      · intro f hf
        obtain ⟨a, ha, rfl⟩ := List.mem_map.mp hf
        exact isRead_found ha

theorem readsPage_challenge (hpage : isDdgChallenge html = true) : ReadsPage html max := by
  use .challenge
  simp [parseDdg, hpage, DdgParseOutcome.found]

/-- A page is read exactly when it is a challenge or fits. -/
theorem parseDdg_iff (html : Text) (max : ℕ) :
    ReadsPage html max ↔ isDdgChallenge html = true ∨ PageFits html max := by
  cases hpage : isDdgChallenge html with
  | true => exact iff_of_true (readsPage_challenge hpage) (Or.inl rfl)
  | false =>
    constructor
    · intro h
      exact Or.inr (h.pageFits hpage)
    · rintro (h | h)
      · cases h
      · exact h.readsPage hpage

end

/-! Two pages. -/

/-- A page whose snippet window ends inside a character. -/
def widePage : Text :=
  "<a class=\"result__a\">T</a>-".toList ++ List.replicate 1000 '𝄞'

/-- A page with a mark in the text behind an anchor. -/
def sharedPage : Text := "<a class=\"result__a\">T</a> result__a</a>".toList

/-- The first page is not sliced, and from the second two results are read from one anchor. -/
theorem pages_misread : ¬ReadsPage widePage 1 ∧ ¬ReadsPage sharedPage 2 := by
  constructor
  · intro h
    have hfits := h.pageFits (by decide +kernel)
    have hall : ((pageAnchors widePage 1).all fun a => a.windowFits widePage) = false := by
      decide +kernel
    rw [List.all_eq_true.mpr hfits.windows] at hall
    cases hall
  · intro h
    have hfits := h.pageFits (by decide +kernel)
    have hanchors : titled sharedPage (pageAnchors sharedPage 2) = [⟨10, 0, 22⟩, ⟨27, 0, 36⟩] := by
      decide +kernel
    have hsorted := isChain_openings.mp hfits.openings
    rw [hanchors] at hsorted
    exact absurd hsorted (by decide)

end DeepseekScience.Tools
