import DeepseekScience.Agent.NativeTools
import DeepseekScience.Lib.Interleave

/-! The assembly of native tool calls does not depend on how the deltas of different calls are
interleaved, and it never leaves its boundaries. -/
namespace DeepseekScience.Agent

open Transactions Interleavings

section
variable {l : List (ℕ × AccToolCall)}

/-- The calls are listed by strictly increasing index. -/
def SortedCalls (l : List (ℕ × AccToolCall)) : Prop := l.Pairwise fun a b => a.1 < b.1

@[simp] theorem lookup_insertCall (index : ℕ) (call : AccToolCall) (k : ℕ) :
    (insertCall index call l).lookup k = if k = index then some call else l.lookup k := by
  induction l with
  | nil => by_cases h : k = index <;> simp [insertCall, List.lookup_cons, h, beq_eq_false_iff_ne.mpr]
  | cons c rest ih =>
    obtain ⟨i, c⟩ := c
    simp only [insertCall]
    by_cases hk : k = index
    · subst hk
      rw [if_pos rfl] at ih ⊢
      split_ifs with hlt heq
      · simp
      · simp
      · rw [List.lookup_cons, beq_eq_false_iff_ne.mpr heq, ih]
    · rw [if_neg hk] at ih ⊢
      split_ifs with hlt heq
      · rw [List.lookup_cons, beq_eq_false_iff_ne.mpr hk]
      · subst heq
        simp only [List.lookup_cons, beq_eq_false_iff_ne.mpr hk]
      · simp only [List.lookup_cons, ih]

theorem insertCall_comm {i j : ℕ} (hij : i ≠ j) (c d : AccToolCall) :
    insertCall i c (insertCall j d l) = insertCall j d (insertCall i c l) := by
  induction l with
  | nil =>
    simp only [insertCall]
    split_ifs <;> first | rfl | omega
  | cons e rest ih =>
    obtain ⟨k, e⟩ := e
    simp only [insertCall]
    grind [insertCall]

theorem mem_insertCall {index : ℕ} {call : AccToolCall} {e : ℕ × AccToolCall}
    (h : e ∈ insertCall index call l) : e = (index, call) ∨ e ∈ l := by
  induction l with
  | nil => exact Or.inl (by simpa [insertCall] using h)
  | cons c rest ih =>
    obtain ⟨i, c⟩ := c
    simp only [insertCall] at h
    split_ifs at h with hlt heq
    · rcases List.mem_cons.mp h with h | h
      · exact Or.inl h
      · exact Or.inr h
    · rcases List.mem_cons.mp h with h | h
      · exact Or.inl h
      · exact Or.inr (List.mem_cons_of_mem _ h)
    · rcases List.mem_cons.mp h with h | h
      · exact Or.inr (h ▸ List.mem_cons_self)
      · exact (ih h).imp_right (List.mem_cons_of_mem _)

theorem SortedCalls.insertCall (h : SortedCalls l) (index : ℕ) (call : AccToolCall) :
    SortedCalls (insertCall index call l) := by
  induction l with
  | nil => exact List.pairwise_singleton _ _
  | cons c rest ih =>
    obtain ⟨i, c⟩ := c
    obtain ⟨hhead, htail⟩ := List.pairwise_cons.mp h
    simp only [Agent.insertCall]
    split_ifs with hlt heq
    · refine List.pairwise_cons.mpr ⟨fun e he => ?_, h⟩
      rcases List.mem_cons.mp he with rfl | he
      · exact hlt
      · exact hlt.trans (hhead e he)
    · subst heq
      exact List.pairwise_cons.mpr ⟨hhead, htail⟩
    · refine List.pairwise_cons.mpr ⟨fun e he => ?_, ih htail⟩
      rcases mem_insertCall he with rfl | he
      · exact lt_of_le_of_ne (not_lt.mp hlt) (Ne.symm heq)
      · exact hhead e he

theorem lookup_eq_none_of_lt {index : ℕ} (h : ∀ e ∈ l, index < e.1) : l.lookup index = none := by
  induction l with
  | nil => rfl
  | cons c rest ih =>
    have hne : (index == c.1) = false := beq_eq_false_iff_ne.mpr (h c List.mem_cons_self).ne
    rw [List.lookup_cons, hne]
    exact ih fun e he => h e (List.mem_cons_of_mem _ he)

/-- What an insertion does to a sum over the calls: the old term of the index is exchanged. -/
theorem sum_insertCall (h : SortedCalls l) (index : ℕ) (call : AccToolCall)
    (weight : AccToolCall → ℕ) :
    ((insertCall index call l).map fun e => weight e.2).sum + ((l.lookup index).map weight).getD 0 =
      (l.map fun e => weight e.2).sum + weight call := by
  induction l with
  | nil => simp [insertCall]
  | cons c rest ih =>
    obtain ⟨i, c⟩ := c
    obtain ⟨hhead, htail⟩ := List.pairwise_cons.mp h
    simp only [insertCall]
    split_ifs with hlt heq
    · have hnone : ((i, c) :: rest).lookup index = none := by
        apply lookup_eq_none_of_lt
        intro e he
        rcases List.mem_cons.mp he with rfl | he
        · exact hlt
        · exact hlt.trans (hhead e he)
      rw [hnone]
      simp only [List.map_cons, List.sum_cons, Option.map_none, Option.getD_none]
      omega
    · subst heq
      simp only [List.lookup_cons_self, List.map_cons, List.sum_cons, Option.map_some,
        Option.getD_some]
      omega
    · have := ih htail
      simp only [List.lookup_cons, beq_eq_false_iff_ne.mpr heq, List.map_cons, List.sum_cons]
      omega

theorem length_insertCall (h : SortedCalls l) (index : ℕ) (call : AccToolCall) :
    (insertCall index call l).length = l.length + if (l.lookup index).isNone then 1 else 0 := by
  have hsum := sum_insertCall h index call fun _ => 1
  simp only [List.map_const', List.sum_replicate, smul_eq_mul, mul_one] at hsum
  cases hl : l.lookup index with
  | none =>
    rw [hl] at hsum
    simpa using hsum
  | some c =>
    rw [hl] at hsum
    simpa using hsum

end

/-- The argument bytes of a delta. -/
def ToolCallDelta.bytes (delta : ToolCallDelta) : ℕ := byteLen (delta.arguments.getD [])

/-- What a delta does to the slot of its index, and whether it makes progress there. -/
def AccToolCall.push (slot : AccToolCall) (delta : ToolCallDelta) :
    Except NativeToolProtocolError (AccToolCall × Bool) := do
  let (id, newId) ← fixField maxToolCallIdBytes .idMutation slot.id delta.id
  let (name, newName) ← fixField Dsml.maxToolNameBytes .nameMutation slot.name delta.name
  if delta.arguments.isSome ∧
      Dsml.maxToolArgumentBytesPerCall < byteLen slot.arguments + ToolCallDelta.bytes delta then
    .error .boundaryExceeded
  else
    .ok (⟨id, name, slot.arguments ++ delta.arguments.getD []⟩,
      newId || newName || !(delta.arguments.getD []).isEmpty)

theorem AccToolCall.push_ok_iff {slot call : AccToolCall} {delta : ToolCallDelta} {progress : Bool} :
    slot.push delta = .ok (call, progress) ↔
      ∃ id newId name newName,
        fixField maxToolCallIdBytes .idMutation slot.id delta.id = .ok (id, newId) ∧
        fixField Dsml.maxToolNameBytes .nameMutation slot.name delta.name = .ok (name, newName) ∧
        ¬(delta.arguments.isSome ∧ Dsml.maxToolArgumentBytesPerCall <
          byteLen slot.arguments + ToolCallDelta.bytes delta) ∧
        call = ⟨id, name, slot.arguments ++ delta.arguments.getD []⟩ ∧
        progress = (newId || newName || !(delta.arguments.getD []).isEmpty) := by
  simp only [push, bind_eq_ok, Prod.exists]
  constructor
  · rintro ⟨id, newId, hid, name, newName, hname, h⟩
    split_ifs at h with hcall
    obtain ⟨rfl, rfl⟩ := by simpa using h
    exact ⟨id, newId, name, newName, hid, hname, hcall, rfl, rfl⟩
  · rintro ⟨id, newId, name, newName, hid, hname, hcall, rfl, rfl⟩
    exact ⟨id, newId, hid, name, newName, hname, by rw [if_neg hcall]⟩

namespace ToolCallAccumulator

def slot (acc : ToolCallAccumulator) (index : ℕ) : AccToolCall := (acc.calls.lookup index).getD {}

/-- An accepted delta: there is room for its index, its slot accepts it, and it stays within the
boundaries of the turn. -/
structure Pushed (acc : ToolCallAccumulator) (delta : ToolCallDelta) (call : AccToolCall)
    (progress : Bool) : Prop where
  room : acc.calls.lookup delta.index = none → acc.calls.length < Dsml.maxToolCallsPerTurn
  slot : (acc.slot delta.index).push delta = .ok (call, progress)
  total : delta.arguments.isSome = true →
    acc.totalArgumentBytes + ToolCallDelta.bytes delta ≤ Dsml.maxToolArgumentBytesTotal
  noProgress : acc.noProgressDeltaCount + (if progress then 0 else 1) ≤
    maxNativeToolNoProgressDeltasPerTurn

def pushed (acc : ToolCallAccumulator) (delta : ToolCallDelta) (call : AccToolCall)
    (progress : Bool) : ToolCallAccumulator where
  calls := insertCall delta.index call acc.calls
  totalArgumentBytes := acc.totalArgumentBytes + ToolCallDelta.bytes delta
  noProgressDeltaCount := acc.noProgressDeltaCount + if progress then 0 else 1

theorem appendArguments_ok_iff {acc : ToolCallAccumulator} {current : Text}
    {fragment : Option Text} {r : Text × ℕ × Bool} :
    acc.appendArguments current fragment = .ok r ↔
      ¬(fragment.isSome ∧ Dsml.maxToolArgumentBytesPerCall <
          byteLen current + byteLen (fragment.getD [])) ∧
        (fragment.isSome = true → acc.totalArgumentBytes + byteLen (fragment.getD []) ≤
          Dsml.maxToolArgumentBytesTotal) ∧
        r = (current ++ fragment.getD [], acc.totalArgumentBytes + byteLen (fragment.getD []),
          !(fragment.getD []).isEmpty) := by
  cases fragment with
  | none => simp [appendArguments, eq_comm]
  | some fragment =>
    simp only [appendArguments, Option.isSome_some, Option.getD_some, true_and, forall_const]
    split_ifs with hcall htotal
    · simp [hcall]
    · simp [not_le.mpr htotal]
    · simp [hcall, not_lt.mp htotal, eq_comm]

theorem push_ok_iff {acc acc' : ToolCallAccumulator} {delta : ToolCallDelta} :
    acc.push delta = .ok acc' ↔
      ∃ call progress, Pushed acc delta call progress ∧ acc' = pushed acc delta call progress := by
  constructor
  · intro h
    simp only [push] at h
    split_ifs at h with hroom
    simp only [bind_eq_ok, Prod.exists] at h
    obtain ⟨id, newId, hid, name, newName, hname, arguments, total, newArguments, happend, h⟩ := h
    obtain ⟨hcall, htotal, hr⟩ := appendArguments_ok_iff.mp happend
    simp only [Prod.mk.injEq] at hr
    obtain ⟨rfl, rfl, rfl⟩ := hr
    have hslot : (acc.slot delta.index).push delta = .ok
        (⟨id, name, (acc.slot delta.index).arguments ++ delta.arguments.getD []⟩,
          newId || newName || !(delta.arguments.getD []).isEmpty) :=
      AccToolCall.push_ok_iff.mpr ⟨id, newId, name, newName, hid, hname, hcall, rfl, rfl⟩
    refine ⟨_, _, ⟨?_, hslot, htotal, ?_⟩, ?_⟩
    · intro hnone
      simpa [hnone] using hroom
    · split_ifs at h ⊢ <;> omega
    · split_ifs at h with hnew <;>
        simp [← Except.ok.inj h, pushed, hnew, slot, ToolCallDelta.bytes]
  · rintro ⟨call, progress, ⟨hroom, hslot, htotal, hbudget⟩, rfl⟩
    obtain ⟨id, newId, name, newName, hid, hname, hcall, rfl, rfl⟩ :=
      AccToolCall.push_ok_iff.mp hslot
    have hfull : ¬((acc.calls.lookup delta.index).isNone &&
        decide (Dsml.maxToolCallsPerTurn ≤ acc.calls.length)) = true := by
      simpa using hroom
    simp only [push]
    rw [if_neg hfull]
    simp only [bind_eq_ok, Prod.exists]
    refine ⟨id, newId, hid, name, newName, hname, _, _, _,
      appendArguments_ok_iff.mpr ⟨hcall, htotal, rfl⟩, ?_⟩
    split_ifs at hbudget ⊢ with hnew hover hover
    · omega
    · simp [pushed, hnew, slot, ToolCallDelta.bytes]
    · omega
    · simp [pushed, hnew, slot, ToolCallDelta.bytes]

def Sorted (acc : ToolCallAccumulator) : Prop := SortedCalls acc.calls

theorem Sorted.init : Sorted {} := List.Pairwise.nil

theorem Sorted.pushed {acc : ToolCallAccumulator} (h : acc.Sorted) (delta : ToolCallDelta)
    (call : AccToolCall) (progress : Bool) : (acc.pushed delta call progress).Sorted :=
  SortedCalls.insertCall h delta.index call

theorem slot_pushed_of_ne {acc : ToolCallAccumulator} {delta : ToolCallDelta} {k : ℕ}
    (h : k ≠ delta.index) (call : AccToolCall) (progress : Bool) :
    (acc.pushed delta call progress).slot k = acc.slot k := by
  simp [slot, pushed, h]

theorem pushed_comm {acc : ToolCallAccumulator} {a b : ToolCallDelta} (h : a.index ≠ b.index)
    (ca cb : AccToolCall) (pa pb : Bool) :
    (acc.pushed b cb pb).pushed a ca pa = (acc.pushed a ca pa).pushed b cb pb := by
  simp only [pushed, insertCall_comm h, Nat.add_right_comm]

/-- Two accepted deltas of different calls are accepted in the other order too. -/
theorem Pushed.swap {acc : ToolCallAccumulator} (hsorted : acc.Sorted) {a b : ToolCallDelta}
    (hab : a.index ≠ b.index) {ca cb : AccToolCall} {pa pb : Bool} (ha : Pushed acc a ca pa)
    (hb : Pushed (acc.pushed a ca pa) b cb pb) :
    Pushed acc b cb pb ∧ Pushed (acc.pushed b cb pb) a ca pa := by
  have hlen := length_insertCall hsorted
  have hroom := hb.room
  have htotal := hb.total
  have hbudget := hb.noProgress
  simp only [pushed, lookup_insertCall, if_neg hab.symm, hlen] at hroom htotal hbudget
  constructor
  · constructor
    · intro hnone
      have := hroom hnone
      omega
    · rw [← slot_pushed_of_ne hab.symm ca pa]
      exact hb.slot
    · intro harguments
      have := htotal harguments
      omega
    · omega
  · constructor
    · simp only [pushed, lookup_insertCall, if_neg hab, hlen]
      intro hnone
      have haroom := ha.room hnone
      rw [hnone] at hroom
      split_ifs with hbnone
      · simpa using hroom (Option.isNone_iff_eq_none.mp hbnone)
      · exact haroom
    · rw [slot_pushed_of_ne hab]
      exact ha.slot
    · intro harguments
      have hatotal := ha.total harguments
      cases hbarguments : b.arguments with
      | none =>
        have hbytes : ToolCallDelta.bytes b = 0 := by simp [ToolCallDelta.bytes, hbarguments]
        simpa [pushed, hbytes] using hatotal
      | some fragment =>
        have := htotal (by rw [hbarguments]; rfl)
        simp only [pushed]
        omega
    · simp only [pushed]
      omega

/-- Deltas of different calls may be taken in either order. -/
theorem push_commutes : Commutes ToolCallDelta.index Sorted push := by
  constructor
  · intro acc delta acc' h hpush
    obtain ⟨call, progress, -, rfl⟩ := push_ok_iff.mp hpush
    exact h.pushed delta call progress
  · intro acc m t a b h hab ha hb
    obtain ⟨ca, pa, hca, rfl⟩ := push_ok_iff.mp ha
    obtain ⟨cb, pb, hcb, rfl⟩ := push_ok_iff.mp hb
    obtain ⟨hcb, hca⟩ := hca.swap h hab hcb
    exact ⟨_, push_ok_iff.mpr ⟨cb, pb, hcb, rfl⟩,
      push_ok_iff.mpr ⟨ca, pa, hca, (pushed_comm hab ca cb pa pb).symm⟩⟩

end ToolCallAccumulator

/-- The argument fragments of one index, concatenated in order. -/
def fragments (deltas : List ToolCallDelta) (index : ℕ) : Text :=
  ((deltas.filter fun d => d.index = index).map fun d => d.arguments.getD []).flatten

/-- The value of a write-once field: some delta of the index carries it, none carries another
one, and it is not empty. -/
def UniqueField (field : ToolCallDelta → Option Text) (deltas : List ToolCallDelta) (index : ℕ)
    (value : Text) : Prop :=
  value ≠ [] ∧ (∃ d ∈ deltas, d.index = index ∧ field d = some value) ∧
    ∀ d ∈ deltas, d.index = index → ∀ v, field d = some v → v = value

/-- The current value of a write-once field: unset while no delta of the index carried one. -/
def FieldSoFar (field : ToolCallDelta → Option Text) (deltas : List ToolCallDelta) (index : ℕ) :
    Option Text → Prop
  | none => ∀ d ∈ deltas, d.index = index → field d = none
  | some value => UniqueField field deltas index value

section
variable {field : ToolCallDelta → Option Text} {seen : List ToolCallDelta} {delta : ToolCallDelta}

theorem fragments_append_singleton (index : ℕ) :
    fragments (seen ++ [delta]) index =
      fragments seen index ++ if delta.index = index then delta.arguments.getD [] else [] := by
  simp only [fragments, List.filter_append, List.map_append, List.flatten_append]
  split_ifs with h <;> simp [h]

theorem FieldSoFar.of_ne {index : ℕ} (hne : delta.index ≠ index) {current : Option Text}
    (h : FieldSoFar field seen index current) :
    FieldSoFar field (seen ++ [delta]) index current := by
  cases current with
  | none =>
    intro d hd hindex
    rcases List.mem_append.mp hd with hd | hd
    · exact h d hd hindex
    · exact absurd (List.mem_singleton.mp hd ▸ hindex) hne
  | some value =>
    obtain ⟨hvalue, ⟨d, hd, hindex, hfield⟩, hunique⟩ := h
    refine ⟨hvalue, ⟨d, List.mem_append_left _ hd, hindex, hfield⟩, fun e he heindex => ?_⟩
    rcases List.mem_append.mp he with he | he
    · exact hunique e he heindex
    · exact absurd (List.mem_singleton.mp he ▸ heindex) hne

theorem FieldSoFar.fixField {maxBytes : ℕ} {mutation : NativeToolProtocolError}
    {current : Option Text} {r : Option Text × Bool}
    (h : FieldSoFar field seen delta.index current)
    (hfix : fixField maxBytes mutation current (field delta) = .ok r) :
    FieldSoFar field (seen ++ [delta]) delta.index r.1 := by
  cases hnext : field delta with
  | none =>
    rw [hnext] at hfix
    obtain rfl := Except.ok.inj hfix
    cases current with
    | none =>
      intro d hd hindex
      rcases List.mem_append.mp hd with hd | hd
      · exact h d hd hindex
      · exact List.mem_singleton.mp hd ▸ hnext
    | some value =>
      obtain ⟨hvalue, ⟨d, hd, hindex, hfield⟩, hunique⟩ := h
      refine ⟨hvalue, ⟨d, List.mem_append_left _ hd, hindex, hfield⟩, fun e he heindex v hv => ?_⟩
      rcases List.mem_append.mp he with he | he
      · exact hunique e he heindex v hv
      · rw [List.mem_singleton.mp he, hnext] at hv
        cases hv
  | some value =>
    rw [hnext] at hfix
    simp only [Agent.fixField] at hfix
    split_ifs at hfix with hbad
    have hvalue : value ≠ [] := by
      rintro rfl
      simp at hbad
    have hlast : delta ∈ seen ++ [delta] := List.mem_append_right _ List.mem_cons_self
    cases current with
    | none =>
      obtain rfl := Except.ok.inj hfix
      refine ⟨hvalue, ⟨delta, hlast, rfl, hnext⟩, fun e he heindex v hv => ?_⟩
      rcases List.mem_append.mp he with he | he
      · rw [h e he heindex] at hv
        cases hv
      · rw [List.mem_singleton.mp he, hnext] at hv
        exact (Option.some.inj hv).symm
    | some existing =>
      simp only at hfix
      split_ifs at hfix with hsame
      subst hsame
      obtain rfl := Except.ok.inj hfix
      refine ⟨hvalue, ⟨delta, hlast, rfl, hnext⟩, fun e he heindex v hv => ?_⟩
      rcases List.mem_append.mp he with he | he
      · exact h.2.2 e he heindex v hv
      · rw [List.mem_singleton.mp he, hnext] at hv
        exact (Option.some.inj hv).symm

end

namespace ToolCallAccumulator

/-- The boundaries of one turn. -/
structure WithinBounds (acc : ToolCallAccumulator) : Prop where
  indexes : acc.calls.length ≤ Dsml.maxToolCallsPerTurn
  perCall : ∀ e ∈ acc.calls, byteLen e.2.arguments ≤ Dsml.maxToolArgumentBytesPerCall
  sum : acc.totalArgumentBytes = (acc.calls.map fun e => byteLen e.2.arguments).sum
  total : acc.totalArgumentBytes ≤ Dsml.maxToolArgumentBytesTotal

/-- What the accumulator holds after some accepted deltas. -/
structure Collected (seen : List ToolCallDelta) (acc : ToolCallAccumulator) : Prop where
  sorted : acc.Sorted
  known : ∀ k, acc.calls.lookup k = none ↔ ∀ d ∈ seen, d.index ≠ k
  id : ∀ k, FieldSoFar ToolCallDelta.id seen k (acc.slot k).id
  name : ∀ k, FieldSoFar ToolCallDelta.name seen k (acc.slot k).name
  arguments : ∀ k, (acc.slot k).arguments = fragments seen k
  bounds : acc.WithinBounds

theorem slot_pushed {acc : ToolCallAccumulator} {delta : ToolCallDelta} (call : AccToolCall)
    (progress : Bool) (k : ℕ) :
    (acc.pushed delta call progress).slot k = if k = delta.index then call else acc.slot k := by
  simp only [slot, pushed, lookup_insertCall]
  split_ifs <;> rfl

theorem bytes_of_isNone {delta : ToolCallDelta} (h : ¬delta.arguments.isSome = true) :
    ToolCallDelta.bytes delta = 0 := by
  simp [ToolCallDelta.bytes, Option.not_isSome_iff_eq_none.mp h]

theorem WithinBounds.slot {acc : ToolCallAccumulator} (h : acc.WithinBounds) (k : ℕ) :
    byteLen (acc.slot k).arguments ≤ Dsml.maxToolArgumentBytesPerCall := by
  simp only [ToolCallAccumulator.slot]
  cases hk : acc.calls.lookup k with
  | none => exact Nat.zero_le _
  | some call =>
    obtain ⟨l₁, l₂, hl, -⟩ := List.lookup_eq_some_iff.mp hk
    exact h.perCall (k, call) (hl ▸ List.mem_append_right _ List.mem_cons_self)

theorem WithinBounds.pushed {acc : ToolCallAccumulator} (h : acc.WithinBounds)
    (hsorted : acc.Sorted) {delta : ToolCallDelta} {call : AccToolCall} {progress : Bool}
    (hpush : Pushed acc delta call progress) : (acc.pushed delta call progress).WithinBounds := by
  obtain ⟨id, newId, name, newName, -, -, hcall, rfl, -⟩ := AccToolCall.push_ok_iff.mp hpush.slot
  have hbytes : byteLen ((acc.slot delta.index).arguments ++ delta.arguments.getD []) =
      byteLen (acc.slot delta.index).arguments + ToolCallDelta.bytes delta := byteLen_append _ _
  constructor
  · simp only [ToolCallAccumulator.pushed, length_insertCall hsorted]
    split_ifs with hnone
    · exact hpush.room (Option.isNone_iff_eq_none.mp hnone)
    · exact h.indexes
  · intro e he
    rcases mem_insertCall he with rfl | he
    · rw [hbytes]
      by_cases hsome : delta.arguments.isSome = true
      · exact not_lt.mp fun hlt => hcall ⟨hsome, hlt⟩
      · rw [bytes_of_isNone hsome]
        exact h.slot delta.index
    · exact h.perCall e he
  · have hsum := sum_insertCall hsorted delta.index
      ⟨id, name, (acc.slot delta.index).arguments ++ delta.arguments.getD []⟩
      fun call => byteLen call.arguments
    have hold : ((acc.calls.lookup delta.index).map fun call => byteLen call.arguments).getD 0 =
        byteLen (acc.slot delta.index).arguments := by
      simp only [ToolCallAccumulator.slot]
      cases acc.calls.lookup delta.index <;> rfl
    have := h.sum
    simp only at hsum
    simp only [ToolCallAccumulator.pushed]
    omega
  · simp only [ToolCallAccumulator.pushed]
    by_cases hsome : delta.arguments.isSome = true
    · exact hpush.total hsome
    · rw [bytes_of_isNone hsome]
      exact h.total

theorem Collected.init : Collected [] {} := by
  constructor
  · exact List.Pairwise.nil
  · exact fun k => ⟨fun _ d hd => absurd hd List.not_mem_nil, fun _ => rfl⟩
  · exact fun k d hd => absurd hd List.not_mem_nil
  · exact fun k d hd => absurd hd List.not_mem_nil
  · exact fun k => rfl
  · constructor <;> simp

theorem Collected.push {seen : List ToolCallDelta} {acc acc' : ToolCallAccumulator}
    {delta : ToolCallDelta} (h : Collected seen acc) (hpush : acc.push delta = .ok acc') :
    Collected (seen ++ [delta]) acc' := by
  obtain ⟨call, progress, hpushed, rfl⟩ := push_ok_iff.mp hpush
  have hbounds := h.bounds.pushed h.sorted hpushed
  obtain ⟨id, newId, name, newName, hid, hname, -, rfl, -⟩ := AccToolCall.push_ok_iff.mp hpushed.slot
  constructor
  · exact h.sorted.pushed delta _ progress
  · intro k
    simp only [pushed, lookup_insertCall]
    split_ifs with hk
    · subst hk
      simp
    · rw [h.known k]
      simp only [List.mem_append, List.mem_singleton, or_imp, forall_and, forall_eq]
      exact ⟨fun hseen => ⟨hseen, Ne.symm hk⟩, And.left⟩
  · intro k
    rw [slot_pushed]
    split_ifs with hk
    · exact hk ▸ (h.id delta.index).fixField hid
    · exact (h.id k).of_ne (Ne.symm hk)
  · intro k
    rw [slot_pushed]
    split_ifs with hk
    · exact hk ▸ (h.name delta.index).fixField hname
    · exact (h.name k).of_ne (Ne.symm hk)
  · intro k
    rw [slot_pushed, fragments_append_singleton]
    split_ifs with hk hk' hk'
    · rw [h.arguments, hk]
    · exact absurd hk.symm hk'
    · exact absurd hk'.symm hk
    · rw [h.arguments, List.append_nil]
  · exact hbounds

/-- An accepted run collects exactly its deltas. -/
theorem collected_of_run {deltas : List ToolCallDelta} {acc : ToolCallAccumulator}
    (h : deltas.foldlM push {} = .ok acc) : Collected deltas acc :=
  foldlM_invariant Collected.init (fun _ _ _ _ hc hp => hc.push hp) h

/-- What `finalize` accepts: every call is complete, and no id is used twice. -/
theorem finalizeFrom_ok {ids : List Text} {entries : List (ℕ × AccToolCall)}
    {calls : List ToolCall} (h : finalizeFrom ids entries = .ok calls) :
    List.Forall₂ (fun e call => ∃ id name, e.2.id = some id ∧ e.2.name = some name ∧
        call = ToolCall.ofFunction id name e.2.arguments) entries calls ∧
      (calls.map ToolCall.id).Nodup ∧ ∀ call ∈ calls, call.id ∉ ids := by
  induction entries generalizing ids calls with
  | nil =>
    obtain rfl := Except.ok.inj h
    simp
  | cons e rest ih =>
    obtain ⟨k, call⟩ := e
    simp only [finalizeFrom] at h
    split at h
    · rename_i id name hid hname
      split_ifs at h with hdup
      obtain ⟨finalized, hrest, rfl⟩ : ∃ finalized, finalizeFrom (id :: ids) rest = .ok finalized ∧
          ToolCall.ofFunction id name call.arguments :: finalized = calls := by
        cases hrest : finalizeFrom (id :: ids) rest with
        | error e => simp [hrest, Except.map] at h
        | ok finalized => exact ⟨finalized, rfl, by simpa [hrest, Except.map] using h⟩
      obtain ⟨hforall, hnodup, hfresh⟩ := ih hrest
      constructor
      · exact List.Forall₂.cons ⟨id, name, hid, hname, rfl⟩ hforall
      constructor
      · rw [List.map_cons, List.nodup_cons]
        constructor
        · intro hmem
          obtain ⟨c, hc, hceq⟩ := List.mem_map.mp hmem
          exact hfresh c hc (hceq ▸ List.mem_cons_self)
        · exact hnodup
      · intro c hc
        rcases List.mem_cons.mp hc with rfl | hc
        · exact hdup
        · exact fun hmem => hfresh c hc (List.mem_cons_of_mem _ hmem)
    · cases h

end ToolCallAccumulator

/-- All deltas of a turn, then the end of its stream. -/
def assemble (deltas : List ToolCallDelta) : Except NativeToolProtocolError (List ToolCall) := do
  let acc ← deltas.foldlM ToolCallAccumulator.push {}
  acc.finalize

/-- The call of one index: its unique id and name, and its fragments in order. -/
def IsAssembled (deltas : List ToolCallDelta) (index : ℕ) (call : ToolCall) : Prop :=
  ∃ id name, UniqueField ToolCallDelta.id deltas index id ∧
    UniqueField ToolCallDelta.name deltas index name ∧
    call = ToolCall.ofFunction id name (fragments deltas index)

/-- One call per index, in increasing index order. -/
def AssembledInOrder (deltas : List ToolCallDelta) (calls : List ToolCall) : Prop :=
  ∃ indexes : List ℕ, indexes.Pairwise (· < ·) ∧
    (∀ k, k ∈ indexes ↔ ∃ d ∈ deltas, d.index = k) ∧
    List.Forall₂ (IsAssembled deltas) indexes calls

theorem lookup_of_mem_sorted {l : List (ℕ × AccToolCall)} (h : SortedCalls l) {k : ℕ}
    {call : AccToolCall} (hmem : (k, call) ∈ l) : l.lookup k = some call := by
  induction l with
  | nil => cases hmem
  | cons e rest ih =>
    obtain ⟨hhead, htail⟩ := List.pairwise_cons.mp h
    rcases List.mem_cons.mp hmem with rfl | hmem
    · exact List.lookup_cons_self
    · rw [List.lookup_cons, beq_eq_false_iff_ne.mpr (hhead _ hmem).ne']
      exact ih htail hmem

theorem assembledInOrder_of_assemble {deltas : List ToolCallDelta} {calls : List ToolCall}
    (h : assemble deltas = .ok calls) :
    AssembledInOrder deltas calls ∧ (calls.map ToolCall.id).Nodup ∧
      ∀ call ∈ calls, call.id ≠ [] := by
  obtain ⟨acc, hrun, hfinal⟩ := bind_eq_ok.mp h
  have hacc := ToolCallAccumulator.collected_of_run hrun
  obtain ⟨hforall, hnodup, -⟩ := ToolCallAccumulator.finalizeFrom_ok hfinal
  obtain ⟨hlength, hzip⟩ := List.forall₂_iff_zip.mp hforall
  have hassembled : ∀ {e call}, (e, call) ∈ acc.calls.zip calls →
      IsAssembled deltas e.1 call := by
    intro e call hmem
    obtain ⟨id, name, hid, hname, rfl⟩ := hzip hmem
    have hlookup := lookup_of_mem_sorted hacc.sorted (List.of_mem_zip hmem).1
    have hslot : acc.slot e.1 = e.2 := by rw [ToolCallAccumulator.slot, hlookup]; rfl
    have hfield := hacc.id e.1
    have hfield' := hacc.name e.1
    have harguments := hacc.arguments e.1
    rw [hslot] at hfield hfield' harguments
    rw [hid] at hfield
    rw [hname] at hfield'
    exact ⟨id, name, hfield, hfield', by rw [harguments]⟩
  constructor
  · refine ⟨acc.calls.map Prod.fst, List.pairwise_map.mpr hacc.sorted, fun k => ?_, ?_⟩
    · have hknown := not_congr (hacc.known k)
      push Not at hknown
      rw [← hknown]
      constructor
      · intro hk hnone
        obtain ⟨⟨i, call⟩, hmem, rfl⟩ := List.mem_map.mp hk
        rw [lookup_of_mem_sorted hacc.sorted hmem] at hnone
        cases hnone
      · intro hk
        obtain ⟨call, hcall⟩ := Option.ne_none_iff_exists'.mp hk
        obtain ⟨l₁, l₂, hl, -⟩ := List.lookup_eq_some_iff.mp hcall
        exact List.mem_map.mpr ⟨(k, call), hl ▸ List.mem_append_right _ List.mem_cons_self, rfl⟩
    · exact List.forall₂_map_left_iff.mpr (List.forall₂_iff_zip.mpr ⟨hlength, hassembled⟩)
  · refine ⟨hnodup, fun call hcall => ?_⟩
    obtain ⟨n, hn, rfl⟩ := List.mem_iff_getElem.mp hcall
    have hcalls : n < acc.calls.length := hlength ▸ hn
    have hmem : (acc.calls[n], calls[n]) ∈ acc.calls.zip calls := by
      rw [← List.getElem_zip (h := by simp [hlength, hn])]
      exact List.getElem_mem _
    obtain ⟨id, name, hid, -, hcalleq⟩ := hassembled hmem
    rw [hcalleq]
    exact hid.1

/-- Native tool-call assembly does not depend on how the deltas of different calls are
interleaved, it yields one call per index with its own fields and fragments, and every accepted
prefix is within the boundaries of the turn. -/
theorem assemble_interleaved {xs ys : List ToolCallDelta}
    (h : SameByKey ToolCallDelta.index xs ys) :
    (∀ calls, assemble xs = .ok calls ↔ assemble ys = .ok calls) ∧
      (∀ calls, assemble xs = .ok calls → AssembledInOrder xs calls ∧
        (calls.map ToolCall.id).Nodup ∧ ∀ call ∈ calls, call.id ≠ []) ∧
      ∀ seen acc, seen <+: xs → seen.foldlM ToolCallAccumulator.push {} = .ok acc →
        acc.WithinBounds := by
  constructor
  · intro calls
    simp only [assemble, bind_eq_ok,
      ToolCallAccumulator.push_commutes.foldlM_ok_iff h ToolCallAccumulator.Sorted.init]
  · exact ⟨fun calls hcalls => assembledInOrder_of_assemble hcalls,
      fun seen acc _ hrun => (ToolCallAccumulator.collected_of_run hrun).bounds⟩

theorem assemble_interleaved_two_calls :
    let read : ToolCallDelta := ⟨0, some "a".toList, some "read_file".toList, some "\x7b".toList⟩
    let write : ToolCallDelta := ⟨1, some "b".toList, some "write_file".toList, none⟩
    let close : ToolCallDelta := ⟨0, none, none, some "\x7d".toList⟩
    (assemble [read, close, write] = .ok [
        ToolCall.ofFunction "a".toList "read_file".toList "\x7b\x7d".toList,
        ToolCall.ofFunction "b".toList "write_file".toList []] ↔
      assemble [read, write, close] = .ok [
        ToolCall.ofFunction "a".toList "read_file".toList "\x7b\x7d".toList,
        ToolCall.ofFunction "b".toList "write_file".toList []]) ∧
      assemble [read, write, close] = .ok [
        ToolCall.ofFunction "a".toList "read_file".toList "\x7b\x7d".toList,
        ToolCall.ofFunction "b".toList "write_file".toList []] := by
  intro read write close
  constructor
  · apply (assemble_interleaved _).1
    intro k
    by_cases h0 : (0 : ℕ) = k
    · subst h0
      rfl
    · simp [read, write, close, List.filter_cons, h0]
  · decide +kernel

end DeepseekScience.Agent
