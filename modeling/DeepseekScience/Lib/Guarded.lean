import Mathlib.Tactic

/-! Calls behind a lock. A call that passes its checks waits for the lock, reserves at a guard,
acts step by step, lets the guard observe its end, and gives the lock back; it can be dropped at
any point. Every interleaving of such calls is a series of sections that do not overlap. -/
namespace Guarded

variable {G A R E O T : Type}

/-- A guard, and the calls it is asked by: what their arguments ask for, how the guard takes it,
and what a call that it lets in may do and end with. -/
structure Machine (G A R E O T : Type) where
  init : G
  admits : A → R → Prop
  reserve : G → R → Except E Unit × G
  invokes : R → List O → T → Prop
  observe : G → T → G

inductive Event (R O T : Type) where
  | reserved (request : R)
  | sent (op : O)
  | observed (result : T)

structure State (G R O T : Type) where
  guard : G
  waiting : List R := []
  /-- What the call that holds the lock still has to send, and its result. -/
  holder : Option (List O × T) := none
  log : List (Event R O T) := []

variable (m : Machine G A R E O T)

def Machine.start : State G R O T where
  guard := m.init

/-- One step of one of the calls. -/
inductive Step : State G R O T → State G R O T → Prop
  | reject {s : State G R O T} (args : A) (rejected : ∀ request, ¬ m.admits args request) : Step s s
  | arrive {s : State G R O T} (args : A) (request : R) (admitted : m.admits args request) :
    Step s { s with waiting := s.waiting ++ [request] }
  | leave {s : State G R O T} {front back : List R} {request : R}
    (waits : s.waiting = front ++ request :: back) : Step s { s with waiting := front ++ back }
  | refuse {s : State G R O T} {front back : List R} {request : R} {error : E} {guard : G}
    (free : s.holder = none) (waits : s.waiting = front ++ request :: back)
    (refused : m.reserve s.guard request = (.error error, guard)) :
    Step s { s with guard := guard, waiting := front ++ back }
  | acquire {s : State G R O T} {front back : List R} {request : R} {guard : G} {ops : List O}
    {result : T} (free : s.holder = none) (waits : s.waiting = front ++ request :: back)
    (accepted : m.reserve s.guard request = (.ok (), guard))
    (invoked : m.invokes request ops result) :
    Step s { guard := guard, waiting := front ++ back, holder := some (ops, result),
             log := s.log ++ [.reserved request] }
  | send {s : State G R O T} {op : O} {ops : List O} {result : T}
    (holds : s.holder = some (op :: ops, result)) :
    Step s { s with holder := some (ops, result), log := s.log ++ [.sent op] }
  | finish {s : State G R O T} {result : T} (holds : s.holder = some ([], result)) :
    Step s { s with guard := m.observe s.guard result, holder := none,
                    log := s.log ++ [.observed result] }
  | drop {s : State G R O T} : Step s { s with holder := none }

def Reachable (s : State G R O T) : Prop := Relation.ReflTransGen (Step m) m.start s

/-- What a section writes, as far as it came. -/
def sectionLog (request : R) (sent : List O) : List (Event R O T) :=
  .reserved request :: sent.map .sent

/-- Sections one behind the other: the guard and what was written. -/
inductive Serial : G → List (Event R O T) → Prop
  | nil : Serial m.init []
  | refused {guard guard' : G} {log : List (Event R O T)} {args : A} {request : R} {error : E}
    (serial : Serial guard log) (admitted : m.admits args request)
    (refused : m.reserve guard request = (.error error, guard')) : Serial guard' log
  | dropped {guard guard' : G} {log : List (Event R O T)} {args : A} {request : R}
    {sent left : List O} {result : T} (serial : Serial guard log)
    (admitted : m.admits args request) (accepted : m.reserve guard request = (.ok (), guard'))
    (invoked : m.invokes request (sent ++ left) result) :
    Serial guard' (log ++ sectionLog request sent)
  | completed {guard guard' : G} {log : List (Event R O T)} {args : A} {request : R}
    {sent : List O} {result : T} (serial : Serial guard log) (admitted : m.admits args request)
    (accepted : m.reserve guard request = (.ok (), guard'))
    (invoked : m.invokes request sent result) :
    Serial (m.observe guard' result) (log ++ sectionLog request sent ++ [.observed result])

/-- The section that is under way, behind those that are over. -/
def Underway (s : State G R O T) : Prop :=
  match s.holder with
  | none => Serial m s.guard s.log
  | some (left, result) => ∃ guard log args request sent, Serial m guard log ∧
      m.admits args request ∧ m.reserve guard request = (.ok (), s.guard) ∧
      m.invokes request (sent ++ left) result ∧ s.log = log ++ sectionLog request sent

variable {m} {s s' : State G R O T}

/-- A call that holds the lock can be dropped. -/
theorem Underway.serial (h : Underway m s) : Serial m s.guard s.log := by
  rw [Underway] at h
  split at h
  · exact h
  · obtain ⟨guard, log, args, request, sent, hserial, hadmitted, haccepted, hinvoked, hlog⟩ := h
    rw [hlog]
    exact .dropped hserial hadmitted haccepted hinvoked

/-- The requests that wait have been admitted. -/
def Admitted (m : Machine G A R E O T) (s : State G R O T) : Prop :=
  ∀ request ∈ s.waiting, ∃ args, m.admits args request

theorem Admitted.of_waits (h : Admitted m s) {front back : List R} {request : R}
    (waits : s.waiting = front ++ request :: back) : ∃ args, m.admits args request :=
  h request (by simp [waits])

theorem Step.admitted (hstep : Step m s s') (h : Admitted m s) : Admitted m s' := by
  cases hstep with
  | reject args rejected => exact h
  | arrive args request admitted =>
    intro r hr
    obtain hr | hr := List.mem_append.mp hr
    · exact h r hr
    · rw [List.mem_singleton.mp hr]
      exact ⟨args, admitted⟩
  | leave waits => exact fun r hr => h r (by rw [waits]; grind)
  | refuse free waits refused => exact fun r hr => h r (by rw [waits]; grind)
  | acquire free waits accepted invoked => exact fun r hr => h r (by rw [waits]; grind)
  | send holds => exact h
  | finish holds => exact h
  | drop => exact h

theorem Step.underway (hstep : Step m s s') (hadmitted : Admitted m s) (h : Underway m s) :
    Underway m s' := by
  cases hstep with
  | reject args rejected => exact h
  | arrive args request admitted => exact h
  | leave waits => exact h
  | refuse free waits refused =>
    rw [Underway, free] at h
    obtain ⟨args, hargs⟩ := hadmitted.of_waits waits
    rw [Underway]
    simp only [free]
    exact .refused h hargs refused
  | acquire free waits accepted invoked =>
    rw [Underway, free] at h
    obtain ⟨args, hargs⟩ := hadmitted.of_waits waits
    exact ⟨s.guard, s.log, args, _, [], h, hargs, accepted, invoked, rfl⟩
  | @send op ops result holds =>
    rw [Underway, holds] at h
    obtain ⟨guard, log, args, request, sent, hserial, hargs, haccepted, hinvoked, hlog⟩ := h
    refine ⟨guard, log, args, request, sent ++ [op], hserial, hargs, haccepted, ?_, ?_⟩
    · rw [List.append_assoc]
      exact hinvoked
    · rw [hlog, sectionLog, sectionLog]
      simp
  | finish holds =>
    rw [Underway, holds] at h
    obtain ⟨guard, log, args, request, sent, hserial, hargs, haccepted, hinvoked, hlog⟩ := h
    rw [List.append_nil] at hinvoked
    rw [Underway]
    simp only [hlog]
    exact .completed hserial hargs haccepted hinvoked
  | drop => exact h.serial

/-- Whatever the calls do, the log is that of sections that do not overlap. -/
theorem Reachable.serial (h : Reachable m s) : Serial m s.guard s.log := by
  have hboth : Admitted m s ∧ Underway m s := by
    induction h with
    | refl => exact ⟨fun r hr => absurd hr (by simp [Machine.start]), .nil⟩
    | tail hrun hstep ih => exact ⟨hstep.admitted ih.1, hstep.underway ih.1 ih.2⟩
  exact hboth.2.serial

section
/-! Every series of sections is one of the runs. -/

variable {guard guard' : G} {log : List (Event R O T)} {args : A} {request : R} {result : T}

/-- The state between two sections. -/
def between (guard : G) (log : List (Event R O T)) : State G R O T where
  guard := guard
  log := log

theorem sends_reachable {sent left : List O}
    (h : Reachable m { guard := guard, holder := some (sent ++ left, result), log := log }) :
    Reachable m { guard := guard, holder := some (left, result), log := log ++ sent.map .sent } := by
  induction sent generalizing log with
  | nil => simpa using h
  | cons op sent ih =>
    have hnext := ih (h.tail (.send rfl))
    simpa using hnext

/-- A request that is let in sends what it has to send, as far as one likes. -/
theorem section_reachable {sent left : List O} (h : Reachable m (between guard log))
    (hadmitted : m.admits args request) (haccepted : m.reserve guard request = (.ok (), guard'))
    (hinvoked : m.invokes request (sent ++ left) result) :
    Reachable m { guard := guard', holder := some (left, result),
                  log := log ++ sectionLog request sent } := by
  have hwaits := h.tail (.arrive args request hadmitted)
  have hholds := hwaits.tail (.acquire rfl (show _ = [] ++ request :: [] from rfl)
    haccepted hinvoked)
  have hsent := sends_reachable hholds
  simpa [between, sectionLog] using hsent

theorem Serial.reachable (h : Serial m guard log) : Reachable m (between guard log) := by
  induction h with
  | nil => exact Relation.ReflTransGen.refl
  | @refused guard guard' log args request error serial admitted refused ih =>
    have hwaits := ih.tail (.arrive args request admitted)
    exact hwaits.tail (.refuse rfl (show _ = [] ++ request :: [] from rfl) refused)
  | dropped serial admitted accepted invoked ih =>
    exact (section_reachable ih admitted accepted invoked).tail .drop
  | @completed guard guard' log args request sent result serial admitted accepted invoked ih =>
    have hinvoked : m.invokes request (sent ++ []) result := by simpa using invoked
    exact (section_reachable ih admitted accepted hinvoked).tail (.finish rfl)

end

theorem reserved_mem_section {request request' : R} {sent : List O} :
    (.reserved request : Event R O T) ∈ sectionLog request' sent ↔ request = request' := by
  simp [sectionLog]

/-- What was reserved has been asked for with arguments that pass their checks. -/
theorem Serial.admitted {guard : G} {log : List (Event R O T)} (h : Serial m guard log)
    {request : R} (hmem : .reserved request ∈ log) : ∃ args, m.admits args request := by
  induction h with
  | nil => simp at hmem
  | refused serial admitted refused ih => exact ih hmem
  | dropped serial admitted accepted invoked ih =>
    obtain hmem | hmem := List.mem_append.mp hmem
    · exact ih hmem
    · rw [reserved_mem_section.mp hmem]
      exact ⟨_, admitted⟩
  | completed serial admitted accepted invoked ih =>
    rw [List.append_assoc] at hmem
    obtain hmem | hmem := List.mem_append.mp hmem
    · exact ih hmem
    · obtain hmem | hmem := List.mem_append.mp hmem
      · rw [reserved_mem_section.mp hmem]
        exact ⟨_, admitted⟩
      · simp at hmem

/-- The entry and what was written before it, for every entry of a log. -/
def Along (P : List (Event R O T) → Event R O T → Prop) (log : List (Event R O T)) : Prop :=
  ∀ front event back, log = front ++ event :: back → P front event

variable {P Q : List (Event R O T) → Event R O T → Prop} {log log' : List (Event R O T)}

theorem along_nil : Along P ([] : List (Event R O T)) := by
  intro front event back h
  simp at h

theorem along_append : Along P (log ++ log') ↔
    Along P log ∧ Along (fun front event => P (log ++ front) event) log' := by
  constructor
  · intro h
    constructor
    · intro front event back hlog
      exact h front event (back ++ log') (by simp [hlog])
    · intro front event back hlog
      exact h (log ++ front) event back (by simp [hlog])
  · rintro ⟨hlog, hlog'⟩ front event back h
    obtain ⟨rest, hfront, hrest⟩ | ⟨rest, hfront, hrest⟩ := List.append_eq_append_iff.mp h
    · rw [hfront]
      exact hlog' rest event back hrest
    · cases rest with
      | nil =>
        rw [List.append_nil] at hfront
        subst hfront
        simpa using hlog' [] event back (by simpa using hrest.symm)
      | cons first rest =>
        obtain ⟨rfl, hrest⟩ := List.cons.inj hrest
        exact hlog front event rest hfront

theorem along_cons (event : Event R O T) : Along P (event :: log) ↔
    P [] event ∧ Along (fun front e => P (event :: front) e) log := by
  rw [← List.singleton_append, along_append]
  constructor
  · exact fun ⟨hfirst, hrest⟩ => ⟨hfirst [] event [] rfl, hrest⟩
  · rintro ⟨hfirst, hrest⟩
    refine ⟨fun front e back he => ?_, hrest⟩
    cases front with
    | nil =>
      obtain ⟨rfl, -⟩ := List.cons.inj he
      exact hfirst
    | cons first front => simp at he

theorem Along.imp (h : ∀ front event, P front event → Q front event) (hlog : Along P log) :
    Along Q log := fun front event back hsplit => h front event (hlog front event back hsplit)

end Guarded
