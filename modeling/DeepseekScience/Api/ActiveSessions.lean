import DeepseekScience.Text
import DeepseekScience.Lib.Runs

/-! The active sessions in memory: handlers find the one of their session through a map, which is
filled from the database when it has none, and a run holds the mutex of its own. -/
namespace DeepseekScience.Api

section
/-! The requests and the store. -/

/-- The handlers that restore their session first. -/
inductive Handler where
  | getSession
  | approvePlan
  | streamSse
  | deleteSession
  deriving DecidableEq

/-- Where a request is between two of its awaits; `away` before it comes and when it has ended. An
active session is named by a number, and a run goes on when its request has been answered. -/
inductive Phase where
  | away
  | arrived (handler : Handler) (sid : Text)
  | missed (handler : Handler) (sid : Text)
  | restoring (handler : Handler) (sid : Text)
  | cold (handler : Handler) (sid : Text)
  | loaded (handler : Handler) (sid : Text)
  | holding (handler : Handler) (sid : Text) (active : ℕ)
  | locked (handler : Handler) (sid : Text) (active : ℕ)
  | running (sid : Text) (active : ℕ)
  | rowDeleted (sid : Text) (active : ℕ)
  | creating (sid : Text)
  | rowCreated (sid : Text)
  deriving DecidableEq

/-- `AppState`, as far as sessions are found through it, and the requests that are under way. -/
structure SessionStore where
  sessions : List (Text × ℕ) := []
  rows : List Text := []
  restoreLock : Option ℕ := none
  mutexes : ℕ → Option ℕ := fun _ => none
  nextActive : ℕ := 0
  requests : ℕ → Phase := fun _ => .away

def maxActiveSessions : ℕ := 10

namespace SessionStore

def become (s : SessionStore) (r : ℕ) (phase : Phase) : SessionStore :=
  { s with requests := Function.update s.requests r phase }

def removeEntry (s : SessionStore) (sid : Text) : SessionStore :=
  { s with sessions := s.sessions.filter fun entry => entry.1 ≠ sid }

/-- A new active session for the id, which replaces the one that the map has. -/
def addEntry (s : SessionStore) (sid : Text) : SessionStore :=
  { s with sessions := (sid, s.nextActive) :: s.sessions.filter fun entry => entry.1 ≠ sid
           nextActive := s.nextActive + 1 }

def addRow (s : SessionStore) (sid : Text) : SessionStore := { s with rows := sid :: s.rows }

def deleteRow (s : SessionStore) (sid : Text) : SessionStore :=
  { s with rows := s.rows.filter fun row => row ≠ sid }

def freeRestore (s : SessionStore) : SessionStore := { s with restoreLock := none }

/-- A request or a run ends, or is dropped: its guards are dropped with it. -/
def leave (s : SessionStore) (r : ℕ) : SessionStore :=
  { s with restoreLock := if s.restoreLock = some r then none else s.restoreLock
           mutexes := fun active => if s.mutexes active = some r then none else s.mutexes active
           requests := Function.update s.requests r .away }

/-- `first` is the first key in the order of the map. -/
def evict (s : SessionStore) (sid first : Text) : SessionStore :=
  if maxActiveSessions < s.sessions.length ∧ first ≠ sid then s.removeEntry first else s

def lock (s : SessionStore) (r : ℕ) (handler : Handler) (sid : Text) (active : ℕ) : SessionStore :=
  { s with mutexes := Function.update s.mutexes active (some r) }.become r
    (.locked handler sid active)

/-- The request goes on to its next await. -/
def advance (s : SessionStore) (r : ℕ) (first : Text) : SessionStore :=
  match s.requests r with
  | .away => s
  | .arrived handler sid =>
    match s.sessions.lookup sid with
    | some active => s.become r (.holding handler sid active)
    | none => s.become r (.missed handler sid)
  | .missed handler sid =>
    if s.restoreLock = none then
      { s with restoreLock := some r }.become r (.restoring handler sid)
    else s
  | .restoring handler sid =>
    match s.sessions.lookup sid with
    | some active => s.freeRestore.become r (.holding handler sid active)
    | none => s.become r (.cold handler sid)
  | .cold handler sid => if sid ∈ s.rows then s.become r (.loaded handler sid) else s.leave r
  | .loaded handler sid =>
    ((s.addEntry sid).evict sid first).freeRestore.become r (.holding handler sid s.nextActive)
  | .holding handler sid active =>
    if s.mutexes active = none then s.lock r handler sid active
    else
      match handler with
      | .getSession | .approvePlan => s
      | .streamSse | .deleteSession => s.leave r
  | .locked handler sid active =>
    match handler with
    | .getSession | .approvePlan => s.leave r
    | .streamSse => s.become r (.running sid active)
    | .deleteSession => (s.deleteRow sid).become r (.rowDeleted sid active)
  | .running _ _ => s.leave r
  | .rowDeleted sid _ => (s.removeEntry sid).leave r
  | .creating sid => if sid ∈ s.rows then s.leave r else (s.addRow sid).become r (.rowCreated sid)
  | .rowCreated sid => (s.addEntry sid).leave r

end SessionStore

/-- One event: a request comes, goes on, or ends with an error, in a rejection or unanswered. The
new id of `create` is drawn by the handler. -/
inductive StoreEvent where
  | arrive (r : ℕ) (handler : Handler) (sid : Text)
  | create (r : ℕ) (sid : Text)
  | advance (r : ℕ) (first : Text)
  | leave (r : ℕ)

def SessionStore.step (s : SessionStore) : StoreEvent → SessionStore
  | .arrive r handler sid => if s.requests r = .away then s.become r (.arrived handler sid) else s
  | .create r sid => if s.requests r = .away then s.become r (.creating sid) else s
  | .advance r first => s.advance r first
  | .leave r => s.leave r

end

section
/-! What a phase says. -/

namespace Phase

/-- The active session that a request or a run operates on. -/
def uses : Phase → Option (Text × ℕ)
  | .holding _ sid active => some (sid, active)
  | .locked _ sid active => some (sid, active)
  | .running sid active => some (sid, active)
  | .rowDeleted sid active => some (sid, active)
  | _ => none

/-- The active session whose mutex is held. -/
def locks : Phase → Option ℕ
  | .locked _ _ active => some active
  | .running _ active => some active
  | .rowDeleted _ active => some active
  | _ => none

/-- The restore lock is held. -/
def restores : Phase → Bool
  | .restoring _ _ => true
  | .cold _ _ => true
  | .loaded _ _ => true
  | _ => false

/-- The session that is restored, behind the second look at the map. -/
def loads : Phase → Option Text
  | .cold _ sid => some sid
  | .loaded _ sid => some sid
  | _ => none

/-- The session whose row was found. -/
def readsRow : Phase → Option Text
  | .loaded _ sid => some sid
  | _ => none

/-- The session whose row was deleted. -/
def deletes : Phase → Option Text
  | .rowDeleted sid _ => some sid
  | _ => none

variable {phase : Phase} {sid : Text}

theorem restores_of_loads (h : phase.loads = some sid) : phase.restores = true := by
  cases phase <;> simp_all [loads, restores]

theorem loads_of_readsRow (h : phase.readsRow = some sid) : phase.loads = some sid := by
  cases phase <;> simp_all [readsRow, loads]

theorem uses_of_deletes (h : phase.deletes = some sid) :
    ∃ active, phase.uses = some (sid, active) := by
  cases phase <;> simp_all [deletes, uses]

end Phase

/-- Some request or run operates on an active session of the id. -/
def SessionStore.InUse (s : SessionStore) (sid : Text) : Prop :=
  ∃ r active, (s.requests r).uses = some (sid, active)

def SessionStore.InRestore (s : SessionStore) (sid : Text) : Prop :=
  ∃ r, (s.requests r).loads = some sid

/-- At most one run of a session is under way, and whoever operates on the session then has the
active session of the run. -/
structure OneRun (s : SessionStore) : Prop where
  exclusive : ∀ r r' sid active active', s.requests r = .running sid active →
    s.requests r' = .running sid active' → r = r'
  shared : ∀ r r' sid active active', s.requests r = .running sid active →
    (s.requests r').uses = some (sid, active') → active' = active

/-- A restore evicts no session that is in use, and a new session gets its row and its entry
before its id is used. -/
def Careful (s : SessionStore) : StoreEvent → Prop
  | .advance r first =>
    match s.requests r with
    | .loaded _ sid =>
      maxActiveSessions < (s.addEntry sid).sessions.length → first ≠ sid → ¬ s.InUse first
    | .creating sid => ¬ s.InUse sid
    | .rowCreated sid => ¬ s.InUse sid ∧ ¬ s.InRestore sid
    | _ => True
  | _ => True

end

section
/-! What careful steps keep. -/

variable {s s' : SessionStore} {r : ℕ} {sid : Text} {phase : Phase}

/-- Locks are held by one request at a time, and an active session that is in use is the only one
of its id that can be found. -/
structure Sound (s : SessionStore) : Prop where
  lockHeld : ∀ r active, (s.requests r).locks = some active → s.mutexes active = some r
  restoreHeld : ∀ r, (s.requests r).restores = true → s.restoreLock = some r
  same : ∀ r r' sid active active', (s.requests r).uses = some (sid, active) →
    (s.requests r').uses = some (sid, active') → active = active'
  mapped : ∀ r sid active active', (s.requests r).uses = some (sid, active) →
    s.sessions.lookup sid = some active' → active = active'
  gone : ∀ r sid active, (s.requests r).uses = some (sid, active) →
    s.sessions.lookup sid = none → sid ∉ s.rows
  missing : ∀ r sid, (s.requests r).loads = some sid → s.sessions.lookup sid = none
  alone : ∀ r sid, (s.requests r).readsRow = some sid → ¬ s.InUse sid
  deleted : ∀ r sid, (s.requests r).deletes = some sid → sid ∉ s.rows

theorem Sound.oneRun (h : Sound s) : OneRun s := by
  constructor
  · intro r r' sid active active' hr hr'
    have hsame := h.same r r' sid active active' (by rw [hr]; rfl) (by rw [hr']; rfl)
    have hlock := h.lockHeld r active (by rw [hr]; rfl)
    have hlock' := h.lockHeld r' active' (by rw [hr']; rfl)
    rw [hsame, hlock'] at hlock
    exact (Option.some.inj hlock).symm
  · intro r r' sid active active' hr hr'
    exact h.same r' r sid active' active hr' (by rw [hr]; rfl)

theorem lookup_filter_ne (entries : List (Text × ℕ)) (sid key : Text) :
    (entries.filter fun entry => entry.1 ≠ sid).lookup key =
      if key = sid then none else entries.lookup key := by
  induction entries with
  | nil => simp
  | cons entry entries ih =>
    obtain ⟨id, active⟩ := entry
    by_cases hid : id = sid
    · subst hid
      rw [List.filter_cons_of_neg (by simp), ih]
      split_ifs with hkey
      · rfl
      · rw [List.lookup_cons, beq_eq_false_iff_ne.mpr hkey]
    · rw [List.filter_cons_of_pos (by simpa using hid), List.lookup_cons, List.lookup_cons, ih]
      by_cases hkey : key = id
      · subst hkey
        simp [hid]
      · simp [beq_eq_false_iff_ne.mpr hkey]

/-- One request moves; the map and the rows stay. -/
structure Moves (s s' : SessionStore) (r : ℕ) (phase : Phase) : Prop where
  sessions : s'.sessions = s.sessions
  rows : s'.rows = s.rows
  requests : s'.requests = Function.update s.requests r phase
  locks : ∀ active, phase.locks = some active → s'.mutexes active = some r
  mutexes : ∀ r' active, r' ≠ r → s.mutexes active = some r' → s'.mutexes active = some r'
  restores : phase.restores = true → s'.restoreLock = some r
  restoreLock : ∀ r', r' ≠ r → s.restoreLock = some r' → s'.restoreLock = some r'

theorem Moves.requests_self (h : Moves s s' r phase) : s'.requests r = phase := by
  rw [h.requests, Function.update_self]

theorem Moves.requests_ne (h : Moves s s' r phase) {r' : ℕ} (hne : r' ≠ r) :
    s'.requests r' = s.requests r' := by
  rw [h.requests, Function.update_of_ne hne]

/-- A request keeps what it uses, gives it up, or has taken it from the map. -/
def Phase.UsesFrom (s : SessionStore) (r : ℕ) (phase : Phase) : Prop :=
  ∀ sid active, phase.uses = some (sid, active) →
    (s.requests r).uses = some (sid, active) ∨ s.sessions.lookup sid = some active

theorem Moves.inUse (h : Moves s s' r phase) (huses : phase.UsesFrom s r) (huse : s'.InUse sid) :
    s.InUse sid ∨ ∃ active, s.sessions.lookup sid = some active := by
  obtain ⟨r', active, hr'⟩ := huse
  by_cases hne : r' = r
  · subst hne
    rw [h.requests_self] at hr'
    obtain hold | hmap := huses sid active hr'
    · exact Or.inl ⟨r', active, hold⟩
    · exact Or.inr ⟨active, hmap⟩
  · rw [h.requests_ne hne] at hr'
    exact Or.inl ⟨r', active, hr'⟩

/-- Whatever a request uses after a move, it or the map had before. -/
theorem Moves.uses (h : Moves s s' r phase) (huses : phase.UsesFrom s r) {r' active : ℕ}
    (hr' : (s'.requests r').uses = some (sid, active)) :
    (s.requests r').uses = some (sid, active) ∨ s.sessions.lookup sid = some active := by
  by_cases hne : r' = r
  · subst hne
    rw [h.requests_self] at hr'
    exact huses sid active hr'
  · rw [h.requests_ne hne] at hr'
    exact Or.inl hr'

theorem Sound.moves (h : Sound s) (hmoves : Moves s s' r phase) (huses : phase.UsesFrom s r)
    (hloads : ∀ sid, phase.loads = some sid → s.sessions.lookup sid = none)
    (hreads : ∀ sid, phase.readsRow = some sid → ¬ s.InUse sid)
    (hdeletes : ∀ sid, phase.deletes = some sid → sid ∉ s.rows) : Sound s' := by
  constructor
  · intro r' active hr'
    by_cases hne : r' = r
    · subst hne
      rw [hmoves.requests_self] at hr'
      exact hmoves.locks active hr'
    · rw [hmoves.requests_ne hne] at hr'
      exact hmoves.mutexes r' active hne (h.lockHeld r' active hr')
  · intro r' hr'
    by_cases hne : r' = r
    · subst hne
      rw [hmoves.requests_self] at hr'
      exact hmoves.restores hr'
    · rw [hmoves.requests_ne hne] at hr'
      exact hmoves.restoreLock r' hne (h.restoreHeld r' hr')
  · intro r₁ r₂ sid active₁ active₂ h₁ h₂
    obtain h₁ | h₁ := hmoves.uses huses h₁
    · obtain h₂ | h₂ := hmoves.uses huses h₂
      · exact h.same r₁ r₂ sid active₁ active₂ h₁ h₂
      · exact h.mapped r₁ sid active₁ active₂ h₁ h₂
    · obtain h₂ | h₂ := hmoves.uses huses h₂
      · exact (h.mapped r₂ sid active₂ active₁ h₂ h₁).symm
      · rw [h₁] at h₂
        exact Option.some.inj h₂
  · intro r' sid active active' hr' hmap
    rw [hmoves.sessions] at hmap
    obtain hr' | hr' := hmoves.uses huses hr'
    · exact h.mapped r' sid active active' hr' hmap
    · rw [hr'] at hmap
      exact Option.some.inj hmap
  · intro r' sid active hr' hmap
    rw [hmoves.sessions] at hmap
    rw [hmoves.rows]
    obtain hr' | hr' := hmoves.uses huses hr'
    · exact h.gone r' sid active hr' hmap
    · rw [hr'] at hmap
      cases hmap
  · intro r' sid hr'
    rw [hmoves.sessions]
    by_cases hne : r' = r
    · subst hne
      rw [hmoves.requests_self] at hr'
      exact hloads sid hr'
    · rw [hmoves.requests_ne hne] at hr'
      exact h.missing r' sid hr'
  · intro r' sid hr' huse
    have hold : s.sessions.lookup sid = none ∧ ¬ s.InUse sid := by
      by_cases hne : r' = r
      · subst hne
        rw [hmoves.requests_self] at hr'
        exact ⟨hloads sid (Phase.loads_of_readsRow hr'), hreads sid hr'⟩
      · rw [hmoves.requests_ne hne] at hr'
        exact ⟨h.missing r' sid (Phase.loads_of_readsRow hr'), h.alone r' sid hr'⟩
    obtain huse | ⟨active, hmap⟩ := hmoves.inUse huses huse
    · exact hold.2 huse
    · rw [hold.1] at hmap
      cases hmap
  · intro r' sid hr'
    rw [hmoves.rows]
    by_cases hne : r' = r
    · subst hne
      rw [hmoves.requests_self] at hr'
      exact hdeletes sid hr'
    · rw [hmoves.requests_ne hne] at hr'
      exact h.deleted r' sid hr'

theorem Sound.removeEntry (h : Sound s) (hrow : s.InUse sid → sid ∉ s.rows) :
    Sound (s.removeEntry sid) := by
  constructor
  · exact h.lockHeld
  · exact h.restoreHeld
  · exact h.same
  · intro r key active active' hr hmap
    rw [SessionStore.removeEntry, lookup_filter_ne] at hmap
    split_ifs at hmap with hkey
    exact h.mapped r key active active' hr hmap
  · intro r key active hr hmap
    rw [SessionStore.removeEntry, lookup_filter_ne] at hmap
    split_ifs at hmap with hkey
    · subst hkey
      exact hrow ⟨r, active, hr⟩
    · exact h.gone r key active hr hmap
  · intro r key hr
    rw [SessionStore.removeEntry, lookup_filter_ne, h.missing r key hr]
    split_ifs <;> rfl
  · exact h.alone
  · exact h.deleted

theorem Sound.addEntry (h : Sound s) (huse : ¬ s.InUse sid) (hrestore : ¬ s.InRestore sid) :
    Sound (s.addEntry sid) := by
  have hlookup : ∀ key, key ≠ sid →
      (s.addEntry sid).sessions.lookup key = s.sessions.lookup key := by
    intro key hkey
    rw [SessionStore.addEntry, List.lookup_cons, beq_eq_false_iff_ne.mpr hkey, lookup_filter_ne,
      if_neg hkey]
  constructor
  · exact h.lockHeld
  · exact h.restoreHeld
  · exact h.same
  · intro r key active active' hr hmap
    have hkey : key ≠ sid := by
      rintro rfl
      exact huse ⟨r, active, hr⟩
    rw [hlookup key hkey] at hmap
    exact h.mapped r key active active' hr hmap
  · intro r key active hr hmap
    have hkey : key ≠ sid := by
      rintro rfl
      exact huse ⟨r, active, hr⟩
    rw [hlookup key hkey] at hmap
    exact h.gone r key active hr hmap
  · intro r key hr
    have hkey : key ≠ sid := by
      rintro rfl
      exact hrestore ⟨r, hr⟩
    rw [hlookup key hkey]
    exact h.missing r key hr
  · exact h.alone
  · exact h.deleted

theorem Sound.addRow (h : Sound s) (huse : ¬ s.InUse sid) : Sound (s.addRow sid) := by
  constructor
  · exact h.lockHeld
  · exact h.restoreHeld
  · exact h.same
  · exact h.mapped
  · intro r key active hr hmap
    have hkey : key ≠ sid := by
      rintro rfl
      exact huse ⟨r, active, hr⟩
    rw [SessionStore.addRow, List.mem_cons, not_or]
    exact ⟨hkey, h.gone r key active hr hmap⟩
  · exact h.missing
  · exact h.alone
  · intro r key hr
    have hkey : key ≠ sid := by
      rintro rfl
      obtain ⟨active, hactive⟩ := Phase.uses_of_deletes hr
      exact huse ⟨r, active, hactive⟩
    rw [SessionStore.addRow, List.mem_cons, not_or]
    exact ⟨hkey, h.deleted r key hr⟩

theorem Sound.deleteRow (h : Sound s) (sid : Text) : Sound (s.deleteRow sid) := by
  constructor
  · exact h.lockHeld
  · exact h.restoreHeld
  · exact h.same
  · exact h.mapped
  · intro r key active hr hmap hmem
    exact h.gone r key active hr hmap (List.mem_filter.mp hmem).1
  · exact h.missing
  · exact h.alone
  · intro r key hr hmem
    exact h.deleted r key hr (List.mem_filter.mp hmem).1

theorem moves_become (h : ∀ active, phase.locks = some active → s.mutexes active = some r)
    (hrestores : phase.restores = true → s.restoreLock = some r) :
    Moves s (s.become r phase) r phase :=
  ⟨rfl, rfl, rfl, h, fun _ _ _ => id, hrestores, fun _ _ => id⟩

theorem moves_leave (s : SessionStore) (r : ℕ) : Moves s (s.leave r) r .away where
  sessions := rfl
  rows := rfl
  requests := rfl
  locks active h := by cases h
  mutexes r' active hne h := by
    simp only [SessionStore.leave]
    rw [if_neg (by rw [h]; simpa using hne), h]
  restores h := by cases h
  restoreLock r' hne h := by
    simp only [SessionStore.leave]
    rw [if_neg (by rw [h]; simpa using hne), h]

theorem Sound.leave (h : Sound s) (r : ℕ) : Sound (s.leave r) :=
  h.moves (moves_leave s r) (by intro sid active huse; cases huse) (by simp [Phase.loads])
    (by simp [Phase.readsRow]) (by simp [Phase.deletes])

theorem Sound.become (h : Sound s)
    (hlocks : ∀ active, phase.locks = some active → s.mutexes active = some r)
    (hrestores : phase.restores = true → s.restoreLock = some r) (huses : phase.UsesFrom s r)
    (hloads : ∀ sid, phase.loads = some sid → s.sessions.lookup sid = none)
    (hreads : ∀ sid, phase.readsRow = some sid → ¬ s.InUse sid)
    (hdeletes : ∀ sid, phase.deletes = some sid → sid ∉ s.rows) : Sound (s.become r phase) :=
  h.moves (moves_become hlocks hrestores) huses hloads hreads hdeletes

/-- A phase that says nothing of locks and active sessions. -/
theorem Sound.idle (h : Sound s) (hlocks : phase.locks = none) (hrestores : phase.restores = false)
    (huses : phase.uses = none) (hdeletes : phase.deletes = none) :
    Sound (s.become r phase) := by
  apply h.become
  · simp [hlocks]
  · simp [hrestores]
  · intro sid active huse
    rw [huses] at huse
    cases huse
  · intro sid hload
    rw [Phase.restores_of_loads hload] at hrestores
    cases hrestores
  · intro sid hread
    rw [Phase.restores_of_loads (Phase.loads_of_readsRow hread)] at hrestores
    cases hrestores
  · simp [hdeletes]

theorem moves_freeRestore (h : s.restoreLock = some r) (hlocks : phase.locks = none)
    (hrestores : phase.restores = false) : Moves s (s.freeRestore.become r phase) r phase where
  sessions := rfl
  rows := rfl
  requests := rfl
  locks active hactive := by simp [hlocks] at hactive
  mutexes _ _ _ hmutex := hmutex
  restores hphase := by simp [hrestores] at hphase
  restoreLock r' hne hlock := by
    rw [h] at hlock
    exact absurd (Option.some.inj hlock).symm hne

/-- The request takes what the map has for its session. -/
theorem Sound.found (h : Sound s) {handler : Handler} {active : ℕ}
    (hmap : s.sessions.lookup sid = some active) :
    Sound (s.become r (.holding handler sid active)) := by
  apply h.become
  · simp [Phase.locks]
  · simp [Phase.restores]
  · intro sid' active' huse
    obtain ⟨rfl, rfl⟩ : sid = sid' ∧ active = active' := by simpa [Phase.uses] using huse
    exact Or.inr hmap
  · simp [Phase.loads]
  · simp [Phase.readsRow]
  · simp [Phase.deletes]

theorem Sound.lock (h : Sound s) {handler : Handler} {active : ℕ}
    (hphase : s.requests r = .holding handler sid active) (hfree : s.mutexes active = none) :
    Sound (s.lock r handler sid active) := by
  have hmoves : Moves s (s.lock r handler sid active) r (.locked handler sid active) := by
    refine ⟨rfl, rfl, rfl, ?_, ?_, by simp [Phase.restores], fun _ _ => id⟩
    · intro active' hactive
      obtain rfl : active = active' := by simpa [Phase.locks] using hactive
      exact Function.update_self ..
    · intro r' active' _ hmutex
      have hne : active' ≠ active := by
        rintro rfl
        rw [hfree] at hmutex
        cases hmutex
      exact (Function.update_of_ne hne _ _).trans hmutex
  apply h.moves hmoves
  · intro sid' active' huse
    rw [hphase]
    exact Or.inl huse
  · simp [Phase.loads]
  · simp [Phase.readsRow]
  · simp [Phase.deletes]

theorem evict_become (s : SessionStore) (r : ℕ) (sid first : Text) (phase : Phase) :
    ((s.addEntry sid).evict sid first).freeRestore.become r phase =
      (((s.freeRestore.become r .away).addEntry sid).evict sid first).become r phase := by
  rw [SessionStore.evict, SessionStore.evict]
  have hsessions : ((s.freeRestore.become r .away).addEntry sid).sessions =
      (s.addEntry sid).sessions := rfl
  rw [hsessions]
  by_cases hfull : maxActiveSessions < (s.addEntry sid).sessions.length ∧ first ≠ sid
  · rw [if_pos hfull, if_pos hfull]
    simp [SessionStore.become, SessionStore.addEntry, SessionStore.freeRestore,
      SessionStore.removeEntry]
  · rw [if_neg hfull, if_neg hfull]
    simp [SessionStore.become, SessionStore.addEntry, SessionStore.freeRestore]

theorem lookup_addEntry (s : SessionStore) (sid : Text) :
    (s.addEntry sid).sessions.lookup sid = some s.nextActive := by
  rw [SessionStore.addEntry, List.lookup_cons, beq_self_eq_true]

/-- A restore puts its session into the map, and evicts one that nobody uses. -/
theorem Sound.restored (h : Sound s) {handler : Handler} {first : Text}
    (hphase : s.requests r = .loaded handler sid)
    (hcareful : maxActiveSessions < (s.addEntry sid).sessions.length → first ≠ sid →
      ¬ s.InUse first) :
    Sound (((s.addEntry sid).evict sid first).freeRestore.become r
      (.holding handler sid s.nextActive)) := by
  have hlock : s.restoreLock = some r := h.restoreHeld r (by rw [hphase]; rfl)
  have hunused : ¬ s.InUse sid := h.alone r sid (by rw [hphase]; rfl)
  have hmoves : Moves s (s.freeRestore.become r .away) r .away :=
    moves_freeRestore hlock rfl rfl
  have huse : ∀ key, (s.freeRestore.become r .away).InUse key → s.InUse key := by
    rintro key ⟨r', active, hr'⟩
    by_cases hne : r' = r
    · subst hne
      rw [hmoves.requests_self] at hr'
      cases hr'
    · rw [hmoves.requests_ne hne] at hr'
      exact ⟨r', active, hr'⟩
  have hfreed : Sound (s.freeRestore.become r .away) :=
    h.moves hmoves (by intro sid active huse; cases huse) (by simp [Phase.loads])
      (by simp [Phase.readsRow]) (by simp [Phase.deletes])
  have hadded : Sound ((s.freeRestore.become r .away).addEntry sid) := by
    apply hfreed.addEntry
    · exact fun hsid => hunused (huse sid hsid)
    · rintro ⟨r', hr'⟩
      by_cases hne : r' = r
      · subst hne
        rw [hmoves.requests_self] at hr'
        cases hr'
      · rw [hmoves.requests_ne hne] at hr'
        have hother := h.restoreHeld r' (Phase.restores_of_loads hr')
        rw [hlock] at hother
        exact hne (Option.some.inj hother).symm
  have hadd := lookup_addEntry (s.freeRestore.become r .away) sid
  rw [evict_become, SessionStore.evict]
  split_ifs with hfull
  · have hevicted : Sound (((s.freeRestore.become r .away).addEntry sid).removeEntry first) :=
      hadded.removeEntry fun hfirst => absurd (huse first hfirst) (hcareful hfull.1 hfull.2)
    apply hevicted.found
    rw [SessionStore.removeEntry, lookup_filter_ne, if_neg hfull.2.symm]
    exact hadd
  · exact hadded.found hadd

end

section
/-! Every step, and every run. -/

variable {s : SessionStore}

theorem moves_enterRestore {r : ℕ} {handler : Handler} {sid : Text} (h : s.restoreLock = none) :
    Moves s ({ s with restoreLock := some r }.become r (.restoring handler sid)) r
      (.restoring handler sid) where
  sessions := rfl
  rows := rfl
  requests := rfl
  locks active hactive := by cases hactive
  mutexes _ _ _ hmutex := hmutex
  restores _ := rfl
  restoreLock r' _ hlock := by
    rw [h] at hlock
    cases hlock

/-- The request takes what the second look at the map has found, and frees the restore lock. -/
theorem Sound.foundAgain (h : Sound s) {r active : ℕ} {handler : Handler} {sid : Text}
    (hlock : s.restoreLock = some r) (hmap : s.sessions.lookup sid = some active) :
    Sound (s.freeRestore.become r (.holding handler sid active)) := by
  apply h.moves (moves_freeRestore hlock rfl rfl)
  · intro sid' active' huse
    obtain ⟨rfl, rfl⟩ : sid = sid' ∧ active = active' := by simpa [Phase.uses] using huse
    exact Or.inr hmap
  · simp [Phase.loads]
  · simp [Phase.readsRow]
  · simp [Phase.deletes]

theorem Sound.advance (h : Sound s) (r : ℕ) (first : Text)
    (hcareful : Careful s (.advance r first)) : Sound (s.advance r first) := by
  rw [SessionStore.advance]
  rw [Careful] at hcareful
  cases hphase : s.requests r with
  | away => exact h
  | arrived handler sid =>
    dsimp only
    cases hmap : s.sessions.lookup sid with
    | some active => exact h.found hmap
    | none => exact h.idle rfl rfl rfl rfl
  | missed handler sid =>
    dsimp only
    split_ifs with hfree
    · apply h.moves (moves_enterRestore hfree)
      · intro sid' active huse
        cases huse
      · simp [Phase.loads]
      · simp [Phase.readsRow]
      · simp [Phase.deletes]
    · exact h
  | restoring handler sid =>
    have hlock : s.restoreLock = some r := h.restoreHeld r (by rw [hphase]; rfl)
    dsimp only
    cases hmap : s.sessions.lookup sid with
    | some active => exact h.foundAgain hlock hmap
    | none =>
      apply h.become
      · simp [Phase.locks]
      · exact fun _ => hlock
      · intro sid' active huse
        cases huse
      · intro sid' hload
        obtain rfl : sid = sid' := by simpa [Phase.loads] using hload
        exact hmap
      · simp [Phase.readsRow]
      · simp [Phase.deletes]
  | cold handler sid =>
    have hlock : s.restoreLock = some r := h.restoreHeld r (by rw [hphase]; rfl)
    have hmap : s.sessions.lookup sid = none := h.missing r sid (by rw [hphase]; rfl)
    dsimp only
    split_ifs with hrow
    · apply h.become
      · simp [Phase.locks]
      · exact fun _ => hlock
      · intro sid' active huse
        cases huse
      · intro sid' hload
        obtain rfl : sid = sid' := by simpa [Phase.loads] using hload
        exact hmap
      · intro sid' hread
        obtain rfl : sid = sid' := by simpa [Phase.readsRow] using hread
        -- a session in use that is not in the map has no row
        rintro ⟨r', active, hr'⟩
        exact h.gone r' sid active hr' hmap hrow
      · simp [Phase.deletes]
    · exact h.leave r
  | loaded handler sid =>
    simp only [hphase] at hcareful
    exact h.restored hphase hcareful
  | holding handler sid active =>
    dsimp only
    split_ifs with hfree
    · exact h.lock hphase hfree
    · cases handler
      · exact h
      · exact h
      · exact h.leave r
      · exact h.leave r
  | locked handler sid active =>
    have hlocked : ∀ active', some active = some active' → s.mutexes active' = some r := by
      rintro active' ⟨⟩
      exact h.lockHeld r active (by rw [hphase]; rfl)
    cases handler with
    | getSession => exact h.leave r
    | approvePlan => exact h.leave r
    | streamSse =>
      apply h.become
      · exact hlocked
      · simp [Phase.restores]
      · intro sid' active' huse
        rw [hphase]
        exact Or.inl huse
      · simp [Phase.loads]
      · simp [Phase.readsRow]
      · simp [Phase.deletes]
    | deleteSession =>
      apply (h.deleteRow sid).become
      · exact hlocked
      · simp [Phase.restores]
      · intro sid' active' huse
        rw [SessionStore.deleteRow, hphase]
        exact Or.inl huse
      · simp [Phase.loads]
      · simp [Phase.readsRow]
      · intro sid' hdelete
        obtain rfl : sid = sid' := by simpa [Phase.deletes] using hdelete
        simp [SessionStore.deleteRow]
  | running sid active => exact h.leave r
  | rowDeleted sid active =>
    have hrow : sid ∉ s.rows := h.deleted r sid (by rw [hphase]; rfl)
    exact (h.removeEntry fun _ => hrow).leave r
  | creating sid =>
    simp only [hphase] at hcareful
    dsimp only
    split_ifs
    · exact h.leave r
    · exact (h.addRow hcareful).idle rfl rfl rfl rfl
  | rowCreated sid =>
    simp only [hphase] at hcareful
    exact (h.addEntry hcareful.1 hcareful.2).leave r

theorem Sound.step (h : Sound s) (event : StoreEvent) (hcareful : Careful s event) :
    Sound (s.step event) := by
  cases event with
  | arrive r handler sid =>
    rw [SessionStore.step]
    split_ifs
    · exact h.idle rfl rfl rfl rfl
    · exact h
  | create r sid =>
    rw [SessionStore.step]
    split_ifs
    · exact h.idle rfl rfl rfl rfl
    · exact h
  | advance r first => exact h.advance r first hcareful
  | leave r => exact h.leave r

/-- The store behind a start of the process. -/
def SessionStore.started (rows : List Text) : SessionStore := { rows := rows }

theorem sound_started (rows : List Text) : Sound (.started rows) := by
  constructor <;> simp [SessionStore.started, Phase.locks, Phase.restores, Phase.uses, Phase.loads,
    Phase.readsRow, Phase.deletes]

/-- In every run whose restores evict no session in use, and whose new sessions are not used before
they are in the map, at most one run of a session is under way at a time. -/
theorem oneRun_of_careful (rows : List Text) (events : List StoreEvent)
    (h : Runs.AllSteps SessionStore.step Careful (.started rows) events) :
    Runs.Always SessionStore.step OneRun (.started rows) events :=
  Runs.always_of_guarded (fun _ event hs hcareful => Sound.step hs event hcareful)
    (fun _ => Sound.oneRun) (sound_started rows) h

/-- A request that goes on `n` times. -/
def goesOn (r : ℕ) (handler : Handler) (sid first : Text) (n : ℕ) : List StoreEvent :=
  .arrive r handler sid :: List.replicate n (.advance r first)

/-- A run, and a second request for its session. -/
def secondRequest : List StoreEvent :=
  goesOn 0 .streamSse "s".toList "s".toList 7 ++ goesOn 1 .streamSse "s".toList "s".toList 2

/-- The main theorem where a second run of a session is asked for. -/
theorem oneRun_secondRequest :
    Runs.Always SessionStore.step OneRun (.started ["s".toList]) secondRequest := by
  apply oneRun_of_careful
  exact ⟨trivial, trivial, trivial, trivial, trivial, fun h => absurd h (by decide +kernel),
    trivial, trivial, trivial, trivial, trivial, trivial⟩

/-- The id of a session. -/
def sessionId (n : ℕ) : Text := [Char.ofNat (97 + n)]

/-- A run of the first session, ten other sessions that are looked at, and a second run of the
first, which the tenth has evicted. -/
def evictedRun : List StoreEvent :=
  goesOn 0 .streamSse (sessionId 0) (sessionId 0) 7 ++
    (List.range' 1 10).flatMap (fun n => goesOn n .getSession (sessionId n) (sessionId 0) 7) ++
    goesOn 11 .streamSse (sessionId 0) (sessionId 1) 7

theorem evictedRun_twice :
    (Runs.run SessionStore.step (.started ((List.range 11).map sessionId)) evictedRun).requests 0 =
        .running (sessionId 0) 0 ∧
      (Runs.run SessionStore.step (.started ((List.range 11).map sessionId))
        evictedRun).requests 11 = .running (sessionId 0) 11 := by
  decide +kernel

/-- The second of two runs of a session, where its active session was evicted under the first. -/
theorem two_runs_of_evicted : ¬ ∀ (rows : List Text) (events : List StoreEvent),
    Runs.Always SessionStore.step OneRun (.started rows) events := by
  intro h
  have hend := Runs.Always.last (h ((List.range 11).map sessionId) evictedRun)
  obtain ⟨hfirst, hsecond⟩ := evictedRun_twice
  have hsame := hend.exclusive 0 11 (sessionId 0) 0 11 hfirst hsecond
  cases hsame

end
end DeepseekScience.Api
