import Ayatsuri.Approvals
import Ayatsuri.TransitionSystem

/-! Repair of stale local runs (`internal/runtime/stale_run.go`). A status query (`Manager.GetSavedStatus`,
`GetLatestStatus`) or the zombie detector of the scheduler that finds a run Running without a live process writes
Failed to it. The Running status, the answer of the socket, the heartbeat and the status that the repair reads again
are observations of their own, and the run's agent, other repairs and retries go on between them. -/
namespace Ayatsuri.StaleRuns
open TransitionSystem Approvals List Option Function

/-- `DAGRunStatus`, as far as a repair reads or writes it. The start time is the one that could be parsed, in
milliseconds. -/
structure SavedStatus where
  run : RunStatus
  error : String := ""
  workerID : String := ""
  startedAt : Option ℤ := none
  createdAt : ℤ := 0
  deriving DecidableEq

def isLocalWorkerID (workerID : String) : Bool := workerID = "" || workerID = "local"

def staleLocalRunStartupGrace : ℤ := 2000

variable (st : SavedStatus)

def statusStartTime : Option ℤ :=
  match st.startedAt with
  | some startedAt => some startedAt
  | none => if 0 < st.createdAt then some st.createdAt else none

def shouldDelayStaleLocalRunRepair (now : ℤ) : Bool :=
  match statusStartTime st with
  | none => false
  | some startedAt => decide (0 ≤ now - startedAt ∧ now - startedAt < staleLocalRunStartupGrace)

/-- What `RepairStaleLocalRun` writes for the status it has read, if it does not leave it as it is. -/
def repairStaleLocalRun (dag : List Step) (finishedAt : String) (st : SavedStatus) : Option SavedStatus :=
  if !st.run.status.isActive then none
  else if !isLocalWorkerID st.workerID then none
  else some {st with run := repaired dag finishedAt st.run, error := staleLocalRunError.text}

inductive Heartbeat
  | fresh | stale
  deriving DecidableEq

structure Attempt where
  stored : Option SavedStatus := none
  entry : Option Heartbeat := none
  live : Bool := false
  written : Option SavedStatus := none
  deriving DecidableEq

@[simp] def Attempt.status (a : Attempt) : Option Status := a.stored.map fun st => st.run.status

variable (a : Attempt)

def Attempt.last : Option Status := a.written.map fun st => st.run.status

/-- `RepairStaleLocalRun` reads the status of the attempt again and then writes. -/
inductive RepairPc
  | reread (attempt : ℕ)
  | write (attempt : ℕ) (st : SavedStatus)
  deriving DecidableEq

/-- Where a status query is: each of these points is before an observation. The status in hand is the one that
was Running. -/
inductive QueryPc
  | read (root : Bool) (attempt : ℕ)
  | probe (attempt : ℕ) (st : SavedStatus)
  | check (attempt : ℕ) (st : SavedStatus)
  | repair (pc : RepairPc)
  | done
  deriving DecidableEq

structure Round where
  (listed todo : List (ℕ × Heartbeat))
  deriving DecidableEq

inductive DetectorPc
  | idle
  | check (round : Round)
  | read (entry attempt : ℕ) (round : Round)
  | repair (entry : ℕ) (pc : RepairPc) (round : Round)
  | remove (entry : ℕ) (round : Round)
  deriving DecidableEq

structure State where
  attempts : ℕ → Attempt
  created : ℕ
  queries : List QueryPc
  detector : DetectorPc
  staleCounters : ℕ → ℕ

structure Clock where
  now : ℤ
  text : String
  deriving DecidableEq

inductive Label
  | start
  | save (attempt : ℕ) (st : SavedStatus)
  | exit (attempt : ℕ)
  | crash (attempt : ℕ)
  | expire (attempt : ℕ)
  | enqueue (st : SavedStatus)
  | retry
  | query (root : Bool)
  | ask (query : ℕ) (clock : Clock) (answered : Bool)
  | abandon (query : ℕ)
  | detect (clock : Clock)
  | giveUp
  deriving DecidableEq

def Label.examines : Label → Bool
  | .query _ | .ask _ _ _ | .abandon _ | .detect _ | .giveUp => true
  | .start | .save _ _ | .exit _ | .crash _ | .expire _ | .enqueue _ | .retry => false

inductive Outcome
  | next (pc : RepairPc)
  | finished | failed
  deriving DecidableEq

/-- One step of `RepairStaleLocalRun`. -/
def repairStep (dag : List Step) (clock : Clock) (attempts : ℕ → Attempt) : RepairPc → (ℕ → Attempt) × Outcome
  | .reread i =>
    match (attempts i).stored with
    | none => (attempts, .failed)
    | some st =>
      match repairStaleLocalRun dag clock.text st with
      | none => (attempts, .finished)
      | some st => (attempts, .next (.write i st))
  | .write i st => (update attempts i {attempts i with stored := some st}, .finished)

/-- `procStore.RemoveIfStale`. -/
def removeIfStale (attempts : ℕ → Attempt) (i : ℕ) : ℕ → Attempt :=
  if (attempts i).entry = some .stale then update attempts i {attempts i with entry := none} else attempts

/-- The status is one that `resolveRunningStatus` looks into. -/
def isLocalRunning (st : SavedStatus) : Bool := st.run.status = .running && isLocalWorkerID st.workerID

def queryStep (dag : List Step) (clock : Clock) (answered : Bool) (attempts : ℕ → Attempt) :
    QueryPc → Option ((ℕ → Attempt) × QueryPc)
  | .read root i =>
    match (attempts i).stored with
    | none => some (attempts, .done)
    | some st =>
      if isLocalRunning st then some (attempts, if root then .probe i st else .check i st) else some (attempts, .done)
  | .probe i st =>
    if answered then if (attempts i).live then some (attempts, .done) else none
    else some (attempts, .check i st)
  | .check i st =>
    if shouldDelayStaleLocalRunRepair st clock.now then some (attempts, .done)
    else if (attempts i).entry = some .fresh then some (attempts, .done)
    else some (attempts, .repair (.reread i))
  | .repair pc =>
    match repairStep dag clock attempts pc with
    | (attempts, .next pc) => some (attempts, .repair pc)
    | (attempts, .finished) | (attempts, .failed) => some (attempts, .done)
  | .done => none

namespace State
variable (s : State)

def put (i : ℕ) (a : Attempt) : State := {s with attempts := update s.attempts i a}

def latest : ℕ := s.created - 1

/-- `ListAllEntries`, for the run. -/
def listAllEntries : List (ℕ × Heartbeat) :=
  (range s.created).filterMap fun i => (s.attempts i).entry.map fun heartbeat => (i, heartbeat)

def setCounter (entry count : ℕ) : State :=
  {s with staleCounters := update s.staleCounters entry count}

variable (dag : List Step)

/-- One step of `detectAndCleanZombies`. A stale entry with a fresh one beside it belongs to another attempt than the
fresh one. -/
def detectStep (failureThreshold : ℕ) (clock : Clock) (s : State) : State :=
  match s.detector with
  | .idle => {s with detector := .check ⟨s.listAllEntries, s.listAllEntries⟩}
  | .check ⟨listed, []⟩ =>
    {s with
      detector := .idle
      staleCounters := fun i => if i ∈ listed.map Prod.fst then s.staleCounters i else 0}
  | .check ⟨listed, (entry, .fresh)::todo⟩ => {s.setCounter entry 0 with detector := .check ⟨listed, todo⟩}
  | .check ⟨listed, (entry, .stale)::todo⟩ =>
    if listed.any fun x => x.2 = .fresh then
      { s.setCounter entry 0 with
        detector := .check ⟨listed, todo⟩
        attempts := removeIfStale s.attempts entry}
    else if s.staleCounters entry+1 < failureThreshold then
      {s.setCounter entry (s.staleCounters entry+1) with detector := .check ⟨listed, todo⟩}
    else
      {s.setCounter entry (s.staleCounters entry+1) with detector := .read entry s.latest ⟨listed, todo⟩}
  | .read entry i round =>
    match (s.attempts i).stored with
    | none => {s with detector := .check round}
    | some st =>
      if i ≠ entry ∨ !isLocalRunning st then {s with detector := .remove entry round}
      else {s with detector := .repair entry (.reread i) round}
  | .repair entry pc round =>
    match repairStep dag clock s.attempts pc with
    | (attempts, .next pc) => {s with attempts := attempts, detector := .repair entry pc round}
    | (attempts, .finished) => {s with attempts := attempts, detector := .remove entry round}
    | (attempts, .failed) => {s with attempts := attempts, detector := .check round}
  | .remove entry round =>
    { s.setCounter entry 0 with
      detector := .check round
      attempts := removeIfStale s.attempts entry}

def giveUp : Option State :=
  match s.detector with
  | .idle | .check _ => none
  | .read _ _ round | .repair _ _ round | .remove _ round => some {s with detector := .check round}

/-- `EnqueueRetry` exchanges the status of the latest attempt for Queued. -/
def retry : Option State :=
  match (s.attempts s.latest).stored with
  | none => none
  | some st =>
    if s.created = 0 ∨ st.run.status = .queued then none
    else some (s.put s.latest
      {s.attempts s.latest with stored := some {st with run := {st.run with status := .queued}}})

def step (failureThreshold : ℕ) (s : State) : Label → Option State
  | .start => some {s.put s.created {live := true, entry := some .fresh} with created := s.created+1}
  | .save i st =>
    if i < s.created ∧ (s.attempts i).live then
      some (s.put i {s.attempts i with stored := some st, written := some st})
    else none
  | .exit i =>
    if i < s.created ∧ (s.attempts i).live then some (s.put i {s.attempts i with live := false, entry := none})
    else none
  | .crash i =>
    if i < s.created ∧ (s.attempts i).live then some (s.put i {s.attempts i with live := false}) else none
  | .expire i =>
    if i < s.created ∧ (s.attempts i).live = false ∧ (s.attempts i).entry = some .fresh then
      some (s.put i {s.attempts i with entry := some .stale})
    else none
  | .enqueue st =>
    if st.run.status = .queued then some {s.put s.created {stored := some st} with created := s.created+1}
    else none
  | .retry => s.retry
  | .query root => if s.created = 0 then none else some {s with queries := s.queries++[.read root s.latest]}
  | .ask k clock answered =>
    match s.queries[k]? with
    | none => none
    | some pc =>
      (queryStep dag clock answered s.attempts pc).map fun x => {s with attempts := x.1, queries := s.queries.set k x.2}
  | .abandon k => if k < s.queries.length then some {s with queries := s.queries.set k .done} else none
  | .detect clock => some (s.detectStep dag failureThreshold clock)
  | .giveUp => s.giveUp

def init : State := ⟨fun _ => {}, 0, [], .idle, fun _ => 0⟩

end State

def RepairPc.attempt : RepairPc → ℕ
  | .reread i | .write i _ => i

def QueryPc.examined : QueryPc → Option ℕ
  | .probe i _ | .check i _ => some i
  | .repair pc => some pc.attempt
  | .read _ _ | .done => none

def DetectorPc.examined : DetectorPc → Option ℕ
  | .repair _ pc _ => some pc.attempt
  | .idle | .check _ | .read _ _ _ | .remove _ _ => none

namespace State

def Examined (s : State) (i : ℕ) : Prop := (∃ q ∈ s.queries, q.examined = some i) ∨ s.detector.examined = some i

instance (s : State) (i : ℕ) : Decidable (s.Examined i) := instDecidableOr

def Undisturbed (s : State) : Label → Prop
  | .save i st => st.run.status = .queued ∨ st.run.status = .waiting → ¬ s.Examined i
  | .retry => ¬ s.Examined s.latest
  | _ => True

instance (s : State) (l : Label) : Decidable (s.Undisturbed l) := by
  unfold Undisturbed
  split <;> infer_instance

end State

/-- A step of an examiner leaves the stored status as it is, or it writes Failed to an attempt whose agent is gone
and has written Running last, and over nothing but that Running or the Failed of another repair. -/
def Spares (a b : Attempt) : Prop :=
  b.stored = a.stored ∨
    (a.live = false ∧ a.last = some .running) ∧ (a.status = some .running ∨ a.status = some .failed) ∧
      b.status = some .failed

instance (a b : Attempt) : Decidable (Spares a b) := instDecidableOr

/-! ### What the examiners know -/

structure Attempt.Inv : Prop where
  fresh : a.live → a.entry = some .fresh
  running : a.status = some .running → a.last = some .running

def Attempt.Settled : Prop := a.status ≠ some .queued ∧ a.status ≠ some .waiting

section
variable (attempts : ℕ → Attempt) (created : ℕ)

def Gone (i : ℕ) : Prop := i < created ∧ (attempts i).live = false

def RepairPc.Knows : RepairPc → Prop
  | .reread i => Gone attempts created i ∧ (attempts i).Settled
  | .write i st =>
    Gone attempts created i ∧ (attempts i).last = some .running ∧
      ((attempts i).status = some .running ∨ (attempts i).status = some .failed) ∧ st.run.status = .failed

def QueryPc.Knows : QueryPc → Prop
  | .read _ i => i < created
  | .probe i _ | .check i _ => i < created ∧ (attempts i).Settled
  | .repair pc => pc.Knows attempts created
  | .done => True

def Round.Knows (round : Round) : Prop := ∀ x ∈ round.todo, x.2 = .stale → Gone attempts created x.1

def DetectorPc.Knows : DetectorPc → Prop
  | .idle => True
  | .check round | .remove _ round => round.Knows attempts created
  | .read entry _ round => Gone attempts created entry ∧ round.Knows attempts created
  | .repair _ pc round => pc.Knows attempts created ∧ round.Knows attempts created

end

structure Inv (s : State) : Prop where
  attempts : ∀ i, (s.attempts i).Inv
  queries : ∀ q ∈ s.queries, q.Knows s.attempts s.created
  detector : s.detector.Knows s.attempts s.created

structure Follows (s t : State) : Prop where
  created : s.created ≤ t.created
  gone : ∀ i < s.created, (s.attempts i).live = false → (t.attempts i).live = false ∧ (t.attempts i).last = (s.attempts i).last
  settled : ∀ i < s.created, s.Examined i → (s.attempts i).Settled → (t.attempts i).Settled
  quiet : ∀ i < s.created, s.Examined i → (s.attempts i).live = false →
    (t.attempts i).status = (s.attempts i).status ∨ (t.attempts i).status = some .failed

namespace Follows
variable {s t : State} (h : Follows s t)
include h

lemma stays_gone {i} (hgone : Gone s.attempts s.created i) : Gone t.attempts t.created i :=
  ⟨lt_of_lt_of_le hgone.1 h.created, (h.gone i hgone.1 hgone.2).1⟩

lemma repair {pc : RepairPc} (hexamined : s.Examined pc.attempt)
    (hpc : pc.Knows s.attempts s.created) : pc.Knows t.attempts t.created := by
  cases pc with
  | reread i => exact ⟨h.stays_gone hpc.1, h.settled i hpc.1.1 hexamined hpc.2⟩
  | write i st =>
    obtain ⟨hgone, hlast, hstatus, hst⟩ := hpc
    refine ⟨h.stays_gone hgone, (h.gone i hgone.1 hgone.2).2.trans hlast, ?_, hst⟩
    rcases h.quiet i hgone.1 hexamined hgone.2 with hsame | hfailed
    · rwa [hsame]
    · exact .inr hfailed

lemma query {q} (hmem : q ∈ s.queries) (hq : q.Knows s.attempts s.created) : q.Knows t.attempts t.created := by
  cases q with
  | read root i => exact lt_of_lt_of_le hq h.created
  | probe i st | check i st => exact ⟨lt_of_lt_of_le hq.1 h.created, h.settled i hq.1 (.inl ⟨_, hmem, rfl⟩) hq.2⟩
  | repair pc => exact h.repair (.inl ⟨_, hmem, rfl⟩) hq
  | done => trivial

lemma round {round : Round} (hround : round.Knows s.attempts s.created) : round.Knows t.attempts t.created :=
  fun x hx hstale => h.stays_gone (hround x hx hstale)

lemma detector (hd : s.detector.Knows s.attempts s.created) : s.detector.Knows t.attempts t.created := by
  cases hpc : s.detector with
  | idle => trivial
  | check round | remove entry round =>
    rw [hpc] at hd
    exact h.round hd
  | read entry i round =>
    rw [hpc] at hd
    exact ⟨h.stays_gone hd.1, h.round hd.2⟩
  | repair entry pc round =>
    rw [hpc] at hd
    exact ⟨h.repair (.inr (by rw [hpc]; rfl)) hd.1, h.round hd.2⟩

end Follows

/-! ### Steps of the examiners -/

structure Touches (a b : Attempt) : Prop where
  live : b.live = a.live
  written : b.written = a.written
  entry : a.live → b.entry = a.entry
  spares : Spares a b

lemma Touches.refl : Touches a a := ⟨rfl, rfl, fun _ => rfl, .inl rfl⟩

open Attempt

lemma Touches.inv {a b} (h : Touches a b) (ha : a.Inv) : b.Inv := by
  have hlast : b.last = a.last := by rw [last, last, h.written]
  refine ⟨fun hlive => ?_, fun hstatus => ?_⟩
  · rw [h.live] at hlive
    rw [h.entry hlive, ha.fresh hlive]
  rw [hlast]
  rcases h.spares with hsame | ⟨-, -, hfailed⟩
  · exact ha.running (by rwa [status, ← hsame])
  · rw [hfailed] at hstatus
    cases hstatus

lemma follows_of_touches {s t : State} (h : ∀ i, Touches (s.attempts i) (t.attempts i)) (hcreated : t.created = s.created) :
    Follows s t := by
  have hstatus (i : ℕ) : (t.attempts i).status = (s.attempts i).status ∨ (t.attempts i).status = some .failed := by
    rcases (h i).spares with hsame | ⟨-, -, hfailed⟩
    · exact .inl (by rw [status, status, hsame])
    · exact .inr hfailed
  refine ⟨hcreated.ge, fun i _ hlive => ⟨(h i).live.trans hlive, ?_⟩, fun i _ _ hsettled => ?_, fun i _ _ _ => hstatus i⟩
  · rw [last, last, (h i).written]
  rcases hstatus i with hsame | hfailed
  · rwa [Attempt.Settled, hsame]
  · rw [Attempt.Settled, hfailed]
    decide

open State

section
variable {dag : List Step} {failureThreshold : ℕ} {clock : Clock} {s t : State} {pc : RepairPc}

lemma repairStep_touches (dag : List Step) (clock : Clock) (h : pc.Knows s.attempts s.created) (j : ℕ) :
    Touches (s.attempts j) ((repairStep dag clock s.attempts pc).1 j) := by
  cases pc with
  | reread i =>
    simp only [repairStep]
    split
    · exact .refl _
    · split <;> exact .refl _
  | write i st =>
    obtain ⟨hgone, hlast, hstatus, hst⟩ := h
    by_cases hj : j = i
    · subst hj
      simp only [repairStep, update_self]
      exact ⟨rfl, rfl, fun _ => rfl, .inr ⟨⟨hgone.2, hlast⟩, hstatus, by simp [hst]⟩⟩
    · simp only [repairStep, update_of_ne hj]
      exact .refl _

lemma repairStep_next (dag : List Step) (clock : Clock) (hinv : Inv s) (h : pc.Knows s.attempts s.created)
    (next : RepairPc) (hstep : (repairStep dag clock s.attempts pc).2 = .next next) :
    next.Knows (repairStep dag clock s.attempts pc).1 s.created := by
  cases pc with
  | write i st => cases hstep
  | reread i =>
    cases hstored : (s.attempts i).stored with
    | none => simp [repairStep, hstored] at hstep
    | some st =>
      cases hrepair : repairStaleLocalRun dag clock.text st with
      | none => simp [repairStep, hstored, hrepair] at hstep
      | some st' =>
        simp only [repairStep, hstored, hrepair, Outcome.next.injEq] at hstep ⊢
        subst hstep
        have hstatus : (s.attempts i).status = some st.run.status := by rw [status, hstored]; rfl
        unfold repairStaleLocalRun at hrepair
        split_ifs at hrepair with hactive
        cases hrepair
        have hrunning : st.run.status = .running := by
          have hsettled := h.2
          rw [Attempt.Settled, hstatus] at hsettled
          revert hsettled hactive
          cases st.run.status <;> simp [Status.isActive]
        rw [hrunning] at hstatus
        exact ⟨h.1, (hinv.attempts i).running hstatus, .inl hstatus, rfl⟩

variable {attempts : ℕ → Attempt}

lemma repairStep_spec (hinv : Inv s) (h : pc.Knows s.attempts s.created)
    {outcome} (hstep : repairStep dag clock s.attempts pc = (attempts, outcome)) :
    (∀ j, Touches (s.attempts j) (attempts j)) ∧ ∀ next, outcome = .next next → next.Knows attempts s.created := by
  have htouches := repairStep_touches dag clock h
  have hnext := repairStep_next dag clock hinv h
  rw [hstep] at htouches hnext
  exact ⟨htouches, hnext⟩

lemma removeIfStale_touches (hinv : Inv s) (i j : ℕ) : Touches (s.attempts j) (removeIfStale s.attempts i j) := by
  unfold removeIfStale
  split_ifs with hstale
  · by_cases hj : j = i
    · subst hj
      rw [update_self]
      refine ⟨rfl, rfl, fun hlive => ?_, .inl rfl⟩
      rw [(hinv.attempts j).fresh hlive] at hstale
      cases hstale
    · rw [update_of_ne hj]
      exact .refl _
  · exact .refl _

lemma settled_of_isLocalRunning {a : Attempt} {st} (hstored : a.stored = some st) (h : isLocalRunning st) :
    a.Settled := by
  have hrunning : st.run.status = .running := by
    simp only [isLocalRunning, Bool.and_eq_true, decide_eq_true_eq] at h
    exact h.1
  simp [Attempt.Settled, hstored, hrunning]

lemma queryStep_spec (hinv : Inv s) {answered q q'}
    (hq : q.Knows s.attempts s.created) (hstep : queryStep dag clock answered s.attempts q = some (attempts, q')) :
    (∀ j, Touches (s.attempts j) (attempts j)) ∧ q'.Knows attempts s.created := by
  cases q with
  | done => cases hstep
  | read root i =>
    simp only [queryStep] at hstep
    cases hstored : (s.attempts i).stored with
    | none =>
      rw [hstored] at hstep
      cases hstep
      exact ⟨fun _ => .refl _, trivial⟩
    | some st =>
      simp only [hstored] at hstep
      by_cases hrunning : isLocalRunning st
      · rw [if_pos hrunning] at hstep
        cases hstep
        have hsettled := settled_of_isLocalRunning hstored hrunning
        refine ⟨fun _ => .refl _, ?_⟩
        split_ifs
        · exact ⟨hq, hsettled⟩
        · exact ⟨hq, hsettled⟩
      · rw [if_neg hrunning] at hstep
        cases hstep
        exact ⟨fun _ => .refl _, trivial⟩
  | probe i st =>
    simp only [queryStep] at hstep
    split_ifs at hstep
    · cases hstep
      exact ⟨fun _ => .refl _, trivial⟩
    · cases hstep
      exact ⟨fun _ => .refl _, hq⟩
  | check i st =>
    simp only [queryStep] at hstep
    split_ifs at hstep with hdelay hfresh
    · cases hstep
      exact ⟨fun _ => .refl _, trivial⟩
    · cases hstep
      exact ⟨fun _ => .refl _, trivial⟩
    cases hstep
    have hlive : (s.attempts i).live = false := by
      by_contra hlive
      exact hfresh ((hinv.attempts i).fresh (by simpa using hlive))
    exact ⟨fun _ => .refl _, ⟨hq.1, hlive⟩, hq.2⟩
  | repair pc =>
    rcases hresult : repairStep dag clock s.attempts pc with ⟨attempts', outcome⟩
    obtain ⟨htouches, hnext⟩ := repairStep_spec hinv hq hresult
    simp only [queryStep, hresult] at hstep
    cases outcome with
    | next next =>
      cases hstep
      exact ⟨htouches, hnext next rfl⟩
    | finished | failed =>
      cases hstep
      exact ⟨htouches, trivial⟩

structure Detects (s t : State) : Prop where
  touches : ∀ j, Touches (s.attempts j) (t.attempts j)
  created : t.created = s.created
  queries : t.queries = s.queries
  knows : t.detector.Knows t.attempts s.created

lemma Round.Knows.touched {round : Round} (h : round.Knows s.attempts s.created)
    (htouches : ∀ j, Touches (s.attempts j) (attempts j)) : round.Knows attempts s.created := by
  intro x hx hstale
  obtain ⟨hlt, hlive⟩ := h x hx hstale
  exact ⟨hlt, (htouches x.1).live.trans hlive⟩

lemma detectStep_spec (hinv : Inv s) : Detects s (s.detectStep dag failureThreshold clock) := by
  have hknows := hinv.detector
  cases hpc : s.detector with
  | idle =>
    simp only [detectStep, hpc]
    refine ⟨fun _ => .refl _, rfl, rfl, fun x hx hstale => ?_⟩
    obtain ⟨i, hi, hentry⟩ := mem_filterMap.mp hx
    obtain ⟨heartbeat, hheartbeat, rfl⟩ := map_eq_some_iff.mp hentry
    refine ⟨mem_range.mp hi, ?_⟩
    by_contra hlive
    rw [(hinv.attempts i).fresh (by simpa using hlive)] at hheartbeat
    cases hheartbeat
    cases hstale
  | check round =>
    obtain ⟨listed, todo⟩ := round
    rw [hpc] at hknows
    cases todo with
    | nil =>
      simp only [detectStep, hpc]
      exact ⟨fun _ => .refl _, rfl, rfl, trivial⟩
    | cons x todo =>
      have htodo : (Round.mk listed todo).Knows s.attempts s.created := fun y hy => hknows y (mem_cons_of_mem _ hy)
      obtain ⟨entry, _ | _⟩ := x
      · simp only [detectStep, hpc]
        exact ⟨fun _ => .refl _, rfl, rfl, htodo⟩
      simp only [detectStep, hpc]
      split_ifs
      · have htouches := removeIfStale_touches hinv entry
        exact ⟨htouches, rfl, rfl, htodo.touched htouches⟩
      · exact ⟨fun _ => .refl _, rfl, rfl, htodo⟩
      · exact ⟨fun _ => .refl _, rfl, rfl, hknows _ mem_cons_self rfl, htodo⟩
  | read entry i round =>
    rw [hpc] at hknows
    simp only [detectStep, hpc]
    split
    · exact ⟨fun _ => .refl _, rfl, rfl, hknows.2⟩
    next st hstored =>
    split_ifs with hother
    · exact ⟨fun _ => .refl _, rfl, rfl, hknows.2⟩
    · obtain ⟨rfl, hrunning⟩ : i = entry ∧ isLocalRunning st = true := by simpa using hother
      exact ⟨fun _ => .refl _, rfl, rfl, ⟨hknows.1, settled_of_isLocalRunning hstored hrunning⟩, hknows.2⟩
  | repair entry pc round =>
    rw [hpc] at hknows
    rcases hresult : repairStep dag clock s.attempts pc with ⟨attempts', outcome⟩
    obtain ⟨htouches, hnext⟩ := repairStep_spec hinv hknows.1 hresult
    have hround := hknows.2.touched htouches
    simp only [detectStep, hpc, hresult]
    cases outcome with
    | next next => exact ⟨htouches, rfl, rfl, hnext next rfl, hround⟩
    | finished | failed => exact ⟨htouches, rfl, rfl, hround⟩
  | remove entry round =>
    rw [hpc] at hknows
    have htouches := removeIfStale_touches hinv entry
    simp only [detectStep, hpc]
    exact ⟨htouches, rfl, rfl, Round.Knows.touched hknows htouches⟩

lemma giveUp_spec (hinv : Inv s) (h : s.giveUp = some t) : Detects s t := by
  have hknows := hinv.detector
  unfold giveUp at h
  cases hpc : s.detector with
  | idle | check round => simp [hpc] at h
  | read entry i round | repair entry pc round =>
    rw [hpc] at h hknows
    cases h
    exact ⟨fun _ => .refl _, rfl, rfl, hknows.2⟩
  | remove entry round =>
    rw [hpc] at h hknows
    cases h
    exact ⟨fun _ => .refl _, rfl, rfl, hknows⟩

/-! ### Whole runs -/

namespace Inv
variable (hinv : Inv s)
include hinv

lemma detects (h : Detects s t) : Inv t := by
  have hfollows := follows_of_touches h.touches h.created
  refine ⟨fun i => (h.touches i).inv (hinv.attempts i), fun q hq => ?_, by rw [h.created]; exact h.knows⟩
  rw [h.queries] at hq
  exact hfollows.query hq (hinv.queries q hq)

lemma follows (h : Follows s t) (hattempts : ∀ i, (t.attempts i).Inv) (hqueries : t.queries = s.queries)
    (hdetector : t.detector = s.detector) : Inv t := by
  refine ⟨hattempts, fun q hq => ?_, by rw [hdetector]; exact h.detector hinv.detector⟩
  rw [hqueries] at hq
  exact h.query hq (hinv.queries q hq)

lemma put {i : ℕ} {a : Attempt} (ha : a.Inv)
    (hgone : (s.attempts i).live = false → a.live = false ∧ a.last = (s.attempts i).last)
    (hsettled : s.Examined i → (s.attempts i).Settled → a.Settled)
    (hquiet : s.Examined i → (s.attempts i).live = false → a.status = (s.attempts i).status) : Inv (s.put i a) := by
  have hat (j : ℕ) : j = i ∧ (s.put i a).attempts j = a ∨ (s.put i a).attempts j = s.attempts j := by
    by_cases hj : j = i
    · exact .inl ⟨hj, by rw [hj]; exact update_self ..⟩
    · exact .inr (update_of_ne hj ..)
  refine hinv.follows ⟨le_refl _, fun j _ hlive => ?_, fun j _ hexamined hj => ?_, fun j _ hexamined hlive => ?_⟩
    (fun j => ?_) rfl rfl
  · rcases hat j with ⟨rfl, heq⟩ | heq
    · rw [heq]
      exact hgone hlive
    · rw [heq]
      exact ⟨hlive, rfl⟩
  · rcases hat j with ⟨rfl, heq⟩ | heq
    · rw [heq]
      exact hsettled hexamined hj
    · rwa [heq]
  · rcases hat j with ⟨rfl, heq⟩ | heq
    · rw [heq]
      exact .inl (hquiet hexamined hlive)
    · rw [heq]
      exact .inl rfl
  · rcases hat j with ⟨rfl, heq⟩ | heq
    · rwa [heq]
    · rw [heq]
      exact hinv.attempts j

lemma create {a} (ha : a.Inv) : Inv {s.put s.created a with created := s.created+1} := by
  have hat {j : ℕ} (hj : j < s.created) : (s.put s.created a).attempts j = s.attempts j :=
    update_of_ne (Nat.ne_of_lt hj) ..
  refine hinv.follows ⟨Nat.le_succ _, fun j hj hlive => ?_, fun j hj _ hsettled => ?_, fun j hj _ _ => .inl ?_⟩
    (fun j => ?_) rfl rfl
  · exact ⟨by rw [← hlive]; exact congrArg _ (hat hj), congrArg _ (hat hj)⟩
  · exact (hat hj).symm ▸ hsettled
  · exact congrArg _ (hat hj)
  · change (update s.attempts s.created a j).Inv
    by_cases hj : j = s.created
    · subst hj
      rwa [update_self]
    · rw [update_of_ne hj]
      exact hinv.attempts j

lemma step {l} (hl : s.Undisturbed l) (hstep : s.step dag failureThreshold l = some t) : Inv t := by
  cases l with
  | start =>
    cases hstep
    exact hinv.create ⟨fun _ => rfl, by simp⟩
  | save i st =>
    obtain ⟨hlive, rfl⟩ := of_guarded hstep
    have hfresh := (hinv.attempts i).fresh hlive.2
    refine hinv.put ⟨fun _ => hfresh, fun h => h⟩ (by simp [hlive.2]) (fun hexamined _ => ?_) (by simp [hlive.2])
    constructor
    · rintro hqueued
      exact hl (.inl (by simpa using hqueued)) hexamined
    · rintro hwaiting
      exact hl (.inr (by simpa using hwaiting)) hexamined
  | exit i | crash i =>
    obtain ⟨hlive, rfl⟩ := of_guarded hstep
    exact hinv.put ⟨by simp, (hinv.attempts i).running⟩ (by simp [hlive.2]) (fun _ h => h) (fun _ _ => rfl)
  | expire i =>
    obtain ⟨hlive, rfl⟩ := of_guarded hstep
    exact hinv.put ⟨by simp [hlive.2.1], (hinv.attempts i).running⟩ (fun h => ⟨h, rfl⟩) (fun _ h => h) (fun _ _ => rfl)
  | enqueue st =>
    obtain ⟨hqueued, rfl⟩ := of_guarded hstep
    exact hinv.create ⟨by simp, by simp [hqueued]⟩
  | retry =>
    simp only [State.step, State.retry] at hstep
    split at hstep
    · cases hstep
    next st hstored =>
    split_ifs at hstep
    cases hstep
    have hfresh := (hinv.attempts s.latest).fresh
    exact hinv.put ⟨hfresh, by simp⟩ (fun h => ⟨h, rfl⟩) (fun hexamined => absurd hexamined hl)
      (fun hexamined => absurd hexamined hl)
  | query root =>
    simp only [State.step] at hstep
    split_ifs at hstep with hcreated
    cases hstep
    refine ⟨hinv.attempts, fun q hq => ?_, hinv.detector⟩
    rcases mem_append.mp hq with hold | hnew
    · exact hinv.queries q hold
    · obtain rfl := mem_singleton.mp hnew
      exact Nat.sub_lt (Nat.pos_of_ne_zero hcreated) Nat.one_pos
  | ask k clock answered =>
    simp only [State.step] at hstep
    split at hstep
    · cases hstep
    next q hget =>
    obtain ⟨⟨attempts, q'⟩, hquery, rfl⟩ := map_eq_some_iff.mp hstep
    obtain ⟨htouches, hknows⟩ := queryStep_spec hinv (hinv.queries q (mem_of_getElem? hget)) hquery
    set u : State := {s with attempts := attempts, queries := s.queries.set k q'}
    have hfollows : Follows s u := follows_of_touches htouches rfl
    refine ⟨fun i => (htouches i).inv (hinv.attempts i), ?_, hfollows.detector hinv.detector⟩
    exact forall_mem_set (fun x hold => hfollows.query hold (hinv.queries x hold)) hknows
  | abandon k =>
    obtain ⟨-, rfl⟩ := of_guarded hstep
    exact ⟨hinv.attempts, forall_mem_set hinv.queries trivial, hinv.detector⟩
  | detect clock =>
    cases hstep
    exact hinv.detects (detectStep_spec hinv)
  | giveUp => exact hinv.detects (giveUp_spec hinv hstep)

lemma touches {l : Label} (hl : l.examines) (hstep : s.step dag failureThreshold l = some t) (i : ℕ) :
    Touches (s.attempts i) (t.attempts i) := by
  cases l with
  | start | save i st | exit i | crash i | expire i | enqueue st | retry => cases hl
  | query root | abandon k =>
    simp only [State.step] at hstep
    split_ifs at hstep
    cases hstep
    exact .refl _
  | ask k clock answered =>
    simp only [State.step] at hstep
    split at hstep
    · cases hstep
    next q hget =>
    obtain ⟨⟨attempts, q'⟩, hquery, rfl⟩ := map_eq_some_iff.mp hstep
    exact (queryStep_spec hinv (hinv.queries q (mem_of_getElem? hget)) hquery).1 i
  | detect clock =>
    cases hstep
    exact (detectStep_spec hinv).touches i
  | giveUp => exact (giveUp_spec hinv hstep).touches i

end Inv

lemma inv_init : Inv init := ⟨fun _ => ⟨by simp [init], by simp [init]⟩, by simp [init], trivial⟩

/-- If, while a query or the detector examines an attempt it has found Running, the agent does not come to wait and
no retry puts the attempt into the queue, then Failed is written only to an attempt whose agent is gone and has
written Running last, and every other stored status is left as it is. -/
theorem State.repair_spares {l : Label} (h : Reach (step dag failureThreshold) State.Undisturbed init s)
    (hl : l.examines) (hstep : s.step dag failureThreshold l = some t) (i : ℕ) : Spares (s.attempts i) (t.attempts i) := by
  have hinv : Inv s := h.preserved inv_init fun hinv => hinv.step
  exact (hinv.touches hl hstep i).spares

end

namespace Example
variable (status : Status)

def saved : SavedStatus := {run := {status := status, nodes := []}}

def clock : Clock := ⟨10000, "now"⟩

/-- A query finds the run Running and asks on after its agent has crashed, up to the write of its repair. -/
def crashed : State :=
  follow (step [] 3) (fun s l => decide (s.Undisturbed l)) init
    [(.start, 1), (.save 0 (saved .running), 1), (.query true, 1), (.ask 0 clock false, 1), (.crash 0, 1), (.expire 0, 1),
      (.ask 0 clock false, 3)]

/-- The agent ends with a status while a query examines the run; what happens then, and the query goes on up to the
write of its repair. -/
def ended (later : List (Label × ℕ)) : State :=
  play (step [] 3) init
    ([(.start, 1), (.save 0 (saved .running), 1), (.query true, 1), (.ask 0 clock false, 1),
      (.save 0 (saved status), 1), (.exit 0, 1)]++later++[(.ask 0 clock false, 3)])

def asked (s : State) : State := (s.step [] 3 (.ask 0 clock false)).getD s

lemma step_asked {s : State} (h : (s.step [] 3 (.ask 0 clock false)).isSome) :
    s.step [] 3 (.ask 0 clock false) = some (asked s) := by
  obtain ⟨t, ht⟩ := isSome_iff_exists.mp h
  rw [asked, ht, getD_some]

end Example

open Example in
theorem State.repair_spares_crashed : ((asked crashed).attempts 0).status = some .failed ∧
      ∀ i, Spares (crashed.attempts i) ((asked crashed).attempts i) := by
  have hstep := step_asked (s := crashed) (by decide +kernel)
  exact ⟨by decide +kernel, State.repair_spares (reach_checked _ _) (l := .ask 0 clock false) rfl hstep⟩

open Example in
/-- An agent that has ended with Waiting, and a retry that has put the run into the queue, are overruled. -/
theorem State.repair_overrules :
    (¬ ∀ s l t, Reach (State.step [] 3) always State.init s → s.step [] 3 l = some t → l.examines →
      ∀ i, (s.attempts i).status = some .waiting → Spares (s.attempts i) (t.attempts i)) ∧
    ¬ ∀ s l t, Reach (State.step [] 3) always State.init s → s.step [] 3 l = some t → l.examines →
      ∀ i, (s.attempts i).status = some .queued → Spares (s.attempts i) (t.attempts i) := by
  constructor
  · intro h
    have hstep := step_asked (s := ended .waiting []) (by decide +kernel)
    have hspares := h _ _ _ (reach_play _ _) hstep rfl 0 (by decide +kernel)
    revert hspares
    decide +kernel
  intro h
  have hstep := step_asked (s := ended .failed [(.retry, 1)]) (by decide +kernel)
  have hspares := h _ _ _ (reach_play _ _) hstep rfl 0 (by decide +kernel)
  revert hspares
  decide +kernel

end Ayatsuri.StaleRuns
