import Ayatsuri.EnqueueRetry

/-! The queue processor on the items of one dag-run (`processDAG`, `checkStartupStatus` and the dequeue in
`internal/service/scheduler/queue_processor.go`), together with the processes of the run and with
`EnqueueRetry`. The stored status and the queue are two stores, and every read and write of one of them
is a step of its own. -/
namespace Ayatsuri.QueueProcessor
open TransitionSystem Exec List Option Bool

def isSchedulerManagedTriggerType : TriggerType → Bool
  | .scheduler | .catchUp | .retry => true
  | .unknown | .manual | .webhook | .subDAG | .automata => false

/-- `dagFlag` is the flag name of the DAG. -/
def suspendFlagName (status : DAGRunStatus) (dagFlag : String) : String :=
  if status.suspendFlagName ≠ "" then status.suspendFlagName
  else if dagFlag ≠ "" then dagFlag
  else status.name

def isSuspendedDAG (isSuspended : String → Bool) (status : DAGRunStatus) (dagFlag : String) : Bool :=
  if suspendFlagName status dagFlag = "" then false else isSuspended (suspendFlagName status dagFlag)

def suspendedQueueDropReason : String := "dag schedule suspended before dispatch"

/-- The mutation in `dropSuspendedQueuedRun`. -/
def abortSuspended (finishedAt : String) (latest : DAGRunStatus) : DAGRunStatus :=
  {latest with
    status := .aborted
    finishedAt := finishedAt
    error := suspendedQueueDropReason
    workerID := ""
    pid := 0
    leaseAt := 0}

/-! ### The run -/

inductive Phase
  | launched | starting | running | gone
  deriving DecidableEq

structure Proc where
  worker : Bool
  attempt : ℕ
  phase : Phase
  deriving DecidableEq

def Proc.visible (p : Proc) : Bool := p.phase = .starting || p.phase = .running

structure World where
  store : RunStore
  (attempt attempts : ℕ)
  procs : List Proc
  deriving DecidableEq

inductive RunEvent
  | start | fail
  | write (status : DAGRunStatus)
  | exit

namespace World
variable (w : World)

/-- `IsRunAlive`. -/
def isRunAlive : Bool := w.procs.any fun p => !p.worker && p.visible

/-- `hasFreshDistributedLease` for the attempt with the given number. -/
def hasFreshDistributedLease (attempt : ℕ) : Bool := w.procs.any fun p => p.worker && p.visible && p.attempt = attempt

/-- One step of process `i` of the run. A local process creates a new attempt, a worker goes on with the
queued one; a status written to an attempt that is not the latest does not change the latest one. -/
def run (i : ℕ) : RunEvent → Option World
  | .start => do
    let p ← w.procs[i]?
    if p.phase = .launched then
      if p.worker then some {w with procs := w.procs.set i {p with phase := .starting}}
      else if w.store.latest.status = .queued then
        some {w with
          attempts := w.attempts+1
          procs := w.procs.set i ⟨false, w.attempts, .starting⟩}
      else some {w with procs := w.procs.set i {p with phase := .gone}}
    else none
  | .fail => do
    let p ← w.procs[i]?
    if p.phase = .launched then some {w with procs := w.procs.set i {p with phase := .gone}} else none
  | .write status => do
    let p ← w.procs[i]?
    if p.visible && status.status ≠ .queued && status.attemptID ≠ "" then
      if w.attempt ≤ p.attempt then
        some {w with
          store := {w.store with latest := status}
          attempt := p.attempt
          procs := w.procs.set i {p with phase := .running}}
      else some {w with procs := w.procs.set i {p with phase := .running}}
    else none
  | .exit => do
    let p ← w.procs[i]?
    if p.phase = .running then some {w with procs := w.procs.set i {p with phase := .gone}} else none

end World

/-! ### The processor -/

inductive Stage
  | idle | checkRunning | findAttempt
  | queued (status : DAGRunStatus)
  | dropSuspended (attemptID : String)
  | dispatch (dagStatus : DAGRunStatus)
  /-- `checkStartupStatus`: the heartbeat, the status, the lease. -/
  | checkAlive | checkStatus
  | checkLease (attempt : ℕ)
  | dequeue | done
  deriving DecidableEq

structure Reply where
  giveUp : Bool
  isSuspended : String → Bool
  dagFlag : String
  (isDistributed unavailable inStartupGracePeriod : Bool)
  finishedAt : String

variable (queueName : String)

def Stage.work (r : Reply) (w : World) : Stage → Option (World × Stage)
  | .idle => if queueName ∈ w.store.items then some (w, .checkRunning) else none
  | .checkRunning => some (w, if w.isRunAlive then .dequeue else .findAttempt)
  | .findAttempt => some (w, if w.store.latest.status ≠ .queued then .dequeue else .queued w.store.latest)
  | .queued status =>
    if isSchedulerManagedTriggerType status.triggerType &&
        isSuspendedDAG r.isSuspended status r.dagFlag then
      some (w, .dropSuspended status.attemptID)
    else if r.isDistributed then some (w, .dispatch status)
    else some ({w with procs := w.procs++[⟨false, 0, .launched⟩]}, .checkAlive)
  | .dropSuspended attemptID =>
    some ({ w with store := {w.store with
      latest := (compareAndSwap w.store.latest attemptID .queued (abortSuspended r.finishedAt)).1}},
      .dequeue)
  | .dispatch dagStatus =>
    if r.unavailable then some (w, .dispatch dagStatus)
    else if dagStatus.attemptID = "" ∨ w.store.latest.attemptID ≠ dagStatus.attemptID ∨
        w.store.latest.status ≠ .queued then some (w, .dequeue)
    else some ({w with procs := w.procs++[⟨true, w.attempt, .launched⟩]}, .checkAlive)
  | .checkAlive =>
    some (w, if w.isRunAlive then .dequeue
      else if r.inStartupGracePeriod then .checkAlive else .checkStatus)
  | .checkStatus => some (w, if w.store.latest.status ≠ .queued then .dequeue else .checkLease w.attempt)
  | .checkLease attempt => some (w, if w.hasFreshDistributedLease attempt then .dequeue else .checkAlive)
  | .dequeue => some ({w with store := {w.store with items := w.store.items.filter (· ≠ queueName)}}, .done)
  | .done => none

def Stage.isActive : Stage → Bool
  | .idle | .done => false
  | _ => true

def Stage.act (r : Reply) (w : World) (stage : Stage) : Option (World × Stage) :=
  if r.giveUp && stage.isActive then some (w, .done) else stage.work queueName r w

structure Goroutine where
  queueName : String
  stage : Stage
  deriving DecidableEq

structure System where
  world : World
  calls : List Call
  goroutines : List Goroutine
  deriving DecidableEq

namespace System

inductive Label
  | call (i : ℕ) (a : Answer)
  | process (i : ℕ) (r : Reply)
  | run (i : ℕ) (e : RunEvent)

def step (s : System) : Label → Option System
  | .call i a => do
    let c ← s.calls[i]?
    let r ← c.act s.world.store a
    some {s with
      world := {s.world with store := r.1}
      calls := s.calls.set i {c with pc := r.2}}
  | .process i r => do
    let g ← s.goroutines[i]?
    let x ← g.stage.act g.queueName r s.world
    some {s with world := x.1, goroutines := s.goroutines.set i {g with stage := x.2}}
  | .run i e => do
    let w ← s.world.run i e
    some {s with world := w}

def quiet (s : System) : Bool :=
  s.calls.all (fun c => match c.pc with | .start | .done _ => true | _ => false) &&
    s.goroutines.all (!·.stage.isActive) &&
    s.world.procs.all fun p => p.phase = .running || p.phase = .gone

end System

def Stage.holdsReading : Stage → Bool
  | .queued _ | .dropSuspended _ | .dispatch _ | .checkLease _ | .dequeue => true
  | .idle | .checkRunning | .findAttempt | .checkAlive | .checkStatus | .done => false

namespace System

/-- `EnqueueRetry` has a status that is not the cached one. It makes its first exchange only while
no process of the run is visible and no goroutine of the processor acts on an earlier reading of the run,
and its compensation does not end in an error. -/
def orderly (s : System) : Label → Bool
  | .call i a =>
    (s.calls[i]?).all (!·.shared) && match (s.calls[i]?).map Call.pc with
    | some .start => (s.world.procs.all fun p => !p.visible) && s.goroutines.all fun g => !g.stage.holdsReading
    | some (.rollBack _ _) => a.err.isNone
    | _ => true
  | .process _ _ | .run _ _ => true

structure Start (s : System) : Prop where
  calls : ∀ c ∈ s.calls, c.pc = .start
  goroutines : ∀ g ∈ s.goroutines, g.stage = .idle
  procs : s.world.procs = []
  attempt : s.world.attempt < s.world.attempts
  attemptID : s.world.store.latest.attemptID ≠ ""
  items : s.world.store.latest.status = .queued → s.world.store.items ≠ []

end System

/-! ### What is known of a queued run -/

namespace World
variable {w w' : World}

def Queued (w : World) : Prop := w.store.latest.status = .queued

variable (w : World) (i : ℕ) (p : Proc) in
/-- The steps of process `i`, which is `p`, by what they do. -/
inductive RunMove : World → Prop
  | startWorker (launched : p.phase = .launched) (worker : p.worker) :
    RunMove {w with procs := w.procs.set i {p with phase := .starting}}
  | startLocal (launched : p.phase = .launched) (isLocal : p.worker = false) (queued : w.Queued) :
    RunMove {w with attempts := w.attempts+1, procs := w.procs.set i ⟨false, w.attempts, .starting⟩}
  | leave (written : p.phase ≠ .starting) (there : p.phase ≠ .gone) :
    RunMove {w with procs := w.procs.set i {p with phase := .gone}}
  | write {status : DAGRunStatus} (visible : p.visible) (status_ne : status.status ≠ .queued)
      (attemptID_ne : status.attemptID ≠ "") (latest : w.attempt ≤ p.attempt) :
    RunMove {w with
        store := {w.store with latest := status}, attempt := p.attempt
        procs := w.procs.set i {p with phase := .running}}
  | writeOld (visible : p.visible) (old : p.attempt < w.attempt) :
    RunMove {w with procs := w.procs.set i {p with phase := .running}}

variable {i : ℕ}

lemma run_move {e} (hstep : w.run i e = some w') : ∃ p, w.procs[i]? = some p ∧ RunMove w i p w' := by
  cases e with
  | start =>
    obtain ⟨p, hp, hstep⟩ := bind_eq_some_iff.mp hstep
    split_ifs at hstep with hlaunched hworker hqueued <;> cases hstep
    · exact ⟨p, hp, .startWorker hlaunched hworker⟩
    · exact ⟨p, hp, .startLocal hlaunched (by simpa using hworker) hqueued⟩
    · exact ⟨p, hp, .leave (by simp [hlaunched]) (by simp [hlaunched])⟩
  | fail =>
    obtain ⟨p, hp, hstep⟩ := bind_eq_some_iff.mp hstep
    split_ifs at hstep with hlaunched
    cases hstep
    exact ⟨p, hp, .leave (by simp [hlaunched]) (by simp [hlaunched])⟩
  | exit =>
    obtain ⟨p, hp, hstep⟩ := bind_eq_some_iff.mp hstep
    split_ifs at hstep with hrunning
    cases hstep
    exact ⟨p, hp, .leave (by simp [hrunning]) (by simp [hrunning])⟩
  | write status =>
    obtain ⟨p, hp, hstep⟩ := bind_eq_some_iff.mp hstep
    split_ifs at hstep with hwritten hlatest <;> cases hstep
    · simp only [and_eq_true, decide_eq_true_eq] at hwritten
      exact ⟨p, hp, .write hwritten.1.1 hwritten.1.2 hwritten.2 hlatest⟩
    · simp only [and_eq_true, decide_eq_true_eq] at hwritten
      exact ⟨p, hp, .writeOld hwritten.1.1 (Nat.lt_of_not_le hlatest)⟩

def Started (w : World) : Prop :=
  ∃ (i : ℕ) (p : Proc), w.procs[i]? = some p ∧ p.phase = .starting ∧ w.attempt ≤ p.attempt

structure Good (w : World) : Prop where
  attempt : w.attempt < w.attempts
  procs : ∀ p ∈ w.procs, p.attempt < w.attempts
  attemptID : w.store.latest.attemptID ≠ ""
  starting : w.Queued → ∀ p ∈ w.procs, p.visible → (p.worker = false ∨ p.attempt = w.attempt) →
    p.phase = .starting ∧ w.attempt ≤ p.attempt

lemma Good.started_of_alive (h : w.Good) (hq : w.Queued) (halive : w.isRunAlive) : w.Started := by
  obtain ⟨p, hp, hvisible⟩ := any_eq_true.mp halive
  simp only [and_eq_true, not_eq_true'] at hvisible
  obtain ⟨i, hi⟩ := mem_iff_getElem?.mp hp
  exact ⟨i, p, hi, h.starting hq p hp hvisible.2 (.inl hvisible.1)⟩

lemma Good.started_of_lease (h : w.Good) (hq : w.Queued)
    (hlease : w.hasFreshDistributedLease w.attempt) : w.Started := by
  obtain ⟨p, hp, hvisible⟩ := any_eq_true.mp hlease
  simp only [and_eq_true, decide_eq_true_eq] at hvisible
  obtain ⟨i, hi⟩ := mem_iff_getElem?.mp hp
  exact ⟨i, p, hi, h.starting hq p hp hvisible.1.2 (.inr hvisible.2)⟩

structure Continues (w w' : World) : Prop where
  queued : w'.Queued → w.Queued
  attemptID : w'.Queued → w'.store.latest.attemptID = w.store.latest.attemptID
  attempt : w'.Queued → w'.attempt = w.attempt
  started : w'.Queued → w.Started → w'.Started
  items : w'.Queued → w.store.items ≠ [] → w'.store.items ≠ [] ∨ w'.Started

lemma Continues.refl (w : World) : w.Continues w := ⟨id, fun _ => rfl, fun _ => rfl, fun _ => id, fun _ => .inl⟩

lemma continues_of_not_queued (h : ¬w'.Queued) : w.Continues w' :=
  ⟨fun hq => absurd hq h, fun hq => absurd hq h, fun hq => absurd hq h, fun hq => absurd hq h, fun hq => absurd hq h⟩

variable {attempts : ℕ}

lemma continues_of_started {procs : List Proc}
    (h : w.Started → ({w with attempts := attempts, procs := procs} : World).Started) :
    w.Continues {w with attempts := attempts, procs := procs} := ⟨id, fun _ => rfl, fun _ => rfl, fun _ => h, fun _ => .inl⟩

variable {p q : Proc}

lemma Started.set (h : w.Started) (hi : w.procs[i]? = some p) (hp : p.phase = .starting → p.attempt < w.attempt) :
    ({w with attempts := attempts, procs := w.procs.set i q} : World).Started := by
  obtain ⟨j, o, hj, hstarting, hattempt⟩ := h
  have hji : j ≠ i := by
    rintro rfl
    rw [hi] at hj
    cases hj
    have := hp hstarting
    omega
  refine ⟨j, o, ?_, hstarting, hattempt⟩
  rw [getElem?_set_ne hji.symm]
  exact hj

lemma Started.append (h : w.Started) (p : Proc) : ({w with procs := w.procs++[p]} : World).Started := by
  obtain ⟨j, o, hj, hstarting, hattempt⟩ := h
  have hlt : j < w.procs.length := lt_of_getElem? hj
  refine ⟨j, o, ?_, hstarting, hattempt⟩
  rw [getElem?_append_left hlt]
  exact hj

lemma Good.set (h : w.Good) (hattempts : w.attempts ≤ attempts) (hq : q.attempt < attempts)
    (hstarting : w.Queued → q.visible → (q.worker = false ∨ q.attempt = w.attempt) →
      q.phase = .starting ∧ w.attempt ≤ q.attempt) :
    ({w with attempts := attempts, procs := w.procs.set i q} : World).Good := by
  constructor
  · exact lt_of_lt_of_le h.attempt hattempts
  · exact forall_mem_set (fun p hp => lt_of_lt_of_le (h.procs p hp) hattempts) hq
  · exact h.attemptID
  · exact fun hqueued => forall_mem_set (h.starting hqueued) (hstarting hqueued)

lemma Good.append (h : w.Good) (hp : p.attempt < w.attempts) (hphase : p.phase = .launched) :
    ({w with procs := w.procs++[p]} : World).Good := by
  have hhidden : p.visible = false := by simp [Proc.visible, hphase]
  constructor
  · exact h.attempt
  · exact forall_mem_concat h.procs hp
  · exact h.attemptID
  · exact fun hqueued => forall_mem_concat (h.starting hqueued) (by simp [hhidden])

lemma Good.leave (h : w.Good) (hp : w.procs[i]? = some p) (hphase : p.phase ≠ .starting) :
    ({w with procs := w.procs.set i {p with phase := .gone}} : World).Good ∧
      w.Continues {w with procs := w.procs.set i {p with phase := .gone}} := by
  constructor
  · apply h.set (q := {p with phase := .gone}) le_rfl (h.procs p (mem_of_getElem? hp))
    intro _ hvisible
    simp [Proc.visible] at hvisible
  · exact continues_of_started fun hs => hs.set hp fun hstarting => absurd hstarting hphase

lemma Good.run (h : w.Good) {e} (hstep : w.run i e = some w') : w'.Good ∧ w.Continues w' := by
  obtain ⟨p, hp, hmove⟩ := run_move hstep
  have hmem : p ∈ w.procs := mem_of_getElem? hp
  cases hmove with
  | startWorker hlaunched hworker =>
    have hgood := h.set (i := i) (q := {p with phase := .starting}) le_rfl (h.procs p hmem)
      (fun _ _ hw => ⟨rfl, by rcases hw with hw | hw <;> simp_all⟩)
    exact ⟨hgood, continues_of_started fun hs => hs.set hp (by simp [hlaunched])⟩
  | startLocal hlaunched _ _ =>
    have hgood := h.set (i := i) (q := ⟨false, w.attempts, .starting⟩) (Nat.le_succ w.attempts)
      (Nat.lt_succ_self _) (fun _ _ _ => ⟨rfl, h.attempt.le⟩)
    exact ⟨hgood, continues_of_started fun hs => hs.set hp (by simp [hlaunched])⟩
  | leave hphase _ => exact h.leave hp hphase
  | write _ hstatus hid _ =>
    refine ⟨⟨h.procs p hmem, ?_, hid, fun hq => absurd hq hstatus⟩, continues_of_not_queued hstatus⟩
    exact forall_mem_set h.procs (h.procs p hmem)
  | writeOld hvisible hold =>
    -- No process that is seen while the run is queued writes to an older attempt.
    have hgood := h.set (i := i) (q := {p with phase := .running}) le_rfl (h.procs p hmem)
      (fun hq _ hw => absurd (h.starting hq p hmem hvisible hw).2 (Nat.not_le_of_lt hold))
    exact ⟨hgood, continues_of_started fun hs => hs.set hp fun _ => hold⟩

end World

namespace Stage
variable {w w' : World} {queueName : String} {r : Reply} {stage stage' : Stage}

/-- What a goroutine knows of the run if it is still queued: an attempt it has read is the latest one, and
items are removed only if a process has taken the run over. -/
def Sound (w : World) : Stage → Prop
  | .queued status | .dispatch status =>
    status.attemptID ≠ "" ∧ (w.Queued → w.store.latest.attemptID = status.attemptID)
  | .dropSuspended attemptID => w.Queued → w.store.latest.attemptID = attemptID
  | .checkLease attempt => w.Queued → attempt = w.attempt
  | .dequeue => w.Queued → w.Started
  | .idle | .checkRunning | .findAttempt | .checkAlive | .checkStatus | .done => True

lemma sound_of_not_holdsReading (h : stage.holdsReading = false) : stage.Sound w := by cases stage <;> trivial

lemma Sound.continues (h : stage.Sound w) (hw : w.Continues w') : stage.Sound w' := by
  cases stage with
  | queued status | dispatch status => exact ⟨h.1, fun hq => (hw.attemptID hq).trans (h.2 (hw.queued hq))⟩
  | dropSuspended attemptID => exact fun hq => (hw.attemptID hq).trans (h (hw.queued hq))
  | checkLease attempt => exact fun hq => (h (hw.queued hq)).trans (hw.attempt hq).symm
  | dequeue => exact fun hq => hw.started hq (h (hw.queued hq))
  | idle | checkRunning | findAttempt | checkAlive | checkStatus | done => trivial

lemma Sound.work (hw : w.Good) (h : stage.Sound w) (hstep : stage.work queueName r w = some (w', stage')) :
    w'.Good ∧ w.Continues w' ∧ stage'.Sound w' := by
  have hrefl := World.Continues.refl w
  cases stage with
  | idle =>
    obtain ⟨-, hstep⟩ := of_guarded hstep
    cases hstep
    exact ⟨hw, hrefl, trivial⟩
  | checkRunning =>
    cases hstep
    split_ifs with halive
    · exact ⟨hw, hrefl, fun hq => hw.started_of_alive hq halive⟩
    · exact ⟨hw, hrefl, trivial⟩
  | findAttempt =>
    cases hstep
    split_ifs with hstatus
    · exact ⟨hw, hrefl, fun hq => absurd hq hstatus⟩
    · exact ⟨hw, hrefl, hw.attemptID, fun _ => rfl⟩
  | queued status =>
    simp only [Stage.work] at hstep
    split_ifs at hstep <;> cases hstep
    · exact ⟨hw, hrefl, h.2⟩
    · exact ⟨hw, hrefl, h⟩
    · have hgood := hw.append (p := ⟨false, 0, .launched⟩) (Nat.zero_lt_of_lt hw.attempt) rfl
      exact ⟨hgood, World.continues_of_started fun hs => hs.append _, trivial⟩
  | dropSuspended attemptID =>
    cases hstep
    by_cases hat : IsAt w.store.latest attemptID .queued
    · rw [compareAndSwap_of_isAt hat]
      have hnot : ¬World.Queued { w with store := {w.store with
          latest := abortSuspended r.finishedAt w.store.latest}} := by simp [World.Queued, abortSuspended]
      exact ⟨{hw with starting := fun hq => absurd hq hnot}, World.continues_of_not_queued hnot, fun hq => absurd hq hnot⟩
    · rw [compareAndSwap_of_not_isAt hat]
      exact ⟨hw, hrefl, fun hq => absurd ⟨.inr (h hq), hq⟩ hat⟩
  | dispatch dagStatus =>
    simp only [Stage.work] at hstep
    split_ifs at hstep with _ hstale <;> cases hstep
    · exact ⟨hw, hrefl, h⟩
    · refine ⟨hw, hrefl, fun hq => ?_⟩
      rcases hstale with hempty | hother | hstatus
      · exact absurd hempty h.1
      · exact absurd (h.2 hq) hother
      · exact absurd hq hstatus
    · have hgood := hw.append (p := ⟨true, w.attempt, .launched⟩) hw.attempt rfl
      exact ⟨hgood, World.continues_of_started fun hs => hs.append _, trivial⟩
  | checkAlive =>
    cases hstep
    split_ifs with halive
    · exact ⟨hw, hrefl, fun hq => hw.started_of_alive hq halive⟩
    · exact ⟨hw, hrefl, trivial⟩
    · exact ⟨hw, hrefl, trivial⟩
  | checkStatus =>
    cases hstep
    split_ifs with hstatus
    · exact ⟨hw, hrefl, fun hq => absurd hq hstatus⟩
    · exact ⟨hw, hrefl, fun _ => rfl⟩
  | checkLease attempt =>
    cases hstep
    split_ifs with hlease
    · exact ⟨hw, hrefl, fun hq => hw.started_of_lease hq (h hq ▸ hlease)⟩
    · exact ⟨hw, hrefl, trivial⟩
  | dequeue =>
    cases hstep
    -- Items go only if a process has taken the run over.
    have hcont : w.Continues { w with store := {w.store with
        items := w.store.items.filter (· ≠ queueName)}} :=
      ⟨id, fun _ => rfl, fun _ => rfl, fun _ => id, fun hq _ => .inr (h hq)⟩
    exact ⟨{hw with}, hcont, trivial⟩
  | done => cases hstep

lemma Sound.act (hw : w.Good) (h : stage.Sound w) (hstep : stage.act queueName r w = some (w', stage')) :
    w'.Good ∧ w.Continues w' ∧ stage'.Sound w' := by
  unfold Stage.act at hstep
  split_ifs at hstep
  · cases hstep
    exact ⟨hw, World.Continues.refl w, trivial⟩
  · exact h.work hw hstep

end Stage

namespace System
variable {s t : System}

def Owed (s : System) : Prop :=
  ∃ (i : ℕ) (c : Call) (updatedStatus : DAGRunStatus), s.calls[i]? = some c ∧
    c.pc.pending = some updatedStatus ∧ updatedStatus.attemptID = s.world.store.latest.attemptID

structure Inv (s : System) : Prop where
  world : s.world.Good
  goroutines : ∀ g ∈ s.goroutines, g.stage.Sound s.world
  calls : ∀ c ∈ s.calls, c.pc.pending ≠ none → c.status.status ≠ .queued
  queued : s.world.Queued → s.world.store.items ≠ [] ∨ s.world.Started ∨ s.Owed

lemma Start.inv (h : s.Start) : s.Inv := by
  constructor
  · refine ⟨h.attempt, ?_, h.attemptID, ?_⟩ <;> simp [h.procs]
  · intro g hg
    rw [h.goroutines g hg]
    trivial
  · intro c hc hp
    rw [h.calls c hc] at hp
    exact absurd rfl hp
  · intro hq
    exact .inl (h.items hq)

lemma Inv.continues (h : s.Inv) {w goroutines} (hgood : w.Good)
    (hw : s.world.Continues w) (hg : ∀ g ∈ goroutines, g.stage.Sound w) :
    Inv {s with world := w, goroutines := goroutines} := by
  refine ⟨hgood, hg, h.calls, ?_⟩
  intro hq
  rcases h.queued (hw.queued hq) with hitems | hstarted | ⟨i, c, u, hc, hp, hid⟩
  · rcases hw.items hq hitems with hitems | hstarted
    · exact .inl hitems
    · exact .inr (.inl hstarted)
  · exact .inr (.inl (hw.started hq hstarted))
  · exact .inr (.inr ⟨i, c, u, hc, hp, hid.trans (hw.attemptID hq).symm⟩)

variable {i : ℕ}

lemma Inv.process (h : s.Inv) {r} (hstep : s.step (.process i r) = some t) : t.Inv := by
  simp only [step, bind_eq_bind, bind_eq_some_iff, some.injEq] at hstep
  obtain ⟨g, hg, ⟨w, stage⟩, hact, rfl⟩ := hstep
  obtain ⟨hgood, hw, hsound⟩ := (h.goroutines g (mem_of_getElem? hg)).act h.world hact
  apply h.continues hgood hw
  exact forall_mem_set (fun g' hg' => (h.goroutines g' hg').continues hw) hsound

lemma Inv.run (h : s.Inv) {e} (hstep : s.step (.run i e) = some t) : t.Inv := by
  obtain ⟨w, hrun, ⟨⟩⟩ := bind_eq_some_iff.mp hstep
  obtain ⟨hgood, hw⟩ := h.world.run hrun
  exact h.continues hgood hw fun g hg => (h.goroutines g hg).continues hw

variable {c : Call}

lemma Owed.set {pc : Pc} (h : s.Owed) (hc : s.calls[i]? = some c)
    (howes : ∀ updatedStatus, c.pc.pending = some updatedStatus →
      updatedStatus.attemptID = s.world.store.latest.attemptID → pc.pending = some updatedStatus) :
    Owed {s with calls := s.calls.set i {c with pc := pc}} := by
  obtain ⟨j, d, u, hd, hp, hid⟩ := h
  by_cases hj : j = i
  · subst hj
    rw [hc] at hd
    cases hd
    have hlen : j < s.calls.length := lt_of_getElem? hc
    exact ⟨j, {c with pc := pc}, u, getElem?_set_self hlen, howes u hp hid, hid⟩
  · exact ⟨j, d, u, by rwa [getElem?_set_ne (Ne.symm hj)], hp, hid⟩

section
variable (h : s.Inv)
include h

lemma Inv.calls_set {pc : Pc} (hpc : pc.pending ≠ none → c.status.status ≠ .queued) :
    ∀ d ∈ s.calls.set i {c with pc := pc}, d.pc.pending ≠ none → d.status.status ≠ .queued := forall_mem_set h.calls hpc

lemma Inv.set_call {pc : Pc} (hc : s.calls[i]? = some c) (hpc : pc.pending ≠ none → c.status.status ≠ .queued)
    (howes : s.world.Queued → ∀ updatedStatus, c.pc.pending = some updatedStatus →
      updatedStatus.attemptID = s.world.store.latest.attemptID → pc.pending = some updatedStatus) :
    Inv {s with calls := s.calls.set i {c with pc := pc}} := by
  refine ⟨h.world, h.goroutines, h.calls_set hpc, ?_⟩
  intro hq
  rcases h.queued hq with hitems | hstarted | howed
  · exact .inl hitems
  · exact .inr (.inl hstarted)
  · exact .inr (.inr (howed.set hc (howes hq)))

lemma Inv.rolledBack {err : RetryError} (hstatus : c.status.status ≠ .queued) : Inv {s with
      world := { s.world with store := {s.world.store with
        latest := rollBack c.status s.world.store.latest}}
      calls := s.calls.set i {c with pc := .done (some err)}} := by
  have hnot : ¬World.Queued { s.world with store := {s.world.store with
      latest := rollBack c.status s.world.store.latest}} := hstatus
  refine ⟨{h.world with starting := fun hq => absurd hq hnot}, ?_,
    h.calls_set fun hp => absurd rfl hp, fun hq => absurd hq hnot⟩
  exact fun g hg => (h.goroutines g hg).continues (World.continues_of_not_queued hnot)

lemma Inv.enqueued {procGroup : String} {updatedStatus : DAGRunStatus} : Inv {s with
      world := { s.world with store := {s.world.store with
        items := s.world.store.items++[procGroup]}}
      calls := s.calls.set i {c with pc := .onQueued updatedStatus}} := by
  have hitems : s.world.store.items++[procGroup] ≠ [] := by simp
  have hcont : s.world.Continues { s.world with store := {s.world.store with
      items := s.world.store.items++[procGroup]}} := ⟨id, fun _ => rfl, fun _ => rfl, fun _ => id, fun _ _ => .inl hitems⟩
  refine ⟨{h.world with}, ?_, h.calls_set fun hp => absurd rfl hp, fun _ => .inl hitems⟩
  exact fun g hg => (h.goroutines g hg).continues hcont

lemma Inv.swap {a} (hc : s.calls[i]? = some c)
    (hstart : c.pc = .start) (hstatus : c.status.status ≠ .queued) (horderly : s.orderly (.call i a) = true) :
    Inv {s with
      world := { s.world with store := {s.world.store with
        latest := markQueued a.now c.opts.autoRetry c.status s.world.store.latest}}
      calls := s.calls.set i {c with
        pc := .enqueue (markQueued a.now c.opts.autoRetry c.status s.world.store.latest)}} := by
  have hlen : i < s.calls.length := lt_of_getElem? hc
  simp only [orderly, hc, map_some, hstart, and_eq_true, List.all_eq_true, not_eq_true'] at horderly
  obtain ⟨-, hprocs, hreadings⟩ := horderly
  refine ⟨{h.world with starting := ?_}, ?_, h.calls_set fun _ => hstatus, ?_⟩
  · intro _ p hp hvisible
    rw [hprocs p hp] at hvisible
    cases hvisible
  · intro g hg
    exact Stage.sound_of_not_holdsReading (hreadings g hg)
  · intro _
    exact .inr (.inr ⟨i, _, _, List.getElem?_set_self hlen, rfl, rfl⟩)

lemma Inv.call {a} (horderly : s.orderly (.call i a) = true) (hstep : s.step (.call i a) = some t) : t.Inv := by
  simp only [step, bind_eq_bind, bind_eq_some_iff, some.injEq] at hstep
  obtain ⟨c, hc, ⟨w', pc⟩, hact, rfl⟩ := hstep
  have hpending : c.pc.pending ≠ none → c.status.status ≠ .queued := h.calls c (mem_of_getElem? hc)
  cases Call.move hact with
  | alreadyQueued hpc _ | persistFailed hpc _ | foundQueued hpc _ _ | stale hpc _ | notified hpc =>
    exact h.set_call hc (by simp) (by simp [hpc])
  | refused hpc =>
    rw [hpc] at hpending
    exact h.set_call hc hpending fun _ u hu _ => by rw [hpc] at hu; exact hu
  | rollBackFailed hpc hfailed =>
    have herr : c.shared = false ∧ a.err = none := by simpa [orderly, hc, hpc] using horderly
    exact absurd herr.2 hfailed
  | rollBackLost hpc hlost =>
    apply h.set_call hc (by simp)
    intro hq u hu hid
    rw [hpc] at hu
    cases hu
    exact absurd ⟨.inr hid.symm, hq⟩ hlost
  | rolledBack hpc _ =>
    have hown : c.shared = false ∧ a.err = none := by simpa [orderly, hc, hpc] using horderly
    rw [show c.snapshot _ = c.status by simp [Call.snapshot, hown.1]]
    exact h.rolledBack (hpending (by simp [hpc]))
  | enqueued hpc => exact h.enqueued
  | swap hpc hstatus _ => exact h.swap hc hpc hstatus horderly

lemma Inv.step {l} (horderly : s.orderly l) (hstep : System.step s l = some t) : t.Inv := by
  cases l with
  | call i a => exact h.call horderly hstep
  | process i r => exact h.process hstep
  | run i e => exact h.run hstep

lemma Inv.items_of_quiet (hquiet : s.quiet)
    (hqueued : s.world.store.latest.status = .queued) : s.world.store.items ≠ [] := by
  simp only [quiet, and_eq_true, List.all_eq_true] at hquiet
  obtain ⟨⟨hcalls, -⟩, hprocs⟩ := hquiet
  rcases h.queued hqueued with hitems | ⟨i, p, hp, hstarting, -⟩ | ⟨i, c, u, hc, hpending, -⟩
  · exact hitems
  · have hphase := hprocs p (mem_of_getElem? hp)
    simp [hstarting] at hphase
  · have hpc := hcalls c (mem_of_getElem? hc)
    cases hcpc : c.pc <;> simp [hcpc] at hpc hpending

end

def attempt (attemptID : String) (status : Status) : DAGRunStatus :=
  {State.failedRun ⟨"etl", "run1"⟩ with attemptID := attemptID, status := status}

def queuedRun : System where
  world := ⟨⟨attempt "a1" .queued, ["batch"]⟩, 0, 1, []⟩
  calls := [⟨none, attempt "a2" .failed, ⟨true, false⟩, .start, false⟩]
  goroutines := [⟨"batch", .idle⟩]

lemma start_queuedRun : queuedRun.Start := ⟨by decide, by decide, rfl, by decide, by decide, by decide⟩

/-- The goroutine takes `k` steps; the DAG is local and not suspended. -/
def processes (k : ℕ) : Label × ℕ := (.process 0 ⟨false, fun _ => false, "etl", false, false, false, ""⟩, k)

def starts : Label × ℕ := (.run 0 .start, 1)

def runsAndFails : List (Label × ℕ) :=
  [(.run 0 (.write (attempt "a2" .running)), 1), (.run 0 (.write (attempt "a2" .failed)), 1), (.run 0 .exit, 1)]

def retries : Label × ℕ := (.call 0 ⟨"2026-02-07T12:05:00Z", none⟩, 3)

def dequeuedFirst : System := follow step orderly queuedRun ([processes 4, starts, processes 2]++runsAndFails++[retries])

/-- The goroutine sees the first attempt start, and removes the items of the run when the retry has
enqueued its own. -/
def dequeuedLast : System := play step queuedRun ([processes 4, starts, processes 1]++runsAndFails++[retries, processes 1])

end System
end Ayatsuri.QueueProcessor
