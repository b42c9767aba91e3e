import Mathlib
import Ayatsuri.CoreStatus

/-! Start, stop and restart schedules (`internal/core/schedule.go`) and the catch-up
intervals computed from them (`internal/service/scheduler/catchup.go`). The cron library is
assumed: `Cron` states what its `Next` answers. Times are nanoseconds since the zero time. -/
namespace Ayatsuri.Scheduler
open List

def second : ℤ := 1000000000

def minute : ℤ := 60*second

def day : ℤ := 1440*minute

def fiveYears : ℤ := 5*365*day

def wholeSecond (t : ℤ) : ℤ := t - t % second

/-- A parsed cron expression: `next t` is the least fire time strictly after `t`, or the
zero time when there is none within five years. -/
structure Cron where
  next : ℤ → ℤ
  fires : ℤ → Prop
  next_fires : ∀ t, next t ≠ 0 → fires (next t)
  next_after : ∀ t, next t ≠ 0 → t < next t
  next_least : ∀ t f, next t ≠ 0 → fires f → t < f → next t ≤ f
  next_found : ∀ t f, fires f → t < f → f ≤ t+fiveYears → next t ≠ 0
  fires_whole : ∀ f, fires f → second ∣ f

/-- The expression `* * * * *`. -/
def everyMinute : Cron where
  next t := if t < 0 then minute else (t / minute+1)*minute
  fires f := 0 < f ∧ minute ∣ f
  next_fires t _ := by
    simp only [minute, second]
    split_ifs
    · exact ⟨by omega, dvd_refl _⟩
    · exact ⟨by omega, Dvd.intro_left _ rfl⟩
  next_after t _ := by
    simp only [minute, second]
    split_ifs <;> omega
  next_least t f _ hf ht := by
    obtain ⟨hpos, k, rfl⟩ := hf
    simp only [minute, second] at *
    split_ifs <;> omega
  next_found t f _ _ _ := by
    simp only [minute, second]
    split_ifs <;> omega
  fires_whole f hf := Dvd.dvd.trans (by decide) hf.2

/-- A schedule entry. A cron entry holds the parsed expression and what parsing its text
again would give; a one-off entry holds its time and its fingerprint. -/
inductive Schedule
  | cron (parsed expression : Option Cron)
  | oneOff (atTime : Option ℤ) (fingerprint : String)

namespace Schedule

def isCron : Schedule → Bool
  | .cron .. => true
  | .oneOff .. => false

def isOneOff : Schedule → Bool
  | .cron .. => false
  | .oneOff .. => true

def parsed : Schedule → Option Cron
  | .cron parsed _ => parsed
  | .oneOff .. => none

def parsedCron : Schedule → Option Cron
  | .cron parsed expression => parsed <|> expression
  | .oneOff .. => none

def dueAt (s : Schedule) (now : ℤ) : Option ℤ :=
  match s.parsedCron with
  | none => none
  | some c => if now < c.next (now - second) then none else some (c.next (now - second))

end Schedule

/-- Within the second before `now` there is one whole second only, and fire times are
whole seconds. -/
lemma dueAt_eq_wholeSecond {s : Schedule} {now t : ℤ} (hrecurs : ∀ c, s.parsedCron = some c → c.next (now - second) ≠ 0)
    (h : s.dueAt now = some t) : t = wholeSecond now := by
  unfold Schedule.dueAt at h
  cases hc : s.parsedCron with
  | none => simp [hc] at h
  | some c =>
    simp only [hc] at h
    split_ifs at h with hlate
    obtain rfl : c.next (now - second) = t := by simpa using h
    have hne := hrecurs c hc
    have hafter := c.next_after _ hne
    obtain ⟨k, hk⟩ := c.fires_whole _ (c.next_fires _ hne)
    unfold wholeSecond
    simp only [second] at hafter hlate hk ⊢
    omega

lemma wholeSecond_le (t : ℤ) : wholeSecond t ≤ t := by
  have := Int.emod_nonneg t (show second ≠ 0 by decide)
  unfold wholeSecond
  omega

lemma wholeSecond_mono {s t : ℤ} (h : s ≤ t) : wholeSecond s ≤ wholeSecond t := by
  simp only [wholeSecond, second]
  omega

/-! ### Catch-up intervals -/

def computeReplayFrom (catchupWindow : ℤ) (lastTick lastScheduledTime now : ℤ) : ℤ :=
  let earliest := now - catchupWindow
  let earliest := if earliest < lastTick then lastTick else earliest
  if earliest < lastScheduledTime then lastScheduledTime else earliest

lemma computeReplayFrom_eq_max (w : ℤ) (lastTick lst now : ℤ) :
    computeReplayFrom w lastTick lst now = max (max (now - w) lastTick) lst := by
  simp only [computeReplayFrom]
  split_ifs <;> omega

def maxMissedRuns : ℕ := 1000

namespace Cron

/-- The inner loop from `t`: collect, step, and stop past `replayTo` or when the next time
does not grow. The fuel counts the nanoseconds left. -/
def walk (c : Cron) (replayTo : ℤ) : ℕ → ℤ → List ℤ
  | 0, _ => []
  | k+1, t =>
    if replayTo < t then []
    else t::(if t < c.next t then c.walk replayTo k (c.next t) else [])

def walkFrom (c : Cron) (replayFrom replayTo : ℤ) : List ℤ :=
  c.walk replayTo (replayTo+1 - c.next replayFrom).toNat (c.next replayFrom)

variable {c : Cron} {replayFrom replayTo f t : ℤ}

lemma mem_walk_bounds {k} (h : f ∈ c.walk replayTo k t) : t ≤ f ∧ f ≤ replayTo := by
  induction k generalizing t with
  | zero => simp [walk] at h
  | succ k ih =>
    unfold walk at h
    split_ifs at h with hend hgrow
    · simp at h
    · rcases mem_cons.mp h with rfl | h
      · omega
      · have := ih h
        omega
    · obtain rfl : f = t := by simpa using h
      omega

lemma mem_walk {k : ℕ} (hfires : c.fires f) (hle : t ≤ f) (hend : f ≤ replayTo)
    (hnear : f ≤ t+fiveYears) (hk : (replayTo+1 - t).toNat ≤ k) : f ∈ c.walk replayTo k t := by
  induction k generalizing t with
  | zero => omega
  | succ k ih =>
    unfold walk
    rw [if_neg (by omega)]
    rcases hle.eq_or_lt with rfl | hlt
    · exact mem_cons_self
    have hne := c.next_found t f hfires hlt hnear
    have hafter := c.next_after t hne
    have hleast := c.next_least t f hne hfires hlt
    rw [if_pos hafter]
    exact mem_cons_of_mem _ (ih hleast (by omega) (by omega))

lemma mem_walkFrom (hfires : c.fires f) (hlt : replayFrom < f) (hend : f ≤ replayTo)
    (hnear : f ≤ replayFrom+fiveYears) : f ∈ c.walkFrom replayFrom replayTo := by
  have hne := c.next_found _ f hfires hlt hnear
  have hafter := c.next_after _ hne
  have hleast := c.next_least _ f hne hfires hlt
  exact mem_walk hfires hleast hend (by omega) le_rfl

lemma lt_of_mem_walkFrom (hne : c.next replayFrom ≠ 0) (h : f ∈ c.walkFrom replayFrom replayTo) : replayFrom < f :=
  (c.next_after _ hne).trans_le (mem_walk_bounds h).1

end Cron

def addUnseen (result : List ℤ) (t : ℤ) : List ℤ := if t ∈ result then result else result++[t]

variable (schedules : List Schedule)

def collectMissed (replayFrom replayTo : ℤ) : List ℤ :=
  schedules.foldl (fun result s =>
    match s.parsed with
    | none => result
    | some c => (c.walkFrom replayFrom replayTo).foldl addUnseen result) []

def computeMissedIntervals (replayFrom replayTo : ℤ) : List ℤ :=
  let result := (collectMissed schedules replayFrom replayTo).insertionSort (· ≤ ·)
  if maxMissedRuns < result.length then result.drop (result.length - maxMissedRuns) else result

lemma mem_foldl_addUnseen {f} {ts result : List ℤ} : f ∈ ts.foldl addUnseen result ↔ f ∈ result ∨ f ∈ ts := by
  induction ts generalizing result with
  | nil => simp
  | cons t ts ih =>
    rw [foldl_cons, ih, addUnseen]
    split_ifs with h
    · grind
    · simp [or_assoc]

lemma mem_collectMissed {schedules replayFrom replayTo f} : f ∈ collectMissed schedules replayFrom replayTo ↔
      ∃ s ∈ schedules, ∃ c, s.parsed = some c ∧ f ∈ c.walkFrom replayFrom replayTo := by
  suffices h : ∀ result : List ℤ, f ∈ schedules.foldl (fun result s =>
      match s.parsed with
      | none => result
      | some c => (c.walkFrom replayFrom replayTo).foldl addUnseen result) result ↔
      f ∈ result ∨ ∃ s ∈ schedules, ∃ c, s.parsed = some c ∧ f ∈ c.walkFrom replayFrom replayTo by
    simpa [collectMissed] using h []
  induction schedules with
  | nil => simp
  | cons s schedules ih =>
    intro result
    rw [foldl_cons, ih]
    cases hp : s.parsed with
    | none => simp [hp]
    | some c => simp [hp, mem_foldl_addUnseen, or_assoc]

section
variable {schedules : List Schedule} {replayFrom replayTo f : ℤ}

lemma computeMissedIntervals_sublist : (computeMissedIntervals schedules replayFrom replayTo).Sublist
    ((collectMissed schedules replayFrom replayTo).insertionSort (· ≤ ·)) := by
  simp only [computeMissedIntervals]
  split_ifs
  · exact drop_sublist _ _
  · exact List.Sublist.refl _

lemma computeMissedIntervals_sorted : (computeMissedIntervals schedules replayFrom replayTo).Pairwise (· ≤ ·) :=
  (pairwise_insertionSort (· ≤ ·) _).sublist computeMissedIntervals_sublist

lemma length_computeMissedIntervals_le :
    (computeMissedIntervals schedules replayFrom replayTo).length ≤ maxMissedRuns := by
  simp only [computeMissedIntervals]
  split_ifs with h
  · rw [length_drop]
    omega
  · omega

lemma exists_walk_of_mem (h : f ∈ computeMissedIntervals schedules replayFrom replayTo) :
    ∃ s ∈ schedules, ∃ c, s.parsed = some c ∧ f ∈ c.walkFrom replayFrom replayTo :=
  mem_collectMissed.mp ((mem_insertionSort _).mp (computeMissedIntervals_sublist.subset h))

/-- While the cap does not bite, no fire time after `replayFrom` is missing. -/
lemma mem_computeMissedIntervals {s : Schedule} {c : Cron} (hs : s ∈ schedules)
    (hc : s.parsed = some c) (hfires : c.fires f) (hlt : replayFrom < f) (hend : f ≤ replayTo)
    (hnear : f ≤ replayFrom+fiveYears) (hcap : (collectMissed schedules replayFrom replayTo).length ≤ maxMissedRuns) :
    f ∈ computeMissedIntervals schedules replayFrom replayTo := by
  have hmem : f ∈ collectMissed schedules replayFrom replayTo :=
    mem_collectMissed.mpr ⟨s, hs, c, hc, Cron.mem_walkFrom hfires hlt hend hnear⟩
  simp only [computeMissedIntervals, length_insertionSort]
  rw [if_neg (by omega)]
  exact (mem_insertionSort _).mpr hmem

end

/-! The tick planner (`internal/service/scheduler/tick_planner.go`, `schedule_buffer.go`,
`schedule_state.go`) as it treats one DAG name. Entries, buffers and watermarks are maps keyed
by the name, and no operation on one name reads or writes those of another; only the last
tick is shared. Every answer of the environment is an argument. -/

inductive OverlapPolicy
  | skip | all | latest | unknown
  deriving DecidableEq

structure Dag where
  (schedule stopSchedule restartSchedule : List Schedule)
  catchupWindow : ℤ
  overlapPolicy : OverlapPolicy
  skipIfSuccessful : Bool

inductive TriggerType
  | unknown | scheduler | catchUp
  deriving DecidableEq

inductive ScheduleType
  | start | stop | restart
  deriving DecidableEq

structure PlannedRun where
  dag : Dag
  scheduledTime : ℤ
  triggerType : TriggerType
  scheduleType : ScheduleType
  schedule : Option Schedule

namespace PlannedRun

def isCron (r : PlannedRun) : Bool := r.schedule.any Schedule.isCron

def isOneOff (r : PlannedRun) : Bool := r.schedule.any Schedule.isOneOff

variable (r : PlannedRun)

/-- The runs for which `Advance` moves the watermark. -/
def isLiveCron : Bool := r.scheduleType = .start && r.triggerType ≠ .catchUp && r.isCron

def isCatchup : Bool := r.scheduleType = .start && r.triggerType = .catchUp

end PlannedRun

/-! ### The catch-up buffer -/

structure QueueItem where
  dag : Dag
  scheduledTime : ℤ

structure ScheduleBuffer where
  items : List QueueItem
  overlapPolicy : OverlapPolicy

def defaultMaxBufferItems : ℕ := 1000

namespace ScheduleBuffer
variable (q : ScheduleBuffer)

def times : List ℤ := q.items.map QueueItem.scheduledTime

variable (item : QueueItem)

def send : Option ScheduleBuffer :=
  if defaultMaxBufferItems ≤ q.items.length then none
  else some {q with items := q.items++[item]}

def sendAll (q : ScheduleBuffer) : List QueueItem → ScheduleBuffer
  | [] => q
  | item::rest =>
    match q.send item with
    | none => q
    | some q => q.sendAll rest

def prepend : Option ScheduleBuffer :=
  if defaultMaxBufferItems ≤ q.items.length then none
  else some {q with items := item::q.items}

end ScheduleBuffer

/-! ### Watermarks -/

inductive OneOffStatus
  | pending | consumed
  deriving DecidableEq

structure OneOffScheduleState where
  scheduledTime : ℤ
  status : OneOffStatus
  deriving DecidableEq

structure DAGWatermark where
  lastScheduledTime : ℤ
  oneOffs : List (String × OneOffScheduleState)
  deriving DecidableEq

def DAGWatermark.zero : DAGWatermark := ⟨0, []⟩

structure SchedulerState where
  lastTick : ℤ
  dag : Option DAGWatermark
  deriving DecidableEq

def SchedulerState.lastScheduledTime (w : SchedulerState) : ℤ := (w.dag.getD .zero).lastScheduledTime

def setOneOff (oneOffs : List (String × OneOffScheduleState)) (fingerprint : String)
    (state : OneOffScheduleState) : List (String × OneOffScheduleState) :=
  (fingerprint, state)::oneOffs.filter fun e => e.1 ≠ fingerprint

/-- One turn of the first loop of `reconcileOneOffState`. -/
def reconcileOne (now : ℤ) (acc : List (String × OneOffScheduleState) × Bool) :
    Schedule → List (String × OneOffScheduleState) × Bool
  | .oneOff (some scheduledTime) fingerprint =>
    if fingerprint = "" then acc
    else
      match acc.1.lookup fingerprint with
      | some existing =>
        if existing.scheduledTime = 0 then
          (setOneOff acc.1 fingerprint {existing with scheduledTime := scheduledTime}, true)
        else acc
      | none => (setOneOff acc.1 fingerprint ⟨scheduledTime, if now ≤ scheduledTime then .pending else .consumed⟩, true)
  | _ => acc

variable (dag : Dag)

def activeFingerprints : List String :=
  dag.schedule.filterMap fun
    | .oneOff _ fingerprint => if fingerprint = "" then none else some fingerprint
    | .cron .. => none

def reconcileOneOffState (current : DAGWatermark) (dag : Dag) (now : ℤ) : DAGWatermark × Bool :=
  let added := dag.schedule.foldl (reconcileOne now) (current.oneOffs, false)
  let kept := added.1.filter fun e => e.1 ∈ activeFingerprints dag
  ({current with oneOffs := kept}, added.2 || kept.length ≠ added.1.length)

def reconcileWatermark (w : Option DAGWatermark) (dag : Dag) (now : ℤ) : Option DAGWatermark × Bool :=
  let next := reconcileOneOffState (w.getD .zero) dag now
  if next.2 then
    (if next.1.lastScheduledTime = 0 ∧ next.1.oneOffs = [] then none else some next.1, true)
  else (w, false)

/-! ### The planner -/

structure Config where
  queuesEnabled : Bool
  /-- `Enqueue` is configured. -/
  enqueue : Bool

structure Planner where
  entry : Option Dag
  buffer : Option ScheduleBuffer
  watermarkState : SchedulerState
  watermarkDirty : Bool
  lastPlanResult : List PlannedRun

namespace Planner

def lastScheduledTime (p : Planner) : ℤ := p.watermarkState.lastScheduledTime

variable (p : Planner)

def buffered : List ℤ := (p.buffer.map ScheduleBuffer.times).getD []

def setLastScheduledTime (t : ℤ) : Planner :=
  {p with
    watermarkState := {p.watermarkState with
      dag := some {p.watermarkState.dag.getD .zero with lastScheduledTime := t}}
    watermarkDirty := true}

def advanceDAGWatermark (t : ℤ) : Planner × Bool :=
  if p.lastScheduledTime = t then (p, false) else (p.setLastScheduledTime t, true)

variable (q : ScheduleBuffer)

def setItems (items : List QueueItem) : Planner :=
  {p with buffer := if items.isEmpty then none else some {q with items := items}}

/-- `DropAllButLast`, with the watermark moved past the dropped items. -/
def dropToLatest : Planner × Bool :=
  match q.items.dropLast.getLast? with
  | none => ({p with buffer := some q}, false)
  | some dropped =>
    let advanced := p.advanceDAGWatermark dropped.scheduledTime
    ({advanced.1 with buffer := some {q with items := q.items.getLast?.toList}}, advanced.2)

/-- The missed fire times that the watermarks leave at `now`. -/
def missed (dag : Dag) (now : ℤ) : List ℤ :=
  computeMissedIntervals dag.schedule
    (computeReplayFrom dag.catchupWindow p.watermarkState.lastTick p.lastScheduledTime now) now

/-- `recomputeBuffer`, which `initBuffers` repeats for every DAG. -/
def recomputeBuffer (cfg : Config) (p : Planner) (dag : Dag) (now : ℤ) : Planner × Bool :=
  if !cfg.queuesEnabled || (p.missed dag now).isEmpty then (p, false)
  else
    let q := ScheduleBuffer.sendAll ⟨[], dag.overlapPolicy⟩ ((p.missed dag now).map (QueueItem.mk dag))
    if dag.overlapPolicy = .latest then p.dropToLatest q else ({p with buffer := some q}, false)

def reconcileOneOffSchedules (dag : Dag) (now : ℤ) : Planner × Bool :=
  let next := reconcileWatermark p.watermarkState.dag dag now
  if next.2 then
    ({p with
      watermarkState := {p.watermarkState with dag := next.1}
      watermarkDirty := true}, true)
  else (p, false)

/-- `Init` on what the store gave. The flag says that the state is flushed at the end. -/
def init (cfg : Config) (loaded : SchedulerState) (dag : Option Dag) (now observedAt : ℤ) : Planner × Bool :=
  match dag with
  | none => (⟨none, none, {loaded with dag := none}, loaded.dag.isSome, []⟩, loaded.dag.isSome)
  | some dag =>
    let p := reconcileOneOffSchedules ⟨some dag, none, loaded, false, []⟩ dag observedAt
    (if 0 < dag.catchupWindow then (p.1.recomputeBuffer cfg dag now).1 else p.1, p.2)

end Planner

/-! ### Plan and Advance -/

structure LatestStatus where
  status : Status
  /-- `StartedAt`, when it parses. -/
  startedAt : Option ℤ
  /-- `QueuedAt`, when it is set and parses. -/
  queuedAt : Option ℤ

/-- The answers to the queries of one guard; `none` is an error. -/
structure Answers where
  (isRunning isQueued : Option Bool)
  latestStatus : Option LatestStatus

/-- The answers one `Plan` gets for the DAG. Each evaluation asks anew: the catch-up check,
each one-off and cron schedule, each stop schedule. -/
structure PlanEnv where
  suspended : Bool
  (catchupRunning catchupQueued : Option Bool)
  oneOff : ℕ → Answers
  cron : ℕ → Answers
  genRunID : ℕ → Bool
  stop : ℕ → Option LatestStatus

def Answers.free (a : Answers) : Bool := a.isRunning = some false && a.isQueued = some false

def shouldRunOneOff (a : Answers) : Bool := a.free && a.latestStatus.any fun latest => latest.status ≠ .running

/-- The walk of `computePrevExecTime` from `t`. -/
def Cron.lastBefore (c : Cron) (next : ℤ) : ℕ → ℤ → ℤ → ℤ
  | 0, _, prev => prev
  | k+1, t, prev => if t < next then c.lastBefore next k (c.next t) t else prev

/-- `t.Sub(u)`: durations have 64 bits and saturate. -/
def Duration.between (t u : ℤ) : ℤ := max (-2 ^ 63) (min (t - u) (2 ^ 63 - 1))

def Duration.neg (d : ℤ) : ℤ := if d = -2 ^ 63 then d else -d

def computePrevExecTime (next : ℤ) (schedule : Schedule) : ℤ :=
  match schedule.parsed with
  | none => next
  | some c =>
    let prev := c.lastBefore next (32*86400+1) (c.next (next - 32*day)) 0
    if prev = 0 then next+Duration.neg (Duration.between (c.next (next+second)) next) else prev

def LatestStatus.started (latest : LatestStatus) : Option ℤ :=
  latest.startedAt.map fun startedAt =>
    let started :=
      match latest.queuedAt with
      | some queuedAt => if queuedAt < startedAt then queuedAt else startedAt
      | none => startedAt
    started - started % minute

/-- The guards of `shouldRun` on the latest run: not running, not started since the
scheduled time, and not succeeded since the fire time before it. -/
def passesLatest (latest : LatestStatus) (scheduledTime : ℤ) (schedule : Schedule) : Bool :=
  latest.status ≠ .running &&
    match latest.started with
    | none => true
    | some started =>
      started < scheduledTime &&
        !(dag.skipIfSuccessful && latest.status = .succeeded && schedule.parsed.isSome &&
          computePrevExecTime scheduledTime schedule ≤ started && started < scheduledTime)

def shouldRun (a : Answers) (scheduledTime : ℤ) (schedule : Schedule) : Bool :=
  a.free && a.latestStatus.any fun latest => passesLatest dag latest scheduledTime schedule

def shouldPreferStartCandidate (candidate : PlannedRun) : Option PlannedRun → Bool
  | none => true
  | some current =>
    candidate.scheduledTime < current.scheduledTime ||
      (candidate.scheduledTime = current.scheduledTime && candidate.isOneOff && !current.isOneOff)

def offer (current : Option PlannedRun) (candidate : PlannedRun) : Option PlannedRun :=
  if shouldPreferStartCandidate candidate current then some candidate else current

inductive CatchupOutcome
  | idle | deferred
  | produced (run : PlannedRun)

namespace Planner
variable (p : Planner)

def pendingOneOffState (fingerprint : String) : Option OneOffScheduleState :=
  ((p.watermarkState.dag.getD .zero).oneOffs.lookup fingerprint).filter fun state => state.status = .pending

variable (dag : Dag) (now : ℤ)

def dropSuspendedCatchupState : Planner :=
  if p.buffer.isSome then ({p with buffer := none}.advanceDAGWatermark now).1
  else if 0 < dag.catchupWindow then (p.advanceDAGWatermark now).1
  else p

def catchupRun (item : QueueItem) : PlannedRun := ⟨item.dag, item.scheduledTime, .catchUp, .start, none⟩

variable (q : ScheduleBuffer)

/-- The front item is taken, for `latest` after dropping all but the last. -/
def popCatchup (item : QueueItem) (rest : List QueueItem) : Planner × CatchupOutcome :=
  if q.overlapPolicy = .latest then
    ({(p.dropToLatest q).1 with buffer := none}, .produced (catchupRun (rest.getLast?.getD item)))
  else (p.setItems q rest, .produced (catchupRun item))

def overlapCatchup (item : QueueItem) (rest : List QueueItem) : Planner :=
  match q.overlapPolicy with
  | .all => p
  | .latest => (p.dropToLatest q).1
  | .skip | .unknown => ((p.setItems q rest).advanceDAGWatermark item.scheduledTime).1

variable (env : PlanEnv)

def catchupBusy (queued : Bool) : Bool := env.catchupRunning.getD false || queued

def planCatchup : Planner × CatchupOutcome :=
  match p.buffer with
  | none => (p, .idle)
  | some q =>
    match q.items with
    | [] => ({p with buffer := none}, .idle)
    | item::rest =>
      match env.catchupQueued with
      | none => (p, .deferred)
      | some queued =>
        if catchupBusy env queued then (p.overlapCatchup q item rest, .idle)
        else p.popCatchup q item rest

def oneOffCandidate (e : Schedule × ℕ) : Option PlannedRun :=
  match e.1 with
  | .cron .. => none
  | .oneOff _ fingerprint =>
    if fingerprint = "" then none
    else
      match p.pendingOneOffState fingerprint with
      | none => none
      | some state =>
        if state.scheduledTime ≤ now && shouldRunOneOff (env.oneOff e.2) then
          some ⟨dag, state.scheduledTime, .scheduler, .start, some e.1⟩
        else none

def cronCandidate (e : Schedule × ℕ) : Option PlannedRun :=
  match e.1.dueAt now with
  | none => none
  | some next =>
    if shouldRun dag (env.cron e.2) next e.1 && env.genRunID e.2 then
      some ⟨dag, next, .scheduler, .start, some e.1⟩
    else none

def startCandidate : Option PlannedRun :=
  (dag.schedule.zipIdx.filterMap (p.oneOffCandidate dag now env) ++
    dag.schedule.zipIdx.filterMap (cronCandidate dag now env)).foldl offer none

/-- Stop and restart runs. Their `Cron` is the expression read in the configured location. -/
def controlRuns : List PlannedRun :=
  (dag.stopSchedule.zipIdx.filterMap fun e =>
    (e.1.dueAt now).bind fun next =>
      if (env.stop e.2).any fun latest => latest.status = .running then
        some ⟨dag, next, .unknown, .stop, none⟩
      else none) ++
  dag.restartSchedule.filterMap fun s => (s.dueAt now).map fun next => ⟨dag, next, .unknown, .restart, none⟩

def liveRuns : List PlannedRun := (p.startCandidate dag now env).toList++controlRuns dag now env

def planEntry : Planner × List PlannedRun :=
  if env.suspended then (p.dropSuspendedCatchupState dag now, [])
  else
    match p.planCatchup env with
    | (p, .produced run) => (p, [run])
    | (p, .deferred) => (p, [])
    | (p, .idle) => (p, p.liveRuns dag now env)

def plan : Planner × List PlannedRun :=
  let planned :=
    match p.entry with
    | none => (p, [])
    | some dag => p.planEntry dag now env
  ({planned.1 with lastPlanResult := planned.2}, planned.2)

def advanceRun (run : PlannedRun) : Planner := if run.isLiveCron then p.setLastScheduledTime run.scheduledTime else p

def advance : Planner :=
  let ticked := {p with
    watermarkState := {p.watermarkState with lastTick := now}, watermarkDirty := true}
  {p.lastPlanResult.foldl advanceRun ticked with lastPlanResult := []}

end Planner
end Ayatsuri.Scheduler
