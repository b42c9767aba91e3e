import Ayatsuri.TickPlanner
import Ayatsuri.TransitionSystem

/-! The planner among the scheduler's goroutines: the cron loop plans, dispatches and
advances, the drainer handles DAG change events, the flusher stores the watermarks, and a
restart starts over from what was stored. Each step is one critical section; `inFlight` holds
the runs that `Plan` returned and `DispatchRun` has not been called for. -/
namespace Ayatsuri.Scheduler

/-- The answers one `DispatchRun` gets. `call` is the result of `Enqueue` or `Dispatch`. -/
structure DispatchEnv where
  suspended : Bool
  runExists : Option Bool
  call : Bool
  runExistsAfter : Option Bool
  deriving DecidableEq

namespace Planner
variable (p : Planner)

def markOneOffConsumed (fingerprint : String) (scheduledTime : ℤ) : Planner × Bool :=
  if fingerprint = "" then (p, false)
  else
    let dagState := p.watermarkState.dag.getD .zero
    let state := (dagState.oneOffs.lookup fingerprint).getD ⟨scheduledTime, .pending⟩
    if state.status = .consumed then (p, false)
    else
      let time := if state.scheduledTime = 0 then scheduledTime else state.scheduledTime
      ({p with
        watermarkState := {p.watermarkState with
          dag := some {dagState with
            oneOffs := setOneOff dagState.oneOffs fingerprint ⟨time, .consumed⟩}}
        watermarkDirty := true}, true)

variable (run : PlannedRun)

def reinsertCatchupItem : Planner :=
  let q := p.buffer.getD ⟨[], run.dag.overlapPolicy⟩
  {p with buffer := some ((q.prepend ⟨run.dag, run.scheduledTime⟩).getD q)}

def dispatchOneOff (fingerprint : String) (a : DispatchEnv) : Planner × Bool :=
  match a.runExists with
  | none => (p, false)
  | some true => p.markOneOffConsumed fingerprint run.scheduledTime
  | some false =>
    if a.call || a.runExistsAfter = some true then
      p.markOneOffConsumed fingerprint run.scheduledTime
    else (p, false)

variable (cfg : Config)

def dispatchCatchup (p : Planner) (run : PlannedRun) (a : DispatchEnv) : Planner :=
  if a.suspended then (p.advanceDAGWatermark run.scheduledTime).1
  else if !cfg.enqueue then p
  else if a.call then (p.advanceDAGWatermark run.scheduledTime).1
  else p.reinsertCatchupItem run

/-- `DispatchRun`; the flag says that the state is flushed at the end. Stop and restart runs
do not touch the planner. -/
def dispatchRun (p : Planner) (run : PlannedRun) (a : DispatchEnv) : Planner × Bool :=
  if run.isCatchup then (p.dispatchCatchup cfg run a, false)
  else
    match run.scheduleType, run.schedule with
    | .start, some (.oneOff _ fingerprint) =>
      if a.suspended then (p, false) else p.dispatchOneOff run fingerprint a
    | _, _ => (p, false)

def handleAdded (dag : Dag) (now observedAt : ℤ) : Planner × Bool :=
  let advanced := {p with entry := some dag}.advanceDAGWatermark now
  let reconciled := advanced.1.reconcileOneOffSchedules dag observedAt
  (reconciled.1, reconciled.2 || advanced.2)

def handleUpdated (p : Planner) (dag : Dag) (now observedAt : ℤ) : Planner × Bool :=
  let p := {p with entry := some dag, buffer := none}
  let recomputed := if 0 < dag.catchupWindow then p.recomputeBuffer cfg dag now else (p, false)
  let reconciled := recomputed.1.reconcileOneOffSchedules dag observedAt
  (reconciled.1, reconciled.2 || recomputed.2)

def handleDeleted : Planner :=
  {p with
    entry := none
    buffer := none
    watermarkState := {p.watermarkState with dag := none}
    watermarkDirty := true}

end Planner

structure State where
  planner : Planner
  store : SchedulerState
  inFlight : List PlannedRun
  tick : ℤ
  (planned enqueued : List ℤ)

inductive Label
  | restart (dag : Option Dag) (load save : Bool) (now observedAt : ℤ)
  | plan (now : ℤ) (env : PlanEnv)
  | dispatch (i : ℕ) (a : DispatchEnv) (save : Bool)
  | advance (now : ℤ)
  | added (dag : Dag) (now observedAt : ℤ) (save : Bool)
  | updated (dag : Dag) (now observedAt : ℤ) (save : Bool)
  | deleted (save : Bool)
  | flush (save : Bool)

namespace State
variable (s : State)

/-- `Flush`: stores a dirty state, unless saving fails. -/
def flush (save : Bool) : State :=
  if s.planner.watermarkDirty && save then
    {s with
      planner := {s.planner with watermarkDirty := false}
      store := s.planner.watermarkState}
  else s

def settle (r : Planner × Bool) (save : Bool) : State :=
  let s := {s with planner := r.1}
  if r.2 then s.flush save else s

/-- What `Init` loads; after a failed load it starts with an empty state. -/
def loaded (load : Bool) : SchedulerState := if load then s.store else ⟨0, none⟩

end State

variable (runs : List PlannedRun)

def startTimes : List ℤ := (runs.filter fun r => r.scheduleType = .start).map PlannedRun.scheduledTime

def catchupTimes : List ℤ := (runs.filter PlannedRun.isCatchup).map PlannedRun.scheduledTime

variable (cfg : Config)

def enqueues (run : PlannedRun) (a : DispatchEnv) : Bool := run.isCatchup && !a.suspended && cfg.enqueue && a.call

variable (s : State)

def step : Label → Option State
  | .restart dag load save now observedAt =>
    some ({s with inFlight := []}.settle (Planner.init cfg (s.loaded load) dag now observedAt) save)
  | .plan now env =>
    let planned := s.planner.plan now env
    some {s with
      planner := planned.1
      inFlight := s.inFlight++planned.2
      tick := now
      planned := startTimes planned.2++s.planned}
  | .dispatch i a save =>
    match s.inFlight[i]? with
    | none => none
    | some run =>
      some ({s with
        inFlight := s.inFlight.eraseIdx i
        enqueued := if enqueues cfg run a then run.scheduledTime::s.enqueued else s.enqueued
        }.settle (s.planner.dispatchRun cfg run a) save)
  | .advance now => some {s with planner := s.planner.advance now, tick := now}
  | .added dag now observedAt save => some (s.settle (s.planner.handleAdded dag now observedAt) save)
  | .updated dag now observedAt save => some (s.settle (s.planner.handleUpdated cfg dag now observedAt) save)
  | .deleted save => some (s.settle (s.planner.handleDeleted, true) save)
  | .flush save => some (s.flush save)

variable (store : SchedulerState)

/-- Before the first `Init`, with whatever the store holds. -/
def State.blank : State := ⟨⟨none, none, ⟨0, none⟩, false, []⟩, store, [], 0, [], []⟩

/-- Just after the first `Init`. -/
def start (dag : Option Dag) (load save : Bool) (now observedAt : ℤ) : State :=
  (State.blank store).settle (Planner.init cfg ((State.blank store).loaded load) dag now observedAt) save

/-! ### A small DAG -/

/-- Every minute, a window of two minutes, policy `all`. -/
def minutely : Dag := ⟨[.cron (some everyMinute) none], [], [], 2*minute, .all, false⟩

def idleEnv : PlanEnv :=
  ⟨false, some false, some false, fun _ => ⟨none, none, none⟩, fun _ => ⟨none, none, none⟩, fun _ => false, fun _ => none⟩

def queued : Config := ⟨true, true⟩

def dispatched : DispatchEnv := ⟨false, none, true, none⟩

/-- `Init` at minute ten of a fresh store. -/
def tenth : State := start queued ⟨0, none⟩ (some minutely) true true (10*minute) (10*minute)

/-! What each planner operation changes: the watermark alone, the buffer alone, or both. -/

open List ScheduleBuffer

namespace Planner

/-- Only the watermark of the DAG changed, and it now stands at `t`. -/
structure Remarked (p p' : Planner) (t : ℤ) : Prop where
  entry : p'.entry = p.entry
  buffer : p'.buffer = p.buffer
  result : p'.lastPlanResult = p.lastPlanResult
  lastTick : p'.watermarkState.lastTick = p.watermarkState.lastTick
  time : p'.lastScheduledTime = t

variable (p : Planner)

lemma remarked_set (t : ℤ) : Remarked p (p.setLastScheduledTime t) t := ⟨rfl, rfl, rfl, rfl, rfl⟩

lemma remarked_advance (t : ℤ) : Remarked p (p.advanceDAGWatermark t).1 t := by
  unfold advanceDAGWatermark
  split_ifs with h
  · exact ⟨rfl, rfl, rfl, rfl, h⟩
  · exact remarked_set p t

lemma remarked_reconcile (dag : Dag) (now : ℤ) :
    Remarked p (p.reconcileOneOffSchedules dag now).1 p.lastScheduledTime := by
  unfold reconcileOneOffSchedules
  dsimp only
  split_ifs with h
  · refine ⟨rfl, rfl, rfl, rfl, ?_⟩
    unfold reconcileWatermark at h ⊢
    dsimp only at h ⊢
    split_ifs at h ⊢ with hnext hzero
    · exact hzero.1.symm
    · rfl
  · exact ⟨rfl, rfl, rfl, rfl, rfl⟩

lemma remarked_consumed (fingerprint : String) (t : ℤ) :
    Remarked p (p.markOneOffConsumed fingerprint t).1 p.lastScheduledTime := by
  unfold markOneOffConsumed
  dsimp only
  split_ifs <;> exact ⟨rfl, rfl, rfl, rfl, rfl⟩

lemma Remarked.buffered {p p' : Planner} {t} (h : Remarked p p' t) :
    p'.buffered = p.buffered := congrArg (fun b => (b.map times).getD []) h.buffer

lemma buffered_eq_times {p : Planner} {q : ScheduleBuffer} (h : p.buffer = some q) : p.buffered = q.times := by
  simp [Planner.buffered, h]

lemma times_getD (policy : OverlapPolicy) : (p.buffer.getD ⟨[], policy⟩).times = p.buffered := by
  cases hb : p.buffer <;> simp [Planner.buffered, hb, times]

lemma buffered_of_none {p : Planner} (h : p.buffer = none) : p.buffered = [] := by simp [Planner.buffered, h]

@[simp] lemma buffered_setItems (q : ScheduleBuffer) (items : List QueueItem) :
    (p.setItems q items).buffered = items.map QueueItem.scheduledTime := by cases items <;> rfl

end Planner

/-! ### Filling a buffer -/

lemma sendAll_eq (q : ScheduleBuffer) (items : List QueueItem)
    (h : q.items.length+items.length ≤ defaultMaxBufferItems) :
    q.sendAll items = {q with items := q.items++items} := by
  induction items generalizing q with
  | nil => simp [sendAll]
  | cons item items ih =>
    rw [length_cons] at h
    have hsend : q.send item = some {q with items := q.items++[item]} := if_neg (by omega)
    have hlen : (q.items++[item]).length+items.length ≤ defaultMaxBufferItems := by
      simp only [length_append, length_singleton]
      omega
    simp only [sendAll, hsend]
    rw [ih _ hlen]
    simp

lemma sendAll_missed (p : Planner) (dag : Dag) (now : ℤ) :
    sendAll ⟨[], dag.overlapPolicy⟩ ((p.missed dag now).map (QueueItem.mk dag)) =
      ⟨(p.missed dag now).map (QueueItem.mk dag), dag.overlapPolicy⟩ := by
  have hlen : (p.missed dag now).length ≤ maxMissedRuns := length_computeMissedIntervals_le
  rw [sendAll_eq]
  · simp
  · simpa [defaultMaxBufferItems, maxMissedRuns] using hlen

lemma times_map_mk (dag : Dag) (ts : List ℤ) (policy : OverlapPolicy) :
    times ⟨ts.map (QueueItem.mk dag), policy⟩ = ts := by simp [times, Function.comp_def]

namespace Planner
variable {cfg : Config} {p : Planner} {dag : Dag} {now : ℤ}

lemma buffered_recompute (hq : cfg.queuesEnabled) (hpolicy : dag.overlapPolicy ≠ .latest)
    (hnone : p.buffer = none) : (p.recomputeBuffer cfg dag now).1.buffered = p.missed dag now := by
  unfold recomputeBuffer
  rw [sendAll_missed]
  split_ifs with h
  · have : p.missed dag now = [] := by simpa [hq] using h
    simp [this, buffered, hnone]
  · simp [buffered, times_map_mk]

lemma exists_init (cfg : Config) (loaded : SchedulerState) (dag : Dag) (now observedAt : ℤ) :
    ∃ p : Planner, p.entry = some dag ∧ p.buffer = none ∧ p.lastPlanResult = [] ∧
      p.watermarkState.lastTick = loaded.lastTick ∧ p.lastScheduledTime = loaded.lastScheduledTime ∧
      (init cfg loaded (some dag) now observedAt).1 =
        if 0 < dag.catchupWindow then (p.recomputeBuffer cfg dag now).1 else p := by
  have hmark := remarked_reconcile ⟨some dag, none, loaded, false, []⟩ dag observedAt
  exact ⟨_, hmark.entry, hmark.buffer, hmark.result, hmark.lastTick, hmark.time, rfl⟩

/-! ### Planned runs -/

lemma foldl_offer_mem {runs : List PlannedRun} {current r}
    (h : runs.foldl offer current = some r) : r ∈ runs ∨ current = some r := by
  induction runs generalizing current with
  | nil => exact Or.inr h
  | cons run runs ih =>
    rcases ih h with hr | hr
    · exact Or.inl (mem_cons_of_mem _ hr)
    unfold offer at hr
    split_ifs at hr
    · obtain rfl : run = r := by simpa using hr
      exact Or.inl mem_cons_self
    · exact Or.inr hr

variable {env : PlanEnv} {r : PlannedRun} {e : Schedule × ℕ}

lemma cronCandidate_spec (h : cronCandidate dag now env e = some r) :
    ∃ next, e.1.dueAt now = some next ∧ (env.cron e.2).free ∧ r = ⟨dag, next, .scheduler, .start, some e.1⟩ := by
  unfold cronCandidate at h
  split at h
  · simp at h
  next t hdue =>
  split_ifs at h with hrun
  simp only [Bool.and_eq_true, shouldRun] at hrun
  exact ⟨t, hdue, hrun.1.1, (Option.some.inj h).symm⟩

lemma oneOffCandidate_spec (h : p.oneOffCandidate dag now env e = some r) :
    ∃ atTime fingerprint state, e.1 = .oneOff atTime fingerprint ∧
      p.pendingOneOffState fingerprint = some state ∧ state.scheduledTime ≤ now ∧
      r = ⟨dag, state.scheduledTime, .scheduler, .start, some e.1⟩ := by
  unfold oneOffCandidate at h
  split at h
  · simp at h
  next atTime fingerprint he =>
  split_ifs at h
  split at h
  · simp at h
  next state hstate =>
  split_ifs at h with hdue
  simp only [Bool.and_eq_true, decide_eq_true_eq] at hdue
  exact ⟨atTime, fingerprint, state, he, hstate, hdue.1, (Option.some.inj h).symm⟩

lemma startCandidate_cases (h : p.startCandidate dag now env = some r) :
    (∃ e ∈ dag.schedule.zipIdx, p.oneOffCandidate dag now env e = some r) ∨
      ∃ e ∈ dag.schedule.zipIdx, cronCandidate dag now env e = some r := by
  rcases foldl_offer_mem h with hr | hr
  · rcases mem_append.mp hr with hr | hr
    · exact Or.inl (mem_filterMap.mp hr)
    · exact Or.inr (mem_filterMap.mp hr)
  · simp at hr

lemma startCandidate_trigger (h : p.startCandidate dag now env = some r) :
    r.triggerType = .scheduler ∧ r.scheduleType = .start := by
  rcases startCandidate_cases h with ⟨e, -, he⟩ | ⟨e, -, he⟩
  · obtain ⟨_, _, _, -, -, -, rfl⟩ := oneOffCandidate_spec he
    exact ⟨rfl, rfl⟩
  · obtain ⟨_, -, -, rfl⟩ := cronCandidate_spec he
    exact ⟨rfl, rfl⟩

lemma controlRuns_type (h : r ∈ controlRuns dag now env) : r.scheduleType ≠ .start := by
  unfold controlRuns at h
  rcases mem_append.mp h with h | h
  · obtain ⟨s, -, hs⟩ := mem_filterMap.mp h
    obtain ⟨t, -, ht⟩ := Option.bind_eq_some_iff.mp hs
    split_ifs at ht
    cases ht
    simp
  · obtain ⟨s, -, hs⟩ := mem_filterMap.mp h
    obtain ⟨t, -, rfl⟩ := Option.map_eq_some_iff.mp hs
    simp

lemma liveRuns_start (h : r ∈ p.liveRuns dag now env) (hs : r.scheduleType = .start) :
    p.startCandidate dag now env = some r := by
  rcases mem_append.mp h with h | h
  · simpa using h
  · exact absurd hs (controlRuns_type h)

lemma not_isCatchup_of_liveRuns (h : r ∈ p.liveRuns dag now env) : r.isCatchup = false := by
  by_cases hs : r.scheduleType = .start
  · simp [PlannedRun.isCatchup, (startCandidate_trigger (liveRuns_start h hs)).1]
  · simp [PlannedRun.isCatchup, hs]

@[simp] lemma catchupTimes_liveRuns : catchupTimes (p.liveRuns dag now env) = [] := by
  unfold catchupTimes
  rw [filter_eq_nil_iff.mpr fun r hr => by simp [not_isCatchup_of_liveRuns hr]]
  rfl

/-! ### What one Plan can do -/

def takenTimes : CatchupOutcome → List ℤ
  | .produced run => [run.scheduledTime]
  | .idle | .deferred => []

variable (p : Planner) (env : PlanEnv) in
inductive CatchupMove : Planner → CatchupOutcome → Prop
  | absent (noBuffer : p.buffer = none) : CatchupMove p .idle
  | empty (q : ScheduleBuffer) (buffer : p.buffer = some q) (noItems : q.items = []) :
      CatchupMove {p with buffer := none} .idle
  | deferred (q : ScheduleBuffer) (buffer : p.buffer = some q) : CatchupMove p .deferred
  | overlap (q : ScheduleBuffer) (item : QueueItem) (rest : List QueueItem) (queued : Bool)
      (buffer : p.buffer = some q) (items : q.items = item::rest)
      (answer : env.catchupQueued = some queued) (busy : catchupBusy env queued) :
      CatchupMove (p.overlapCatchup q item rest) .idle
  | popped (q : ScheduleBuffer) (item : QueueItem) (rest : List QueueItem)
      (buffer : p.buffer = some q) (items : q.items = item::rest) :
      CatchupMove (p.popCatchup q item rest).1 (p.popCatchup q item rest).2

lemma catchupMove_planCatchup (p : Planner) (env : PlanEnv) :
    CatchupMove p env (p.planCatchup env).1 (p.planCatchup env).2 := by
  unfold planCatchup
  split
  · next hb => exact .absent hb
  next q hb =>
  split
  · next hi => exact .empty q hb hi
  next item rest hi =>
  split
  · exact .deferred q hb
  next queued hanswer =>
  split_ifs with hbusy
  · exact .overlap q item rest queued hb hi hanswer hbusy
  · exact .popped q item rest hb hi

variable {p' : Planner}

lemma CatchupMove.schedule_none (hm : CatchupMove p env p' (.produced r)) : r.schedule = none := by
  generalize ho : CatchupOutcome.produced r = outcome at hm
  cases hm with
  | absent | empty | deferred | overlap => simp at ho
  | popped =>
    unfold popCatchup at ho
    split_ifs at ho <;> exact CatchupOutcome.produced.inj ho ▸ rfl

variable (p : Planner) (now : ℤ) (env : PlanEnv) in
/-- The ways a `Plan` goes, before it records what it returns. -/
inductive PlanMove : Planner → List PlannedRun → Prop
  | unregistered (noEntry : p.entry = none) : PlanMove p []
  | suspended (dag : Dag) (entry : p.entry = some dag) (flag : env.suspended) :
      PlanMove (p.dropSuspendedCatchupState dag now) []
  | produced (dag : Dag) (entry : p.entry = some dag) (p' : Planner) (run : PlannedRun)
      (check : CatchupMove p env p' (.produced run)) : PlanMove p' [run]
  | deferred (dag : Dag) (entry : p.entry = some dag) (p' : Planner)
      (check : CatchupMove p env p' .deferred) : PlanMove p' []
  | live (dag : Dag) (entry : p.entry = some dag) (p' : Planner)
      (check : CatchupMove p env p' .idle) : PlanMove p' (p'.liveRuns dag now env)

lemma exists_planMove (p : Planner) (now : ℤ) (env : PlanEnv) : ∃ p' runs, PlanMove p now env p' runs ∧
      p.plan now env = ({p' with lastPlanResult := runs}, runs) := by
  unfold plan
  cases he : p.entry with
  | none => exact ⟨p, [], .unregistered he, rfl⟩
  | some dag =>
    simp only [planEntry]
    have hcheck := catchupMove_planCatchup p env
    split_ifs with hflag
    · exact ⟨_, _, .suspended dag he hflag, rfl⟩
    rcases hc : p.planCatchup env with ⟨p', outcome⟩
    rw [hc] at hcheck
    cases outcome with
    | idle => exact ⟨_, _, .live dag he p' hcheck, rfl⟩
    | deferred => exact ⟨_, _, .deferred dag he p' hcheck, rfl⟩
    | produced run => exact ⟨_, _, .produced dag he p' run hcheck, rfl⟩

/-! ### One-off states -/

def oneOffs (p : Planner) : List (String × OneOffScheduleState) := (p.watermarkState.dag.getD .zero).oneOffs

lemma pendingOneOffState_congr (h : p'.oneOffs = p.oneOffs) : p'.pendingOneOffState = p.pendingOneOffState := by
  funext fingerprint
  change (p'.oneOffs.lookup fingerprint).filter _ = (p.oneOffs.lookup fingerprint).filter _
  rw [h]

lemma oneOffs_advance (p : Planner) (t : ℤ) : (p.advanceDAGWatermark t).1.oneOffs = p.oneOffs := by
  unfold advanceDAGWatermark
  split_ifs <;> rfl

lemma oneOffs_dropToLatest (p : Planner) (q : ScheduleBuffer) : (p.dropToLatest q).1.oneOffs = p.oneOffs := by
  unfold dropToLatest
  split
  · rfl
  · exact p.oneOffs_advance _

lemma oneOffs_recompute (cfg : Config) (p : Planner) (dag : Dag) (now : ℤ) :
    (p.recomputeBuffer cfg dag now).1.oneOffs = p.oneOffs := by
  unfold recomputeBuffer
  dsimp only
  split_ifs
  · rfl
  · exact p.oneOffs_dropToLatest _
  · rfl

lemma CatchupMove.oneOffs {outcome} (hm : CatchupMove p env p' outcome) : p'.oneOffs = p.oneOffs := by
  cases hm with
  | absent | empty | deferred => rfl
  | overlap q item rest =>
    unfold overlapCatchup
    split
    · rfl
    · exact p.oneOffs_dropToLatest q
    · exact (p.setItems q rest).oneOffs_advance _
    · exact (p.setItems q rest).oneOffs_advance _
  | popped q item rest =>
    unfold popCatchup
    split_ifs
    · exact p.oneOffs_dropToLatest q
    · rfl

lemma PlanMove.oneOffs {runs} (hm : PlanMove p now env p' runs) : p'.oneOffs = p.oneOffs := by
  cases hm with
  | unregistered => rfl
  | suspended dag =>
    unfold dropSuspendedCatchupState
    split_ifs
    · exact Planner.oneOffs_advance {p with buffer := none} now
    · exact p.oneOffs_advance now
    · rfl
  | produced _ _ _ _ check | deferred _ _ _ check | live _ _ _ check => exact check.oneOffs

lemma oneOffs_advanceTick (p : Planner) (now : ℤ) : (p.advance now).oneOffs = p.oneOffs := by
  have hfold : ∀ (runs : List PlannedRun) (a : Planner),
      (runs.foldl advanceRun a).oneOffs = a.oneOffs := by
    intro runs
    induction runs with
    | nil => exact fun _ => rfl
    | cons run runs ih =>
      intro a
      rw [foldl_cons, ih, advanceRun]
      split_ifs <;> rfl
  exact hfold p.lastPlanResult _

lemma oneOffs_dispatchCatchup (cfg : Config) (p : Planner) (run : PlannedRun) (a : DispatchEnv) :
    (p.dispatchCatchup cfg run a).oneOffs = p.oneOffs := by
  unfold dispatchCatchup
  split_ifs
  · exact p.oneOffs_advance _
  · rfl
  · exact p.oneOffs_advance _
  · rfl

/-! ### Advance and DispatchRun -/

lemma foldl_advanceRun_buffer (runs : List PlannedRun) (p : Planner) : (runs.foldl advanceRun p).buffer = p.buffer := by
  induction runs generalizing p with
  | nil => rfl
  | cons run runs ih =>
    rw [foldl_cons, ih, advanceRun]
    split_ifs <;> rfl

lemma advance_buffer (p : Planner) (now : ℤ) : (p.advance now).buffer = p.buffer := foldl_advanceRun_buffer _ _

lemma remarked_dispatchRun {a} (h : r.isCatchup = false) :
    Remarked p (p.dispatchRun cfg r a).1 p.lastScheduledTime := by
  have hsame : Remarked p p p.lastScheduledTime := ⟨rfl, rfl, rfl, rfl, rfl⟩
  unfold dispatchRun
  rw [if_neg (by simp [h])]
  split
  · split_ifs
    · exact hsame
    unfold dispatchOneOff
    split
    · exact hsame
    · exact remarked_consumed _ _ _
    · split_ifs
      · exact remarked_consumed _ _ _
      · exact hsame
  · exact hsame

end Planner

/-! ### Flushing -/

/-- `t` is `s` with the planner `p`, up to what flushing changes. -/
structure State.Settled (s t : State) (p : Planner) : Prop where
  entry : t.planner.entry = p.entry
  buffer : t.planner.buffer = p.buffer
  watermark : t.planner.watermarkState = p.watermarkState
  result : t.planner.lastPlanResult = p.lastPlanResult
  inFlight : t.inFlight = s.inFlight
  tick : t.tick = s.tick
  planned : t.planned = s.planned
  enqueued : t.enqueued = s.enqueued

lemma State.settled_flush (save : Bool) : s.Settled (s.flush save) s.planner := by
  unfold State.flush
  split_ifs <;> exact ⟨rfl, rfl, rfl, rfl, rfl, rfl, rfl, rfl⟩

lemma State.settled_settle (r : Planner × Bool) (save : Bool) : s.Settled (s.settle r save) r.1 := by
  unfold State.settle
  dsimp only
  split_ifs
  · have h := State.settled_flush {s with planner := r.1} save
    exact {h with}
  · exact ⟨rfl, rfl, rfl, rfl, rfl, rfl, rfl, rfl⟩

lemma State.Settled.buffered {s t : State} {p : Planner} (h : s.Settled t p) : t.planner.buffered = p.buffered :=
  congrArg (fun b => (b.map times).getD []) h.buffer

lemma State.Settled.lastScheduledTime {s t : State} {p : Planner} (h : s.Settled t p) :
    t.planner.lastScheduledTime = p.lastScheduledTime := congrArg SchedulerState.lastScheduledTime h.watermark

lemma mem_of_mem_eraseIdx_or {runs : List PlannedRun} {i : ℕ} {run r}
    (hi : runs[i]? = some run) (h : r ∈ runs) : r = run ∨ r ∈ runs.eraseIdx i := by
  obtain ⟨hlt, rfl⟩ := List.getElem?_eq_some_iff.mp hi
  simpa using (getElem_cons_eraseIdx_perm hlt).mem_iff.mpr h

end Ayatsuri.Scheduler
