import Ayatsuri.LowWater
import Ayatsuri.TickPlannerEffects

/-! Whether the watermark of a DAG only grows and its start runs are planned in order. Every
writer of the watermark assigns, so both rest on what is still buffered or in flight lying
ahead of the mark. -/
namespace Ayatsuri.Scheduler
open TransitionSystem LowWater List Planner QueueItem ScheduleBuffer Option

/-- Every cron schedule has a fire time within five years after `t`. -/
def Dag.recursAfter (dag : Dag) (t : ℤ) : Bool := dag.schedule.all fun s => s.parsedCron.all fun c => c.next t ≠ 0

def recursFrom (w : SchedulerState) (dag : Dag) (now : ℤ) : Bool :=
  dag.recursAfter (computeReplayFrom dag.catchupWindow w.lastTick w.lastScheduledTime now)

def oneOffsAhead (p : Planner) (dag : Dag) (now : ℤ) : Bool :=
  dag.schedule.all fun
    | .cron .. => true
    | .oneOff _ fingerprint => (p.pendingOneOffState fingerprint).all fun state => now < state.scheduledTime

def consistent (dag : Dag) (env : PlanEnv) : Bool :=
  !(env.catchupQueued.any (catchupBusy env)) || dag.schedule.zipIdx.all fun e => !(env.cron e.2).free

variable (s : State)

/-- `Advance` has recorded the last tick and no catch-up run awaits its dispatch. -/
def State.betweenTicks : Bool :=
  (catchupTimes s.inFlight).isEmpty && s.planner.lastPlanResult.isEmpty && s.tick ≤ s.planner.watermarkState.lastTick

def orderly : Label → Bool
  | .restart dag load _ now _ =>
    s.betweenTicks && s.loaded load = s.planner.watermarkState &&
      dag.all fun d => recursFrom s.planner.watermarkState d now
  | .plan now env =>
    s.tick ≤ now && s.planner.lastScheduledTime ≤ wholeSecond now &&
      (s.planner.buffered.all fun t => t ≤ wholeSecond now) &&
      (catchupTimes s.inFlight).isEmpty &&
      s.planner.entry.all fun dag =>
        dag.recursAfter (now - second) && oneOffsAhead s.planner dag now && consistent dag env
  | .advance now => s.tick ≤ now
  | .added _ now _ _ => s.betweenTicks && s.planner.buffered.isEmpty && s.planner.lastScheduledTime ≤ now
  | .updated d now _ _ => s.betweenTicks && recursFrom s.planner.watermarkState d now
  | .dispatch .. | .deleted _ | .flush _ => true

namespace Planner
variable {cfg : Config} {p p' : Planner} {dag : Dag} {now : ℤ} {env : PlanEnv}

/-! ### Buffers -/

lemma dropToLatest_spec (p : Planner) (q : ScheduleBuffer) : (p.dropToLatest q).1.entry = p.entry ∧
      (p.dropToLatest q).1.lastPlanResult = p.lastPlanResult ∧
      (p.dropToLatest q).1.watermarkState.lastTick = p.watermarkState.lastTick ∧
      (p.dropToLatest q).1.buffered = q.times.getLast?.toList ∧ (p.dropToLatest q).1.lastScheduledTime =
        q.times.dropLast.getLast?.getD p.lastScheduledTime := by
  have htimes : q.times.dropLast.getLast? = q.items.dropLast.getLast?.map scheduledTime := by
    simp [times, ← map_dropLast]
  unfold dropToLatest
  cases hd : q.items.dropLast.getLast? with
  | none =>
    refine ⟨rfl, rfl, rfl, ?_, by simp [htimes, hd]; rfl⟩
    rcases eq_nil_or_concat' q.items with hq | ⟨front, last, hq⟩
    · simp [buffered, times, hq]
    · have hfront : front = [] := by simpa [hq] using hd
      simp [buffered, times, hq, hfront]
  | some dropped =>
    have hmark := p.remarked_advance dropped.scheduledTime
    refine ⟨hmark.entry, hmark.result, hmark.lastTick, ?_, ?_⟩
    · cases hlast : q.items.getLast? <;> simp [buffered, times, hlast]
    · rw [htimes, hd]
      exact hmark.time

variable {q : ScheduleBuffer}

lemma dropToLatest_ahead (h : Ahead p.lastScheduledTime q.times) :
    p.lastScheduledTime ≤ (p.dropToLatest q).1.lastScheduledTime ∧
      Ahead (p.dropToLatest q).1.lastScheduledTime (p.dropToLatest q).1.buffered := by
  obtain ⟨-, -, -, hbuf, hlst⟩ := p.dropToLatest_spec q
  rw [hbuf, hlst]
  exact h.keep_last

/-! ### The catch-up check -/

structure Ordered (p p' : Planner) (taken : List ℤ) : Prop where
  entry : p'.entry = p.entry
  lastTick : p'.watermarkState.lastTick = p.watermarkState.lastTick
  pending : p'.pendingOneOffState = p.pendingOneOffState
  mark : p.lastScheduledTime ≤ p'.lastScheduledTime
  ahead : Ahead p'.lastScheduledTime (taken++p'.buffered)
  rest : (taken++p'.buffered).Sublist p.buffered
  untouched : p.buffered = [] → p'.lastScheduledTime = p.lastScheduledTime

section
variable (h : Ahead p.lastScheduledTime p.buffered)
include h

lemma Ordered.same : Ordered p p [] := ⟨rfl, rfl, rfl, le_rfl, h, List.Sublist.refl _, fun _ => rfl⟩

lemma overlapCatchup_ordered {item rest} (hb : p.buffer = some q)
    (hi : q.items = item::rest) : Ordered p (p.overlapCatchup q item rest) [] := by
  have hbuf : p.buffered = item.scheduledTime::rest.map scheduledTime := by simp [buffered_eq_times hb, times, hi]
  have hskip : Ordered p ((p.setItems q rest).advanceDAGWatermark item.scheduledTime).1 [] := by
    have hmark := (p.setItems q rest).remarked_advance item.scheduledTime
    have hrest := hmark.buffered.trans (buffered_setItems p q rest)
    have hahead := h
    rw [hbuf, ahead_cons] at hahead
    refine ⟨hmark.entry, hmark.lastTick, pendingOneOffState_congr (oneOffs_advance _ _), ?_, ?_, ?_, ?_⟩
    · rw [hmark.time]
      exact hahead.1
    · rw [hmark.time, hrest]
      exact hahead.2.2
    · rw [hrest, hbuf]
      exact sublist_cons_self _ _
    · simp [hbuf]
  unfold overlapCatchup
  cases q.overlapPolicy with
  | skip => exact hskip
  | unknown => exact hskip
  | all => exact Ordered.same h
  | latest =>
    obtain ⟨hentry, -, htick, hlast, -⟩ := p.dropToLatest_spec q
    obtain ⟨hmark, hahead⟩ := p.dropToLatest_ahead (buffered_eq_times hb ▸ h)
    refine ⟨hentry, htick, pendingOneOffState_congr (p.oneOffs_dropToLatest q), hmark, hahead, ?_, by simp [hbuf]⟩
    rw [nil_append, hlast, buffered_eq_times hb]
    exact last_sublist _

lemma popCatchup_ordered {item rest} (hb : p.buffer = some q) (hi : q.items = item::rest) :
    ∃ next : QueueItem, (p.popCatchup q item rest).2 = .produced (catchupRun next) ∧
      Ordered p (p.popCatchup q item rest).1 [next.scheduledTime] := by
  have htimes : q.times = item.scheduledTime::rest.map scheduledTime := by simp [times, hi]
  have hbuf : p.buffered = item.scheduledTime::rest.map scheduledTime := (buffered_eq_times hb).trans htimes
  unfold popCatchup
  split_ifs
  · obtain ⟨hentry, -, htick, hlast, -⟩ := p.dropToLatest_spec q
    obtain ⟨hmark, hahead⟩ := p.dropToLatest_ahead (buffered_eq_times hb ▸ h)
    have hnext : q.times.getLast?.toList = [(rest.getLast?.getD item).scheduledTime] := by
      rw [htimes, getLast?_cons]
      cases hr : rest.getLast? <;> simp [hr]
    rw [hlast, hnext] at hahead
    refine ⟨_, rfl, hentry, htick, pendingOneOffState_congr (p.oneOffs_dropToLatest q), hmark, hahead, ?_, by simp [hbuf]⟩
    have hsub := last_sublist q.times
    rw [hnext, ← buffered_eq_times hb] at hsub
    exact hsub
  · refine ⟨item, rfl, rfl, rfl, rfl, le_rfl, ?_, ?_, fun _ => rfl⟩
    · rw [buffered_setItems, singleton_append, ← hbuf]
      exact h
    · rw [buffered_setItems, hbuf]
      exact List.Sublist.refl _

lemma CatchupMove.ordered {outcome} (hm : CatchupMove p env p' outcome) : Ordered p p' (takenTimes outcome) ∧
      ∀ run, outcome = .produced run → ∃ item, run = catchupRun item := by
  cases hm with
  | absent | deferred => exact ⟨Ordered.same h, by simp⟩
  | empty => exact ⟨⟨rfl, rfl, rfl, le_rfl, ahead_nil, nil_sublist _, fun _ => rfl⟩, by simp⟩
  | overlap q item rest queued hb hi => exact ⟨overlapCatchup_ordered h hb hi, by simp⟩
  | popped q item rest hb hi =>
    obtain ⟨next, hnext, hordered⟩ := popCatchup_ordered h hb hi
    rw [hnext]
    exact ⟨hordered, fun run hrun => ⟨next, (CatchupOutcome.produced.inj hrun).symm⟩⟩

end

lemma CatchupMove.idle_of_free {e : Schedule × ℕ} (hm : CatchupMove p env p' .idle)
    (hconsistent : consistent dag env) (he : e ∈ dag.schedule.zipIdx)
    (hfree : (env.cron e.2).free) : p.buffered = [] := by
  generalize ho : CatchupOutcome.idle = outcome at hm
  cases hm with
  | absent hb => simp [buffered, hb]
  | empty q hb hi => simp [buffered_eq_times hb, times, hi]
  | deferred => simp at ho
  | overlap q item rest queued hb hi hanswer hbusy =>
    simp only [consistent, hanswer, any_some, hbusy, Bool.not_true, Bool.false_or,
      List.all_eq_true, Bool.not_eq_true'] at hconsistent
    simp [hconsistent e he] at hfree
  | popped q item rest hb hi =>
    unfold popCatchup at ho
    split_ifs at ho

/-! ### A whole tick -/

lemma cronCandidate_wholeSecond {e} {r : PlannedRun}
    (hrecurs : dag.recursAfter (now - second)) (he : e ∈ dag.schedule.zipIdx)
    (h : cronCandidate dag now env e = some r) : r.scheduledTime = wholeSecond now := by
  obtain ⟨t, hdue, -, rfl⟩ := cronCandidate_spec h
  refine dueAt_eq_wholeSecond (fun c hc => ?_) hdue
  have hs := all_eq_true.mp hrecurs e.1 (fst_mem_of_mem_zipIdx he)
  simpa [hc] using hs

lemma startCandidate_cron {r} (hahead : oneOffsAhead p dag now) (h : p.startCandidate dag now env = some r) :
    ∃ e ∈ dag.schedule.zipIdx, cronCandidate dag now env e = some r := by
  rcases startCandidate_cases h with ⟨e, he, hr⟩ | hcron
  · obtain ⟨atTime, fingerprint, state, hs, hstate, hdue, -⟩ := oneOffCandidate_spec hr
    have hnot := all_eq_true.mp hahead e.1 (fst_mem_of_mem_zipIdx he)
    simp only [hs, hstate, all_some, decide_eq_true_eq] at hnot
    omega
  · exact hcron

structure TickOrdered (p p' : Planner) (now : ℤ) (runs : List PlannedRun) : Prop where
  entry : p'.entry = p.entry
  lastTick : p'.watermarkState.lastTick = p.watermarkState.lastTick
  mark : p.lastScheduledTime ≤ p'.lastScheduledTime
  ahead : Ahead p'.lastScheduledTime (catchupTimes runs++p'.buffered)
  rest : (catchupTimes runs++p'.buffered).Sublist p.buffered
  starts : startTimes runs = catchupTimes runs ∧ (catchupTimes runs).length ≤ 1 ∨
    startTimes runs = [wholeSecond now] ∧ catchupTimes runs++p'.buffered = []
  live : ∀ r ∈ runs, r.isLiveCron → r.scheduledTime = wholeSecond now ∧
    catchupTimes runs++p'.buffered = [] ∧ p'.lastScheduledTime ≤ wholeSecond now

lemma startTimes_liveRuns : startTimes (p.liveRuns dag now env) =
    ((p.startCandidate dag now env).map PlannedRun.scheduledTime).toList := by
  have hcontrol : (controlRuns dag now env).filter (·.scheduleType = .start) = [] := by
    rw [filter_eq_nil_iff]
    intro r hr
    simpa using controlRuns_type hr
  unfold startTimes liveRuns
  rw [filter_append, hcontrol, append_nil]
  cases hc : p.startCandidate dag now env with
  | none => rfl
  | some r => simp [(startCandidate_trigger hc).2]

lemma TickOrdered.cleared (hentry : p'.entry = p.entry) (htick : p'.watermarkState.lastTick = p.watermarkState.lastTick)
    (hmark : p.lastScheduledTime ≤ p'.lastScheduledTime) (hnil : p'.buffered = []) : TickOrdered p p' now [] := by
  have hnone : catchupTimes []++p'.buffered = [] := by simp [catchupTimes, hnil]
  refine ⟨hentry, htick, hmark, ?_, ?_, Or.inl ⟨rfl, by simp [catchupTimes]⟩, by simp⟩
  · rw [hnone]
    exact ahead_nil
  · rw [hnone]
    exact nil_sublist _

lemma dropSuspended_tickOrdered (hmark : p.lastScheduledTime ≤ now) :
    TickOrdered p (p.dropSuspendedCatchupState dag now) now [] := by
  unfold dropSuspendedCatchupState
  split_ifs with hb hw
  · have h := remarked_advance {p with buffer := none} now
    exact TickOrdered.cleared h.entry h.lastTick (hmark.trans_eq h.time.symm) h.buffered
  · have h := p.remarked_advance now
    have hnil : p.buffered = [] := buffered_of_none (by simpa using hb)
    exact TickOrdered.cleared h.entry h.lastTick (hmark.trans_eq h.time.symm) (h.buffered.trans hnil)
  · exact TickOrdered.cleared rfl rfl le_rfl (buffered_of_none (by simpa using hb))

lemma PlanMove.tickOrdered {runs} (h : Ahead p.lastScheduledTime p.buffered)
    (hmark : p.lastScheduledTime ≤ wholeSecond now)
    (hentry : ∀ dag, p.entry = some dag → dag.recursAfter (now - second) ∧ oneOffsAhead p dag now ∧ consistent dag env)
    (hm : PlanMove p now env p' runs) : TickOrdered p p' now runs := by
  cases hm with
  | unregistered => exact ⟨rfl, rfl, le_rfl, h, List.Sublist.refl _, Or.inl ⟨rfl, by simp [catchupTimes]⟩, by simp⟩
  | suspended dag => exact dropSuspended_tickOrdered (hmark.trans (wholeSecond_le now))
  | produced dag he p' run check =>
    obtain ⟨hordered, hrun⟩ := check.ordered h
    obtain ⟨item, rfl⟩ := hrun run rfl
    have hcatchup : catchupTimes [catchupRun item] = [item.scheduledTime] := rfl
    refine ⟨hordered.entry, hordered.lastTick, hordered.mark, ?_, ?_, Or.inl ⟨rfl, ?_⟩, ?_⟩
    · exact hordered.ahead
    · exact hordered.rest
    · simp [hcatchup]
    · simp [PlannedRun.isLiveCron, catchupRun]
  | deferred dag he p' check =>
    obtain ⟨hordered, -⟩ := check.ordered h
    exact {hordered with starts := Or.inl ⟨rfl, by simp [catchupTimes]⟩, live := by simp}
  | live dag he p' check =>
    obtain ⟨hordered, -⟩ := check.ordered h
    obtain ⟨hrecurs, honeOffs, hconsistent⟩ := hentry dag he
    have honeOffs' : oneOffsAhead p' dag now := by simpa only [oneOffsAhead, hordered.pending] using honeOffs
    have hcron : ∀ r, p'.startCandidate dag now env = some r → r.scheduledTime = wholeSecond now ∧ p.buffered = [] := by
      intro r hr
      obtain ⟨e, hmem, hcand⟩ := startCandidate_cron honeOffs' hr
      obtain ⟨_, -, hfree, -⟩ := cronCandidate_spec hcand
      exact ⟨cronCandidate_wholeSecond hrecurs hmem hcand, check.idle_of_free hconsistent hmem hfree⟩
    have hempty : p.buffered = [] → p'.buffered = [] := fun hnil => eq_nil_of_sublist_nil (hnil ▸ hordered.rest)
    refine ⟨hordered.entry, hordered.lastTick, hordered.mark, ?_, ?_, ?_, ?_⟩
    · simpa [takenTimes] using hordered.ahead
    · simpa [takenTimes] using hordered.rest
    · cases hc : p'.startCandidate dag now env with
      | none => exact Or.inl (by simp [startTimes_liveRuns, hc])
      | some r =>
        obtain ⟨htime, hnil⟩ := hcron r hc
        exact Or.inr (by simp [startTimes_liveRuns, hc, htime, hempty hnil])
    · intro r hr hlive
      simp only [PlannedRun.isLiveCron, Bool.and_eq_true, decide_eq_true_eq] at hlive
      obtain ⟨htime, hnil⟩ := hcron r (liveRuns_start hr hlive.1.1)
      exact ⟨htime, by simp [hempty hnil], hordered.untouched hnil ▸ hmark⟩

lemma lt_of_mem_missed {x : ℤ} (hrecurs : recursFrom p.watermarkState dag now)
    (hx : x ∈ p.missed dag now) : p.lastScheduledTime < x ∧ p.watermarkState.lastTick < x := by
  obtain ⟨s, hs, c, hc, hwalk⟩ := exists_walk_of_mem hx
  have hne : c.next (computeReplayFrom dag.catchupWindow p.watermarkState.lastTick
      p.lastScheduledTime now) ≠ 0 := by
    have hcron : s.parsedCron = some c := by
      cases s with
      | cron parsed expression =>
        obtain rfl : parsed = some c := hc
        rfl
      | oneOff => simp [Schedule.parsed] at hc
    simpa [hcron, lastScheduledTime] using all_eq_true.mp hrecurs s hs
  have hlt := Cron.lt_of_mem_walkFrom hne hwalk
  rw [computeReplayFrom_eq_max] at hlt
  omega

structure Rebuilt (p p' : Planner) : Prop where
  entry : p'.entry = p.entry
  lastTick : p'.watermarkState.lastTick = p.watermarkState.lastTick
  result : p'.lastPlanResult = p.lastPlanResult
  mark : p.lastScheduledTime ≤ p'.lastScheduledTime
  ahead : Ahead p'.lastScheduledTime p'.buffered
  after : ∀ x ∈ p'.buffered, p.watermarkState.lastTick ≤ x

lemma rebuilt_recompute (hnone : p.buffer = none) (hrecurs : recursFrom p.watermarkState dag now) :
    Rebuilt p (p.recomputeBuffer cfg dag now).1 := by
  have hnil := buffered_of_none hnone
  have hahead : Ahead p.lastScheduledTime (p.missed dag now) :=
    Ahead.of_sorted computeMissedIntervals_sorted fun x hx => (lt_of_mem_missed hrecurs hx).1.le
  unfold recomputeBuffer
  rw [sendAll_missed]
  split_ifs with h
  · exact ⟨rfl, rfl, rfl, le_rfl, by simp [hnil], by simp [hnil]⟩
  · generalize hq : (ScheduleBuffer.mk ((p.missed dag now).map (QueueItem.mk dag)) dag.overlapPolicy) = q
    have htimes : q.times = p.missed dag now := hq ▸ times_map_mk _ _ _
    obtain ⟨hentry, hresult, htick, hlast, -⟩ := p.dropToLatest_spec q
    obtain ⟨hmark, hkept⟩ := p.dropToLatest_ahead (htimes ▸ hahead)
    refine ⟨hentry, htick, hresult, hmark, hkept, fun x hx => ?_⟩
    rw [hlast, htimes] at hx
    exact (lt_of_mem_missed hrecurs ((last_sublist _).subset hx)).2.le
  · have hbuf : Planner.buffered {p with
        buffer := some ⟨(p.missed dag now).map (QueueItem.mk dag), dag.overlapPolicy⟩} =
        p.missed dag now := times_map_mk _ _ _
    refine ⟨rfl, rfl, rfl, le_rfl, ?_, fun x hx => ?_⟩
    · exact hbuf.symm ▸ hahead
    · have hmem : x ∈ p.missed dag now := hbuf ▸ hx
      exact (lt_of_mem_missed hrecurs hmem).2.le

lemma Rebuilt.remarked {p''} (h : Rebuilt p p') (hm : Remarked p' p'' p'.lastScheduledTime) : Rebuilt p p'' where
  entry := hm.entry.trans h.entry
  lastTick := hm.lastTick.trans h.lastTick
  result := hm.result.trans h.result
  mark := h.mark.trans_eq hm.time.symm
  ahead := by
    rw [hm.time, hm.buffered]
    exact h.ahead
  after := by
    rw [hm.buffered]
    exact h.after

lemma rebuilt_maybe (hnone : p.buffer = none) (hrecurs : recursFrom p.watermarkState dag now) :
    Rebuilt p (if 0 < dag.catchupWindow then (p.recomputeBuffer cfg dag now).1 else p) := by
  split_ifs
  · exact rebuilt_recompute hnone hrecurs
  · have hnil := buffered_of_none hnone
    exact ⟨rfl, rfl, rfl, le_rfl, by simp [hnil], by simp [hnil]⟩

lemma exists_rebuilt_init (cfg : Config) {loaded : SchedulerState} (observedAt : ℤ)
    (hrecurs : recursFrom loaded dag now) :
    ∃ p : Planner, p.lastPlanResult = [] ∧ p.watermarkState.lastTick = loaded.lastTick ∧
      p.lastScheduledTime = loaded.lastScheduledTime ∧ p.Rebuilt (init cfg loaded (some dag) now observedAt).1 := by
  obtain ⟨p, -, hnone, hresult, htick, hlst, hinit⟩ := exists_init cfg loaded dag now observedAt
  have hlst' : p.watermarkState.lastScheduledTime = loaded.lastScheduledTime := hlst
  have hrecurs' : recursFrom p.watermarkState dag now := by simpa only [recursFrom, htick, hlst'] using hrecurs
  exact ⟨p, hresult, htick, hlst, hinit ▸ rebuilt_maybe hnone hrecurs'⟩

/-- `Advance` moves the mark to a live cron run of the tick, or leaves it. -/
lemma advance_spec (p : Planner) (now : ℤ) :
    (p.advance now).entry = p.entry ∧ (p.advance now).watermarkState.lastTick = now ∧
      ((p.advance now).lastScheduledTime = p.lastScheduledTime ∨ ∃ r ∈ p.lastPlanResult, r.isLiveCron ∧
          (p.advance now).lastScheduledTime = r.scheduledTime) := by
  have hfold : ∀ (runs : List PlannedRun) (a : Planner),
      (runs.foldl advanceRun a).entry = a.entry ∧
        (runs.foldl advanceRun a).watermarkState.lastTick = a.watermarkState.lastTick ∧
        ((runs.foldl advanceRun a).lastScheduledTime = a.lastScheduledTime ∨
          ∃ r ∈ runs, r.isLiveCron ∧ (runs.foldl advanceRun a).lastScheduledTime = r.scheduledTime) := by
    intro runs
    induction runs with
    | nil => exact fun a => ⟨rfl, rfl, Or.inl rfl⟩
    | cons run runs ih =>
      intro a
      obtain ⟨hentry, htick, hlst⟩ := ih (a.advanceRun run)
      have hrun : (a.advanceRun run).entry = a.entry ∧
          (a.advanceRun run).watermarkState.lastTick = a.watermarkState.lastTick := by
        unfold advanceRun
        split_ifs <;> exact ⟨rfl, rfl⟩
      refine ⟨hentry.trans hrun.1, htick.trans hrun.2, ?_⟩
      rcases hlst with hlst | ⟨r, hr, hlive, hlst⟩
      · cases hlive : run.isLiveCron with
        | true =>
          have hset : (a.advanceRun run).lastScheduledTime = run.scheduledTime := by
            unfold advanceRun
            rw [if_pos hlive]
            rfl
          exact Or.inr ⟨run, mem_cons_self, hlive, hlst.trans hset⟩
        | false =>
          have hsame : a.advanceRun run = a := by simp [advanceRun, hlive]
          exact Or.inl (hlst.trans (by rw [hsame]))
      · exact Or.inr ⟨r, mem_cons_of_mem _ hr, hlive, hlst⟩
  exact hfold p.lastPlanResult _

lemma buffered_reinsert (p : Planner) (run : PlannedRun) : (p.reinsertCatchupItem run).buffered = p.buffered ∨
      (p.reinsertCatchupItem run).buffered = run.scheduledTime::p.buffered := by
  have hq := p.times_getD run.dag.overlapPolicy
  unfold reinsertCatchupItem prepend
  dsimp only
  split_ifs
  · exact Or.inl hq
  · exact Or.inr (congrArg (run.scheduledTime :: ·) hq)

lemma dispatchCatchup_spec (cfg : Config) (p : Planner) (run : PlannedRun) (a : DispatchEnv) :
    (p.dispatchCatchup cfg run a).entry = p.entry ∧ (p.dispatchCatchup cfg run a).lastPlanResult = p.lastPlanResult ∧
      ((p.dispatchCatchup cfg run a).lastScheduledTime = run.scheduledTime ∧
          (p.dispatchCatchup cfg run a).buffered = p.buffered ∨
        (p.dispatchCatchup cfg run a).lastScheduledTime = p.lastScheduledTime ∧
          ((p.dispatchCatchup cfg run a).buffered = p.buffered ∨
            (p.dispatchCatchup cfg run a).buffered = run.scheduledTime::p.buffered)) := by
  have hmark := p.remarked_advance run.scheduledTime
  unfold dispatchCatchup
  split_ifs
  · exact ⟨hmark.entry, hmark.result, Or.inl ⟨hmark.time, hmark.buffered⟩⟩
  · exact ⟨rfl, rfl, Or.inr ⟨rfl, Or.inl rfl⟩⟩
  · exact ⟨hmark.entry, hmark.result, Or.inl ⟨hmark.time, hmark.buffered⟩⟩
  · exact ⟨rfl, rfl, Or.inr ⟨rfl, p.buffered_reinsert run⟩⟩

end Planner

/-! ### The run -/

def State.upcoming : List ℤ := catchupTimes s.inFlight++s.planner.buffered

def State.registered : Bool := s.planner.entry.isSome

structure State.InOrder : Prop where
  alone : (catchupTimes s.inFlight).length ≤ 1
  past : ∀ t ∈ s.planned, t ≤ wholeSecond s.tick
  behind : ∀ t ∈ s.planned, ∀ x ∈ s.upcoming, t ≤ x
  sorted : s.planned.Pairwise (· ≥ ·)
  mark : s.registered → Ahead s.planner.lastScheduledTime s.upcoming
  live : s.registered → ∀ r ∈ s.planner.lastPlanResult, r.isLiveCron →
    s.upcoming = [] ∧ s.planner.lastScheduledTime ≤ r.scheduledTime

structure State.Follows (s t : State) : Prop where
  inOrder : t.InOrder
  mark : s.registered → t.registered → s.planner.lastScheduledTime ≤ t.planner.lastScheduledTime

namespace State
variable {cfg : Config} {s t : State} {l : Label}

lemma InOrder.shrink (h : s.InOrder) (hplanned : t.planned = s.planned) (htick : s.tick ≤ t.tick)
    (hflight : (catchupTimes t.inFlight).Sublist (catchupTimes s.inFlight)) (hsub : t.upcoming.Sublist s.upcoming)
    (hmark : t.registered → Ahead t.planner.lastScheduledTime t.upcoming)
    (hlive : t.registered → ∀ r ∈ t.planner.lastPlanResult, r.isLiveCron →
      t.upcoming = [] ∧ t.planner.lastScheduledTime ≤ r.scheduledTime) : t.InOrder where
  alone := hflight.length_le.trans h.alone
  past x hx := (h.past x (hplanned ▸ hx)).trans (wholeSecond_mono htick)
  behind x hx y hy := h.behind x (hplanned ▸ hx) y (hsub.subset hy)
  sorted := hplanned ▸ h.sorted
  mark := hmark
  live := hlive

lemma betweenTicks_empty (hs : s.betweenTicks) : catchupTimes s.inFlight = [] ∧ s.planner.lastPlanResult = [] := by
  simp only [betweenTicks, Bool.and_eq_true, List.isEmpty_iff] at hs
  exact hs.1

variable {u : State} {p p' : Planner}

lemma InOrder.rebuild (h : s.InOrder) (hs : s.betweenTicks)
    (hr : p.Rebuilt p') (htick : p.watermarkState.lastTick = s.planner.watermarkState.lastTick)
    (hresult : p.lastPlanResult = []) (hset : u.Settled t p') (hplanned : u.planned = s.planned)
    (hlast : u.tick = s.tick) (hflight : catchupTimes u.inFlight = []) : t.InOrder := by
  simp only [betweenTicks, Bool.and_eq_true, List.isEmpty_iff, decide_eq_true_eq] at hs
  have hflight' : catchupTimes t.inFlight = [] := hset.inFlight.symm ▸ hflight
  have hup : t.upcoming = p'.buffered := by simp [upcoming, hflight', hset.buffered]
  have hold : t.planned = s.planned := hset.planned.trans hplanned
  refine ⟨by simp [hflight'], ?_, ?_, hold ▸ h.sorted, fun _ => ?_, fun _ r hr' => ?_⟩
  · rw [hold, hset.tick, hlast]
    exact h.past
  · intro x hx y hy
    rw [hold] at hx
    rw [hup] at hy
    have hpast := (h.past x hx).trans (wholeSecond_le _)
    have hafter := hr.after y hy
    omega
  · rw [hup, hset.lastScheduledTime]
    exact hr.ahead
  · rw [hset.result, hr.result, hresult] at hr'
    simp at hr'

variable {now : ℤ}

lemma InOrder.ticked {runs} (h : s.InOrder)
    (htick : s.tick ≤ now) (hbuffered : ∀ x ∈ s.planner.buffered, x ≤ wholeSecond now)
    (hflight : catchupTimes s.inFlight = []) (hm : Planner.TickOrdered s.planner p' now runs) (ht : t = {s with
      planner := {p' with lastPlanResult := runs}
      inFlight := s.inFlight++runs
      tick := now
      planned := startTimes runs++s.planned}) : s.Follows t := by
  have hup : s.upcoming = s.planner.buffered := by simp [upcoming, hflight]
  have hflight' : catchupTimes (s.inFlight++runs) = catchupTimes runs := by
    have : catchupTimes (s.inFlight++runs) = catchupTimes s.inFlight++catchupTimes runs := by simp [catchupTimes]
    rw [this, hflight, nil_append]
  have hup' : t.upcoming = catchupTimes runs++p'.buffered := by
    rw [ht]
    exact congrArg (· ++ p'.buffered) hflight'
  subst ht
  have hpast : ∀ x ∈ s.planned, x ≤ wholeSecond now := fun x hx => (h.past x hx).trans (wholeSecond_mono htick)
  have hrest : ∀ x ∈ catchupTimes runs++p'.buffered, x ∈ s.planner.buffered := fun x hx => hm.rest.subset hx
  have hbehind : ∀ x ∈ s.planned, ∀ y ∈ catchupTimes runs++p'.buffered, x ≤ y := fun x hx y hy =>
    h.behind x hx y (hup ▸ hrest y hy)
  refine ⟨⟨?_, ?_, ?_, ?_, fun _ => ?_, fun _ r hr hlive => ?_⟩, fun _ _ => hm.mark⟩
  · rcases hm.starts with ⟨-, hlen⟩ | ⟨-, hnil⟩
    · exact hflight' ▸ hlen
    · simp [hflight', (append_eq_nil_iff.mp hnil).1]
  · intro x hx
    rcases mem_append.mp hx with hx | hx
    · rcases hm.starts with ⟨hstarts, -⟩ | ⟨hstarts, -⟩
      · rw [hstarts] at hx
        exact hbuffered x (hrest x (mem_append_left _ hx))
      · rw [hstarts, mem_singleton] at hx
        exact hx.le
    · exact hpast x hx
  · intro x hx y hy
    rw [hup'] at hy
    rcases mem_append.mp hx with hx | hx
    · rcases hm.starts with ⟨hstarts, hlen⟩ | ⟨-, hnil⟩
      · rw [hstarts] at hx
        exact Ahead.le_of_front hm.ahead hlen hx hy
      · simp [hnil] at hy
    · exact hbehind x hx y hy
  · rcases hm.starts with ⟨hstarts, hlen⟩ | ⟨hstarts, -⟩
    · have hsingle : (catchupTimes runs).Pairwise (· ≥ ·) := by
        rcases hc : catchupTimes runs with _ | ⟨x, _ | ⟨y, rest⟩⟩
        · simp
        · simp
        · simp [hc] at hlen
      rw [hstarts]
      refine pairwise_append.mpr ⟨hsingle, h.sorted, ?_⟩
      exact fun x hx y hy => hbehind y hy x (mem_append_left _ hx)
    · rw [hstarts]
      exact pairwise_cons.mpr ⟨hpast, h.sorted⟩
  · rw [hup']
    exact hm.ahead
  · obtain ⟨htime, hnil, hle⟩ := hm.live r hr hlive
    exact ⟨hup'.trans hnil, hle.trans_eq htime.symm⟩

lemma InOrder.plan {env} (h : s.InOrder)
    (hl : orderly s (.plan now env)) (hstep : step cfg s (.plan now env) = some t) : s.Follows t := by
  simp only [orderly, Bool.and_eq_true, decide_eq_true_eq, List.isEmpty_iff, List.all_eq_true] at hl
  obtain ⟨⟨⟨⟨htick, hmark⟩, hbuffered⟩, hflight⟩, hentry⟩ := hl
  obtain ⟨p', runs, hm, hplan⟩ := s.planner.exists_planMove now env
  simp only [step, hplan, some.injEq] at hstep
  cases he : s.planner.entry with
  | some dag =>
    have hregistered : s.registered := by simp [registered, he]
    have hahead : Ahead s.planner.lastScheduledTime s.planner.buffered := by
      simpa [upcoming, hflight] using h.mark hregistered
    refine h.ticked htick hbuffered hflight (hm.tickOrdered hahead hmark fun d hd => ?_) hstep.symm
    obtain rfl : d = dag := some.inj (hd.symm.trans he)
    simpa [he, and_assoc] using hentry
  | none =>
    have hnone : p' = s.planner ∧ runs = [] := by cases hm <;> simp_all
    obtain ⟨rfl, rfl⟩ := hnone
    subst hstep
    refine ⟨h.shrink rfl htick (by simp) (by simp [upcoming]; rfl) ?_ ?_, ?_⟩ <;> simp [registered, he]

lemma InOrder.advance (h : s.InOrder) (hl : orderly s (.advance now))
    (hstep : step cfg s (.advance now) = some t) : s.Follows t := by
  simp only [step, some.injEq] at hstep
  subst hstep
  have htick : s.tick ≤ now := by simpa [orderly] using hl
  obtain ⟨hentry, -, hlst⟩ := s.planner.advance_spec now
  have hbuf : (s.planner.advance now).buffered = s.planner.buffered := by simp only [Planner.buffered, advance_buffer]
  have hup : upcoming {s with planner := s.planner.advance now, tick := now} = s.upcoming :=
    congrArg (catchupTimes s.inFlight ++ ·) hbuf
  have hregistered : registered {s with planner := s.planner.advance now, tick := now} =
      s.registered := congrArg isSome hentry
  refine ⟨h.shrink rfl htick (List.Sublist.refl _) (by rw [hup]) ?_ ?_, ?_⟩
  · intro hr
    rw [hregistered] at hr
    rw [hup]
    rcases hlst with hlst | ⟨r, hrun, hlive, -⟩
    · exact hlst.symm ▸ h.mark hr
    · rw [(h.live hr r hrun hlive).1]
      exact ahead_nil
  · exact fun _ r hr => absurd hr (not_mem_nil (a := r))
  · intro hr _
    rcases hlst with hlst | ⟨r, hrun, hlive, hlst⟩
    · exact hlst.ge
    · exact (h.live hr r hrun hlive).2.trans_eq hlst.symm

lemma catchupTimes_eraseIdx_sublist (runs : List PlannedRun) (i : ℕ) :
    (catchupTimes (runs.eraseIdx i)).Sublist (catchupTimes runs) := ((eraseIdx_sublist runs i).filter _).map _

variable {i : ℕ} {run : PlannedRun}

lemma catchupTimes_eraseIdx {runs : List PlannedRun}
    (hlen : (catchupTimes runs).length ≤ 1) (hi : runs[i]? = some run) (hc : run.isCatchup) :
    catchupTimes runs = [run.scheduledTime] ∧ catchupTimes (runs.eraseIdx i) = [] := by
  obtain ⟨hlt, rfl⟩ := List.getElem?_eq_some_iff.mp hi
  have hperm : (catchupTimes runs).Perm (runs[i].scheduledTime::catchupTimes (runs.eraseIdx i)) := by
    have h := ((getElem_cons_eraseIdx_perm hlt).filter PlannedRun.isCatchup).map PlannedRun.scheduledTime
    simpa [catchupTimes, hc] using h.symm
  have hnil : catchupTimes (runs.eraseIdx i) = [] := by
    have := hperm.length_eq
    rw [length_cons] at this
    exact length_eq_zero_iff.mp (by omega)
  rw [hnil] at hperm
  exact ⟨perm_singleton.mp hperm, hnil⟩

lemma InOrder.keep (h : s.InOrder) (hplanned : t.planned = s.planned) (htick : t.tick = s.tick)
    (hentry : t.planner.entry = s.planner.entry) (hresult : t.planner.lastPlanResult = s.planner.lastPlanResult)
    (hlst : t.planner.lastScheduledTime = s.planner.lastScheduledTime)
    (hflight : (catchupTimes t.inFlight).Sublist (catchupTimes s.inFlight))
    (hless : t.upcoming.Sublist s.upcoming) : s.Follows t := by
  have hregistered : t.registered = s.registered := congrArg isSome hentry
  refine ⟨h.shrink hplanned htick.ge hflight hless ?_ ?_, fun _ _ => hlst.ge⟩
  · intro hr
    rw [hlst]
    exact (h.mark (hregistered ▸ hr)).sublist hless
  intro hr r hmem hlive
  rw [hresult] at hmem
  obtain ⟨hnil, hle⟩ := h.live (hregistered ▸ hr) r hmem hlive
  exact ⟨eq_nil_of_sublist_nil (hnil ▸ hless), hlst ▸ hle⟩

lemma InOrder.dispatchCatchup {a} (h : s.InOrder) (hi : s.inFlight[i]? = some run) (hc : run.isCatchup)
    (hset : u.Settled t (s.planner.dispatchCatchup cfg run a)) (hplanned : u.planned = s.planned)
    (htick : u.tick = s.tick) (hflight : u.inFlight = s.inFlight.eraseIdx i) : s.Follows t := by
  obtain ⟨hone, hnone⟩ := catchupTimes_eraseIdx h.alone hi hc
  obtain ⟨hentry, hresult, hcases⟩ := s.planner.dispatchCatchup_spec cfg run a
  have hregistered : t.registered = s.registered := congrArg isSome (hset.entry.trans hentry)
  have hsup : s.upcoming = run.scheduledTime::s.planner.buffered := by rw [upcoming, hone, singleton_append]
  have hup : t.upcoming = (s.planner.dispatchCatchup cfg run a).buffered := by
    rw [upcoming, hset.inFlight, hflight, hnone, nil_append, hset.buffered]
  have hless : t.upcoming.Sublist s.upcoming := by
    rw [hup, hsup]
    rcases hcases with ⟨-, hb⟩ | ⟨-, hb | hb⟩ <;> rw [hb]
    · exact sublist_cons_self _ _
    · exact sublist_cons_self _ _
  have hsub : (catchupTimes t.inFlight).Sublist (catchupTimes s.inFlight) := by
    rw [hset.inFlight, hflight]
    exact catchupTimes_eraseIdx_sublist _ _
  refine ⟨h.shrink (hset.planned.trans hplanned) (hset.tick.trans htick).ge hsub hless ?_ ?_, ?_⟩
  · intro hr
    have hahead := h.mark (hregistered ▸ hr)
    rw [hset.lastScheduledTime]
    rcases hcases with ⟨hlst, hb⟩ | ⟨hlst, -⟩
    · rw [hlst, hup, hb]
      rw [hsup, ahead_cons] at hahead
      exact hahead.2.2
    · rw [hlst]
      exact hahead.sublist hless
  · intro hr r hmem hlive
    rw [hset.result, hresult] at hmem
    obtain ⟨hnil, -⟩ := h.live (hregistered ▸ hr) r hmem hlive
    simp [hsup] at hnil
  · intro hr _
    rw [hset.lastScheduledTime]
    rcases hcases with ⟨hlst, -⟩ | ⟨hlst, -⟩
    · rw [hlst]
      exact (h.mark hr).le (by simp [hsup])
    · exact hlst.ge

lemma InOrder.dispatch {a save} (h : s.InOrder) (hstep : step cfg s (.dispatch i a save) = some t) : s.Follows t := by
  simp only [step] at hstep
  cases hi : s.inFlight[i]? with
  | none => simp [hi] at hstep
  | some run =>
    simp only [hi, some.injEq] at hstep
    have hset := settled_settle {s with
      inFlight := s.inFlight.eraseIdx i
      enqueued := if enqueues cfg run a then run.scheduledTime::s.enqueued else s.enqueued}
      (s.planner.dispatchRun cfg run a) save
    rw [hstep] at hset
    cases hc : run.isCatchup with
    | true =>
      have hdispatch : (s.planner.dispatchRun cfg run a).1 = s.planner.dispatchCatchup cfg run a := by
        simp [dispatchRun, hc]
      rw [hdispatch] at hset
      exact h.dispatchCatchup hi hc hset rfl rfl rfl
    | false =>
      have hmark : Planner.Remarked s.planner (s.planner.dispatchRun cfg run a).1
          s.planner.lastScheduledTime := remarked_dispatchRun hc
      have hsub := catchupTimes_eraseIdx_sublist s.inFlight i
      refine h.keep hset.planned hset.tick (hset.entry.trans hmark.entry)
        (hset.result.trans hmark.result) (hset.lastScheduledTime.trans hmark.time)
        (by rw [hset.inFlight]; exact hsub) ?_
      rw [upcoming, hset.inFlight, hset.buffered, hmark.buffered]
      exact hsub.append_right _

variable {observedAt : ℤ}

section
variable (h : s.InOrder)
include h

lemma InOrder.added {dag save} (hl : orderly s (.added dag now observedAt save))
    (hstep : step cfg s (.added dag now observedAt save) = some t) : s.Follows t := by
  simp only [step, some.injEq] at hstep
  have hset := s.settled_settle (s.planner.handleAdded dag now observedAt) save
  rw [hstep] at hset
  simp only [orderly, betweenTicks, Bool.and_eq_true, List.isEmpty_iff, decide_eq_true_eq] at hl
  obtain ⟨⟨⟨⟨hflight, hresult⟩, -⟩, hnil⟩, hle⟩ := hl
  have hadvance := remarked_advance {s.planner with entry := some dag} now
  have hreconcile := remarked_reconcile
    ({s.planner with entry := some dag}.advanceDAGWatermark now).1 dag observedAt
  have hlst : t.planner.lastScheduledTime = now := hset.lastScheduledTime.trans (hreconcile.time.trans hadvance.time)
  have hup : t.upcoming = [] := by
    rw [upcoming, hset.inFlight, hflight, hset.buffered]
    exact hreconcile.buffered.trans (hadvance.buffered.trans hnil)
  have hresult' : t.planner.lastPlanResult = [] :=
    hset.result.trans (hreconcile.result.trans (hadvance.result.trans hresult))
  refine ⟨h.shrink hset.planned hset.tick.ge (by rw [hset.inFlight]) (by simp [hup]) ?_ ?_, ?_⟩
  · simp [hup]
  · simp [hresult']
  · exact fun _ _ => hle.trans_eq hlst.symm

lemma InOrder.updated {dag save} (hl : orderly s (.updated dag now observedAt save))
    (hstep : step cfg s (.updated dag now observedAt save) = some t) : s.Follows t := by
  simp only [step, some.injEq] at hstep
  have hset := s.settled_settle (s.planner.handleUpdated cfg dag now observedAt) save
  rw [hstep] at hset
  simp only [orderly, Bool.and_eq_true] at hl
  obtain ⟨hbetween, hrecurs⟩ := hl
  obtain ⟨hflight, hresult⟩ := betweenTicks_empty hbetween
  have hrebuilt : Planner.Rebuilt {s.planner with entry := some dag, buffer := none}
      (s.planner.handleUpdated cfg dag now observedAt).1 := by
    refine Planner.Rebuilt.remarked ?_ (remarked_reconcile _ _ _)
    rw [apply_ite Prod.fst]
    exact Planner.rebuilt_maybe rfl hrecurs
  exact ⟨h.rebuild hbetween hrebuilt rfl hresult hset rfl rfl hflight,
    fun _ _ => hrebuilt.mark.trans_eq hset.lastScheduledTime.symm⟩

lemma InOrder.removed (hset : u.Settled t p)
    (hentry : p.entry = none) (hbuffer : p.buffer = none) (hplanned : u.planned = s.planned) (htick : u.tick = s.tick)
    (hflight : (catchupTimes u.inFlight).Sublist (catchupTimes s.inFlight)) : s.Follows t := by
  have hregistered : t.registered = false := by simp [registered, hset.entry, hentry]
  have hup : t.upcoming = catchupTimes u.inFlight := by
    rw [upcoming, hset.inFlight, hset.buffered, Planner.buffered_of_none hbuffer, append_nil]
  refine ⟨h.shrink (hset.planned.trans hplanned) (hset.tick.trans htick).ge
    (by rw [hset.inFlight]; exact hflight) ?_ ?_ ?_, ?_⟩
  · rw [hup]
    exact hflight.trans (sublist_append_left _ _)
  · simp [hregistered]
  · simp [hregistered]
  · simp [hregistered]

lemma InOrder.restart {dag load save} (hl : orderly s (.restart dag load save now observedAt))
    (hstep : step cfg s (.restart dag load save now observedAt) = some t) : s.Follows t := by
  simp only [step, some.injEq] at hstep
  have hset := settled_settle {s with inFlight := []} (Planner.init cfg (s.loaded load) dag now observedAt) save
  rw [hstep] at hset
  simp only [orderly, Bool.and_eq_true, decide_eq_true_eq] at hl
  obtain ⟨⟨hbetween, hloaded⟩, hrecurs⟩ := hl
  cases dag with
  | none => exact h.removed hset rfl rfl rfl rfl (nil_sublist _)
  | some d =>
    have hrecurs' : recursFrom (s.loaded load) d now := by simpa [hloaded] using hrecurs
    obtain ⟨p, hresult, htick, hlst, hrebuilt⟩ := Planner.exists_rebuilt_init cfg observedAt hrecurs'
    rw [hloaded] at htick hlst
    refine ⟨h.rebuild hbetween hrebuilt htick hresult hset rfl rfl rfl, fun _ _ => ?_⟩
    exact hlst.symm.le.trans (hrebuilt.mark.trans_eq hset.lastScheduledTime.symm)

lemma InOrder.step (hl : orderly s l) (hstep : step cfg s l = some t) : s.Follows t := by
  cases l with
  | restart dag load save now observedAt => exact h.restart hl hstep
  | plan now env => exact h.plan hl hstep
  | dispatch i a save => exact h.dispatch hstep
  | advance now => exact h.advance hl hstep
  | added dag now observedAt save => exact h.added hl hstep
  | updated dag now observedAt save => exact h.updated hl hstep
  | deleted save =>
    simp only [Scheduler.step, some.injEq] at hstep
    have hset := s.settled_settle (s.planner.handleDeleted, true) save
    rw [hstep] at hset
    exact h.removed hset rfl rfl rfl rfl (List.Sublist.refl _)
  | flush save =>
    simp only [Scheduler.step, some.injEq] at hstep
    have hset := s.settled_flush save
    rw [hstep] at hset
    refine h.keep hset.planned hset.tick hset.entry hset.result hset.lastScheduledTime (by rw [hset.inFlight]) ?_
    rw [upcoming, hset.inFlight, hset.buffered]
    exact List.Sublist.refl _

end

lemma inOrder_start {store : SchedulerState} {dag : Option Dag} {load save : Bool}
    (hrecurs : (dag.all fun d => recursFrom ((blank store).loaded load) d now) = true) :
    (start cfg store dag load save now observedAt).InOrder := by
  have hset := (blank store).settled_settle (Planner.init cfg ((blank store).loaded load) dag now observedAt) save
  generalize hs : start cfg store dag load save now observedAt = s
  replace hs : (blank store).settle (Planner.init cfg ((blank store).loaded load) dag now observedAt) save = s := hs
  rw [hs] at hset
  have hplanned : s.planned = [] := hset.planned
  have hflight : s.inFlight = [] := hset.inFlight
  have hup : s.upcoming = (Planner.init cfg ((blank store).loaded load) dag now observedAt).1.buffered := by
    simp [upcoming, hflight, catchupTimes, hset.buffered]
  have hinit : (Planner.init cfg ((blank store).loaded load) dag now observedAt).1.lastPlanResult = [] ∧
      Ahead (Planner.init cfg ((blank store).loaded load) dag now observedAt).1.lastScheduledTime
        (Planner.init cfg ((blank store).loaded load) dag now observedAt).1.buffered := by
    cases dag with
    | none => exact ⟨rfl, ahead_nil⟩
    | some d =>
      obtain ⟨p, hnil, -, -, hrebuilt⟩ := Planner.exists_rebuilt_init cfg observedAt (by simpa using hrecurs)
      exact ⟨hrebuilt.result.trans hnil, hrebuilt.ahead⟩
  refine ⟨by simp [hflight, catchupTimes], by simp [hplanned], by simp [hplanned], by simp [hplanned],
    fun _ => ?_, fun _ r hr => ?_⟩
  · rw [hup, hset.lastScheduledTime]
    exact hinit.2
  · simp [hset.result, hinit.1] at hr

end State

/-- Start runs are planned in order, no live run is planned before what is still buffered, and
the mark of a registered DAG never goes back. -/
theorem planned_in_order {cfg : Config} {store : SchedulerState} {dag : Option Dag}
    {load save : Bool} {now observedAt : ℤ} {s : State}
    (hrecurs : (dag.all fun d => recursFrom ((State.blank store).loaded load) d now) = true)
    (h : Reach (step cfg) (fun s l => orderly s l) (start cfg store dag load save now observedAt) s) :
    s.planned.Pairwise (· ≥ ·) ∧ (s.registered → ∀ r ∈ s.planner.lastPlanResult, r.isLiveCron →
        ∀ x ∈ s.planner.buffered, r.scheduledTime ≤ x) ∧
      ∀ l t, orderly s l → step cfg s l = some t → s.registered →
        t.registered → s.planner.lastScheduledTime ≤ t.planner.lastScheduledTime := by
  have hinv : s.InOrder := h.invariant (P := State.InOrder) (State.inOrder_start hrecurs)
    fun _ _ _ _ ha hl hstep => (ha.step hl hstep).inOrder
  refine ⟨hinv.sorted, fun hr r hrun hlive x hx => ?_, fun l t hl hstep => (hinv.step hl hstep).mark⟩
  have hnil := (hinv.live hr r hrun hlive).1
  simp [(append_eq_nil_iff.mp hnil).2] at hx

/-! ### A live run that overtakes the buffer -/

def ticksForward : Label → Bool
  | .plan now _ | .advance now => s.tick ≤ now
  | _ => true

def freeAnswers : Answers := ⟨some false, some false, some ⟨.succeeded, none, none⟩⟩

def busyThenFree : PlanEnv :=
  ⟨false, some true, some false, fun _ => freeAnswers, fun _ => freeAnswers, fun _ => true, fun _ => none⟩

def freeEnv : PlanEnv := {busyThenFree with catchupRunning := some false}

/-- A live run is planned for minute eleven while minutes nine and ten wait; then minute nine
is planned. -/
def overtaken : State :=
  follow (step queued) ticksForward tenth
    [(.plan (11*minute) busyThenFree, 1), (.advance (11*minute), 1), (.plan (12*minute) freeEnv, 1)]

theorem live_run_overtakes : Reach (step queued) (fun s l => ticksForward s l) tenth overtaken ∧
      overtaken.planned = [9*minute, 11*minute] ∧
      overtaken.planner.lastScheduledTime = 11*minute ∧ overtaken.registered ∧
      ((step queued overtaken (.dispatch 1 dispatched true)).map fun t =>
        (t.registered, t.planner.lastScheduledTime)) = some (true, 9*minute) := by
  refine ⟨reach_follow (fun _ _ h => h) _ _, ?_, ?_, ?_, ?_⟩ <;> decide +kernel

def caughtUp : State :=
  follow (step queued) orderly tenth
    [(.plan (10*minute) freeEnv, 1), (.dispatch 0 dispatched true, 1), (.advance (10*minute), 1),
      (.plan (11*minute) freeEnv, 1), (.dispatch 0 dispatched true, 1), (.advance (11*minute), 1),
      (.plan (12*minute) freeEnv, 1)]

theorem planned_in_order_caught_up : caughtUp.planned = [12*minute, 10*minute, 9*minute] ∧
      caughtUp.planned.Pairwise (· ≥ ·) ∧
      (caughtUp.registered → ∀ r ∈ caughtUp.planner.lastPlanResult, r.isLiveCron →
        ∀ x ∈ caughtUp.planner.buffered, r.scheduledTime ≤ x) ∧
      ∀ l t, orderly caughtUp l → step queued caughtUp l = some t → caughtUp.registered → t.registered →
        caughtUp.planner.lastScheduledTime ≤ t.planner.lastScheduledTime := by
  have hrecurs : ((some minutely).all fun d =>
      recursFrom ((State.blank ⟨0, none⟩).loaded true) d (10*minute)) := by decide +kernel
  have hreach : Reach (step queued) (fun s l => orderly s l) tenth caughtUp := reach_follow (fun _ _ h => h) _ _
  exact ⟨by decide +kernel, planned_in_order hrecurs hreach⟩

end Ayatsuri.Scheduler
