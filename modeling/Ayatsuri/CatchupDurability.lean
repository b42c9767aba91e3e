import Ayatsuri.TickPlannerEffects

/-! Whether a missed fire time that `Init` buffered stays until it is enqueued. An update or a
restart rebuilds the buffer from the watermarks, and `Advance` moves the last tick past every
buffered item. -/
namespace Ayatsuri.Scheduler
open TransitionSystem List ScheduleBuffer Option

structure SameCatchup (dag dag' : Dag) : Prop where
  schedule : dag'.schedule = dag.schedule
  catchupWindow : dag'.catchupWindow = dag.catchupWindow
  overlapPolicy : dag'.overlapPolicy = dag.overlapPolicy

variable (dag : Dag)

/-- At `now` the fire time is in the window, and the watermarks leave no more missed
intervals than are replayed. -/
def inWindow (f : ℤ) (w : SchedulerState) (now : ℤ) : Bool :=
  f ≤ now && now - f < dag.catchupWindow &&
    (collectMissed dag.schedule
      (computeReplayFrom dag.catchupWindow w.lastTick w.lastScheduledTime now) now).length ≤ maxMissedRuns

def Label.Unchanged : Label → Prop
  | .restart (some d) .. | .updated d .. => SameCatchup dag d
  | _ => True

/-- Ticks, flushes, and updates and restarts within the window of `f`; no suspension, and room
in the buffer for an item that could not be enqueued. -/
def ordinary (f : ℤ) (s : State) : Label → Bool
  | .restart (some _) load _ now _ => inWindow dag f (s.loaded load) now
  | .updated _ now _ _ => inWindow dag f s.planner.watermarkState now
  | .plan _ env => !env.suspended
  | .dispatch _ a _ => !a.suspended && s.planner.buffered.length < defaultMaxBufferItems
  | .advance _ | .flush _ => true
  | .restart none .. | .added .. | .deleted .. => false

def SchedulerState.before (w : SchedulerState) (f : ℤ) : Bool := w.lastTick < f && w.lastScheduledTime < f

/-- A buffer is rebuilt only while both watermarks are before `f`, or after `f` was enqueued. -/
def rebuildsBefore (f : ℤ) (s : State) : Label → Bool
  | .restart _ load .. => f ∈ s.enqueued || (s.loaded load).before f
  | .updated .. => f ∈ s.enqueued || s.planner.watermarkState.before f
  | _ => true

/-! ### Buffers of policy `all` -/

def Planner.KeepsAll (p : Planner) : Prop :=
  ∀ q, p.buffer = some q → q.overlapPolicy = .all ∧ ∀ item ∈ q.items, item.dag.overlapPolicy = .all

open Planner

namespace Planner
variable {cfg : Config} {p : Planner} {dag : Dag} {now : ℤ} {env : PlanEnv} {p' : Planner}

lemma KeepsAll.of_buffer (h : p.KeepsAll) (hb : p'.buffer = p.buffer) : p'.KeepsAll := fun q hq => h q (hb ▸ hq)

lemma KeepsAll.setItems {q : ScheduleBuffer} {items}
    (hq : q.overlapPolicy = .all) (hitems : ∀ item ∈ items, item.dag.overlapPolicy = .all) :
    (p.setItems q items).KeepsAll := by
  intro q' hq'
  cases items with
  | nil => simp [Planner.setItems] at hq'
  | cons item items =>
    obtain rfl : {q with items := item::items} = q' := by simpa [Planner.setItems] using hq'
    exact ⟨hq, hitems⟩

lemma CatchupMove.keepsAll {outcome} (h : p.KeepsAll) (hm : CatchupMove p env p' outcome) :
    p'.KeepsAll ∧ p.buffered = takenTimes outcome++p'.buffered ∧
      ∀ run, outcome = .produced run → run.isCatchup ∧ run.dag.overlapPolicy = .all := by
  cases hm with
  | absent | deferred => exact ⟨h, rfl, by simp⟩
  | empty q hb hi => exact ⟨by simp [KeepsAll], by simp [takenTimes, buffered, hb, times, hi], by simp⟩
  | overlap q item rest queued hb =>
    simp only [overlapCatchup, (h q hb).1]
    exact ⟨h, rfl, by simp⟩
  | popped q item rest hb hi =>
    obtain ⟨hall, hitems⟩ := h q hb
    rw [hi] at hitems
    have hpop : p.popCatchup q item rest = (p.setItems q rest, .produced (catchupRun item)) := if_neg (by simp [hall])
    rw [hpop]
    refine ⟨KeepsAll.setItems hall fun i him => hitems i (mem_cons_of_mem _ him), ?_, ?_⟩
    · simp [buffered_eq_times hb, times, hi, takenTimes, catchupRun]
    · rintro run ⟨⟩
      exact ⟨rfl, hitems item mem_cons_self⟩

lemma PlanMove.keepsAll {runs} (h : p.KeepsAll) (hsuspended : env.suspended = false) (hm : PlanMove p now env p' runs) :
    p'.KeepsAll ∧ (∀ r ∈ runs, r.isCatchup → r.dag.overlapPolicy = .all) ∧
      p.buffered = catchupTimes runs++p'.buffered := by
  cases hm with
  | unregistered => exact ⟨h, by simp, rfl⟩
  | suspended dag _ hflag => simp [hsuspended] at hflag
  | produced dag _ p' run check =>
    obtain ⟨hkept, hbuf, hrun⟩ := check.keepsAll h
    obtain ⟨hcatchup, hall⟩ := hrun run rfl
    exact ⟨hkept, by simp [hall], by simp [catchupTimes, hcatchup, hbuf, takenTimes]⟩
  | deferred dag _ p' check =>
    obtain ⟨hkept, hbuf, -⟩ := check.keepsAll h
    exact ⟨hkept, by simp, hbuf⟩
  | live dag _ p' check =>
    obtain ⟨hkept, hbuf, -⟩ := check.keepsAll h
    refine ⟨hkept, fun r hr hc => ?_, by simpa [takenTimes] using hbuf⟩
    simp [not_isCatchup_of_liveRuns hr] at hc

lemma KeepsAll.reinsert {run : PlannedRun} (h : p.KeepsAll) (hrun : run.dag.overlapPolicy = .all)
    (hroom : p.buffered.length < defaultMaxBufferItems) : (p.reinsertCatchupItem run).KeepsAll ∧
      (p.reinsertCatchupItem run).buffered = run.scheduledTime::p.buffered := by
  have hq := p.times_getD run.dag.overlapPolicy
  have hprepend : (p.buffer.getD ⟨[], run.dag.overlapPolicy⟩).prepend ⟨run.dag, run.scheduledTime⟩ =
      some { p.buffer.getD ⟨[], run.dag.overlapPolicy⟩ with
        items := ⟨run.dag, run.scheduledTime⟩::(p.buffer.getD ⟨[], run.dag.overlapPolicy⟩).items} := by
    rw [← hq, times, length_map] at hroom
    exact if_neg (by omega)
  simp only [reinsertCatchupItem, hprepend, getD_some]
  constructor
  · rintro q ⟨⟩
    cases hb : p.buffer with
    | none => simpa using hrun
    | some q => simpa [hrun] using h q hb
  · simpa [buffered, times] using hq

lemma mem_missed {f : ℤ} (hw : dag.catchupWindow ≤ fiveYears)
    (hfires : ∃ s ∈ dag.schedule, ∃ c, s.parsed = some c ∧ c.fires f)
    (hin : inWindow dag f p.watermarkState now) (hbefore : p.watermarkState.before f) :
    f ∈ p.missed dag now := by
  obtain ⟨s, hs, c, hc, hf⟩ := hfires
  simp only [inWindow, SchedulerState.before, Bool.and_eq_true, decide_eq_true_eq] at hin hbefore
  have hmax := computeReplayFrom_eq_max dag.catchupWindow p.watermarkState.lastTick
    p.watermarkState.lastScheduledTime now
  refine mem_computeMissedIntervals hs hc hf ?_ hin.1.1 ?_ hin.2
  · change computeReplayFrom _ _ p.watermarkState.lastScheduledTime _ < f
    omega
  · change f ≤ computeReplayFrom _ _ p.watermarkState.lastScheduledTime _+fiveYears
    omega

lemma KeepsAll.recompute (hpolicy : dag.overlapPolicy = .all) (hnone : p.buffer = none) :
    (p.recomputeBuffer cfg dag now).1.KeepsAll := by
  unfold recomputeBuffer
  rw [sendAll_missed]
  split_ifs with h hlatest
  · simp [KeepsAll, hnone]
  · simp [hpolicy] at hlatest
  · rintro q ⟨⟩
    refine ⟨hpolicy, fun item hitem => ?_⟩
    obtain ⟨t, -, rfl⟩ := mem_map.mp hitem
    exact hpolicy

lemma rebuilt {f : ℤ} {d : Dag} (hq : cfg.queuesEnabled) (hall : dag.overlapPolicy = .all)
    (hw : dag.catchupWindow ≤ fiveYears)
    (hfires : ∃ s ∈ dag.schedule, ∃ c, s.parsed = some c ∧ c.fires f) (hsame : SameCatchup dag d)
    (hnone : p.buffer = none) (hin : inWindow dag f p.watermarkState now) :
    0 < d.catchupWindow ∧ (p.recomputeBuffer cfg d now).1.KeepsAll ∧
      (p.watermarkState.before f → f ∈ (p.recomputeBuffer cfg d now).1.buffered) := by
  have hd : d.overlapPolicy = .all := hsame.overlapPolicy.trans hall
  have hpos : 0 < d.catchupWindow := by
    simp only [inWindow, Bool.and_eq_true, decide_eq_true_eq] at hin
    rw [hsame.catchupWindow]
    omega
  refine ⟨hpos, KeepsAll.recompute hd hnone, fun hbefore => ?_⟩
  rw [buffered_recompute hq (by simp [hd]) hnone]
  have hmissed : p.missed d now = p.missed dag now := by simp only [missed, hsame.schedule, hsame.catchupWindow]
  exact hmissed ▸ mem_missed hw hfires hin hbefore

end Planner

/-! ### The run -/

structure Kept (f : ℤ) (s : State) : Prop where
  policy : s.planner.KeepsAll
  runs : ∀ r ∈ s.inFlight, r.isCatchup → r.dag.overlapPolicy = .all
  present : f ∈ s.enqueued ∨ f ∈ s.planner.buffered ∨ f ∈ catchupTimes s.inFlight

section
variable {cfg : Config} {dag : Dag} {f : ℤ} {s t : State} {l : Label}

lemma Kept.of_settled {p : Planner} (h : Kept f s) (hb : p.buffer = s.planner.buffer)
    (hs : s.Settled t p) : Kept f t := by
  refine ⟨h.policy.of_buffer (hs.buffer.trans hb), by simpa only [hs.inFlight] using h.runs, ?_⟩
  have hbuf : p.buffered = s.planner.buffered := by simp only [buffered, hb]
  simpa only [hs.enqueued, hs.buffered, hbuf, hs.inFlight] using h.present

lemma Kept.plan {now} {env : PlanEnv} (h : Kept f s) (hsuspended : env.suspended = false)
    (hstep : step cfg s (.plan now env) = some t) : Kept f t := by
  obtain ⟨p', runs, hm, hplan⟩ := s.planner.exists_planMove now env
  simp only [step, hplan, some.injEq] at hstep
  subst hstep
  obtain ⟨hkept, hruns, hbuf⟩ := hm.keepsAll h.policy hsuspended
  refine ⟨hkept.of_buffer rfl, forall_mem_append.mpr ⟨h.runs, hruns⟩, ?_⟩
  have hp' : buffered {p' with lastPlanResult := runs} = p'.buffered := rfl
  have hadd : catchupTimes (s.inFlight++runs) = catchupTimes s.inFlight++catchupTimes runs := by simp [catchupTimes]
  have hpresent := h.present
  rw [hbuf] at hpresent
  rw [hp', hadd]
  simp only [mem_append] at hpresent ⊢
  tauto

lemma mem_catchupTimes_eraseIdx {runs : List PlannedRun} {i : ℕ} {run : PlannedRun}
    (hi : runs[i]? = some run) (h : f ∈ catchupTimes runs) :
    f ∈ catchupTimes (runs.eraseIdx i) ∨ run.isCatchup ∧ f = run.scheduledTime := by
  obtain ⟨r, hr, rfl⟩ := mem_map.mp h
  obtain ⟨hmem, hcatchup⟩ := mem_filter.mp hr
  rcases mem_of_mem_eraseIdx_or hi hmem with rfl | hrest
  · exact Or.inr ⟨hcatchup, rfl⟩
  · exact Or.inl (mem_map_of_mem (mem_filter.mpr ⟨hrest, hcatchup⟩))

lemma Kept.dispatch {i : ℕ} {a : DispatchEnv} {save} (h : Kept f s)
    (he : cfg.enqueue) (hsuspended : a.suspended = false)
    (hroom : s.planner.buffered.length < defaultMaxBufferItems)
    (hstep : step cfg s (.dispatch i a save) = some t) : Kept f t := by
  simp only [step] at hstep
  cases hi : s.inFlight[i]? with
  | none => simp [hi] at hstep
  | some run =>
    simp only [hi, some.injEq] at hstep
    subst hstep
    have hset := State.settled_settle {s with
      inFlight := s.inFlight.eraseIdx i
      enqueued := if enqueues cfg run a then run.scheduledTime::s.enqueued else s.enqueued}
      (s.planner.dispatchRun cfg run a) save
    have hruns : ∀ r ∈ s.inFlight.eraseIdx i, r.isCatchup → r.dag.overlapPolicy = .all :=
      fun r hr => h.runs r (mem_of_mem_eraseIdx hr)
    have hflight := fun hf => mem_catchupTimes_eraseIdx (f := f) hi hf
    have hpresent := h.present
    cases hc : run.isCatchup with
    | false =>
      have hmark : Planner.Remarked s.planner (s.planner.dispatchRun cfg run a).1
          s.planner.lastScheduledTime := remarked_dispatchRun hc
      refine ⟨h.policy.of_buffer (hset.buffer.trans hmark.buffer), hset.inFlight ▸ hruns, ?_⟩
      rw [hset.enqueued, hset.buffered, hset.inFlight, hmark.buffered]
      simp only [enqueues, hc] at hflight ⊢
      tauto
    | true =>
      have hrun : run.dag.overlapPolicy = .all := h.runs run (mem_of_getElem? hi) hc
      have hdispatch : (s.planner.dispatchRun cfg run a).1 =
          if a.call then (s.planner.advanceDAGWatermark run.scheduledTime).1
          else s.planner.reinsertCatchupItem run := by simp [dispatchRun, hc, dispatchCatchup, hsuspended, he]
      cases hcall : a.call with
      | true =>
        have hmark := s.planner.remarked_advance run.scheduledTime
        rw [hdispatch, if_pos hcall] at hset
        refine ⟨h.policy.of_buffer (hset.buffer.trans hmark.buffer), hset.inFlight ▸ hruns, ?_⟩
        rw [hset.enqueued, hset.buffered, hset.inFlight, hmark.buffered]
        simp only [enqueues, hc, hsuspended, he, hcall, Bool.not_false, Bool.and_self, ↓reduceIte, mem_cons]
        tauto
      | false =>
        obtain ⟨hkept, hbuf⟩ := h.policy.reinsert hrun hroom
        have hnot : ¬ a.call := by simp [hcall]
        rw [hdispatch, if_neg hnot] at hset
        refine ⟨hkept.of_buffer hset.buffer, hset.inFlight ▸ hruns, ?_⟩
        rw [hset.enqueued, hset.buffered, hset.inFlight, hbuf]
        simp only [enqueues, hcall, Bool.and_false, Bool.false_eq_true, ↓reduceIte, mem_cons]
        tauto

section
variable {d : Dag} {now observedAt : ℤ} (hq : cfg.queuesEnabled)
  (hall : dag.overlapPolicy = .all) (hw : dag.catchupWindow ≤ fiveYears)
  (hfires : ∃ s ∈ dag.schedule, ∃ c, s.parsed = some c ∧ c.fires f) (hsame : SameCatchup dag d)
include hq hall hw hfires hsame

lemma Kept.rebuild {p : Planner} (hruns : ∀ r ∈ t.inFlight, r.isCatchup → r.dag.overlapPolicy = .all)
    (hnone : p.buffer = none) (hin : inWindow dag f p.watermarkState now)
    (hbefore : f ∈ t.enqueued ∨ p.watermarkState.before f)
    (hbuffer : t.planner.buffer = (p.recomputeBuffer cfg d now).1.buffer) : Kept f t := by
  obtain ⟨-, hkept, hmem⟩ := rebuilt hq hall hw hfires hsame hnone hin
  have hbuf : t.planner.buffered = (p.recomputeBuffer cfg d now).1.buffered := by simp only [buffered, hbuffer]
  refine ⟨hkept.of_buffer hbuffer, hruns, ?_⟩
  rw [hbuf]
  exact hbefore.imp_right fun h => Or.inl (hmem h)

lemma Kept.updated {save} (h : Kept f s) (hin : inWindow dag f s.planner.watermarkState now)
    (hbefore : f ∈ s.enqueued ∨ s.planner.watermarkState.before f)
    (hstep : step cfg s (.updated d now observedAt save) = some t) : Kept f t := by
  simp only [step, some.injEq] at hstep
  subst hstep
  have hset := s.settled_settle (s.planner.handleUpdated cfg d now observedAt) save
  have hp : buffer {s.planner with entry := some d, buffer := none} = none := rfl
  have hpos := (rebuilt hq hall hw hfires hsame hp hin).1
  refine Kept.rebuild hq hall hw hfires hsame (by rw [hset.inFlight]; exact h.runs) hp hin
    (by rw [hset.enqueued]; exact hbefore) (hset.buffer.trans ?_)
  simp only [handleUpdated, if_pos hpos]
  exact (remarked_reconcile _ _ _).buffer

lemma Kept.restart {load save} (hin : inWindow dag f (s.loaded load) now)
    (hbefore : f ∈ s.enqueued ∨ (s.loaded load).before f)
    (hstep : step cfg s (.restart (some d) load save now observedAt) = some t) : Kept f t := by
  simp only [step, some.injEq] at hstep
  subst hstep
  have hset := State.settled_settle {s with inFlight := []}
    (init cfg (s.loaded load) (some d) now observedAt) save
  obtain ⟨p, -, hnone, -, htick, hlst, hinit⟩ := exists_init cfg (s.loaded load) d now observedAt
  have hlst' : p.watermarkState.lastScheduledTime = (s.loaded load).lastScheduledTime := hlst
  have hin' : inWindow dag f p.watermarkState now := by simpa only [inWindow, htick, hlst'] using hin
  have hbefore' : f ∈ s.enqueued ∨ p.watermarkState.before f := by
    simpa only [SchedulerState.before, htick, hlst'] using hbefore
  have hpos := (rebuilt hq hall hw hfires hsame hnone hin').1
  rw [hinit, if_pos hpos] at hset
  exact Kept.rebuild hq hall hw hfires hsame (by simp [hset.inFlight]) hnone hin'
    (by rw [hset.enqueued]; exact hbefore') hset.buffer

end

lemma Kept.step (hq : cfg.queuesEnabled) (he : cfg.enqueue)
    (hall : dag.overlapPolicy = .all) (hw : dag.catchupWindow ≤ fiveYears)
    (hfires : ∃ s ∈ dag.schedule, ∃ c, s.parsed = some c ∧ c.fires f) (h : Kept f s)
    (hsame : l.Unchanged dag) (hl : ordinary dag f s l) (hbefore : rebuildsBefore f s l)
    (hstep : step cfg s l = some t) : Kept f t := by
  cases l with
  | restart d load save now observedAt =>
    cases d with
    | none => simp [ordinary] at hl
    | some d => exact Kept.restart hq hall hw hfires hsame hl (by simpa [rebuildsBefore] using hbefore) hstep
  | plan now env => exact h.plan (by simpa [ordinary] using hl) hstep
  | dispatch i a save =>
    simp only [ordinary, Bool.and_eq_true, Bool.not_eq_true', decide_eq_true_eq] at hl
    exact h.dispatch he hl.1 hl.2 hstep
  | advance now =>
    simp only [Scheduler.step, some.injEq] at hstep
    subst hstep
    have hb : (s.planner.advance now).buffer = s.planner.buffer := advance_buffer _ _
    have hbuf : (s.planner.advance now).buffered = s.planner.buffered := by simp only [buffered, hb]
    exact ⟨h.policy.of_buffer hb, h.runs, by simpa only [hbuf] using h.present⟩
  | added dag now observedAt save | deleted save => simp [ordinary] at hl
  | updated d now observedAt save =>
    exact Kept.updated hq hall hw hfires hsame h hl (by simpa [rebuildsBefore] using hbefore) hstep
  | flush save =>
    simp only [Scheduler.step, some.injEq] at hstep
    subst hstep
    exact h.of_settled rfl (s.settled_flush save)

lemma kept_start {store load save now observedAt} (hall : dag.overlapPolicy = .all)
    (hf : f ∈ (start cfg store (some dag) load save now observedAt).planner.buffered) :
    cfg.queuesEnabled ∧ Kept f (start cfg store (some dag) load save now observedAt) := by
  have hset := (State.blank store).settled_settle
    (init cfg ((State.blank store).loaded load) (some dag) now observedAt) save
  obtain ⟨p, -, hnone, -, -, -, hinit⟩ := exists_init cfg ((State.blank store).loaded load) dag now observedAt
  rw [hinit] at hset
  have hnil : p.buffered = [] := by simp [buffered, hnone]
  have hbuffered : f ∈ buffered _ := hset.buffered ▸ hf
  have hpos : 0 < dag.catchupWindow := by
    by_contra hpos
    simp [hpos, hnil] at hbuffered
  rw [if_pos hpos] at hset hbuffered
  refine ⟨?_, (Planner.KeepsAll.recompute hall hnone).of_buffer hset.buffer, ?_, Or.inr (Or.inl hf)⟩
  · by_contra hq
    have hoff : cfg.queuesEnabled = false := by simpa using hq
    simp [recomputeBuffer, hoff, hnil] at hbuffered
  · have hflight : (start cfg store (some dag) load save now observedAt).inFlight = [] := hset.inFlight
    simp [hflight]

/-- A missed fire time that `Init` buffered is enqueued, still buffered, or planned and about to
be dispatched, as long as no buffer is rebuilt with a watermark past it. -/
theorem missed_interval_kept {cfg : Config} {dag : Dag} {store : SchedulerState} {load save : Bool}
    {now observedAt f : ℤ} {s : State} (he : cfg.enqueue) (hall : dag.overlapPolicy = .all)
    (hw : dag.catchupWindow ≤ fiveYears) (hfires : ∃ s ∈ dag.schedule, ∃ c, s.parsed = some c ∧ c.fires f)
    (hf : f ∈ (start cfg store (some dag) load save now observedAt).planner.buffered) (h : Reach (step cfg)
      (fun s l => l.Unchanged dag ∧ ordinary dag f s l ∧ rebuildsBefore f s l)
      (start cfg store (some dag) load save now observedAt) s) :
    f ∈ s.enqueued ∨ f ∈ s.planner.buffered ∨ f ∈ catchupTimes s.inFlight := by
  obtain ⟨hq, hstart⟩ := kept_start hall hf
  have hkept : Kept f s := h.invariant (P := Kept f) hstart fun a l b _ ha hl hstep =>
    ha.step hq he hall hw hfires hl.1 hl.2.1 hl.2.2 hstep
  exact hkept.present

/-! ### A run that loses an item -/

def tickThenUpdate : List (Label × ℕ) :=
  [(.plan (10*minute) idleEnv, 1), (.dispatch 0 dispatched true, 1), (.advance (10*minute), 1),
    (.updated minutely (10*minute) (10*minute) true, 1)]

def updateThenTick : List (Label × ℕ) :=
  [(.updated minutely (10*minute) (10*minute) true, 1), (.plan (10*minute) idleEnv, 1),
    (.dispatch 0 dispatched true, 1), (.advance (10*minute), 1)]

lemma fires_minutely : ∃ s ∈ minutely.schedule, ∃ c, s.parsed = some c ∧ c.fires (10*minute) :=
  ⟨_, mem_singleton_self _, everyMinute, rfl, by decide, Dvd.intro_left _ rfl⟩

def updatedLate : State := follow (step queued) (ordinary minutely (10*minute)) tenth tickThenUpdate

/-- Minute nine is enqueued in the first tick; `Advance` then puts the last tick at minute ten,
so the update rebuilds an empty buffer and minute ten is gone. -/
theorem missed_interval_dropped : 10*minute ∈ tenth.planner.buffered ∧ Reach (step queued)
        (fun s l => l.Unchanged minutely ∧ ordinary minutely (10*minute) s l) tenth updatedLate ∧
      updatedLate.enqueued = [9*minute] ∧ updatedLate.planner.buffered = [] ∧ updatedLate.inFlight.length = 0 := by
  refine ⟨by decide +kernel, reach_follow_of_mem (fun e he s h => ⟨?_, h⟩) _, by decide +kernel,
    by decide +kernel, by decide +kernel⟩
  simp only [tickThenUpdate, mem_cons, not_mem_nil, or_false] at he
  rcases he with rfl | rfl | rfl | rfl <;> first | trivial | exact ⟨rfl, rfl, rfl⟩

def updatedEarly : State :=
  follow (step queued)
    (fun s l => ordinary minutely (10*minute) s l && rebuildsBefore (10*minute) s l) tenth
    updateThenTick

theorem missed_interval_kept_update_first : updatedEarly.enqueued = [9*minute] ∧
      (10*minute ∈ updatedEarly.enqueued ∨ 10*minute ∈ updatedEarly.planner.buffered ∨
        10*minute ∈ catchupTimes updatedEarly.inFlight) := by
  have hreach : Reach (step queued) (fun s l => l.Unchanged minutely ∧
      ordinary minutely (10*minute) s l ∧ rebuildsBefore (10*minute) s l)
      tenth updatedEarly := by
    refine reach_follow_of_mem (fun e he s h => ?_) _
    rw [Bool.and_eq_true] at h
    refine ⟨?_, h⟩
    simp only [updateThenTick, mem_cons, not_mem_nil, or_false] at he
    rcases he with rfl | rfl | rfl | rfl <;> first | trivial | exact ⟨rfl, rfl, rfl⟩
  have hbuffered : 10*minute ∈ tenth.planner.buffered := by decide +kernel
  exact ⟨by decide +kernel, missed_interval_kept rfl rfl (by decide) fires_minutely hbuffered hreach⟩

end
end Ayatsuri.Scheduler
