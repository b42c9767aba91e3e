import Ayatsuri.TickPlannerEffects

/-! The dispatch of one-off runs, step by step: `DispatchRun` runs in a goroutine per planned
run, asks whether the dag-run exists, dispatches it and marks the one-off consumed. The run ID is
made of the DAG name, the fingerprint and the time that the fingerprint spells, so here the
fingerprint stands for it. -/
namespace Ayatsuri.Scheduler.OneOff
open TransitionSystem List Option Planner Schedule

inductive Pc
  | check | dispatch | recheck | consume
  deriving DecidableEq

structure Goroutine where
  run : PlannedRun
  fingerprint : String
  pc : Pc

structure System where
  base : State
  goroutine : ℕ → Option Goroutine
  /-- The fingerprints of the successful `Dispatch` calls. -/
  dispatched : List String

inductive Label
  | base (l : Scheduler.Label)
  /-- The in-flight run `i` gets the goroutine `k`. -/
  | launch (i k : ℕ) (suspended : Bool)
  | runExists (k : ℕ) (answer : Option Bool)
  | dispatch (k : ℕ) (ok : Bool)
  | recheck (k : ℕ) (answer : Option Bool)
  | consume (k : ℕ) (save : Bool)

def fingerprintOf (run : PlannedRun) : Option String :=
  match run.scheduleType, run.schedule with
  | .start, some (.oneOff _ fingerprint) => some fingerprint
  | _, _ => none

namespace System
variable (s : System)

def setGoroutine (k : ℕ) (g : Option Goroutine) : System :=
  {s with goroutine := Function.update s.goroutine k g}

@[simp] lemma goroutine_setGoroutine (k j : ℕ) (g : Option Goroutine) :
    (s.setGoroutine k g).goroutine j = if j = k then g else s.goroutine j := Function.update_apply _ _ _ _

/-- The goroutine goes on at `pc`. -/
def goto (k : ℕ) (g : Goroutine) (pc : Pc) : System := s.setGoroutine k (some {g with pc := pc})

/-- What `RunExists` may answer: not `false` once a dispatch of the run succeeded. -/
def answers (fingerprint : String) (answer : Option Bool) : Bool := answer ≠ some false || fingerprint ∉ s.dispatched

end System

def stepBase (cfg : Config) (s : System) (l : Scheduler.Label) : Option System :=
  match l with
  | .restart .. => (Scheduler.step cfg s.base l).map fun b => {s with base := b, goroutine := fun _ => none}
  | .dispatch i .. =>
    if (s.base.inFlight[i]?.bind fingerprintOf).isSome then none
    else (Scheduler.step cfg s.base l).map fun b => {s with base := b}
  | _ => (Scheduler.step cfg s.base l).map fun b => {s with base := b}

def stepGoroutine (s : System) (k : ℕ) (g : Goroutine) : Label → Option System
  | .runExists _ answer =>
    if g.pc = .check && s.answers g.fingerprint answer then
      some (match answer with
        | none => s.setGoroutine k none
        | some true => s.goto k g .consume
        | some false => s.goto k g .dispatch)
    else none
  | .dispatch _ ok =>
    if g.pc = .dispatch then
      some (if ok then {s with dispatched := g.fingerprint::s.dispatched}.goto k g .consume
        else s.goto k g .recheck)
    else none
  | .recheck _ answer =>
    if g.pc = .recheck && s.answers g.fingerprint answer then
      some (if answer = some true then s.goto k g .consume else s.setGoroutine k none)
    else none
  | .consume _ save =>
    if g.pc = .consume then
      some ({s with
        base := s.base.settle (s.base.planner.markOneOffConsumed g.fingerprint g.run.scheduledTime) save
        }.setGoroutine k none)
    else none
  | .base _ | .launch .. => none

def step (cfg : Config) (s : System) : Label → Option System
  | .base l => stepBase cfg s l
  | .launch i k suspended =>
    match s.base.inFlight[i]?, s.goroutine k with
    | some run, none =>
      (fingerprintOf run).map fun fingerprint =>
        {s with base := {s.base with inFlight := s.base.inFlight.eraseIdx i}}.setGoroutine k
          (if suspended then none else some ⟨run, fingerprint, .check⟩)
    | _, _ => none
  | .runExists k answer => (s.goroutine k).bind fun g => stepGoroutine s k g (.runExists k answer)
  | .dispatch k ok => (s.goroutine k).bind fun g => stepGoroutine s k g (.dispatch k ok)
  | .recheck k answer => (s.goroutine k).bind fun g => stepGoroutine s k g (.recheck k answer)
  | .consume k save => (s.goroutine k).bind fun g => stepGoroutine s k g (.consume k save)

/-- Just after the first `Init`. -/
def start (cfg : Config) (store : SchedulerState) (dag : Option Dag) (load save : Bool) (now observedAt : ℤ) : System :=
  ⟨Scheduler.start cfg store dag load save now observedAt, fun _ => none, []⟩

/-! ### At most one dispatch -/

def System.Dispatching (s : System) (fingerprint : String) (k : ℕ) : Prop :=
  ∃ g, s.goroutine k = some g ∧ g.fingerprint = fingerprint ∧ g.pc = .dispatch

/-- A check of the one-off that finds no dag-run is made only while no goroutine is about to
dispatch it. -/
def oneAtATime (fingerprint : String) (s : System) : Label → Prop
  | .runExists k (some false) =>
    (s.goroutine k).any (·.fingerprint = fingerprint) = true → ∀ j, ¬ s.Dispatching fingerprint j
  | _ => True

open OneOff.System

section
variable {cfg : Config} {s t : System} {l : Label} {fingerprint : String} {u : System} {g : Option Goroutine}

lemma dispatching_setGoroutine {k j : ℕ} (hg : ∀ g', g = some g' → g'.pc ≠ .dispatch) (hu : u.goroutine = s.goroutine)
    (h : (u.setGoroutine k g).Dispatching fingerprint j) : j ≠ k ∧ s.Dispatching fingerprint j := by
  obtain ⟨g', hg', hfp, hpc⟩ := h
  by_cases hj : j = k
  · subst hj
    exact absurd hpc (hg g' (by simpa using hg'))
  · exact ⟨hj, g', by simpa [hj, hu] using hg', hfp, hpc⟩

inductive Effect (s t : System) : Label → Prop
  | none {l : Label} (dispatched : t.dispatched = s.dispatched)
      (dispatching : ∀ fingerprint j, t.Dispatching fingerprint j → s.Dispatching fingerprint j) :
      Effect s t l
  | check (k : ℕ) (g : Goroutine) (goroutine : s.goroutine k = some g)
      (absent : g.fingerprint ∉ s.dispatched) (result : t = s.goto k g .dispatch) :
      Effect s t (.runExists k (some false))
  | dispatch (k : ℕ) (g : Goroutine) (goroutine : s.goroutine k = some g) (pc : g.pc = .dispatch)
      (result : t = {s with dispatched := g.fingerprint::s.dispatched}.goto k g .consume) :
      Effect s t (.dispatch k true)

lemma effect_of_set {k} (l : Label) (hg : ∀ g', g = some g' → g'.pc ≠ .dispatch) (hu : u.goroutine = s.goroutine)
    (hd : u.dispatched = s.dispatched) : Effect s (u.setGoroutine k g) l :=
  .none hd fun _ _ h => (dispatching_setGoroutine hg hu h).2

lemma effect_stepBase {l} (h : stepBase cfg s l = some t) : Effect s t (.base l) := by
  have hsame : ∀ b : State, Effect s {s with base := b} (.base l) := fun b => .none rfl fun _ _ h => h
  cases l with
  | restart =>
    simp only [stepBase] at h
    obtain ⟨b, -, rfl⟩ := map_eq_some_iff.mp h
    refine .none rfl fun fp j hj => ?_
    obtain ⟨g, hg, -⟩ := hj
    simp at hg
  | dispatch =>
    simp only [stepBase] at h
    split_ifs at h
    obtain ⟨b, -, rfl⟩ := map_eq_some_iff.mp h
    exact hsame b
  | plan | advance | added | updated | deleted | flush =>
    simp only [stepBase] at h
    obtain ⟨b, -, rfl⟩ := map_eq_some_iff.mp h
    exact hsame b

lemma effect_step (h : step cfg s l = some t) : Effect s t l := by
  cases l with
  | base l => exact effect_stepBase h
  | launch i k suspended =>
    simp only [step] at h
    split at h
    · obtain ⟨fp, -, rfl⟩ := map_eq_some_iff.mp h
      refine effect_of_set _ ?_ rfl rfl
      cases suspended <;> simp
    · simp at h
  | runExists k answer =>
    obtain ⟨g, hk, h⟩ := bind_eq_some_iff.mp h
    simp only [stepGoroutine] at h
    split_ifs at h with hpc
    rw [Bool.and_eq_true] at hpc
    cases h
    match answer, hpc.2 with
    | none, _ => exact effect_of_set _ (by simp) rfl rfl
    | some true, _ => exact effect_of_set _ (by simp) rfl rfl
    | some false, hanswer => exact .check k g hk (by simpa [answers] using hanswer) rfl
  | dispatch k ok =>
    obtain ⟨g, hk, h⟩ := bind_eq_some_iff.mp h
    simp only [stepGoroutine] at h
    split_ifs at h with hpc hok
    · cases h
      subst hok
      exact .dispatch k g hk hpc rfl
    · cases h
      exact effect_of_set _ (by simp) rfl rfl
  | recheck k answer =>
    obtain ⟨g, hk, h⟩ := bind_eq_some_iff.mp h
    simp only [stepGoroutine] at h
    split_ifs at h <;> obtain rfl := some.inj h <;> exact effect_of_set _ (by simp) rfl rfl
  | consume k save =>
    obtain ⟨g, hk, h⟩ := bind_eq_some_iff.mp h
    obtain ⟨-, rfl⟩ := of_guarded h
    exact effect_of_set _ (by simp) rfl rfl

structure AtMostOnce (fingerprint : String) (s : System) : Prop where
  count : s.dispatched.count fingerprint ≤ 1
  alone : ∀ j k, s.Dispatching fingerprint j → s.Dispatching fingerprint k → j = k
  fresh : ∀ k, s.Dispatching fingerprint k → fingerprint ∉ s.dispatched

lemma AtMostOnce.step (h : AtMostOnce fingerprint s) (hl : oneAtATime fingerprint s l)
    (hstep : step cfg s l = some t) : AtMostOnce fingerprint t := by
  cases effect_step hstep with
  | none hd hdispatching =>
    refine ⟨hd ▸ h.count, fun j k hj hk => ?_, fun k hk => ?_⟩
    · exact h.alone j k (hdispatching _ _ hj) (hdispatching _ _ hk)
    · exact hd ▸ h.fresh k (hdispatching _ _ hk)
  | check k g hk habsent ht =>
    subst ht
    have hcases : ∀ j, (s.goto k g .dispatch).Dispatching fingerprint j →
        (j = k ∧ g.fingerprint = fingerprint) ∨ s.Dispatching fingerprint j := by
      rintro j ⟨g', hg', hfp, hpc⟩
      by_cases hj : j = k
      · subst hj
        obtain rfl : {g with pc := .dispatch} = g' := by simpa [goto] using hg'
        exact .inl ⟨rfl, hfp⟩
      · exact .inr ⟨g', by simpa [goto, hj] using hg', hfp, hpc⟩
    by_cases hfp : g.fingerprint = fingerprint
    · have hnone : ∀ j, ¬ s.Dispatching fingerprint j := hl (by simp [hk, hfp])
      have honly : ∀ j, (s.goto k g .dispatch).Dispatching fingerprint j → j = k := fun j hj =>
        ((hcases j hj).resolve_right (hnone j)).1
      exact ⟨h.count, fun i j hi hj => (honly i hi).trans (honly j hj).symm, fun _ _ => hfp ▸ habsent⟩
    · have hothers : ∀ j, (s.goto k g .dispatch).Dispatching fingerprint j → s.Dispatching fingerprint j := fun j hj =>
        (hcases j hj).resolve_left fun hself => hfp hself.2
      exact ⟨h.count, fun i j hi hj => h.alone i j (hothers i hi) (hothers j hj), fun j hj => h.fresh j (hothers j hj)⟩
  | dispatch k g hk hpc ht =>
    subst ht
    have hothers : ∀ j, ({s with dispatched := g.fingerprint::s.dispatched}.goto k g
        .consume).Dispatching fingerprint j → j ≠ k ∧ s.Dispatching fingerprint j := fun j hj =>
      dispatching_setGoroutine (by simp) rfl hj
    by_cases hfp : g.fingerprint = fingerprint
    · have hself : s.Dispatching fingerprint k := ⟨g, hk, hfp, hpc⟩
      have hgone : ∀ j, ¬ ({s with dispatched := g.fingerprint::s.dispatched}.goto k g
          .consume).Dispatching fingerprint j := fun j hj => (hothers j hj).1 (h.alone j k (hothers j hj).2 hself)
      refine ⟨?_, fun j _ hj => absurd hj (hgone j), fun j hj => absurd hj (hgone j)⟩
      have hzero : s.dispatched.count fingerprint = 0 := count_eq_zero.mpr (h.fresh k hself)
      simp [goto, setGoroutine, hfp, hzero]
    · refine ⟨?_, fun i j hi hj => ?_, fun j hj => ?_⟩
      · simpa [goto, setGoroutine, count_cons, hfp] using h.count
      · exact h.alone i j (hothers i hi).2 (hothers j hj).2
      · have := h.fresh j (hothers j hj).2
        simpa [goto, setGoroutine, Ne.symm hfp] using this

lemma not_dispatching_of_unchecked (hu : ∀ j, ¬ u.Dispatching fingerprint j)
    (h : Reach (step cfg) (fun _ l => ∀ k answer, l ≠ .runExists k answer) u s) :
    ∀ j, ¬ s.Dispatching fingerprint j := by
  refine h.invariant (P := fun s => ∀ j, ¬ s.Dispatching fingerprint j) hu ?_
  intro a l b _ ha hl hstep j hj
  cases effect_step hstep with
  | none _ hdispatching => exact ha j (hdispatching _ _ hj)
  | check k => exact hl k _ rfl
  | dispatch k g _ _ hb =>
    subst hb
    exact ha j (dispatching_setGoroutine (by simp) rfl hj).2

end

/-! ### Consumed one-offs -/

def consumedIn (oneOffs : List (String × OneOffScheduleState)) (fingerprint : String) : Bool :=
  (oneOffs.lookup fingerprint).any fun state => state.status = .consumed

def consumed (w : SchedulerState) (fingerprint : String) : Bool := consumedIn (w.dag.getD .zero).oneOffs fingerprint

section
variable {fingerprint other : String} {oneOffs : List (String × OneOffScheduleState)}

lemma lookup_filter_keys {q : String → Bool} (h : q fingerprint) :
    (oneOffs.filter fun e => q e.1).lookup fingerprint = oneOffs.lookup fingerprint := by
  induction oneOffs with
  | nil => rfl
  | cons e oneOffs ih =>
    obtain ⟨key, state⟩ := e
    by_cases hkey : fingerprint = key
    · subst hkey
      simp [h]
    · have hbeq : (fingerprint == key) = false := by simpa using hkey
      cases hq : q key <;> simp [hq, lookup_cons, hbeq, ih]

lemma consumedIn_setOneOff {state : OneOffScheduleState} (h : consumedIn oneOffs fingerprint)
    (hstate : other = fingerprint → state.status = .consumed) :
    consumedIn (setOneOff oneOffs other state) fingerprint := by
  unfold consumedIn setOneOff
  by_cases hkey : fingerprint = other
  · subst hkey
    simp [hstate rfl]
  have hbeq : (fingerprint == other) = false := by simpa using hkey
  have hfilter : (oneOffs.filter fun e => e.1 ≠ other).lookup fingerprint = oneOffs.lookup fingerprint :=
    lookup_filter_keys (q := fun key => decide (key ≠ other)) (by simpa using hkey)
  rw [lookup_cons, hbeq]
  dsimp only
  rw [hfilter]
  exact h

variable {now : ℤ}

lemma consumedIn_reconcileOne {acc : List (String × OneOffScheduleState) × Bool}
    (h : consumedIn acc.1 fingerprint) (s : Schedule) :
    consumedIn (reconcileOne now acc s).1 fingerprint := by
  unfold reconcileOne
  split
  · next scheduledTime key =>
    by_cases hempty : key = ""
    · rw [if_pos hempty]
      exact h
    rw [if_neg hempty]
    split
    · next existing hlookup =>
      split_ifs
      · refine consumedIn_setOneOff h ?_
        rintro rfl
        simpa [consumedIn, hlookup] using h
      · exact h
    · next hlookup =>
      refine consumedIn_setOneOff h ?_
      rintro rfl
      simp [consumedIn, hlookup] at h
  · exact h

lemma consumedIn_reconcile {w : DAGWatermark} {dag}
    (h : consumedIn w.oneOffs fingerprint) (hactive : fingerprint ∈ activeFingerprints dag) :
    consumedIn (reconcileOneOffState w dag now).1.oneOffs fingerprint := by
  have hfold : ∀ (schedules : List Schedule) (acc : List (String × OneOffScheduleState) × Bool),
      consumedIn acc.1 fingerprint →
      consumedIn (schedules.foldl (reconcileOne now) acc).1 fingerprint := by
    intro schedules
    induction schedules with
    | nil => exact fun _ hacc => hacc
    | cons s schedules ih => exact fun acc hacc => ih _ (consumedIn_reconcileOne hacc s)
  have hadded := hfold dag.schedule (w.oneOffs, false) h
  unfold reconcileOneOffState
  dsimp only
  unfold consumedIn at hadded ⊢
  rw [lookup_filter_keys (q := fun key => decide (key ∈ activeFingerprints dag)) (by simpa using hactive)]
  exact hadded

lemma consumedIn_reconcileWatermark {w : Option DAGWatermark} {dag}
    (h : consumedIn (w.getD .zero).oneOffs fingerprint) (hactive : fingerprint ∈ activeFingerprints dag) :
    consumedIn ((reconcileWatermark w dag now).1.getD .zero).oneOffs fingerprint := by
  have hkept : consumedIn (reconcileOneOffState (w.getD .zero) dag now).1.oneOffs fingerprint :=
    consumedIn_reconcile h hactive
  unfold reconcileWatermark
  dsimp only
  split_ifs with hchanged hempty
  · rw [hempty.2] at hkept
    simp [consumedIn] at hkept
  · exact hkept
  · exact h

variable {cfg : Config} {p p' : Planner}

section
variable (h : consumed p.watermarkState fingerprint)
include h

lemma consumed_congr (heq : p'.oneOffs = p.oneOffs) : consumed p'.watermarkState fingerprint := by
  change consumedIn p'.oneOffs fingerprint
  rw [heq]
  exact h

lemma consumed_reconcile {dag} (hactive : fingerprint ∈ activeFingerprints dag) :
    consumed (p.reconcileOneOffSchedules dag now).1.watermarkState fingerprint := by
  unfold reconcileOneOffSchedules
  dsimp only
  split_ifs
  · exact consumedIn_reconcileWatermark h hactive
  · exact h

lemma consumed_markOneOffConsumed {t} : consumed (p.markOneOffConsumed other t).1.watermarkState fingerprint := by
  unfold markOneOffConsumed
  dsimp only
  split_ifs
  · exact h
  · exact h
  · exact consumedIn_setOneOff h fun _ => rfl
  · exact consumedIn_setOneOff h fun _ => rfl

lemma consumed_dispatchRun {run a} : consumed (p.dispatchRun cfg run a).1.watermarkState fingerprint := by
  unfold dispatchRun
  by_cases hc : run.isCatchup
  · rw [if_pos hc]
    exact consumed_congr h (oneOffs_dispatchCatchup cfg p run a)
  rw [if_neg hc]
  split
  · split_ifs
    · exact h
    unfold dispatchOneOff
    split
    · exact h
    · exact consumed_markOneOffConsumed h
    · split_ifs
      · exact consumed_markOneOffConsumed h
      · exact h
  · exact h

end

lemma consumed_init {loaded dag observedAt}
    (h : consumed loaded fingerprint) (hactive : fingerprint ∈ activeFingerprints dag) :
    consumed (init cfg loaded (some dag) now observedAt).1.watermarkState fingerprint := by
  have hp : consumed (mk (some dag) none loaded false []).watermarkState fingerprint := h
  have hreconciled : consumed ((mk (some dag) none loaded false []).reconcileOneOffSchedules dag
      observedAt).1.watermarkState fingerprint := consumed_reconcile hp hactive
  unfold init
  dsimp only
  split_ifs
  · exact consumed_congr hreconciled (oneOffs_recompute _ _ _ _)
  · exact hreconciled

def remembers (fingerprint : String) (s : System) : Label → Bool
  | .base (.restart (some dag) load ..) => fingerprint ∈ activeFingerprints dag &&
      (!consumed s.base.planner.watermarkState fingerprint || consumed (s.base.loaded load) fingerprint)
  | .base (.added dag ..) | .base (.updated dag ..) => fingerprint ∈ activeFingerprints dag
  | .base (.restart none ..) | .base (.deleted _) => false
  | _ => true

lemma consumed_settle {s : State} {r : Planner × Bool} {save} (h : consumed r.1.watermarkState fingerprint) :
    consumed (s.settle r save).planner.watermarkState fingerprint := (s.settled_settle r save).watermark ▸ h

lemma consumed_base {s t : State} {l} {u : System} (hu : u.base = s) (h : consumed s.planner.watermarkState fingerprint)
    (hl : remembers fingerprint u (.base l)) (hstep : Scheduler.step cfg s l = some t) :
    consumed t.planner.watermarkState fingerprint := by
  cases l with
  | restart dag load save now observedAt =>
    cases dag with
    | none => simp [remembers] at hl
    | some dag =>
      simp only [remembers, hu, h, Bool.not_true, Bool.false_or, Bool.and_eq_true, decide_eq_true_eq] at hl
      cases hstep
      exact consumed_settle (consumed_init hl.2 hl.1)
  | plan now env =>
    obtain ⟨p', runs, hm, hplan⟩ := s.planner.exists_planMove now env
    simp only [Scheduler.step, hplan, some.injEq] at hstep
    subst hstep
    exact consumed_congr h hm.oneOffs
  | dispatch i a save =>
    simp only [Scheduler.step] at hstep
    split at hstep
    · simp at hstep
    · cases hstep
      exact consumed_settle (consumed_dispatchRun h)
  | advance now =>
    cases hstep
    exact consumed_congr h (s.planner.oneOffs_advanceTick now)
  | added dag now observedAt save =>
    cases hstep
    apply consumed_settle
    refine consumed_reconcile (consumed_congr h ?_) (by simpa [remembers] using hl)
    exact oneOffs_advance {s.planner with entry := some dag} now
  | updated dag now observedAt save =>
    cases hstep
    apply consumed_settle
    refine consumed_reconcile (consumed_congr h ?_) (by simpa [remembers] using hl)
    split_ifs
    · exact oneOffs_recompute _ _ _ _
    · rfl
  | deleted save => simp [remembers] at hl
  | flush save =>
    cases hstep
    exact (s.settled_flush save).watermark ▸ h

lemma consumed_step {s t : System} {l} (h : consumed s.base.planner.watermarkState fingerprint)
    (hl : remembers fingerprint s l) (hstep : step cfg s l = some t) :
    consumed t.base.planner.watermarkState fingerprint := by
  cases l with
  | base l =>
    have hbase : ∃ b, Scheduler.step cfg s.base l = some b ∧ t.base = b := by
      cases l <;> simp only [step, stepBase] at hstep
      case dispatch =>
        split_ifs at hstep
        obtain ⟨b, hb, rfl⟩ := map_eq_some_iff.mp hstep
        exact ⟨b, hb, rfl⟩
      all_goals
        obtain ⟨b, hb, rfl⟩ := map_eq_some_iff.mp hstep
        exact ⟨b, hb, rfl⟩
    obtain ⟨b, hb, rfl⟩ := hbase
    exact consumed_base rfl h hl hb
  | launch i k suspended =>
    simp only [step] at hstep
    split at hstep
    · obtain ⟨_, -, rfl⟩ := map_eq_some_iff.mp hstep
      exact h
    · simp at hstep
  | runExists k answer =>
    obtain ⟨g, -, hstep⟩ := bind_eq_some_iff.mp hstep
    obtain ⟨-, rfl⟩ := of_guarded hstep
    split <;> exact h
  | dispatch k ok | recheck k answer =>
    obtain ⟨g, -, hstep⟩ := bind_eq_some_iff.mp hstep
    simp only [stepGoroutine] at hstep
    split_ifs at hstep <;> obtain rfl := some.inj hstep <;> exact h
  | consume k save =>
    obtain ⟨g, -, hstep⟩ := bind_eq_some_iff.mp hstep
    obtain ⟨-, rfl⟩ := of_guarded hstep
    exact consumed_settle (consumed_markOneOffConsumed h)

lemma of_fingerprintOf {r : PlannedRun} (h : fingerprintOf r = some fingerprint) :
    r.scheduleType = .start ∧ ∃ atTime, r.schedule = some (.oneOff atTime fingerprint) := by
  unfold fingerprintOf at h
  split at h
  · next atTime key hstart hschedule =>
    cases h
    exact ⟨hstart, atTime, hschedule⟩
  · simp at h

lemma pending_eq_none (h : consumed p.watermarkState fingerprint) : p.pendingOneOffState fingerprint = none := by
  unfold pendingOneOffState
  unfold consumed consumedIn at h
  cases hlookup : (p.watermarkState.dag.getD .zero).oneOffs.lookup fingerprint with
  | none => rfl
  | some state =>
    have hstatus : state.status = .consumed := by simpa [hlookup] using h
    simp [hstatus]

lemma not_planned_of_consumed {env r} (h : consumed p.watermarkState fingerprint) (hr : r ∈ (p.plan now env).2) :
    fingerprintOf r ≠ some fingerprint := by
  intro hfp
  obtain ⟨hstart, atTime, hschedule⟩ := of_fingerprintOf hfp
  obtain ⟨p', runs, hm, hplan⟩ := p.exists_planMove now env
  rw [hplan] at hr
  cases hm with
  | unregistered | suspended | deferred => simp at hr
  | produced _ _ _ run check =>
    obtain rfl : r = run := by simpa using hr
    simp [check.schedule_none] at hschedule
  | live dag _ p' check =>
    have hpending : p'.pendingOneOffState fingerprint = none := by
      rw [pendingOneOffState_congr check.oneOffs]
      exact pending_eq_none h
    rcases startCandidate_cases (liveRuns_start hr hstart) with
      ⟨e, -, he⟩ | ⟨e, -, he⟩
    · obtain ⟨at', key, state, hs, hstate, -, rfl⟩ := oneOffCandidate_spec he
      have hkey : oneOff at' key = .oneOff atTime fingerprint := hs.symm.trans (some.inj hschedule)
      obtain ⟨-, rfl⟩ := oneOff.inj hkey
      simp [hpending] at hstate
    · obtain ⟨next, hdue, -, rfl⟩ := cronCandidate_spec he
      rw [some.inj hschedule] at hdue
      simp [dueAt, parsedCron] at hdue

end

/-- Each one-off is dispatched successfully at most once, and once it is consumed no later plan
emits it, as long as its check and its dispatch are not interleaved with another's and restarts
remember what was consumed. -/
theorem one_off_once {cfg : Config} {store : SchedulerState} {dag : Option Dag} {load save : Bool}
    {now observedAt : ℤ} {fingerprint : String} {s : System} (h : Reach (step cfg)
      (fun s l => oneAtATime fingerprint s l ∧ remembers fingerprint s l)
      (start cfg store dag load save now observedAt) s) : s.dispatched.count fingerprint ≤ 1 ∧
      (consumed s.base.planner.watermarkState fingerprint → ∀ t, Reach (step cfg)
        (fun s l => oneAtATime fingerprint s l ∧ remembers fingerprint s l) s t →
        ∀ at' env, ∀ r ∈ (t.base.planner.plan at' env).2, fingerprintOf r ≠ some fingerprint) := by
  have honce : AtMostOnce fingerprint s := by
    refine h.invariant (P := AtMostOnce fingerprint) ⟨by simp [start], ?_, ?_⟩
      fun _ _ _ _ ha hl hstep => ha.step hl.1 hstep
    · rintro j k ⟨g, hg, -⟩
      simp [start] at hg
    · rintro k ⟨g, hg, -⟩
      simp [start] at hg
  refine ⟨honce.count, fun hconsumed t ht at' env r hr => ?_⟩
  have hstays : consumed t.base.planner.watermarkState fingerprint :=
    ht.invariant (P := fun s => consumed s.base.planner.watermarkState fingerprint) hconsumed
      fun _ _ _ _ ha hl hstep => consumed_step ha hl.2 hstep
  exact not_planned_of_consumed hstays hr

/-! ### Two dispatches of one run -/

def onceAtTen : Dag := ⟨[.oneOff (some (10*minute)) "at:10"], [], [], 0, .skip, false⟩

/-- `Init` at minute nine of a fresh store. -/
def pendingTen : System := start queued ⟨0, none⟩ (some onceAtTen) true true (9*minute) (9*minute)

def freeNow : PlanEnv :=
  let free : Answers := ⟨some false, some false, some ⟨.succeeded, none, none⟩⟩
  ⟨false, some false, some false, fun _ => free, fun _ => free, fun _ => true, fun _ => none⟩

/-- The dispatch of the first tick is slow: the second tick plans the run again, and both
goroutines see that it does not exist. -/
def slowDispatch : List (Label × ℕ) :=
  [(.base (.plan (10*minute) freeNow), 1), (.launch 0 0 false, 1), (.runExists 0 (some false), 1),
    (.base (.advance (10*minute)), 1), (.base (.plan (11*minute) freeNow), 1),
    (.launch 0 1 false, 1), (.runExists 1 (some false), 1), (.dispatch 0 true, 1),
    (.dispatch 1 true, 1)]

def unsavedRestart : List (Label × ℕ) :=
  [(.base (.plan (10*minute) freeNow), 1), (.launch 0 0 false, 1), (.runExists 0 (some false), 1),
    (.dispatch 0 true, 1), (.base (.flush true), 1), (.consume 0 false, 1)]

def restartTen : Label := .base (.restart (some onceAtTen) true true (11*minute) (11*minute))

theorem one_off_dispatched_twice : (Reach (step queued) always pendingTen (play (step queued) pendingTen slowDispatch) ∧
      (play (step queued) pendingTen slowDispatch).dispatched = ["at:10", "at:10"]) ∧
    (consumed (play (step queued) pendingTen unsavedRestart).base.planner.watermarkState "at:10" ∧
      ((play (step queued) pendingTen (unsavedRestart++[(restartTen, 1)])).base.planner.plan
        (11*minute) freeNow).2.map fingerprintOf = [some "at:10"]) := by
  refine ⟨⟨reach_play _ _, ?_⟩, ?_, ?_⟩ <;> decide +kernel

def launchedTen : System := play (step queued) pendingTen [(.base (.plan (10*minute) freeNow), 1), (.launch 0 0 false, 1)]

def checkedTen : System := play (step queued) launchedTen [(.runExists 0 (some false), 1)]

def promptTen : System :=
  play (step queued) checkedTen [(.dispatch 0 true, 1), (.consume 0 true, 1), (.base (.advance (10*minute)), 1)]

theorem one_off_once_prompt : promptTen.dispatched = ["at:10"] ∧ promptTen.dispatched.count "at:10" ≤ 1 ∧
      (consumed promptTen.base.planner.watermarkState "at:10" → ∀ t, Reach (step queued)
        (fun s l => oneAtATime "at:10" s l ∧ remembers "at:10" s l) promptTen t →
        ∀ at' env, ∀ r ∈ (t.base.planner.plan at' env).2, fingerprintOf r ≠ some "at:10") := by
  have hfree : ∀ j, ¬ launchedTen.Dispatching "at:10" j := by
    refine not_dispatching_of_unchecked (u := pendingTen) ?_ (reach_follow_of_mem ?_ _)
    · rintro j ⟨g, hg, -⟩
      simp [pendingTen, start] at hg
    · simp
  have hlaunched : Reach (step queued)
      (fun s l => oneAtATime "at:10" s l ∧ remembers "at:10" s l) pendingTen launchedTen :=
    reach_follow_of_mem (by simp [oneAtATime, remembers]) _
  have hchecked : Reach (step queued)
      (fun s l => oneAtATime "at:10" s l ∧ remembers "at:10" s l) pendingTen checkedTen := by
    have hstep : (step queued launchedTen (.runExists 0 (some false))).isSome := by decide +kernel
    obtain ⟨u, hu⟩ := isSome_iff_exists.mp hstep
    have hchecked : checkedTen = u := by simp [checkedTen, play, follow, repeatWhile, hu]
    exact hchecked ▸ hlaunched.tail (l := Label.runExists 0 (some false)) ⟨fun _ => hfree, rfl⟩ hu
  have hprompt : Reach (step queued)
      (fun s l => oneAtATime "at:10" s l ∧ remembers "at:10" s l) checkedTen promptTen :=
    reach_follow_of_mem (by simp [oneAtATime, remembers]) _
  exact ⟨by decide +kernel, one_off_once (hchecked.trans hprompt)⟩

end Ayatsuri.Scheduler.OneOff
