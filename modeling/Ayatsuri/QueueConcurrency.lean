import Ayatsuri.QueueDispatch

/-! The rounds of the queue processor on one queue (`ProcessQueueItems` in
`internal/service/scheduler/queue_processor.go`): the items are listed, four counters are read one after
the other, and as many items as there are free slots are handed to goroutines, which the round waits for.
Meanwhile the launched processes start, write and end in their own time. -/
namespace Ayatsuri.QueueProcessor
open TransitionSystem Exec List Option Proc Bool

namespace World
variable (w : World)

def unfinished : ℕ := w.procs.countP fun p => p.phase ≠ .gone

def unfinishedLocal : ℕ := w.procs.countP fun p => !p.worker && p.phase ≠ .gone

def settled : Bool := w.procs.all fun p => p.phase = .running || p.phase = .gone

def free : Bool := w.procs.all fun p => p.phase = .gone

/-- The part of `CountAlive` that comes from this run. -/
def alive : ℕ := w.procs.countP fun p => !p.worker && p.visible

def leases : ℕ := w.procs.countP fun p => p.worker && p.visible

def outstanding : ℕ := w.procs.countP fun p => p.worker && p.phase = .launched

def hasOutstandingDispatchReservation : Bool :=
  w.store.latest.status = .queued && w.procs.any fun p => p.worker && p.phase = .launched && p.attempt = w.attempt

end World

/-- Where `ProcessQueueItems` is. Runs are given by their place in the list of all runs. -/
inductive Round
  | idle
  | countAlive (items : List ℕ)
  | countLeases (items : List ℕ) (aliveCount : ℕ)
  | countOutstanding (items : List ℕ) (aliveCount : ℕ)
  /-- `selectRunnableQueueItems`. -/
  | select (items : List ℕ) (freeSlots : ℕ) (runnable : List ℕ)
  | process (goroutines : List (ℕ × Stage))
  deriving DecidableEq

/-- Between `incInflight` and `decInflight`. -/
def Stage.isInflight : Stage → Bool
  | .dispatch _ | .checkAlive | .checkStatus | .checkLease _ => true
  | _ => false

def Round.inflight : Round → ℕ
  | .process goroutines => goroutines.countP fun g => g.2.isInflight
  | _ => 0

structure Rounds where
  runs : List World
  round : Round
  deriving DecidableEq

namespace Rounds

def total (f : World → ℕ) (runs : List World) : ℕ := (runs.map f).sum

def lists (s : Rounds) (queueName : String) (items : List ℕ) : Bool :=
  items.all (· < s.runs.length) && s.runs.zipIdx.all fun r => items.count r.2 = r.1.store.items.count queueName

def read (maxConcurrency : ℕ) (s : Rounds) : Option Rounds :=
  match s.round with
  | .countAlive items => some {s with round := .countLeases items (total World.alive s.runs)}
  | .countLeases items aliveCount =>
    some {s with round := .countOutstanding items (aliveCount+total World.leases s.runs)}
  | .countOutstanding items aliveCount =>
    let freeSlots := maxConcurrency - (aliveCount+s.round.inflight+total World.outstanding s.runs)
    if freeSlots = 0 then some {s with round := .idle}
    else some {s with round := .select items freeSlots []}
  | .select [] _ runnable =>
    if runnable = [] then some {s with round := .idle}
    else some {s with round := .process (runnable.map fun n => (n, .checkRunning))}
  | .select (item::items) freeSlots runnable =>
    if freeSlots ≤ runnable.length then
      some {s with round := .process (runnable.map fun n => (n, .checkRunning))}
    else if (s.runs[item]?).any World.hasOutstandingDispatchReservation then
      some {s with round := .select items freeSlots runnable}
    else some {s with round := .select items freeSlots (runnable++[item])}
  | .idle | .process _ => none

inductive Label
  | list (items : List ℕ)
  | read | fail
  | process (i : ℕ) (r : Reply)
  | wait
  | run (n i : ℕ) (e : RunEvent)
  | write (n : ℕ) (status : DAGRunStatus)
  | enqueue (n : ℕ)

def step (queueName : String) (maxConcurrency : ℕ) (s : Rounds) : Label → Option Rounds
  | .list items =>
    if s.round = .idle ∧ s.lists queueName items then
      some {s with round := if items = [] then .idle else .countAlive items}
    else none
  | .read => s.read maxConcurrency
  | .fail =>
    match s.round with
    | .idle | .process _ => none
    | _ => some {s with round := .idle}
  | .process i r =>
    match s.round with
    | .process goroutines => do
      let g ← goroutines[i]?
      let w ← s.runs[g.1]?
      let x ← g.2.act queueName r w
      some ⟨s.runs.set g.1 x.1, .process (goroutines.set i (g.1, x.2))⟩
    | _ => none
  | .wait =>
    match s.round with
    | .process goroutines =>
      if goroutines.all fun g => g.2 = .done then some {s with round := .idle} else none
    | _ => none
  | .run n i e => do
    let w ← s.runs[n]?
    let w' ← w.run i e
    some {s with runs := s.runs.set n w'}
  | .write n status => do
    let w ← s.runs[n]?
    some {s with runs := s.runs.set n {w with store := {w.store with latest := status}}}
  | .enqueue n => do
    let w ← s.runs[n]?
    some {s with
      runs := s.runs.set n {w with store := {w.store with items := w.store.items++[queueName]}}}

end Rounds

/-! ### One run and its only process -/

def Stage.mayLaunch : Stage → Bool
  | .idle | .checkRunning | .findAttempt | .queued _ | .dispatch _ => true
  | _ => false

def Stage.afterLaunch : Stage → Bool
  | .checkAlive | .checkStatus | .checkLease _ | .dequeue => true
  | _ => false

variable {α : Type*}

lemma countP_le_one {f : α → Bool} {l : List α} {i : ℕ}
    (h : ∀ j x, j ≠ i → l[j]? = some x → f x = false) : l.countP f ≤ 1 := by
  induction l generalizing i with
  | nil => simp
  | cons x l ih =>
    rw [countP_cons]
    cases i with
    | zero =>
      have hrest : l.countP f = 0 := by
        rw [countP_eq_zero]
        intro y hy
        obtain ⟨j, hj⟩ := mem_iff_getElem?.mp hy
        simp [h (j+1) y (by omega) (by simpa using hj)]
      rw [hrest]
      split_ifs <;> omega
    | succ i =>
      have hx : f x = false := h 0 x (by omega) rfl
      have hrest : l.countP f ≤ 1 := ih (i := i) fun j y hj hy => h (j+1) y (by omega) (by simpa using hy)
      simp [hx, hrest]

lemma countP_le_add {f g h : α → Bool} {l : List α}
    (hf : ∀ x ∈ l, f x → g x ∨ h x) : l.countP f ≤ l.countP g+l.countP h := by
  induction l with
  | nil => simp
  | cons x l ih =>
    simp only [countP_cons]
    split_ifs <;> simp_all <;> omega

lemma countP_set_le {f : α → Bool} {l : List α} {i : ℕ} {x y} (hx : l[i]? = some x)
    (h : f y → f x) : (l.set i y).countP f ≤ l.countP f := by
  obtain ⟨hlt, hget⟩ := List.getElem?_eq_some_iff.mp hx
  rw [countP_set hlt, hget]
  have hpos : f x → 0 < l.countP f := fun hfx => by
    rw [countP_pos_iff]
    exact ⟨x, mem_of_getElem? hx, hfx⟩
  split_ifs with hfx hfy hfy
  · have := hpos hfx
    omega
  · omega
  · exact absurd (h hfy) hfx
  · omega

namespace World
variable {w w' : World} {queueName : String}

/-- What is known of a process that has not ended: a run with a launched process is queued, one whose
process has written is not. -/
structure Ok (w : World) (p : Proc) : Prop where
  launched : p.phase = .launched → w.Queued ∧ (p.worker → w.attempt ≤ p.attempt)
  starting : p.phase = .starting → w.attempt ≤ p.attempt
  running : p.phase = .running → ¬w.Queued

/-- At most process `i` of the run has not ended. -/
structure SoleAt (w : World) (i : ℕ) : Prop where
  attempt : w.attempt < w.attempts
  procs : ∀ p ∈ w.procs, p.attempt < w.attempts
  others : ∀ (j : ℕ) (p : Proc), j ≠ i → w.procs[j]? = some p → p.phase = .gone
  ok : ∀ p, w.procs[i]? = some p → w.Ok p

def Sole (w : World) : Prop := ∃ i, w.SoleAt i

variable {i j : ℕ} {p : Proc}

lemma SoleAt.eq_of_not_gone (h : w.SoleAt i) (hp : w.procs[j]? = some p) (hphase : p.phase ≠ .gone) : j = i := by
  by_contra hj
  exact hphase (h.others j p hj hp)

lemma Sole.unfinished_le (h : w.Sole) : w.unfinished ≤ 1 := by
  obtain ⟨i, h⟩ := h
  apply countP_le_one (i := i)
  intro j p hj hp
  simp [h.others j p hj hp]

lemma Sole.ok (h : w.Sole) (hp : p ∈ w.procs) : w.Ok p := by
  obtain ⟨i, h⟩ := h
  obtain ⟨j, hj⟩ := mem_iff_getElem?.mp hp
  by_cases hphase : p.phase = .gone
  · exact ⟨by simp [hphase], by simp [hphase], by simp [hphase]⟩
  · rw [h.eq_of_not_gone hj hphase] at hj
    exact h.ok p hj

variable {q : Proc}

lemma Sole.eq_of_not_gone (h : w.Sole) (hp : p ∈ w.procs) (hq : q ∈ w.procs)
    (hpp : p.phase ≠ .gone) (hqp : q.phase ≠ .gone) : p = q := by
  obtain ⟨i, h⟩ := h
  obtain ⟨j, hj⟩ := mem_iff_getElem?.mp hp
  obtain ⟨k, hk⟩ := mem_iff_getElem?.mp hq
  rw [h.eq_of_not_gone hj hpp] at hj
  rw [h.eq_of_not_gone hk hqp, hj] at hk
  exact some.inj hk

lemma SoleAt.set {attempts attempt : ℕ} {store} (h : w.SoleAt i)
    (hattempt : attempt < attempts) (hattempts : w.attempts ≤ attempts) (hq : q.attempt < attempts)
    (hok : Ok ⟨store, attempt, attempts, w.procs.set i q⟩ q) : SoleAt ⟨store, attempt, attempts, w.procs.set i q⟩ i := by
  refine ⟨hattempt, ?_, ?_, ?_⟩
  · exact forall_mem_set (fun p hp => lt_of_lt_of_le (h.procs p hp) hattempts) hq
  · intro j p hj hp
    rw [getElem?_set_ne hj.symm] at hp
    exact h.others j p hj hp
  · intro p hp
    rcases getElem?_set_cases hp with ⟨-, rfl⟩ | ⟨hne, -⟩
    · exact hok
    · exact absurd rfl hne

section
variable (h : RunMove w i p w')
include h

lemma RunMove.not_gone : p.phase ≠ .gone := by
  cases h with
  | startWorker hlaunched _ | startLocal hlaunched _ _ => simp [hlaunched]
  | leave _ hthere => exact hthere
  | write hvisible _ _ _ | writeOld hvisible _ => rintro hgone; simp [visible, hgone] at hvisible

lemma RunMove.procs : ∃ q, w'.procs = w.procs.set i q ∧ q.worker = p.worker := by
  cases h with
  | startLocal _ hlocal _ => exact ⟨_, rfl, hlocal.symm⟩
  | startWorker | leave | write | writeOld => exact ⟨_, rfl, rfl⟩

lemma RunMove.unfinished_le (hp : w.procs[i]? = some p) : w'.unfinished ≤ w.unfinished := by
  obtain ⟨q, hprocs, -⟩ := h.procs
  rw [unfinished, hprocs]
  apply countP_set_le hp
  simp [h.not_gone]

lemma RunMove.unfinishedLocal_le (hp : w.procs[i]? = some p) : w'.unfinishedLocal ≤ w.unfinishedLocal := by
  obtain ⟨q, hprocs, hworker⟩ := h.procs
  rw [unfinishedLocal, hprocs]
  apply countP_set_le hp
  simp +contextual [h.not_gone, hworker]

end

lemma SoleAt.run (h : w.SoleAt i) (hp : w.procs[j]? = some p) (hmove : RunMove w j p w') : w'.SoleAt i := by
  have hmem : p ∈ w.procs := mem_of_getElem? hp
  obtain rfl := h.eq_of_not_gone hp hmove.not_gone
  have hok := h.ok p hp
  cases hmove with
  | startWorker hlaunched hworker =>
    apply h.set (q := {p with phase := .starting}) h.attempt le_rfl (h.procs p hmem)
    exact ⟨by simp, fun _ => (hok.launched hlaunched).2 hworker, by simp⟩
  | startLocal hlaunched _ _ =>
    apply h.set (h.attempt.trans (Nat.lt_succ_self _)) (Nat.le_succ _) (Nat.lt_succ_self _)
    exact ⟨by simp, fun _ => h.attempt.le, by simp⟩
  | leave _ _ =>
    apply h.set (q := {p with phase := .gone}) h.attempt le_rfl (h.procs p hmem)
    exact ⟨by simp, by simp, by simp⟩
  | write _ hstatus _ _ =>
    apply h.set (q := {p with phase := .running}) (h.procs p hmem) le_rfl (h.procs p hmem)
    exact ⟨by simp, by simp, fun _ => hstatus⟩
  | writeOld hvisible hold =>
    apply h.set (q := {p with phase := .running}) h.attempt le_rfl (h.procs p hmem)
    refine ⟨by simp, by simp, fun _ => ?_⟩
    -- The process has written before: a first status goes to the latest attempt.
    apply hok.running
    by_contra hrunning
    have hstarting : p.phase = .starting := by simpa [visible, hrunning] using hvisible
    have := hok.starting hstarting
    omega

lemma SoleAt.append (h : w.SoleAt i) (hfree : ∀ q ∈ w.procs, q.phase = .gone)
    (hp : p.attempt < w.attempts) (hok : w.Ok p) : SoleAt {w with procs := w.procs++[p]} w.procs.length := by
  refine ⟨h.attempt, ?_, ?_, ?_⟩
  · exact forall_mem_concat h.procs hp
  · intro j q hj hq
    have hlt : j < w.procs.length := by
      have := lt_of_getElem? hq
      rw [length_append, length_singleton] at this
      omega
    rw [getElem?_append_left hlt] at hq
    exact hfree q (mem_of_getElem? hq)
  · intro q hq
    rw [getElem?_concat_length] at hq
    cases hq
    exact {hok with}

lemma Sole.store {store : RunStore} (h : w.Sole)
    (hstore : store.latest = w.store.latest ∨ ∀ p ∈ w.procs, p.phase = .gone) : Sole {w with store := store} := by
  obtain ⟨i, h⟩ := h
  refine ⟨i, h.attempt, h.procs, h.others, ?_⟩
  intro p hp
  rcases hstore with hlatest | hfree
  · have hqueued : Queued {w with store := store} ↔ w.Queued := by simp only [Queued, hlatest]
    have hok := h.ok p hp
    exact ⟨fun hl => ⟨hqueued.mpr (hok.launched hl).1, (hok.launched hl).2⟩, hok.starting,
      fun hr => hqueued.not.mpr (hok.running hr)⟩
  · have hgone := hfree p (mem_of_getElem? hp)
    exact ⟨by simp [hgone], by simp [hgone], by simp [hgone]⟩

end World

open World Stage

namespace Stage
variable {w w' : World} {queueName : String} {r : Reply} {stage stage' : Stage}

/-- The process a goroutine may find at its run. Where it is about to launch one there is none, and it ends
only if the process is counted and its item is gone or will be discarded. -/
def Allows (queueName : String) (items : List String) (p : Proc) : Stage → Prop
  | .checkRunning => p.phase ≠ .launched ∧ (p.phase = .starting → p.worker = false)
  | .findAttempt => p.phase = .running ∨ p.phase = .gone
  | .queued _ | .dispatch _ | .dropSuspended _ => p.phase = .gone
  | .checkAlive | .checkStatus | .checkLease _ => True
  | .dequeue => p.phase ≠ .launched
  | .idle | .done => p.phase ≠ .launched ∧ (p.phase = .starting → p.worker → queueName ∉ items)

def Reads (w : World) : Stage → Prop
  | .queued _ | .dispatch _ => w.Queued
  | _ => True

structure Fits (queueName : String) (w : World) (stage : Stage) : Prop where
  allows : ∀ p ∈ w.procs, stage.Allows queueName w.store.items p
  reads : stage.Reads w

open Fits
variable {p : Proc}

lemma allows_of_gone {items} (h : p.phase = .gone) : stage.Allows queueName items p := by
  cases stage <;> simp [Allows, h]

lemma Allows.run {i items} (h : stage.Allows queueName items p) (hmove : World.RunMove w i p w') :
    ∃ q, w'.procs = w.procs.set i q ∧ stage.Allows queueName items q := by
  cases hmove with
  | startWorker hlaunched _ | startLocal hlaunched _ _ =>
    refine ⟨_, rfl, ?_⟩
    cases stage <;> simp_all [Allows]
  | leave _ _ => exact ⟨_, rfl, allows_of_gone rfl⟩
  | write hvisible _ _ _ | writeOld hvisible _ =>
    refine ⟨_, rfl, ?_⟩
    cases stage <;> simp_all [Allows, visible]

lemma Fits.run {i : ℕ} (h : Fits queueName w stage) (hp : w.procs[i]? = some p)
    (hmove : World.RunMove w i p w') : Fits queueName w' stage := by
  have hallows := h.allows p (mem_of_getElem? hp)
  have hitems : w'.store.items = w.store.items := by cases hmove <;> rfl
  obtain ⟨q, hprocs, hq⟩ := hallows.run hmove
  constructor
  · rw [hprocs, hitems]
    exact forall_mem_set h.allows hq
  cases stage with
  | queued status | dispatch status => exact absurd hallows hmove.not_gone
  | _ => trivial

lemma Fits.done (h : Fits queueName w stage) (hsettled : stage.afterLaunch → w.settled) : Fits queueName w .done := by
  refine ⟨?_, trivial⟩
  intro p hp
  have hallows := h.allows p hp
  have hphase : stage.afterLaunch → p.phase = .running ∨ p.phase = .gone := by
    intro hafter
    simpa using all_eq_true.mp (hsettled hafter) p hp
  cases stage <;> simp_all [Allows, afterLaunch] <;> grind

lemma Fits.listed (h : Fits queueName w .done) (hitem : queueName ∈ w.store.items) :
    Fits queueName w .checkRunning := by
  refine ⟨fun p hp => ?_, trivial⟩
  obtain ⟨hlaunched, hstarting⟩ := h.allows p hp
  refine ⟨hlaunched, fun hphase => ?_⟩
  by_contra hworker
  exact hstarting hphase (by simpa using hworker) hitem

lemma fits_dequeue (h : ∀ p ∈ w.procs, p.phase ≠ .launched) : Fits queueName w .dequeue := ⟨h, trivial⟩

lemma fits_dequeue_of_visible (hs : w.Sole) (hp : p ∈ w.procs) (hvisible : p.visible) : Fits queueName w .dequeue := by
  apply fits_dequeue
  intro q hq hlaunched
  have hpq : p = q := hs.eq_of_not_gone hp hq
    (fun hgone => by simp [visible, hgone] at hvisible) (by simp [hlaunched])
  simp [visible, hpq, hlaunched] at hvisible

lemma fits_dequeue_of_alive (hs : w.Sole) (halive : w.isRunAlive) : Fits queueName w .dequeue := by
  obtain ⟨p, hp, hvisible⟩ := any_eq_true.mp halive
  simp only [and_eq_true] at hvisible
  exact fits_dequeue_of_visible hs hp hvisible.2

def slots (stage : Stage) : ℕ := if stage.mayLaunch then 1 else 0

variable (hs : w.Sole)
include hs

lemma Fits.stay (h : Fits queueName w stage') (hslots : stage'.slots ≤ stage.slots) :
    w.Sole ∧ Fits queueName w stage' ∧ w.unfinished+stage'.slots ≤ w.unfinished+stage.slots :=
  ⟨hs, h, Nat.add_le_add_left hslots _⟩

lemma Fits.launch (hfree : ∀ p ∈ w.procs, p.phase = .gone) (hqueued : w.Queued)
    (hphase : p.phase = .launched) (hp : p.attempt < w.attempts)
    (hworker : p.worker → w.attempt ≤ p.attempt) (hslots : stage.slots = 1) :
    World.Sole {w with procs := w.procs++[p]} ∧ Fits queueName {w with procs := w.procs++[p]} .checkAlive ∧
      unfinished {w with procs := w.procs++[p]}+checkAlive.slots ≤ w.unfinished+stage.slots := by
  obtain ⟨i, hi⟩ := hs
  have hok : w.Ok p := ⟨fun _ => ⟨hqueued, hworker⟩, by simp [hphase], by simp [hphase]⟩
  refine ⟨⟨_, hi.append hfree hp hok⟩, ⟨fun _ _ => trivial, trivial⟩, ?_⟩
  rw [hslots]
  simp [unfinished, slots, mayLaunch, hphase]

lemma Fits.work (h : Fits queueName w stage) (hstep : stage.work queueName r w = some (w', stage')) :
    w'.Sole ∧ Fits queueName w' stage' ∧ w'.unfinished+stage'.slots ≤ w.unfinished+stage.slots := by
  obtain ⟨hallows, hreads⟩ := h
  cases stage with
  | idle =>
    obtain ⟨hlisted, hstep⟩ := of_guarded hstep
    cases hstep
    have hdone : Fits queueName w .done := ⟨hallows, trivial⟩
    exact stay hs (hdone.listed hlisted) le_rfl
  | checkRunning =>
    cases hstep
    split_ifs with halive
    · exact stay hs (fits_dequeue fun p hp => (hallows p hp).1) (by decide)
    refine stay hs ⟨?_, trivial⟩ le_rfl
    intro p hp
    -- A process that is starting is local, and would be alive.
    obtain ⟨hlaunched, hlocal⟩ := hallows p hp
    cases hphase : p.phase with
    | launched => exact absurd hphase hlaunched
    | starting =>
      have hseen : w.isRunAlive := any_eq_true.mpr ⟨p, hp, by simp [hlocal hphase, visible, hphase]⟩
      exact absurd hseen halive
    | running => exact .inl hphase
    | gone => exact .inr hphase
  | findAttempt =>
    cases hstep
    split_ifs with hstatus
    · apply stay hs (fits_dequeue _) (by decide)
      intro p hp hlaunched
      rcases hallows p hp with hphase | hphase <;> simp [hlaunched] at hphase
    have hqueued : w.Queued := not_not.mp hstatus
    refine stay hs ⟨?_, hqueued⟩ le_rfl
    intro p hp
    rcases hallows p hp with hphase | hphase
    · exact absurd hqueued ((hs.ok hp).running hphase)
    · exact hphase
  | queued status =>
    simp only [work] at hstep
    split_ifs at hstep <;> cases hstep
    · exact stay hs ⟨hallows, trivial⟩ (by simp [slots, mayLaunch])
    · exact stay hs ⟨hallows, hreads⟩ le_rfl
    · obtain ⟨i, hi⟩ := hs
      exact launch ⟨i, hi⟩ hallows hreads rfl (Nat.zero_lt_of_lt hi.attempt) (by simp) rfl
  | dropSuspended attemptID =>
    cases hstep
    refine ⟨hs.store (.inr hallows), fits_dequeue ?_, le_rfl⟩
    intro p hp hlaunched
    have hgone : p.phase = .gone := hallows p hp
    simp [hlaunched] at hgone
  | dispatch dagStatus =>
    simp only [work] at hstep
    split_ifs at hstep with _ hstale <;> cases hstep
    · exact stay hs ⟨hallows, hreads⟩ le_rfl
    · apply stay hs (fits_dequeue _) (by simp [slots, mayLaunch])
      intro p hp hlaunched
      have hgone : p.phase = .gone := hallows p hp
      simp [hlaunched] at hgone
    · obtain ⟨i, hi⟩ := hs
      exact launch ⟨i, hi⟩ hallows hreads rfl hi.attempt (fun _ => le_rfl) rfl
  | checkAlive =>
    cases hstep
    split_ifs with halive
    · exact stay hs (fits_dequeue_of_alive hs halive) le_rfl
    · exact stay hs ⟨fun _ _ => trivial, trivial⟩ le_rfl
    · exact stay hs ⟨fun _ _ => trivial, trivial⟩ le_rfl
  | checkStatus =>
    cases hstep
    split_ifs with hstatus
    · apply stay hs (fits_dequeue _) le_rfl
      intro p hp hlaunched
      exact hstatus ((hs.ok hp).launched hlaunched).1
    · exact stay hs ⟨fun _ _ => trivial, trivial⟩ le_rfl
  | checkLease attempt =>
    cases hstep
    split_ifs with hlease
    · obtain ⟨p, hp, hvisible⟩ := any_eq_true.mp hlease
      simp only [and_eq_true] at hvisible
      exact stay hs (fits_dequeue_of_visible hs hp hvisible.1.2) le_rfl
    · exact stay hs ⟨fun _ _ => trivial, trivial⟩ le_rfl
  | dequeue =>
    cases hstep
    refine ⟨hs.store (.inl rfl), ⟨?_, trivial⟩, le_rfl⟩
    exact fun p hp => ⟨hallows p hp, fun _ _ => by simp⟩
  | done => cases hstep

lemma Fits.act (h : Fits queueName w stage) (hgiveUp : r.giveUp → stage.afterLaunch → w.settled)
    (hstep : stage.act queueName r w = some (w', stage')) :
    w'.Sole ∧ Fits queueName w' stage' ∧ w'.unfinished+stage'.slots ≤ w.unfinished+stage.slots := by
  unfold Stage.act at hstep
  split_ifs at hstep with hgive
  · cases hstep
    simp only [and_eq_true] at hgive
    exact stay hs (h.done (hgiveUp hgive.1)) (Nat.zero_le _)
  · exact h.work hs hstep

end Stage

/-! ### The rounds -/

def Round.goroutines : Round → List (ℕ × Stage)
  | .process goroutines => goroutines
  | _ => []

namespace Rounds

def handles (s : Rounds) (n : ℕ) : Bool := s.round.goroutines.any fun g => g.1 = n && g.2.isActive

/-- No two listed items are of one run. A goroutine that has launched a process gives up only when every
process of the run has written a status or ended. Nobody else writes the status of a run or enqueues it
while a goroutine handles it or a process of it has not ended. -/
def steady (s : Rounds) : Label → Bool
  | .list items => items.Nodup
  | .process i r =>
    (s.round.goroutines[i]?).all fun g => !r.giveUp || !g.2.afterLaunch || (s.runs[g.1]?).all World.settled
  | .write n _ | .enqueue n => !s.handles n && (s.runs[n]?).all World.free
  | .read | .fail | .wait | .run _ _ _ => true

variable {queueName : String} {m : ℕ} {s t : Rounds} {n : ℕ}

lemma sum_map_set {α : Type*} {f : α → ℕ} {l : List α} {x y} (h : l[n]? = some x) :
    ((l.set n y).map f).sum+f x = (l.map f).sum+f y := by
  induction l generalizing n with
  | nil => simp at h
  | cons z l ih =>
    cases n with
    | zero =>
      simp only [getElem?_cons_zero, some.injEq] at h
      subst h
      simp only [set_cons_zero, map_cons, sum_cons]
      omega
    | succ n =>
      have hrest := ih (n := n) (by simpa using h)
      simp only [set_cons_succ, map_cons, sum_cons]
      omega

lemma total_mono {f g : World → ℕ} {runs} (h : ∀ w ∈ runs, f w ≤ g w) : total f runs ≤ total g runs := by
  induction runs with
  | nil => simp [total]
  | cons x runs ih =>
    have hx := h x mem_cons_self
    have hrest := ih fun w hw => h w (mem_cons_of_mem _ hw)
    simp only [total, map_cons, sum_cons] at hrest ⊢
    omega

def Calm (queueName : String) (runs : List World) : Prop :=
  ∀ (n : ℕ) (w : World), runs[n]? = some w → Stage.Fits queueName w .done

def Listed (queueName : String) (items : List ℕ) (runs : List World) : Prop :=
  ∀ n ∈ items, ∀ w, runs[n]? = some w → Stage.Fits queueName w .checkRunning

/-- The course of a round: what has been counted bounds what there is, and every slot that was found
free stands for at most one launch. -/
inductive Course (queueName : String) (m : ℕ) (s : Rounds) : Prop
  | idle (round : s.round = .idle) (calm : Calm queueName s.runs) (le : total World.unfinished s.runs ≤ m)
  | countAlive {items : List ℕ} (round : s.round = .countAlive items) (nodup : items.Nodup)
      (listed : Listed queueName items s.runs) (calm : Calm queueName s.runs)
      (le : total World.unfinished s.runs ≤ m)
  | countLeases {items : List ℕ} {aliveCount : ℕ} (round : s.round = .countLeases items aliveCount)
      (nodup : items.Nodup) (listed : Listed queueName items s.runs) (calm : Calm queueName s.runs)
      (le : total World.unfinished s.runs ≤ m)
      (counted : total World.unfinishedLocal s.runs ≤ aliveCount)
  | countOutstanding {items : List ℕ} {aliveCount : ℕ} (round : s.round = .countOutstanding items aliveCount)
      (nodup : items.Nodup) (listed : Listed queueName items s.runs) (calm : Calm queueName s.runs)
      (le : total World.unfinished s.runs ≤ m) (counted : total World.unfinished s.runs ≤ aliveCount)
  | select {items runnable : List ℕ} {freeSlots : ℕ} (round : s.round = .select items freeSlots runnable)
      (nodup : (runnable++items).Nodup) (listed : Listed queueName (runnable++items) s.runs)
      (calm : Calm queueName s.runs) (le : total World.unfinished s.runs+freeSlots ≤ m)
      (bound : runnable.length ≤ freeSlots)
  | process {goroutines : List (ℕ × Stage)} (round : s.round = .process goroutines)
      (nodup : (goroutines.map Prod.fst).Nodup)
      (fits : ∀ g ∈ goroutines, ∀ w, s.runs[g.1]? = some w → Stage.Fits queueName w g.2)
      (calm : ∀ (n : ℕ) (w : World), n ∉ goroutines.map Prod.fst → s.runs[n]? = some w → Stage.Fits queueName w .done)
      (le : total World.unfinished s.runs+(goroutines.map fun g => g.2.slots).sum ≤ m)

lemma Course.unfinished_le (h : Course queueName m s) : total World.unfinished s.runs ≤ m := by
  cases h with
  | idle _ _ le | countAlive _ _ _ _ le | countLeases _ _ _ _ le _ | countOutstanding _ _ _ _ le _ => exact le
  | select _ _ _ _ le _ | process _ _ _ _ le => omega

section
variable {n : ℕ} {w w' : World}

lemma Calm.set (h : Calm queueName s.runs) (hfits : Stage.Fits queueName w' .done) :
    Calm queueName (s.runs.set n w') := by
  intro k v hv
  rcases getElem?_set_cases hv with ⟨-, rfl⟩ | ⟨-, hv⟩
  · exact hfits
  · exact h k v hv

lemma Listed.set {items} (h : Listed queueName items s.runs) (hn : s.runs[n]? = some w)
    (hfits : Stage.Fits queueName w .checkRunning → Stage.Fits queueName w' .checkRunning) :
    Listed queueName items (s.runs.set n w') := by
  intro k hk v hv
  rcases getElem?_set_cases hv with ⟨rfl, rfl⟩ | ⟨-, hv⟩
  · exact hfits (h k hk w hn)
  · exact h k hk v hv

lemma Course.set (h : Course queueName m s) (hn : s.runs[n]? = some w) (hfits : ∀ stage, Stage.Fits queueName w stage →
      (stage = .checkRunning ∨ stage = .done ∨ (n, stage) ∈ s.round.goroutines) → Stage.Fits queueName w' stage)
    (hunfinished : w'.unfinished ≤ w.unfinished) (hlocal : w'.unfinishedLocal ≤ w.unfinishedLocal) :
    Course queueName m {s with runs := s.runs.set n w'} := by
  have htotal : total unfinished (s.runs.set n w') ≤ total unfinished s.runs := by
    have := sum_map_set (f := unfinished) (y := w') hn
    simp only [total]
    omega
  have htotalLocal : total unfinishedLocal (s.runs.set n w') ≤ total unfinishedLocal s.runs := by
    have := sum_map_set (f := unfinishedLocal) (y := w') hn
    simp only [total]
    omega
  have hcalm : Calm queueName s.runs → Calm queueName (s.runs.set n w') := fun hcalm =>
    hcalm.set (hfits _ (hcalm n w hn) (.inr (.inl rfl)))
  have hlisted : ∀ items, Listed queueName items s.runs → Listed queueName items (s.runs.set n w') :=
    fun items hl => hl.set hn fun hf => hfits _ hf (.inl rfl)
  cases h with
  | idle round calm le => exact .idle round (hcalm calm) (htotal.trans le)
  | countAlive round nodup listed calm le =>
    exact .countAlive round nodup (hlisted _ listed) (hcalm calm) (htotal.trans le)
  | countLeases round nodup listed calm le counted =>
    exact .countLeases round nodup (hlisted _ listed) (hcalm calm) (htotal.trans le) (htotalLocal.trans counted)
  | countOutstanding round nodup listed calm le counted =>
    exact .countOutstanding round nodup (hlisted _ listed) (hcalm calm) (htotal.trans le) (htotal.trans counted)
  | select round nodup listed calm le bound =>
    exact .select round nodup (hlisted _ listed) (hcalm calm) ((Nat.add_le_add_right htotal _).trans le) bound
  | process round nodup fits calm le =>
    refine .process round nodup ?_ ?_ ((Nat.add_le_add_right htotal _).trans le)
    · intro g hg v hv
      rcases getElem?_set_cases hv with ⟨hgn, rfl⟩ | ⟨-, hv⟩
      · have hmem : (n, g.2) ∈ s.round.goroutines := by
          rw [round, ← hgn]
          exact hg
        rw [← hgn] at hn
        exact hfits g.2 (fits g hg w hn) (.inr (.inr hmem))
      · exact fits g hg v hv
    · intro k v hk hv
      rcases getElem?_set_cases hv with ⟨rfl, rfl⟩ | ⟨-, hv⟩
      · exact hfits _ (calm k w hk hn) (.inr (.inl rfl))
      · exact calm k v hk hv

end

lemma Course.calm_of_idle (h : Course queueName m s) (hround : s.round = .idle) : Calm queueName s.runs := by
  cases h with
  | idle _ calm => exact calm
  | countAlive round | countLeases round | countOutstanding round | select round | process round =>
    rw [hround] at round
    cases round

variable {goroutines : List (ℕ × Stage)}

lemma Course.of_process (h : Course queueName m s)
    (hround : s.round = .process goroutines) : (goroutines.map Prod.fst).Nodup ∧
      (∀ g ∈ goroutines, ∀ w, s.runs[g.1]? = some w → Stage.Fits queueName w g.2) ∧
      (∀ (n : ℕ) (w : World), n ∉ goroutines.map Prod.fst → s.runs[n]? = some w → Stage.Fits queueName w .done) ∧
      total World.unfinished s.runs+(goroutines.map fun g => g.2.slots).sum ≤ m := by
  cases h with
  | process round nodup fits calm le =>
    rw [hround] at round
    cases round
    exact ⟨nodup, fits, calm, le⟩
  | idle round | countAlive round | countLeases round | countOutstanding round | select round =>
    rw [hround] at round
    cases round

variable {i : ℕ}

lemma fst_ne_of_nodup {α β : Type*} {l : List (α × β)} (hl : (l.map Prod.fst).Nodup) {j : ℕ}
    {x y : α × β} (hx : l[i]? = some x) (hy : l[j]? = some y) (hij : j ≠ i) : y.1 ≠ x.1 := by
  intro heq
  have hlt : j < (l.map Prod.fst).length := by
    rw [length_map]
    exact lt_of_getElem? hy
  apply hij
  apply (getElem?_inj hlt hl).mp
  rw [getElem?_map, getElem?_map, hx, hy, map_some, map_some, heq]

variable {w : World}

lemma Course.goroutine {g : ℕ × Stage} {w' : World}
    {stage : Stage} (h : Course queueName m s) (hround : s.round = .process goroutines)
    (hg : goroutines[i]? = some g) (hw : s.runs[g.1]? = some w) (hfits : Stage.Fits queueName w' stage)
    (hle : w'.unfinished+stage.slots ≤ w.unfinished+g.2.slots) :
    Course queueName m ⟨s.runs.set g.1 w', .process (goroutines.set i (g.1, stage))⟩ := by
  obtain ⟨nodup, fits, calm, le⟩ := h.of_process hround
  have hmap := map_set_of_eq (f := Prod.fst) (y := (g.1, stage)) hg rfl
  refine .process rfl (by rwa [hmap]) ?_ ?_ ?_
  · intro o ho v hv
    obtain ⟨j, hj⟩ := mem_iff_getElem?.mp ho
    rcases getElem?_set_cases hj with ⟨-, rfl⟩ | ⟨hji, hj⟩
    · rcases getElem?_set_cases hv with ⟨-, rfl⟩ | ⟨hne, -⟩
      · exact hfits
      · exact absurd rfl hne
    -- Another goroutine has another run.
    have hne : o.1 ≠ g.1 := fst_ne_of_nodup nodup hg hj hji
    rcases getElem?_set_cases hv with ⟨heq, -⟩ | ⟨-, hv⟩
    · exact absurd heq hne
    · exact fits o (mem_of_getElem? hj) v hv
  · intro k v hk hv
    rw [hmap] at hk
    rcases getElem?_set_cases hv with ⟨rfl, -⟩ | ⟨-, hv⟩
    · exact absurd (mem_map_of_mem (mem_of_getElem? hg)) hk
    · exact calm k v hk hv
  · have htotal := sum_map_set (f := unfinished) (y := w') hw
    have hslots : ((goroutines.set i (g.1, stage)).map fun o => o.2.slots).sum+g.2.slots =
        (goroutines.map fun o => o.2.slots).sum+stage.slots := sum_map_set hg
    simp only [total] at le ⊢
    omega

/-! ### What the counters bound -/

lemma unfinishedLocal_le_alive (h : Stage.Fits queueName w .done) : w.unfinishedLocal ≤ w.alive := by
  apply countP_mono_left
  intro p hp hlocal
  have hlaunched := (h.allows p hp).1
  cases hphase : p.phase <;> simp_all [visible]

lemma unfinished_le_add (h : Stage.Fits queueName w .done) : w.unfinished ≤ w.unfinishedLocal+w.leases := by
  apply countP_le_add
  intro p hp hunfinished
  have hlaunched := (h.allows p hp).1
  cases hworker : p.worker <;> cases hphase : p.phase <;> simp_all [visible]

lemma total_add (f g : World → ℕ) (runs : List World) : total (fun w => f w+g w) runs = total f runs+total g runs := by
  simp [total, sum_map_add]

lemma Course.launch {items runnable : List ℕ} {freeSlots : ℕ} (nodup : (runnable++items).Nodup)
    (listed : Listed queueName (runnable++items) s.runs) (calm : Calm queueName s.runs)
    (le : total World.unfinished s.runs+freeSlots ≤ m) (bound : runnable.length ≤ freeSlots) :
    Course queueName m {s with round := .process (runnable.map fun n => (n, .checkRunning))} := by
  have hfst : (runnable.map fun n => (n, checkRunning)).map Prod.fst = runnable := by simp [Function.comp_def]
  have hslots : ((runnable.map fun n => (n, checkRunning)).map fun g => g.2.slots).sum = runnable.length := by
    simp [Function.comp_def, slots, mayLaunch]
  refine .process rfl (by rw [hfst]; exact nodup.of_append_left) ?_ ?_ ?_
  · intro g hg w hw
    obtain ⟨n, hn, rfl⟩ := mem_map.mp hg
    exact listed n (mem_append_left _ hn) w hw
  · intro n w _ hw
    exact calm n w hw
  · rw [hslots]
    show total unfinished s.runs+runnable.length ≤ m
    omega

lemma read_runs (h : s.read m = some t) : t.runs = s.runs := by
  unfold read at h
  split at h
  · cases h
    rfl
  · cases h
    rfl
  · dsimp only at h
    split_ifs at h <;> cases h <;> rfl
  · split_ifs at h <;> cases h <;> rfl
  · split_ifs at h <;> cases h <;> rfl
  · cases h
  · cases h

lemma Course.read (h : Course queueName m s) (hstep : s.read m = some t) : Course queueName m t := by
  have hfits : Calm queueName s.runs → ∀ w ∈ s.runs, Stage.Fits queueName w .done := by
    intro calm w hw
    obtain ⟨n, hn⟩ := mem_iff_getElem?.mp hw
    exact calm n w hn
  cases h with
  | idle round | process round => simp [Rounds.read, round] at hstep
  | countAlive round nodup listed calm le =>
    simp only [Rounds.read, round, some.injEq] at hstep
    subst hstep
    exact .countLeases rfl nodup listed calm le (total_mono fun w hw => unfinishedLocal_le_alive (hfits calm w hw))
  | countLeases round nodup listed calm le counted =>
    simp only [Rounds.read, round, some.injEq] at hstep
    subst hstep
    have hsum := total_mono fun w hw => unfinished_le_add (hfits calm w hw)
    rw [total_add] at hsum
    exact .countOutstanding rfl nodup listed calm le (hsum.trans (Nat.add_le_add_right counted _))
  | countOutstanding round nodup listed calm le counted =>
    simp only [Rounds.read, round] at hstep
    split_ifs at hstep with hfull <;> cases hstep
    · exact .idle rfl calm le
    refine .select rfl nodup listed calm ?_ (Nat.zero_le _)
    show total World.unfinished s.runs+_ ≤ m
    omega
  | select round nodup listed calm le bound =>
    rename_i items runnable freeSlots
    cases items with
    | nil =>
      simp only [Rounds.read, round] at hstep
      split_ifs at hstep with hnone <;> cases hstep
      · exact .idle rfl calm (by show total World.unfinished s.runs ≤ m; omega)
      · exact Course.launch nodup listed calm le bound
    | cons item items =>
      simp only [Rounds.read, round] at hstep
      split_ifs at hstep with hfull hreserved <;> cases hstep
      · exact Course.launch nodup listed calm le bound
      · have hsub : (runnable++items).Sublist (runnable++item::items) :=
          (List.Sublist.refl runnable).append (sublist_cons_self item items)
        exact .select rfl (hsub.nodup nodup) (fun n hn => listed n (hsub.subset hn)) calm le bound
      have happend : runnable++item::items = (runnable++[item])++items := by simp
      rw [happend] at nodup listed
      refine .select rfl nodup listed calm le ?_
      rw [length_append, length_singleton]
      omega

/-! ### Every round -/

structure Inv (queueName : String) (m : ℕ) (s : Rounds) : Prop where
  sole : ∀ w ∈ s.runs, w.Sole
  course : Course queueName m s

section
variable (h : Inv queueName m s)
include h

lemma Inv.list {items} (hsteady : s.steady (.list items))
    (hstep : step queueName m s (.list items) = some t) : Inv queueName m t := by
  by_cases hidle : s.round = .idle ∧ s.lists queueName items
  swap
  · simp [step, hidle] at hstep
  simp only [step, if_pos hidle, some.injEq] at hstep
  subst hstep
  obtain ⟨hround, hlists⟩ := hidle
  have hle := h.course.unfinished_le
  have hcalm : Calm queueName s.runs := h.course.calm_of_idle hround
  split_ifs
  · exact ⟨h.sole, .idle rfl hcalm hle⟩
  refine ⟨h.sole, .countAlive rfl (by simpa [steady] using hsteady) ?_ hcalm hle⟩
  intro n hn w hw
  simp only [lists, and_eq_true, List.all_eq_true, decide_eq_true_eq] at hlists
  have hcount := hlists.2 (w, n) (mem_zipIdx_iff_getElem?.mpr hw)
  have hitem : queueName ∈ w.store.items := by
    rw [← count_pos_iff, ← hcount, count_pos_iff]
    exact hn
  exact (hcalm n w hw).listed hitem

lemma Inv.fail (hstep : step queueName m s .fail = some t) : Inv queueName m t := by
  have hle := h.course.unfinished_le
  cases h.course with
  | idle round | process round => simp [step, round] at hstep
  | countAlive round _ _ calm _ | countLeases round _ _ calm _ _ | countOutstanding round _ _ calm _ _
  | select round _ _ calm _ _ =>
    simp only [step, round, some.injEq] at hstep
    subst hstep
    exact ⟨h.sole, .idle rfl calm hle⟩

lemma Inv.wait (hstep : step queueName m s .wait = some t) : Inv queueName m t := by
  have hle := h.course.unfinished_le
  cases h.course with
  | process round nodup fits calm le =>
    rename_i goroutines
    simp only [step, round] at hstep
    split_ifs at hstep with hdone
    cases hstep
    refine ⟨h.sole, .idle rfl ?_ hle⟩
    intro n w hw
    by_cases hn : n ∈ goroutines.map Prod.fst
    · obtain ⟨g, hg, rfl⟩ := mem_map.mp hn
      have hstage : g.2 = .done := by simpa using all_eq_true.mp hdone g hg
      rw [← hstage]
      exact fits g hg w hw
    · exact calm n w hn hw
  | idle round | countAlive round | countLeases round | countOutstanding round | select round =>
    simp [step, round] at hstep

lemma Inv.process {r} (hsteady : s.steady (.process i r))
    (hstep : step queueName m s (.process i r) = some t) : Inv queueName m t := by
  cases hround : s.round with
  | process goroutines =>
    simp only [step, hround, bind_eq_bind, bind_eq_some_iff, some.injEq] at hstep
    obtain ⟨g, hg, w, hw, ⟨w', stage⟩, hact, rfl⟩ := hstep
    have hgiveUp : r.giveUp → g.2.afterLaunch → w.settled := by
      intro hgive hafter
      simpa [steady, hround, Round.goroutines, hg, hw, hgive, hafter] using hsteady
    have hs : w.Sole := h.sole w (mem_of_getElem? hw)
    obtain ⟨-, fits, -, -⟩ := h.course.of_process hround
    obtain ⟨hsole, hfits, hle⟩ := (fits g (mem_of_getElem? hg) w hw).act hs hgiveUp hact
    exact ⟨forall_mem_set h.sole hsole, h.course.goroutine hround hg hw hfits hle⟩
  | idle | countAlive _ | countLeases _ _ | countOutstanding _ _ | select _ _ _ => simp [step, hround] at hstep

lemma Inv.run {e} (hstep : step queueName m s (.run n i e) = some t) : Inv queueName m t := by
  simp only [step, bind_eq_bind, bind_eq_some_iff, some.injEq] at hstep
  obtain ⟨w, hw, w', hrun, rfl⟩ := hstep
  obtain ⟨p, hp, hmove⟩ := run_move hrun
  obtain ⟨k, hk⟩ := h.sole w (mem_of_getElem? hw)
  refine ⟨forall_mem_set h.sole ⟨k, hk.run hp hmove⟩, ?_⟩
  exact h.course.set hw (fun stage hfits _ => hfits.run hp hmove) (hmove.unfinished_le hp)
    (hmove.unfinishedLocal_le hp)

lemma Inv.store {store : RunStore} (hn : s.runs[n]? = some w) (hhandled : s.handles n = false) (hfree : w.free) :
    Inv queueName m {s with runs := s.runs.set n {w with store := store}} := by
  have hgone : ∀ p ∈ w.procs, p.phase = .gone := by simpa [free] using hfree
  refine ⟨forall_mem_set h.sole ((h.sole w (mem_of_getElem? hn)).store (.inr hgone)), ?_⟩
  refine h.course.set hn ?_ (le_refl w.unfinished) (le_refl w.unfinishedLocal)
  rintro stage - hstage
  refine ⟨fun p hp => allows_of_gone (hgone p hp), ?_⟩
  rcases hstage with rfl | rfl | hmem
  · trivial
  · trivial
  · have hactive : stage.isActive = false := by
      simpa using any_eq_false.mp hhandled (n, stage) hmem
    cases stage <;> trivial

lemma Inv.step {l} (hsteady : s.steady l) (hstep : Rounds.step queueName m s l = some t) : Inv queueName m t := by
  cases l with
  | list items => exact h.list hsteady hstep
  | read =>
    refine ⟨?_, h.course.read hstep⟩
    rw [read_runs hstep]
    exact h.sole
  | fail => exact h.fail hstep
  | process i r => exact h.process hsteady hstep
  | wait => exact h.wait hstep
  | run n i e => exact h.run hstep
  | write n status | enqueue n =>
    obtain ⟨w, hw, ⟨⟩⟩ := bind_eq_some_iff.mp hstep
    simp only [steady, hw, all_some, and_eq_true, not_eq_true'] at hsteady
    exact h.store hw hsteady.1 hsteady.2

end

structure Start (s : Rounds) : Prop where
  round : s.round = .idle
  procs : ∀ w ∈ s.runs, w.procs = []
  attempt : ∀ w ∈ s.runs, w.attempt < w.attempts

lemma Start.inv (h : s.Start) : Inv queueName m s := by
  constructor
  · intro w hw
    refine ⟨0, h.attempt w hw, ?_, ?_, ?_⟩ <;> simp [h.procs w hw]
  refine .idle h.round ?_ ?_
  · intro n w hw
    refine ⟨?_, trivial⟩
    simp [h.procs w (mem_of_getElem? hw)]
  have hzero : total unfinished s.runs = 0 := by
    apply sum_eq_zero
    intro k hk
    obtain ⟨w, hw, rfl⟩ := mem_map.mp hk
    simp [unfinished, h.procs w hw]
  omega

/-- The processes of a queue never exceed its concurrency, and no run has two. -/
theorem launched_le_maxConcurrency (hstart : s.Start) (h : Reach (step queueName m) (fun s l => s.steady l) s t) :
    total World.unfinished t.runs ≤ m ∧ ∀ w ∈ t.runs, w.unfinished ≤ 1 := by
  have hinv : Inv queueName m t := h.preserved hstart.inv fun hinv => hinv.step
  exact ⟨hinv.course.unfinished_le, fun w hw => (hinv.sole w hw).unfinished_le⟩

def queuedWorld (attemptID : String) : World := ⟨⟨System.attempt attemptID .queued, ["batch"]⟩, 0, 1, []⟩

def beginsWith (items : List ℕ) : List (Label × ℕ) := [(.list items, 1), (.read, 6)]

/-- The first goroutine takes `k` steps; the DAGs are local and not suspended. -/
def processes (giveUp : Bool) (k : ℕ) : Label × ℕ := (.process 0 ⟨giveUp, fun _ => false, "etl", false, false, false, ""⟩, k)

/-- One slot and two runs: the first one is launched and seen, the round after that finds no slot, and the
second run is launched when the first has ended. -/
def oneByOne : Rounds :=
  follow (step "batch" 1) steady ⟨[queuedWorld "a1", queuedWorld "b1"], .idle⟩
    (beginsWith [0, 1]++[processes false 3, (.run 0 0 .start, 1), processes false 2, (.wait, 1)] ++ beginsWith [1] ++
      [(.run 0 0 (.write (System.attempt "a2" .succeeded)), 1), (.run 0 0 .exit, 1)] ++
      beginsWith [1]++[processes false 3])

theorem launched_le_maxConcurrency_two :
    oneByOne.runs.map World.unfinished = [0, 1] ∧ total World.unfinished oneByOne.runs ≤ 1 :=
  ⟨by decide +kernel, (launched_le_maxConcurrency ⟨rfl, by decide, by decide⟩ (reach_follow (fun _ _ h => h) _ _)).1⟩

def launchedTwice : Rounds :=
  play (step "batch" 1) ⟨[queuedWorld "a1"], .idle⟩
    (beginsWith [0]++[processes false 3, processes true 1, (.wait, 1)]++beginsWith [0] ++
      [processes false 3, (.run 0 0 .start, 1), (.run 0 1 .start, 1)])

theorem run_launched_twice : Start ⟨[queuedWorld "a1"], .idle⟩ ∧
      ∃ t, Reach (step "batch" 1) always ⟨[queuedWorld "a1"], .idle⟩ t ∧ total World.unfinished t.runs = 2 ∧
        t.runs.map (·.procs.map Proc.phase) = [[.starting, .starting]] :=
  ⟨⟨rfl, by decide, by decide⟩, launchedTwice, reach_play _ _, by decide +kernel, by decide +kernel⟩

end Rounds
end Ayatsuri.QueueProcessor
