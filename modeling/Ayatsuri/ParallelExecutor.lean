import Ayatsuri.TransitionSystem

/-! The loop of the parallel executor (`parallelExecutor.Run` in `internal/runtime/builtin/dag/parallel.go`), as long as it is not
canceled. Attempts run in goroutines of their own, and every read of the clock is a step. -/
namespace Ayatsuri.Parallel
open TransitionSystem List

/-- `scheduledAttempt`: with the name of a step that step is retried, without one the run is executed. -/
structure Attempt where
  runID : String
  stepName : String := ""
  readyAt : Option ℤ := none
  deriving DecidableEq

open Attempt

/-- `pendingAttemptKey`. -/
def Attempt.key (a : Attempt) : String := a.runID ++ ":" ++ a.stepName

/-- An element of `PendingStepRetries`. -/
structure Retry where
  stepName : String
  interval : ℤ
  deriving DecidableEq

def Attempt.retry (a : Attempt) (t : ℤ) (retry : Retry) : Attempt := ⟨a.runID, retry.stepName, some (t+retry.interval)⟩

/-- `After`, where the zero time comes before all others. -/
def after : Option ℤ → Option ℤ → Bool
  | none, _ => false
  | some _, none => true
  | some t, some u => u < t

/-- The loop of `nextRunnableAttemptIndex`, with its index and the best attempt so far. -/
def nextRunnableAttemptIndex (now : ℤ) (busyRuns : Finset String) : List Attempt → ℕ → Option (ℕ × Attempt) → Option (ℕ × Attempt)
  | [], _, best => best
  | a::rest, i, best =>
    nextRunnableAttemptIndex now busyRuns rest (i+1)
      (if a.runID ∈ busyRuns ∨ after a.readyAt (some now) then best
      else
        match best with
        | none => some (i, a)
        | some b => if after b.2.readyAt a.readyAt then some (i, a) else best)

inductive Event
  | launched (a : Attempt)
  | received (a : Attempt) (retries : List Retry)
  deriving DecidableEq

inductive Pc
  | top
  | launch (now : ℤ)
  /-- In `nextPendingDelay`, which was called at a time and has some attempts before it. -/
  | delays (called : ℤ) (rest : List Attempt) (least : Option ℤ)
  | select (called : ℤ) (timer : Option ℤ)
  | ended
  deriving DecidableEq

structure State where
  pending : List Attempt
  pendingSet : Finset String
  busyRuns : Finset String := ∅
  inFlight : ℕ := 0
  running : List Attempt := []
  clock : ℤ := 0
  pc : Pc := .top
  events : List Event := []

inductive Label
  | next
  | clock (t : ℤ)
  | result (i : ℕ) (retries : List Retry) (t : ℤ)
  | timer
  deriving DecidableEq

namespace State
variable (s : State)

def launch (i : ℕ) (a : Attempt) : State :=
  {s with
    pending := s.pending.eraseIdx i
    pendingSet := s.pendingSet.erase a.key
    busyRuns := insert a.runID s.busyRuns
    inFlight := s.inFlight+1
    running := s.running++[a]
    events := .launched a::s.events}

def schedule (t : ℤ) (a : Attempt) (s : State) (retry : Retry) : State :=
  let next := a.retry t retry
  if next.key ∈ s.pendingSet then s
  else {s with pending := s.pending++[next], pendingSet := insert next.key s.pendingSet}

def receive (i : ℕ) (a : Attempt) (retries : List Retry) (t : ℤ) : State :=
  retries.foldl (schedule t a)
    {s with
      inFlight := s.inFlight - 1
      busyRuns := s.busyRuns.erase a.runID
      running := s.running.eraseIdx i
      clock := t
      pc := .top
      events := .received a retries::s.events}

def idle : State :=
  if s.pending = [] ∧ s.inFlight = 0 then {s with pc := .ended} else {s with pc := .delays s.clock s.pending none}

def step (maxConcurrent : ℕ) (s : State) (l : Label) : Option State :=
  match s.pc, l with
  | .top, .clock t =>
    if s.clock ≤ t then
      some (if s.pending = [] ∧ s.inFlight = 0 then {s with pc := .ended} else {s with clock := t, pc := .launch t})
    else none
  | .launch now, .next =>
    if maxConcurrent = 0 ∨ s.inFlight < maxConcurrent then
      match nextRunnableAttemptIndex now s.busyRuns s.pending 0 none with
      | some (i, a) => some (s.launch i a)
      | none => some s.idle
    else some s.idle
  | .delays called [] least, .next => some {s with pc := .select called least}
  | .delays called (a::rest) least, .clock t =>
    if s.clock ≤ t then
      if a.runID ∈ s.busyRuns then some {s with pc := .delays called rest least}
      else
        match a.readyAt with
        | none => some {s with clock := t, pc := .select called none}
        | some r =>
          -- A delay that is not positive arms no timer.
          if r - t ≤ 0 then some {s with clock := t, pc := .select called none}
          else some {s with clock := t, pc := .delays called rest (some (least.elim (r - t) (min (r - t))))}
    else none
  | .select _ _, .result i retries t =>
    match s.running[i]? with
    | some a => if s.clock ≤ t then some (s.receive i a retries t) else none
    | none => none
  | .select _ (some _), .timer => some {s with pc := .top}
  | _, _ => none

variable (runIDs : List String)

def initial : State where
  pending := runIDs.map fun id => {runID := id}
  pendingSet := (runIDs.map fun id => key {runID := id}).toFinset

/-! ### Attempts in flight -/

variable {maxConcurrent : ℕ} {s t : State} {i : ℕ} {a : Attempt}

structure Flight (maxConcurrent : ℕ) (s : State) : Prop where
  count : s.inFlight = s.running.length
  bound : maxConcurrent = 0 ∨ s.inFlight ≤ maxConcurrent
  busy : ∀ id, id ∈ s.busyRuns ↔ ∃ a ∈ s.running, a.runID = id
  single : (s.running.map Attempt.runID).Nodup

variable {l : List Attempt}

lemma exists_eraseIdx (h : l[i]? = some a) : ∃ front back, l = front++a::back ∧ l.eraseIdx i = front++back := by
  obtain ⟨hi, rfl⟩ := List.getElem?_eq_some_iff.mp h
  exact ⟨l.take i, l.drop (i+1), by simp, eraseIdx_eq_take_drop_succ l i⟩

lemma nodup_eraseIdx {f : Attempt → String} (hl : (l.map f).Nodup) (h : l[i]? = some a) :
    ((l.eraseIdx i).map f).Nodup ∧ ∀ y, y ≠ f a ∧ (∃ b ∈ l, f b = y) ↔ ∃ b ∈ l.eraseIdx i, f b = y := by
  obtain ⟨front, back, hsplit, herase⟩ := exists_eraseIdx h
  rw [herase]
  subst hsplit
  rw [map_append, map_cons, nodup_middle, nodup_cons, ← map_append] at hl
  refine ⟨hl.2, fun y => ⟨?_, ?_⟩⟩
  · rintro ⟨hne, b, hb, rfl⟩
    refine ⟨b, ?_, rfl⟩
    simp only [mem_append, mem_cons] at hb ⊢
    rcases hb with hb | rfl | hb
    · exact .inl hb
    · exact absurd rfl hne
    · exact .inr hb
  · rintro ⟨b, hb, rfl⟩
    refine ⟨fun heq => hl.1 (heq ▸ mem_map_of_mem hb), b, ?_, rfl⟩
    exact mem_append.mpr ((mem_append.mp hb).imp_right (mem_cons_of_mem a))

lemma nextRunnableAttemptIndex_spec {now busyRuns} (seen rest : List Attempt) {best}
    (hbest : ∀ b, best = some b → (seen++rest)[b.1]? = some b.2 ∧ b.2.runID ∉ busyRuns)
    (hnone : best = none → ∀ a ∈ seen, a.runID ∈ busyRuns ∨ after a.readyAt (some now)) :
    (∀ b, nextRunnableAttemptIndex now busyRuns rest seen.length best = some b →
      (seen++rest)[b.1]? = some b.2 ∧ b.2.runID ∉ busyRuns) ∧
    (nextRunnableAttemptIndex now busyRuns rest seen.length best = none →
      ∀ a ∈ seen++rest, a.runID ∈ busyRuns ∨ after a.readyAt (some now)) := by
  induction rest generalizing seen best with
  | nil => exact ⟨hbest, fun h => by simpa using hnone h⟩
  | cons a rest ih =>
    have hthis : ¬ (a.runID ∈ busyRuns ∨ after a.readyAt (some now)) →
        (seen++a::rest)[seen.length]? = some a ∧ a.runID ∉ busyRuns := fun h => ⟨by simp, fun hb => h (.inl hb)⟩
    specialize @ih (seen++[a])
    simp only [append_assoc, singleton_append, length_append, length_singleton] at ih
    unfold nextRunnableAttemptIndex
    refine ih (fun b hb => ?_) fun hb => ?_
    · split_ifs at hb with hwaits
      · exact hbest b hb
      cases best with
      | none =>
        cases hb
        exact hthis hwaits
      | some best =>
        dsimp only at hb
        split_ifs at hb
        · cases hb
          exact hthis hwaits
        · exact hbest b hb
    · split_ifs at hb with hwaits
      · exact forall_mem_append.mpr ⟨hnone hb, by simpa using hwaits⟩
      cases best with
      | none => simp at hb
      | some best =>
        dsimp only at hb
        split_ifs at hb

lemma Flight.launch (h : Flight maxConcurrent s) (hslot : maxConcurrent = 0 ∨ s.inFlight < maxConcurrent)
    (hfree : a.runID ∉ s.busyRuns) :
    Flight maxConcurrent (s.launch i a) where
  count := by simp [State.launch, h.count]
  bound := hslot.imp_right fun hlt => hlt
  busy := fun id => by
    simp only [State.launch, Finset.mem_insert, h.busy, mem_append, mem_singleton]
    constructor
    · rintro (rfl | ⟨b, hb, hid⟩)
      · exact ⟨a, .inr rfl, rfl⟩
      · exact ⟨b, .inl hb, hid⟩
    rintro ⟨b, hb | rfl, hid⟩
    · exact .inr ⟨b, hb, hid⟩
    · exact .inl hid.symm
  single := by
    simp only [State.launch, map_append, map_singleton]
    refine h.single.append (nodup_singleton _) ?_
    simpa [h.busy] using hfree

lemma Flight.drop (h : Flight maxConcurrent s) (hrunning : s.running[i]? = some a) :
    Flight maxConcurrent {s with
      inFlight := s.inFlight - 1, busyRuns := s.busyRuns.erase a.runID, running := s.running.eraseIdx i} := by
  obtain ⟨hsingle, hmem⟩ := nodup_eraseIdx h.single hrunning
  have hi := lt_of_getElem? hrunning
  refine ⟨?_, h.bound.imp_right fun hle => (Nat.sub_le _ _).trans hle, fun id => ?_, hsingle⟩
  · simp [h.count, length_eraseIdx, hi]
  · simp only [Finset.mem_erase, h.busy]
    exact hmem id

/-! ### One step -/

variable (maxConcurrent : ℕ) (s : State) in
inductive Move : Label → State → Prop
  | stop {l : Label} (pending : s.pending = []) : Move l {s with pc := .ended}
  | begin {t : ℤ} : Move (.clock t) {s with clock := t, pc := .launch t}
  | launch {i : ℕ} {a : Attempt} (slot : maxConcurrent = 0 ∨ s.inFlight < maxConcurrent) (found : s.pending[i]? = some a)
      (free : a.runID ∉ s.busyRuns) : Move .next (s.launch i a)
  | measure {now : ℤ} (pc : s.pc = .launch now) (work : ¬ (s.pending = [] ∧ s.inFlight = 0))
      (waits : maxConcurrent = 0 ∨ s.inFlight < maxConcurrent →
        ∀ a ∈ s.pending, a.runID ∈ s.busyRuns ∨ after a.readyAt (some now)) :
      Move .next {s with pc := .delays s.clock s.pending none}
  | skip {called t : ℤ} {a : Attempt} {rest : List Attempt} {least : Option ℤ} (pc : s.pc = .delays called (a::rest) least)
      (busy : a.runID ∈ s.busyRuns) : Move (.clock t) {s with pc := .delays called rest least}
  | due {called t : ℤ} {a : Attempt} {rest : List Attempt} {least : Option ℤ} (pc : s.pc = .delays called (a::rest) least)
      (due : after a.readyAt (some t) = false) : Move (.clock t) {s with clock := t, pc := .select called none}
  | ahead {called t r : ℤ} {a : Attempt} {rest : List Attempt} {least : Option ℤ} (pc : s.pc = .delays called (a::rest) least)
      (clock : s.clock ≤ t) (ready : a.readyAt = some r) (ahead : 0 < r - t) : Move (.clock t)
        {s with clock := t, pc := .delays called rest (some (least.elim (r - t) (min (r - t))))}
  | arm {called : ℤ} {least : Option ℤ} (pc : s.pc = .delays called [] least) :
      Move .next {s with pc := .select called least}
  | receive {i : ℕ} {a : Attempt} {retries : List Retry} {t : ℤ} (found : s.running[i]? = some a) :
      Move (.result i retries t) (s.receive i a retries t)
  | expire : Move .timer {s with pc := .top}

lemma idle_move {now : ℤ} (hpc : s.pc = .launch now)
    (hwaits : maxConcurrent = 0 ∨ s.inFlight < maxConcurrent → ∀ a ∈ s.pending, a.runID ∈ s.busyRuns ∨ after a.readyAt (some now)) :
    Move maxConcurrent s .next s.idle := by
  unfold idle
  split_ifs with hdone
  · exact .stop hdone.1
  · exact .measure hpc hdone hwaits

variable {l : Label}

lemma move_of_step (h : s.step maxConcurrent l = some t) : Move maxConcurrent s l t := by
  unfold step at h
  split at h
  · split_ifs at h with hclock hdone
    · cases h
      exact .stop hdone.1
    · cases h
      exact .begin
  · next now hpc =>
    split_ifs at h with hslot
    · have hspec := @nextRunnableAttemptIndex_spec now s.busyRuns [] s.pending none (by simp) (by simp)
      split at h
      · next i a hbest =>
        cases h
        obtain ⟨hfound, hfree⟩ := hspec.1 _ hbest
        exact .launch hslot hfound hfree
      · next hnone =>
        cases h
        exact idle_move hpc fun _ => hspec.2 hnone
    · cases h
      exact idle_move hpc fun hfree => absurd hfree hslot
  · next hpc =>
    cases h
    exact .arm hpc
  · next hpc =>
    split_ifs at h with hclock hbusy
    · cases h
      exact .skip hpc hbusy
    split at h
    · next hready =>
      cases h
      exact .due hpc (by simp [hready, after])
    next r hready =>
    split_ifs at h with hdue
    · cases h
      exact .due hpc (by simp only [hready, after, decide_eq_false_iff_not]; omega)
    · cases h
      exact .ahead hpc hclock hready (not_le.mp hdue)
  · split at h
    · next a hfound =>
      split_ifs at h
      cases h
      exact .receive hfound
    · cases h
  · cases h
    exact .expire
  · cases h

lemma receive_pc (retries : List Retry) (u : ℤ) : (s.receive i a retries u).pc = .top := by
  refine foldlRecOn (motive := fun t : State => t.pc = .top) _ _ rfl fun t ht retry _ => ?_
  unfold schedule
  dsimp only
  split_ifs <;> exact ht

lemma Flight.schedule (h : Flight maxConcurrent s) (u : ℤ) (retry : Retry) : Flight maxConcurrent (s.schedule u a retry) := by
  unfold State.schedule
  dsimp only
  split_ifs
  · exact h
  · exact {h with}

lemma Flight.move (h : Flight maxConcurrent s) (hmove : Move maxConcurrent s l t) : Flight maxConcurrent t := by
  cases hmove with
  | launch slot found free => exact h.launch slot free
  | receive found => exact foldlRecOn _ _ {h.drop found with} fun _ hs retry _ => hs.schedule _ retry
  | stop | begin | measure | skip | due | ahead | arm | expire => exact {h with}

lemma flight_initial : Flight maxConcurrent (initial runIDs) := by constructor <;> simp [initial]

/-! ### The timer -/

/-- The delay is positive and, from the time of the call on, does not go beyond what these attempts wait for. -/
def Ahead (called : ℤ) (delay : Option ℤ) (l : List Attempt) : Prop :=
  (∀ d, delay = some d → 0 < d) ∧ ∀ a ∈ l, ∃ r d, a.readyAt = some r ∧ delay = some d ∧ called+d ≤ r

lemma Ahead.snoc {called r v : ℤ} {least : Option ℤ} {seen} (h : Ahead called least seen) (hcalled : called ≤ v)
    (hready : a.readyAt = some r) (hahead : 0 < r - v) : Ahead called (some (least.elim (r - v) (min (r - v)))) (seen++[a]) := by
  have hleast : 0 < least.elim (r - v) (min (r - v)) := by
    cases least with
    | none => exact hahead
    | some d => exact lt_min hahead (h.1 d rfl)
  refine ⟨by simpa using hleast, forall_mem_append.mpr ⟨fun b hb => ?_, ?_⟩⟩
  · obtain ⟨r', d, hr', rfl, hle⟩ := h.2 b hb
    exact ⟨r', _, hr', rfl, (Int.add_le_add_left (min_le_right _ _) _).trans hle⟩
  refine forall_mem_singleton.mpr ⟨r, _, hready, rfl, ?_⟩
  have hle : least.elim (r - v) (min (r - v)) ≤ r - v := by
    cases least with
    | none => exact le_rfl
    | some d => exact min_le_left _ _
  omega

/-- With nothing in flight there are attempts to wait for, and the delays that have been computed are ahead. -/
def Wakes (s : State) : Prop :=
  s.running = [] → match s.pc with
    | .delays called rest least =>
      s.pending ≠ [] ∧ called ≤ s.clock ∧ (∀ a ∈ rest, after a.readyAt (some called)) ∧
        ∃ seen, s.pending = seen++rest ∧ Ahead called least seen
    | .select called timer => s.pending ≠ [] ∧ Ahead called timer s.pending
    | .launch now => s.clock = now
    | .top | .ended => True

/-- No attempt becomes due between the read of the clock by which the loop launches and the one by which `nextPendingDelay`
computes how long the attempt waits. -/
def NotDue (s : State) (l : Label) : Prop :=
  match s.pc, l with
  | .delays called (a::_) _, .clock t => s.running = [] → after a.readyAt (some called) → after a.readyAt (some t)
  | _, _ => True

instance (s : State) (l : Label) : Decidable (s.NotDue l) := by
  unfold NotDue
  split <;> infer_instance

lemma Wakes.move (h : s.Wakes) (hflight : Flight maxConcurrent s) (hdue : s.NotDue l) (hmove : Move maxConcurrent s l t) :
    t.Wakes := by
  cases hmove with
  | launch => exact fun hrunning => by simp [State.launch] at hrunning
  | measure pc work waits =>
    intro hrunning
    have hnone : s.inFlight = 0 := by
      rw [hflight.count, show s.running = [] from hrunning]
      rfl
    have hclock := h hrunning
    rw [pc] at hclock
    refine ⟨fun hpending => work ⟨hpending, hnone⟩, le_rfl, fun a ha => ?_, [], rfl, by simp [Ahead]⟩
    -- With nothing in flight a slot is free and no run is busy, so the launch loop went on to the attempts that wait.
    rcases waits (by omega) a ha with hbusy | hwaits
    · obtain ⟨b, hb, -⟩ := (hflight.busy _).mp hbusy
      simp [show s.running = [] from hrunning] at hb
    · exact hclock ▸ hwaits
  | skip pc busy =>
    intro hrunning
    obtain ⟨b, hb, -⟩ := (hflight.busy _).mp busy
    simp [show s.running = [] from hrunning] at hb
  | due pc due =>
    intro hrunning
    have hwakes := h hrunning
    simp only [NotDue, pc] at hdue hwakes
    simp [hdue hrunning (hwakes.2.2.1 _ mem_cons_self)] at due
  | @ahead called v r a rest least pc clock ready ahead =>
    intro hrunning
    have hwakes := h hrunning
    rw [pc] at hwakes
    obtain ⟨hpending, hcalled, hwaits, seen, hseen, hall⟩ := hwakes
    exact ⟨hpending, hcalled.trans clock, (forall_mem_cons.mp hwaits).2, seen++[a], by simpa using hseen,
      hall.snoc (hcalled.trans clock) ready ahead⟩
  | arm pc =>
    intro hrunning
    have hwakes := h hrunning
    rw [pc] at hwakes
    obtain ⟨hpending, -, -, seen, hseen, hall⟩ := hwakes
    exact ⟨hpending, by rwa [show s.pending = seen by simpa using hseen]⟩
  | receive found =>
    intro _
    rw [receive_pc]
    trivial
  | begin => exact fun _ => rfl
  | stop | expire => exact fun _ => trivial

/-- Whenever the loop waits, something is in flight or a timer is armed that does not go off after the time that the first of the
pending attempts waits for. -/
theorem select_wakes {runIDs : List String} {called : ℤ} {timer : Option ℤ}
    (h : Reach (step maxConcurrent) NotDue (initial runIDs) s) (hpc : s.pc = .select called timer) :
    s.running ≠ [] ∨ ∃ d, timer = some d ∧ 0 < d ∧ ∀ a ∈ s.pending, ∃ r, a.readyAt = some r ∧ called+d ≤ r := by
  have hinv : Flight maxConcurrent s ∧ s.Wakes :=
    h.invariant (P := fun s => Flight maxConcurrent s ∧ s.Wakes) ⟨flight_initial runIDs, fun _ => trivial⟩
      fun _ _ _ _ ⟨hflight, hwakes⟩ hdue hstep =>
        ⟨hflight.move (move_of_step hstep), hwakes.move hflight hdue (move_of_step hstep)⟩
  refine or_iff_not_imp_left.mpr fun hrunning => ?_
  have hwakes := hinv.2 (not_not.mp hrunning)
  rw [hpc] at hwakes
  obtain ⟨hpending, hpositive, hall⟩ := hwakes
  obtain ⟨a, ha⟩ := exists_mem_of_ne_nil _ hpending
  obtain ⟨-, d, -, rfl, -⟩ := hall a ha
  refine ⟨d, rfl, hpositive d rfl, fun b hb => ?_⟩
  obtain ⟨r, d', hr, hd', hle⟩ := hall b hb
  cases hd'
  exact ⟨r, hr, hle⟩

/-- The one run is executed at time 0 and reports a retry after 10; the clock is read at 5 when the loop begins again. -/
def retried : List (Label × ℕ) :=
  [(.clock 0, 1), (.next, 2), (.clock 0, 1), (.next, 1), (.result 0 [⟨"test", 10⟩] 0, 1), (.clock 5, 1), (.next, 1)]

def armed : State :=
  follow (step 8) (fun s l => decide (s.NotDue l)) (initial ["1"]) (retried++[(.clock 6, 1), (.next, 1)])

theorem select_wakes_armed : armed.pc = .select 5 (some 4) ∧
    (armed.running ≠ [] ∨ ∃ d, some 4 = some d ∧ 0 < d ∧ ∀ a ∈ armed.pending, ∃ r, a.readyAt = some r ∧ 5+d ≤ r) := by
  have hpc : armed.pc = .select 5 (some 4) := by decide +kernel
  exact ⟨hpc, select_wakes (reach_checked _ _) hpc⟩

/-- The retry becomes due between the two reads of the clock. Nothing is in flight, no timer is armed, and the retry is pending. -/
theorem select_sleeps :
    ∃ s, Reach (step 8) always (initial ["1"]) s ∧ s.pc = .select 5 none ∧ s.running = [] ∧ s.pending.length = 1 :=
  ⟨play (step 8) (initial ["1"]) (retried++[(.clock 12, 1)]), reach_play _ _,
    by decide +kernel, by decide +kernel, by decide +kernel⟩

/-! ### The pending attempts -/

/-- `pendingSet` has the keys of the pending attempts. -/
structure Tables (s : State) : Prop where
  set : ∀ k, k ∈ s.pendingSet ↔ ∃ a ∈ s.pending, a.key = k
  keys : (s.pending.map key).Nodup

lemma Tables.launch (h : s.Tables) (hfound : s.pending[i]? = some a) : (s.launch i a).Tables := by
  obtain ⟨hkeys, hmem⟩ := nodup_eraseIdx h.keys hfound
  refine ⟨fun k => ?_, hkeys⟩
  simp only [State.launch, Finset.mem_erase, h.set]
  exact hmem k

lemma Tables.schedule (h : s.Tables) (u : ℤ) (retry : Retry) : (s.schedule u a retry).Tables := by
  unfold State.schedule
  dsimp only
  split_ifs with hkey
  · exact h
  refine ⟨fun k => ?_, ?_⟩
  · simp only [Finset.mem_insert, h.set, mem_append, mem_singleton]
    constructor
    · rintro (rfl | ⟨b, hb, rfl⟩)
      · exact ⟨_, .inr rfl, rfl⟩
      · exact ⟨b, .inl hb, rfl⟩
    rintro ⟨b, hb | rfl, rfl⟩
    · exact .inr ⟨b, hb, rfl⟩
    · exact .inl rfl
  · rw [map_append, map_singleton]
    refine h.keys.append (nodup_singleton _) ?_
    simpa [h.set] using hkey

lemma Tables.move (h : s.Tables) (hmove : Move maxConcurrent s l t) : t.Tables := by
  cases hmove with
  | launch slot found free => exact h.launch found
  | receive found => exact foldlRecOn _ _ {h with} fun _ hs retry _ => hs.schedule _ retry
  | stop | begin | measure | skip | due | ahead | arm | expire => exact {h with}

lemma tables_initial {runIDs} (hids : runIDs.Nodup) : (initial runIDs).Tables := by
  refine ⟨by simp [initial], ?_⟩
  rw [initial, map_map]
  refine hids.map fun x y hxy => ?_
  simpa [key, String.append_assoc] using hxy

/-! ### The course of the runs -/

end State

lemma Attempt.key_inj {a b : Attempt} (ha : ':' ∉ a.runID.toList) (hb : ':' ∉ b.runID.toList) (h : a.key = b.key) :
    a.runID = b.runID ∧ a.stepName = b.stepName := by
  have htake : ∀ c : Attempt, ':' ∉ c.runID.toList → c.key.toList.takeWhile (· ≠ ':') = c.runID.toList := fun c hc => by
    rw [key, String.toList_append, String.toList_append, append_assoc,
      takeWhile_append_of_pos fun x hx => by simpa using fun hx' : x = ':' => hc (hx' ▸ hx)]
    simp
  have hrun : a.runID = b.runID := String.toList_injective (by rw [← htake a ha, h, htake b hb])
  refine ⟨hrun, String.toList_injective ?_⟩
  have hlist := congrArg String.toList h
  simpa [key, hrun] using hlist

def Attempt.executes (id : String) (a : Attempt) : Bool := a.runID = id && a.stepName = ""

def Event.executes (id : String) : Event → Bool
  | .launched a => a.executes id
  | .received _ _ => false

namespace State
variable {maxConcurrent : ℕ} {s t : State} {i : ℕ} {a : Attempt}

def colonFree (l : List Attempt) : Prop := ∀ b ∈ l, ':' ∉ b.runID.toList

structure Scheduled (a : Attempt) (retries : List Retry) (s t : State) : Prop where
  running : t.running = s.running
  events : t.events = s.events
  kept : s.pending ⊆ t.pending
  fresh : ∀ b ∈ t.pending, b ∈ s.pending ∨ b.runID = a.runID
  executions : (∀ r ∈ retries, r.stepName ≠ "") → ∀ id, t.pending.countP (executes id) = s.pending.countP (executes id)
  present : colonFree (a::s.pending) → ∀ r ∈ retries, ∃ b ∈ t.pending, b.runID = a.runID ∧ b.stepName = r.stepName

lemma scheduled_one (h : s.Tables) (u : ℤ) (retry : Retry) : Scheduled a [retry] s (s.schedule u a retry) := by
  unfold schedule
  dsimp only
  split_ifs with hkey
  · obtain ⟨b, hb, hsame⟩ := (h.set _).mp hkey
    refine ⟨rfl, rfl, List.Subset.refl _, fun b hb => .inl hb, fun _ _ => rfl, fun hclean => forall_mem_singleton.mpr ⟨b, hb, ?_⟩⟩
    obtain ⟨ha, hpending⟩ := forall_mem_cons.mp hclean
    exact key_inj (b := a.retry u retry) (hpending b hb) ha hsame
  refine ⟨rfl, rfl, subset_append_left _ _, fun b hb => ?_, fun hnames id => ?_,
    fun _ => forall_mem_singleton.mpr ⟨a.retry u retry, by simp, rfl, rfl⟩⟩
  · rcases mem_append.mp hb with hb | hb
    · exact .inl hb
    · exact .inr (by rw [mem_singleton.mp hb]; rfl)
  · simp [countP_append, executes, Attempt.retry, hnames retry]

lemma scheduled_all (retries : List Retry) (h : s.Tables) (u : ℤ) : Scheduled a retries s (retries.foldl (schedule u a) s) := by
  induction retries generalizing s with
  | nil => exact ⟨rfl, rfl, List.Subset.refl _, fun b hb => .inl hb, fun _ _ => rfl, by simp⟩
  | cons retry retries ih =>
    have hone := scheduled_one h (a := a) u retry
    have hrest := ih (h.schedule (a := a) u retry)
    refine ⟨hrest.running.trans hone.running, hrest.events.trans hone.events, List.Subset.trans hone.kept hrest.kept,
      fun b hb => ?_,
      fun hnames id => ?_, fun hclean => forall_mem_cons.mpr ⟨?_, hrest.present ?_⟩⟩
    · exact (hrest.fresh b hb).elim (hone.fresh b) .inr
    · obtain ⟨hname, hnames⟩ := forall_mem_cons.mp hnames
      exact (hrest.executions hnames id).trans (hone.executions (by simpa using hname) id)
    · obtain ⟨b, hb, hsame⟩ := hone.present hclean retry (by simp)
      exact ⟨b, hrest.kept hb, hsame⟩
    · obtain ⟨ha, hpending⟩ := forall_mem_cons.mp hclean
      exact forall_mem_cons.mpr ⟨ha, fun b hb => (hone.fresh b hb).elim (hpending b) fun heq => heq ▸ ha⟩

lemma receive_scheduled (retries) (h : s.Tables) (u : ℤ) :
    Scheduled a retries {s with running := s.running.eraseIdx i, events := .received a retries::s.events}
      (s.receive i a retries u) := by
  have hall := scheduled_all (a := a) retries (s := {s with
    inFlight := s.inFlight - 1
    busyRuns := s.busyRuns.erase a.runID
    running := s.running.eraseIdx i
    clock := u
    pc := .top
    events := .received a retries::s.events}) {h with} u
  exact {hall with}

structure Course (runIDs : List String) (s : State) : Prop where
  known : ∀ a, a ∈ s.pending ∨ a ∈ s.running → a.runID ∈ runIDs
  owed : (∀ id ∈ runIDs, ':' ∉ id.toList) → ∀ newer a retries older, s.events = newer ++ .received a retries::older → ∀ r ∈ retries,
    (∃ b, .launched b ∈ newer ∧ b.runID = a.runID ∧ b.stepName = r.stepName) ∨
      ∃ b ∈ s.pending, b.runID = a.runID ∧ b.stepName = r.stepName
  ended : s.pc = .ended → s.pending = []

/-- Each run has been executed, or its first attempt is pending. -/
def Executed (runIDs : List String) (s : State) : Prop :=
  ∀ id ∈ runIDs, s.events.countP (Event.executes id)+s.pending.countP (executes id) = 1

def Named (_ : State) : Label → Prop
  | .result _ retries _ => ∀ r ∈ retries, r.stepName ≠ ""
  | .next | .clock _ | .timer => True

instance (s : State) (l : Label) : Decidable (s.Named l) := by
  unfold Named
  split <;> infer_instance

variable {runIDs : List String}

lemma Course.launch (h : Course runIDs s) (hfound : s.pending[i]? = some a) (hpc : s.pc ≠ .ended) :
    Course runIDs (s.launch i a) := by
  obtain ⟨front, back, hsplit, herase⟩ := exists_eraseIdx hfound
  have hsub : ∀ b ∈ s.pending, b = a ∨ b ∈ s.pending.eraseIdx i := fun b hb => by
    rw [hsplit] at hb
    rw [herase]
    simp only [mem_append, mem_cons] at hb ⊢
    tauto
  refine ⟨fun b hb => ?_, fun hcolon newer x retries older hevents r hr => ?_, fun hend => absurd hend hpc⟩
  · simp only [State.launch, mem_append, mem_singleton] at hb
    rcases hb with hb | hb | rfl
    · exact h.known b (.inl (mem_of_mem_eraseIdx hb))
    · exact h.known b (.inr hb)
    · exact h.known b (.inl (mem_of_getElem? hfound))
  · obtain ⟨hnil, hcons⟩ | ⟨rest, rfl, hrest⟩ := cons_eq_append_iff.mp hevents
    · cases hcons
    rcases h.owed hcolon rest x retries older hrest r hr with ⟨b, hb, hsame⟩ | ⟨b, hb, hsame⟩
    · exact .inl ⟨b, mem_cons_of_mem _ hb, hsame⟩
    rcases hsub b hb with rfl | hb
    · exact .inl ⟨b, mem_cons_self, hsame⟩
    · exact .inr ⟨b, hb, hsame⟩

lemma Course.receive {retries} (h : Course runIDs s) (htables : s.Tables) (hfound : s.running[i]? = some a) (u : ℤ) :
    Course runIDs (s.receive i a retries u) := by
  have ha := h.known a (.inr (mem_of_getElem? hfound))
  have hall := receive_scheduled (a := a) (i := i) retries htables u
  refine ⟨fun b hb => ?_, fun hcolon newer x rs older hevents r hr => ?_, fun hend => ?_⟩
  · rw [hall.running] at hb
    rcases hb with hb | hb
    · exact (hall.fresh b hb).elim (fun hb => h.known b (.inl hb)) fun heq => heq ▸ ha
    · exact h.known b (.inr (mem_of_mem_eraseIdx hb))
  · rw [hall.events] at hevents
    obtain ⟨rfl, hcons⟩ | ⟨rest, rfl, hrest⟩ := cons_eq_append_iff.mp hevents
    · cases hcons
      exact .inr (hall.present (forall_mem_cons.mpr ⟨hcolon _ ha, fun b hb => hcolon _ (h.known b (.inl hb))⟩) r hr)
    rcases h.owed hcolon rest x rs older hrest r hr with ⟨b, hb, hsame⟩ | ⟨b, hb, hsame⟩
    · exact .inl ⟨b, mem_cons_of_mem _ hb, hsame⟩
    · exact .inr ⟨b, hall.kept hb, hsame⟩
  · rw [receive_pc] at hend
    cases hend

lemma Course.move {l} (h : Course runIDs s) (htables : s.Tables) (hpc : s.pc ≠ .ended) (hmove : Move maxConcurrent s l t) :
    Course runIDs t := by
  cases hmove with
  | launch slot found free => exact h.launch found hpc
  | receive found => exact h.receive htables found _
  | stop pending => exact {h with ended := fun _ => pending}
  | begin | measure | skip | due | ahead | arm | expire => exact {h with ended := fun hend => by cases hend}

lemma Executed.launch (h : Executed runIDs s) (hfound : s.pending[i]? = some a) : Executed runIDs (s.launch i a) := by
  obtain ⟨front, back, hsplit, herase⟩ := exists_eraseIdx hfound
  intro id hid
  have hcount := h id hid
  rw [hsplit] at hcount
  simp only [State.launch, herase]
  cases hexecutes : a.executes id <;> simp [Event.executes, hexecutes] at hcount ⊢ <;> omega

lemma Executed.move {l} (h : Executed runIDs s) (htables : s.Tables) (hnamed : s.Named l) (hmove : Move maxConcurrent s l t) :
    Executed runIDs t := by
  cases hmove with
  | launch slot found free => exact h.launch found
  | @receive i a retries u found =>
    have hall := receive_scheduled (a := a) (i := i) retries htables u
    intro id hid
    rw [hall.events, hall.executions hnamed id]
    simpa [Event.executes] using h id hid
  | stop | begin | measure | skip | due | ahead | arm | expire => exact h

lemma executed_initial (hids : runIDs.Nodup) : Executed runIDs (initial runIDs) := fun id hid => by
  have hcount : runIDs.countP (fun x => executes id {runID := x}) = runIDs.count id := by
    simp only [count, executes, decide_true, Bool.and_true]
    exact countP_congr fun x _ => by simp
  simp only [initial, countP_nil, countP_map, Nat.zero_add]
  exact hcount.trans (count_eq_one_of_mem hids hid)

lemma not_ended_of_step {l} (h : s.step maxConcurrent l = some t) : s.pc ≠ .ended := fun hpc => by
  simp [step, hpc] at h

def finished : State :=
  follow (step 8) (fun s l => decide (s.Named l)) (initial ["1"])
    (retried++[(.clock 6, 1), (.next, 1), (.timer, 1), (.clock 12, 1), (.next, 3), (.result 0 [] 13, 1), (.clock 13, 1)])

end State
end Ayatsuri.Parallel
