import Ayatsuri.CoreStatus
import Ayatsuri.QueueStore
import Ayatsuri.TransitionSystem

/-! `EnqueueRetry` (`internal/core/exec/enqueue_retry.go`) on one dag-run: the status of its latest
attempt is exchanged for Queued, an item is enqueued, and a failure in between is compensated by a
second exchange. The exchanges are atomic; between them other calls may run. -/
namespace Ayatsuri.Exec
open TransitionSystem FileQueue List Option

inductive TriggerType
  | unknown | scheduler | manual | webhook | subDAG | retry | catchUp | automata
  deriving DecidableEq

structure DAG where
  (name queue : String)
  deriving DecidableEq

def DAG.procGroup (d : DAG) : String := if d.queue ≠ "" then d.queue else d.name

/-- `DAGRunRef.Zero`. -/
def isZero (ref : DAGRunRef) : Bool := ref = ⟨"", ""⟩

structure DAGRunStatus where
  root : DAGRunRef
  (name dagRunID attemptID : String)
  status : Status
  triggerType : TriggerType
  workerID : String
  pid : ℤ
  (queuedAt finishedAt : String)
  autoRetryCount : ℤ
  (procGroup suspendFlagName error : String)
  leaseAt : ℤ
  deriving DecidableEq

def retryProcGroup (dag : Option DAG) (status : DAGRunStatus) : String :=
  if status.procGroup ≠ "" then status.procGroup
  else
    match dag with
    | some d => d.procGroup
    | none => status.name

/-- `CompareAndSwapLatestAttemptStatus` without an error: the status that is stored afterwards, which is
also the one returned, and whether it was exchanged. -/
def compareAndSwap (latest : DAGRunStatus) (expectedAttemptID : String) (expectedStatus : Status)
    (mutate : DAGRunStatus → DAGRunStatus) : DAGRunStatus × Bool :=
  if expectedAttemptID ≠ "" ∧ latest.attemptID ≠ expectedAttemptID then (latest, false)
  else if latest.status ≠ expectedStatus then (latest, false)
  else (mutate latest, true)

structure EnqueueRetryOptions where
  (autoRetry onQueued : Bool)
  deriving DecidableEq

def markQueued (now : String) (autoRetry : Bool) (status latest : DAGRunStatus) : DAGRunStatus :=
  {latest with
    status := .queued
    queuedAt := now
    triggerType := .retry
    autoRetryCount := if autoRetry then latest.autoRetryCount+1 else latest.autoRetryCount
    root := if isZero latest.root && !isZero status.root then status.root else latest.root}

def rollBack (status latest : DAGRunStatus) : DAGRunStatus :=
  {latest with
    status := status.status
    queuedAt := status.queuedAt
    triggerType := status.triggerType
    autoRetryCount := status.autoRetryCount}

inductive RetryError
  | persist (err : String)
  | staleLatest | emptyProcGroup
  | enqueue (err : String)
  | onQueued (err : String)
  deriving DecidableEq

def RetryError.text : RetryError → String
  | .persist err => "persist queued retry status: " ++ err
  | .staleLatest => "retry target is no longer the latest attempt"
  | .emptyProcGroup => "enqueue retry: proc group is empty"
  | .enqueue err => "enqueue retry: " ++ err
  | .onQueued err => err

/-- Where a call of `EnqueueRetry` is. -/
inductive Pc
  | start
  | enqueue (updatedStatus : DAGRunStatus)
  | rollBack (updatedStatus : DAGRunStatus) (err : RetryError)
  | onQueued (updatedStatus : DAGRunStatus)
  | done (err : Option RetryError)
  deriving DecidableEq

@[simp] def Pc.pending : Pc → Option DAGRunStatus
  | .enqueue updatedStatus | .rollBack updatedStatus _ => some updatedStatus
  | _ => none

structure Call where
  dag : Option DAG
  status : DAGRunStatus
  opts : EnqueueRetryOptions
  pc : Pc
  /-- The caller has its status from the cache of the store, and the exchange edits the cached object. -/
  shared : Bool
  deriving DecidableEq

/-- What `status` is after the exchange. -/
def Call.snapshot (c : Call) (updatedStatus : DAGRunStatus) : DAGRunStatus := if c.shared then updatedStatus else c.status

structure Answer where
  now : String
  err : Option String
  deriving DecidableEq

/-- The stored status of the latest attempt of the run, and for each queue item of the run the name of
its queue. -/
structure RunStore where
  latest : DAGRunStatus
  items : List String
  deriving DecidableEq

/-- One step of `EnqueueRetry`. -/
def Call.act (w : RunStore) (a : Answer) (c : Call) : Option (RunStore × Pc) :=
  match c.pc with
  | .start =>
    if c.status.status = .queued then some (w, .done none)
    else
      match a.err with
      | some err => some (w, .done (some (.persist err)))
      | none =>
        match compareAndSwap w.latest c.status.attemptID c.status.status
            (markQueued a.now c.opts.autoRetry c.status) with
        | (updatedStatus, true) => some ({w with latest := updatedStatus}, .enqueue updatedStatus)
        | (updatedStatus, false) =>
          if updatedStatus.status = .queued then some (w, .done none)
          else some (w, .done (some .staleLatest))
  | .enqueue updatedStatus =>
    if retryProcGroup c.dag updatedStatus = "" then some (w, .rollBack updatedStatus .emptyProcGroup)
    else
      match a.err with
      | some err => some (w, .rollBack updatedStatus (.enqueue err))
      | none => some ({w with items := w.items++[retryProcGroup c.dag updatedStatus]}, .onQueued updatedStatus)
  | .rollBack updatedStatus err =>
    match a.err with
    | some _ => some (w, .done (some err))
    | none =>
      some ({w with
        latest := (compareAndSwap w.latest updatedStatus.attemptID .queued (Exec.rollBack (c.snapshot updatedStatus))).1},
        .done (some err))
  | .onQueued _ => some (w, .done (if c.opts.onQueued then a.err.map .onQueued else none))
  | .done _ => none

/-! ### What one step can do -/

section
variable {latest : DAGRunStatus} {attemptID : String} {status : Status} {mutate : DAGRunStatus → DAGRunStatus}

def IsAt (latest : DAGRunStatus) (attemptID : String) (status : Status) : Prop :=
  (attemptID = "" ∨ latest.attemptID = attemptID) ∧ latest.status = status

lemma compareAndSwap_of_isAt (h : IsAt latest attemptID status) :
    compareAndSwap latest attemptID status mutate = (mutate latest, true) := by
  obtain ⟨hid, hstatus⟩ := h
  have hid' : ¬(attemptID ≠ "" ∧ latest.attemptID ≠ attemptID) := by
    rintro ⟨hne, hother⟩
    exact hid.elim hne hother
  simp only [compareAndSwap, if_neg hid', hstatus, ne_eq, not_true, if_false]

lemma compareAndSwap_of_not_isAt (h : ¬IsAt latest attemptID status) :
    compareAndSwap latest attemptID status mutate = (latest, false) := by
  unfold compareAndSwap
  split_ifs with hid hstatus
  · rfl
  · rfl
  · exact absurd ⟨by tauto, not_not.mp hstatus⟩ h

end

variable (w : RunStore) (a : Answer) (c : Call) in
inductive Move : RunStore → Pc → Prop
  | alreadyQueued (at_start : c.pc = .start) (snapshot : c.status.status = .queued) : Move w (.done none)
  | persistFailed {err : String} (at_start : c.pc = .start) (failed : a.err = some err) :
    Move w (.done (some (.persist err)))
  | swap (at_start : c.pc = .start) (snapshot : c.status.status ≠ .queued)
      (found : IsAt w.latest c.status.attemptID c.status.status) :
    Move {w with latest := markQueued a.now c.opts.autoRetry c.status w.latest}
      (.enqueue (markQueued a.now c.opts.autoRetry c.status w.latest))
  | foundQueued (at_start : c.pc = .start) (snapshot : c.status.status ≠ .queued)
      (found : w.latest.status = .queued) : Move w (.done none)
  | stale (at_start : c.pc = .start) (found : w.latest.status ≠ .queued) : Move w (.done (some .staleLatest))
  | refused {updatedStatus : DAGRunStatus} {err : RetryError} (at_enqueue : c.pc = .enqueue updatedStatus) :
    Move w (.rollBack updatedStatus err)
  | enqueued {updatedStatus : DAGRunStatus} (at_enqueue : c.pc = .enqueue updatedStatus) :
    Move {w with items := w.items++[retryProcGroup c.dag updatedStatus]} (.onQueued updatedStatus)
  | rollBackFailed {updatedStatus : DAGRunStatus} {err : RetryError}
      (at_rollBack : c.pc = .rollBack updatedStatus err) (failed : a.err ≠ none) :
    Move w (.done (some err))
  | rolledBack {updatedStatus : DAGRunStatus} {err : RetryError} (at_rollBack : c.pc = .rollBack updatedStatus err)
      (found : IsAt w.latest updatedStatus.attemptID .queued) :
    Move {w with latest := Exec.rollBack (c.snapshot updatedStatus) w.latest} (.done (some err))
  | rollBackLost {updatedStatus : DAGRunStatus} {err : RetryError} (at_rollBack : c.pc = .rollBack updatedStatus err)
      (found : ¬IsAt w.latest updatedStatus.attemptID .queued) :
    Move w (.done (some err))
  | notified {updatedStatus : DAGRunStatus} {err : Option RetryError}
      (at_onQueued : c.pc = .onQueued updatedStatus) : Move w (.done err)

lemma Call.move {w w' a} {c : Call} {pc} (h : c.act w a = some (w', pc)) : Move w a c w' pc := by
  unfold Call.act at h
  cases hpc : c.pc with
  | start =>
    rw [hpc] at h
    by_cases hsnap : c.status.status = .queued
    · rw [if_pos hsnap] at h
      cases h
      exact .alreadyQueued hpc hsnap
    rw [if_neg hsnap] at h
    cases herr : a.err with
    | some err =>
      rw [herr] at h
      cases h
      exact .persistFailed hpc herr
    | none =>
      rw [herr] at h
      by_cases hat : IsAt w.latest c.status.attemptID c.status.status
      · rw [compareAndSwap_of_isAt hat] at h
        cases h
        exact .swap hpc hsnap hat
      rw [compareAndSwap_of_not_isAt hat] at h
      by_cases hq : w.latest.status = .queued
      · obtain ⟨rfl, rfl⟩ := Prod.mk.inj (some.inj (by simpa [hq] using h))
        exact .foundQueued hpc hsnap hq
      · obtain ⟨rfl, rfl⟩ := Prod.mk.inj (some.inj (by simpa [hq] using h))
        exact .stale hpc hq
  | enqueue updatedStatus =>
    rw [hpc] at h
    by_cases hgroup : retryProcGroup c.dag updatedStatus = ""
    · obtain ⟨rfl, rfl⟩ := Prod.mk.inj (some.inj (by simpa [hgroup] using h))
      exact .refused hpc
    cases herr : a.err with
    | some err =>
      obtain ⟨rfl, rfl⟩ := Prod.mk.inj (some.inj (by simpa [hgroup, herr] using h))
      exact .refused hpc
    | none =>
      obtain ⟨rfl, rfl⟩ := Prod.mk.inj (some.inj (by simpa [hgroup, herr] using h))
      exact .enqueued hpc
  | rollBack updatedStatus err =>
    rw [hpc] at h
    cases herr : a.err with
    | some e =>
      obtain ⟨rfl, rfl⟩ := Prod.mk.inj (some.inj (by simpa [herr] using h))
      exact .rollBackFailed hpc (by simp [herr])
    | none =>
      simp only [herr] at h
      by_cases hat : IsAt w.latest updatedStatus.attemptID .queued
      · rw [compareAndSwap_of_isAt hat] at h
        cases h
        exact .rolledBack hpc hat
      rw [compareAndSwap_of_not_isAt hat] at h
      cases h
      exact .rollBackLost hpc hat
  | onQueued updatedStatus =>
    rw [hpc] at h
    cases h
    exact .notified hpc
  | done err => simp [hpc] at h

/-! ### Any number of calls with one status -/

lemma rollBack_markQueued_iff {now autoRetry} {status latest : DAGRunStatus} :
    rollBack status (markQueued now autoRetry status latest) = latest ↔
      status.status = latest.status ∧ status.queuedAt = latest.queuedAt ∧
        status.triggerType = latest.triggerType ∧ status.autoRetryCount = latest.autoRetryCount ∧
        (isZero latest.root → isZero status.root) := by
  have hroot : (if isZero latest.root && !isZero status.root then status.root else latest.root)
      = latest.root ↔ (isZero latest.root → isZero status.root) := by
    by_cases hl : isZero latest.root <;> by_cases hs : isZero status.root
    · simp [hl, hs]
    · have hne : status.root ≠ latest.root := fun h => hs (h ▸ hl)
      simp [hl, hs, hne]
    · simp [hl]
    · simp [hl]
  cases latest
  cases status
  simp only [rollBack, markQueued, DAGRunStatus.mk.injEq] at hroot ⊢
  tauto

structure State where
  store : RunStore
  calls : List Call
  deriving DecidableEq

namespace State

def step (s : State) (l : ℕ × Answer) : Option State := do
  let c ← s.calls[l.1]?
  let r ← c.act s.store l.2
  some ⟨r.1, s.calls.set l.1 {c with pc := r.2}⟩

def start (w : RunStore) (status : DAGRunStatus) (callers : List (Option DAG × EnqueueRetryOptions × Bool)) : State :=
  ⟨w, callers.map fun (dag, opts, shared) => ⟨dag, status, opts, .start, shared⟩⟩

/-- Callers have a status of their own. A call makes its first exchange only while no other call has exchanged the status and
not yet enqueued or restored it; restoring the status does not end in an error. -/
def apart (s : State) (l : ℕ × Answer) : Bool :=
  (s.calls[l.1]?).all (!·.shared) && match (s.calls[l.1]?).map Call.pc with
  | some .start => s.calls.all fun c => c.pc.pending.isNone
  | some (.rollBack _ _) => l.2.err.isNone
  | _ => true

variable {status : DAGRunStatus} {w : RunStore} {s t : State} {l : ℕ × Answer}

lemma step_move (h : step s l = some t) : ∃ c w' pc, s.calls[l.1]? = some c ∧ Move s.store l.2 c w' pc ∧
      t = ⟨w', s.calls.set l.1 {c with pc := pc}⟩ := by
  simp only [step, bind_eq_bind, bind_eq_some_iff, some.injEq] at h
  obtain ⟨c, hc, ⟨w', pc⟩, hact, rfl⟩ := h
  exact ⟨c, w', pc, hc, Call.move hact, rfl⟩

/-- Every call is at a point with `P`. -/
def Each (P : Pc → Prop) (calls : List Call) : Prop := ∀ (j : ℕ) (d : Call), calls[j]? = some d → P d.pc

variable (i : ℕ)

/-- Every call except perhaps call `i` is at a point with `P`. -/
def EachBut (P : Pc → Prop) (calls : List Call) : Prop := ∀ (j : ℕ) (d : Call), j ≠ i → calls[j]? = some d → P d.pc

section
variable {P Q : Pc → Prop} {calls : List Call} {i k : ℕ} {c : Call}

lemma EachBut.mono (h : EachBut i P calls) (hpq : ∀ pc, P pc → Q pc) : EachBut i Q calls :=
  fun j d hj hd => hpq _ (h j d hj hd)

lemma Each.but (h : Each P calls) (i : ℕ) : EachBut i P calls := fun j d _ => h j d

lemma EachBut.set (h : EachBut i P calls) (c : Call) : EachBut i P (calls.set i c) := by
  intro j d hj hd
  rcases getElem?_set_cases hd with ⟨hi, -⟩ | ⟨-, hd⟩
  · exact absurd hi hj
  · exact h j d hj hd

lemma EachBut.set_all (h : EachBut i P calls) (hc : P c.pc) : Each P (calls.set i c) := by
  intro j d hd
  rcases getElem?_set_cases hd with ⟨-, rfl⟩ | ⟨hj, hd⟩
  · exact hc
  · exact h j d hj hd

lemma Each.set (h : Each P calls) (hc : P c.pc) : Each P (calls.set i c) := (h.but i).set_all hc

end

def Settled (pc : Pc) : Prop := pc.pending = none

/-! ### Calls that keep apart -/

def Idle (pc : Pc) : Prop := pc = .start ∨ ∃ err, pc = .done (some err)

lemma Idle.settled {pc} (h : Idle pc) : Settled pc := by rcases h with rfl | ⟨err, rfl⟩ <;> rfl

/-- The course of calls that keep apart: between a call's two exchanges the stored status is the one it
wrote, and after an error everything is as it was. -/
inductive Saga (w : RunStore) (status : DAGRunStatus) (s : State) : Prop
  | rest (store : s.store = w) (calls : Each Idle s.calls)
  | swapped {i : ℕ} {c : Call} {now : String} {autoRetry : Bool}
      (store : s.store = {w with latest := markQueued now autoRetry status w.latest})
      (found : status.status = w.latest.status) (call : s.calls[i]? = some c)
      (pending : c.pc.pending = some s.store.latest) (others : EachBut i Idle s.calls)
  | added {procGroup now : String} {autoRetry : Bool}
      (store : s.store = ⟨markQueued now autoRetry status w.latest, w.items++[procGroup]⟩)
      (calls : Each Settled s.calls)

structure Restores (status latest : DAGRunStatus) : Prop where
  notQueued : status.status ≠ .queued
  storedNotQueued : latest.status ≠ .queued
  queuedAt : status.queuedAt = latest.queuedAt
  triggerType : status.triggerType = latest.triggerType
  autoRetryCount : status.autoRetryCount = latest.autoRetryCount
  root : isZero latest.root → isZero status.root

lemma Restores.rollBack_markQueued {latest : DAGRunStatus} (h : Restores status latest)
    (hstatus : status.status = latest.status) (now : String) (autoRetry : Bool) :
    rollBack status (markQueued now autoRetry status latest) = latest :=
  rollBack_markQueued_iff.mpr ⟨hstatus, h.queuedAt, h.triggerType, h.autoRetryCount, h.root⟩

lemma settled_of_apart {c : Call} (hc : s.calls[l.1]? = some c) (hpc : c.pc = .start)
    (h : apart s l) : Each Settled s.calls := by
  intro j d hd
  have hall : c.shared = false ∧ s.calls.all fun c => c.pc.pending.isNone := by simpa [apart, hc, hpc] using h
  have hmem := all_eq_true.mp hall.2 d (mem_of_getElem? hd)
  exact isNone_iff_eq_none.mp hmem

lemma err_of_apart {c : Call} {updatedStatus err}
    (hc : s.calls[l.1]? = some c) (hpc : c.pc = .rollBack updatedStatus err) (h : apart s l) :
    c.snapshot updatedStatus = c.status ∧ l.2.err = none := by
  have hown : c.shared = false ∧ l.2.err = none := by simpa [apart, hc, hpc] using h
  exact ⟨by simp [Call.snapshot, hown.1], hown.2⟩

namespace Saga
variable {i : ℕ} {c : Call} {updatedStatus : DAGRunStatus}

section
variable (h : Saga w status s)
include h

lemma of_pending (hc : s.calls[i]? = some c) (hp : c.pc.pending = some updatedStatus) :
    updatedStatus = s.store.latest ∧ EachBut i Idle s.calls ∧ status.status = w.latest.status ∧
      ∃ now autoRetry, s.store = {w with latest := markQueued now autoRetry status w.latest} := by
  cases h with
  | rest _ calls =>
    have hnone := (calls i c hc).settled
    rw [Settled, hp] at hnone
    cases hnone
  | added _ calls =>
    have hnone := calls i c hc
    rw [Settled, hp] at hnone
    cases hnone
  | swapped store found call pending others =>
    rename_i k d now autoRetry
    by_cases hk : i = k
    · subst hk
      rw [hc] at call
      cases call
      rw [hp] at pending
      exact ⟨some.inj pending, others, found, now, autoRetry, store⟩
    · have hnone := (others i c hk hc).settled
      rw [Settled, hp] at hnone
      cases hnone

lemma restored (hw : Restores status w.latest) (hc : s.calls[i]? = some c) (hp : c.pc.pending = some updatedStatus) :
    ({s.store with latest := rollBack status s.store.latest} : RunStore) = w := by
  obtain ⟨-, -, hfound, now, autoRetry, hstore⟩ := h.of_pending hc hp
  rw [hstore, hw.rollBack_markQueued hfound]

lemma of_settled (hsettled : Each Settled s.calls) : s.store = w ∧ Each Idle s.calls ∨ ∃ procGroup now autoRetry,
      s.store = ⟨markQueued now autoRetry status w.latest, w.items++[procGroup]⟩ := by
  cases h with
  | rest store calls => exact .inl ⟨store, calls⟩
  | added store _ => exact .inr ⟨_, _, _, store⟩
  | swapped _ _ call pending _ =>
    have hnone := hsettled _ _ call
    rw [Settled, pending] at hnone
    cases hnone

lemma of_busy (hc : s.calls[i]? = some c) (hbusy : ¬Idle c.pc) (hsettled : Settled c.pc) :
    Each Settled s.calls ∧ ∃ procGroup now autoRetry,
      s.store = ⟨markQueued now autoRetry status w.latest, w.items++[procGroup]⟩ := by
  cases h with
  | rest _ calls => exact absurd (calls i c hc) hbusy
  | added store calls => exact ⟨calls, _, _, _, store⟩
  | swapped store found call pending others =>
    rename_i k d now autoRetry
    by_cases hk : i = k
    · subst hk
      rw [hc] at call
      cases call
      rw [hsettled] at pending
      cases pending
    · exact absurd (others i c hk hc) hbusy

lemma set_done (hsettled : Each Settled s.calls) {err} (herr : s.store = w → err ≠ none) :
    Saga w status ⟨s.store, s.calls.set i {c with pc := .done err}⟩ := by
  rcases h.of_settled hsettled with ⟨hstore, hcalls⟩ | ⟨procGroup, now, autoRetry, hstore⟩
  · obtain ⟨e, rfl⟩ := ne_none_iff_exists'.mp (herr hstore)
    exact .rest hstore (hcalls.set (.inr ⟨e, rfl⟩))
  · exact .added hstore (hsettled.set rfl)

end

lemma step (hw : Restores status w.latest) (hstatus : ∀ c ∈ s.calls, c.status = status)
    (h : Saga w status s) {l} (hapart : apart s l)
    (hstep : State.step s l = some t) : Saga w status t := by
  obtain ⟨c, w', pc, hc, hmove, rfl⟩ := step_move hstep
  have hlen : l.1 < s.calls.length := lt_of_getElem? hc
  have hcs : c.status = status := hstatus c (mem_of_getElem? hc)
  cases hmove with
  | alreadyQueued _ hsnap =>
    rw [hcs] at hsnap
    exact absurd hsnap hw.notQueued
  | persistFailed hpc _ | stale hpc _ => exact h.set_done (settled_of_apart hc hpc hapart) (by simp)
  | foundQueued hpc _ hqueued =>
    apply h.set_done (settled_of_apart hc hpc hapart)
    intro hstore
    rw [hstore] at hqueued
    exact absurd hqueued hw.storedNotQueued
  | swap hpc hsnap hat =>
    rcases h.of_settled (settled_of_apart hc hpc hapart) with ⟨hstore, hcalls⟩ | ⟨_, _, _, hstore⟩
    · have hfound : status.status = w.latest.status := by rw [← hcs, ← hat.2, hstore]
      rw [hcs, hstore]
      exact .swapped rfl hfound (getElem?_set_self hlen) rfl ((hcalls.but _).set _)
    · have hqueued : c.status.status = .queued := by rw [← hat.2, hstore]; rfl
      exact absurd hqueued hsnap
  | refused hpc =>
    obtain ⟨rfl, others, found, now, autoRetry, hstore⟩ := h.of_pending hc (by rw [hpc]; rfl)
    exact .swapped hstore found (getElem?_set_self hlen) rfl (others.set _)
  | enqueued hpc =>
    obtain ⟨rfl, others, found, now, autoRetry, hstore⟩ := h.of_pending hc (by rw [hpc]; rfl)
    have hsettled : Each Settled (s.calls.set l.1 {c with pc := .onQueued s.store.latest}) :=
      (others.mono fun _ => Idle.settled).set_all rfl
    exact .added (by rw [hstore]) hsettled
  | rollBackFailed hpc hfailed => exact absurd (err_of_apart hc hpc hapart).2 hfailed
  | rollBackLost hpc hlost =>
    obtain ⟨rfl, -, -, now, autoRetry, hstore⟩ := h.of_pending hc (by rw [hpc]; rfl)
    exact absurd ⟨.inr rfl, by rw [hstore]; rfl⟩ hlost
  | rolledBack hpc _ =>
    obtain ⟨-, others, -⟩ := h.of_pending hc (by rw [hpc]; rfl)
    rw [(err_of_apart hc hpc hapart).1, hcs]
    exact .rest (h.restored hw hc (by rw [hpc]; rfl)) (others.set_all (.inr ⟨_, rfl⟩))
  | notified hpc =>
    obtain ⟨hsettled, _, _, _, hstore⟩ := h.of_busy hc (by simp [hpc, Idle]) (by rw [hpc]; rfl)
    exact .added hstore (hsettled.set rfl)

lemma items_le (h : Saga w status s) : s.store.items.length ≤ w.items.length+1 := by
  cases h with
  | rest store _ | swapped store _ _ _ _ | added store _ => simp [store]

lemma autoRetryCount_markQueued_le (now : String) (autoRetry : Bool) (latest : DAGRunStatus) :
    (markQueued now autoRetry status latest).autoRetryCount ≤ latest.autoRetryCount+1 := by
  simp only [markQueued]
  split_ifs <;> omega

variable (h : Saga w status s)
include h

lemma autoRetryCount_le : s.store.latest.autoRetryCount ≤ w.latest.autoRetryCount+1 := by
  cases h with
  | rest store _ =>
    rw [store]
    omega
  | swapped store _ _ _ _ | added store _ =>
    rw [store]
    exact autoRetryCount_markQueued_le _ _ _

lemma items_of_nil (hc : s.calls[i]? = some c)
    (hpc : c.pc = .done none) : ∃ procGroup, s.store.items = w.items++[procGroup] := by
  obtain ⟨-, procGroup, _, _, hstore⟩ := h.of_busy hc (by simp [hpc, Idle]) (by rw [hpc]; rfl)
  exact ⟨procGroup, by rw [hstore]⟩

lemma found_latest {a} (hc : s.calls[i]? = some c)
    (hapart : apart s (i, a)) (hstep : State.step s (i, a) = some t) (hpc : c.pc = .start)
    (hchanged : t.store ≠ s.store) : s.store.latest = w.latest := by
  obtain ⟨c', w', pc, hc', hmove, rfl⟩ := step_move hstep
  rw [hc] at hc'
  cases hc'
  rcases h.of_settled (settled_of_apart hc hpc hapart) with ⟨hstore, -⟩ | ⟨_, _, _, hstore⟩
  · rw [hstore]
  -- Once an item is added the status is Queued, and no caller came with that.
  cases hmove with
  | swap _ hsnap hat => exact absurd (by rw [← hat.2, hstore]; rfl) hsnap
  | alreadyQueued | persistFailed | foundQueued | stale | refused | rollBackFailed | rollBackLost
  | notified => exact absurd rfl hchanged
  | enqueued h' | rolledBack h' _ => rw [hpc] at h'; cases h'

lemma latest_of_rollBack (hw : Restores status w.latest) (hstatus : ∀ c ∈ s.calls, c.status = status) {a}
    (hc : s.calls[i]? = some c) (hapart : apart s (i, a))
    (hstep : State.step s (i, a) = some t) {err}
    (hpc : c.pc = .rollBack updatedStatus err) : t.store.latest = w.latest := by
  obtain ⟨hown, herr : a.err = none⟩ := err_of_apart (l := (i, a)) hc hpc hapart
  obtain ⟨rfl, -, -, now, autoRetry, hstore⟩ := h.of_pending hc (by rw [hpc]; rfl)
  have hat : IsAt s.store.latest s.store.latest.attemptID .queued := ⟨.inr rfl, by rw [hstore]; rfl⟩
  have hrestored := h.restored hw hc (by rw [hpc]; rfl)
  have hcs : c.status = status := hstatus c (mem_of_getElem? hc)
  simp only [State.step, hc, Call.act, hpc, herr, compareAndSwap_of_isAt hat, hown, hcs, hrestored,
    bind_eq_bind, bind_some, some.injEq] at hstep
  rw [← hstep]

end Saga

lemma status_step (h : ∀ c ∈ s.calls, c.status = status) (hstep : step s l = some t) :
    ∀ c ∈ t.calls, c.status = status := by
  obtain ⟨c, w', pc, hc, -, rfl⟩ := step_move hstep
  exact forall_mem_set h (h c (mem_of_getElem? hc))

lemma saga_of_reach {callers} (hw : Restores status w.latest)
    (h : Reach step (fun s l => apart s l) (start w status callers) s) :
    Saga w status s ∧ ∀ c ∈ s.calls, c.status = status := by
  have hstatus : ∀ c ∈ (start w status callers).calls, c.status = status := by
    intro c hc
    obtain ⟨caller, -, rfl⟩ := mem_map.mp hc
    rfl
  have hidle : Each Idle (start w status callers).calls := by
    intro j d hd
    obtain ⟨caller, -, rfl⟩ := mem_map.mp (mem_of_getElem? hd)
    exact .inl rfl
  apply h.invariant (P := fun s => Saga w status s ∧ ∀ c ∈ s.calls, c.status = status)
  · exact ⟨.rest rfl hidle, hstatus⟩
  · rintro a l b - ⟨hsaga, hcalls⟩ hapart hstep
    exact ⟨hsaga.step hw hcalls hapart hstep, status_step hcalls hstep⟩

/-- Calls with equal statuses of their own that keep apart: at most one item is added and at most one retry is counted, a
call that returned nil has its item in the queue, and a call that fails after its exchange leaves the
stored status as the exchange found it. -/
theorem enqueueRetry_saga {callers : List (Option DAG × EnqueueRetryOptions × Bool)} (hw : Restores status w.latest)
    (h : Reach step (fun s l => apart s l) (start w status callers) s) :
    s.store.items.length ≤ w.items.length+1 ∧ s.store.latest.autoRetryCount ≤ w.latest.autoRetryCount+1 ∧
      (∀ c ∈ s.calls, c.pc = .done none → ∃ procGroup, s.store.items = w.items++[procGroup]) ∧
      (∀ i a c t, s.calls[i]? = some c → apart s (i, a) → step s (i, a) = some t →
        (c.pc = .start → t.store ≠ s.store → s.store.latest = w.latest) ∧
        (∀ updatedStatus err, c.pc = .rollBack updatedStatus err → t.store.latest = w.latest)) := by
  obtain ⟨hsaga, hcalls⟩ := saga_of_reach hw h
  refine ⟨hsaga.items_le, hsaga.autoRetryCount_le, ?_, ?_⟩
  · intro c hc hnil
    obtain ⟨i, hi⟩ := mem_iff_getElem?.mp hc
    exact hsaga.items_of_nil hi hnil
  intro i a c t hc hapart hstep
  constructor
  · exact hsaga.found_latest hc hapart hstep
  · intro updatedStatus err hpc
    exact hsaga.latest_of_rollBack hw hcalls hc hapart hstep hpc

def failedRun (root : DAGRunRef) : DAGRunStatus where
  root := root
  name := "etl"
  dagRunID := "run1"
  attemptID := "a1"
  status := .failed
  triggerType := .scheduler
  workerID := "local"
  pid := 0
  queuedAt := ""
  finishedAt := "2026-02-07T12:00:00Z"
  autoRetryCount := 0
  procGroup := "batch"
  suspendFlagName := "etl"
  error := "exit status 1"
  leaseAt := 0

def callers : List (Option DAG × EnqueueRetryOptions × Bool) :=
  [(none, ⟨true, false⟩, false), (some ⟨"etl", "batch"⟩, ⟨false, false⟩, false)]

/-- Call `i` takes a step without an error. -/
def acts : (ℕ × Answer) × ℕ := ((i, ⟨"2026-02-07T12:05:00Z", none⟩), 1)

/-- Call `i` takes a step, and the store answers with an error. -/
def fails : (ℕ × Answer) × ℕ := ((i, ⟨"2026-02-07T12:05:00Z", some "disk full"⟩), 1)

def oneAfterTheOther : State :=
  follow step apart (start ⟨failedRun ⟨"etl", "run1"⟩, []⟩ (failedRun ⟨"etl", "run1"⟩) callers)
    [acts 0, fails 0, acts 0, acts 1, acts 1, acts 1]

theorem enqueueRetry_saga_second :
    oneAfterTheOther.calls.map Call.pc = [.done (some (.enqueue "disk full")), .done none] ∧
    (∀ c ∈ oneAfterTheOther.calls, c.pc = .done none → ∃ procGroup, oneAfterTheOther.store.items = []++[procGroup]) :=
  ⟨by decide +kernel,
    (enqueueRetry_saga ⟨by decide, by decide, rfl, rfl, rfl, by decide⟩ (reach_follow (fun _ _ h => h) _ _)).2.2.1⟩

/-- The stored status has no root; the manual retry filled in the run itself. The second call comes while
the first one has not enqueued its item, which it then fails to do. -/
def overlapping : State :=
  play step (start ⟨failedRun ⟨"", ""⟩, []⟩ (failedRun ⟨"etl", "run1"⟩) callers) [acts 0, acts 1, fails 0, acts 0]

/-- A call with the cached status fails to enqueue its item, and its second exchange writes Queued again. -/
def unrestored : State :=
  play step (start ⟨failedRun ⟨"etl", "run1"⟩, []⟩ (failedRun ⟨"etl", "run1"⟩) [(none, ⟨true, false⟩, true)])
    [acts 0, fails 0, acts 0]

theorem enqueueRetry_nil_without_item :
    (∃ s, Reach step always (start ⟨failedRun ⟨"", ""⟩, []⟩ (failedRun ⟨"etl", "run1"⟩) callers) s ∧
      s.calls.map Call.pc = [.done (some (.enqueue "disk full")), .done none] ∧
      s.store.items = [] ∧ s.store.latest.root = ⟨"etl", "run1"⟩) ∧
    ∃ s, Reach step always (start ⟨failedRun ⟨"etl", "run1"⟩, []⟩ (failedRun ⟨"etl", "run1"⟩) [(none, ⟨true, false⟩, true)]) s ∧
      s.calls.map Call.pc = [.done (some (.enqueue "disk full"))] ∧ s.store.items = [] ∧ s.store.latest.status = .queued ∧
      s.store.latest.autoRetryCount = 1 :=
  ⟨⟨overlapping, reach_play _ _, by decide +kernel, by decide +kernel, by decide +kernel⟩,
    unrestored, reach_play _ _, by decide +kernel, by decide +kernel, by decide +kernel, by decide +kernel⟩

end State
end Ayatsuri.Exec
