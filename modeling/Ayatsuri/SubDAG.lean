import Ayatsuri.TransitionSystem
import Mathlib

/-! `SubDAGExecutor` (`internal/runtime/executor/dag_runner.go`): calls of `Execute` and
`Retry` interleaved with one call of `Kill`. What the mutex guards is one step, enabled while
`Kill` does not hold the mutex. Child runs end on their own. Commands, tasks, results and
polling intervals are left out. -/
namespace Ayatsuri.SubDAG

inductive CallPc
  -- a local child
  | buildCommand | start | register | wait | unregister
  -- a distributed child
  | registerDistributed | dispatch | waitCompletion | returned
  deriving DecidableEq

/-- `endedLate` is an end after `Kill` had returned. -/
inductive Phase
  | running | ended | endedLate
  deriving DecidableEq

structure Child where
  phase : Phase := .running
  requested : Bool := false
  deriving DecidableEq

structure Call where
  runID : String
  (isRetry distributed : Bool)
  pc : CallPc
  child : Option Child := none
  deriving DecidableEq

/-- Where `Kill` is; it holds the mutex from the lock to its return. -/
inductive KillPc
  | idle
  | cancelling (rest : List String)
  | killing (rest : List (String × ℕ))
  | returned
  deriving DecidableEq

/-- `cmds` maps a run to the call whose process it names. -/
structure State where
  calls : List Call := []
  cmds : List (String × ℕ) := []
  distributedRuns : List String := []
  kill : KillPc := .idle
  deriving DecidableEq

inductive Label
  | call (runID : String) (isRetry distributed : Bool)
  | advance (i : ℕ) (ok : Bool)
  | childEnds (i : ℕ)
  | killLock
  | requestCancel (runID : String) (ok : Bool)
  | killLocal
  | killProcess (runID : String) (i : ℕ) (ok : Bool)
  | killReturn
  deriving DecidableEq

namespace Call
variable (c : Call)

def runs : Bool := c.child.any fun ch => ch.phase = .running

def request : Call := {c with child := c.child.map fun ch => {ch with requested := true}}

/-- Between the start of a local process and the removal of its entry in `cmds`. -/
def active : Bool := c.pc = .register || c.pc = .wait || c.pc = .unregister

end Call

namespace State
variable (s : State)

def locked : Bool :=
  match s.kill with
  | .idle | .returned => false
  | .cancelling _ | .killing _ => true

def setCall (i : ℕ) (c : Call) : State := {s with calls := s.calls.set i c}

end State

/-- `Execute` and `Retry`: a distributed retry is dispatched without being registered. -/
def firstPc (isRetry distributed : Bool) : CallPc :=
  if distributed then if isRetry then .dispatch else .registerDistributed else .buildCommand

variable (s : State)

/-- The next step of the call `c` with number `i`; `ok` is the answer where a step can fail. -/
def callStep (i : ℕ) (c : Call) (ok : Bool) : Option State :=
  match c.pc with
  | .buildCommand => some (s.setCall i {c with pc := if ok then .start else .returned})
  | .start =>
    -- the deferred removal runs after a failed start, too
    some (s.setCall i (if ok then {c with pc := .register, child := some {}}
      else {c with pc := .unregister}))
  | .register =>
    if s.locked then none
    else some { s.setCall i {c with pc := .wait} with
      cmds := (c.runID, i)::s.cmds.filter (·.1 ≠ c.runID)}
  | .wait => if c.runs then none else some (s.setCall i {c with pc := .unregister})
  | .unregister =>
    if s.locked then none
    else some { s.setCall i {c with pc := .returned} with
      cmds := s.cmds.filter (·.1 ≠ c.runID)}
  | .registerDistributed =>
    if s.locked then none
    else some { s.setCall i {c with pc := .dispatch} with
      distributedRuns := s.distributedRuns.insert c.runID}
  | .dispatch =>
    some (s.setCall i (if ok then {c with pc := .waitCompletion, child := some {}}
      else {c with pc := .returned}))
  | .waitCompletion => some (s.setCall i {c with pc := .returned})
  | .returned => none

def endChild (i : ℕ) (c : Call) : Option State :=
  match c.child with
  | none => none
  | some ch =>
    if ch.phase = .running then
      some (s.setCall i { c with child := some {ch with
        phase := if s.kill = .returned then .endedLate else .ended}})
    else none

def cancelDistributed (runID : String) (c : Call) : Call :=
  if c.distributed = true ∧ c.runID = runID then c.request else c

def step : Label → Option State
  | .call runID isRetry distributed =>
    some { s with calls := s.calls ++ [{runID, isRetry, distributed, pc := firstPc isRetry distributed}]}
  | .advance i ok => s.calls[i]?.bind fun c => callStep s i c ok
  | .childEnds i => s.calls[i]?.bind fun c => endChild s i c
  | .killLock =>
    if s.kill = .idle then some {s with kill := .cancelling s.distributedRuns} else none
  | .requestCancel runID ok =>
    match s.kill with
    | .cancelling rest =>
      if runID ∈ rest then
        some {s with
          calls := if ok then s.calls.map (cancelDistributed runID) else s.calls
          kill := .cancelling (rest.erase runID)}
      else none
    | _ => none
  | .killLocal =>
    if s.kill = .cancelling [] then some {s with kill := .killing s.cmds} else none
  | .killProcess runID i ok =>
    match s.kill with
    | .killing rest =>
      if (runID, i) ∈ rest then
        some {s with
          calls := if ok then s.calls.modify i Call.request else s.calls
          kill := .killing (rest.erase (runID, i))}
      else none
    | _ => none
  | .killReturn => if s.kill = .killing [] then some {s with kill := .returned} else none

variable (s : State) in
inductive Move : Label → State → Prop
  | call {runID isRetry distributed} : Move (.call runID isRetry distributed) { s with calls := s.calls ++
        [{runID, isRetry, distributed, pc := firstPc isRetry distributed}]}
  | built {i ok c} (at_i : s.calls[i]? = some c) (pc : c.pc = .buildCommand) :
      Move (.advance i ok) (s.setCall i {c with pc := if ok then .start else .returned})
  | started {i c} (at_i : s.calls[i]? = some c) (pc : c.pc = .start) :
      Move (.advance i true) (s.setCall i {c with pc := .register, child := some {}})
  | startFailed {i c} (at_i : s.calls[i]? = some c) (pc : c.pc = .start) :
      Move (.advance i false) (s.setCall i {c with pc := .unregister})
  | registered {i ok c} (at_i : s.calls[i]? = some c) (pc : c.pc = .register) (free : s.locked = false) :
      Move (.advance i ok) { s.setCall i {c with pc := .wait} with cmds := (c.runID, i)::s.cmds.filter (·.1 ≠ c.runID)}
  | waited {i ok c} (at_i : s.calls[i]? = some c) (pc : c.pc = .wait) (gone : c.runs = false) :
      Move (.advance i ok) (s.setCall i {c with pc := .unregister})
  | unregistered {i ok c} (at_i : s.calls[i]? = some c) (pc : c.pc = .unregister) (free : s.locked = false) :
      Move (.advance i ok) { s.setCall i {c with pc := .returned} with cmds := s.cmds.filter (·.1 ≠ c.runID)}
  | registeredDistributed {i ok c} (at_i : s.calls[i]? = some c)
      (pc : c.pc = .registerDistributed) (free : s.locked = false) :
      Move (.advance i ok) { s.setCall i {c with pc := .dispatch} with
        distributedRuns := s.distributedRuns.insert c.runID}
  | dispatched {i c} (at_i : s.calls[i]? = some c) (pc : c.pc = .dispatch) :
      Move (.advance i true) (s.setCall i {c with pc := .waitCompletion, child := some {}})
  | dispatchFailed {i c} (at_i : s.calls[i]? = some c) (pc : c.pc = .dispatch) :
      Move (.advance i false) (s.setCall i {c with pc := .returned})
  | completed {i ok c} (at_i : s.calls[i]? = some c) (pc : c.pc = .waitCompletion) :
      Move (.advance i ok) (s.setCall i {c with pc := .returned})
  | childEnds {i c ch} (at_i : s.calls[i]? = some c) (child : c.child = some ch) (phase : ch.phase = .running) :
      Move (.childEnds i) (s.setCall i { c with child := some {ch with
        phase := if s.kill = .returned then .endedLate else .ended}})
  | killLock (idle : s.kill = .idle) : Move .killLock {s with kill := .cancelling s.distributedRuns}
  | requestCancel {runID ok rest} (at_kill : s.kill = .cancelling rest) (todo : runID ∈ rest) :
      Move (.requestCancel runID ok) {s with
        calls := if ok then s.calls.map (cancelDistributed runID) else s.calls
        kill := .cancelling (rest.erase runID)}
  | killLocal (at_kill : s.kill = .cancelling []) : Move .killLocal {s with kill := .killing s.cmds}
  | killProcess {runID i ok rest} (at_kill : s.kill = .killing rest) (todo : (runID, i) ∈ rest) :
      Move (.killProcess runID i ok) {s with
        calls := if ok then s.calls.modify i Call.request else s.calls
        kill := .killing (rest.erase (runID, i))}
  | killReturn (at_kill : s.kill = .killing []) : Move .killReturn {s with kill := .returned}

section
variable {s t : State} {l : Label}

lemma move_of_callStep {i : ℕ} {c : Call} {ok : Bool} (hi : s.calls[i]? = some c)
    (h : callStep s i c ok = some t) : Move s (.advance i ok) t := by
  unfold callStep at h
  split at h
  · next pc => cases h; exact .built hi pc
  · next pc =>
    cases ok <;> cases h
    · exact .startFailed hi pc
    · exact .started hi pc
  · next pc =>
    split_ifs at h with hl
    cases h
    exact .registered hi pc (by simpa using hl)
  · next pc =>
    split_ifs at h with hr
    cases h
    exact .waited hi pc (by simpa using hr)
  · next pc =>
    split_ifs at h with hl
    cases h
    exact .unregistered hi pc (by simpa using hl)
  · next pc =>
    split_ifs at h with hl
    cases h
    exact .registeredDistributed hi pc (by simpa using hl)
  · next pc =>
    cases ok <;> cases h
    · exact .dispatchFailed hi pc
    · exact .dispatched hi pc
  · next pc => cases h; exact .completed hi pc
  · cases h

lemma move_of_step (h : step s l = some t) : Move s l t := by
  cases l with
  | call runID isRetry distributed => cases h; exact .call
  | advance i ok =>
    obtain ⟨c, hi, hc⟩ := Option.bind_eq_some_iff.mp h
    exact move_of_callStep hi hc
  | childEnds i =>
    obtain ⟨c, hi, hc⟩ := Option.bind_eq_some_iff.mp h
    unfold endChild at hc
    split at hc
    · cases hc
    next ch hch =>
    split at hc
    · next hp => cases hc; exact .childEnds hi hch hp
    · cases hc
  | killLock =>
    simp only [step] at h
    split_ifs at h with hk
    cases h
    exact .killLock hk
  | requestCancel runID ok =>
    simp only [step] at h
    split at h
    · next rest hk =>
      split at h
      · next hr => cases h; exact .requestCancel hk hr
      · cases h
    · cases h
  | killLocal =>
    simp only [step] at h
    split_ifs at h with hk
    cases h
    exact .killLocal hk
  | killProcess runID i ok =>
    simp only [step] at h
    split at h
    · next rest hk =>
      split at h
      · next hr => cases h; exact .killProcess hk hr
      · cases h
    · cases h
  | killReturn =>
    simp only [step] at h
    split_ifs at h with hk
    cases h
    exact .killReturn hk

end

/-! Whether `Kill` reaches every child. A local child is started before it is registered and
its entry is found by the run alone; a distributed retry is never registered; and nothing
keeps a call from starting its child after `Kill`. -/

open TransitionSystem List Option
variable (s : State)

def entryShared (i : ℕ) (c : Call) : Bool :=
  (range s.calls.length).any fun j => j ≠ i && s.calls[j]?.any fun d => d.active && d.runID = c.runID

/-- `Kill` has not begun, or its cancel request for the run is still to come. -/
def cancelComes (runID : String) : Bool :=
  match s.kill with
  | .idle => true
  | .cancelling rest => runID ∈ rest
  | .killing _ | .returned => false

/-- Local children start before `Kill` and alone in their entry, distributed ones are
registered and start while their cancel request can still be sent; `Kill` does not fall
between a start and its registration, and its requests to running children succeed. -/
def killable : Label → Bool
  | .advance i ok =>
    match s.calls[i]? with
    | none => true
    | some c =>
      match c.pc with
      | .start => (!ok || s.kill = .idle) && !entryShared s i c
      | .dispatch => !ok || ((!c.isRetry || c.runID ∈ s.distributedRuns) && cancelComes s c.runID)
      | _ => true
  | .killLock => s.calls.all fun c => c.pc ≠ .register
  | .requestCancel runID ok => ok || s.calls.all fun c => !(c.distributed && c.runID = runID && c.runs)
  | .killProcess _ i ok => ok || !s.calls[i]?.any Call.runs
  | _ => true

/-- How `Kill` is going to reach the child of call `i`, or why the child waits for it. -/
def Reaches (i : ℕ) (c : Call) : Prop :=
  match s.kill with
  | .idle =>
    if c.distributed then c.runID ∈ s.distributedRuns
    else c.pc = .register ∨ c.pc = .wait ∧ (c.runID, i) ∈ s.cmds
  | .cancelling rest => if c.distributed then c.runID ∈ rest else (c.runID, i) ∈ s.cmds
  | .killing rest => c.distributed = false ∧ (c.runID, i) ∈ rest
  | .returned => False

structure Call.Regular (c : Call) : Prop where
  localPc : c.active ∨ c.pc = .buildCommand ∨ c.pc = .start → c.distributed = false
  distributedPc : c.pc = .registerDistributed ∨ c.pc = .dispatch ∨ c.pc = .waitCompletion → c.distributed
  unborn : c.pc = .buildCommand ∨ c.pc = .start ∨ c.pc = .registerDistributed ∨ c.pc = .dispatch → c.child = none
  left : c.distributed = false → c.runs → c.pc = .register ∨ c.pc = .wait

structure Tracked : Prop where
  reaches : ∀ (i : ℕ) (c : Call) (ch : Child), s.calls[i]? = some c → c.child = some ch → ch.phase ≠ .ended →
    ch.requested = false → Reaches s i c
  alone : ∀ (i j : ℕ) (a b : Call), s.calls[i]? = some a → s.calls[j]? = some b → a.active →
    b.active → a.runID = b.runID → i = j
  regular : ∀ (i : ℕ) (c : Call), s.calls[i]? = some c → c.Regular
  registered : ∀ (i : ℕ) (c : Call), s.calls[i]? = some c → c.pc = .dispatch → c.isRetry = false →
    c.runID ∈ s.distributedRuns
  inTime : s.kill ≠ .returned → ∀ (i : ℕ) (c : Call) (ch : Child), s.calls[i]? = some c →
    c.child = some ch → ch.phase ≠ .endedLate

open Call

section
variable {s t : State} {l : Label} {i j : ℕ} {c d : Call}

lemma getElem?_setCall (h : s.calls[i]? = some c) :
    (s.setCall i d).calls[j]? = if j = i then some d else s.calls[j]? := by
  have hlt : i < s.calls.length := lt_of_getElem? h
  rcases eq_or_ne j i with rfl | hj
  · simp [State.setCall, hlt]
  · simp [State.setCall, hj, getElem?_set_ne hj.symm]

lemma Tracked.setCall (h : Tracked s) (hi : s.calls[i]? = some c)
    (hreach : ∀ ch, d.child = some ch → ch.phase ≠ .ended → ch.requested = false → Reaches s i d)
    (hrun : d.runID = c.runID) (hact : d.active → c.active ∨ entryShared s i c = false)
    (hreg : d.Regular) (hdis : d.pc = .dispatch → d.isRetry = false → d.runID ∈ s.distributedRuns)
    (htime : s.kill ≠ .returned → ∀ ch, d.child = some ch → ch.phase ≠ .endedLate) : Tracked (s.setCall i d) := by
  have fresh : ∀ j b, j ≠ i → s.calls[j]? = some b → d.active → b.active → d.runID ≠ b.runID := by
    intro j b hj hb hd hba heq
    rcases hact hd with hc | hs
    · exact hj (h.alone j i b c hb hi hba hc (heq.symm.trans hrun))
    have hlt : j < s.calls.length := lt_of_getElem? hb
    simp only [entryShared, List.any_eq_false, mem_range] at hs
    have := hs j hlt
    simp [hj, hb, hba, ← heq, hrun] at this
  refine ⟨fun j b ch hb => ?_, fun j k a b ha hb hact' hbct' heq => ?_, fun j b hb => ?_,
    fun j b hb => ?_, fun hk j b ch hb => ?_⟩
  all_goals rw [getElem?_setCall hi] at *
  · split_ifs at hb with hj
    · cases hb
      exact hj ▸ hreach ch
    · exact h.reaches j b ch hb
  · split_ifs at ha hb with hj hk hk
    · rw [hj, hk]
    · cases ha
      exact absurd heq (fresh k b hk hb hact' hbct')
    · cases hb
      exact absurd heq.symm (fresh j a hj ha hbct' hact')
    · exact h.alone j k a b ha hb hact' hbct' heq
  · split_ifs at hb with hj
    · cases hb
      exact hreg
    · exact h.regular j b hb
  · split_ifs at hb with hj
    · cases hb
      exact hdis
    · exact h.registered j b hb
  · split_ifs at hb with hj
    · cases hb
      exact htime hk ch
    · exact h.inTime hk j b ch hb

/-- While `Kill` is not at work, only the entries of waiting calls matter. -/
lemma Tracked.setCmds (h : Tracked s) (hl : s.locked = false) {cmds}
    (hc : ∀ j d, s.calls[j]? = some d → d.pc = .wait → (d.runID, j) ∈ s.cmds →
      (d.runID, j) ∈ cmds) : Tracked {s with cmds := cmds} := by
  refine {h with reaches := fun j d ch hd hch hp hr => ?_}
  have hold := h.reaches j d ch hd hch hp hr
  unfold Reaches at hold ⊢
  unfold State.locked at hl
  cases hk : s.kill <;> simp only [hk] at hold hl ⊢
  · split_ifs at hold ⊢
    · exact hold
    · exact hold.imp_right fun hw => ⟨hw.1, hc j d hd hw.1 hw.2⟩
  all_goals simp at hl

lemma Tracked.setDistributedRuns (h : Tracked s) (hl : s.locked = false) {runs}
    (hr : ∀ r ∈ s.distributedRuns, r ∈ runs) : Tracked {s with distributedRuns := runs} := by
  refine {h with
    reaches := fun j d ch hd hch hp hq => ?_
    registered := fun j d hd hpc hre => hr _ (h.registered j d hd hpc hre)}
  have hold := h.reaches j d ch hd hch hp hq
  unfold Reaches at hold ⊢
  unfold State.locked at hl
  cases hk : s.kill <;> simp only [hk] at hold hl ⊢
  · split_ifs at hold ⊢
    · exact hr _ hold
    · exact hold
  all_goals simp at hl

@[simp] lemma Call.request_runs (c : Call) : c.request.runs = c.runs := by cases h : c.child <;> simp [runs, request, h]

lemma Call.Regular.request (h : c.Regular) : c.request.Regular := by
  refine ⟨h.localPc, h.distributedPc, fun hp => ?_, fun hd hr => ?_⟩
  · simp [Call.request, h.unborn hp]
  · rw [Call.request_runs] at hr
    exact h.left hd hr

variable {ch : Child}

lemma Tracked.runs (h : Tracked s) (hk : s.kill ≠ .returned)
    (hc : s.calls[j]? = some c) (hch : c.child = some ch) (hp : ch.phase ≠ .ended) : c.runs := by
  have hl := h.inTime hk j c ch hc hch
  cases hph : ch.phase <;> simp_all [Call.runs]

lemma Call.request_ne (hch : c.child = some ch) (hr : ch.requested = false) : c.request ≠ c := by
  intro h
  have hc : c.request.child = c.child := congrArg child h
  simp only [request, hch, map_some, some.injEq] at hc
  have hq := congrArg Child.requested hc
  simp [hr] at hq

section
variable (h : Tracked s)
include h

lemma Tracked.requests (hk : s.kill ≠ .returned) {calls} {kill : KillPc}
    (hc : ∀ (j : ℕ) (d : Call), calls[j]? = some d → ∃ c, s.calls[j]? = some c ∧ (d = c ∨ d = c.request))
    (hreach : ∀ (j : ℕ) (c : Call) (ch : Child), s.calls[j]? = some c → calls[j]? = some c →
      c.child = some ch → ch.requested = false → c.runs → Reaches s j c →
      Reaches {s with calls := calls, kill := kill} j c) :
    Tracked {s with calls := calls, kill := kill} := by
  refine ⟨fun j d ch hd hch hp hr => ?_, fun i j a b ha hb hact hbct heq => ?_, fun j d hd => ?_,
    fun j d hd => ?_, fun _ j d ch hd hch => ?_⟩
  · obtain ⟨c, hj, rfl | rfl⟩ := hc j d hd
    · exact hreach j d ch hj hd hch hr (h.runs hk hj hch hp) (h.reaches j d ch hj hch hp hr)
    · obtain ⟨ch', -, rfl⟩ := map_eq_some_iff.mp hch
      cases hr
  · obtain ⟨a', ha', rfl | rfl⟩ := hc i a ha <;> obtain ⟨b', hb', rfl | rfl⟩ := hc j b hb <;>
      exact h.alone i j _ _ ha' hb' hact hbct heq
  · obtain ⟨c, hj, rfl | rfl⟩ := hc j d hd
    · exact h.regular j d hj
    · exact (h.regular j c hj).request
  · obtain ⟨c, hj, rfl | rfl⟩ := hc j d hd
    · exact h.registered j d hj
    · exact h.registered j c hj
  · obtain ⟨c, hj, rfl | rfl⟩ := hc j d hd
    · exact h.inTime hk j d ch hj hch
    · obtain ⟨ch', hch', rfl⟩ := map_eq_some_iff.mp hch
      exact h.inTime hk j c ch' hj hch'

lemma Tracked.killLock (hk : s.kill = .idle) (hc : killable s .killLock) :
    Tracked {s with kill := .cancelling s.distributedRuns} := by
  refine h.requests (by simp [hk]) (fun j d hd => ⟨d, hd, .inl rfl⟩) fun j c ch hj _ _ _ _ hold => ?_
  simp only [Reaches, hk] at hold ⊢
  split_ifs at hold ⊢
  · exact hold
  rcases hold with hreg | ⟨-, hw⟩
  · have hall : ∀ c ∈ s.calls, c.pc ≠ .register := by simpa [killable] using hc
    exact absurd hreg (hall c (mem_of_getElem? hj))
  · exact hw

lemma Tracked.requestCancel {runID ok rest}
    (hk : s.kill = .cancelling rest) (hc : killable s (.requestCancel runID ok)) : Tracked {s with
      calls := if ok then s.calls.map (cancelDistributed runID) else s.calls
      kill := .cancelling (rest.erase runID)} := by
  refine h.requests (by simp [hk]) (fun j d hd => ?_) fun j c ch hj hj' hch hr hrun hold => ?_
  · cases ok
    · exact ⟨d, hd, .inl rfl⟩
    obtain ⟨c, hj, rfl⟩ : ∃ c, s.calls[j]? = some c ∧ cancelDistributed runID c = d := by simpa using hd
    refine ⟨c, hj, ?_⟩
    unfold cancelDistributed
    split_ifs
    · exact .inr rfl
    · exact .inl rfl
  simp only [Reaches, hk] at hold ⊢
  split_ifs at hold ⊢ with hd
  · refine (mem_erase_of_ne ?_).mpr hold
    rintro rfl
    cases ok
    · have hall : ∀ c' ∈ s.calls, (c'.distributed = false ∨ ¬c'.runID = c.runID) ∨
          c'.runs = false := by simpa [killable] using hc
      simpa [hd, hrun] using hall c (mem_of_getElem? hj)
    have heq : cancelDistributed c.runID c = c := by simpa [hj] using hj'
    rw [cancelDistributed, if_pos ⟨hd, rfl⟩] at heq
    exact request_ne hch hr heq
  · exact hold

lemma Tracked.killLocal (hk : s.kill = .cancelling []) : Tracked {s with kill := .killing s.cmds} := by
  refine h.requests (by simp [hk]) (fun j d hd => ⟨d, hd, .inl rfl⟩) fun j c ch hj _ _ _ _ hold => ?_
  simp only [Reaches, hk] at hold ⊢
  split_ifs at hold with hd
  · simp at hold
  · exact ⟨by simpa using hd, hold⟩

lemma Tracked.killProcess {runID ok rest} (hk : s.kill = .killing rest) (hc : killable s (.killProcess runID i ok)) :
    Tracked {s with
      calls := if ok then s.calls.modify i request else s.calls
      kill := .killing (rest.erase (runID, i))} := by
  refine h.requests (by simp [hk]) (fun j d hd => ?_) fun j c ch hj hj' hch hr hrun hold => ?_
  · cases ok
    · exact ⟨d, hd, .inl rfl⟩
    obtain ⟨c, hj, rfl⟩ : ∃ c, s.calls[j]? = some c ∧ (if i = j then c.request else c) = d := by
      simpa [getElem?_modify] using hd
    refine ⟨c, hj, ?_⟩
    split_ifs
    · exact .inr rfl
    · exact .inl rfl
  simp only [Reaches, hk] at hold ⊢
  refine ⟨hold.1, (mem_erase_of_ne ?_).mpr hold.2⟩
  intro heq
  obtain rfl : j = i := congrArg Prod.snd heq
  cases ok
  · simp [killable, hj, hrun] at hc
  · have heq : c.request = c := by simpa [getElem?_modify, hj] using hj'
    exact request_ne hch hr heq

lemma Tracked.killReturn (hk : s.kill = .killing []) : Tracked {s with kill := .returned} := by
  refine h.requests (by simp [hk]) (fun j d hd => ⟨d, hd, .inl rfl⟩) fun j c ch hj _ _ _ _ hold => ?_
  simp [Reaches, hk] at hold

lemma Tracked.call (runID : String) (isRetry distributed : Bool) : Tracked { s with calls := s.calls ++
      [{runID, isRetry, distributed, pc := firstPc isRetry distributed}]} := by
  have hnew : Call.active {runID, isRetry, distributed, pc := firstPc isRetry distributed} = false := by
    cases isRetry <;> cases distributed <;> rfl
  refine ⟨fun j d ch hd hch => ?_, fun i j a b ha hb hact hbct heq => ?_, fun j d hd => ?_,
    fun j d hd => ?_, fun hk j d ch hd hch => ?_⟩
  · rcases getElem?_concat_cases hd with hd | ⟨-, rfl⟩
    · exact h.reaches j d ch hd hch
    · cases hch
  · rcases getElem?_concat_cases ha with ha | ⟨-, rfl⟩
    · rcases getElem?_concat_cases hb with hb | ⟨-, rfl⟩
      · exact h.alone i j a b ha hb hact hbct heq
      · simp [hnew] at hbct
    · simp [hnew] at hact
  · rcases getElem?_concat_cases hd with hd | ⟨-, rfl⟩
    · exact h.regular j d hd
    · constructor <;> cases isRetry <;> cases distributed <;> simp [firstPc, Call.active, Call.runs]
  · rcases getElem?_concat_cases hd with hd | ⟨-, rfl⟩
    · exact h.registered j d hd
    · cases isRetry <;> cases distributed <;> simp [firstPc]
  · rcases getElem?_concat_cases hd with hd | ⟨-, rfl⟩
    · exact h.inTime hk j d ch hd hch
    · cases hch

end

lemma regular_unborn (hn : c.child = none)
    (hl : c.active ∨ c.pc = .buildCommand ∨ c.pc = .start → c.distributed = false)
    (hd : c.pc = .registerDistributed ∨ c.pc = .dispatch ∨ c.pc = .waitCompletion → c.distributed) : c.Regular :=
  ⟨hl, hd, fun _ => hn, fun _ hr => by simp [runs, hn] at hr⟩

section
variable (h : Tracked s) (hi : s.calls[i]? = some c)
include h hi

lemma Tracked.setUnborn (hn : d.child = none) (hrun : d.runID = c.runID)
    (hact : d.active → c.active ∨ entryShared s i c = false)
    (hl : d.active ∨ d.pc = .buildCommand ∨ d.pc = .start → d.distributed = false)
    (hd : d.pc = .registerDistributed ∨ d.pc = .dispatch ∨ d.pc = .waitCompletion → d.distributed)
    (hdis : d.pc = .dispatch → d.isRetry = false → d.runID ∈ s.distributedRuns) : Tracked (s.setCall i d) :=
  h.setCall hi (by simp [hn]) hrun hact (regular_unborn hn hl hd) hdis (by simp [hn])

lemma Tracked.built {ok : Bool} (pc : c.pc = .buildCommand) :
    Tracked (s.setCall i {c with pc := if ok then .start else .returned}) := by
  have hr := h.regular i c hi
  have hdis := hr.localPc (.inr (.inl pc))
  refine h.setUnborn hi (hr.unborn (.inl pc)) rfl ?_ ?_ ?_ ?_ <;> cases ok <;> simp [active, hdis]

lemma Tracked.started (pc : c.pc = .start) (hc : killable s (.advance i true)) :
    Tracked (s.setCall i {c with pc := .register, child := some {}}) := by
  have hdis := (h.regular i c hi).localPc (.inr (.inr pc))
  obtain ⟨hidle, hshared⟩ : s.kill = .idle ∧ entryShared s i c = false := by simpa [killable, hi, pc] using hc
  refine h.setCall hi (fun ch _ _ _ => ?_) rfl (fun _ => .inr hshared) ?_ nofun ?_
  · simp [Reaches, hidle, hdis]
  · constructor <;> simp [active, hdis]
  · rintro - ch hch
    cases hch
    simp

lemma Tracked.startFailed (pc : c.pc = .start) (hc : killable s (.advance i false)) :
    Tracked (s.setCall i {c with pc := .unregister}) := by
  have hr := h.regular i c hi
  have hdis := hr.localPc (.inr (.inr pc))
  have hshared : entryShared s i c = false := by simpa [killable, hi, pc] using hc
  refine h.setUnborn hi (hr.unborn (.inr (.inl pc))) rfl (fun _ => .inr hshared) ?_ ?_ ?_ <;> simp [hdis]

lemma Tracked.run_ne (hj : s.calls[j]? = some d) (hc : c.active) (hw : d.pc = .wait) (hne : c.pc ≠ .wait) :
    d.runID ≠ c.runID := by
  intro heq
  obtain rfl := h.alone j i d c hj hi (by simp [active, hw]) hc heq
  obtain rfl : c = d := by simpa [hi] using hj
  exact hne hw

lemma Tracked.registerCmd
    (pc : c.pc = .register) (hl : s.locked = false) : Tracked { s.setCall i {c with pc := .wait} with
      cmds := (c.runID, i)::s.cmds.filter (·.1 ≠ c.runID)} := by
  have hact : c.active := by simp [active, pc]
  have hdis := (h.regular i c hi).localPc (.inl hact)
  have hs : Tracked {s with cmds := (c.runID, i)::s.cmds.filter (·.1 ≠ c.runID)} := by
    refine h.setCmds hl fun j d hj hw hin => ?_
    have hne := h.run_ne hi hj hact hw (by simp [pc])
    exact mem_cons_of_mem _ (mem_filter.mpr ⟨hin, by simpa using hne⟩)
  refine hs.setCall hi (fun ch hch hp hr => ?_) rfl (fun _ => .inl hact) ?_ nofun
    fun hk ch => h.inTime hk i c ch hi
  · have hold := h.reaches i c ch hi hch hp hr
    unfold Reaches at hold ⊢
    unfold State.locked at hl
    cases hk : s.kill <;> simp_all
  · constructor <;> simp [active, hdis]

lemma Tracked.waited (pc : c.pc = .wait) (gone : c.runs = false) :
    Tracked (s.setCall i {c with pc := .unregister}) := by
  have hact : c.active := by simp [active, pc]
  have hdis := (h.regular i c hi).localPc (.inl hact)
  refine h.setCall hi (fun ch hch hp hr => ?_) rfl (fun _ => .inl hact) ?_ nofun
    fun hk ch => h.inTime hk i c ch hi
  · by_cases hk : s.kill = .returned
    · have hold := h.reaches i c ch hi hch hp hr
      simp [Reaches, hk] at hold
    · simp [h.runs hk hi hch hp] at gone
  · constructor <;> simp [active, hdis]
    exact gone

lemma Tracked.unregisterCmd
    (pc : c.pc = .unregister) (hl : s.locked = false) : Tracked { s.setCall i {c with pc := .returned} with
      cmds := s.cmds.filter (·.1 ≠ c.runID)} := by
  have hact : c.active := by simp [active, pc]
  have hreg := h.regular i c hi
  have hdis := hreg.localPc (.inl hact)
  have gone : c.runs = false := by
    by_contra hr
    simpa [pc] using hreg.left hdis (by simpa using hr)
  have hs : Tracked {s with cmds := s.cmds.filter (·.1 ≠ c.runID)} := by
    refine h.setCmds hl fun j d hj hw hin => ?_
    have hne := h.run_ne hi hj hact hw (by simp [pc])
    exact mem_filter.mpr ⟨hin, by simpa using hne⟩
  refine hs.setCall hi (fun ch hch hp hr => ?_) rfl nofun ?_ nofun
    fun hk ch => h.inTime hk i c ch hi
  · by_cases hk : s.kill = .returned
    · have hold := h.reaches i c ch hi hch hp hr
      simp [Reaches, hk] at hold
    · simp [h.runs hk hi hch hp] at gone
  · constructor <;> simp [active, hdis]
    exact gone

lemma Tracked.registerDistributed (pc : c.pc = .registerDistributed) (hl : s.locked = false) :
    Tracked { s.setCall i {c with pc := .dispatch} with
      distributedRuns := s.distributedRuns.insert c.runID} := by
  have hr := h.regular i c hi
  have hdis := hr.distributedPc (.inl pc)
  have hs : Tracked {s with distributedRuns := s.distributedRuns.insert c.runID} :=
    h.setDistributedRuns hl fun r hr => mem_insert_of_mem hr
  refine hs.setUnborn hi (hr.unborn (.inr (.inr (.inl pc)))) rfl nofun ?_ (fun _ => hdis)
    fun _ _ => mem_insert_self
  simp [active]

lemma Tracked.dispatched (pc : c.pc = .dispatch) (hc : killable s (.advance i true)) :
    Tracked (s.setCall i {c with pc := .waitCompletion, child := some {}}) := by
  have hdis := (h.regular i c hi).distributedPc (.inr (.inl pc))
  obtain ⟨hreg, hcomes⟩ : (c.isRetry = false ∨ c.runID ∈ s.distributedRuns) ∧ cancelComes s c.runID := by
    simpa [killable, hi, pc] using hc
  have hin : c.runID ∈ s.distributedRuns := hreg.elim (h.registered i c hi pc) id
  refine h.setCall hi (fun ch _ _ _ => ?_) rfl nofun ?_ nofun ?_
  · unfold Reaches
    unfold cancelComes at hcomes
    cases hk : s.kill <;> simp_all
  · constructor <;> simp [active, hdis]
  · rintro - ch hch
    cases hch
    simp

lemma Tracked.completed (pc : c.pc = .waitCompletion) : Tracked (s.setCall i {c with pc := .returned}) := by
  have hdis := (h.regular i c hi).distributedPc (.inr (.inr pc))
  refine h.setCall hi (fun ch hch hp hr => ?_) rfl nofun ?_ nofun
    fun hk ch => h.inTime hk i c ch hi
  · have hold := h.reaches i c ch hi hch hp hr
    unfold Reaches at hold ⊢
    simpa [hdis] using hold
  · constructor <;> simp [active, hdis]

lemma Tracked.childEnds (hch : c.child = some ch) (hp : ch.phase = .running) :
    Tracked (s.setCall i { c with child := some {ch with
      phase := if s.kill = .returned then .endedLate else .ended}}) := by
  have hreg := h.regular i c hi
  refine h.setCall hi (fun ch' hch' hp' hr' => ?_) rfl .inl ?_ (h.registered i c hi) ?_
  · cases hch'
    by_cases hk : s.kill = .returned
    · -- it was running unnoticed when Kill returned
      have hold := h.reaches i c ch hi hch (by simp [hp]) hr'
      simp [Reaches, hk] at hold
    · simp [hk] at hp'
  · refine ⟨hreg.localPc, hreg.distributedPc, fun hu => ?_, fun _ hr => ?_⟩
    · simp [hreg.unborn hu] at hch
    · by_cases hk : s.kill = .returned <;> simp [Call.runs, hk] at hr
  · rintro hk ch' hch'
    cases hch'
    simp [hk]

end

lemma Move.tracked (h : Move s l t) (hc : killable s l) (ht : Tracked s) : Tracked t := by
  cases h with
  | call => exact ht.call _ _ _
  | built at_i pc => exact ht.built at_i pc
  | started at_i pc => exact ht.started at_i pc hc
  | startFailed at_i pc => exact ht.startFailed at_i pc hc
  | registered at_i pc free => exact ht.registerCmd at_i pc free
  | waited at_i pc gone => exact ht.waited at_i pc gone
  | unregistered at_i pc free => exact ht.unregisterCmd at_i pc free
  | registeredDistributed at_i pc free => exact ht.registerDistributed at_i pc free
  | dispatched at_i pc => exact ht.dispatched at_i pc hc
  | dispatchFailed at_i pc =>
    have hr := ht.regular _ _ at_i
    refine ht.setUnborn at_i (hr.unborn (.inr (.inr (.inr pc)))) rfl nofun ?_ nofun nofun
    simp [active]
  | completed at_i pc => exact ht.completed at_i pc
  | childEnds at_i child phase => exact ht.childEnds at_i child phase
  | killLock idle => exact ht.killLock idle hc
  | requestCancel at_kill todo => exact ht.requestCancel at_kill hc
  | killLocal at_kill => exact ht.killLocal at_kill
  | killProcess at_kill todo => exact ht.killProcess at_kill hc
  | killReturn at_kill => exact ht.killReturn at_kill

lemma reach_tracked (h : Reach step (fun s l => killable s l) {} s) : Tracked s :=
  h.invariant ⟨by simp, by simp, by simp, by simp, by simp⟩ fun _ _ _ _ ht hc hm => (move_of_step hm).tracked hc ht

/-- Once `Kill` has returned, every child that was started has ended before that or has got a
termination request. -/
theorem kill_reaches_children (h : Reach step (fun s l => killable s l) {} s)
    (hk : s.kill = .returned) {c : Call} (hc : c ∈ s.calls) {ch : Child}
    (hch : c.child = some ch) : ch.phase = .ended ∨ ch.requested := by
  obtain ⟨i, hi⟩ := mem_iff_getElem?.mp hc
  by_contra hne
  obtain ⟨hp, hr⟩ : ch.phase ≠ .ended ∧ ch.requested = false := by simpa using hne
  simpa [Reaches, hk] using (reach_tracked h).reaches i c ch hi hch hp hr

end

/-- `Kill` falls between the start of a local child and its registration. -/
def killInGap : List (Label × ℕ) :=
  [(.call "child" false false, 1), (.advance 0 true, 2), (.killLock, 1), (.killLocal, 1), (.killReturn, 1), (.advance 0 true, 1)]

theorem killed_unnoticed : ∃ s c ch, Reach step always {} s ∧ s.kill = .returned ∧ c ∈ s.calls ∧ c.child = some ch ∧
      ch.phase = .running ∧ ch.requested = false := by
  refine ⟨play step {} killInGap, ⟨"child", false, false, .wait, some {}⟩, {}, reach_play _ _, ?_, ?_, ?_, ?_, ?_⟩ <;> decide

/-- One local and one distributed child are running when `Kill` comes. -/
def killedInTime : State :=
  follow step killable {}
    [(.call "a" false false, 1), (.call "b" false true, 1), (.advance 0 true, 3),
     (.advance 1 true, 2), (.killLock, 1), (.requestCancel "b" true, 1), (.killLocal, 1),
     (.killProcess "a" 0 true, 1), (.killReturn, 1)]

theorem kill_reaches_children_running : killedInTime.kill = .returned ∧
      ∀ c ∈ killedInTime.calls, ∀ ch, c.child = some ch → ch.phase = .ended ∨ ch.requested :=
  have hk : killedInTime.kill = .returned := by decide
  ⟨hk, fun _ hc _ hch => kill_reaches_children (reach_follow (fun _ _ h => h) _ _) hk hc hch⟩

end Ayatsuri.SubDAG
