import Ayatsuri.Approvals
import Ayatsuri.TransitionSystem

/-! Requests that decide on the waiting steps of one run, side by side with each other and with the run's agent. A
request reads the status, edits it, writes it back as a whole and may resume the run; the agent writes the status
it has in memory. -/
namespace Ayatsuri.ApprovalRequests
open TransitionSystem Approvals List Option

inductive Answer
  | refused (why : Refusal)
  | granted (resumed : Bool)
  | failed
  deriving DecidableEq

inductive Pc
  | todo
  | writing (edited original : RunStatus)
  | resuming (edited original : RunStatus)
  | rollback (original : RunStatus)
  | done (answer : Answer)
  deriving DecidableEq

def Pc.active : Pc → Bool
  | .todo | .done _ => false
  | .writing _ _ | .resuming _ _ | .rollback _ => true

/-- Where `GetSavedStatus` has the status from: the file, the agent's socket, or a repair of the file because the run
has no live agent any more. -/
inductive Source
  | file | socket
  | repair (now : String)
  deriving DecidableEq

structure State where
  stored : RunStatus
  agent : Option RunStatus
  requests : List (Request × Pc)
  /-- The requests whose `retry` process has been started and has not begun an attempt. -/
  starting : List ℕ
  /-- The decisions that were written, with the nodes as they were written, but for the steps that a push-back or a
  new attempt has reset since. -/
  standing : List (String × StepNode)
  resumes : ℕ
  completed : Bool
  /-- A `retry` process could not be started. -/
  startFailed : Bool
  deriving DecidableEq

inductive Label
  | read (request : ℕ) (source : Source)
  | write (request : ℕ)
  | resume (request : ℕ) (started : Bool)
  | rollback (request : ℕ)
  | begin
  | progress (memory : RunStatus)
  | save | exit
  deriving DecidableEq

def isDone (n : StepNode) : Bool :=
  match n.state.status with
  | .notStarted | .running | .retrying | .waiting => false
  | .failed | .aborted | .succeeded | .skipped | .partiallySucceeded | .rejected => true

def Continues (old new : RunStatus) : Prop :=
  new.nodes.map (·.step.name) = old.nodes.map (·.step.name) ∧
    ∀ i < old.nodes.length, ∀ n ∈ old.nodes[i]?, isDone n → new.nodes[i]? = some n

instance (old new : RunStatus) : Decidable (Continues old new) := instDecidableAnd

def resets (dag : List Step) (st : RunStatus) (name : String) : Bool :=
  match setupRetryPlan dag st with
  | .error _ => true
  | .ok (p, _) =>
    match findStepByName st.nodes name with
    | none => true
    | some i => clears p (recordedState (st.nodes.map StepNode.recorded)) i

namespace State

def read (dag : List Step) (s : State) (i : ℕ) (source : Source) : Option State :=
  match s.requests[i]? with
  | some (r, .todo) =>
    let answer (s : State) (st : RunStatus) : State :=
      match edit r st with
      | .error why => {s with requests := s.requests.set i (r, .done (.refused why))}
      | .ok edited => {s with requests := s.requests.set i (r, .writing edited st)}
    match source with
    | .file => some (answer s s.stored)
    | .socket =>
      match s.agent with
      | some memory => if s.stored.status = .running then some (answer s memory) else none
      | none => none
    | .repair now =>
      if s.stored.status = .running ∧ s.agent = none then
        let stored := repaired dag now s.stored
        some (answer {s with stored := stored} stored)
      else none
  | _ => none

def decided (standing : List (String × StepNode)) (r : Request) (edited original : RunStatus) :
    List (String × StepNode) :=
  let others :=
    match r.decision with
    | .approve _ | .reject _ => standing
    | .pushBack _ => standing.filter fun x => x.1 ∉ dependentNames original.nodes r.stepName
  match nodeOf edited.nodes r.stepName with
  | none => others
  | some n => (r.stepName, n)::others

def completes (r : Request) (edited : RunStatus) : Bool :=
  match r.decision with
  | .approve _ => !hasWaitingSteps edited.nodes && !(edited.nodes.any fun n => n.state.status = .rejected)
  | .reject _ | .pushBack _ => false

variable (s : State)

/-- `updateDAGRunStatus`. -/
def write (i : ℕ) : Option State :=
  match s.requests[i]? with
  | some (r, .writing edited original) =>
    some {s with
      stored := edited
      standing := decided s.standing r edited original
      completed := s.completed || completes r edited
      requests := s.requests.set i
        (r, if shouldResume r.decision edited then .resuming edited original else .done (.granted false))}
  | _ => none

/-- `resumeDAGRun`. An approval is answered with success also if the process could not be started; a push-back is
taken back. -/
def resume (i : ℕ) (started : Bool) : Option State :=
  match s.requests[i]? with
  | some (r, .resuming _ original) =>
    if started then
      some {s with
        starting := s.starting++[i]
        resumes := s.resumes+1
        requests := s.requests.set i (r, .done (.granted true))}
    else
      let pc :=
        match r.decision with
        | .pushBack _ => Pc.rollback original
        | .approve _ | .reject _ => .done (.granted false)
      some {s with startFailed := true, requests := s.requests.set i (r, pc)}
  | _ => none

def rollback (s : State) (i : ℕ) : Option State :=
  match s.requests[i]? with
  | some (r, .rollback original) =>
    some {s with
      stored := original
      standing := s.standing.filter fun x => x.1 ≠ r.stepName
      requests := s.requests.set i (r, .done .failed)}
  | _ => none

def begin (dag : List Step) (s : State) : Option State :=
  match s.starting with
  | [] => none
  | _::starting =>
    if s.agent = none then
      match restart dag s.stored with
      | .error _ =>
        some {s with
          starting := starting
          standing := s.standing.filter fun x => isDone x.2
          resumes := 0
          startFailed := true}
      | .ok st =>
        some {s with
          stored := st
          agent := some st
          starting := starting
          standing := s.standing.filter fun x => !resets dag s.stored x.1 && isDone x.2
          resumes := 0
          completed := false}
    else none

def step (dag : List Step) (s : State) : Label → Option State
  | .read i source => s.read dag i source
  | .write i => s.write i
  | .resume i started => s.resume i started
  | .rollback i => s.rollback i
  | .begin => s.begin dag
  | .progress memory =>
    match s.agent with
    | some old => if Continues old memory then some {s with agent := some memory} else none
    | none => none
  | .save => s.agent.map fun memory => {s with stored := memory}
  | .exit => if s.agent = some s.stored then some {s with agent := none} else none

structure Start : Prop where
  requests : ∀ x ∈ s.requests, x.2 = .todo
  starting : s.starting = []
  standing : s.standing = []
  resumes : s.resumes = 0
  completed : s.completed = false
  startFailed : s.startFailed = false

def Finished : Prop := ∀ x ∈ s.requests, x.2.active = false

instance (s : State) : Decidable s.Finished := inferInstanceAs (Decidable (∀ x ∈ s.requests, x.2.active = false))

/-- A request reads the status only while no other request is under way, the run has no agent and none was started
that is still to come. -/
def Alone : Label → Prop
  | .read _ _ => s.Finished ∧ s.agent = none ∧ s.starting = []
  | _ => True

instance (s : State) (l : Label) : Decidable (s.Alone l) := by
  unfold Alone
  split <;> infer_instance

/-! ### What stands while requests come one at a time -/

def Knows (r : Request) : Pc → Prop
  | .todo | .done _ => True
  | .writing edited original => original = s.stored ∧ edit r original = .ok edited ∧ ∀ x ∈ s.standing, isDone x.2
  | .resuming _ original =>
    (∀ x ∈ s.standing, x.1 ≠ r.stepName → isDone x.2 ∧ nodeOf original.nodes x.1 = some x.2) ∧
      ((∀ inputs, r.decision ≠ .pushBack inputs) → ∀ x ∈ s.standing, isDone x.2)
  | .rollback original => ∀ x ∈ s.standing, x.1 ≠ r.stepName → isDone x.2 ∧ nodeOf original.nodes x.1 = some x.2

structure Inv : Prop where
  lone : ∃ i, ∀ (j : ℕ) (x : Request × Pc), s.requests[j]? = some x → x.2.active → j = i
  idle : ∀ x ∈ s.requests, x.2.active → s.agent = none ∧ s.starting = []
  resumes : s.resumes = s.starting.length ∧ s.resumes ≤ 1
  stored : ∀ x ∈ s.standing, nodeOf s.stored.nodes x.1 = some x.2
  memory : ∀ memory, s.agent = some memory → ∀ x ∈ s.standing, nodeOf memory.nodes x.1 = some x.2 ∧ isDone x.2
  rested : s.Finished → s.starting = [] → ∀ x ∈ s.standing, isDone x.2
  knows : ∀ x ∈ s.requests, s.Knows x.1 x.2
  completed : s.completed → s.startFailed ∨ s.starting ≠ [] ∨ ∃ x ∈ s.requests, ∃ edited original,
    x.2 = .resuming edited original

variable {s : State}

lemma Start.inv (h : s.Start) : s.Inv := by
  have htodo : ∀ x ∈ s.requests, x.2.active = false := by
    intro x hx
    rw [h.requests x hx]
    rfl
  constructor
  · refine ⟨0, fun j x hx hactive => ?_⟩
    rw [htodo x (mem_of_getElem? hx)] at hactive
    cases hactive
  · intro x hx hactive
    rw [htodo x hx] at hactive
    cases hactive
  · simp [h.resumes, h.starting]
  · simp [h.standing]
  · simp [h.standing]
  · simp [h.standing]
  · intro x hx
    rw [h.requests x hx]
    trivial
  · simp [h.completed]

lemma knows_of_inactive {r} {pc : Pc} (h : pc.active = false) : s.Knows r pc := by
  cases pc with
  | todo => trivial
  | done => trivial
  | _ => cases h

variable {name : String} {n : StepNode}

lemma nodeOf_repaired {dag now} {st : RunStatus}
    (h : nodeOf st.nodes name = some n) (hn : isDone n) : nodeOf (repaired dag now st).nodes name = some n := by
  have hne : st.nodes ≠ [] := by
    intro hnil
    rw [hnil] at h
    cases h
  have hstep : ∀ n, (failActive now n).step = n.step := by
    intro n
    unfold failActive
    split <;> rfl
  have hsame : failActive now n = n := by
    unfold isDone at hn
    unfold failActive
    split at hn <;> simp_all
  simp only [repaired, if_neg hne]
  rw [nodeOf_map hstep, h, map_some, hsame]

lemma nodeOf_continues {old new : RunStatus} (h : Continues old new)
    (hn : nodeOf old.nodes name = some n) (hdone : isDone n) : nodeOf new.nodes name = some n := by
  refine nodeOf_congr h.1 hn fun i _ hget => ?_
  have hlt := lt_of_getElem? hget
  exact h.2 i hlt n hget hdone

lemma nodeOf_restart {dag} {st st' : RunStatus} (h : restart dag st = .ok st')
    (hn : nodeOf st.nodes name = some n) (hkept : resets dag st name = false) : nodeOf st'.nodes name = some n := by
  have hne : st.nodes ≠ [] := by
    intro hnil
    rw [hnil] at hn
    cases hn
  unfold restart at h
  unfold resets at hkept
  cases hplan : setupRetryPlan dag st with
  | error e =>
    rw [hplan] at hkept
    cases hkept
  | ok x =>
    rw [hplan] at h hkept
    cases h
    simp only [if_neg hne]
    refine nodeOf_congr ?_ hn fun i hi hget => ?_
    · apply ext_getElem?
      intro j
      simp only [getElem?_mapIdx, getElem?_map]
      cases st.nodes[j]? with
      | none => rfl
      | some n =>
        simp only [map_some]
        split_ifs <;> rfl
    · rw [getElem?_mapIdx, hget, map_some]
      simp only [hi] at hkept
      rw [if_neg (by simp [hkept])]

variable {x y : Request × Pc} {i : ℕ}

lemma Inv.others (h : s.Inv) (hx : s.requests[i]? = some x)
    (hactive : x.2.active) {j : ℕ} (hj : j ≠ i) (hy : s.requests[j]? = some y) : y.2.active = false := by
  obtain ⟨k, hk⟩ := h.lone
  by_contra hne
  rw [Bool.not_eq_false] at hne
  exact hj ((hk j y hy hne).trans (hk i x hx hactive).symm)

variable {requests : List (Request × Pc)}

lemma mem_set_request (hy : y ∈ requests.set i x)
    (hothers : ∀ j z, j ≠ i → requests[j]? = some z → z.2.active = false) : y = x ∨ y.2.active = false := by
  obtain ⟨j, hj, rfl⟩ := mem_iff_getElem.mp hy
  rcases getElem?_set_cases (getElem?_eq_getElem hj) with ⟨-, heq⟩ | ⟨hne, hget⟩
  · exact .inl heq
  · exact .inr (hothers j _ hne hget)

lemma lone_set (hothers : ∀ j z, j ≠ i → requests[j]? = some z → z.2.active = false) :
    ∃ k, ∀ (j : ℕ) (y : Request × Pc), (requests.set i x)[j]? = some y → y.2.active → j = k := by
  refine ⟨i, fun j y hy hactive => ?_⟩
  rcases getElem?_set_cases hy with ⟨hj, -⟩ | ⟨hj, hget⟩
  · exact hj
  · rw [hothers j y hj hget] at hactive
    cases hactive

namespace Inv
variable {dag : List Step} {s t : State} {i : ℕ} {r : Request}

lemma repair (h : Inv s) (hfinished : s.Finished) (hagent : s.agent = none) (hstarting : s.starting = []) (now : String) :
    Inv {s with stored := repaired dag now s.stored} :=
  {h with
    stored := fun x hx => nodeOf_repaired (h.stored x hx) (h.rested hfinished hstarting x hx)
    memory := by simp [hagent]
    knows := fun x hx => knows_of_inactive (hfinished x hx)}

lemma answer (h : Inv s) (hfinished : s.Finished) (hagent : s.agent = none) (hstarting : s.starting = []) {pc}
    (hknows : s.Knows r pc) : Inv {s with requests := s.requests.set i (r, pc)} := by
  have hothers : ∀ j z, j ≠ i → s.requests[j]? = some z → z.2.active = false :=
    fun j z _ hz => hfinished z (mem_of_getElem? hz)
  refine ⟨lone_set hothers, fun _ _ _ => ⟨hagent, hstarting⟩, h.resumes, h.stored, h.memory, ?_, ?_, ?_⟩
  · exact fun _ => h.rested hfinished
  · intro x hx
    rcases mem_set_request hx hothers with rfl | hinactive
    · exact hknows
    · exact knows_of_inactive hinactive
  · intro hcompleted
    rcases h.completed hcompleted with hfailed | hne | ⟨x, hx, _, _, hpc'⟩
    · exact .inl hfailed
    · exact absurd hstarting hne
    · have hinactive := hfinished x hx
      rw [hpc'] at hinactive
      cases hinactive

lemma read (h : Inv s) {source} (hl : s.Alone (.read i source)) (hstep : s.read dag i source = some t) : Inv t := by
  obtain ⟨hfinished, hagent, hstarting⟩ := hl
  -- the status that is read is the stored one, repaired or not
  have hanswer {u : State} (hu : Inv u) (hf : u.Finished) (ha : u.agent = none) (hs : u.starting = []) (r : Request) :
      Inv (match edit r u.stored with
        | .error why => {u with requests := u.requests.set i (r, .done (.refused why))}
        | .ok edited => {u with requests := u.requests.set i (r, .writing edited u.stored)}) := by
    cases hedit : edit r u.stored with
    | error why => exact hu.answer hf ha hs trivial
    | ok edited => exact hu.answer hf ha hs ⟨rfl, hedit, hu.rested hf hs⟩
  unfold State.read at hstep
  split at hstep
  · rename_i r hget
    dsimp only at hstep
    split at hstep
    · cases hstep
      exact hanswer h hfinished hagent hstarting r
    · simp [hagent] at hstep
    · rename_i now
      split_ifs at hstep
      cases hstep
      exact hanswer (h.repair hfinished hagent hstarting now) hfinished hagent hstarting r
  · cases hstep

variable {edited original : RunStatus} {x : String × StepNode} (h : Inv s)
include h

lemma standing_ne (hknows : s.Knows r (.writing edited original)) (hx : x ∈ s.standing) : x.1 ≠ r.stepName := by
  obtain ⟨rfl, hedit, hdone⟩ := hknows
  obtain ⟨i, node, hfind, hget, -, hwaiting, -⟩ := edit_ok hedit
  intro heq
  have hnode := h.stored x hx
  rw [heq, nodeOf, hfind, bind_some, hget] at hnode
  cases hnode
  have hd := hdone x hx
  simp [isDone, hwaiting] at hd

lemma decided_spec (hknows : s.Knows r (.writing edited original))
    (hx : x ∈ decided s.standing r edited original) : nodeOf edited.nodes x.1 = some x.2 ∧
      (x.1 ≠ r.stepName → isDone x.2 ∧ nodeOf original.nodes x.1 = some x.2) ∧
      ((∀ inputs, r.decision ≠ .pushBack inputs) → isDone x.2) := by
  have hne := fun (x : String × StepNode) (hx : x ∈ s.standing) => h.standing_ne hknows hx
  obtain ⟨rfl, hedit, hdone⟩ := hknows
  obtain ⟨i, node, hfind, hget, -, hwaiting, hcases⟩ := edit_ok hedit
  have hnode : nodeOf s.stored.nodes r.stepName = some node := by rw [nodeOf, hfind]; exact hget
  have happroval : ∀ inputs n, (applyApproval r inputs n).step = n.step := fun _ _ => rfl
  have hrejection : ∀ reason n, (applyRejection r reason n).step = n.step := fun _ _ => rfl
  rcases hcases with ⟨inputs, hdecision, rfl⟩ | ⟨reason, hdecision, rfl⟩ | ⟨inputs, hdecision, rfl⟩
  · simp only [decided, hdecision, nodeOf_modify hfind (happroval inputs), if_pos, hnode, map_some] at hx
    rcases mem_cons.mp hx with rfl | hx
    · refine ⟨by simp [nodeOf_modify hfind (happroval inputs), hnode], fun hself => absurd rfl hself, fun _ => rfl⟩
    · rw [nodeOf_modify hfind (happroval inputs), if_neg (hne x hx)]
      exact ⟨h.stored x hx, fun _ => ⟨hdone x hx, h.stored x hx⟩, fun _ => hdone x hx⟩
  · simp only [decided, hdecision, nodeOf_modify hfind (hrejection reason), if_pos, hnode, map_some] at hx
    rcases mem_cons.mp hx with rfl | hx
    · refine ⟨by simp [nodeOf_modify hfind (hrejection reason), hnode], fun hself => absurd rfl hself, fun _ => rfl⟩
    · rw [nodeOf_modify hfind (hrejection reason), if_neg (hne x hx)]
      exact ⟨h.stored x hx, fun _ => ⟨hdone x hx, h.stored x hx⟩, fun _ => hdone x hx⟩
  · have hothers : ∀ x ∈ s.standing.filter fun x => x.1 ∉ dependentNames s.stored.nodes r.stepName,
        nodeOf (pushBackNodes s.stored.nodes i r.stepName inputs) x.1 = some x.2 ∧
          (x.1 ≠ r.stepName → isDone x.2 ∧ nodeOf s.stored.nodes x.1 = some x.2) := by
      intro x hx
      obtain ⟨hx, hout⟩ := mem_filter.mp hx
      rw [nodeOf_pushBackNodes hfind inputs (by simpa using hout)]
      exact ⟨h.stored x hx, fun _ => ⟨hdone x hx, h.stored x hx⟩⟩
    have hpush : (∀ inputs, r.decision ≠ .pushBack inputs) → isDone x.2 := fun hno => absurd hdecision (hno inputs)
    simp only [decided, hdecision] at hx
    split at hx
    · exact ⟨(hothers x hx).1, (hothers x hx).2, hpush⟩
    rename_i n hn
    rcases mem_cons.mp hx with rfl | hx
    · exact ⟨hn, fun hself => absurd rfl hself, hpush⟩
    · exact ⟨(hothers x hx).1, (hothers x hx).2, hpush⟩

lemma write (hstep : s.write i = some t) : Inv t := by
  unfold State.write at hstep
  split at hstep
  swap
  · cases hstep
  rename_i r edited original hget
  have hmem := mem_of_getElem? hget
  have hknows : s.Knows r (.writing edited original) := h.knows _ hmem
  obtain ⟨hagent, hstarting⟩ := h.idle _ hmem rfl
  have hothers := fun j z hj hz => h.others hget rfl (j := j) (y := z) hj hz
  have hspec := fun (x : String × StepNode) (hx : x ∈ decided s.standing r edited original) => h.decided_spec hknows hx
  cases hstep
  refine ⟨lone_set hothers, fun _ _ _ => ⟨hagent, hstarting⟩, h.resumes, fun x hx => (hspec x hx).1, by simp [hagent], ?_, ?_, ?_⟩
  · -- only a decision that does not resume the run has its answer now
    intro hfinished _ x hx
    have hlt := lt_of_getElem? hget
    have hdone := hfinished _ (mem_set hlt _)
    refine (hspec x hx).2.2 fun inputs hdecision => ?_
    simp [hdecision, shouldResume, Pc.active] at hdone
  · intro x hx
    rcases mem_set_request hx hothers with rfl | hinactive
    · dsimp only
      split_ifs
      · exact ⟨fun x hx => (hspec x hx).2.1, fun hno x hx => (hspec x hx).2.2 hno⟩
      · trivial
    · exact knows_of_inactive hinactive
  · intro hcompleted
    rcases Bool.or_eq_true_iff.mp hcompleted with hold | hnew
    · rcases h.completed hold with hfailed | hne | ⟨x, hx, e, o, hpc⟩
      · exact .inl hfailed
      · exact absurd hstarting hne
      obtain ⟨j, hj⟩ := mem_iff_getElem?.mp hx
      by_cases heq : j = i
      · subst heq
        rw [hget] at hj
        cases hj
        cases hpc
      · have hinactive := hothers j x heq hj
        rw [hpc] at hinactive
        cases hinactive
    · have hlt := lt_of_getElem? hget
      refine .inr (.inr ⟨_, mem_set hlt _, edited, original, ?_⟩)
      unfold completes at hnew
      split at hnew
      · rename_i inputs hdecision
        have hwaiting : hasWaitingSteps edited.nodes = false := by
          simp only [Bool.and_eq_true, Bool.not_eq_true'] at hnew
          exact hnew.1
        simp [shouldResume, hdecision, hwaiting]
      · cases hnew
      · cases hnew

lemma finished_set {pc : Pc} (hget : s.requests[i]? = some (r, pc)) (hactive : pc.active) (pc' : Pc)
    (hpc' : pc'.active = false) : ∀ x ∈ s.requests.set i (r, pc'), x.2.active = false := by
  intro x hx
  rcases mem_set_request hx (fun j z hj hz => h.others hget hactive hj hz) with rfl | hinactive
  · exact hpc'
  · exact hinactive

section
variable (hget : s.requests[i]? = some (r, .resuming edited original))
include hget

lemma resume_started : Inv {s with
      starting := s.starting++[i]
      resumes := s.resumes+1
      requests := s.requests.set i (r, .done (.granted true))} := by
  have hmem := mem_of_getElem? hget
  obtain ⟨hagent, hstarting⟩ := h.idle _ hmem rfl
  have hfinished := h.finished_set hget rfl (.done (.granted true)) rfl
  have hzero : s.resumes = 0 := by simpa [hstarting] using h.resumes.1
  refine ⟨lone_set fun j z hj hz => h.others hget rfl hj hz, ?_, by simp [hstarting, hzero], h.stored, by simp [hagent],
    by simp, fun x hx => knows_of_inactive (hfinished x hx), fun _ => .inr (.inl (by simp))⟩
  intro x hx hactive
  rw [hfinished x hx] at hactive
  cases hactive

lemma resume_failed
    {pc} (hpc : (∃ inputs, r.decision = .pushBack inputs) ∧ pc = .rollback original ∨
      (∀ inputs, r.decision ≠ .pushBack inputs) ∧ pc = .done (.granted false)) :
    Inv {s with startFailed := true, requests := s.requests.set i (r, pc)} := by
  have hmem := mem_of_getElem? hget
  obtain ⟨hagent, hstarting⟩ := h.idle _ hmem rfl
  have hothers := fun j z hj hz => h.others hget rfl (j := j) (y := z) hj hz
  obtain ⟨hback, hdone⟩ : s.Knows r (.resuming edited original) := h.knows _ hmem
  refine ⟨lone_set hothers, fun _ _ _ => ⟨hagent, hstarting⟩, h.resumes, h.stored, h.memory, ?_, ?_, fun _ => .inl rfl⟩
  · intro hfinished _ x hx
    rcases hpc with ⟨-, rfl⟩ | ⟨hno, -⟩
    · have hlt := lt_of_getElem? hget
      cases hfinished _ (mem_set hlt _)
    · exact hdone hno x hx
  intro x hx
  rcases mem_set_request hx hothers with rfl | hinactive
  · rcases hpc with ⟨-, rfl⟩ | ⟨-, rfl⟩
    · exact hback
    · trivial
  · exact knows_of_inactive hinactive

end

lemma resume {started} (hstep : s.resume i started = some t) : Inv t := by
  unfold State.resume at hstep
  split at hstep
  · rename_i r edited original hget
    split_ifs at hstep
    · cases hstep
      exact h.resume_started hget
    cases hstep
    refine h.resume_failed hget ?_
    cases hdecision : r.decision with
    | pushBack inputs => exact .inl ⟨⟨inputs, rfl⟩, rfl⟩
    | approve inputs | reject reason => exact .inr ⟨by simp, rfl⟩
  · cases hstep

lemma rollback (hstep : s.rollback i = some t) : Inv t := by
  unfold State.rollback at hstep
  split at hstep
  · rename_i r original hget
    cases hstep
    have hmem := mem_of_getElem? hget
    obtain ⟨hagent, hstarting⟩ := h.idle _ hmem rfl
    have hfinished := h.finished_set hget rfl (.done .failed) rfl
    have hback : s.Knows r (.rollback original) := h.knows _ hmem
    have hkept {x : String × StepNode} (hx : x ∈ s.standing.filter fun x => x.1 ≠ r.stepName) :
        isDone x.2 ∧ nodeOf original.nodes x.1 = some x.2 := by
      obtain ⟨hx, hne⟩ := mem_filter.mp hx
      exact hback x hx (by simpa using hne)
    refine ⟨lone_set fun j z hj hz => h.others hget rfl hj hz, fun _ _ _ => ⟨hagent, hstarting⟩, h.resumes,
      fun x hx => (hkept hx).2, by simp [hagent], fun _ _ x hx => (hkept hx).1,
      fun x hx => knows_of_inactive (hfinished x hx), ?_⟩
    intro hcompleted
    rcases h.completed hcompleted with hfailed | hne | ⟨x, hx, e, o, hpc⟩
    · exact .inl hfailed
    · exact absurd hstarting hne
    obtain ⟨j, hj⟩ := mem_iff_getElem?.mp hx
    by_cases heq : j = i
    · subst heq
      rw [hget] at hj
      cases hj
      cases hpc
    · have hinactive := h.others hget rfl heq hj
      rw [hpc] at hinactive
      cases hinactive
  · cases hstep

lemma finished (hbusy : s.agent ≠ none ∨ s.starting ≠ []) : s.Finished := by
  intro x hx
  by_contra hactive
  rw [Bool.not_eq_false] at hactive
  obtain ⟨hagent, hstarting⟩ := h.idle x hx hactive
  rcases hbusy with hne | hne
  · exact hne hagent
  · exact hne hstarting

lemma begin (hstep : s.begin dag = some t) : Inv t := by
  unfold State.begin at hstep
  split at hstep
  · cases hstep
  rename_i first starting hstarting
  have hfinished := h.finished (.inr (by simp [hstarting]))
  have hnil : starting = [] := by
    have hlen := h.resumes
    rw [hstarting, length_cons] at hlen
    exact eq_nil_of_length_eq_zero (by omega)
  subst hnil
  have hidle : ∀ x ∈ s.requests, x.2.active → False := by
    intro x hx hactive
    rw [hfinished x hx] at hactive
    cases hactive
  split_ifs at hstep with hagent
  split at hstep
  · cases hstep
    exact ⟨h.lone, fun x hx hactive => (hidle x hx hactive).elim, by simp,
      fun x hx => h.stored x (mem_filter.mp hx).1, by simp [hagent], fun _ _ x hx => (mem_filter.mp hx).2,
      fun x hx => knows_of_inactive (hfinished x hx), fun _ => .inl rfl⟩
  rename_i st hrestart
  cases hstep
  have hkept {x : String × StepNode} (hx : x ∈ s.standing.filter fun x => !resets dag s.stored x.1 && isDone x.2) :
      nodeOf st.nodes x.1 = some x.2 ∧ isDone x.2 := by
    obtain ⟨hx, hkeep⟩ := mem_filter.mp hx
    simp only [Bool.and_eq_true, Bool.not_eq_true'] at hkeep
    exact ⟨nodeOf_restart hrestart (h.stored x hx) hkeep.1, hkeep.2⟩
  refine ⟨h.lone, fun x hx hactive => (hidle x hx hactive).elim, by simp, fun x hx => (hkept hx).1, ?_,
    fun _ _ x hx => (hkept hx).2, fun x hx => knows_of_inactive (hfinished x hx), by simp⟩
  intro memory hmemory
  cases hmemory
  exact fun x hx => hkept hx

lemma step {l} (hl : s.Alone l) (hstep : s.step dag l = some t) : Inv t := by
  cases l with
  | read i source => exact h.read hl hstep
  | write i => exact h.write hstep
  | resume i started => exact h.resume hstep
  | rollback i => exact h.rollback hstep
  | begin => exact h.begin hstep
  | progress memory =>
    simp only [State.step] at hstep
    split at hstep
    · rename_i old hagent
      split_ifs at hstep with hcontinues
      cases hstep
      have hfinished := h.finished (.inl (by simp [hagent]))
      refine {h with idle := ?_, memory := ?_, knows := fun x hx => knows_of_inactive (hfinished x hx)}
      · intro x hx hactive
        rw [hfinished x hx] at hactive
        cases hactive
      intro memory' hmemory x hx
      cases hmemory
      obtain ⟨hnode, hdone⟩ := h.memory old hagent x hx
      exact ⟨nodeOf_continues hcontinues hnode hdone, hdone⟩
    · cases hstep
  | save =>
    obtain ⟨memory, hagent, rfl⟩ := map_eq_some_iff.mp hstep
    have hfinished := h.finished (.inl (by simp [hagent]))
    exact {h with stored := fun x hx => (h.memory memory hagent x hx).1, knows := fun x hx => knows_of_inactive (hfinished x hx)}
  | exit =>
    obtain ⟨hagent, rfl⟩ := of_guarded hstep
    have hfinished := h.finished (.inl (by simp [hagent]))
    refine {h with idle := ?_, memory := by simp, knows := fun x hx => knows_of_inactive (hfinished x hx)}
    intro x hx hactive
    rw [hfinished x hx] at hactive
    cases hactive

end Inv

/-- If every request reads the status while no other request is under way and the run has no agent, then a decision
that was written stands until a push-back or a new attempt resets its step, the run is never resumed twice for one
attempt, and once the last waiting step is approved with none rejected it has been resumed, unless a process could
not be started. -/
theorem decisions_kept {dag : List Step} {start s : State} (hstart : start.Start)
    (h : Reach (State.step dag) State.Alone start s) (hfinished : s.Finished) :
    (∀ x ∈ s.standing, nodeOf s.stored.nodes x.1 = some x.2) ∧ s.resumes ≤ 1 ∧
      (s.completed → s.startFailed = false → s.resumes = 1) := by
  have hinv : Inv s := h.preserved hstart.inv fun hinv => hinv.step
  refine ⟨hinv.stored, hinv.resumes.2, fun hcompleted hfailed => ?_⟩
  have hne : s.starting ≠ [] := by
    rcases hinv.completed hcompleted with hbad | hne | ⟨x, hx, _, _, hpc⟩
    · rw [hfailed] at hbad
      cases hbad
    · exact hne
    · have hinactive := hfinished x hx
      rw [hpc] at hinactive
      cases hinactive
  have hlen := length_pos_of_ne_nil hne
  have hres := hinv.resumes
  omega

end State

namespace Example

def dag : List Step := [{name := "deploy", approval := true}, {name := "notify", approval := true}]

def waiting (status : Status) : RunStatus where
  status := status
  nodes := dag.map fun step => {step := step, state := {status := .waiting}}

def approve (stepName user : String) : Request where
  stepName := stepName
  decision := .approve none
  user := some user

variable (status : Status)

def start (agent : Option RunStatus) (requests : List Request) : State where
  stored := waiting status
  agent := agent
  requests := requests.map fun r => (r, .todo)
  starting := []
  standing := []
  resumes := 0
  completed := false
  startFailed := false

lemma start_start (agent : Option RunStatus) (requests : List Request) : (start status agent requests).Start where
  requests x hx := by
    obtain ⟨r, -, rfl⟩ := mem_map.mp hx
    rfl
  starting := rfl
  standing := rfl
  resumes := rfl
  completed := rfl
  startFailed := rfl

def both : State := start .waiting none [approve "deploy" "ann", approve "notify" "bob"]

def twice : State := start .waiting none [approve "deploy" "ann", approve "notify" "bob", approve "notify" "eve"]

def running : State := start .running (some (waiting .running)) [approve "deploy" "ann"]

def resumed : State :=
  follow (State.step dag) (fun s l => decide (s.Alone l)) both
    [(.read 0 .file, 1), (.write 0, 1), (.read 1 .file, 1), (.write 1, 1), (.resume 1 true, 1)]

end Example

open Example in
theorem State.decisions_kept_resumed :
    (∀ x ∈ resumed.standing, nodeOf resumed.stored.nodes x.1 = some x.2) ∧ resumed.resumes ≤ 1 ∧
      (resumed.completed → resumed.startFailed = false → resumed.resumes = 1) :=
  State.decisions_kept (start_start _ _ _) (reach_checked _ _) (by decide +kernel)

open Example in
/-- Two requests that read at the same time undo each other's decision; the agent writes over the only one; and two
approvals of the last step resume the run twice. -/
theorem State.decisions_lost : (¬ ∀ s, Reach (State.step dag) always both s → s.Finished →
      ∀ x ∈ s.standing, nodeOf s.stored.nodes x.1 = some x.2) ∧
    (¬ ∀ s, Reach (State.step dag) always running s → s.Finished →
      ∀ x ∈ s.standing, nodeOf s.stored.nodes x.1 = some x.2) ∧
    ¬ ∀ s, Reach (State.step dag) always twice s → s.Finished → s.resumes ≤ 1 := by
  refine ⟨fun h => ?_, fun h => ?_, fun h => ?_⟩
  · have hkept := h _ (reach_play _ [(.read 0 .file, 1), (.read 1 .file, 1), (.write 0, 1), (.write 1, 1)])
      (by decide +kernel)
    revert hkept
    decide +kernel
  · have hkept := h _ (reach_play _ [(.read 0 .socket, 1), (.write 0, 1), (.save, 1)]) (by decide +kernel)
    revert hkept
    decide +kernel
  · have hone := h _ (reach_play _ [(.read 0 .file, 1), (.write 0, 1), (.read 1 .file, 1), (.read 2 .file, 1),
      (.write 1, 1), (.write 2, 1), (.resume 1 true, 1), (.resume 2 true, 1)]) (by decide +kernel)
    revert hone
    decide +kernel

end Ayatsuri.ApprovalRequests
