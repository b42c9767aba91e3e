import Ayatsuri.ApprovalRequests

/-! Decisions on the waiting steps of one run, one after the other. An approval that leaves no step waiting resumes
the run without looking for rejected steps, and the retry plan clears those together with everything behind
them. A live agent writes the status that it has in memory over the edited one. -/
namespace Ayatsuri.ApprovalFinality
open TransitionSystem Approvals List Option
open ApprovalRequests (isDone)
open ApprovalRequests.State (nodeOf_repaired)

/-- A new attempt of the run: the request that started it, the status it is planned from and the steps that had
been rejected before. -/
structure Resumption where
  request : Request
  status : RunStatus
  rejected : List String
  deriving DecidableEq

structure State where
  stored : RunStatus
  /-- What the run's live agent has in memory. -/
  agent : Option RunStatus
  rejected : List String
  resumption : Option Resumption
  deriving DecidableEq

inductive Label
  /-- The status is read from the agent's socket or from the file. -/
  | request (r : Request) (socket : Bool)
  /-- `GetSavedStatus` finds that a running run has no live agent. -/
  | repair (now : String)
  | attempt (status : RunStatus)
  | progress (memory : RunStatus)
  | save | exit
  deriving DecidableEq

def rejectedAfter (rejected : List String) (r : Request) (original : RunStatus) : List String :=
  match r.decision with
  | .approve _ => rejected
  | .reject _ => r.stepName::rejected
  | .pushBack _ => rejected.filter fun name => name ∉ dependentNames original.nodes r.stepName

namespace State

def read (s : State) (socket : Bool) : Option RunStatus := if socket then s.agent else some s.stored

/-- The handler of a request that has read a status. -/
def handle (s : State) (r : Request) (original : RunStatus) : State :=
  match edit r original with
  | .error _ => s
  | .ok edited =>
    let rejected := rejectedAfter s.rejected r original
    {s with
      stored := edited
      rejected := rejected
      resumption := if shouldResume r.decision edited then some ⟨r, edited, rejected⟩ else s.resumption}

def step (dag : List Step) (s : State) : Label → Option State
  | .request r socket => (s.read socket).map (s.handle r)
  | .repair now =>
    if s.stored.status = .running ∧ s.agent = none then some {s with stored := repaired dag now s.stored} else none
  | .attempt status =>
    match s.resumption with
    | none => none
    | some _ => some {stored := status, agent := some status, rejected := [], resumption := none}
  | .progress memory => s.agent.map fun _ => {s with agent := some memory}
  | .save => s.agent.map fun memory => {s with stored := memory}
  | .exit => some {s with agent := none}

/-- An approval is given only while no step is rejected or another step waits as well. -/
def Approvable (s : State) (r : Request) (socket : Bool) : Prop :=
  match r.decision with
  | .approve _ =>
    ∀ st ∈ s.read socket, (∀ n ∈ st.nodes, n.state.status ≠ .rejected) ∨
      ∃ n ∈ st.nodes, n.step.name ≠ r.stepName ∧ n.state.status = .waiting
  | .reject _ | .pushBack _ => True

instance (s : State) (r : Request) (socket : Bool) : Decidable (s.Approvable r socket) := by
  unfold Approvable
  split <;> infer_instance

/-- A step is rejected only while the run has no live agent. -/
def Restful (s : State) (r : Request) : Prop :=
  match r.decision with
  | .reject _ => s.agent = none
  | .approve _ | .pushBack _ => True

instance (s : State) (r : Request) : Decidable (s.Restful r) := by
  unfold Restful
  split <;> infer_instance

def Unrejected (s : State) : Label → Prop
  | .request r socket => s.Approvable r socket ∧ s.Restful r
  | _ => True

instance (s : State) (l : Label) : Decidable (s.Unrejected l) := by
  unfold Unrejected
  split <;> infer_instance

def Permitted (s : State) : Label → Prop
  | .request r socket => s.Approvable r socket
  | _ => True

instance (s : State) (l : Label) : Decidable (s.Permitted l) := by
  unfold Permitted
  split <;> infer_instance

def start (stored : RunStatus) (agent : Option RunStatus) : State := ⟨stored, agent, [], none⟩

end State

def Behind (p : Plan) : ℕ → ℕ → Prop := Relation.ReflTransGen fun a b => b ∈ p.dependents a

def Resumption.Executes (dag : List Step) (resumption : Resumption) (name : String) : Prop :=
  ∃ p data i j, setupRetryPlan dag resumption.status = .ok (p, data) ∧
    findStepByName resumption.status.nodes name = some i ∧ Behind p i j ∧ (data j).status = .notStarted

/-! ### The retry plan runs what was rejected -/

variable {st : RunStatus} {n : StepNode} {data : ℕ → Node}

lemma setupRetryPlan_rejected {dag p} (h : setupRetryPlan dag st = .ok (p, data)) {i : ℕ} (hget : st.nodes[i]? = some n)
    (hn : n.state.status = .rejected) : (data i).status = .notStarted := by
  have hne : st.nodes ≠ [] := by
    rintro hnil
    simp [hnil] at hget
  rw [setupRetryPlan, if_neg hne] at h
  obtain ⟨hsize, rfl⟩ := createRetryPlan_spec h
  have hlt := lt_of_getElem? hget
  have hstate : (recordedState (st.nodes.map StepNode.recorded) i).status = .rejected := by
    simp [recordedState, List.getD, hget, StepNode.recorded, hn]
  rcases p.setupRetry_status (recordedState (st.nodes.map StepNode.recorded)) (n := i) (by simpa [hsize] using hlt) with
    hclear | ⟨-, hkept⟩
  · exact hclear
  · simp [hstate, retriable] at hkept

variable {name : String}

lemma Resumption.executes_rejected {dag} {resumption : Resumption}
    (hnode : nodeOf resumption.status.nodes name = some n) (hn : n.state.status = .rejected) {p}
    (hplan : setupRetryPlan dag resumption.status = .ok (p, data)) : resumption.Executes dag name := by
  obtain ⟨i, hi, hget⟩ := bind_eq_some_iff.mp hnode
  exact ⟨p, data, i, i, hplan, hi, .refl, setupRetryPlan_rejected hplan hget hn⟩

/-! ### Rejections stand -/

structure Inv (s : State) : Prop where
  agent : s.agent ≠ none → s.rejected = []
  stored : ∀ name ∈ s.rejected, ∃ n, nodeOf s.stored.nodes name = some n ∧ n.state.status = .rejected
  resumption : ∀ resumption, s.resumption = some resumption → ∀ inputs, resumption.request.decision = .approve inputs →
    resumption.rejected = []

variable {r : Request} {edited : RunStatus}

lemma nodeOf_edit (h : edit r st = .ok edited) (hnode : nodeOf st.nodes name = some n) (hn : n.state.status = .rejected)
    (hkept : ∀ inputs, r.decision = .pushBack inputs → name ∉ dependentNames st.nodes r.stepName) :
    nodeOf edited.nodes name = some n := by
  obtain ⟨i, node, hfind, hget, -, hwaiting, hcases⟩ := edit_ok h
  have hne : name ≠ r.stepName := by
    rintro rfl
    rw [nodeOf, hfind, bind_some, hget] at hnode
    cases hnode
    rw [hn] at hwaiting
    cases hwaiting
  rcases hcases with ⟨inputs, -, rfl⟩ | ⟨reason, -, rfl⟩ | ⟨inputs, hdecision, rfl⟩
  · have hstep : ∀ n, (applyApproval r inputs n).step = n.step := fun _ => rfl
    rw [nodeOf_modify hfind hstep, if_neg hne, hnode]
  · have hstep : ∀ n, (applyRejection r reason n).step = n.step := fun _ => rfl
    rw [nodeOf_modify hfind hstep, if_neg hne, hnode]
  · rw [nodeOf_pushBackNodes hfind inputs (hkept inputs hdecision), hnode]

lemma nodeOf_edit_reject (h : edit r st = .ok edited) {reason}
    (hr : r.decision = .reject reason) : ∃ n, nodeOf edited.nodes r.stepName = some n ∧ n.state.status = .rejected := by
  obtain ⟨i, node, hfind, hget, -, -, hcases⟩ := edit_ok h
  rcases hcases with ⟨_, hdecision, -⟩ | ⟨reason, -, rfl⟩ | ⟨_, hdecision, -⟩
  · rw [hr] at hdecision
    cases hdecision
  · have hstep : ∀ n, (applyRejection r reason n).step = n.step := fun _ => rfl
    have hnode : nodeOf st.nodes r.stepName = some node := by rw [nodeOf, hfind]; exact hget
    exact ⟨applyRejection r reason node, by rw [nodeOf_modify hfind hstep, if_pos rfl, hnode]; rfl, rfl⟩
  · rw [hr] at hdecision
    cases hdecision

lemma mem_of_nodeOf {nodes} (h : nodeOf nodes name = some n) : n ∈ nodes := by
  obtain ⟨i, -, hget⟩ := bind_eq_some_iff.mp h
  exact mem_of_getElem? hget

lemma shouldResume_approve (h : edit r st = .ok edited)
    {inputs : Option (List (String × String))} (hr : r.decision = .approve inputs)
    (hother : ∃ n ∈ st.nodes, n.step.name ≠ r.stepName ∧ n.state.status = .waiting) :
    shouldResume r.decision edited = false := by
  obtain ⟨i, node, hfind, hget, hname, -, hcases⟩ := edit_ok h
  obtain ⟨n, hn, hne, hwaiting⟩ := hother
  rcases hcases with ⟨inputs', hdecision, rfl⟩ | ⟨_, hdecision, -⟩ | ⟨_, hdecision, -⟩
  · obtain ⟨j, hj⟩ := mem_iff_getElem?.mp hn
    have hij : i ≠ j := by
      rintro rfl
      rw [hget] at hj
      cases hj
      exact hne hname
    have hmem : n ∈ st.nodes.modify i (applyApproval r inputs') := by
      refine mem_iff_getElem?.mpr ⟨j, ?_⟩
      rw [getElem?_modify, hj]
      simp [hij]
    have hany : hasWaitingSteps (st.nodes.modify i (applyApproval r inputs')) = true :=
      any_eq_true.mpr ⟨n, hmem, by simp [hwaiting]⟩
    simp [shouldResume, hdecision, hany]
  · rw [hr] at hdecision
    cases hdecision
  · rw [hr] at hdecision
    cases hdecision

lemma Inv.read {s : State} {socket} (h : Inv s) (hread : s.read socket = some st) :
    ∀ name ∈ s.rejected, ∃ n, nodeOf st.nodes name = some n ∧ n.state.status = .rejected := by
  intro name hname
  unfold State.read at hread
  split_ifs at hread
  · simp [h.agent (by simp [hread])] at hname
  · cases hread
    exact h.stored name hname

/-- What counts as rejected after a request is rejected in the status it writes. -/
lemma rejected_edit {rejected : List String} (hedit : edit r st = .ok edited)
    (h : ∀ name ∈ rejected, ∃ n, nodeOf st.nodes name = some n ∧ n.state.status = .rejected) :
    ∀ name ∈ rejectedAfter rejected r st, ∃ n, nodeOf edited.nodes name = some n ∧ n.state.status = .rejected := by
  intro name hname
  unfold rejectedAfter at hname
  cases hdecision : r.decision with
  | approve inputs =>
    rw [hdecision] at hname
    obtain ⟨n, hnode, hn⟩ := h name hname
    exact ⟨n, nodeOf_edit hedit hnode hn (by simp [hdecision]), hn⟩
  | reject reason =>
    rw [hdecision] at hname
    rcases mem_cons.mp hname with rfl | hname
    · exact nodeOf_edit_reject hedit hdecision
    · obtain ⟨n, hnode, hn⟩ := h name hname
      exact ⟨n, nodeOf_edit hedit hnode hn (by simp [hdecision]), hn⟩
  | pushBack inputs =>
    rw [hdecision] at hname
    obtain ⟨hname, hkept⟩ := mem_filter.mp hname
    obtain ⟨n, hnode, hn⟩ := h name hname
    exact ⟨n, nodeOf_edit hedit hnode hn fun _ _ => by simpa using hkept, hn⟩

lemma Inv.handle {s : State} {socket} (h : Inv s) (hl : s.Unrejected (.request r socket)) (hread : s.read socket = some st) :
    Inv (s.handle r st) := by
  unfold State.handle
  cases hedit : edit r st with
  | error why => exact h
  | ok edited =>
    refine ⟨fun hagent => ?_, rejected_edit hedit (h.read hread), fun resumption hresumption inputs hdecision => ?_⟩
    · simp only [rejectedAfter, h.agent hagent]
      cases hdecision : r.decision with
      | approve inputs => rfl
      | reject reason =>
        have hrestful := hl.2
        simp only [State.Restful, hdecision] at hrestful
        exact absurd hrestful hagent
      | pushBack inputs => rfl
    · dsimp only at hresumption
      split_ifs at hresumption with hresume
      · cases hresumption
        change r.decision = _ at hdecision
        have happrovable := hl.1
        simp only [State.Approvable, hdecision] at happrovable
        rcases happrovable st hread with hnone | hother
        · simp only [rejectedAfter, hdecision]
          refine eq_nil_iff_forall_not_mem.mpr fun name hname => ?_
          obtain ⟨n, hnode, hn⟩ := h.read hread name hname
          exact hnone n (mem_of_nodeOf hnode) hn
        · rw [shouldResume_approve hedit hdecision hother] at hresume
          cases hresume
      · exact h.resumption resumption hresumption inputs hdecision

lemma Inv.step {dag} {s t : State} {l} (h : Inv s) (hl : s.Unrejected l) (hstep : s.step dag l = some t) : Inv t := by
  cases l with
  | request r socket =>
    obtain ⟨st, hread, rfl⟩ := map_eq_some_iff.mp hstep
    exact h.handle hl hread
  | repair now =>
    simp only [State.step] at hstep
    split_ifs at hstep with hrunning
    cases hstep
    refine {h with stored := fun name hname => ?_}
    obtain ⟨n, hnode, hn⟩ := h.stored name hname
    exact ⟨n, nodeOf_repaired hnode (by simp [isDone, hn]), hn⟩
  | attempt status =>
    simp only [State.step] at hstep
    split at hstep
    · cases hstep
    · cases hstep
      exact ⟨by simp, by simp, by simp⟩
  | progress memory =>
    obtain ⟨old, hagent, rfl⟩ := map_eq_some_iff.mp hstep
    exact {h with agent := fun _ => h.agent (by simp [hagent])}
  | save =>
    obtain ⟨memory, hagent, rfl⟩ := map_eq_some_iff.mp hstep
    -- A run with a live agent has no rejected step that the agent could put back.
    refine {h with stored := fun name hname => ?_}
    simp [h.agent (by simp [hagent])] at hname
  | exit =>
    cases hstep
    exact {h with agent := by simp}

/-- If an approval is given only while no step is rejected or another step waits as well, and a step is rejected only while the
run has no live agent, then no approval resumes the run after another step was rejected, and no attempt started by an approval
runs a step that was rejected, or one behind it. -/
theorem State.rejection_final {dag : List Step} {stored : RunStatus} {agent : Option RunStatus} {s : State}
    (h : Reach (State.step dag) State.Unrejected (State.start stored agent) s) {resumption : Resumption}
    (hresumption : s.resumption = some resumption) {inputs : Option (List (String × String))}
    (happrove : resumption.request.decision = .approve inputs) :
    (∀ name ∈ resumption.rejected, name = resumption.request.stepName) ∧
      ∀ name ∈ resumption.rejected, ¬ resumption.Executes dag name := by
  have hinv : Inv s := h.preserved (P := Inv) ⟨by simp [State.start], by simp [State.start], by simp [State.start]⟩ Inv.step
  rw [hinv.resumption resumption hresumption inputs happrove]
  exact ⟨by simp, by simp⟩

namespace Example

def dag : List Step := [{name := "deploy", approval := true}, {name := "notify", approval := true}]

def waiting : RunStatus where
  status := .waiting
  nodes := dag.map fun step => {step := step, state := {status := .waiting}}

def reject : Request := {stepName := "deploy", decision := .reject none}

def approve (stepName : String) : Request := {stepName := stepName, decision := .approve none}

def approved : State :=
  follow (State.step dag) (fun s l => decide (s.Unrejected l)) (State.start waiting none)
    [(.request (approve "deploy") false, 1), (.request (approve "notify") false, 1)]

def overruled : State :=
  play (State.step dag) (State.start waiting none) [(.request reject false, 1), (.request (approve "notify") false, 1)]

/-- The agent has the rejected step as waiting, and saves. -/
def restored : State :=
  follow (State.step dag) (fun s l => decide (s.Permitted l)) (State.start waiting (some waiting))
    [(.request reject false, 1), (.save, 1), (.exit, 1), (.request (approve "deploy") false, 1),
      (.request (approve "notify") false, 1)]

end Example

open Example in
theorem State.rejection_final_approved : ∃ resumption, approved.resumption = some resumption ∧
      (∀ name ∈ resumption.rejected, name = resumption.request.stepName) ∧
      ∀ name ∈ resumption.rejected, ¬ resumption.Executes dag name := by
  obtain ⟨resumption, hresumption, happrove⟩ :
      ∃ resumption, approved.resumption = some resumption ∧ resumption.request.decision = .approve none :=
    ⟨(approved.resumption).get (by decide +kernel), by simp, by decide +kernel⟩
  exact ⟨resumption, hresumption, State.rejection_final (reach_checked _ _) hresumption happrove⟩

open Example in
/-- The approval of the other step resumes the run, and the new attempt runs the step that was rejected; or an agent makes the
rejected step a waiting one again, and all approvals are given while no step is rejected. -/
theorem State.rejection_overruled :
    (¬ ∀ s resumption, Reach (State.step dag) always (State.start waiting none) s → s.resumption = some resumption →
      resumption.request.decision = .approve none → ∀ name ∈ resumption.rejected, name = resumption.request.stepName) ∧
    (¬ ∀ s resumption, Reach (State.step dag) always (State.start waiting none) s → s.resumption = some resumption →
      resumption.request.decision = .approve none → ∀ name ∈ resumption.rejected, ¬ resumption.Executes dag name) ∧
    ¬ ∀ s resumption, Reach (State.step dag) State.Permitted (State.start waiting (some waiting)) s →
      s.resumption = some resumption →
      resumption.request.decision = .approve none → ∀ name ∈ resumption.rejected, name = resumption.request.stepName := by
  have hreach : Reach (State.step dag) always (State.start waiting none) overruled := reach_play _ _
  obtain ⟨resumption, hresumption, happrove, hrejected, hstatus⟩ :
      ∃ resumption, overruled.resumption = some resumption ∧ resumption.request = approve "notify" ∧
        resumption.rejected = ["deploy"] ∧ resumption.status = overruled.stored :=
    ⟨(overruled.resumption).get (by decide +kernel), by simp, by decide +kernel, by decide +kernel, by decide +kernel⟩
  refine ⟨fun h => ?_, ?_, fun h => ?_⟩
  · have hname := h _ _ hreach hresumption (by rw [happrove]; rfl) "deploy" (by simp [hrejected])
    rw [happrove] at hname
    revert hname
    decide
  rotate_left
  · have hname := h restored (restored.resumption.get (by decide +kernel)) (reach_checked _ _)
      (by simp) (by decide +kernel) "deploy"
      (by decide +kernel)
    revert hname
    decide +kernel
  intro h
  refine h _ _ hreach hresumption (by rw [happrove]; rfl) "deploy" (by simp [hrejected]) ?_
  obtain ⟨n, hnode, hn⟩ :
      ∃ n, nodeOf overruled.stored.nodes "deploy" = some n ∧ n.state.status = .rejected :=
    ⟨(nodeOf overruled.stored.nodes "deploy").get (by decide +kernel), by simp, by decide +kernel⟩
  have hok : (setupRetryPlan dag overruled.stored).isOk := by decide +kernel
  obtain ⟨p, data, hplan⟩ : ∃ p data, setupRetryPlan dag overruled.stored = .ok (p, data) := by
    cases hplan : setupRetryPlan dag overruled.stored with
    | error e => simp [hplan, Except.isOk, Except.toBool] at hok
    | ok x => exact ⟨x.1, x.2, rfl⟩
  rw [← hstatus] at hnode hplan
  exact Resumption.executes_rejected hnode hn hplan

end Ayatsuri.ApprovalFinality
