import Ayatsuri.PlanRetry

/-! Decisions on steps that wait for approval (`internal/service/frontend/api/v1/dagruns.go`): what the handlers of
approve, reject and push-back check, how they edit the status of the run, and the plan of the attempt that they
start. -/
namespace Ayatsuri
open List

namespace Approvals

/-- `exec.Node`, without the fields that no decision reads or writes. -/
structure StepNode where
  step : Step
  /-- `Approval.Required`. -/
  required : List String := []
  state : Node := {}
  (startedAt finishedAt : String := "")
  outputVariables : List (String × String) := []
  (approvedAt approvedBy rejectedAt rejectedBy rejectionReason : String := "")
  approvalIteration : ℕ := 0
  pushBackInputs : List (String × String) := []
  deriving DecidableEq

/-- `DAGRunStatus`, as far as a decision touches it. -/
structure RunStatus where
  status : Status
  finishedAt : String := ""
  nodes : List StepNode
  deriving DecidableEq

inductive Decision
  | approve (inputs : Option (List (String × String)))
  | reject (reason : Option String)
  | pushBack (inputs : Option (List (String × String)))
  deriving DecidableEq

structure Request where
  stepName : String
  decision : Decision
  user : Option String := none
  now : String := ""
  deriving DecidableEq

inductive Refusal
  | stepNotFound
  | notWaiting (status : NodeStatus)
  | noApproval
  | missingInputs (fields : List String)
  deriving DecidableEq

def nodeStatusText : NodeStatus → String
  | .notStarted => "not_started"
  | .running => "running"
  | .retrying => "retrying"
  | .failed => "failed"
  | .aborted => "aborted"
  | .succeeded => "succeeded"
  | .skipped => "skipped"
  | .partiallySucceeded => "partially_succeeded"
  | .waiting => "waiting"
  | .rejected => "rejected"

def Refusal.message (dagName stepName : String) : Refusal → String
  | .stepNotFound => "step " ++ stepName ++ " not found in DAG " ++ dagName
  | .notWaiting status =>
    "step " ++ stepName ++ " is not waiting for approval (status: " ++ nodeStatusText status ++ ")"
  | .noApproval => "step " ++ stepName ++ " does not have approval configuration; push-back requires the approval field"
  | .missingInputs fields => "missing required inputs: [" ++ " ".intercalate fields ++ "]"

variable (nodes : List StepNode) (name : String)

def findStepByName : Option ℕ := nodes.findIdx? fun n => n.step.name = name

def hasWaitingSteps : Bool := nodes.any fun n => n.state.status = .waiting

/-- `unicode.IsSpace`. -/
def isSpace (c : Char) : Bool :=
  c.toNat ∈ [0x09, 0x0a, 0x0b, 0x0c, 0x0d, 0x20, 0x85, 0xa0, 0x1680, 0x2028, 0x2029, 0x202f, 0x205f, 0x3000] ||
    (0x2000 ≤ c.toNat && c.toNat ≤ 0x200a)

/-- `checkMissingInputs`: the fields without a value that is more than blanks. -/
def checkMissingInputs (required : List String) (provided : List (String × String)) : List String :=
  required.filter fun field => ((provided.lookup field).getD "").toList.all isSpace

/-- `SyncMap.Store`. -/
def storeVariable (vars : List (String × String)) (key value : String) : List (String × String) :=
  (key, value)::vars.filter fun x => x.1 ≠ key

variable (r : Request)

def applyApproval (inputs : Option (List (String × String))) (n : StepNode) : StepNode :=
  {n with
    state := {n.state with status := .succeeded}
    approvedAt := r.now
    approvedBy := r.user.getD n.approvedBy
    outputVariables := (inputs.getD []).foldl (fun vars kv => storeVariable vars kv.1 (kv.1 ++ "=" ++ kv.2))
      n.outputVariables}

def applyRejection (reason : Option String) (n : StepNode) : StepNode :=
  {n with
    state := {n.state with status := .rejected}
    rejectedAt := r.now
    rejectedBy := r.user.getD n.rejectedBy
    rejectionReason := reason.getD n.rejectionReason}

/-- One round of `findDependentNodes`. -/
def dependentPass (names : List String) : List String :=
  nodes.foldl (fun names n =>
    if n.step.name ∈ names then names
    else if n.step.depends.any fun d => d ∈ names then n.step.name::names
    else names) names

/-- The names `findDependentNodes` ends with. Every round but the last adds the name of a node, so there are no more
of them than nodes. -/
def dependentNames : List String := (dependentPass nodes)^[nodes.length] [name]

def applyPushBack (inputs : Option (List (String × String))) (n : StepNode) : StepNode :=
  {n with
    approvalIteration := n.approvalIteration+1
    state := {n.state with status := .notStarted, err := none}
    startedAt := "-"
    finishedAt := "-"
    pushBackInputs := inputs.getD []}

def clearDependent (n : StepNode) : StepNode :=
  {n with state := {n.state with status := .notStarted, err := none}, startedAt := "-", finishedAt := "-"}

def pushBackNodes (i : ℕ) (name : String) (inputs : Option (List (String × String))) : List StepNode :=
  let dependents := dependentNames nodes name
  (nodes.map fun n =>
    if n.step.name ∈ dependents ∧ n.step.name ≠ name then clearDependent n else n).modify i (applyPushBack inputs)

/-- `ApproveDAGRunStep`, `RejectDAGRunStep` and `PushBackDAGRunStep` up to the write: the checks and the edited
status. -/
def edit (st : RunStatus) : Except Refusal RunStatus :=
  match findStepByName st.nodes r.stepName with
  | none => .error .stepNotFound
  | some i =>
    match st.nodes[i]? with
    | none => .error .stepNotFound
    | some node =>
      if node.state.status ≠ .waiting then .error (.notWaiting node.state.status)
      else
        match r.decision with
        | .approve inputs =>
          match checkMissingInputs node.required (inputs.getD []) with
          | [] => .ok {st with nodes := st.nodes.modify i (applyApproval r inputs)}
          | fields => .error (.missingInputs fields)
        | .reject reason =>
          .ok {st with
            nodes := st.nodes.modify i (applyRejection r reason)
            status := .rejected
            finishedAt := r.now}
        | .pushBack inputs =>
          if node.step.approval = false then .error .noApproval
          else
            match checkMissingInputs node.required (inputs.getD []) with
            | [] => .ok {st with nodes := pushBackNodes st.nodes i r.stepName inputs}
            | fields => .error (.missingInputs fields)

def shouldResume (d : Decision) (edited : RunStatus) : Bool :=
  match d with
  | .approve _ => !hasWaitingSteps edited.nodes
  | .reject _ => false
  | .pushBack _ => true

def StepNode.recorded (n : StepNode) : RecordedNode := ⟨n.step.name, n.state⟩

variable (dag : List Step) (st : RunStatus)

/-- `setupRetryPlan` of the agent that `resumeDAGRun` starts. -/
def setupRetryPlan : Except PlanError (Plan × (ℕ → Node)) :=
  if st.nodes = [] then newPlan dag else createRetryPlan dag (st.nodes.map StepNode.recorded)

/-- Whether `setupRetry` clears the node. -/
def clears (p : Plan) (data : ℕ → Node) (n : ℕ) : Bool :=
  (p.retryLevels (fun n => (data n).status) p.size p.roots ⟨fun _ => false, data⟩).toRetry n

/-- The status with which the agent of a resumed run begins. A node that is cleared loses all that was recorded for
it; the definitions of the steps, which are taken from the DAG again, are those that were recorded. -/
def restart : Except PlanError RunStatus :=
  (setupRetryPlan dag st).map fun x =>
    { status := .running
      nodes :=
        if st.nodes = [] then dag.map fun step => {step := step}
        else st.nodes.mapIdx fun i n =>
          if clears x.1 (recordedState (st.nodes.map StepNode.recorded)) i then
            {step := n.step, required := n.required, state := x.2 i}
          else n}

def staleLocalRunError : Err := {text := "process terminated unexpectedly - stale local process detected"}

variable (finishedAt : String)

/-- `markActiveStatusFailed` for one node. -/
def failActive (n : StepNode) : StepNode :=
  match n.state.status with
  | .running | .notStarted | .retrying | .waiting =>
    {n with state := n.state.markError staleLocalRunError, finishedAt := finishedAt}
  | .failed | .aborted | .succeeded | .skipped | .partiallySucceeded | .rejected => n

/-- What `RepairStaleLocalRun` writes for a run that is still active. -/
def repaired (st : RunStatus) : RunStatus :=
  let nodes := if st.nodes = [] then dag.map fun step => {step := step} else st.nodes
  {status := .failed, finishedAt := finishedAt, nodes := nodes.map (failActive finishedAt)}

def nodeOf : Option StepNode := (findStepByName nodes name).bind fun i => nodes[i]?

/-! ### What an edit does -/

variable {name : String} {i : ℕ} {nodes : List StepNode}

lemma findStepByName_some (h : findStepByName nodes name = some i) :
    ∃ node, nodes[i]? = some node ∧ node.step.name = name := by
  obtain ⟨hlt, hname, -⟩ := findIdx?_eq_some_iff_getElem.mp h
  exact ⟨nodes[i], getElem?_eq_getElem hlt, by simpa using hname⟩

variable {nodes' : List StepNode}

lemma findStepByName_congr
    (h : nodes'.map (·.step.name) = nodes.map fun n => n.step.name) (name : String) :
    findStepByName nodes' name = findStepByName nodes name := by
  have hmap (l : List StepNode) : findStepByName l name = (l.map fun n => n.step.name).findIdx? fun x => x = name := by
    rw [findIdx?_map]
    rfl
  rw [hmap, hmap, h]

lemma nodeOf_congr
    (hnames : nodes'.map (·.step.name) = nodes.map fun n => n.step.name) {n n' : StepNode}
    (h : nodeOf nodes name = some n) (hat : ∀ i : ℕ, findStepByName nodes name = some i → nodes[i]? = some n →
      nodes'[i]? = some n') : nodeOf nodes' name = some n' := by
  obtain ⟨i, hi, hget⟩ := Option.bind_eq_some_iff.mp h
  rw [nodeOf, findStepByName_congr hnames, hi]
  exact hat i hi hget

lemma map_modify_of_eq {α β : Type*} {l : List α} {f : α → α} (g : α → β) (hg : ∀ a, g (f a) = g a) :
    (l.modify i f).map g = l.map g := by
  apply ext_getElem?
  intro j
  rw [getElem?_map, getElem?_map, getElem?_modify]
  cases l[j]? with
  | none => rfl
  | some a =>
    by_cases hij : i = j
    · simp [hij, hg]
    · simp [hij]

variable {f : StepNode → StepNode}

lemma nodeOf_modify (hfind : findStepByName nodes name = some i) (hf : ∀ n, (f n).step = n.step) (other : String) :
    nodeOf (nodes.modify i f) other = if other = name then (nodeOf nodes name).map f else nodeOf nodes other := by
  have hnames : (nodes.modify i f).map (·.step.name) = nodes.map fun n => n.step.name :=
    map_modify_of_eq _ fun n => by rw [hf]
  rw [nodeOf, findStepByName_congr hnames]
  split_ifs with heq
  · subst heq
    simp [nodeOf, hfind]
  rw [nodeOf]
  cases hother : findStepByName nodes other with
  | none => rfl
  | some j =>
    have hij : i ≠ j := by
      rintro rfl
      obtain ⟨n, hget, hname⟩ := findStepByName_some hfind
      obtain ⟨n', hget', hname'⟩ := findStepByName_some hother
      rw [hget] at hget'
      cases hget'
      exact heq (hname'.symm.trans hname)
    simp [getElem?_modify, hij]

lemma nodeOf_map (hf : ∀ n, (f n).step = n.step) (name : String) :
    nodeOf (nodes.map f) name = (nodeOf nodes name).map f := by
  have hnames : (nodes.map f).map (·.step.name) = nodes.map fun n => n.step.name := by
    rw [map_map]
    exact map_congr_left fun n _ => by simp [hf]
  rw [nodeOf, nodeOf, findStepByName_congr hnames]
  cases findStepByName nodes name with
  | none => rfl
  | some i => simp

lemma nodeOf_name {n : StepNode} (h : nodeOf nodes name = some n) : n.step.name = name := by
  obtain ⟨i, hi, hget⟩ := Option.bind_eq_some_iff.mp h
  obtain ⟨n', hget', hname⟩ := findStepByName_some hi
  rw [hget] at hget'
  cases hget'
  exact hname

lemma subset_dependentPass (nodes : List StepNode) (names : List String) : names ⊆ dependentPass nodes names := by
  unfold dependentPass
  refine foldlRecOn (motive := fun acc => names ⊆ acc) nodes _ (fun _ h => h) fun acc hacc n _ => ?_
  split_ifs
  · exact hacc
  · exact fun x hx => mem_cons_of_mem _ (hacc hx)
  · exact hacc

lemma mem_dependentNames (nodes : List StepNode) (name : String) : name ∈ dependentNames nodes name := by
  unfold dependentNames
  generalize nodes.length = k
  induction k with
  | zero => exact mem_singleton.mpr rfl
  | succ k ih =>
    rw [Function.iterate_succ_apply']
    exact subset_dependentPass _ _ ih

lemma nodeOf_pushBackNodes (hfind : findStepByName nodes name = some i)
    (inputs : Option (List (String × String))) {other : String} (hother : other ∉ dependentNames nodes name) :
    nodeOf (pushBackNodes nodes i name inputs) other = nodeOf nodes other := by
  set clear : StepNode → StepNode := fun n =>
    if n.step.name ∈ dependentNames nodes name ∧ n.step.name ≠ name then clearDependent n else n
  have hclear : ∀ n, (clear n).step = n.step := by
    intro n
    simp only [clear]
    split_ifs <;> rfl
  have hfind' : findStepByName (nodes.map clear) name = some i := by
    rw [findStepByName_congr, hfind]
    rw [map_map]
    exact map_congr_left fun n _ => by simp [hclear]
  have hne : other ≠ name := by
    rintro rfl
    exact hother (mem_dependentNames nodes other)
  have hpush : ∀ n, (applyPushBack inputs n).step = n.step := fun _ => rfl
  change nodeOf ((nodes.map clear).modify i (applyPushBack inputs)) other = _
  rw [nodeOf_modify hfind' hpush, if_neg hne, nodeOf_map hclear]
  cases hnode : nodeOf nodes other with
  | none => rfl
  | some n =>
    have hname := nodeOf_name hnode
    simp [clear, hname, hother]

lemma edit_ok {r : Request} {st edited : RunStatus} (h : edit r st = .ok edited) :
    ∃ i node, findStepByName st.nodes r.stepName = some i ∧ st.nodes[i]? = some node ∧ node.step.name = r.stepName ∧
      node.state.status = .waiting ∧ ((∃ inputs, r.decision = .approve inputs ∧
          edited = {st with nodes := st.nodes.modify i (applyApproval r inputs)}) ∨
        (∃ reason, r.decision = .reject reason ∧ edited = {st with
            nodes := st.nodes.modify i (applyRejection r reason), status := .rejected, finishedAt := r.now}) ∨
        ∃ inputs, r.decision = .pushBack inputs ∧
          edited = {st with nodes := pushBackNodes st.nodes i r.stepName inputs}) := by
  unfold edit at h
  split at h
  · cases h
  rename_i i hfind
  obtain ⟨node, hget, hname⟩ := findStepByName_some hfind
  simp only [hget] at h
  by_cases hwaiting : node.state.status = .waiting
  swap
  · rw [if_pos hwaiting] at h
    cases h
  rw [if_neg (not_not.mpr hwaiting)] at h
  refine ⟨i, node, hfind, hget, hname, hwaiting, ?_⟩
  split at h
  · rename_i inputs hdecision
    split at h
    · cases h
      exact .inl ⟨inputs, hdecision, rfl⟩
    · cases h
  · rename_i reason hdecision
    cases h
    exact .inr (.inl ⟨reason, hdecision, rfl⟩)
  · rename_i inputs hdecision
    split_ifs at h
    split at h
    · cases h
      exact .inr (.inr ⟨inputs, hdecision, rfl⟩)
    · cases h

end Approvals
end Ayatsuri
