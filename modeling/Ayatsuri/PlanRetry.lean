import Ayatsuri.PlanBuild

/-! Plans for retrying a recorded run (`internal/runtime/plan.go`): the full retry, which
clears what failed together with everything behind it, and the retry of one step. -/
namespace Ayatsuri
open List Function

class RecordedState (σ : Type) extends Inhabited σ where
  status : σ → NodeStatus
  clearState : σ → σ
  clearState_clearState : ∀ s, clearState (clearState s) = clearState s

instance : RecordedState Node := ⟨Node.status, Node.clearState, fun _ => rfl⟩

structure RecordedNode (σ : Type := Node) where
  name : String
  state : σ

section
variable {σ : Type} [RecordedState σ] (dag : List Step)

def stepsByName (name : String) : Option Step := (nodeByName dag name).map fun i => dag.getD i default

/-- `rebindRetryNodesToSteps`: the definition in the DAG replaces the recorded one. -/
def rebindRetryNodesToSteps (dag : List Step) : List (RecordedNode σ) → Except PlanError (List Step)
  | [] => .ok []
  | n::ns =>
    match stepsByName dag n.name with
    | none => .error (.missingNode n.name)
    | some st => (rebindRetryNodesToSteps dag ns).map (st :: ·)

def recordedState (nodes : List (RecordedNode σ)) (n : ℕ) : σ := (nodes.map RecordedNode.state).getD n default

def retriable (s : NodeStatus) : Bool := s = .failed || s = .retrying || s = .aborted || s = .rejected

structure RetryPass (σ : Type := Node) where
  toRetry : ℕ → Bool
  data : ℕ → σ

namespace Plan
variable (p : Plan)

def roots : List ℕ := p.nodes.filter fun n => (p.dependencies n).length = 0

def visit (nodeStatus : ℕ → NodeStatus) (w : RetryPass σ) (u : ℕ) : RetryPass σ :=
  if w.toRetry u || retriable (nodeStatus u) then
    { toRetry := fun v => v = u || v ∈ p.dependents u || w.toRetry v
      data := update w.data u (RecordedState.clearState (w.data u))}
  else w

def nextFrontier (frontier : List ℕ) : List ℕ := frontier.flatMap p.dependents

/-- Frontier after frontier, at most `fuel` of them. -/
def retryLevels (nodeStatus : ℕ → NodeStatus) : ℕ → List ℕ → RetryPass σ → RetryPass σ
  | 0, _, w => w
  | _+1, [], w => w
  | fuel+1, u::us, w => retryLevels nodeStatus fuel (p.nextFrontier (u::us)) ((u::us).foldl (p.visit nodeStatus) w)

def setupRetry (data : ℕ → σ) : ℕ → σ :=
  (p.retryLevels (fun n => RecordedState.status (data n)) p.size p.roots ⟨fun _ => false, data⟩).data

end Plan

/-- `CreateRetryPlan`. -/
def createRetryPlan (nodes : List (RecordedNode σ)) : Except PlanError (Plan × (ℕ → σ)) :=
  match rebindRetryNodesToSteps dag nodes with
  | .error e => .error e
  | .ok steps => (buildPlan steps).map fun p => (p, p.setupRetry (recordedState nodes))

end

/-- `CreateStepRetryPlan`: only the named node is cleared. Its retry count stays, its
evaluated retry policy only if the node was waiting for a retry. -/
def createStepRetryPlan (dag : List Step) (nodes : List RecordedNode) (stepName : String) :
    Except PlanError (Plan × (ℕ → Node)) :=
  match rebindRetryNodesToSteps dag nodes with
  | .error e => .error e
  | .ok steps =>
    match buildPlan steps with
    | .error e => .error e
    | .ok p =>
      match nodeByName steps stepName with
      | none => .error (.missingNode stepName)
      | some u =>
        let target := recordedState nodes u
        .ok (p, update (recordedState nodes) u
          {target.clearState with
            retryCount := target.retryCount
            retryPolicy := if target.status = .retrying then target.retryPolicy else {}})

namespace Plan
variable {σ : Type} [RecordedState σ] {p : Plan} {nodeStatus : ℕ → NodeStatus} {w : RetryPass σ} {data : ℕ → σ} {n : ℕ}

/-! ### The frontiers -/

lemma mem_nextFrontier {us c d} (hd : d ∈ us) (hc : d ∈ p.dependencies c) : c ∈ p.nextFrontier us :=
  mem_flatMap.mpr ⟨d, hd, mem_dependents.mpr hc⟩

variable {rank : ℕ → ℕ}

lemma exists_mem_frontier (hr : ∀ c d, d ∈ p.dependencies c → rank d < rank c) :
    ∀ n, n < p.size → ∃ k, k ≤ rank n ∧ n ∈ p.nextFrontier^[k] p.roots := by
  intro n
  induction hn : rank n using Nat.strong_induction_on generalizing n with
  | _ r ih =>
    intro hlt
    cases hd : p.dependencies n with
    | nil => exact ⟨0, Nat.zero_le _, by simp [roots, hd, hlt]⟩
    | cons d ds =>
      have hmem : d ∈ p.dependencies n := by simp [hd]
      have hlt' := hr n d hmem
      obtain ⟨k, hk, hm⟩ := ih (rank d) (by omega) d rfl (dependencies_lt hmem)
      refine ⟨k+1, by omega, ?_⟩
      rw [iterate_succ_apply']
      exact mem_nextFrontier hm hmem

lemma le_rank_of_mem_frontier (hr : ∀ c d, d ∈ p.dependencies c → rank d < rank c) {k : ℕ} :
    ∀ n ∈ p.nextFrontier^[k] p.roots, n < p.size ∧ k ≤ rank n := by
  induction k with
  | zero =>
    intro n hn
    exact ⟨mem_nodes.mp (mem_filter.mp hn).1, Nat.zero_le _⟩
  | succ k ih =>
    intro n hn
    rw [iterate_succ_apply'] at hn
    obtain ⟨d, hd, hdn⟩ := mem_flatMap.mp hn
    obtain ⟨-, hk⟩ := ih d hd
    have := hr n d (mem_dependents.mp hdn)
    exact ⟨dependents_lt hdn, by omega⟩

lemma frontier_exhausted (p : Plan) : p.nextFrontier^[p.size] p.roots = [] := by
  obtain ⟨rank, hr, hb⟩ := p.exists_rank
  apply eq_nil_iff_forall_not_mem.mpr
  intro n hn
  obtain ⟨hlt, hle⟩ := le_rank_of_mem_frontier hr n hn
  have := hb n hlt
  omega

lemma retryLevels_add (k fuel : ℕ) (us : List ℕ) (w : RetryPass σ) :
    p.retryLevels nodeStatus (k+fuel) us w = p.retryLevels nodeStatus fuel (p.nextFrontier^[k] us)
      (p.retryLevels nodeStatus k us w) := by
  induction k generalizing us w with
  | zero => simp [retryLevels]
  | succ k ih =>
    rw [Nat.add_right_comm, iterate_succ_apply]
    cases us with
    | nil =>
      rw [show p.nextFrontier [] = [] from rfl, iterate_fixed rfl k]
      cases fuel <;> rfl
    | cons u us => exact ih _ _

/-! ### What is cleared -/

def NeedsRetry (p : Plan) (nodeStatus : ℕ → NodeStatus) (n : ℕ) : Prop :=
  ∃ m, Relation.ReflTransGen (fun c d => d ∈ p.dependencies c) n m ∧ retriable (nodeStatus m)

lemma NeedsRetry.dependent {c d} (h : p.NeedsRetry nodeStatus d) (hd : d ∈ p.dependencies c) : p.NeedsRetry nodeStatus c :=
  h.imp fun _ hm => ⟨.head hd hm.1, hm.2⟩

structure Sound (p : Plan) (nodeStatus : ℕ → NodeStatus) (data : ℕ → σ) (w : RetryPass σ) : Prop where
  marked : ∀ n, w.toRetry n → p.NeedsRetry nodeStatus n
  states : ∀ n, w.data n = data n ∨ p.NeedsRetry nodeStatus n ∧ w.data n = RecordedState.clearState (data n)

structure Cleared (p : Plan) (data : ℕ → σ) (n : ℕ) (w : RetryPass σ) : Prop where
  state : w.data n = RecordedState.clearState (data n)
  dependents : ∀ c ∈ p.dependents n, w.toRetry c

lemma visit_toRetry (h : w.toRetry n) (u : ℕ) : (p.visit nodeStatus w u).toRetry n := by
  unfold visit
  split_ifs
  · simp [h]
  · exact h

lemma Sound.visit (h : Sound p nodeStatus data w) (u : ℕ) : Sound p nodeStatus data (p.visit nodeStatus w u) := by
  unfold Plan.visit
  split_ifs with hu
  · have hneeds : p.NeedsRetry nodeStatus u := by
      rcases Bool.or_eq_true_iff.mp hu with hmark | hstatus
      · exact h.marked u hmark
      · exact ⟨u, .refl, hstatus⟩
    refine ⟨fun v hv => ?_, fun v => ?_⟩
    · simp only [Bool.or_eq_true, decide_eq_true_eq] at hv
      rcases hv with (rfl | hv) | hv
      · exact hneeds
      · exact hneeds.dependent (mem_dependents.mp hv)
      · exact h.marked v hv
    by_cases hvu : v = u
    · subst hvu
      refine .inr ⟨hneeds, ?_⟩
      rcases h.states v with heq | ⟨-, heq⟩ <;> simp [heq, RecordedState.clearState_clearState]
    · simpa [update_of_ne hvu] using h.states v
  · exact h

lemma Cleared.visit (h : Cleared p data n w) (u : ℕ) : Cleared p data n (p.visit nodeStatus w u) := by
  refine ⟨?_, fun c hc => visit_toRetry (h.dependents c hc) u⟩
  unfold Plan.visit
  split_ifs
  · by_cases hnu : n = u
    · subst hnu
      simp [h.state, RecordedState.clearState_clearState]
    · simpa [update_of_ne hnu] using h.state
  · exact h.state

lemma Sound.clears (h : Sound p nodeStatus data w) (hdue : w.toRetry n ∨ retriable (nodeStatus n)) :
    Cleared p data n (p.visit nodeStatus w n) := by
  unfold Plan.visit
  rw [if_pos (by simpa using hdue)]
  refine ⟨?_, fun c hc => by simp [hc]⟩
  rcases h.states n with heq | ⟨-, heq⟩ <;> simp [heq, RecordedState.clearState_clearState]

lemma foldl_visit_clears {us : List ℕ} (h : Sound p nodeStatus data w) (hn : n ∈ us)
    (hdue : w.toRetry n ∨ retriable (nodeStatus n)) : Cleared p data n (us.foldl (p.visit nodeStatus) w) := by
  induction us generalizing w with
  | nil => simp at hn
  | cons u us ih =>
    by_cases hnu : n = u
    · subst hnu
      exact List.foldlRecOn us _ (h.clears hdue) fun _ hw v _ => hw.visit v
    · exact ih (h.visit u) (by simpa [hnu] using hn) (hdue.imp_left fun hmark => visit_toRetry hmark u)

lemma retryLevels_keeps {P : RetryPass σ → Prop} (hP : ∀ w u, P w → P (p.visit nodeStatus w u)) (fuel : ℕ)
    (us : List ℕ) (hw : P w) :
    P (p.retryLevels nodeStatus fuel us w) := by
  induction fuel generalizing us w with
  | zero => exact hw
  | succ fuel ih =>
    cases us with
    | nil => exact hw
    | cons u us => exact ih _ (List.foldlRecOn (u::us) _ hw fun w hw v _ => hP w v hw)

lemma retryLevels_one (us : List ℕ) (w : RetryPass σ) : p.retryLevels nodeStatus 1 us w = us.foldl (p.visit nodeStatus) w := by
  cases us <;> rfl

lemma exists_cleared (h : Sound p nodeStatus data w) (hn : n < p.size) (hneeds : p.NeedsRetry nodeStatus n) :
    ∃ k, n ∈ p.nextFrontier^[k] p.roots ∧ Cleared p data n (p.retryLevels nodeStatus (k+1) p.roots w) := by
  have hlevel : ∀ k v, v ∈ p.nextFrontier^[k] p.roots →
      (p.retryLevels nodeStatus k p.roots w).toRetry v ∨ retriable (nodeStatus v) →
      Cleared p data v (p.retryLevels nodeStatus (k+1) p.roots w) := fun k v hv hdue => by
    rw [retryLevels_add, retryLevels_one]
    exact foldl_visit_clears (retryLevels_keeps (fun _ u hw => hw.visit u) k p.roots h) hv hdue
  obtain ⟨m, hpath, hm⟩ := hneeds
  induction hpath using Relation.ReflTransGen.head_induction_on with
  | refl =>
    obtain ⟨rank, hr, -⟩ := p.exists_rank
    obtain ⟨k, -, hk⟩ := exists_mem_frontier hr m hn
    exact ⟨k, hk, hlevel k m hk (.inr hm)⟩
  | @head c d hd _ ih =>
    obtain ⟨k, hk, hcleared⟩ := ih (dependencies_lt hd)
    have hnext : c ∈ p.nextFrontier^[k+1] p.roots := by
      rw [iterate_succ_apply']
      exact mem_nextFrontier hk hd
    exact ⟨k+1, hnext, hlevel (k+1) c hnext (.inl (hcleared.dependents c (mem_dependents.mpr hd)))⟩

open Classical in
lemma setupRetry_eq (p : Plan) (data : ℕ → σ) (hn : n < p.size) : p.setupRetry data n =
      if p.NeedsRetry (fun n => RecordedState.status (data n)) n then RecordedState.clearState (data n) else data n := by
  have hstart : Sound p (fun n => RecordedState.status (data n)) data ⟨fun _ => false, data⟩ := ⟨by simp, fun _ => .inl rfl⟩
  split_ifs with hneeds
  · obtain ⟨rank, hr, hb⟩ := p.exists_rank
    obtain ⟨k, hk, hcleared⟩ := exists_cleared hstart hn hneeds
    have hlt : k+1 ≤ p.size := (le_rank_of_mem_frontier hr n hk).2.trans_lt (hb n hn)
    rw [setupRetry, ← Nat.add_sub_cancel' hlt, retryLevels_add]
    exact (retryLevels_keeps (fun _ u hw => hw.visit u) _ _ hcleared).state
  · have hsound := retryLevels_keeps (fun _ u hw => hw.visit u) p.size p.roots hstart
    exact (hsound.states n).resolve_right fun h => hneeds h.1

lemma setupRetry_status (p : Plan) (data : ℕ → Node) {n : ℕ} (hn : n < p.size) :
    (p.setupRetry data n).status = .notStarted ∨
      ((p.setupRetry data n).status = (data n).status ∧ retriable (data n).status = false) := by
  classical
  rw [setupRetry_eq p data hn]
  split_ifs with hneeds
  · exact .inl rfl
  refine .inr ⟨rfl, ?_⟩
  by_contra hstatus
  exact hneeds ⟨n, .refl, eq_true_of_ne_false hstatus⟩

end Plan

section
variable {σ : Type} [RecordedState σ]

omit [RecordedState σ] in
lemma rebindRetryNodesToSteps_length {dag} {nodes : List (RecordedNode σ)}
    {steps : List Step} (h : rebindRetryNodesToSteps dag nodes = .ok steps) : steps.length = nodes.length := by
  induction nodes generalizing steps with
  | nil => cases h; rfl
  | cons n ns ih =>
    simp only [rebindRetryNodesToSteps] at h
    cases hn : stepsByName dag n.name with
    | none => simp [hn] at h
    | some st =>
      simp only [hn] at h
      cases hr : rebindRetryNodesToSteps dag ns with
      | error e => simp [hr, Except.map] at h
      | ok rest =>
        simp only [hr, Except.map, Except.ok.injEq] at h
        subst h
        simp [ih hr]

lemma createRetryPlan_spec {dag} {nodes : List (RecordedNode σ)} {p : Plan}
    {data : ℕ → σ} (h : createRetryPlan dag nodes = .ok (p, data)) :
    p.size = nodes.length ∧ data = p.setupRetry (recordedState nodes) := by
  unfold createRetryPlan at h
  cases hr : rebindRetryNodesToSteps dag nodes with
  | error e => simp [hr] at h
  | ok steps =>
    simp only [hr] at h
    cases hb : buildPlan steps with
    | error e => simp [hb, Except.map] at h
    | ok q =>
      simp only [hb, Except.map, Except.ok.injEq, Prod.mk.injEq] at h
      obtain ⟨rfl, rfl⟩ := h
      refine ⟨?_, rfl⟩
      rw [← rebindRetryNodesToSteps_length hr, ← buildPlan_steps hb]
      rfl

open Classical in
/-- The levels run out, and a full retry clears the nodes that need it and leaves all others as they were recorded. -/
theorem createRetryPlan_clears {dag : List Step} {nodes : List (RecordedNode σ)} {p : Plan} {data : ℕ → σ}
    (h : createRetryPlan dag nodes = .ok (p, data)) :
    (∃ levels, p.nextFrontier^[levels] p.roots = []) ∧ ∀ n < nodes.length,
      data n = if p.NeedsRetry (fun n => RecordedState.status (recordedState nodes n)) n then
        RecordedState.clearState (recordedState nodes n) else recordedState nodes n := by
  obtain ⟨hsize, rfl⟩ := createRetryPlan_spec h
  exact ⟨⟨p.size, p.frontier_exhausted⟩, fun n hn => p.setupRetry_eq _ (hsize ▸ hn)⟩

end

def failedRecord : List RecordedNode :=
  [⟨"build", {status := .succeeded}⟩, ⟨"test", {status := .failed}⟩, ⟨"publish", {status := .succeeded}⟩]

def pipeline : List Step :=
  [{name := "build"}, {name := "test", depends := ["build"]}, {name := "publish", depends := ["test"]}]

theorem createRetryPlan_clears_pipeline :
    ∃ p data, createRetryPlan pipeline failedRecord = .ok (p, data) ∧ data 2 = {} ∧ data 0 = {status := .succeeded} := by
  classical
  obtain ⟨p, data, h⟩ : ∃ p data, createRetryPlan pipeline failedRecord = .ok (p, data) := ⟨_, _, rfl⟩
  obtain ⟨-, hall⟩ := createRetryPlan_clears h
  refine ⟨p, data, h, ?_, ?_⟩
  · rw [hall 2 (by decide), if_pos]
    · rfl
    refine ⟨1, .single ?_, by decide⟩
    cases h
    decide
  rw [hall 0 (by decide), if_neg]
  · rfl
  rintro ⟨m, hpath, hm⟩
  cases h
  rcases Relation.ReflTransGen.cases_head hpath with rfl | ⟨d, hd, -⟩
  · exact absurd hm (by decide)
  · exact absurd hd (by simp [Plan.dependencies, GraphKahn.preds])

end Ayatsuri
