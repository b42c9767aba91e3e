import Ayatsuri.PlanRetry
import Ayatsuri.RunnerInvariants

/-! What `Run` leaves behind when it returns: whether a node can still be marked as
running although nothing runs any more. -/
namespace Ayatsuri.Runner
open TransitionSystem State

/-- At these points a goroutine whose node is marked as running still writes another status
before it leaves. -/
def GPc.mayRun : GPc → Bool
  | .prepareNode | .prepareSetLastError _ | .prepareMarkError _ | .meetsPreconditions
  | .setSkipped _ | .loopHead | .setupExecutor | .runCommand | .handleTimeout _ | .setExitCode ..
  | .captureOutput | .determineNodeStatus | .handleError _ | .setTimedOut _ | .setTimeoutAborted _
  | .checkCanceled _ | .setNotRetried _ | .setRetrying _ | .setRetryRunning | .setFailed _
  | .afterError none | .checkRepeat _ none | .setRepeatRunning | .compareLastError
  | .clearLastError | .finalStatus | .chooseFinal | .setAborted | .setForReview | .setSucceeded
  | .sendDone (some _) | .recoverNodePanic (some _) => true
  | _ => false

/-- An execution error is handled in a canceled run only if the node has left `running`. -/
def handlesSettled (s : State) : Label → Bool
  | .node n (.exitStatus _) => !(s.canceled && s.statusOf n = .running)
  | _ => true

lemma Move.mayRun {cfg st canceled} {v w : View} {ev} (h : Move cfg st canceled v ev w)
    (hc : ∀ code, ev = .exitStatus code → canceled → v.node.status ≠ .running)
    (hv : v.node.status = .running → v.pc.mayRun) : w.node.status = .running → w.pc.mayRun := by
  cases h
  case determined hs => intro hr; simp_all [reportable]
  case errorLeft hs => intro hr; simp_all [leftAlone]
  case attempted execErr _ _ _ _ => cases execErr <;> simp_all [GPc.mayRun]
  case breakLoop => simp [GPc.mayRun]
  case sendDone panicked => cases panicked <;> simp_all [GPc.mayRun]
  all_goals simp_all [GPc.mayRun, resetForExecution]

def Owing (s : State) : Prop := ∀ n pc, s.gor n = some pc → s.statusOf n = .running → pc.mayRun

def Attended (p : Plan) (s : State) : Prop := ∀ n, n < p.size → s.statusOf n = .running → s.gor n ≠ none

def LoopPc.waited : LoopPc → Bool
  | .drained | .handlers _ | .waitHandler | .returned => true
  | _ => false

/-- After the wait nothing runs, and `Run` returns with the plan marked as finished. -/
structure Quiet (p : Plan) (s : State) : Prop where
  left : s.loop.waited → goroutinesDone p s
  finished : s.loop = .returned → s.finished

section
variable {cfg : Config} {p : Plan} {s t : State}

lemma LoopMove.owing {ev} (h : LoopMove cfg p s ev t) (hs : Sound p s) (ho : Owing s) : Owing t := by
  intro n pc hg hr
  rcases h.gor_cases n with hg' | ⟨-, -, hg'⟩
  · rcases h.statusOf_cases n with hst | ⟨-, -, hst⟩ | ⟨st, e, k, hl, hst⟩ | ⟨-, hst, -, -⟩
    · exact ho n pc (hg'.symm.trans hg) (hst.symm.trans hr)
    · simp [hst] at hr
    · rcases hs.blocked n st e k hl with rfl | rfl <;> simp [hst] at hr
    · exact absurd hst (hs.started n pc (hg'.symm.trans hg))
  · obtain rfl : GPc.prepareNode = pc := by simpa [hg'] using hg
    rfl

variable {n : ℕ}

lemma owing_afterNode {ev pc v} (hg : s.gor n = some pc)
    (h : Move cfg (p.step n) s.canceled ⟨pc, s.data n, s.lastError⟩ ev v)
    (hc : handlesSettled s (.node n ev)) (ho : Owing s) : Owing (s.afterNode n pc v) := by
  intro m pc' hm hr
  rw [statusOf_afterNode] at hr
  rw [gor_afterNode] at hm
  split_ifs at hr hm with hmn
  · subst hmn
    cases hm
    refine h.mayRun ?_ (ho m pc hg) hr
    rintro code rfl hcan hrun
    have hrun : s.statusOf m = .running := hrun
    simp [handlesSettled, hcan, hrun] at hc
  · exact ho m pc' hm hr

variable {l : Label}

lemma SysMove.owing (h : SysMove cfg p s l t) (hs : Sound p s) (hc : handlesSettled s l) (ho : Owing s) : Owing t := by
  cases h with
  | loop move => exact move.owing hs ho
  | node gor room move => exact owing_afterNode gor move hc ho
  | overwrites at_i held =>
    intro n pc hg hr
    change (s.setNode _ _).statusOf n = _ at hr
    rw [statusOf_setNode] at hr
    split_ifs at hr
    · cases hr
    · exact ho n pc hg hr
  | _ => exact ho

lemma SysMove.attended (h : SysMove cfg p s l t) (hs : Sound p s) (ha : Attended p s) : Attended p t := by
  intro n hn hr
  cases h with
  | loop move =>
    rcases move.gor_cases n with hg | ⟨-, -, hg⟩
    · rw [hg]
      rcases move.statusOf_cases n with hst | ⟨-, -, hst⟩ | ⟨st, e, k, hl, hst⟩ | ⟨-, -, -, hg'⟩
      · exact ha n hn (hst.symm.trans hr)
      · simp [hst] at hr
      · rcases hs.blocked n st e k hl with rfl | rfl <;> simp [hst] at hr
      · simp [← hg, hg']
    · simp [hg]
  | node gor room move =>
    rw [gor_afterNode]
    rw [statusOf_afterNode] at hr
    split_ifs at hr ⊢ with hmn
    · simp
    · exact ha n hn hr
  | overwrites at_i held =>
    change (s.setNode _ _).statusOf n = _ at hr
    rw [statusOf_setNode] at hr
    split_ifs at hr
    · cases hr
    · exact ha n hn hr
  | _ => exact ha n hn hr

lemma no_move_of_goroutinesDone {ev pc v} (hs : Sound p s) (hd : goroutinesDone p s) (hg : s.gor n = some pc)
    (h : Move cfg (p.step n) s.canceled ⟨pc, s.data n, s.lastError⟩ ev v) : False := by
  have left : ∀ n, n < p.size → s.gor n = none ∨ s.gor n = some .exited := by simpa [goroutinesDone] using hd
  rcases left n (hs.gor_lt n pc hg) with hn | hn
  · simp [hg] at hn
  obtain rfl : pc = .exited := by simpa [hg] using hn
  cases h with
  | panic body => cases body

lemma SysMove.quiet (h : SysMove cfg p s l t) (hs : Sound p s) (hq : Quiet p s) : Quiet p t := by
  obtain ⟨hl, hf⟩ := hq
  cases h with
  | loop move =>
    refine ⟨fun hw => ?_, fun hr => ?_⟩
    · cases move
      case allLeft pc left => exact left
      all_goals first | exact hl (by simp_all [LoopPc.waited]) | simp_all [LoopPc.waited]
    · cases move <;> simp_all
  | node gor room move =>
    refine ⟨fun hw => ?_, hf⟩
    exact (no_move_of_goroutinesDone hs (hl hw) gor move).elim
  | _ => exact ⟨hl, hf⟩

variable {C : State → Label → Prop} {data : ℕ → Node}

lemma reach_quiet (h : Reach (step cfg p) C (start data) s) : Quiet p s :=
  h.invariant ⟨nofun, nofun⟩ fun _ _ _ hr hq _ hm => (sysMove_of_step hm).quiet (reach_sound hr) hq

lemma reach_owing (hC : ∀ s l, C s l → handlesSettled s l) (h : Reach (step cfg p) C (start data) s) : Owing s :=
  h.invariant (fun _ _ hg => by cases hg)
    fun _ _ _ hr ho hc hm => (sysMove_of_step hm).owing (reach_sound hr) (hC _ _ hc) ho

lemma reach_attended (hd : ∀ n, n < p.size → (data n).status ≠ .running)
    (h : Reach (step cfg p) C (start data) s) : Attended p s :=
  h.invariant (fun n hn hr => absurd hr (hd n hn))
    fun _ _ _ hr ha _ hm => (sysMove_of_step hm).attended (reach_sound hr) ha

/-- The nodes as they are recorded when `Run` returns. -/
def record (p : Plan) (s : State) : List RecordedNode := p.nodes.map fun n => ⟨(p.step n).name, s.data n⟩

lemma recordedState_record (hn : n < p.size) : recordedState (record p s) n = s.data n := by
  simp [recordedState, record, Plan.nodes, hn]

/-- When `Run` returns, no node is marked as running, so `IsRunning` can only be held up by
nodes that wait for a retry, and a full retry leaves every node ready to run or finished. -/
theorem returned_without_running {data : ℕ → Node} (hd : ∀ n, n < p.size → (data n).status ≠ .running)
    (h : Reach (step cfg p) (fun s l => handlesSettled s l) (start data) s) (hr : s.loop = .returned) :
    (∀ n, n < p.size → s.statusOf n ≠ .running) ∧
    ((∀ n, n < p.size → s.statusOf n ≠ .retrying) → isRunning p s.data s.finished = false) ∧
    (∀ dag p' data', createRetryPlan dag (record p s) = .ok (p', data') → ∀ n, n < p'.size →
      (data' n).status = .notStarted ∨ unfinished (data' n).status = false) := by
  have hq := reach_quiet h
  have left : ∀ n, n < p.size → s.gor n = none ∨ s.gor n = some .exited := by
    simpa [goroutinesDone] using hq.left (by rw [hr]; rfl)
  have idle : ∀ n, n < p.size → s.statusOf n ≠ .running := by
    intro n hn hrun
    rcases left n hn with hx | hx
    · exact reach_attended hd h n hn hrun hx
    · cases reach_owing (fun _ _ hc => hc) h n .exited hx hrun
  refine ⟨idle, ?_, ?_⟩
  · intro hret
    simp only [isRunning, hq.finished hr, Bool.not_true, Bool.and_false, Bool.or_false, List.any_eq_false, Plan.mem_nodes]
    intro n hn
    simpa using ⟨idle n hn, hret n hn⟩
  intro dag p' data' hp n hn
  obtain ⟨hsize, rfl⟩ := createRetryPlan_spec hp
  have hn' : n < p.size := by simpa [hsize, record, Plan.nodes] using hn
  rcases p'.setupRetry_status (recordedState (record p s)) hn with hc | ⟨hc, ht⟩
  · exact .inl hc
  rw [recordedState_record hn'] at hc ht
  have hne := idle n hn'
  rw [hc]
  cases hst : (s.data n).status <;> simp_all [unfinished, retriable, statusOf]

/-- The handlers run alone: once `Run` has waited, no goroutine of a node takes a step any more. -/
theorem waited_alone (h : Reach (step cfg p) always (start data) s) (hw : s.loop.waited)
    (ht : Reach (step cfg p) always s t) : t.loop.waited ∧ ∀ n ev, step cfg p t (.node n ev) = none := by
  have hwaited : t.loop.waited := ht.preserved (P := fun u => u.loop.waited) hw fun hu _ hm => by
    cases sysMove_of_step hm with
    | loop move => cases move <;> simp_all [LoopPc.waited]
    | _ => exact hu
  refine ⟨hwaited, fun n ev => Option.eq_none_iff_forall_ne_some.mpr fun u hu => ?_⟩
  have hreach := h.trans ht
  cases sysMove_of_step hu with
  | node gor room move => exact no_move_of_goroutinesDone (reach_sound hreach) ((reach_quiet hreach).left hwaited) gor move

end

def repeatingPlan : Plan where
  steps := [{ name := "poll", repeatPolicy := {repeatMode := .whileMode, condition := true} }]
  edges := []
  edges_lt := by decide
  acyclic := by decide

/-- A termination signal during the last execution, which then fails: `Signal` skips the
node because it repeats, and the error handler leaves its status alone. -/
def signalDuringRepeat : List (Label × ℕ) :=
  toSelect++launch++toCommand 0++[(.signal true, 1), (.deliver 0, 1)] ++ commandFails 0 {text := "exit status 1"} ++
    [(.node 0 .next, 1), (.node 0 (.conditionEvaluated true), 1), (.node 0 .next, 4)] ++
    collect++toReturn

theorem returned_with_running : ∃ s, Reach (step {} repeatingPlan) always (start fun _ => {}) s ∧ s.loop = .returned ∧
      s.statusOf 0 = .running ∧ isRunning repeatingPlan s.data s.finished ∧
      ∃ p' data', createRetryPlan repeatingPlan.steps (record repeatingPlan s) = .ok (p', data') ∧
        (data' 0).status = .running := by
  refine ⟨play (step {} repeatingPlan) (start fun _ => {}) signalDuringRepeat, reach_play _ _,
    ?_, ?_, ?_, repeatingPlan, _, rfl, ?_⟩ <;> decide +kernel

def toDrained : List (Label × ℕ) :=
  toSelect++launch++toCommand 0++[(.signal true, 1), (.deliver 0, 1)] ++ commandSucceeds 0++leaves 0++collect

def signalledSuccess : State := follow (step {} repeatingPlan) handlesSettled (start fun _ => {}) (toDrained++toReturn)

theorem returned_without_running_poll : signalledSuccess.loop = .returned ∧ signalledSuccess.canceled ∧
      signalledSuccess.statusOf 0 ≠ .running :=
  have hr : signalledSuccess.loop = .returned := by decide +kernel
  ⟨hr, by decide +kernel,
    (returned_without_running (fun _ _ => by simp) (reach_follow (fun _ _ h => h) _ _) hr).1 0 (by decide)⟩

/-- `Run` has waited, and the handlers are still to run. -/
def handling : State :=
  play (step {} repeatingPlan) (start fun _ => {}) (toDrained++[(.loop .next, 1), (.loop (.status {}), 1)])

theorem waited_alone_poll : handling.loop ≠ .returned ∧ handling.loop.waited ∧
    ∀ n ev, step {} repeatingPlan handling (.node n ev) = none :=
  ⟨by decide +kernel, waited_alone (reach_play _ _) (by decide +kernel) .refl⟩

end Ayatsuri.Runner
