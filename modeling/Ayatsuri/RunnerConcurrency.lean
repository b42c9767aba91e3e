import Ayatsuri.PlanRetry
import Ayatsuri.RunnerInvariants

/-! How many goroutines execute at a time. The counter `running` is incremented when a
goroutine starts and decremented when its done message is taken, so it counts the
executing goroutines together with the messages in `doneCh`. -/
namespace Ayatsuri.Runner
open TransitionSystem List Bool

lemma countP_pointwise {f g : ℕ → Bool} {n : ℕ} (hfg : ∀ m, m ≠ n → g m = f m) :
    ∀ {xs : List ℕ}, xs.Nodup → n ∈ xs → xs.countP g+(f n).toNat = xs.countP f+(g n).toNat
  | [], _, hn => by cases hn
  | x::xs, hd, hn => by
    obtain ⟨hx, hd⟩ := nodup_cons.mp hd
    rcases eq_or_ne x n with rfl | hxn
    · have hrest : xs.countP g = xs.countP f := by
        apply countP_congr
        intro m hm
        rw [hfg m (ne_of_mem_of_not_mem hm hx)]
      cases hf : f x <;> cases hg : g x <;> simp [hf, hg, hrest]
    · have ih := countP_pointwise hfg hd ((mem_cons.mp hn).resolve_left hxn.symm)
      have hx' : g x = f x := hfg x hxn
      simp only [countP_cons, hx']
      omega

variable (s : State)

/-- The goroutine of node `n` runs and has not sent its done message. -/
def State.isExecuting (n : ℕ) : Bool := (s.gor n).any GPc.executing

def executingCount (p : Plan) (s : State) : ℕ := p.nodes.countP s.isExecuting

def LoopPc.accepts : LoopPc → Bool
  | .nodeStates active _ _ | .checkStuck active _ | .select active => active
  | .startNode _ => true
  | _ => false

structure Accounted (cfg : Config) (p : Plan) (s : State) : Prop where
  running_eq : s.running = executingCount p s+s.doneCh.length
  limited : 0 < cfg.maxActiveRuns → s.running ≤ cfg.maxActiveRuns
  accepting : 0 < cfg.maxActiveRuns → s.loop.accepts → s.running < cfg.maxActiveRuns

open State

section
variable {cfg : Config} {p : Plan} {s t : State}

lemma accounted_start (data : ℕ → Node) : Accounted cfg p (start data) where
  running_eq := by
    have : (start data).isExecuting = fun _ => false := rfl
    rw [executingCount, this]
    simp [start]
  limited := fun h => h.le
  accepting := fun _ h => by cases h

variable {n : ℕ}

lemma executingCount_update (hn : n < p.size) (h : ∀ m, m ≠ n → t.gor m = s.gor m) :
    executingCount p t+(s.isExecuting n).toNat = executingCount p s+(t.isExecuting n).toNat :=
  countP_pointwise (fun m hm => by simp [isExecuting, h m hm]) nodup_range (Plan.mem_nodes.mpr hn)

lemma acceptsNodes_lt (hm : 0 < cfg.maxActiveRuns) (h : acceptsNodes cfg s) : s.running < cfg.maxActiveRuns := by
  simp only [acceptsNodes, and_eq_true, or_eq_true, decide_eq_true_eq] at h
  omega

lemma LoopMove.accounted {ev} (h : LoopMove cfg p s ev t) (hs : Sound p s)
    (ha : Accounted cfg p s) : Accounted cfg p t := by
  obtain ⟨hr, hl, hacc⟩ := ha
  cases h
  case choosesReady pc => exact ⟨hr, hl, acceptsNodes_lt⟩
  case takeReady n rest pc head => exact ⟨hr, hl, fun hm _ => hacc hm (by rw [pc]; rfl)⟩
  case takeDone active n rest pc head =>
    have hc : s.running - 1 = (executingCount p s : ℤ)+rest.length := by
      simp only [head, length_cons] at hr
      push_cast at hr
      omega
    refine ⟨hc, fun hm => ?_, fun _ h => by cases h⟩
    have := hl hm
    dsimp only
    omega
  case startNode n pc hn =>
    have hlt : n < p.size := hs.ids_lt n (by simp [pc, LoopPc.ids])
    have hnew : s.isExecuting n = false := by
      cases hg : s.gor n with
      | none => simp [isExecuting, hg]
      | some pc' => exact absurd hn (hs.started n pc' hg)
    have hrun : (s.spawn n).isExecuting n := by simp [isExecuting, GPc.executing]
    have hc := executingCount_update (s := s) (t := s.spawn n) hlt fun m hm => by simp [hm]
    refine ⟨?_, fun hm => hacc hm (by rw [pc]; rfl), fun _ h => by cases h⟩
    change s.running+1 = (executingCount p (s.spawn n) : ℤ)+s.doneCh.length
    simp only [hnew, hrun, toNat_true, toNat_false] at hc
    omega
  all_goals
    refine ⟨hr, hl, ?_⟩
    simp_all [LoopPc.accepts]

lemma isExecuting_eq {pc : GPc} (h : s.gor n = some pc) : s.isExecuting n = pc.executing := by simp [isExecuting, h]

lemma accounted_afterNode {ev pc v} (hg : s.gor n = some pc)
    (h : Move cfg (p.step n) s.canceled ⟨pc, s.data n, s.lastError⟩ ev v) (hs : Sound p s)
    (ha : Accounted cfg p s) : Accounted cfg p (s.afterNode n pc v) := by
  obtain ⟨hr, hl, hacc⟩ := ha
  refine ⟨?_, hl, hacc⟩
  have hc := executingCount_update (s := s) (t := s.afterNode n pc v) (hs.gor_lt n pc hg) fun m hm => by simp [hm]
  have hnew : (s.afterNode n pc v).isExecuting n = v.pc.executing := isExecuting_eq (by simp)
  rw [isExecuting_eq hg, hnew, h.executing_eq] at hc
  simp only [State.afterNode_running, State.afterNode_doneCh]
  cases hd : pc.sendsDone
  · simp only [hd, Bool.not_false, Bool.and_true] at hc
    simp only [Bool.false_eq_true, if_false]
    omega
  have hx : pc.executing := by cases pc <;> simp_all [GPc.sendsDone, GPc.executing]
  simp only [hd, hx, Bool.not_true, Bool.and_false, Bool.toNat_true, Bool.toNat_false] at hc
  simp only [if_true, List.length_append, length_singleton]
  push_cast
  omega

lemma SysMove.accounted {l} (h : SysMove cfg p s l t) (hs : Sound p s)
    (ha : Accounted cfg p s) : Accounted cfg p t := by
  cases h with
  | loop move => exact move.accounted hs ha
  | node gor room move => exact accounted_afterNode gor move hs ha
  | _ => exact {ha with}

lemma reach_accounted {data : ℕ → Node} {C : State → Label → Prop}
    (h : Reach (step cfg p) C (start data) s) : Accounted cfg p s :=
  h.invariant (accounted_start data) fun _ _ _ hr ha _ hm => (sysMove_of_step hm).accounted (reach_sound hr) ha

/-- A step that takes node `n` from not started to running. -/
def Starts (s t : State) (n : ℕ) : Prop := s.statusOf n = .notStarted ∧ t.statusOf n = .running

/-- In every run a node starts at most once, and at most `maxActiveRuns` goroutines
execute at a time. -/
theorem starts_once_within_limit {data : ℕ → Node} (h : Reach (step cfg p) always (start data) s) :
    (∀ n l t, step cfg p s l = some t → Starts s t n →
      ∀ s' l' t', Reach (step cfg p) always t s' → step cfg p s' l' = some t' → ¬ Starts s' t' n) ∧
    (0 < cfg.maxActiveRuns → (executingCount p s : ℤ) ≤ cfg.maxActiveRuns) := by
  have hs := reach_sound h
  have ha := reach_accounted h
  refine ⟨?_, ?_⟩
  · intro n l t hm hst s' l' t' hr _ hst'
    have hne : t.statusOf n ≠ .notStarted := by simp [hst.2]
    obtain ⟨-, hne'⟩ := reach_status_ne_notStarted ((sysMove_of_step hm).sound hs) hne hr
    exact hne' hst'.1
  intro hm
  have hle := ha.limited hm
  have heq := ha.running_eq
  omega

variable {dag : List Step} {nodes : List RecordedNode} {data : ℕ → Node}

lemma Starts.fresh (hst : Starts s t n) (h : Reach (step cfg p) always (start data) s) : (data n).status = .notStarted := by
  by_contra hran
  exact (reach_status_ne_notStarted (sound_start p data) hran h).2 hst.1

/-- A full retry starts only nodes that failed or are behind one that did, and nodes that had not run. -/
theorem retry_starts (hplan : createRetryPlan dag nodes = .ok (p, data)) (h : Reach (step cfg p) always (start data) s)
    (hn : n < nodes.length) (hst : Starts s t n) : (recordedState nodes n).status = .notStarted ∨
      p.NeedsRetry (fun m => (recordedState nodes m).status) n := by
  obtain ⟨hsize, rfl⟩ := createRetryPlan_spec hplan
  refine or_iff_not_imp_right.mpr fun hneeds => ?_
  rw [← (p.setupRetry_eq (recordedState nodes) (hsize ▸ hn)).trans (if_neg hneeds)]
  exact hst.fresh h

/-- The retry of one step starts only that step and nodes that had not run. -/
theorem stepRetry_starts {stepName : String} (hplan : createStepRetryPlan dag nodes stepName = .ok (p, data))
    (h : Reach (step cfg p) always (start data) s) (hst : Starts s t n) :
    (recordedState nodes n).status = .notStarted ∨ nodeByName p.steps stepName = some n := by
  have hfresh := hst.fresh h
  unfold createStepRetryPlan at hplan
  split at hplan
  · cases hplan
  split at hplan
  · cases hplan
  rename_i hbuild
  split at hplan
  · cases hplan
  rename_i u hu
  cases hplan
  rw [buildPlan_steps hbuild]
  by_cases hnu : n = u
  · exact .inr (hnu ▸ hu)
  · exact .inl (by rwa [Function.update_of_ne hnu] at hfresh)

end

/-- The loop has taken the first ready node. -/
def picked (p : Plan) (data : ℕ → Node) : State := play (step {} p) (start data) (toSelect++[(.loop .takeReady, 1)])

theorem retry_starts_pipeline : ∃ p data t, createRetryPlan pipeline failedRecord = .ok (p, data) ∧
    step {} p (picked p data) (.loop .next) = some t ∧ Starts (picked p data) t 1 ∧
    p.NeedsRetry (fun m => (recordedState failedRecord m).status) 1 := by
  have h : createRetryPlan pipeline failedRecord = .ok (_, _) := rfl
  refine ⟨_, _, _, h, (Option.some_get ?_).symm, ?starts,
    (@retry_starts {} _ _ _ _ _ _ _ h (reach_play _ _) (by decide) ?starts).resolve_left (by decide)⟩
  · decide +kernel
  · exact ⟨by decide +kernel, by decide +kernel⟩

theorem stepRetry_starts_pipeline : ∃ p data t, createStepRetryPlan pipeline failedRecord "test" = .ok (p, data) ∧
    step {} p (picked p data) (.loop .next) = some t ∧ Starts (picked p data) t 1 ∧ nodeByName p.steps "test" = some 1 := by
  have h : createStepRetryPlan pipeline failedRecord "test" = .ok (_, _) := rfl
  refine ⟨_, _, _, h, (Option.some_get ?_).symm, ?starts,
    (@stepRetry_starts {} _ _ _ _ _ _ _ _ h (reach_play _ _) ?starts).resolve_left (by decide)⟩
  · decide +kernel
  · exact ⟨by decide +kernel, by decide +kernel⟩

def limitedPlan : Plan where
  steps := [{name := "a"}, {name := "b"}]
  edges := []
  edges_lt := by decide
  acyclic := by decide

theorem starts_once_within_limit_one : executingCount limitedPlan (play (step {maxActiveRuns := 1} limitedPlan)
      (start fun _ => {}) (toSelect++launch++launch)) = 1 ∧
    (executingCount limitedPlan (play (step {maxActiveRuns := 1} limitedPlan)
      (start fun _ => {}) (toSelect++launch++launch)) : ℤ) ≤ 1 :=
  ⟨by decide +kernel, (@starts_once_within_limit {maxActiveRuns := 1} limitedPlan _ _ (reach_play _ _)).2 (by decide)⟩

/-! The ready channel of the event loop. It holds as many messages as the plan has nodes
and the loop is its only receiver, so a send to a full channel never returns. -/

/-- A node is evaluated only while it is not waiting in `readyCh` already. -/
def evaluatesUnqueued : Label → Bool
  | .loop .next =>
    match s.loop with
    | .scan (n::_) => s.statusOf n ≠ .notStarted || n ∉ s.readyCh
    | .propagate (c::_) _ => s.statusOf c ≠ .notStarted || c ∉ s.readyCh
    | _ => true
  | _ => true

structure QueuedOnce : Prop where
  nodup : s.readyCh.Nodup
  fresh : ∀ c ds, s.loop.evaluated = some (c, ds) → c ∉ s.readyCh

section
variable {cfg : Config} {p : Plan} {s t : State}

lemma LoopMove.queuedOnce {ev} (h : LoopMove cfg p s ev t)
    (hc : evaluatesUnqueued s (.loop ev)) (hq : QueuedOnce s) : QueuedOnce t := by
  obtain ⟨hd, hf⟩ := hq
  cases h
  case scanEvaluates n rest pc hn | childEvaluated n _ _ pc hn =>
    refine ⟨hd, fun c ds he => ?_⟩
    obtain ⟨rfl, -⟩ : n = c ∧ _ := by simpa using he
    simpa [evaluatesUnqueued, pc, hn] using hc
  case sendInScan child _ pc _ | sendInQueue child _ _ pc _ =>
    refine ⟨?_, fun c ds he => by cases he⟩
    have hn : child ∉ s.readyCh := hf child [] (by rw [pc]; rfl)
    simpa [nodup_append] using ⟨hd, fun a ha => ne_of_mem_of_not_mem ha hn⟩
  case takeReady n rest pc head =>
    rw [head] at hd
    exact ⟨(nodup_cons.mp hd).2, fun c ds he => by cases he⟩
  all_goals
    refine ⟨hd, fun c ds he => ?_⟩
    simp_all

lemma SysMove.queuedOnce {l} (h : SysMove cfg p s l t)
    (hc : evaluatesUnqueued s l) (hq : QueuedOnce s) : QueuedOnce t := by
  cases h with
  | loop move => exact move.queuedOnce hc hq
  | _ => exact ⟨hq.nodup, hq.fresh⟩

lemma reach_queuedOnce {data : ℕ → Node}
    (h : Reach (step cfg p) (fun s l => evaluatesUnqueued s l) (start data) s) : QueuedOnce s :=
  h.invariant ⟨nodup_nil, fun _ _ he => by cases he⟩ fun _ _ _ _ hq hc hm => (sysMove_of_step hm).queuedOnce hc hq

/-- As long as no queued node is evaluated again, every send finds room. -/
theorem readyCh_has_room {data : ℕ → Node} {child : ℕ} {k : Resume}
    (h : Reach (step cfg p) (fun s l => evaluatesUnqueued s l) (start data) s)
    (pc : s.loop = .sendReady child k) : s.readyCh.length < p.size := by
  have hs := reach_sound h
  obtain ⟨hd, hf⟩ := reach_queuedOnce h
  have hnew : child ∉ s.readyCh := hf child [] (by rw [pc]; rfl)
  have hsub : child::s.readyCh ⊆ p.nodes := by
    intro n hn
    rcases mem_cons.mp hn with rfl | hn
    · exact Plan.mem_nodes.mpr (hs.ids_lt n (by simp [pc, LoopPc.ids]))
    · exact Plan.mem_nodes.mpr (hs.ready_lt n hn)
  have hle := (subperm_of_subset (nodup_cons.mpr ⟨hnew, hd⟩) hsub).length_le
  simpa [Plan.nodes] using hle

end

def fanIn : List Step :=
  [{name := "a"}, {name := "b"}, {name := "x", depends := ["a", "b"]},
   {name := "y", depends := ["a", "b"]}, {name := "z", depends := ["a", "b"]}]

def fanInPlan : Plan where
  steps := fanIn
  edges := [(0, 2), (1, 2), (0, 3), (1, 3), (0, 4), (1, 4)]
  edges_lt := by decide
  acyclic := by decide

/-- Both parents finish before the loop takes the first done message: every child is then
sent once per parent, six sends into a channel of five. -/
def bothParentsFirst : List (Label × ℕ) := toSelect++launch++launch++succeeds 0++succeeds 1++collect++collect

theorem readyCh_full : newPlan fanIn = .ok (fanInPlan, fun _ => {}) ∧
    ∃ s child k, Reach (step {} fanInPlan) always (start fun _ => {}) s ∧
    s.loop = .sendReady child k ∧ ¬ s.readyCh.length < fanInPlan.size ∧ step {} fanInPlan s (.loop .next) = none := by
  refine ⟨rfl, play (step {} fanInPlan) (start fun _ => {}) bothParentsFirst, 4,
    .propagate [] [], reach_play _ _, ?_, ?_, ?_⟩ <;> decide +kernel

def childrenStarted : State :=
  follow (step {} fanInPlan) evaluatesUnqueued (start fun _ => {})
    (toSelect++launch++succeeds 0++collect++launch++succeeds 1 ++ [(.loop .takeDone, 1), (.loop .next, 6)])

theorem readyCh_has_room_fanIn : childrenStarted.loop = .sendReady 2 (.propagate [3, 4] []) ∧
      childrenStarted.readyCh.length < fanInPlan.size :=
  have pc : childrenStarted.loop = .sendReady 2 (.propagate [3, 4] []) := by decide +kernel
  ⟨pc, readyCh_has_room (reach_follow (fun _ _ h => h) _ _) pc⟩

end Ayatsuri.Runner
