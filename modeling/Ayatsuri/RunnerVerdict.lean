import Ayatsuri.RunnerTermination

/-! The verdict of a run. `Status` learns of failures from the single slot `lastError`,
which every failing node overwrites and a repeating node may clear again. -/
namespace Ayatsuri.Runner
open TransitionSystem List Function

def alwaysContinues (c : ContinueOn) (n : Node) : Prop := ∀ log, (shouldContinue c n log).1

lemma alwaysContinues_asked {c n} (h : alwaysContinues c n)
    (log : LogAnswer) : alwaysContinues c (shouldContinue c n log).2 := by
  intro log'
  have hl := h log
  have hl' := h log'
  unfold shouldContinue at hl hl' ⊢
  cases hs : n.status <;> simp only [hs] at hl hl' ⊢
  all_goals try assumption
  cases hf : c.failure
  · simp only [hf, Bool.false_eq_true, if_false] at hl hl' ⊢
    unfold outcomeContinues at hl hl' ⊢
    cases hc : n.continueOnCache with
    | some v => simp_all
    | none =>
      simp only [hc] at hl hl' ⊢
      split_ifs at hl hl' ⊢ <;> cases log <;> simp_all
  · simp [hs]

/-- A failed status seen here is still to be followed by a write of `lastError`. -/
def GPc.owesError : GPc → Bool
  | .setExitCode (some _) _ | .captureOutput | .determineNodeStatus | .handleError (some _)
  | .setTimedOut _ | .setTimeoutAborted _ | .checkCanceled _ | .setNotRetried _ | .setRetrying _
  | .setRetryRunning | .setFailed _ | .askMarkSuccess _ | .setMarkedSuccess _ | .markError _
  | .setLastError _ | .sendDone (some _) | .recoverNodePanic (some _) | .panicSetLastError _ => true
  | _ => false

open GPc

def GPc.committed : GPc → Bool
  | .prepareMarkError _ | .prepareSetFailed | .teardownSetFailed => true
  | _ => false

def GPc.clean : GPc → Bool
  | .prepareNode | .prepareSetLastError _ | .meetsPreconditions | .setSkipped _ | .loopHead
  | .setupExecutor | .runCommand | .handleTimeout _ | .setExitCode none _ | .handleError none
  | .afterError none | .checkRepeat _ none | .compareLastError | .clearLastError => true
  | _ => false

def GPc.capturing : GPc → Bool
  | .captureOutput | .determineNodeStatus => true
  | _ => false

/-- The node has a failure that `lastError` has to answer for. -/
def charged : Option GPc → Node → Bool
  | none, _ => false
  | some pc, n => n.status = .failed && !pc.owesError || pc.committed

/-- What is known of a node without regard to `lastError`. -/
def Sane (st : Step) : Option GPc → Node → Prop
  | none, n => n.status = .failed → alwaysContinues st.continueOn n
  | some pc, n => (pc.clean → n.status ≠ .failed) ∧ (pc.capturing → n.status = .failed → n.err ≠ none)

section
variable {cfg : Config} {st : Step} {canceled : Bool} {v w : View} {ev : GEvent} (h : Move cfg st canceled v ev w)
include h

lemma Move.sane (hv : Sane st (some v.pc) v.node) : Sane st (some w.pc) w.node := by
  unfold Sane at hv ⊢
  cases h
  case prepared => cases cfg.dry <;> simp_all [clean, capturing]
  case notDetermined n l =>
    refine ⟨fun hc hf => ?_, nofun⟩
    cases he : n.err with
    | none => exact hv.2 rfl hf he
    | some e => simp [he, clean] at hc
  case determined s hs =>
    refine ⟨fun _ hf => ?_, nofun⟩
    simp_all [reportable]
  case determineFailed n l e => cases he : n.err <;> simp [he, clean, capturing]
  case attempted execErr _ _ _ _ => cases execErr <;> simp_all [clean, capturing]
  case setExitCode e code => cases e <;> simp_all [clean, capturing]
  all_goals simp_all [clean, capturing, resetForExecution]

/-- A failure is charged only together with a write of `lastError`, and `lastError` is
cleared only by a node that is not charged itself. -/
lemma Move.charged (hv : Sane st (some v.pc) v.node) (hl : charged (some v.pc) v.node → v.lastError ≠ none) :
    charged (some w.pc) w.node → w.lastError ≠ none := by
  unfold Sane at hv
  unfold Runner.charged at hl ⊢
  cases h
  case prepared => cases cfg.dry <;> simp_all [clean, committed]
  case notDetermined n l => cases he : n.err <;> simp_all [owesError, committed, capturing]
  case determined n l s hs => cases s <;> simp_all [owesError, committed, reportable]
  case determineFailed n l e => cases n.err <;> simp [owesError, committed]
  case errorLeft n l e b hs => intro hc; simp_all [leftAlone, committed]
  case setExitCode e code => cases e <;> simp_all [owesError, committed, clean]
  case attempted execErr _ _ _ _ => cases execErr <;> simp_all [owesError, committed, clean]
  case sendDone panicked => cases panicked <;> simp_all [owesError, committed]
  all_goals simp_all [owesError, committed, clean, resetForExecution]

lemma Move.lastError_cases : w.lastError = v.lastError ∨ w.lastError ≠ none ∨ v.pc = .clearLastError := by
  cases h <;> simp

end

def LoopPc.closing : LoopPc → Bool
  | .handlers _ | .waitHandler | .returned => true
  | _ => false

/-- Every charged failure is on record in `lastError` until the verdict is computed. -/
def OnRecord (p : Plan) (s : State) : Prop :=
  s.loop.closing = false → ∀ n, n < p.size → Sane (p.step n) (s.gor n) (s.data n) ∧
    (charged (s.gor n) (s.data n) → s.lastError ≠ none)

/-- A repeating node clears `lastError` only while no other node is charged. -/
def clearsAlone (p : Plan) (s : State) : Label → Bool
  | .node n .next => s.gor n ≠ some .clearLastError || p.nodes.all fun m => m = n || !charged (s.gor m) (s.data m)
  | _ => true

section
variable {cfg : Config} {p : Plan} {s t : State} {ev : LoopEvent}

section
variable (h : LoopMove cfg p s ev t)
include h

lemma LoopMove.data_cases (hs : Sound p s) (ht : t.loop.closing = false) (n : ℕ) :
    t.data n = s.data n ∨ (∃ log, t.data n = (shouldContinue (p.step n).continueOn (s.data n) log).2) ∨
    t.statusOf n ≠ .failed := by
  cases h
  case continues d _ _ _ log _ _ | blocks d _ _ _ log _ _ _ _ _ =>
    rcases eq_or_ne n d with rfl | hn
    · exact .inr (.inl ⟨log, update_self ..⟩)
    · exact .inl (update_of_ne hn ..)
  case cancelNode m rest pc hm =>
    rcases eq_or_ne n m with rfl | hn
    · exact .inr (.inr (by simp))
    · exact .inl (update_of_ne hn ..)
  case setBlocked child st e k pc =>
    rcases eq_or_ne n child with rfl | hn
    · rcases hs.blocked n st e k pc with rfl | rfl <;> exact .inr (.inr (by simp))
    · exact .inl (update_of_ne hn ..)
  case startNode m pc hm =>
    rcases eq_or_ne n m with rfl | hn
    · exact .inr (.inr (by simp))
    · exact .inl (update_of_ne hn ..)
  case statusWaits | statusHandlers => cases ht
  all_goals exact .inl rfl

lemma LoopMove.status_ne_failed (hs : Sound p s) {n : ℕ} (hn : s.statusOf n ≠ .failed) : t.statusOf n ≠ .failed := by
  rcases h.statusOf_cases n with h | ⟨-, -, h⟩ | ⟨st, e, k, hl, h⟩ | ⟨-, -, h, -⟩
  · rwa [h]
  · simp [h]
  · rcases hs.blocked n st e k hl with rfl | rfl <;> simp [h]
  · simp [h]

lemma LoopMove.lastError_kept (hl : s.lastError ≠ none) : t.lastError ≠ none := by
  cases h
  case handlerRan err _ => cases err <;> simp_all
  case ctxDone kept => exact kept hl
  all_goals first | exact hl | simp

lemma LoopMove.not_closing (ht : t.loop.closing = false) : s.loop.closing = false := by
  cases h <;> simp_all [LoopPc.closing]

end

variable {n : Node} {g : Option GPc}

lemma sane_of_ne_failed {st} (h : n.status ≠ .failed) : Sane st g n := by cases g <;> simp [Sane, h]

lemma charged_of_ne_failed {m} (h : n.status ≠ .failed) (hc : charged g n) : charged g m := by
  cases g <;> simp_all [charged]

lemma sane_asked {st : Step} (h : Sane st g n) (log : LogAnswer) :
    Sane st g (shouldContinue st.continueOn n log).2 := by
  cases g with
  | none =>
    intro hf
    rw [shouldContinue_status] at hf
    exact alwaysContinues_asked (h hf) log
  | some pc =>
    obtain ⟨cache, hc⟩ := shouldContinue_frame st.continueOn n log
    rw [hc]
    exact h

lemma charged_asked {c} (log : LogAnswer) : charged g (shouldContinue c n log).2 = charged g n := by
  cases g <;> simp [charged]

lemma LoopMove.onRecord (h : LoopMove cfg p s ev t) (hs : Sound p s) (ho : OnRecord p s) : OnRecord p t := by
  intro ht n hn
  obtain ⟨hsane, hch⟩ := ho (h.not_closing ht) n hn
  have keep : charged (s.gor n) (s.data n) → t.lastError ≠ none := fun hc => h.lastError_kept (hch hc)
  rcases h.gor_cases n with hg | ⟨-, hns, hg⟩
  · rw [hg]
    rcases h.data_cases hs ht n with hd | ⟨log, hd⟩ | hd
    · rw [hd]
      exact ⟨hsane, keep⟩
    · rw [hd, charged_asked]
      exact ⟨sane_asked hsane log, keep⟩
    · exact ⟨sane_of_ne_failed hd, fun hc => keep (charged_of_ne_failed hd hc)⟩
  · -- a node that is started now has just been marked as running
    have hd : t.statusOf n ≠ .failed := h.status_ne_failed hs (by simp [hns])
    rw [hg]
    refine ⟨sane_of_ne_failed hd, fun hc => ?_⟩
    simp_all [charged, committed, State.statusOf]

lemma onRecord_afterNode {n : ℕ} {ev pc v} (hg : s.gor n = some pc)
    (h : Move cfg (p.step n) s.canceled ⟨pc, s.data n, s.lastError⟩ ev v)
    (hc : clearsAlone p s (.node n ev)) (ho : OnRecord p s) : OnRecord p (s.afterNode n pc v) := by
  intro ht m hm
  rw [State.gor_afterNode]
  obtain ⟨hsane, hch⟩ := ho ht m hm
  rcases eq_or_ne m n with rfl | hmn
  · rw [hg] at hsane hch
    have hd : (s.afterNode m pc v).data m = v.node := update_self ..
    rw [if_pos rfl, hd]
    exact ⟨h.sane hsane, h.charged hsane hch⟩
  have hd : (s.afterNode n pc v).data m = s.data m := update_of_ne hmn ..
  rw [if_neg hmn, hd]
  refine ⟨hsane, fun hcm => ?_⟩
  rcases h.lastError_cases with hl | hl | hclear
  · rw [State.afterNode_lastError, hl]
    exact hch hcm
  · exact hl
  -- this is the clearing step: no other node may be charged
  obtain rfl : pc = .clearLastError := hclear
  cases h with
  | panic => exact hch hcm
  | clearLastError =>
    simp [clearsAlone, hg] at hc
    rcases hc m hm with h' | h'
    · exact absurd h' hmn
    · simp [h'] at hcm

lemma SysMove.onRecord {l} (h : SysMove cfg p s l t) (hs : Sound p s)
    (hc : clearsAlone p s l) (ho : OnRecord p s) : OnRecord p t := by
  cases h with
  | loop move => exact move.onRecord hs ho
  | node gor room move => exact onRecord_afterNode gor move hc ho
  | @overwrites i n g at_i held =>
    intro ht m hm
    obtain ⟨hsane, hch⟩ := ho ht m hm
    rcases eq_or_ne m n with rfl | hmn
    · have hd : (update s.data m ((s.data m).setStatus .aborted) m).status ≠ .failed := by
        simp
      exact ⟨sane_of_ne_failed hd, fun hcm => hch (charged_of_ne_failed hd hcm)⟩
    change Sane _ _ (update s.data n _ m) ∧ (charged _ (update s.data n _ m) → _)
    rw [update_of_ne hmn]
    exact ⟨hsane, hch⟩
  | _ => exact ho

lemma reach_onRecord {data : ℕ → Node} (hd : ∀ n, n < p.size → (data n).status = .failed →
      alwaysContinues (p.step n).continueOn (data n))
    (h : Reach (step cfg p) (fun s l => clearsAlone p s l) (start data) s) : OnRecord p s :=
  h.invariant (fun _ n hn => ⟨hd n hn, nofun⟩)
    fun _ _ _ hr ho hc hm => (sysMove_of_step hm).onRecord (reach_sound hr) hc ho

end

section
variable {cfg : Config} {p : Plan} {logs : LogAnswers} {s : State} {data : ℕ → Node}

lemma failuresTolerated_asks {ns} (hd : ns.Nodup)
    (h : (failuresTolerated p logs ns data).1) : ∀ n ∈ ns, (data n).status = .failed →
      (shouldContinue (p.step n).continueOn (data n) (logs.firstPass n)).1 := by
  induction ns generalizing data with
  | nil => simp
  | cons m ns ih =>
    obtain ⟨hm, hd⟩ := nodup_cons.mp hd
    unfold failuresTolerated at h
    intro n hn hf
    split_ifs at h with hfm
    · dsimp only at h
      split_ifs at h with ha
      rcases mem_cons.mp hn with rfl | hn
      · exact ha
      have hne : n ≠ m := ne_of_mem_of_not_mem hn hm
      have := ih hd h n hn (by rwa [update_of_ne hne])
      rwa [update_of_ne hne] at this
    · rcases mem_cons.mp hn with rfl | hn
      · exact absurd hf hfm
      · exact ih hd h n hn hf

/-- A successful verdict rests on an empty `lastError` or on the tolerance of all failures. -/
lemma status_success {canceled lastError finished} (hf : cfg.forcedStatus = none)
    (hv : (status cfg p logs data canceled lastError finished).1.isSuccess) :
    lastError = none ∨ (failuresTolerated p logs p.nodes data).1 := by
  unfold status at hv
  simp only [hf] at hv
  split_ifs at hv with _ _ _ _ _ _ hp hl
  -- the six verdicts before the partial success are not successful
  iterate 6 simp [Status.isSuccess] at hv
  · right
    unfold isPartialSuccess at hp
    dsimp only at hp
    split_ifs at hp with ht
    exact ht
  · simp [Status.isSuccess] at hv
  · exact .inl (not_not.mp hl)

lemma onSuccess_triggered {t : State} {rest : List HandlerType} (pc : s.loop = .drained)
    (h : step cfg p s (.loop (.status logs)) = some t) (ht : t.loop = .handlers rest) (hr : .onSuccess ∈ rest) :
    (status cfg p logs s.data s.canceled s.lastError s.finished).1.isSuccess := by
  simp only [step, loopStep, pc, finishStep, Option.some.injEq] at h
  subst h
  dsimp only at ht
  cases hv : (status cfg p logs s.data s.canceled s.lastError s.finished).1 <;>
    simp only [hv, afterStatus, eventHandlers, LoopPc.handlers.injEq, reduceCtorEq] at ht <;>
    first | rfl | (subst ht; simp at hr)

/-- A run that is reported as successful, or triggers `onSuccess`, contains no failed node
that may not be continued. -/
theorem success_means_tolerated {data : ℕ → Node} (hf : cfg.forcedStatus = none)
    (hd : ∀ n, n < p.size → (data n).status = .failed → alwaysContinues (p.step n).continueOn (data n))
    (h : Reach (step cfg p) (fun s l => clearsAlone p s l) (start data) s) (pc : s.loop = .drained)
    (hv : (status cfg p logs s.data s.canceled s.lastError s.finished).1.isSuccess ∨
      ∃ t rest, step cfg p s (.loop (.status logs)) = some t ∧ t.loop = .handlers rest ∧ .onSuccess ∈ rest) :
    ∀ n, n < p.size → s.statusOf n = .failed →
      (shouldContinue (p.step n).continueOn (s.data n) (logs.firstPass n)).1 := by
  intro n hn hfailed
  have hv : (status cfg p logs s.data s.canceled s.lastError s.finished).1.isSuccess := by
    rcases hv with hv | ⟨t, rest, ht, hl, hr⟩
    · exact hv
    · exact onSuccess_triggered pc ht hl hr
  rcases status_success hf hv with hl | ht
  · obtain ⟨hsane, hch⟩ := reach_onRecord hd h (by rw [pc]; rfl) n hn
    have left : ∀ n, n < p.size → s.gor n = none ∨ s.gor n = some .exited := by
      simpa [goroutinesDone] using (reach_quiet h).left (by rw [pc]; rfl)
    rcases left n hn with hg | hg
    · rw [hg] at hsane
      exact hsane hfailed _
    -- the node failed in this run and its goroutine is gone, so its failure is charged
    refine absurd hl (hch ?_)
    have hfailed : (s.data n).status = .failed := hfailed
    simp [hg, charged, hfailed, owesError]
  · exact failuresTolerated_asks nodup_range ht n (Plan.mem_nodes.mpr hn) hfailed

end

def besideRepeating : List Step := [{name := "import"}, { name := "poll", repeatPolicy := {repeatMode := .untilMode} }]

def besideRepeatingPlan : Plan where
  steps := besideRepeating
  edges := []
  edges_lt := by decide
  acyclic := by decide

/-- Both steps fail, the plain one first. The repeating step finds its own error in
`lastError`, clears it, repeats and succeeds. -/
def failuresThenRepeat : List (Label × ℕ) :=
  toSelect++launch++launch ++
    toCommand 0++commandFails 0 {text := "import failed"}++handlesFailure 0 ++ [(.node 0 .next, 2)]++leaves 0 ++
    toCommand 1++commandFails 1 {text := "not yet"}++handlesFailure 1 ++
      [(.node 1 .next, 5), (.node 1 .executorReady, 1)]++commandSucceeds 1++leaves 1 ++
    collect++collect

theorem succeeded_despite_failure : newPlan besideRepeating = .ok (besideRepeatingPlan, fun _ => {}) ∧
    ∃ s, Reach (step {} besideRepeatingPlan) always (start fun _ => {}) s ∧ s.loop = .drained ∧ s.statusOf 0 = .failed ∧
      (shouldContinue (besideRepeatingPlan.step 0).continueOn (s.data 0) .absent).1 = false ∧
      (status {} besideRepeatingPlan {} s.data s.canceled s.lastError s.finished).1 = .succeeded ∧
    (step {} besideRepeatingPlan s (.loop (.status {}))).map State.loop = some (.handlers [.onSuccess, .onExit]) := by
  refine ⟨rfl, play (step {} besideRepeatingPlan) (start fun _ => {}) failuresThenRepeat,
    reach_play _ _, ?_, ?_, ?_, ?_, ?_⟩ <;> decide +kernel

def tolerantPlan : Plan where
  steps := [{ name := "import", continueOn := {failure := true} },
    { name := "poll", repeatPolicy := {repeatMode := .untilMode} }]
  edges := []
  edges_lt := by decide
  acyclic := by decide

def repeatThenFailure : State :=
  follow (step {} tolerantPlan) (clearsAlone tolerantPlan) (start fun _ => {})
    (toSelect++launch++launch ++ toCommand 1++commandFails 1 {text := "not yet"}++handlesFailure 1 ++
        [(.node 1 .next, 5), (.node 1 .executorReady, 1)]++commandSucceeds 1++leaves 1 ++
      toCommand 0++commandFails 0 {text := "import failed"}++handlesFailure 0 ++ [(.node 0 .next, 2)]++leaves 0 ++
      collect++collect)

theorem success_means_tolerated_import : repeatThenFailure.statusOf 0 = .failed ∧
    (shouldContinue (tolerantPlan.step 0).continueOn (repeatThenFailure.data 0) .absent).1 := by
  have hfailed : repeatThenFailure.statusOf 0 = .failed := by decide +kernel
  have hpc : repeatThenFailure.loop = .drained := by decide +kernel
  have hv : (status {} tolerantPlan {} repeatThenFailure.data repeatThenFailure.canceled
      repeatThenFailure.lastError repeatThenFailure.finished).1.isSuccess := by decide +kernel
  exact ⟨hfailed, @success_means_tolerated {} tolerantPlan {} repeatThenFailure (fun _ => {}) rfl
    (fun _ _ h => by cases h) (reach_follow (fun _ _ h => h) _ _) hpc (.inl hv) 0 (by decide)
    hfailed⟩

end Ayatsuri.Runner
