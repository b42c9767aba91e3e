import Ayatsuri.NodeModel

/-! The goroutine of one node (`internal/runtime/runner.go`, the function started by
`Run`, with `runNodeExecution`, `Node.Execute`, `handleNodeExecutionError`,
`shouldRetryNode` and `prepareNodeForRepeat` inlined). Every access to the node's
status, to `lastError` and to `canceled` is a step of its own; what only this
goroutine can see is folded into the neighbouring step. -/
namespace Ayatsuri.Runner

inductive HandlerType
  | onInit | onExit | onSuccess | onFailure | onAbort | onWait
  deriving DecidableEq

/-- `progressCh` tells whether `Run` got a progress channel, `timeout` whether the
dag-run has one, `externalStepRetry` is `externalStepRetryEnabled`. -/
structure Config where
  maxActiveRuns : ℤ := 0
  dry : Bool := false
  timeout : Bool := false
  progressCh : Bool := true
  externalStepRetry : Bool := false
  forcedStatus : Option Status := none
  handlers : HandlerType → Bool := fun _ => false

inductive GPc
  -- the goroutine's own body
  | prepareNode
  | prepareSetLastError (e : Err)
  | prepareMarkError (e : Err)
  | prepareSetFailed
  -- runNodeExecution up to the loop
  | meetsPreconditions
  | setSkipped (e : Option Err)
  | loopHead
  -- Node.Execute
  | setupExecutor | runCommand
  | handleTimeout (e : Err)
  | setExitCode (e : Option Err) (code : ℤ)
  | captureOutput | determineNodeStatus
  -- handleNodeExecutionError and shouldRetryNode
  | handleError (execErr : Option Err)
  | setTimedOut (e : Err)
  | setTimeoutAborted (e : Err)
  | checkCanceled (e : Err)
  | setNotRetried (e : Err)
  | setRetrying (e : Err)
  | setRetryRunning
  | setFailed (e : Err)
  | askMarkSuccess (e : Err)
  | setMarkedSuccess (e : Err)
  | markError (e : Err)
  | setLastError (e : Err)
  -- the rest of the loop, with prepareNodeForRepeat
  | afterError (execErr : Option Err)
  | checkRepeat (again : Bool) (execErr : Option Err)
  | setRepeatRunning | compareLastError | clearLastError
  -- after the loop
  | finalStatus | chooseFinal | setAborted | setForReview | setSucceeded | checkApproval
  | setWaiting | teardownNode
  | teardownSetLastError (e : Err)
  | teardownSetFailed
  -- the deferred calls: done message, panic recovery, bookkeeping
  | sendDone (panicked : Option Err)
  | recoverNodePanic (panicked : Option Err)
  | panicSetLastError (e : Err)
  | finishNode | exited
  deriving DecidableEq

/-- The node counts as executing until its done message is sent; what follows is the
bookkeeping of the remaining deferred calls. -/
def GPc.executing : GPc → Bool
  | .recoverNodePanic _ | .panicSetLastError _ | .finishNode | .exited => false
  | _ => true

def GPc.inBody : GPc → Bool
  | .sendDone _ => false
  | pc => pc.executing

def GPc.sendsDone : GPc → Bool
  | .sendDone _ => true
  | _ => false

inductive GEvent
  | next
  | prepared (policy : RetryPolicy)
  | prepareFailed (e : Err)
  | preconditionsMet
  | preconditionsUnmet (e : Option Err)
  | executorReady
  | executorFailed (e wrapped : Err)
  | commandDone
  | commandFailed (e : Err) (code : ℤ)
  | commandTimedOut (e : Err)
  | outputCaptured
  | captureFailed (e : Err)
  | validationFailed (e : Err)
  | notDetermined
  | determined (s : NodeStatus)
  | determineFailed (e : Err)
  | elapsed (timedOut : Bool)
  | exitStatus (code : ℤ)
  | logScanned (log : LogAnswer)
  | conditionEvaluated (met : Bool)
  | tornDown
  | teardownFailed (e : Err)
  | panic (e : Err)
  deriving DecidableEq

structure View where
  pc : GPc
  node : Node
  lastError : Option Err
  deriving DecidableEq

namespace View
variable (v : View)

def goto (pc : GPc) : View := {v with pc := pc}

def setStatus (v : View) (s : NodeStatus) (pc : GPc) : View := {v with node := v.node.setStatus s, pc := pc}

def setNode (n : Node) (pc : GPc) : View := {v with node := n, pc := pc}

def setLastError (e : Option Err) (pc : GPc) : View := {v with lastError := e, pc := pc}

end View

/-- `setupExecutor` starts every execution with a cleared answer, error and exit code. -/
def resetForExecution (n : Node) : Node := {n with continueOnCache := none, err := none, exitCode := 0}

def finalWrite (st : Step) (canceled : Bool) : GPc :=
  if !st.isRepetitive && canceled then .setAborted
  else if st.approval then .setForReview
  else .setSucceeded

def bodyStep (cfg : Config) (st : Step) (canceled : Bool) (v : View) (ev : GEvent) : Option View :=
  match v.pc with
  | .prepareNode =>
    match ev with
    | .prepared policy =>
      some (v.setNode (if cfg.dry then v.node else {v.node with retryPolicy := policy}) .meetsPreconditions)
    | .prepareFailed e => if cfg.dry then none else some (v.goto (.prepareSetLastError e))
    | _ => none
  | .prepareSetLastError e =>
    if ev = .next then some (v.setLastError (some e) (.prepareMarkError e)) else none
  | .prepareMarkError e =>
    if ev = .next then some (v.setNode (v.node.markError e) .prepareSetFailed) else none
  | .prepareSetFailed =>
    if ev = .next then some (v.setStatus .failed (.sendDone none)) else none
  | .meetsPreconditions =>
    match ev with
    | .preconditionsMet => some (v.goto .loopHead)
    | .preconditionsUnmet e => if st.preconditions then some (v.goto (.setSkipped e)) else none
    | _ => none
  | .setSkipped e =>
    if ev = .next then
      some (v.setNode {v.node with status := .skipped, err := e.or v.node.err} (.sendDone none))
    else none
  | .loopHead =>
    if ev = .next then some (v.goto (if canceled then .finalStatus else .setupExecutor)) else none
  | .setupExecutor =>
    match ev with
    | .next => if cfg.dry then some (v.goto (.handleError none)) else none
    | .executorReady =>
      if cfg.dry then none else some (v.setNode (resetForExecution v.node) .runCommand)
    | .executorFailed e wrapped =>
      if cfg.dry then none
      else some (v.setNode {resetForExecution v.node with err := some wrapped} (.handleError (some e)))
    | _ => none
  | .runCommand =>
    match ev with
    | .commandDone => some (v.goto (.setExitCode none 0))
    | .commandFailed e code => some (v.setNode {v.node with err := some e} (.setExitCode (some e) code))
    | .commandTimedOut e =>
      if st.timeout && e.deadline then some (v.goto (.handleTimeout e)) else none
    | _ => none
  | .handleTimeout e =>
    if ev = .next then
      some (v.setNode {v.node with err := some e, status := .failed} (.setExitCode (some e) 124))
    else none
  | .setExitCode e code =>
    if ev = .next then some (v.setNode {v.node with err := e, exitCode := code} .captureOutput)
    else none
  | .captureOutput =>
    match ev with
    | .outputCaptured => some (v.goto .determineNodeStatus)
    | .captureFailed e => some (v.goto (.handleError (some e)))
    | .validationFailed e =>
      -- the schema is only consulted when the command itself succeeded
      if v.node.err = none then
        some (v.setNode {v.node with exitCode := 1, err := some e} (.handleError (some e)))
      else none
    | _ => none
  | .determineNodeStatus =>
    match ev with
    | .notDetermined => some (v.goto (.handleError v.node.err))
    | .determined s =>
      if reportable s then some (v.setStatus s (.handleError v.node.err)) else none
    | .determineFailed e => some (v.goto (.handleError (v.node.err.or (some e))))
    | _ => none
  | .handleError none =>
    if ev = .next then some (v.goto (.afterError none)) else none
  | .handleError (some e) =>
    match ev with
    | .elapsed timedOut =>
      if v.node.status = .succeeded ∨ v.node.status = .aborted ∨ v.node.status = .partiallySucceeded then
        some (v.goto (.afterError (some e)))
      else if e.deadline then
        some (v.goto (if st.timeout then .setTimedOut e else .setTimeoutAborted e))
      else if timedOut && cfg.timeout then some (v.goto (.setTimeoutAborted e))
      else some (v.goto (.checkCanceled e))
    | _ => none
  | .setTimedOut e =>
    if ev = .next then some (v.setStatus .failed (.setLastError e)) else none
  | .setTimeoutAborted e =>
    if ev = .next then some (v.setStatus .aborted (.setLastError e)) else none
  | .checkCanceled e =>
    match ev with
    | .exitStatus code =>
      if canceled then some (v.goto (.setLastError e))
      else if (v.node.retryCount : ℤ) < v.node.retryPolicy.limit then
        if v.node.retryPolicy.shouldRetry code then
          some (v.setNode {v.node with retryCount := v.node.retryCount+1}
            (if cfg.externalStepRetry then .setRetrying e else .setRetryRunning))
        else some (v.goto (.setNotRetried e))
      else some (v.goto (.setFailed e))
    | _ => none
  | .setNotRetried e =>
    if ev = .next then some (v.setStatus .failed (.markError e)) else none
  | .setRetrying e =>
    if ev = .next then some (v.setStatus .retrying (.afterError (some e))) else none
  | .setRetryRunning =>
    if ev = .next then some (v.setStatus .running .loopHead) else none
  | .setFailed e =>
    if ev = .next then some (v.setStatus .failed (.askMarkSuccess e)) else none
  | .askMarkSuccess e =>
    match ev with
    | .logScanned log =>
      let r := shouldMarkSuccess st.continueOn v.node log
      some (v.setNode r.2 (if r.1 then .setMarkedSuccess e else .markError e))
    | _ => none
  | .setMarkedSuccess e =>
    if ev = .next then some (v.setStatus .succeeded (.afterError (some e))) else none
  | .markError e =>
    if ev = .next then some (v.setNode (v.node.markError e) (.setLastError e)) else none
  | .setLastError e =>
    if ev = .next then some (v.setLastError (some e) (.afterError (some e))) else none
  | .afterError execErr =>
    match ev with
    | .conditionEvaluated met =>
      if v.node.status = .retrying then some (v.goto (.sendDone none))
      else
        let n := if v.node.status = .aborted then v.node
          else {v.node with doneCount := v.node.doneCount+1}
        some (v.setNode n (.checkRepeat (shouldRepeatNode st.repeatPolicy n execErr met) execErr))
    | _ => none
  | .checkRepeat again execErr =>
    if ev = .next then
      if again && !canceled then some (v.goto .setRepeatRunning)
      else if execErr ≠ none ∧ cfg.progressCh then some (v.goto (.sendDone none))
      else some (v.goto .finalStatus)
    else none
  | .setRepeatRunning =>
    if ev = .next then some (v.setStatus .running .compareLastError) else none
  | .compareLastError =>
    if ev = .next then
      some (v.goto (if v.lastError = v.node.err then .clearLastError else .loopHead))
    else none
  | .clearLastError =>
    if ev = .next then some (v.setLastError none .loopHead) else none
  | .finalStatus =>
    if ev = .next then
      some (v.goto (if v.node.status = .running then .chooseFinal else .checkApproval))
    else none
  | .chooseFinal =>
    if ev = .next then some (v.goto (finalWrite st canceled)) else none
  | .setAborted =>
    if ev = .next then some (v.setStatus .aborted .checkApproval) else none
  | .setForReview =>
    if ev = .next then some (v.setStatus .waiting .checkApproval) else none
  | .setSucceeded =>
    if ev = .next then some (v.setStatus .succeeded .checkApproval) else none
  | .checkApproval =>
    if ev = .next then
      some (v.goto (if v.node.status = .succeeded && st.approval then .setWaiting
        else .teardownNode))
    else none
  | .setWaiting =>
    if ev = .next then some (v.setStatus .waiting .teardownNode) else none
  | .teardownNode =>
    match ev with
    | .tornDown => some (v.goto (.sendDone none))
    | .teardownFailed e =>
      if cfg.dry then none
      else some (v.setNode {v.node with err := some e} (.teardownSetLastError e))
    | _ => none
  | .teardownSetLastError e =>
    if ev = .next then some (v.setLastError (some e) .teardownSetFailed) else none
  | .teardownSetFailed =>
    if ev = .next then some (v.setStatus .failed (.sendDone none)) else none
  | .sendDone panicked =>
    if ev = .next then some (v.goto (.recoverNodePanic panicked)) else none
  | .recoverNodePanic none =>
    if ev = .next then some (v.goto .finishNode) else none
  | .recoverNodePanic (some e) =>
    if ev = .next then some (v.setNode (v.node.markError e) (.panicSetLastError e)) else none
  | .panicSetLastError e =>
    if ev = .next then some (v.setLastError (some e) .finishNode) else none
  | .finishNode => if ev = .next then some (v.goto .exited) else none
  | .exited => none

def goroutineStep (cfg : Config) (st : Step) (canceled : Bool) (v : View) (ev : GEvent) : Option View :=
  match ev with
  | .panic e => if v.pc.inBody then some (v.goto (.sendDone (some e))) else none
  | _ => bodyStep cfg st canceled v ev

/-! ### Errors that are not retried -/

variable (c : ContinueOn)

/-- Whether `continueOn` covers a failure with this exit code and this log. -/
def coversFailure (exitCode : ℤ) (log : LogAnswer) : Bool :=
  c.failure || exitCode ∈ c.exitCode || (c.output ≠ [] && log = .found)

/-- What `handleNodeExecutionError` is answered in a run that is neither canceled nor timed out: the exit code of the error and
the scan of the log. -/
def errorAnswer (code : ℤ) (log : LogAnswer) : GPc → GEvent
  | .handleError _ => .elapsed false
  | .checkCanceled _ => .exitStatus code
  | .askMarkSuccess _ => .logScanned log
  | _ => .next

/-- The steps of `handleNodeExecutionError`, at most so many. -/
def handleNodeExecutionError (cfg : Config) (st : Step) (code : ℤ) (log : LogAnswer) : ℕ → View → Option View
  | 0, v => some v
  | fuel+1, v =>
    match v.pc with
    | .afterError _ => some v
    | pc => (goroutineStep cfg st false v (errorAnswer code log pc)).bind (handleNodeExecutionError cfg st code log fuel)

def unretriedStatus (st : Step) (n : Node) (log : LogAnswer) : NodeStatus :=
  if coversFailure st.continueOn n.exitCode log && st.continueOn.markSuccess then .succeeded else .failed

lemma shouldMarkSuccess_failed (n : Node) (log : LogAnswer) (hcache : n.continueOnCache = none) :
    (shouldMarkSuccess c (n.setStatus .failed) log).1 = (coversFailure c n.exitCode log && c.markSuccess) := by
  unfold shouldMarkSuccess shouldContinue outcomeContinues coversFailure
  cases c.failure <;> by_cases hcode : n.exitCode ∈ c.exitCode <;> by_cases houtput : c.output = [] <;> cases log <;>
    simp [hcache, hcode, houtput, Node.setStatus]

section
variable {cfg : Config} {st : Step} {code : ℤ} {log : LogAnswer} {n : Node} {l : Option Err} {e : Err}

lemma handle_step {v w : View} (fuel : ℕ) (hpc : ∀ x, v.pc ≠ .afterError x)
    (hstep : goroutineStep cfg st false v (errorAnswer code log v.pc) = some w) :
    handleNodeExecutionError cfg st code log (fuel+1) v = handleNodeExecutionError cfg st code log fuel w := by
  rw [handleNodeExecutionError]
  split
  · next x hx => exact absurd hx (hpc x)
  · rw [hstep, Option.bind_some]

/-- An error of its own leaves the first decision to `retryPolicy`. -/
lemma handle_plain (fuel : ℕ) (hdeadline : e.deadline = false)
    (hstatus : ¬ (n.status = .succeeded ∨ n.status = .aborted ∨ n.status = .partiallySucceeded)) :
    handleNodeExecutionError cfg st code log (fuel+1) ⟨.handleError (some e), n, l⟩ =
      handleNodeExecutionError cfg st code log fuel ⟨.checkCanceled e, n, l⟩ :=
  handle_step fuel (by simp) ((if_neg hstatus).trans ((if_neg (by simp [hdeadline])).trans (if_neg (by simp))))

/-- Where `shouldRetryNode` refuses the retry, the node fails whatever `continueOn` says. -/
lemma handle_refused (hlimit : (n.retryCount : ℤ) < n.retryPolicy.limit) (hrefused : n.retryPolicy.shouldRetry code = false) :
    handleNodeExecutionError cfg st code log 6 ⟨.checkCanceled e, n, l⟩ =
      some ⟨.afterError (some e), (n.setStatus .failed).markError e, some e⟩ := by
  have hrefuse : goroutineStep cfg st false ⟨.checkCanceled e, n, l⟩ (.exitStatus code) = some ⟨.setNotRetried e, n, l⟩ :=
    (if_pos hlimit).trans (if_neg (by simp [hrefused]))
  rw [handle_step 5 (by simp) hrefuse]
  rfl

lemma handle_exhausted (hlimit : ¬ (n.retryCount : ℤ) < n.retryPolicy.limit) (hcache : n.continueOnCache = none) :
    ∃ v, handleNodeExecutionError cfg st code log 6 ⟨.checkCanceled e, n, l⟩ = some v ∧ v.pc = .afterError (some e) ∧
      v.node.status = unretriedStatus st n log := by
  have hfail : goroutineStep cfg st false ⟨.checkCanceled e, n, l⟩ (.exitStatus code) = some ⟨.setFailed e, n, l⟩ :=
    if_neg hlimit
  have hset : goroutineStep cfg st false ⟨.setFailed e, n, l⟩ .next = some ⟨.askMarkSuccess e, n.setStatus .failed, l⟩ := rfl
  have hask : goroutineStep cfg st false ⟨.askMarkSuccess e, n.setStatus .failed, l⟩ (.logScanned log) =
      some ⟨if (shouldMarkSuccess st.continueOn (n.setStatus .failed) log).1 then .setMarkedSuccess e else .markError e,
        (shouldMarkSuccess st.continueOn (n.setStatus .failed) log).2, l⟩ := rfl
  rw [handle_step 5 (by simp) hfail, handle_step 4 (by simp) hset, handle_step 3 (by simp) hask, unretriedStatus,
    ← shouldMarkSuccess_failed st.continueOn n log hcache]
  cases (shouldMarkSuccess st.continueOn (n.setStatus .failed) log).1 <;> exact ⟨_, rfl, rfl, rfl⟩

/-- An error that is not retried leads to the status it should if the retries are used up. As long as there are some left
it does so only if the failure is not to be marked as a success, and an execution that has reported its own status keeps it. -/
theorem unretried_status_iff (hdeadline : e.deadline = false)
    (hnot : ¬ ((n.retryCount : ℤ) < n.retryPolicy.limit ∧ n.retryPolicy.shouldRetry code)) :
    ∃ v, handleNodeExecutionError cfg st code log 7 ⟨.handleError (some e), {n with continueOnCache := none}, l⟩ = some v ∧
      v.pc = .afterError (some e) ∧ (v.node.status = unretriedStatus st n log ↔
        ¬ (n.status = .succeeded ∨ n.status = .aborted ∨ n.status = .partiallySucceeded) ∧
            (n.retryPolicy.limit ≤ n.retryCount ∨ ¬ (coversFailure st.continueOn n.exitCode log ∧ st.continueOn.markSuccess)) ∨
          n.status = .succeeded ∧ coversFailure st.continueOn n.exitCode log ∧ st.continueOn.markSuccess) := by
  have hunretried : unretriedStatus st n log = .succeeded ↔
      coversFailure st.continueOn n.exitCode log ∧ st.continueOn.markSuccess := by simp [unretriedStatus]
  have hfailed : unretriedStatus st n log ≠ .succeeded → unretriedStatus st n log = .failed := by simp [unretriedStatus]
  rw [← hunretried]
  by_cases hstatus : n.status = .succeeded ∨ n.status = .aborted ∨ n.status = .partiallySucceeded
  · -- The execution has reported a status of its own.
    have hleft : goroutineStep cfg st false ⟨.handleError (some e), {n with continueOnCache := none}, l⟩ (.elapsed false) =
        some ⟨.afterError (some e), {n with continueOnCache := none}, l⟩ := if_pos hstatus
    refine ⟨_, (handle_step 6 (by simp) hleft).trans rfl, rfl, ?_⟩
    by_cases hsucceeded : unretriedStatus st n log = .succeeded
    · simp [hstatus, hsucceeded]
    have hne : n.status ≠ .failed := by
      rintro hn
      simp [hn] at hstatus
    simp [hstatus, hfailed hsucceeded, hne]
  have hown : n.status ≠ .succeeded := fun hn => hstatus (.inl hn)
  have hplain : handleNodeExecutionError cfg st code log 7 ⟨.handleError (some e), {n with continueOnCache := none}, l⟩ =
      handleNodeExecutionError cfg st code log 6 ⟨.checkCanceled e, {n with continueOnCache := none}, l⟩ :=
    handle_plain 6 hdeadline hstatus
  rw [hplain]
  by_cases hlimit : (n.retryCount : ℤ) < n.retryPolicy.limit
  · have hrefused : n.retryPolicy.shouldRetry code = false := by simpa [hlimit] using hnot
    refine ⟨_, handle_refused hlimit hrefused, rfl, ?_⟩
    by_cases hsucceeded : unretriedStatus st n log = .succeeded
    · simp [hsucceeded, hown, not_le.mpr hlimit, Node.markError]
    · simp [hfailed hsucceeded, hstatus, Node.markError]
  · obtain ⟨v, hv, hpc, houtcome⟩ := handle_exhausted (n := {n with continueOnCache := none}) hlimit rfl
    exact ⟨v, hv, hpc, iff_of_true houtcome (.inl ⟨hstatus, .inl (not_lt.mp hlimit)⟩)⟩

end

def tolerant : Step := { name := "notify", continueOn := {failure := true, markSuccess := true} }

def exitOne : Err := {text := "exit status 1"}

theorem unretried_status_iff_tolerant :
    ∃ v, handleNodeExecutionError {} tolerant 1 .absent 7 ⟨.handleError (some exitOne), {status := .running}, none⟩ = some v ∧
      v.pc = .afterError (some exitOne) ∧ v.node.status = .succeeded := by
  have hnot : ¬ ((0 : ℤ) < 0 ∧ RetryPolicy.shouldRetry {} 1) := by decide
  obtain ⟨v, hv, hpc, hiff⟩ := unretried_status_iff (n := {status := .running}) (show exitOne.deadline = false from rfl) hnot
  exact ⟨v, hv, hpc, hiff.mpr (by decide)⟩

/-- With a retry policy for another exit code the same failure is not marked as a success. -/
theorem unretried_status_of_policy : ∃ v, handleNodeExecutionError {} tolerant 1 .absent 7
        ⟨.handleError (some exitOne), {status := .running, retryPolicy := {limit := 1, exitCodes := [42]}}, none⟩ = some v ∧
      v.pc = .afterError (some exitOne) ∧ v.node.status = .failed ∧
      unretriedStatus tolerant {status := .running, retryPolicy := {limit := 1, exitCodes := [42]}} .absent = .succeeded :=
  ⟨_, rfl, rfl, rfl, by decide⟩

/-! The moves of a node goroutine as an inductive relation, one constructor per branch
of `goroutineStep`. Facts about goroutines are proved by cases on a move. -/

/-- The statuses on which `handleNodeExecutionError` leaves a failed execution alone. -/
def leftAlone (s : NodeStatus) : Bool := s = .succeeded || s = .aborted || s = .partiallySucceeded

variable (cfg : Config) (st : Step) (canceled : Bool) in
inductive Move : View → GEvent → View → Prop
  | prepared {n l policy} : Move ⟨.prepareNode, n, l⟩ (.prepared policy)
        ⟨.meetsPreconditions, if cfg.dry then n else {n with retryPolicy := policy}, l⟩
  | prepareFailed {n l e} : Move ⟨.prepareNode, n, l⟩ (.prepareFailed e) ⟨.prepareSetLastError e, n, l⟩
  | prepareSetLastError {n l e} : Move ⟨.prepareSetLastError e, n, l⟩ .next ⟨.prepareMarkError e, n, some e⟩
  | prepareMarkError {n l e} : Move ⟨.prepareMarkError e, n, l⟩ .next ⟨.prepareSetFailed, n.markError e, l⟩
  | prepareSetFailed {n l} : Move ⟨.prepareSetFailed, n, l⟩ .next ⟨.sendDone none, n.setStatus .failed, l⟩
  | preconditionsMet {n l} : Move ⟨.meetsPreconditions, n, l⟩ .preconditionsMet ⟨.loopHead, n, l⟩
  | preconditionsUnmet {n l e} (configured : st.preconditions) :
      Move ⟨.meetsPreconditions, n, l⟩ (.preconditionsUnmet e) ⟨.setSkipped e, n, l⟩
  | setSkipped {n l e} :
      Move ⟨.setSkipped e, n, l⟩ .next ⟨.sendDone none, {n with status := .skipped, err := e.or n.err}, l⟩
  | leaveLoop {n l} (isCanceled : canceled) : Move ⟨.loopHead, n, l⟩ .next ⟨.finalStatus, n, l⟩
  | enterLoop {n l} (notCanceled : canceled = false) : Move ⟨.loopHead, n, l⟩ .next ⟨.setupExecutor, n, l⟩
  | dryRun {n l} (dry : cfg.dry) : Move ⟨.setupExecutor, n, l⟩ .next ⟨.handleError none, n, l⟩
  | executorReady {n l} : Move ⟨.setupExecutor, n, l⟩ .executorReady ⟨.runCommand, resetForExecution n, l⟩
  | executorFailed {n l e wrapped} : Move ⟨.setupExecutor, n, l⟩ (.executorFailed e wrapped)
        ⟨.handleError (some e), {resetForExecution n with err := some wrapped}, l⟩
  | commandDone {n l} : Move ⟨.runCommand, n, l⟩ .commandDone ⟨.setExitCode none 0, n, l⟩
  | commandFailed {n l e code} : Move ⟨.runCommand, n, l⟩ (.commandFailed e code)
        ⟨.setExitCode (some e) code, {n with err := some e}, l⟩
  | commandTimedOut {n l e} (configured : st.timeout) (deadline : e.deadline) :
      Move ⟨.runCommand, n, l⟩ (.commandTimedOut e) ⟨.handleTimeout e, n, l⟩
  | handleTimeout {n l e} : Move ⟨.handleTimeout e, n, l⟩ .next
        ⟨.setExitCode (some e) 124, {n with err := some e, status := .failed}, l⟩
  | setExitCode {n l e code} :
      Move ⟨.setExitCode e code, n, l⟩ .next ⟨.captureOutput, {n with err := e, exitCode := code}, l⟩
  | outputCaptured {n l} : Move ⟨.captureOutput, n, l⟩ .outputCaptured ⟨.determineNodeStatus, n, l⟩
  | captureFailed {n l e} : Move ⟨.captureOutput, n, l⟩ (.captureFailed e) ⟨.handleError (some e), n, l⟩
  | validationFailed {n l e} (succeeded : n.err = none) : Move ⟨.captureOutput, n, l⟩ (.validationFailed e)
        ⟨.handleError (some e), {n with exitCode := 1, err := some e}, l⟩
  | notDetermined {n l} : Move ⟨.determineNodeStatus, n, l⟩ .notDetermined ⟨.handleError n.err, n, l⟩
  | determined {n l s} (allowed : reportable s) :
      Move ⟨.determineNodeStatus, n, l⟩ (.determined s) ⟨.handleError n.err, n.setStatus s, l⟩
  | determineFailed {n l e} :
      Move ⟨.determineNodeStatus, n, l⟩ (.determineFailed e) ⟨.handleError (n.err.or (some e)), n, l⟩
  | noError {n l} : Move ⟨.handleError none, n, l⟩ .next ⟨.afterError none, n, l⟩
  | errorLeft {n l e b} (status : leftAlone n.status) :
      Move ⟨.handleError (some e), n, l⟩ (.elapsed b) ⟨.afterError (some e), n, l⟩
  | stepTimedOut {n l e b} (status : leftAlone n.status = false) (deadline : e.deadline)
      (configured : st.timeout) : Move ⟨.handleError (some e), n, l⟩ (.elapsed b) ⟨.setTimedOut e, n, l⟩
  | errorDeadline {n l e b} (status : leftAlone n.status = false) (deadline : e.deadline)
      (notStep : st.timeout = false) : Move ⟨.handleError (some e), n, l⟩ (.elapsed b) ⟨.setTimeoutAborted e, n, l⟩
  | errorTimeout {n l e} (status : leftAlone n.status = false) (deadline : e.deadline = false)
      (configured : cfg.timeout) : Move ⟨.handleError (some e), n, l⟩ (.elapsed true) ⟨.setTimeoutAborted e, n, l⟩
  | errorPlain {n l e b} (status : leftAlone n.status = false) (deadline : e.deadline = false) :
      Move ⟨.handleError (some e), n, l⟩ (.elapsed b) ⟨.checkCanceled e, n, l⟩
  | setTimedOut {n l e} : Move ⟨.setTimedOut e, n, l⟩ .next ⟨.setLastError e, n.setStatus .failed, l⟩
  | setTimeoutAborted {n l e} : Move ⟨.setTimeoutAborted e, n, l⟩ .next ⟨.setLastError e, n.setStatus .aborted, l⟩
  | errorCanceled {n l e code} (isCanceled : canceled) :
      Move ⟨.checkCanceled e, n, l⟩ (.exitStatus code) ⟨.setLastError e, n, l⟩
  | retryExternally {n l e code} (notCanceled : canceled = false) (ext : cfg.externalStepRetry) :
      Move ⟨.checkCanceled e, n, l⟩ (.exitStatus code) ⟨.setRetrying e, {n with retryCount := n.retryCount+1}, l⟩
  | retryInline {n l e code} (notCanceled : canceled = false) : Move ⟨.checkCanceled e, n, l⟩ (.exitStatus code)
        ⟨.setRetryRunning, {n with retryCount := n.retryCount+1}, l⟩
  | notRetried {n l e code} (notCanceled : canceled = false) :
      Move ⟨.checkCanceled e, n, l⟩ (.exitStatus code) ⟨.setNotRetried e, n, l⟩
  | retriesUsed {n l e code} (notCanceled : canceled = false) :
      Move ⟨.checkCanceled e, n, l⟩ (.exitStatus code) ⟨.setFailed e, n, l⟩
  | setNotRetried {n l e} : Move ⟨.setNotRetried e, n, l⟩ .next ⟨.markError e, n.setStatus .failed, l⟩
  | setRetrying {n l e} : Move ⟨.setRetrying e, n, l⟩ .next ⟨.afterError (some e), n.setStatus .retrying, l⟩
  | setRetryRunning {n l} : Move ⟨.setRetryRunning, n, l⟩ .next ⟨.loopHead, n.setStatus .running, l⟩
  | setFailed {n l e} : Move ⟨.setFailed e, n, l⟩ .next ⟨.askMarkSuccess e, n.setStatus .failed, l⟩
  | markSuccess {n l e log} (answer : (shouldMarkSuccess st.continueOn n log).1) :
      Move ⟨.askMarkSuccess e, n, l⟩ (.logScanned log) ⟨.setMarkedSuccess e, (shouldMarkSuccess st.continueOn n log).2, l⟩
  | notMarkSuccess {n l e log} (answer : (shouldMarkSuccess st.continueOn n log).1 = false) :
      Move ⟨.askMarkSuccess e, n, l⟩ (.logScanned log) ⟨.markError e, (shouldMarkSuccess st.continueOn n log).2, l⟩
  | setMarkedSuccess {n l e} : Move ⟨.setMarkedSuccess e, n, l⟩ .next ⟨.afterError (some e), n.setStatus .succeeded, l⟩
  | markError {n l e} : Move ⟨.markError e, n, l⟩ .next ⟨.setLastError e, n.markError e, l⟩
  | setLastError {n l e} : Move ⟨.setLastError e, n, l⟩ .next ⟨.afterError (some e), n, some e⟩
  | retryPending {n l execErr met} (status : n.status = .retrying) :
      Move ⟨.afterError execErr, n, l⟩ (.conditionEvaluated met) ⟨.sendDone none, n, l⟩
  | attempted {n l execErr met again d} (status : n.status ≠ .retrying) :
      Move ⟨.afterError execErr, n, l⟩ (.conditionEvaluated met) ⟨.checkRepeat again execErr, {n with doneCount := d}, l⟩
  | repeats {n l execErr} (notCanceled : canceled = false) :
      Move ⟨.checkRepeat true execErr, n, l⟩ .next ⟨.setRepeatRunning, n, l⟩
  | returnOnError {n l again e} (progress : cfg.progressCh) :
      Move ⟨.checkRepeat again (some e), n, l⟩ .next ⟨.sendDone none, n, l⟩
  | breakLoop {n l again execErr} (quiet : execErr = none ∨ cfg.progressCh = false) :
      Move ⟨.checkRepeat again execErr, n, l⟩ .next ⟨.finalStatus, n, l⟩
  | setRepeatRunning {n l} : Move ⟨.setRepeatRunning, n, l⟩ .next ⟨.compareLastError, n.setStatus .running, l⟩
  | sameLastError {n l} (same : l = n.err) : Move ⟨.compareLastError, n, l⟩ .next ⟨.clearLastError, n, l⟩
  | otherLastError {n l} (other : l ≠ n.err) : Move ⟨.compareLastError, n, l⟩ .next ⟨.loopHead, n, l⟩
  | clearLastError {n l} : Move ⟨.clearLastError, n, l⟩ .next ⟨.loopHead, n, none⟩
  | stillRunning {n l} (status : n.status = .running) : Move ⟨.finalStatus, n, l⟩ .next ⟨.chooseFinal, n, l⟩
  | notRunning {n l} (status : n.status ≠ .running) : Move ⟨.finalStatus, n, l⟩ .next ⟨.checkApproval, n, l⟩
  | finalAborted {n l} (kind : st.isRepetitive = false) (isCanceled : canceled) :
      Move ⟨.chooseFinal, n, l⟩ .next ⟨.setAborted, n, l⟩
  | finalReview {n l} (configured : st.approval) : Move ⟨.chooseFinal, n, l⟩ .next ⟨.setForReview, n, l⟩
  | finalSucceeded {n l} (none : st.approval = false) : Move ⟨.chooseFinal, n, l⟩ .next ⟨.setSucceeded, n, l⟩
  | setAborted {n l} : Move ⟨.setAborted, n, l⟩ .next ⟨.checkApproval, n.setStatus .aborted, l⟩
  | setForReview {n l} : Move ⟨.setForReview, n, l⟩ .next ⟨.checkApproval, n.setStatus .waiting, l⟩
  | setSucceeded {n l} : Move ⟨.setSucceeded, n, l⟩ .next ⟨.checkApproval, n.setStatus .succeeded, l⟩
  | approvalNeeded {n l} (status : n.status = .succeeded) (configured : st.approval) :
      Move ⟨.checkApproval, n, l⟩ .next ⟨.setWaiting, n, l⟩
  | noApproval {n l} (none : ¬(n.status = .succeeded ∧ st.approval)) :
      Move ⟨.checkApproval, n, l⟩ .next ⟨.teardownNode, n, l⟩
  | setWaiting {n l} : Move ⟨.setWaiting, n, l⟩ .next ⟨.teardownNode, n.setStatus .waiting, l⟩
  | tornDown {n l} : Move ⟨.teardownNode, n, l⟩ .tornDown ⟨.sendDone none, n, l⟩
  | teardownFailed {n l e} :
      Move ⟨.teardownNode, n, l⟩ (.teardownFailed e) ⟨.teardownSetLastError e, {n with err := some e}, l⟩
  | teardownSetLastError {n l e} : Move ⟨.teardownSetLastError e, n, l⟩ .next ⟨.teardownSetFailed, n, some e⟩
  | teardownSetFailed {n l} : Move ⟨.teardownSetFailed, n, l⟩ .next ⟨.sendDone none, n.setStatus .failed, l⟩
  | sendDone {n l panicked} : Move ⟨.sendDone panicked, n, l⟩ .next ⟨.recoverNodePanic panicked, n, l⟩
  | noPanic {n l} : Move ⟨.recoverNodePanic none, n, l⟩ .next ⟨.finishNode, n, l⟩
  | recoverPanic {n l e} : Move ⟨.recoverNodePanic (some e), n, l⟩ .next ⟨.panicSetLastError e, n.markError e, l⟩
  | panicSetLastError {n l e} : Move ⟨.panicSetLastError e, n, l⟩ .next ⟨.finishNode, n, some e⟩
  | finishNode {n l} : Move ⟨.finishNode, n, l⟩ .next ⟨.exited, n, l⟩
  | panic {pc n l e} (body : pc.inBody) : Move ⟨pc, n, l⟩ (.panic e) ⟨.sendDone (some e), n, l⟩

section
variable {cfg : Config} {st : Step} {canceled : Bool} {v w : View} {ev : GEvent}

/-- A step that only waits for its turn is enabled by `next` alone. -/
lemma next_of_ite {a} (h : (if ev = .next then some a else none) = some w) : ev = .next ∧ w = a := by
  split_ifs at h with he
  cases h
  exact ⟨he, rfl⟩

variable {l e : Option Err}

lemma move_of_handleError {n} (h : bodyStep cfg st canceled ⟨.handleError e, n, l⟩ ev = some w) :
    Move cfg st canceled ⟨.handleError e, n, l⟩ ev w := by
  cases e with
  | none => obtain ⟨rfl, rfl⟩ := next_of_ite h; exact .noError
  | some e =>
    unfold bodyStep at h
    cases ev <;> simp only [reduceCtorEq] at h
    rename_i b
    split at h
    · next hs => cases h; exact .errorLeft (by simpa [leftAlone, or_assoc] using hs)
    next hs =>
    have hs : leftAlone n.status = false := by simpa [leftAlone, and_assoc] using hs
    split at h
    · next hd =>
      cases h
      split_ifs with ht
      · exact .stepTimedOut hs hd ht
      · exact .errorDeadline hs hd (by simpa using ht)
    next hd =>
    have hd : e.deadline = false := by simpa using hd
    split_ifs at h with ht <;> cases h
    · obtain ⟨rfl, hc⟩ : b ∧ cfg.timeout := by simpa using ht
      exact .errorTimeout hs hd hc
    · exact .errorPlain hs hd

lemma move_of_checkCanceled {n e} (h : bodyStep cfg st canceled ⟨.checkCanceled e, n, l⟩ ev = some w) :
    Move cfg st canceled ⟨.checkCanceled e, n, l⟩ ev w := by
  unfold bodyStep at h
  cases ev <;> simp only [reduceCtorEq] at h
  split_ifs at h with hc hl hr hx <;> cases h
  · exact .errorCanceled hc
  · exact .retryExternally (by simpa using hc) hx
  · exact .retryInline (by simpa using hc)
  · exact .notRetried (by simpa using hc)
  · exact .retriesUsed (by simpa using hc)

lemma move_of_checkRepeat {n again} (h : bodyStep cfg st canceled ⟨.checkRepeat again e, n, l⟩ ev = some w) :
    Move cfg st canceled ⟨.checkRepeat again e, n, l⟩ ev w := by
  unfold bodyStep at h
  dsimp only at h
  split_ifs at h with he ha hp <;> cases h <;> cases he
  · obtain ⟨rfl, hc⟩ : again ∧ canceled = false := by simpa using ha
    exact .repeats hc
  · obtain ⟨e, rfl⟩ := Option.ne_none_iff_exists'.mp hp.1
    exact .returnOnError hp.2
  · refine .breakLoop ?_
    cases e <;> simp_all

lemma move_of_bodyStep (h : bodyStep cfg st canceled v ev = some w) : Move cfg st canceled v ev w := by
  obtain ⟨pc, n, l⟩ := v
  cases pc
  case handleError e => exact move_of_handleError h
  case checkCanceled e => exact move_of_checkCanceled h
  case checkRepeat again e => exact move_of_checkRepeat h
  all_goals unfold bodyStep at h; dsimp only at h
  -- steps with an event of their own
  case prepareNode =>
    cases ev <;> simp only [reduceCtorEq] at h
    · cases h; exact .prepared
    · split_ifs at h; cases h; exact .prepareFailed
  case meetsPreconditions =>
    cases ev <;> simp only [reduceCtorEq] at h
    · cases h; exact .preconditionsMet
    · split_ifs at h with hp; cases h; exact .preconditionsUnmet hp
  case setupExecutor =>
    cases ev <;> simp only [reduceCtorEq] at h <;> split_ifs at h with hd <;> cases h
    · exact .dryRun hd
    · exact .executorReady
    · exact .executorFailed
  case runCommand =>
    cases ev <;> simp only [reduceCtorEq] at h
    · cases h; exact .commandDone
    · cases h; exact .commandFailed
    · split_ifs at h with ht
      obtain ⟨ht, hd⟩ := Bool.and_eq_true_iff.mp ht
      cases h; exact .commandTimedOut ht hd
  case captureOutput =>
    cases ev <;> simp only [reduceCtorEq] at h
    · cases h; exact .outputCaptured
    · cases h; exact .captureFailed
    · split_ifs at h with hn; cases h; exact .validationFailed hn
  case determineNodeStatus =>
    cases ev <;> simp only [reduceCtorEq] at h
    · cases h; exact .notDetermined
    · split_ifs at h with hr; cases h; exact .determined hr
    · cases h; exact .determineFailed
  case askMarkSuccess e =>
    cases ev <;> simp only [reduceCtorEq] at h
    cases h
    split_ifs with ha
    · exact .markSuccess ha
    · exact .notMarkSuccess (by simpa using ha)
  case afterError e =>
    cases ev <;> simp only [reduceCtorEq] at h
    split_ifs at h with hr ha <;> cases h
    · exact .retryPending hr
    · exact .attempted hr
    · exact .attempted hr
  case teardownNode =>
    cases ev <;> simp only [reduceCtorEq] at h
    · cases h; exact .tornDown
    · split_ifs at h; cases h; exact .teardownFailed
  -- steps that branch on what they read
  case loopHead =>
    obtain ⟨rfl, rfl⟩ := next_of_ite h
    cases canceled
    · exact .enterLoop rfl
    · exact .leaveLoop rfl
  case compareLastError =>
    obtain ⟨rfl, rfl⟩ := next_of_ite h
    split_ifs with hs
    · exact .sameLastError hs
    · exact .otherLastError hs
  case finalStatus =>
    obtain ⟨rfl, rfl⟩ := next_of_ite h
    split_ifs with hs
    · exact .stillRunning hs
    · exact .notRunning hs
  case chooseFinal =>
    obtain ⟨rfl, rfl⟩ := next_of_ite h
    unfold finalWrite
    split_ifs with hc ha
    · obtain ⟨hk, hc⟩ : st.isRepetitive = false ∧ canceled := by simpa using hc
      exact .finalAborted hk hc
    · exact .finalReview ha
    · exact .finalSucceeded (by simpa using ha)
  case checkApproval =>
    obtain ⟨rfl, rfl⟩ := next_of_ite h
    split_ifs with hs
    · obtain ⟨hs, ha⟩ : n.status = .succeeded ∧ st.approval := by simpa using hs
      exact .approvalNeeded hs ha
    · exact .noApproval (by simpa using hs)
  case recoverNodePanic panicked =>
    cases panicked <;> obtain ⟨rfl, rfl⟩ := next_of_ite h
    · exact .noPanic
    · exact .recoverPanic
  case exited => cases h
  all_goals obtain ⟨rfl, rfl⟩ := next_of_ite h; constructor

lemma move_of_goroutineStep (h : goroutineStep cfg st canceled v ev = some w) : Move cfg st canceled v ev w := by
  unfold goroutineStep at h
  split at h
  · split_ifs at h with hb
    cases h
    exact .panic hb
  · exact move_of_bodyStep h

end
end Ayatsuri.Runner
