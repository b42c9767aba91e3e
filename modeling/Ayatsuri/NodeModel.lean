import Ayatsuri.CoreStatus

/-! Steps and nodes (`internal/core/step.go`, `internal/runtime/data.go`,
`internal/runtime/node.go`): the configuration the runner consults and the mutable
state it keeps per node. Interval fields only delay a goroutine and are left out. -/
namespace Ayatsuri

/-- Errors are compared by identity; `deadline` is `errors.Is(err, context.DeadlineExceeded)`. -/
structure Err where
  text : String
  deadline : Bool := false
  deriving DecidableEq

def errUpstreamFailed : Err := {text := "upstream failed"}
def errUpstreamSkipped : Err := {text := "upstream skipped"}
def errUpstreamRejected : Err := {text := "upstream rejected"}
def errDeadlockDetected : Err := {text := "deadlock detected: no runnable nodes but DAG not finished"}
def contextDeadlineExceeded : Err := {text := "context deadline exceeded", deadline := true}

structure ContinueOn where
  failure : Bool := false
  skipped : Bool := false
  exitCode : List ℤ := []
  output : List String := []
  markSuccess : Bool := false
  deriving DecidableEq

structure RetryPolicy where
  limit : ℤ := 0
  exitCodes : List ℤ := []
  deriving DecidableEq

inductive RepeatMode
  | unset | whileMode | untilMode
  deriving DecidableEq

/-- `condition` records whether a condition object is configured. -/
structure RepeatPolicy where
  repeatMode : RepeatMode := .unset
  limit : ℤ := 0
  condition : Bool := false
  exitCode : List ℤ := []
  deriving DecidableEq

/-- `timeout`, `approval` and `preconditions` record whether these are configured. -/
structure Step where
  name : String
  depends : List String := []
  continueOn : ContinueOn := {}
  repeatPolicy : RepeatPolicy := {}
  approval : Bool := false
  timeout : Bool := false
  preconditions : Bool := false
  deriving DecidableEq, Inhabited

def Step.isRepetitive (s : Step) : Bool := s.repeatPolicy.repeatMode ≠ .unset

/-- `continueOnCache` is the output variable under which `ShouldContinue` keeps its answer. -/
structure Node where
  status : NodeStatus := .notStarted
  err : Option Err := none
  exitCode : ℤ := 0
  retryCount : ℕ := 0
  doneCount : ℕ := 0
  continueOnCache : Option Bool := none
  retryPolicy : RetryPolicy := {}
  deriving DecidableEq

instance : Inhabited Node := ⟨{}⟩

namespace Node
variable (n : Node) (s : NodeStatus)

def setStatus : Node := {n with status := s}

def markError (e : Err) : Node := {n with err := some e, status := .failed}

/-- `ClearState` drops the whole run state; the evaluated retry policy lives outside it. -/
def clearState : Node := {retryPolicy := n.retryPolicy}

@[simp] lemma setStatus_status : (n.setStatus s).status = s := rfl

@[simp] lemma markError_status (e : Err) : (n.markError e).status = .failed := rfl

@[simp] lemma clearState_status : n.clearState.status = .notStarted := rfl

end Node

inductive LogAnswer
  | found | absent | unreadable
  deriving DecidableEq

variable (c : ContinueOn) (n : Node) (log : LogAnswer)

/-- The part of `ShouldContinue` behind the status switch: a cached answer, the exit
code, then the log. An unreadable log is answered without being cached. -/
def outcomeContinues : Bool × Node :=
  match n.continueOnCache with
  | some v => (v, n)
  | none =>
    if n.exitCode ∈ c.exitCode then (true, {n with continueOnCache := some true})
    else if c.output = [] then (false, {n with continueOnCache := some false})
    else match log with
      | .unreadable => (false, n)
      | .found => (true, {n with continueOnCache := some true})
      | .absent => (false, {n with continueOnCache := some false})

def shouldContinue : Bool × Node :=
  match n.status with
  | .succeeded | .partiallySucceeded => (true, n)
  | .failed => if c.failure then (true, n) else outcomeContinues c n log
  | .skipped => (c.skipped, n)
  | .aborted | .rejected => (false, n)
  | .notStarted | .running | .retrying | .waiting => (false, n)

def shouldMarkSuccess : Bool × Node :=
  let r := shouldContinue c n log
  (r.1 && c.markSuccess, r.2)

lemma shouldContinue_frame : ∃ cache, (shouldContinue c n log).2 = {n with continueOnCache := cache} := by
  unfold shouldContinue
  split <;> try exact ⟨n.continueOnCache, rfl⟩
  split
  · exact ⟨n.continueOnCache, rfl⟩
  unfold outcomeContinues
  split
  · exact ⟨n.continueOnCache, rfl⟩
  split_ifs
  · exact ⟨some true, rfl⟩
  · exact ⟨some false, rfl⟩
  · cases log with
    | unreadable => exact ⟨n.continueOnCache, rfl⟩
    | found => exact ⟨some true, rfl⟩
    | absent => exact ⟨some false, rfl⟩

@[simp] lemma shouldContinue_status :
    (shouldContinue c n log).2.status = n.status := by
  obtain ⟨cache, h⟩ := shouldContinue_frame c n log
  rw [h]

@[simp] lemma shouldMarkSuccess_status :
    (shouldMarkSuccess c n log).2.status = n.status := shouldContinue_status c n log

def RetryPolicy.shouldRetry (p : RetryPolicy) (exitCode : ℤ) : Bool :=
  if p.exitCodes ≠ [] then exitCode ∈ p.exitCodes else exitCode ≠ 0

variable (rp : RepeatPolicy)

/-- `met` is the outcome of evaluating the repeat condition, where one is configured. -/
def evalWhileCondition (n : Node) (execErr : Option Err) (met : Bool) : Bool :=
  if rp.condition then met
  else if rp.exitCode ≠ [] then n.exitCode ∈ rp.exitCode
  else execErr = none

def evalUntilCondition (n : Node) (execErr : Option Err) (met : Bool) : Bool :=
  if rp.condition then !met
  else if rp.exitCode ≠ [] then n.exitCode ∉ rp.exitCode
  else execErr ≠ none

def shouldRepeatNode (n : Node) (execErr : Option Err) (met : Bool) : Bool :=
  if 0 < rp.limit ∧ rp.limit ≤ n.doneCount then false
  else match rp.repeatMode with
    | .whileMode => evalWhileCondition rp n execErr met
    | .untilMode => evalUntilCondition rp n execErr met
    | .unset => false

/-- What an executor that reports a node status of its own (`NodeStatusDeterminer`: `builtin/dag/dag.go` and `parallel.go`) answers
without an error. -/
def reportable (s : NodeStatus) : Bool := s = .succeeded || s = .partiallySucceeded || s = .waiting || s = .aborted

end Ayatsuri
