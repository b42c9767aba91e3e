import Ayatsuri.PlanBuild
import Ayatsuri.RunnerGoroutine

/-! Verdicts read off the node statuses: the queries of `internal/runtime/plan.go` and
`Runner.Status` with its helpers (`internal/runtime/runner.go`). -/
namespace Ayatsuri.Runner

/-- The statuses `CheckFinished` waits for. -/
def unfinished (s : NodeStatus) : Bool := s = .running || s = .retrying || s = .notStarted

/-- The statuses `isReady` acts on; on the others it answers no and leaves the node alone. -/
def decided : NodeStatus → Bool
  | .succeeded | .partiallySucceeded | .failed | .skipped | .aborted | .rejected => true
  | .notStarted | .running | .retrying | .waiting => false

structure PlanNodeStates where
  hasRunning : Bool := false
  hasRetrying : Bool := false
  hasWaiting : Bool := false
  hasNotStarted : Bool := false
  hasRejected : Bool := false
  deriving DecidableEq

def PlanNodeStates.note (w : PlanNodeStates) (s : NodeStatus) : PlanNodeStates :=
  match s with
  | .running => {w with hasRunning := true}
  | .retrying => {w with hasRetrying := true}
  | .waiting => {w with hasWaiting := true}
  | .notStarted => {w with hasNotStarted := true}
  | .rejected => {w with hasRejected := true}
  | .succeeded | .failed | .aborted | .skipped | .partiallySucceeded => w

section
variable (cfg : Config) (p : Plan) (data : ℕ → Node)

def nodeStates : PlanNodeStates := p.nodes.foldl (fun w n => w.note (data n).status) {}

def checkFinished : Bool := p.nodes.all fun n => !unfinished (data n).status

/-- `IsRunning`, the condition of the wait loop in `Signal`. -/
def isRunning (finished : Bool) : Bool :=
  p.nodes.any fun n => (data n).status = .running || (data n).status = .retrying ||
    ((data n).status = .notStarted && !finished)

def isSucceed : Bool :=
  p.nodes.all fun n => (data n).status = .succeeded || (data n).status = .skipped ||
    (data n).status = .partiallySucceeded

/-- Answers of the log scans during one call of `Status`, one per node and call site. -/
structure LogAnswers where
  firstPass : ℕ → LogAnswer := fun _ => .absent
  secondPass : ℕ → LogAnswer := fun _ => .absent
  markSuccess : ℕ → LogAnswer := fun _ => .absent

def failuresTolerated (logs : LogAnswers) : List ℕ → (ℕ → Node) → Bool × (ℕ → Node)
  | [], data => (true, data)
  | n::ns, data =>
    if (data n).status = .failed then
      let r := shouldContinue (p.step n).continueOn (data n) (logs.firstPass n)
      let data := Function.update data n r.2
      if r.1 then failuresTolerated logs ns data else (false, data)
    else failuresTolerated logs ns data

structure PartialScan where
  successful : Bool := false
  tolerated : Bool := false
  data : ℕ → Node

variable (logs : LogAnswers)

/-- The second pass looks for successes and for failures that were continued without
being marked as success. -/
def scanPartial (w : PartialScan) (n : ℕ) : PartialScan :=
  match (w.data n).status with
  | .succeeded => {w with successful := true}
  | .failed =>
    let r := shouldContinue (p.step n).continueOn (w.data n) (logs.secondPass n)
    if r.1 then
      let m := shouldMarkSuccess (p.step n).continueOn r.2 (logs.markSuccess n)
      {w with tolerated := w.tolerated || !m.1, data := Function.update w.data n m.2}
    else {w with data := Function.update w.data n r.2}
  | .partiallySucceeded => {w with successful := true, tolerated := true}
  | _ => w

def isPartialSuccess (data : ℕ → Node) : Bool × (ℕ → Node) :=
  let first := failuresTolerated p logs p.nodes data
  if first.1 then
    let w := p.nodes.foldl (scanPartial p logs) {data := first.2}
    (w.successful && w.tolerated, w.data)
  else (false, first.2)

/-- `Runner.Status`. A plan carries its start time from its construction on, so the
`IsStarted` test never fails. -/
def status (data : ℕ → Node) (canceled : Bool) (lastError : Option Err) (finished : Bool) : Status × (ℕ → Node) :=
  let states := nodeStates p data
  if canceled && !isSucceed p data then (.aborted, data)
  else if states.hasRunning then (.running, data)
  else if states.hasRetrying then (.queued, data)
  else if states.hasRejected then (.rejected, data)
  else if states.hasWaiting then (.waiting, data)
  else if states.hasNotStarted && !finished then (.running, data)
  else match cfg.forcedStatus with
    | some forced => (forced, data)
    | none =>
      let partialSuccess := isPartialSuccess p logs data
      if partialSuccess.1 then (.partiallySucceeded, partialSuccess.2)
      else if lastError ≠ none then (.failed, partialSuccess.2)
      else (.succeeded, partialSuccess.2)

/-! `Runner.Run` as a system of interleaved actors: the event loop, one goroutine per
started node, and the deliveries of `Signal` and `Cancel`. The loop is the only sender
and the only receiver of `readyCh`. Delays and progress messages have no effect here. -/

open Function

/-- Where `isReady` was called from. -/
inductive Resume
  | scan (rest : List ℕ)
  | propagate (children queue : List ℕ)
  deriving DecidableEq

inductive LoopPc
  -- before the loop
  | evalConditions
  | cancelNodes (rest : List ℕ)
  | initHandler | runInit
  | initSetLastError (e : Err)
  | initSetCanceled
  | scan (rest : List ℕ)
  -- isReady and the send that follows it
  | isReady (child : ℕ) (deps : List ℕ) (k : Resume)
  | shouldContinue (child dep : ℕ) (read : NodeStatus) (deps : List ℕ) (k : Resume)
  | setBlocked (child : ℕ) (s : NodeStatus) (e : Option Err) (k : Resume)
  | notReady (child : ℕ) (k : Resume)
  | sendReady (child : ℕ) (k : Resume)
  -- processCompletedNode
  | nodeDone (n : ℕ)
  | propagate (children queue : List ℕ)
  -- one turn of the loop
  | checkFinished (rest : List ℕ)
  | checkCanceled | chooseReady
  | nodeStates (active : Bool) (rest : List ℕ) (seen : PlanNodeStates)
  | checkStuck (active : Bool) (rest : List ℕ)
  | setDeadlock
  | select (active : Bool)
  | startNode (n : ℕ)
  -- after the loop
  | wait | drained
  | handlers (rest : List HandlerType)
  | waitHandler | returned
  deriving DecidableEq

def Resume.pc : Resume → LoopPc
  | .scan rest => .scan rest
  | .propagate children queue => .propagate children queue

/-- A running call of `Signal` or `Cancel`: the nodes still to be visited, and the node
whose status was read as running and is about to be overwritten. -/
structure Delivery where
  skipsRepeating : Bool
  rest : List ℕ
  pending : Option ℕ := none
  deriving DecidableEq

structure State where
  data : ℕ → Node
  gor : ℕ → Option GPc := fun _ => none
  loop : LoopPc := .evalConditions
  readyCh : List ℕ := []
  doneCh : List ℕ := []
  running : ℤ := 0
  canceled : Bool := false
  lastError : Option Err := none
  ctxDone : Bool := false
  finished : Bool := false
  deliveries : List Delivery := []

inductive LoopEvent
  | next
  | conditions (met : Bool)
  | handled (err : Option Err)
  | logScanned (log : LogAnswer)
  | takeReady | takeDone
  | ctxDone (deadline : Bool)
  | status (logs : LogAnswers)

inductive Label
  | loop (ev : LoopEvent)
  | node (n : ℕ) (ev : GEvent)
  | signal (isTermination : Bool)
  | cancel
  | deliver (i : ℕ)

namespace State
variable (s : State)

@[simps]
def goto (pc : LoopPc) : State := {s with loop := pc}

variable (n : ℕ)

@[simps gor loop readyCh doneCh running canceled lastError finished deliveries]
def setNode (d : Node) : State := {s with data := update s.data n d}

def statusOf : NodeStatus := (s.data n).status

/-- Mark node `n` as running and start its goroutine. -/
@[simps loop readyCh doneCh running canceled lastError finished deliveries]
def spawn : State :=
  { s.setNode n ((s.data n).setStatus .running) with
    gor := update s.gor n (some .prepareNode)
    running := s.running+1}

/-- The state after a step of the goroutine of node `n` from `pc` to the view `v`. -/
@[simps loop readyCh doneCh running canceled lastError finished deliveries]
def afterNode (pc : GPc) (v : View) : State :=
  {s with
    data := update s.data n v.node
    gor := update s.gor n (some v.pc)
    lastError := v.lastError
    doneCh := if pc.sendsDone then s.doneCh++[n] else s.doneCh}

@[simp] lemma statusOf_goto (pc : LoopPc) (m : ℕ) : (s.goto pc).statusOf m = s.statusOf m := rfl

@[simp] lemma statusOf_setNode (n m : ℕ) (d : Node) :
    (s.setNode n d).statusOf m = if m = n then d.status else s.statusOf m := by
  simp only [statusOf, setNode, update_apply, apply_ite Node.status]

@[simp] lemma statusOf_spawn (n m : ℕ) : (s.spawn n).statusOf m = if m = n then .running else s.statusOf m :=
  s.statusOf_setNode n m _

@[simp] lemma gor_spawn (n m : ℕ) : (s.spawn n).gor m = if m = n then some .prepareNode else s.gor m := by
  simp only [spawn, update_apply]

@[simp] lemma statusOf_afterNode (n m : ℕ) (pc : GPc) (v : View) :
    (s.afterNode n pc v).statusOf m = if m = n then v.node.status else s.statusOf m := by
  simp only [statusOf, afterNode, update_apply, apply_ite Node.status]

@[simp] lemma gor_afterNode (n m : ℕ) (pc : GPc) (v : View) :
    (s.afterNode n pc v).gor m = if m = n then some v.pc else s.gor m := by simp only [afterNode, update_apply]

end State

/-- The handlers `Run` triggers on a final status; `waiting` and `queued` return early. -/
def eventHandlers : Status → List HandlerType
  | .succeeded | .partiallySucceeded => [.onSuccess, .onExit]
  | .failed | .rejected => [.onFailure, .onExit]
  | .aborted => [.onAbort, .onExit]
  | .notStarted | .running | .queued | .waiting => [.onExit]

def afterStatus : Status → LoopPc
  | .waiting => .waitHandler
  | .queued => .handlers []
  | s => .handlers (eventHandlers s)

/-- What `isReady` does after reading the status of one dependency. -/
def readDependency (child dep : ℕ) (read : NodeStatus) (deps : List ℕ) (k : Resume) : LoopPc :=
  match read with
  | .succeeded | .partiallySucceeded => .isReady child deps k
  | .failed | .skipped => .shouldContinue child dep read deps k
  | .aborted => .setBlocked child .aborted none k
  | .rejected => .setBlocked child .aborted (some errUpstreamRejected) k
  | .notStarted | .running | .retrying | .waiting => .notReady child k

def blockedBy (child : ℕ) (read : NodeStatus) (k : Resume) : LoopPc :=
  if read = .failed then .setBlocked child .aborted (some errUpstreamFailed) k
  else .setBlocked child .skipped (some errUpstreamSkipped) k

section
variable (cfg : Config) (p : Plan) (s : State) (ev : LoopEvent)

def setupStep : Option State :=
  match s.loop, ev with
  | .evalConditions, .conditions met =>
    if met then some (s.goto .initHandler)
    else some {s with canceled := true, loop := .cancelNodes p.nodes}
  | .cancelNodes [], .next => some (s.goto .initHandler)
  | .cancelNodes (n::rest), .next =>
    if s.statusOf n = .running then
      some ((s.setNode n ((s.data n).setStatus .aborted)).goto (.cancelNodes rest))
    else some (s.goto (.cancelNodes rest))
  | .initHandler, .next =>
    if !s.canceled && cfg.handlers .onInit then some (s.goto .runInit)
    else some (s.goto (.scan p.nodes))
  | .runInit, .handled none => some (s.goto (.scan p.nodes))
  | .runInit, .handled (some e) =>
    if cfg.dry then none else some (s.goto (.initSetLastError e))
  | .initSetLastError e, .next => some {s with lastError := some e, loop := .initSetCanceled}
  | .initSetCanceled, .next => some {s with canceled := true, loop := .scan p.nodes}
  | _, _ => none

/-- The initial scan, `isReady` and `processCompletedNode`. -/
def evaluateStep : Option State :=
  match s.loop, ev with
  | .scan [], .next => some (s.goto (.checkFinished p.nodes))
  | .scan (n::rest), .next =>
    if s.statusOf n = .notStarted then some (s.goto (.isReady n (p.dependencies n) (.scan rest)))
    else some (s.goto (.scan rest))
  | .isReady child [] k, .next => some (s.goto (.sendReady child k))
  | .isReady child (d::deps) k, .next => some (s.goto (readDependency child d (s.statusOf d) deps k))
  | .shouldContinue child d read deps k, .logScanned log =>
    -- the status is read again inside ShouldContinue
    let r := shouldContinue (p.step d).continueOn (s.data d) log
    some ((s.setNode d r.2).goto (if r.1 then .isReady child deps k else blockedBy child read k))
  | .setBlocked child st e k, .next =>
    some ((s.setNode child {s.data child with status := st, err := e.or (s.data child).err}).goto (.notReady child k))
  | .notReady _ (.scan rest), .next => some (s.goto (.scan rest))
  | .notReady child (.propagate children queue), .next =>
    some (s.goto (.propagate children (if s.statusOf child = .notStarted then queue else queue++[child])))
  | .sendReady child k, .next =>
    if s.readyCh.length < p.size then
      some {s with readyCh := s.readyCh++[child], loop := k.pc}
    else none
  | .nodeDone n, .next =>
    if s.canceled then some (s.goto (.checkFinished p.nodes))
    else some (s.goto (.propagate [] [n]))
  | .propagate (c::cs) queue, .next =>
    if s.statusOf c = .notStarted then
      some (s.goto (.isReady c (p.dependencies c) (.propagate cs queue)))
    else some (s.goto (.propagate cs queue))
  | .propagate [] (n::queue), .next => some (s.goto (.propagate (p.dependents n) queue))
  | .propagate [] [], .next => some (s.goto (.checkFinished p.nodes))
  | _, _ => none

/-- Whether the loop accepts new nodes: the choice of `activeReadyCh`. -/
def acceptsNodes : Bool := !s.canceled && (cfg.maxActiveRuns = 0 || s.running < cfg.maxActiveRuns)

/-- The checks between `NodeStates` and the `select`. -/
def afterNodeStates (active : Bool) (seen : PlanNodeStates) : LoopPc :=
  if s.running = 0 ∧ s.readyCh = [] ∧ seen.hasWaiting = true then .wait
  else if s.running = 0 ∧ s.readyCh = [] ∧ seen.hasRetrying = true then .wait
  else if s.running = 0 ∧ (active = true → s.readyCh = []) then .checkStuck active p.nodes
  else .select active

def turnStep : Option State :=
  match s.loop, ev with
  | .checkFinished [], .next => some (s.goto .wait)
  | .checkFinished (n::rest), .next =>
    some (s.goto (if unfinished (s.statusOf n) then .checkCanceled else .checkFinished rest))
  | .checkCanceled, .next => some (s.goto (if s.canceled ∧ s.running = 0 then .wait else .chooseReady))
  | .chooseReady, .next => some (s.goto (.nodeStates (acceptsNodes cfg s) p.nodes {}))
  | .nodeStates active (n::rest) seen, .next => some (s.goto (.nodeStates active rest (seen.note (s.statusOf n))))
  | .nodeStates active [] seen, .next => some (s.goto (afterNodeStates p s active seen))
  | .checkStuck active [], .next => some (s.goto (.select active))
  | .checkStuck active (n::rest), .next =>
    some (s.goto (if unfinished (s.statusOf n) then .setDeadlock else .checkStuck active rest))
  | .setDeadlock, .next => some {s with lastError := some errDeadlockDetected, loop := .wait}
  | .select true, .takeReady =>
    match s.readyCh with
    | [] => none
    | n::rest => some {s with readyCh := rest, loop := .startNode n}
  | .select _, .takeDone =>
    match s.doneCh with
    | [] => none
    | n::rest => some {s with doneCh := rest, running := s.running - 1, loop := .nodeDone n}
  | .select _, .ctxDone deadline =>
    if s.ctxDone then none
    else some {s with
      ctxDone := true
      lastError := if s.lastError = none ∧ deadline = true then some contextDeadlineExceeded
        else s.lastError
      loop := .checkFinished p.nodes}
  | .startNode n, .next =>
    -- nobody else writes the status of a node that has not started
    if s.statusOf n = .notStarted then
      some ((s.spawn n).goto (.checkFinished p.nodes))
    else some (s.goto (.checkFinished p.nodes))
  | _, _ => none

/-- All goroutines have left (`wg.Wait`). -/
def goroutinesDone : Bool := p.nodes.all fun n => s.gor n = none || s.gor n = some .exited

def finishStep : Option State :=
  match s.loop, ev with
  | .wait, .next => if goroutinesDone p s then some (s.goto .drained) else none
  | .drained, .status logs =>
    let r := status cfg p logs s.data s.canceled s.lastError s.finished
    some {s with data := r.2, loop := afterStatus r.1}
  | .handlers [], .next => some {s with finished := true, loop := .returned}
  | .handlers (h::rest), .handled err =>
    if cfg.handlers h && !cfg.dry then
      some {s with lastError := err.or s.lastError, loop := .handlers rest}
    else some (s.goto (.handlers rest))
  | .waitHandler, .handled _ => some {s with finished := true, loop := .returned}
  | _, _ => none

def loopStep : Option State :=
  match s.loop with
  | .evalConditions | .cancelNodes _ | .initHandler | .runInit | .initSetLastError _
  | .initSetCanceled => setupStep cfg p s ev
  | .scan _ | .isReady .. | .shouldContinue .. | .setBlocked .. | .notReady .. | .sendReady ..
  | .nodeDone _ | .propagate .. => evaluateStep p s ev
  | .checkFinished _ | .checkCanceled | .chooseReady | .nodeStates .. | .checkStuck ..
  | .setDeadlock | .select _ | .startNode _ => turnStep cfg p s ev
  | .wait | .drained | .handlers _ | .waitHandler | .returned => finishStep cfg p s ev

/-- A step of the goroutine of node `n`. The done message waits for room in `doneCh`. -/
def nodeStep (n : ℕ) (ev : GEvent) : Option State :=
  match s.gor n with
  | none => none
  | some pc =>
    if pc.sendsDone && p.size ≤ s.doneCh.length then none
    else (goroutineStep cfg (p.step n) s.canceled ⟨pc, s.data n, s.lastError⟩ ev).map (s.afterNode n pc)

/-- `Signal` and `Cancel` raise the flag first and then visit the nodes. -/
def startDelivery (skipsRepeating : Bool) : State :=
  {s with
    canceled := true
    deliveries := s.deliveries++[{skipsRepeating := skipsRepeating, rest := p.nodes}]}

def deliverStep (i : ℕ) : Option State :=
  match s.deliveries[i]? with
  | none => none
  | some g =>
    match g.pending, g.rest with
    | some n, _ =>
      some { s.setNode n ((s.data n).setStatus .aborted) with
        deliveries := s.deliveries.set i {g with pending := none}}
    | none, [] => none
    | none, n::rest =>
      let visits := !(g.skipsRepeating && (p.step n).isRepetitive)
      let found := if visits && s.statusOf n = .running then some n else none
      some {s with deliveries := s.deliveries.set i {g with rest := rest, pending := found}}

def step : Label → Option State
  | .loop ev => loopStep cfg p s ev
  | .node n ev => nodeStep cfg p s n ev
  | .signal isTermination => some (if isTermination then startDelivery p s true else s)
  | .cancel => some (startDelivery p s false)
  | .deliver i => deliverStep p s i

end

/-- The state in which `Run` is called on a plan with the given node states. -/
def start (data : ℕ → Node) : State := {data := data}

/-! Pieces of schedules for concrete runs: labels with their greatest numbers of repetitions. -/

variable (n : ℕ)

/-- Into the first execution of node `n`. -/
def toCommand : List (Label × ℕ) :=
  [(.node n (.prepared {}), 1), (.node n .preconditionsMet, 1), (.node n .next, 1), (.node n .executorReady, 1)]

def commandSucceeds : List (Label × ℕ) :=
  [(.node n .commandDone, 1), (.node n .next, 1), (.node n .outputCaptured, 1),
   (.node n .notDetermined, 1), (.node n .next, 1), (.node n (.conditionEvaluated false), 1),
   (.node n .next, 5), (.node n .tornDown, 1), (.node n .next, 1)]

def succeeds : List (Label × ℕ) := toCommand n++commandSucceeds n

def commandFails (e : Err) : List (Label × ℕ) :=
  [(.node n (.commandFailed e 1), 1), (.node n .next, 1), (.node n .outputCaptured, 1),
   (.node n .notDetermined, 1), (.node n (.elapsed false), 1), (.node n (.exitStatus 1), 1)]

def handlesFailure : List (Label × ℕ) :=
  [(.node n .next, 1), (.node n (.logScanned .absent), 1), (.node n .next, 2), (.node n (.conditionEvaluated false), 1)]

def leaves : List (Label × ℕ) := [(.node n .next, 2)]

/-- From the call of `Run` to the first `select`. -/
def toSelect : List (Label × ℕ) := [(.loop (.conditions true), 1), (.loop .next, 100)]

/-- Take a ready node and return to the `select`. -/
def launch : List (Label × ℕ) := [(.loop .takeReady, 1), (.loop .next, 100)]

def collect : List (Label × ℕ) := [(.loop .takeDone, 1), (.loop .next, 100)]

/-- From the end of the loop to the return of `Run`. -/
def toReturn : List (Label × ℕ) := [(.loop .next, 1), (.loop (.status {}), 1), (.loop (.handled none), 2), (.loop .next, 1)]

end

/-! The moves of the event loop as an inductive relation, one constructor per branch of
`loopStep`, and the four kinds of move of the whole system. -/

variable (cfg : Config) (p : Plan) (s : State) in
inductive LoopMove : LoopEvent → State → Prop
  -- before the event loop
  | conditionsMet (pc : s.loop = .evalConditions) : LoopMove (.conditions true) (s.goto .initHandler)
  | conditionsUnmet (pc : s.loop = .evalConditions) :
      LoopMove (.conditions false) {s with canceled := true, loop := .cancelNodes p.nodes}
  | cancelDone (pc : s.loop = .cancelNodes []) : LoopMove .next (s.goto .initHandler)
  | cancelNode {n rest} (pc : s.loop = .cancelNodes (n::rest)) (status : s.statusOf n = .running) :
      LoopMove .next ((s.setNode n ((s.data n).setStatus .aborted)).goto (.cancelNodes rest))
  | cancelSkips {n rest} (pc : s.loop = .cancelNodes (n::rest)) : LoopMove .next (s.goto (.cancelNodes rest))
  | initRuns (pc : s.loop = .initHandler) : LoopMove .next (s.goto .runInit)
  | initSkipped (pc : s.loop = .initHandler) : LoopMove .next (s.goto (.scan p.nodes))
  | initDone (pc : s.loop = .runInit) : LoopMove (.handled none) (s.goto (.scan p.nodes))
  | initFailed {e} (pc : s.loop = .runInit) : LoopMove (.handled (some e)) (s.goto (.initSetLastError e))
  | initSetLastError {e} (pc : s.loop = .initSetLastError e) :
      LoopMove .next {s with lastError := some e, loop := .initSetCanceled}
  | initSetCanceled (pc : s.loop = .initSetCanceled) : LoopMove .next {s with canceled := true, loop := .scan p.nodes}
  -- evaluation of readiness
  | scanDone (pc : s.loop = .scan []) : LoopMove .next (s.goto (.checkFinished p.nodes))
  | scanEvaluates {n rest} (pc : s.loop = .scan (n::rest)) (status : s.statusOf n = .notStarted) :
      LoopMove .next (s.goto (.isReady n (p.dependencies n) (.scan rest)))
  | scanSkips {n rest} (pc : s.loop = .scan (n::rest)) (status : s.statusOf n ≠ .notStarted) :
      LoopMove .next (s.goto (.scan rest))
  | depsPassed {child k} (pc : s.loop = .isReady child [] k) : LoopMove .next (s.goto (.sendReady child k))
  | depSucceeded {child d deps k} (pc : s.loop = .isReady child (d::deps) k)
      (status : s.statusOf d = .succeeded ∨ s.statusOf d = .partiallySucceeded) :
      LoopMove .next (s.goto (.isReady child deps k))
  | depAsked {child d read deps k} (pc : s.loop = .isReady child (d::deps) k)
      (status : s.statusOf d = read) (kind : read = .failed ∨ read = .skipped) :
      LoopMove .next (s.goto (.shouldContinue child d read deps k))
  | depAborted {child d deps k e} (pc : s.loop = .isReady child (d::deps) k)
      (status : s.statusOf d = .aborted ∨ s.statusOf d = .rejected) :
      LoopMove .next (s.goto (.setBlocked child .aborted e k))
  | depOpen {child d deps k} (pc : s.loop = .isReady child (d::deps) k) (status : decided (s.statusOf d) = false) :
      LoopMove .next (s.goto (.notReady child k))
  | continues {child d read deps k log} (pc : s.loop = .shouldContinue child d read deps k)
      (answer : (shouldContinue (p.step d).continueOn (s.data d) log).1) : LoopMove (.logScanned log)
        ((s.setNode d (shouldContinue (p.step d).continueOn (s.data d) log).2).goto (.isReady child deps k))
  | blocks {child d read deps k log st e} (pc : s.loop = .shouldContinue child d read deps k)
      (answer : (shouldContinue (p.step d).continueOn (s.data d) log).1 = false)
      (kind : st = .aborted ∨ st = .skipped) : LoopMove (.logScanned log)
        ((s.setNode d (shouldContinue (p.step d).continueOn (s.data d) log).2).goto (.setBlocked child st e k))
  | setBlocked {child st e k} (pc : s.loop = .setBlocked child st e k) : LoopMove .next
        ((s.setNode child {s.data child with status := st, err := e.or (s.data child).err}).goto (.notReady child k))
  | scanResumes {child rest} (pc : s.loop = .notReady child (.scan rest)) : LoopMove .next (s.goto (.scan rest))
  | leavesChild {child children queue} (pc : s.loop = .notReady child (.propagate children queue))
      (status : s.statusOf child = .notStarted) : LoopMove .next (s.goto (.propagate children queue))
  | queuesChild {child children queue} (pc : s.loop = .notReady child (.propagate children queue))
      (status : s.statusOf child ≠ .notStarted) : LoopMove .next (s.goto (.propagate children (queue++[child])))
  | sendInScan {child rest} (pc : s.loop = .sendReady child (.scan rest)) (room : s.readyCh.length < p.size) :
      LoopMove .next {s with readyCh := s.readyCh++[child], loop := .scan rest}
  | sendInQueue {child children queue} (pc : s.loop = .sendReady child (.propagate children queue))
      (room : s.readyCh.length < p.size) :
      LoopMove .next {s with readyCh := s.readyCh++[child], loop := .propagate children queue}
  | doneCanceled {n} (pc : s.loop = .nodeDone n) (isCanceled : s.canceled) :
      LoopMove .next (s.goto (.checkFinished p.nodes))
  | donePropagates {n} (pc : s.loop = .nodeDone n) (notCanceled : s.canceled = false) :
      LoopMove .next (s.goto (.propagate [] [n]))
  | childEvaluated {c cs queue} (pc : s.loop = .propagate (c::cs) queue) (status : s.statusOf c = .notStarted) :
      LoopMove .next (s.goto (.isReady c (p.dependencies c) (.propagate cs queue)))
  | childSkipped {c cs queue} (pc : s.loop = .propagate (c::cs) queue) (status : s.statusOf c ≠ .notStarted) :
      LoopMove .next (s.goto (.propagate cs queue))
  | nextInQueue {n queue} (pc : s.loop = .propagate [] (n::queue)) :
      LoopMove .next (s.goto (.propagate (p.dependents n) queue))
  | queueEmpty (pc : s.loop = .propagate [] []) : LoopMove .next (s.goto (.checkFinished p.nodes))
  -- one turn of the loop
  | allFinished (pc : s.loop = .checkFinished []) : LoopMove .next (s.goto .wait)
  | foundUnfinished {n rest} (pc : s.loop = .checkFinished (n::rest)) : LoopMove .next (s.goto .checkCanceled)
  | foundFinished {n rest} (pc : s.loop = .checkFinished (n::rest)) (status : unfinished (s.statusOf n) = false) :
      LoopMove .next (s.goto (.checkFinished rest))
  | canceledBreak (pc : s.loop = .checkCanceled) (isCanceled : s.canceled) : LoopMove .next (s.goto .wait)
  | goesOn (pc : s.loop = .checkCanceled) : LoopMove .next (s.goto .chooseReady)
  | choosesReady (pc : s.loop = .chooseReady) : LoopMove .next (s.goto (.nodeStates (acceptsNodes cfg s) p.nodes {}))
  | notesState {active n rest seen} (pc : s.loop = .nodeStates active (n::rest) seen) :
      LoopMove .next (s.goto (.nodeStates active rest (seen.note (s.statusOf n))))
  | waitBreak {active seen} (pc : s.loop = .nodeStates active [] seen) (idle : s.running = 0 ∧ s.readyCh = [])
      (held : seen.hasWaiting ∨ seen.hasRetrying) : LoopMove .next (s.goto .wait)
  | looksStuck {active seen} (pc : s.loop = .nodeStates active [] seen)
      (idle : s.running = 0 ∧ (active → s.readyCh = []))
      (free : s.readyCh = [] → seen.hasWaiting = false ∧ seen.hasRetrying = false) :
      LoopMove .next (s.goto (.checkStuck active p.nodes))
  | selects {active seen} (pc : s.loop = .nodeStates active [] seen) : LoopMove .next (s.goto (.select active))
  | notStuck {active} (pc : s.loop = .checkStuck active []) : LoopMove .next (s.goto (.select active))
  | stuck {active n rest} (pc : s.loop = .checkStuck active (n::rest)) (status : unfinished (s.statusOf n)) :
      LoopMove .next (s.goto .setDeadlock)
  | stuckContinues {active n rest} (pc : s.loop = .checkStuck active (n::rest)) :
      LoopMove .next (s.goto (.checkStuck active rest))
  | setDeadlock (pc : s.loop = .setDeadlock) :
      LoopMove .next {s with lastError := some errDeadlockDetected, loop := .wait}
  | takeReady {n rest} (pc : s.loop = .select true) (head : s.readyCh = n::rest) :
      LoopMove .takeReady {s with readyCh := rest, loop := .startNode n}
  | takeDone {active n rest} (pc : s.loop = .select active) (head : s.doneCh = n::rest) :
      LoopMove .takeDone {s with doneCh := rest, running := s.running - 1, loop := .nodeDone n}
  | ctxDone {active deadline e} (pc : s.loop = .select active) (kept : s.lastError ≠ none → e ≠ none) :
      LoopMove (.ctxDone deadline) {s with ctxDone := true, lastError := e, loop := .checkFinished p.nodes}
  | startNode {n} (pc : s.loop = .startNode n) (status : s.statusOf n = .notStarted) :
      LoopMove .next ((s.spawn n).goto (.checkFinished p.nodes))
  | startSkipped {n} (pc : s.loop = .startNode n) (status : s.statusOf n ≠ .notStarted) :
      LoopMove .next (s.goto (.checkFinished p.nodes))
  -- after the event loop
  | allLeft (pc : s.loop = .wait) (left : goroutinesDone p s) : LoopMove .next (s.goto .drained)
  | statusWaits {logs} (pc : s.loop = .drained) : LoopMove (.status logs) {s with
          data := (status cfg p logs s.data s.canceled s.lastError s.finished).2, loop := .waitHandler}
  | statusHandlers {logs hs} (pc : s.loop = .drained) : LoopMove (.status logs) {s with
          data := (status cfg p logs s.data s.canceled s.lastError s.finished).2, loop := .handlers hs}
  | handlersDone (pc : s.loop = .handlers []) : LoopMove .next {s with finished := true, loop := .returned}
  | handlerRan {h rest err} (pc : s.loop = .handlers (h::rest)) :
      LoopMove (.handled err) {s with lastError := err.or s.lastError, loop := .handlers rest}
  | handlerSkipped {h rest err} (pc : s.loop = .handlers (h::rest)) : LoopMove (.handled err) (s.goto (.handlers rest))
  | waitHandled {err} (pc : s.loop = .waitHandler) :
      LoopMove (.handled err) {s with finished := true, loop := .returned}

section
variable {cfg : Config} {p : Plan} {s t : State} {ev : LoopEvent}

lemma loopMove_of_setupStep (h : setupStep cfg p s ev = some t) : LoopMove cfg p s ev t := by
  unfold setupStep at h
  split at h
  · next met pc =>
    cases met <;> cases h
    · exact .conditionsUnmet pc
    · exact .conditionsMet pc
  · next pc => cases h; exact .cancelDone pc
  · next n rest pc =>
    split_ifs at h with hs <;> cases h
    · exact .cancelNode pc hs
    · exact .cancelSkips pc
  · next pc =>
    split_ifs at h <;> cases h
    · exact .initRuns pc
    · exact .initSkipped pc
  · next pc => cases h; exact .initDone pc
  · next e pc => split_ifs at h; cases h; exact .initFailed pc
  · next e pc => cases h; exact .initSetLastError pc
  · next pc => cases h; exact .initSetCanceled pc
  · cases h

lemma loopMove_of_evaluateStep (h : evaluateStep p s ev = some t) : LoopMove cfg p s ev t := by
  unfold evaluateStep at h
  split at h
  · next pc => cases h; exact .scanDone pc
  · next n rest pc =>
    split_ifs at h with hs <;> cases h
    · exact .scanEvaluates pc hs
    · exact .scanSkips pc hs
  · next child k pc => cases h; exact .depsPassed pc
  · next child d deps k pc =>
    cases h
    cases hd : s.statusOf d
    case succeeded | partiallySucceeded => exact .depSucceeded pc (by simp [hd])
    case failed | skipped => exact .depAsked pc hd (by simp)
    case aborted | rejected => exact .depAborted pc (by simp [hd])
    all_goals exact .depOpen pc (by simp [hd, decided])
  · next child d read deps k log pc =>
    cases h
    split_ifs with ha
    · exact .continues pc ha
    unfold blockedBy
    split_ifs
    · exact .blocks pc (by simpa using ha) (.inl rfl)
    · exact .blocks pc (by simpa using ha) (.inr rfl)
  · next child st e k pc => cases h; exact .setBlocked pc
  · next child rest pc => cases h; exact .scanResumes pc
  · next child children queue pc =>
    cases h
    split_ifs with hs
    · exact .leavesChild pc hs
    · exact .queuesChild pc hs
  · next child k pc =>
    split_ifs at h with hr
    cases h
    cases k with
    | scan rest => exact .sendInScan pc hr
    | propagate children queue => exact .sendInQueue pc hr
  · next n pc =>
    split_ifs at h with hc <;> cases h
    · exact .doneCanceled pc hc
    · exact .donePropagates pc (by simpa using hc)
  · next c cs queue pc =>
    split_ifs at h with hs <;> cases h
    · exact .childEvaluated pc hs
    · exact .childSkipped pc hs
  · next n queue pc => cases h; exact .nextInQueue pc
  · next pc => cases h; exact .queueEmpty pc
  · cases h

lemma loopMove_of_turnStep (h : turnStep cfg p s ev = some t) : LoopMove cfg p s ev t := by
  unfold turnStep at h
  split at h
  · next pc => cases h; exact .allFinished pc
  · next n rest pc =>
    cases h
    split_ifs with hu
    · exact .foundUnfinished pc
    · exact .foundFinished pc (by simpa using hu)
  · next pc =>
    cases h
    split_ifs with hc
    · exact .canceledBreak pc hc.1
    · exact .goesOn pc
  · next pc => cases h; exact .choosesReady pc
  · next active n rest seen pc => cases h; exact .notesState pc
  · next active seen pc =>
    cases h
    unfold afterNodeStates
    split_ifs with hw hr hi
    · exact .waitBreak pc ⟨hw.1, hw.2.1⟩ (.inl hw.2.2)
    · exact .waitBreak pc ⟨hr.1, hr.2.1⟩ (.inr hr.2.2)
    · refine .looksStuck pc hi fun he => ⟨?_, ?_⟩
      · simpa [hi.1, he] using hw
      · simpa [hi.1, he] using hr
    · exact .selects pc
  · next active pc => cases h; exact .notStuck pc
  · next active n rest pc =>
    cases h
    split_ifs with hu
    · exact .stuck pc hu
    · exact .stuckContinues pc
  · next pc => cases h; exact .setDeadlock pc
  · next pc =>
    split at h
    · cases h
    · next n rest hr => cases h; exact .takeReady pc hr
  · next active pc =>
    split at h
    · cases h
    · next n rest hr => cases h; exact .takeDone pc hr
  · next active deadline pc =>
    split at h
    · cases h
    cases h
    refine .ctxDone pc fun hl => ?_
    split_ifs with hd
    · simp
    · exact hl
  · next n pc =>
    split at h
    · next hs => cases h; exact .startNode pc hs
    · next hs => cases h; exact .startSkipped pc hs
  · cases h

lemma loopMove_of_finishStep (h : finishStep cfg p s ev = some t) : LoopMove cfg p s ev t := by
  unfold finishStep at h
  split at h
  · next pc =>
    split_ifs at h with hg
    cases h
    exact .allLeft pc hg
  · next logs pc =>
    cases h
    cases (status cfg p logs s.data s.canceled s.lastError s.finished).1
    case waiting => exact .statusWaits pc
    all_goals exact .statusHandlers pc
  · next pc => cases h; exact .handlersDone pc
  · next hd rest err pc =>
    split_ifs at h <;> cases h
    · exact .handlerRan pc
    · exact .handlerSkipped pc
  · next err pc => cases h; exact .waitHandled pc
  · cases h

lemma loopMove_of_loopStep (h : loopStep cfg p s ev = some t) : LoopMove cfg p s ev t := by
  unfold loopStep at h
  split at h
  all_goals first
    | exact loopMove_of_setupStep h
    | exact loopMove_of_evaluateStep h
    | exact loopMove_of_turnStep h
    | exact loopMove_of_finishStep h

end

variable (cfg : Config) (p : Plan) (s : State) in
inductive SysMove : Label → State → Prop
  | loop {ev t} (move : LoopMove cfg p s ev t) : SysMove (.loop ev) t
  | node {n ev pc v} (gor : s.gor n = some pc) (room : pc.sendsDone → s.doneCh.length < p.size)
      (move : Move cfg (p.step n) s.canceled ⟨pc, s.data n, s.lastError⟩ ev v) : SysMove (.node n ev) (s.afterNode n pc v)
  | ignoredSignal : SysMove (.signal false) s
  | signal : SysMove (.signal true) (startDelivery p s true)
  | cancel : SysMove .cancel (startDelivery p s false)
  | visits {i n rest found} {g : Delivery} (at_i : s.deliveries[i]? = some g)
      (todo : g.rest = n::rest) (free : g.pending = none)
      (read : found = none ∨ (found = some n ∧ s.statusOf n = .running)) :
      SysMove (.deliver i) {s with deliveries := s.deliveries.set i {g with rest := rest, pending := found}}
  | overwrites {i n} {g : Delivery} (at_i : s.deliveries[i]? = some g) (held : g.pending = some n) :
      SysMove (.deliver i) { s.setNode n ((s.data n).setStatus .aborted) with
          deliveries := s.deliveries.set i {g with pending := none}}

section
variable {cfg : Config} {p : Plan} {s t : State} {l : Label}

lemma sysMove_of_nodeStep {n ev} (h : nodeStep cfg p s n ev = some t) : SysMove cfg p s (.node n ev) t := by
  unfold nodeStep at h
  split at h
  · cases h
  next pc hg =>
  split_ifs at h with hr
  obtain ⟨v, hv, rfl⟩ := Option.map_eq_some_iff.mp h
  refine .node hg ?_ (move_of_goroutineStep hv)
  intro hd
  simpa [hd] using hr

lemma sysMove_of_deliverStep {i : ℕ} (h : deliverStep p s i = some t) : SysMove cfg p s (.deliver i) t := by
  unfold deliverStep at h
  split at h
  · cases h
  next g hi =>
  split at h
  · next n hp => cases h; exact .overwrites hi hp
  · cases h
  next n rest hp hr =>
  cases h
  refine .visits hi hr hp ?_
  split_ifs with hf
  · exact .inr ⟨rfl, by simp_all⟩
  · exact .inl rfl

lemma sysMove_of_step (h : step cfg p s l = some t) : SysMove cfg p s l t := by
  cases l with
  | loop ev => exact .loop (loopMove_of_loopStep h)
  | node n ev => exact sysMove_of_nodeStep h
  | signal isTermination =>
    cases isTermination <;> cases h
    · exact .ignoredSignal
    · exact .signal
  | cancel => cases h; exact .cancel
  | deliver i => exact sysMove_of_deliverStep h

end
end Ayatsuri.Runner
