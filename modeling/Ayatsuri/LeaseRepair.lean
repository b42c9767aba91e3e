import Ayatsuri.DispatchStore
import Ayatsuri.CoreStatus

/-! The repair of distributed attempts whose lease is lost (`detectStaleLeases` in
`internal/service/coordinator/handler.go`, with `internal/core/exec/distributed.go`): one pass over the
leases, the active-run records and the listed statuses, each of which may fail the latest attempt of a run.
A root run is found by its DAG name and ID, a sub-DAG run by its root and its ID. -/
namespace Ayatsuri.LeaseRepair
open Distributed
variable (ref : DAGRunRef)

def isZero : Bool := ref.name = "" && ref.id = ""

/-! ### Attempt keys -/

def fnv64a (bytes : List UInt8) : UInt64 :=
  bytes.foldl (fun h b => (h ^^^ b.toUInt64)*1099511628211) 14695981039346656037

def hexDigit (n : ℕ) : Char := ("0123456789abcdef".toList)[n % 16]?.getD '0'

def hexEncode (h : UInt64) : String := String.ofList ((List.range 16).map fun i => hexDigit (h.toNat / 16 ^ (15 - i)))

def generateAttemptKey (root dagRun : DAGRunRef) (attemptID : String) : String :=
  let hierarchy := root.name ++ "\x00" ++ root.id ++ "\x00" ++ dagRun.name ++ "\x00" ++ dagRun.id
  hexEncode (fnv64a (hierarchy.toList.flatMap String.utf8EncodeChar)) ++ ":" ++ attemptID

/-! ### Stored runs -/

structure Node where
  status : NodeStatus
  (finishedAt error : String)
  deriving DecidableEq

structure RunStatus where
  (root parent : DAGRunRef)
  (attemptID attemptKey workerID : String)
  status : Status
  (finishedAt error : String)
  nodes : List Node
  /-- `OnInit` to `OnWait`, those of them that there are. -/
  handlers : List Node
  deriving DecidableEq

structure StoredRun where
  ref : DAGRunRef
  under : Option DAGRunRef
  attemptID : String
  (today indexed : Bool)
  status : Option RunStatus
  deriving DecidableEq

structure ActiveDistributedRun where
  attemptKey : String
  (dagRun root : DAGRunRef)
  (attemptID workerID : String)
  status : Status
  updatedAt : ℤ
  deriving DecidableEq

structure State where
  runs : List StoredRun
  leases : Dir String DAGRunLease
  active : Dir String ActiveDistributedRun

variable (workerID : String)

def isRemoteWorkerID : Bool := workerID ≠ "" && workerID ≠ "local"

def isFresh (now staleThreshold : ℤ) (lease : DAGRunLease) : Bool :=
  if staleThreshold ≤ 0 ∨ lease.lastHeartbeatAt = 0 then false
  else now - lease.lastHeartbeatAt < staleThreshold

def attemptKeyForStatus (status : RunStatus) (fallbackAttemptID : String) : String :=
  if status.attemptKey ≠ "" then status.attemptKey
  else
    let attemptID := if status.attemptID = "" then fallbackAttemptID else status.attemptID
    if attemptID = "" then ""
    else if isZero status.root then
      if isZero status.parent then generateAttemptKey ref ref attemptID else ""
    else generateAttemptKey status.root ref attemptID

def leaseMatchesStatus (lease : Option DAGRunLease) (ref : DAGRunRef) (status : RunStatus)
    (fallbackAttemptID : String) (now staleThreshold : ℤ) : Bool :=
  match lease with
  | none => false
  | some lease =>
    let attemptKey := attemptKeyForStatus ref status fallbackAttemptID
    let attemptID := if status.attemptID = "" then fallbackAttemptID else status.attemptID
    isFresh now staleThreshold lease && !(attemptKey ≠ "" && lease.attemptKey ≠ attemptKey) &&
      !(attemptID ≠ "" && lease.attemptID ≠ "" && lease.attemptID ≠ attemptID) &&
      !(ref.id ≠ "" && lease.dagRun ≠ ref) &&
      !(!isZero status.root && !isZero lease.root && lease.root ≠ status.root) &&
      !(status.workerID ≠ "" && lease.workerID ≠ "" && lease.workerID ≠ status.workerID)

def distributedLeaseExpiredReason : String :=
  "distributed run lease expired: worker " ++ workerID ++
    " accepted the task claim but stopped reporting to the owner coordinator"

/-! ### Finding and failing an attempt -/

inductive Failure
  | dagRunIDNotFound | noStatusData | other
  deriving DecidableEq

structure Clock where
  now : ℤ
  text : String
  staleThreshold : ℤ
  deriving DecidableEq

namespace State
variable (s : State)

def latest (p : StoredRun → Bool) : Except Failure (StoredRun × RunStatus) :=
  match s.runs.find? p with
  | none => .error .dagRunIDNotFound
  | some run =>
    match run.status with
    | none => .error .noStatusData
    | some status => .ok (run, status)

variable (ref : DAGRunRef)

def findAttempt : Except Failure (StoredRun × RunStatus) :=
  if ref.id = "" then .error .other
  else s.latest fun run => run.under = none && run.ref = ref

def findSubAttempt (root : DAGRunRef) (id : String) : Except Failure (StoredRun × RunStatus) :=
  if root.id = "" then .error .other
  else s.latest fun run => run.under = some root && run.ref.id = id

def resolveLatestAttempt (dagRun root : DAGRunRef) : Except Failure (StoredRun × RunStatus) :=
  if root.id ≠ "" ∧ root.id ≠ dagRun.id then
    if root.name = "" then .error .other else s.findSubAttempt root dagRun.id
  else s.findAttempt dagRun

def setStatus (status : RunStatus) : State :=
  {s with
    runs := s.runs.map fun run =>
      if run.under = none ∧ run.ref = ref then {run with status := some status} else run}

def compareAndSwapLatestAttemptStatus (expectedAttemptID : String)
    (expectedStatus : Status) (mutate : RunStatus → RunStatus) : Except Failure (State × RunStatus × Bool) := do
  let (_, status) ← s.findAttempt ref
  if expectedAttemptID ≠ "" ∧ status.attemptID ≠ expectedAttemptID then return (s, status, false)
  if status.status ≠ expectedStatus then return (s, status, false)
  return (s.setStatus ref (mutate status), mutate status, true)

def deleteDistributedTracking (attemptKey : String) : State :=
  if attemptKey = "" then s
  else {s with leases := s.leases.remove attemptKey, active := s.active.remove attemptKey}

end State

def failNode (finishedAt reason : String) (node : Node) : Node :=
  match node.status with
  | .running | .notStarted | .retrying | .waiting => ⟨.failed, finishedAt, reason⟩
  | .failed | .aborted | .succeeded | .skipped | .partiallySucceeded | .rejected => node

/-- The `mutate` of `failDistributedAttemptIfCurrent`, which does not come to the handlers. -/
def failStatus (finishedAt reason : String) (status : RunStatus) : RunStatus :=
  {status with
    status := .failed
    finishedAt := finishedAt
    error := reason
    nodes := status.nodes.map (failNode finishedAt reason)}

namespace State

def swapFirst (s : State) (ref : DAGRunRef) (attemptID : String) (mutate : RunStatus → RunStatus) :
    Option (RunStatus × Bool) → List Status → Except Failure (State × Option (RunStatus × Bool))
  | seen, [] => .ok (s, seen)
  | _, expected::rest => do
    let (t, status, swapped) ← s.compareAndSwapLatestAttemptStatus ref attemptID expected mutate
    if swapped || status.attemptID ≠ attemptID || status.status = expected then
      return (t, some (status, swapped))
    t.swapFirst ref attemptID mutate (some (status, swapped)) rest

variable (s : State) (text : String)

def failDistributedAttemptIfCurrent (dagRun : DAGRunRef)
    (attemptID attemptKey reason : String) (expectedStatuses : List Status) : State :=
  if attemptID = "" then s
  else
    match s.swapFirst dagRun attemptID (failStatus text reason) none expectedStatuses with
    | .error _ => s
    | .ok (t, none) => t.deleteDistributedTracking attemptKey
    | .ok (t, some (status, swapped)) =>
      if status.attemptID ≠ attemptID || (!status.status.isActive && status.status ≠ .notStarted) then
        t.deleteDistributedTracking attemptKey
      else if !swapped then t
      else t.deleteDistributedTracking attemptKey

def markLeaseRunFailed (lease : DAGRunLease) : State :=
  s.failDistributedAttemptIfCurrent text lease.dagRun lease.attemptID lease.attemptKey
    (distributedLeaseExpiredReason lease.workerID) [.running, .notStarted, .queued]

def markStatusLeaseRunFailed (ref : DAGRunRef) (status : RunStatus) (attemptID attemptKey : String) : State :=
  s.failDistributedAttemptIfCurrent text ref attemptID attemptKey
    (distributedLeaseExpiredReason status.workerID) [status.status]

/-! ### The active-run records -/

def upsertActiveDistributedRun (now : ℤ) (ref : DAGRunRef) (status : RunStatus) (fallbackAttemptID : String) : State :=
  let attemptKey := attemptKeyForStatus ref status fallbackAttemptID
  if attemptKey = "" then s
  else if !isRemoteWorkerID status.workerID then s
  else
    let attemptID := if status.attemptID = "" then fallbackAttemptID else status.attemptID
    {s with
      active := s.active.put attemptKey ⟨attemptKey, ref, status.root, attemptID, status.workerID, status.status, now⟩}

end State

def indexedDistributedRunMatchesStatus (record : ActiveDistributedRun) (ref : DAGRunRef) (status : RunStatus) : Bool :=
  let attemptKey := attemptKeyForStatus ref status record.attemptID
  let attemptID := if status.attemptID = "" then record.attemptID else status.attemptID
  isRemoteWorkerID status.workerID && (status.status = .running || status.status = .notStarted) &&
    attemptKey ≠ "" && attemptKey = record.attemptKey &&
    (record.attemptID = "" || attemptID = record.attemptID)

namespace State
variable (clock : Clock)

def checkIndexed (s : State) (record : ActiveDistributedRun) : State :=
  if record.attemptKey = "" then s
  else
    match s.resolveLatestAttempt record.dagRun record.root with
    | .error .other => s
    | .error _ => s.deleteDistributedTracking record.attemptKey
    | .ok (run, status) =>
      if !indexedDistributedRunMatchesStatus record run.ref status then
        s.deleteDistributedTracking record.attemptKey
      else if leaseMatchesStatus (s.leases.get? record.attemptKey) run.ref status record.attemptID clock.now
          clock.staleThreshold then
        s.upsertActiveDistributedRun clock.now run.ref status record.attemptID
      else s.markStatusLeaseRunFailed clock.text run.ref status record.attemptID record.attemptKey

def detectIndexedDistributedStatuses (s : State) : State := (s.active.entries.map Prod.snd).foldl (checkIndexed clock) s

/-! ### The listed statuses -/

end State

def RunStatus.summary (status : RunStatus) : RunStatus :=
  {status with root := ⟨"", ""⟩, attemptKey := "", nodes := [], handlers := [], error := ""}

def StoredRun.listed (run : StoredRun) (status : RunStatus) : RunStatus :=
  if run.indexed then status.summary else status

namespace State

/-- `ListStatuses` for Running and NotStarted, which lists the root runs of today. -/
def listStatuses (s : State) : List (DAGRunRef × RunStatus) :=
  s.runs.filterMap fun run =>
    if run.under = none ∧ run.today = true then
      run.status.bind fun status =>
        if status.status = .running ∨ status.status = .notStarted then some (run.ref, run.listed status)
        else none
    else none

def resolveAttemptIDForStatus (s : State) (ref : DAGRunRef) (status : RunStatus) : Except Failure String :=
  if status.attemptID ≠ "" then .ok status.attemptID
  else if !isZero status.root then (s.findSubAttempt status.root ref.id).map fun found => found.1.attemptID
  else (s.findAttempt ref).map fun found => found.1.attemptID

variable (clock : Clock)

def checkListed (s : State) (listed : DAGRunRef × RunStatus) : State :=
  let (ref, status) := listed
  if !isRemoteWorkerID status.workerID then s
  else
    match s.resolveAttemptIDForStatus ref status with
    | .error _ => s
    | .ok attemptID =>
      let attemptKey := attemptKeyForStatus ref status attemptID
      if attemptKey = "" then s
      else if leaseMatchesStatus (s.leases.get? attemptKey) ref status attemptID clock.now clock.staleThreshold then s
      else s.markStatusLeaseRunFailed clock.text ref status attemptID attemptKey

def detectOrphanedDistributedStatuses (s : State) : State := s.listStatuses.foldl (checkListed clock) s

/-! ### One pass -/

def checkLease (s : State) (lease : DAGRunLease) : State :=
  if isFresh clock.now clock.staleThreshold lease then s else s.markLeaseRunFailed clock.text lease

def detectStaleLeases (s : State) : State :=
  (((s.leases.entries.map Prod.snd).foldl (checkLease clock) s).detectIndexedDistributedStatuses
    clock).detectOrphanedDistributedStatuses clock

end State
end Ayatsuri.LeaseRepair
