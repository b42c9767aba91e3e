import Ayatsuri.DispatchStore
import Ayatsuri.TransitionSystem

/-! Coordinators and their workers on one dispatch directory: `Enqueue`, `ClaimNext` with the recycling of
expired claims (`internal/persis/filedistributed/dispatch_task_store.go`) and `AckTaskClaim`
(`internal/service/coordinator/handler.go`), as the sequences of file-system steps that they are. -/
namespace Ayatsuri.Distributed
open SortedMerge TransitionSystem

/-- The name of a file: that of a task or a claim, and what `os.CreateTemp` appends to it. -/
structure FileName where
  base : String
  temps : List String
  deriving DecidableEq

namespace FileName

def path (f : FileName) : String := f.temps.foldl (fun p suffix => p ++ ".tmp." ++ suffix) f.base

def temp (f : FileName) (suffix : String) : FileName := {f with temps := f.temps++[suffix]}

def ofTask (taskFileName : String) : FileName := ⟨taskFileName, []⟩

end FileName

/-- What has happened to a task: its `Enqueue` has begun, `ClaimNext` has returned it, `AckTaskClaim` was
answered with Accepted. -/
inductive Outcome
  | enqueue (taskFileName : String)
  | handedOut (taskFileName : String)
  | accepted (taskFileName : String)
  deriving DecidableEq

def Outcome.task : Outcome → String
  | .enqueue taskFileName | .handedOut taskFileName | .accepted taskFileName => taskFileName

/-- The next step of `writeJSONAtomic`; the suffix is that of the temporary file. -/
inductive Write
  | create
  | fill (suffix : String)
  | move (suffix : String)
  deriving DecidableEq

inductive Written
  | next (w : Write)
  | done | failed
  deriving DecidableEq

/-- What the environment answers to a step: whether the operation succeeds, whether a claim has expired,
and the random names. -/
structure Answer where
  (ok expired : Bool)
  (suffix claimToken : String)
  now : ℤ
  deriving DecidableEq

/-- A step of `writeJSONAtomic`. A temporary file is removed when a later step fails. -/
def Write.act {α : Type} (d : Dir FileName (File α)) (target : FileName) (value : α) (a : Answer) :
    Write → Option (Dir FileName (File α) × Written)
  | .create =>
    if a.ok then
      if target.temp a.suffix ∈ d.names then none
      else some (d.put (target.temp a.suffix) ⟨.fragment, a.now⟩, .next (.fill a.suffix))
    else some (d, .failed)
  | .fill suffix =>
    if a.ok then
      if target.temp suffix ∈ d.names then
        some (d.put (target.temp suffix) ⟨.whole value, a.now⟩, .next (.move suffix))
      else some (d, .next (.move suffix))
    else some (d.remove (target.temp suffix), .failed)
  | .move suffix =>
    match d.get? (target.temp suffix) with
    | none => some (d, .failed)
    | some f =>
      if a.ok then some ((d.remove (target.temp suffix)).put target f, .done)
      else some (d.remove (target.temp suffix), .failed)

/-- The next step of a call. The calls that count tasks recycle expired claims as `ClaimNext` does and have
no claim of their own. -/
inductive Pc
  | idle
  | lock (call : Option DispatchTaskClaim)
  | listClaims (call : Option DispatchTaskClaim)
  | recycle (call : Option DispatchTaskClaim) (files : List FileName)
  | rewrite (call : Option DispatchTaskClaim) (files : List FileName) (file : FileName) (r : DispatchTaskFile)
      (w : Write)
  | requeue (call : Option DispatchTaskClaim) (files : List FileName) (file : FileName) (r : DispatchTaskFile)
  | listPending (claim : DispatchTaskClaim)
  | search (claim : DispatchTaskClaim) (files : List FileName)
  | take (claim : DispatchTaskClaim) (files : List FileName) (file : FileName) (r : DispatchTaskFile) (task : Task)
  | stamp (claim : DispatchTaskClaim) (claimToken : String) (claimedAt : ℤ) (file : FileName)
      (r : DispatchTaskFile) (task : Task)
  | writeClaim (claim : DispatchTaskClaim) (claimToken : String) (claimedAt : ℤ) (file : FileName)
      (r : DispatchTaskFile) (task : Task) (w : Write)
  | giveBack (claimToken : String) (file : FileName)
  | getClaim (claimToken workerID : String)
  | upsertLease (claimToken : String) (r : DispatchTaskFile)
  | deleteClaim (claimToken : String) (r : DispatchTaskFile)
  | enqueue (record : DispatchTaskFile) (w : Write)
  deriving DecidableEq

def Pc.enqueued (record : DispatchTaskFile) : Written → Pc
  | .next w => .enqueue record w
  | .done | .failed => .idle

def Pc.waiting : Pc → Bool
  | .lock _ => true
  | _ => false

def Pc.locked : Pc → Bool
  | .listClaims _ | .recycle _ _ | .rewrite _ _ _ _ _ | .requeue _ _ _ _ | .listPending _ | .search _ _
  | .take _ _ _ _ _ | .stamp _ _ _ _ _ _ | .writeClaim _ _ _ _ _ _ _ | .giveBack _ _ => true
  | _ => false

structure Dispatch where
  (pending claims : Dir FileName (File DispatchTaskFile))
  log : List Outcome

namespace Dispatch
variable (encodeKey : String → String)

def claimFile (claimToken : String) : FileName := ⟨Store.claimPath encodeKey claimToken, []⟩

/-- `recycleExpiredClaims`: the next claim file is read. -/
def recycle (s : Dispatch) (a : Answer) (call : Option DispatchTaskClaim) : List FileName → Dispatch × Pc
  | [] =>
    match call with
    | none => (s, .idle)
    | some claim => (s, .listPending claim)
  | file::files =>
    match s.claims.get? file with
    | none => (s, .recycle call files)
    | some f =>
      match f.content with
      | .fragment => (s, .idle)
      | .whole r => if a.expired then (s, .rewrite call files file r .create) else (s, .recycle call files)

def rewrite (s : Dispatch) (a : Answer) (call : Option DispatchTaskClaim) (files : List FileName) (file : FileName)
    (r : DispatchTaskFile) (w : Write) : Option (Dispatch × Pc) :=
  (w.act s.claims file r.cleared a).map fun (claims, written) =>
    ({s with claims := claims}, match written with
      | .next w => .rewrite call files file r w
      | .done => .requeue call files file r
      | .failed => .idle)

variable (s : Dispatch) (a : Answer)

def requeue (call : Option DispatchTaskClaim) (files : List FileName) (file : FileName)
    (r : DispatchTaskFile) : Dispatch × Pc :=
  match s.claims.get? file with
  | none => (s, .recycle call files)
  | some f =>
    if a.ok then
      ({s with claims := s.claims.remove file, pending := s.pending.put (.ofTask r.taskFileName) f}, .recycle call files)
    else (s, .idle)

/-- `ClaimNext`: the next pending file is read. -/
def search (s : Dispatch) (claim : DispatchTaskClaim) : List FileName → Dispatch × Pc
  | [] => (s, .idle)
  | file::files =>
    match s.pending.get? file with
    | none => (s, .search claim files)
    | some f =>
      match f.content with
      | .fragment => (s, .idle)
      | .whole r =>
        match r.task with
        | none => (s, .search claim files)
        | some task =>
          if matchesSelector claim.labels task.workerSelector then (s, .take claim files file r task)
          else (s, .search claim files)

variable (claim : DispatchTaskClaim)

def take (files : List FileName) (file : FileName) (r : DispatchTaskFile) (task : Task) : Option (Dispatch × Pc) :=
  match s.pending.get? file with
  | none => some (s, .search claim files)
  | some f =>
    if a.ok then
      if claimFile encodeKey a.claimToken ∈ s.claims.names then none
      else some ({s with pending := s.pending.remove file, claims := s.claims.put (claimFile encodeKey a.claimToken) f},
        .stamp claim a.claimToken a.now file r task)
    else some (s, .idle)

def stamp (claimToken : String) (claimedAt : ℤ)
    (file : FileName) (r : DispatchTaskFile) (task : Task) : Dispatch × Pc :=
  if a.ok then
    let claims :=
      match s.claims.get? (claimFile encodeKey claimToken) with
      | none => s.claims
      | some f => s.claims.put (claimFile encodeKey claimToken) {f with modTime := claimedAt}
    match applyTaskClaim task claim.owner claimToken with
    | .error _ => ({s with claims := claims}, .giveBack claimToken file)
    | .ok _ => ({s with claims := claims}, .writeClaim claim claimToken claimedAt file r task .create)
  else (s, .giveBack claimToken file)

def writeClaim (s : Dispatch) (a : Answer) (claim : DispatchTaskClaim) (claimToken : String) (claimedAt : ℤ)
    (file : FileName) (r : DispatchTaskFile) (task : Task) (w : Write) : Option (Dispatch × Pc) :=
  let record := r.claimedBy task claim.workerID claim.pollerID claim.owner claimToken claimedAt
  (w.act s.claims (claimFile encodeKey claimToken) record a).map fun (claims, written) =>
    match written with
    | .next w => ({s with claims := claims}, .writeClaim claim claimToken claimedAt file r task w)
    | .done => ({s with claims := claims, log := .handedOut r.taskFileName::s.log}, .idle)
    | .failed => ({s with claims := claims}, .giveBack claimToken file)

def giveBack (claimToken : String) (file : FileName) : Dispatch × Pc :=
  match s.claims.get? (claimFile encodeKey claimToken) with
  | none => (s, .idle)
  | some f =>
    if a.ok then
      ({s with claims := s.claims.remove (claimFile encodeKey claimToken), pending := s.pending.put file f}, .idle)
    else (s, .idle)

/-- `GetClaim` and the checks of `AckTaskClaim`. -/
def getClaim (claimToken workerID : String) : Dispatch × Pc :=
  if claimToken = "" then (s, .idle)
  else
    match s.claims.get? (claimFile encodeKey claimToken) with
    | none => (s, .idle)
    | some f =>
      match f.content with
      | .fragment => (s, .idle)
      | .whole r =>
        if r.task = none ∨ r.claimToken = "" ∨ r.claimToken ≠ claimToken ∨ r.claimedAt = 0 then (s, .idle)
        else if r.workerID ≠ "" ∧ workerID ≠ "" ∧ r.workerID ≠ workerID then (s, .idle)
        else (s, .upsertLease claimToken r)

/-- `DeleteClaim`, which does not mind a missing file, and the answer. -/
def deleteClaim (claimToken : String) (r : DispatchTaskFile) : Dispatch × Pc :=
  if a.ok then
    ({s with claims := s.claims.remove (claimFile encodeKey claimToken), log := .accepted r.taskFileName::s.log}, .idle)
  else (s, .idle)

/-- `Enqueue`; the name of the task's file is a new one. -/
def enqueue (s : Dispatch) (a : Answer) (record : DispatchTaskFile) (w : Write) : Option (Dispatch × Pc) :=
  if w = .create ∧ .enqueue record.taskFileName ∈ s.log then none
  else (w.act s.pending (.ofTask record.taskFileName) record a).map fun (pending, written) =>
    ({s with pending := pending, log := if w = .create then .enqueue record.taskFileName::s.log else s.log},
      .enqueued record written)

def act : Pc → Option (Dispatch × Pc)
  | .idle => none
  | .lock call => some (s, .listClaims call)
  | .listClaims call => some (s, .recycle call (sortBy FileName.path s.claims.names))
  | .recycle call files => some (s.recycle a call files)
  | .rewrite call files file r w => s.rewrite a call files file r w
  | .requeue call files file r => some (s.requeue a call files file r)
  | .listPending claim => some (s, .search claim (sortBy FileName.path s.pending.names))
  | .search claim files => some (s.search claim files)
  | .take claim files file r task => s.take encodeKey a claim files file r task
  | .stamp claim claimToken claimedAt file r task => some (s.stamp encodeKey a claim claimToken claimedAt file r task)
  | .writeClaim claim claimToken claimedAt file r task w =>
    s.writeClaim encodeKey a claim claimToken claimedAt file r task w
  | .giveBack claimToken file => some (s.giveBack encodeKey a claimToken file)
  | .getClaim claimToken workerID => some (s.getClaim encodeKey claimToken workerID)
  | .upsertLease claimToken r => some (s, if a.ok then .deleteClaim claimToken r else .idle)
  | .deleteClaim claimToken r => some (s.deleteClaim encodeKey a claimToken r)
  | .enqueue record w => s.enqueue a record w

end Dispatch

/-! ### Processes -/

structure Thread where
  process : ℕ
  pc : Pc
  deriving DecidableEq

inductive Call
  | claimNext (claim : DispatchTaskClaim)
  /-- `CountOutstandingByQueue` and `HasOutstandingAttempt`, as far as they change anything. -/
  | snapshotOutstandingPaths
  | ackTaskClaim (claimToken workerID : String)
  | enqueue (fileName : String) (task : Task) (enqueuedAt : ℤ)
  deriving DecidableEq

def Call.pc : Call → Pc
  | .claimNext claim => .lock (some claim)
  | .snapshotOutstandingPaths => .lock none
  | .ackTaskClaim claimToken workerID => .getClaim claimToken workerID
  | .enqueue fileName task enqueuedAt => .enqueue ⟨some task, fileName, enqueuedAt, "", 0, "", "", ⟨"", "", 0⟩⟩ .create

structure Coordinators where
  dispatch : Dispatch
  threads : List Thread

namespace Coordinators
variable (encodeKey : String → String)

inductive Label
  | call (i : ℕ) (call : Call)
  | act (i : ℕ) (a : Answer)
  deriving DecidableEq

variable (s : Coordinators)

def mutexFree (process : ℕ) : Bool := s.threads.all fun x => !(decide (x.process = process) && x.pc.locked)

def step : Label → Option Coordinators
  | .call i call =>
    match s.threads[i]? with
    | some ⟨process, .idle⟩ => some {s with threads := s.threads.set i ⟨process, call.pc⟩}
    | _ => none
  | .act i a =>
    match s.threads[i]? with
    | none => none
    | some x =>
      if x.pc.waiting && !s.mutexFree x.process then none
      else (s.dispatch.act encodeKey a x.pc).map fun (dispatch, pc) => ⟨dispatch, s.threads.set i {x with pc := pc}⟩

end Coordinators
end Ayatsuri.Distributed
