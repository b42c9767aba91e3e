import Ayatsuri.CoreStatus
import Ayatsuri.TransitionSystem

/-! One `Dispatch` of the coordinator client for a root run (`internal/service/coordinator/client.go`), the
requests it sends to coordinators that share their stores (`handler.go`), and the workers that claim and
acknowledge the tasks. A request whose answer the client does not get goes on all the same. -/
namespace Ayatsuri.ClientDispatch
open TransitionSystem

inductive Operation
  | start | retry
  deriving DecidableEq

structure Task where
  operation : Operation
  previousStatus : Option (Status × Option ℕ)
  deriving DecidableEq

variable (task : Task)

/-- The attempt ID of a queued run that is dispatched (`queueDispatchStatusForTask`). -/
def Task.queueDispatchStatus : Option (Option ℕ) :=
  match task.operation, task.previousStatus with
  | .retry, some (.queued, attemptID) => some attemptID
  | _, _ => none

/-! ### The stores -/

/-- The status file of an attempt: `Open` creates it, and it is empty until the first `Write`. -/
inductive StatusFile
  | absent | empty
  | holds (status : Status)
  deriving DecidableEq

structure Attempt where
  id : ℕ
  file : StatusFile
  deriving DecidableEq

inductive TaskState
  | pending | claimed | accepted
  deriving DecidableEq

structure Enqueued where
  (request attemptID : ℕ)
  state : TaskState
  deriving DecidableEq

structure Stores where
  present : Bool
  attempts : List Attempt
  tasks : List Enqueued
  deriving DecidableEq

inductive Workers
  | none | unmatched | matching
  deriving DecidableEq

structure Answer where
  ok : Bool
  workers : Workers
  deriving DecidableEq

/-- What `FindAttempt` returns. -/
inductive Found
  | attempt (id : ℕ)
  /-- `ErrDAGRunIDNotFound`. -/
  | notFound
  /-- `ErrNoStatusData`. -/
  | noStatusData | failed
  deriving DecidableEq

def Found.isAttempt : Found → Bool
  | .attempt _ => true
  | _ => false

namespace Stores
variable (s : Stores)

def findAttempt (a : Answer) : Found :=
  if !a.ok then .failed
  else if !s.present then .notFound
  else
    match s.attempts.find? fun x => x.file ≠ .absent with
    | none => .noStatusData
    | some x => .attempt x.id

variable (id : ℕ)

def fileOf : StatusFile :=
  match s.attempts.find? fun x => x.id = id with
  | none => .absent
  | some x => x.file

def setFile (file : StatusFile) : Stores :=
  {s with attempts := s.attempts.map fun x => if x.id = id then {x with file := file} else x}

/-- `Open` creates the status file if it is not there. -/
def openFile : Stores := if s.fileOf id = .absent then s.setFile id .empty else s

def newID : ℕ := s.attempts.foldr (fun x id => max (x.id+1) id) 0

def createAttempt : Stores := {s with present := true, attempts := ⟨s.newID, .absent⟩::s.attempts}

def setTask (n : ℕ) (state : TaskState) : Stores :=
  {s with tasks := s.tasks.modify n fun x => {x with state := state}}

end Stores

/-! ### The handler -/

inductive Code
  | failedPrecondition | unavailable | internal
  deriving DecidableEq

inductive Reply
  | ok
  | error (code : Code) (message : String)
  deriving DecidableEq

def staleQueueDispatchErrorPrefix : String := "stale queue dispatch"

def Reply.stale (reason : String) : Reply :=
  .error .failedPrecondition ("failed to prepare attempt: " ++ staleQueueDispatchErrorPrefix ++ ": " ++ reason)

def Reply.prepareFailed : Reply := .error .internal "failed to prepare attempt"

inductive Pc
  | listWorkers | lock | findAttempt
  | check (attemptID : Option ℕ) (found : Found)
  | readStatus (found : Found)
  | openExisting (id : ℕ)
  | createAttempt (found : Found)
  | openAttempt (id : ℕ)
  | writeInitialStatus (id : ℕ)
  | enqueue (id : ℕ) (newlyCreated : Bool)
  /-- `markPreparedAttemptDispatchFailed`. -/
  | markFailed (id : ℕ)
  | answered (reply : Reply)
  deriving DecidableEq

def Pc.locked : Pc → Bool
  | .findAttempt | .check _ _ | .readStatus _ | .openExisting _ | .createAttempt _ | .openAttempt _
  | .writeInitialStatus _ => true
  | _ => false

variable (s : Stores)

def checkQueued (a : Answer) (attemptID : Option ℕ) (found : Found) : Pc :=
  match attemptID, found with
  | none, _ => .answered (.stale "queued attempt ID is missing")
  | some _, .notFound | some _, .noStatusData => .answered (.stale "dag-run is no longer queued")
  | some _, .failed => .answered .prepareFailed
  | some attemptID, .attempt id =>
    if !a.ok then .answered .prepareFailed
    else
      match s.fileOf id with
      | .absent | .empty => .answered (.stale "dag-run is no longer queued")
      | .holds status =>
        if id ≠ attemptID then .answered (.stale "queued attempt was superseded")
        else if status ≠ .queued then .answered (.stale ("latest attempt is " ++ status.text))
        else .readStatus (.attempt id)

def readStatus (a : Answer) (found : Found) : Pc :=
  match found with
  | .attempt id => if a.ok && s.fileOf id = .holds .queued then .openExisting id else .createAttempt found
  | found => .createAttempt found

def createAttempt (s : Stores) (a : Answer) (task : Task) (found : Found) : Stores × Pc :=
  if !a.ok then (s, .answered .prepareFailed)
  else if task.operation = .retry ∨ found.isAttempt then
    if s.present then (s.createAttempt, .openAttempt s.newID) else (s, .answered .prepareFailed)
  else if s.present then (s, .answered .prepareFailed)
  else (s.createAttempt, .openAttempt s.newID)

def markFailed (a : Answer) (id : ℕ) : Stores :=
  if a.ok && (s.fileOf id = .holds .notStarted || s.fileOf id = .holds .queued) then s.setFile id (.holds .failed) else s

/-- A step of the request with number `k`. -/
def act (k : ℕ) (s : Stores) (a : Answer) : Pc → Option (Stores × Pc)
  | .listWorkers =>
    if !a.ok then some (s, .answered (.error .internal "failed to list workers"))
    else
      match a.workers with
      | .none => some (s, .answered (.error .unavailable "no available workers"))
      | .unmatched => some (s, .answered (.error .failedPrecondition "no workers match the required selector"))
      | .matching => some (s, .lock)
  -- The DAG definition is parsed.
  | .lock => some (s, if a.ok then .findAttempt else .answered .prepareFailed)
  | .findAttempt =>
    match task.queueDispatchStatus with
    | some attemptID => some (s, .check attemptID (s.findAttempt a))
    | none => some (s, .readStatus (s.findAttempt a))
  | .check attemptID found => some (s, checkQueued s a attemptID found)
  | .readStatus found => some (s, readStatus s a found)
  | .openExisting id =>
    if a.ok then some (s.openFile id, .enqueue id false) else some (s, .answered .prepareFailed)
  | .createAttempt found => some (createAttempt s a task found)
  | .openAttempt id =>
    if a.ok then some (s.openFile id, .writeInitialStatus id) else some (s, .answered .prepareFailed)
  | .writeInitialStatus id =>
    if a.ok then some (s.setFile id (.holds .notStarted), .enqueue id true) else some (s, .answered .prepareFailed)
  | .enqueue id newlyCreated =>
    if a.ok then some ({s with tasks := s.tasks++[⟨k, id, .pending⟩]}, .answered .ok)
    else some (s, if newlyCreated then .markFailed id else .answered (.error .internal "failed to enqueue task"))
  | .markFailed id => some (markFailed s a id, .answered (.error .internal "failed to enqueue task"))
  | .answered _ => none

/-! ### The client -/

inductive Client
  | ready
  | waiting (k : ℕ)
  | returned (ok : Bool)
  deriving DecidableEq

def Client.receive : Reply → Client
  | .ok => .returned true
  | .error .failedPrecondition _ => .returned false
  | .error _ _ => .ready

structure Request where
  coordinator : ℕ
  pc : Pc
  deriving DecidableEq

structure State where
  task : Task
  stores : Stores
  client : Client
  requests : List Request
  deriving DecidableEq

namespace State

inductive Label
  | send (coordinator : ℕ)
  | receive | lose | giveUp
  | act (k : ℕ) (a : Answer)
  | writeStatus (id : ℕ) (status : Status)
  | newAttempt
  /-- `ClaimNext`, the recycling of a claim, and `AckTaskClaim` with the answer Accepted. -/
  | claim (n : ℕ)
  | expire (n : ℕ)
  | acknowledge (n : ℕ)
  deriving DecidableEq

variable (s : State)

def mutexFree (coordinator : ℕ) : Bool := s.requests.all fun x => !(decide (x.coordinator = coordinator) && x.pc.locked)

def taskIs (n : ℕ) (state : TaskState) : Bool := s.stores.tasks[n]?.any fun x => x.state = state

def step : Label → Option State
  | .send coordinator =>
    match s.client with
    | .ready => some {s with
        client := .waiting s.requests.length
        requests := s.requests++[⟨coordinator, .listWorkers⟩]}
    | _ => none
  | .receive =>
    match s.client with
    | .waiting k =>
      match s.requests[k]? with
      | some ⟨_, .answered reply⟩ => some {s with client := .receive reply}
      | _ => none
    | _ => none
  | .lose =>
    match s.client with
    | .waiting _ => some {s with client := .ready}
    | _ => none
  | .giveUp =>
    match s.client with
    | .ready => some {s with client := .returned false}
    | _ => none
  | .act k a =>
    match s.requests[k]? with
    | none => none
    | some x =>
      if x.pc = .lock ∧ s.mutexFree x.coordinator = false then none
      else (ClientDispatch.act s.task k s.stores a x.pc).map fun (stores, pc) =>
        {s with stores := stores, requests := s.requests.set k {x with pc := pc}}
  | .writeStatus id status => some {s with stores := s.stores.setFile id (.holds status)}
  | .newAttempt => some {s with stores := s.stores.createAttempt}
  | .claim n => if s.taskIs n .pending then some {s with stores := s.stores.setTask n .claimed} else none
  | .expire n => if s.taskIs n .claimed then some {s with stores := s.stores.setTask n .pending} else none
  | .acknowledge n => if s.taskIs n .claimed then some {s with stores := s.stores.setTask n .accepted} else none

def accepted (s : State) : ℕ := s.stores.tasks.countP fun x => x.state = .accepted

/-- A `Dispatch` begins, whatever there is of the run. -/
def start (task : Task) (present : Bool) (attempts : List Attempt) : State := ⟨task, ⟨present, attempts, []⟩, .ready, []⟩

end State

/-! Which repetitions of a request are harmless. -/

open List

/-- The request has looked up the latest attempt and not been refused: it is going to enqueue its task, or
has done so. -/
def Pc.live : Pc → Bool
  | .readStatus _ | .openExisting _ | .createAttempt _ | .openAttempt _ | .writeInitialStatus _ | .enqueue _ _
  | .answered .ok => true
  | _ => false

def passes (s : Stores) : Pc → Bool
  | .findAttempt => task.queueDispatchStatus = none
  | .check attemptID (.attempt id) => attemptID = some id && s.fileOf id = .holds .queued
  | _ => false

section
variable {task : Task} {k : ℕ} {s t : Stores} {a : Answer} {pc pc' : Pc}

lemma checkQueued_live {attemptID found} (h : (checkQueued s a attemptID found).live) :
    ∃ id, attemptID = some id ∧ found = .attempt id ∧ s.fileOf id = .holds .queued := by
  cases attemptID with
  | none => cases h
  | some attemptID =>
    cases found with
    | notFound | noStatusData | failed => cases h
    | attempt id =>
      cases hok : a.ok with
      | false =>
        simp only [checkQueued, hok] at h
        cases h
      | true =>
        simp only [checkQueued, hok] at h
        cases hfile : s.fileOf id with
        | absent | empty =>
          simp only [hfile] at h
          cases h
        | holds status =>
          by_cases hid : id = attemptID
          · subst hid
            by_cases hstatus : status = .queued
            · exact ⟨id, rfl, rfl, by rw [hfile, hstatus]⟩
            · simp [hfile, hstatus, Pc.live, Reply.stale] at h
          · simp [hfile, hid, Pc.live, Reply.stale] at h

lemma live_of_act (h : act task k s a pc = some (t, pc')) (hlive : pc'.live) : pc.live ∨ passes task s pc := by
  cases pc with
  | listWorkers =>
    simp only [act] at h
    split_ifs at h
    · cases h
      cases hlive
    · cases hworkers : a.workers <;> simp only [hworkers] at h <;> cases h <;> cases hlive
  | lock =>
    simp only [act] at h
    split_ifs at h <;> cases h <;> cases hlive
  | findAttempt =>
    cases hqueue : task.queueDispatchStatus with
    | none => exact .inr (by simp [passes, hqueue])
    | some attemptID =>
      simp only [act, hqueue] at h
      cases h
      cases hlive
  | check attemptID found =>
    cases h
    obtain ⟨id, rfl, rfl, hfile⟩ := checkQueued_live hlive
    exact .inr (by simp [passes, hfile])
  | markFailed id =>
    cases h
    cases hlive
  | answered reply => cases h
  | readStatus | openExisting | createAttempt | openAttempt | writeInitialStatus | enqueue => exact .inl rfl

lemma tasks_of_act (h : act task k s a pc = some (t, pc')) : t.tasks = s.tasks ∧ pc ≠ .answered .ok ∨
      (∃ id, t.tasks = s.tasks++[⟨k, id, .pending⟩]) ∧ pc ≠ .answered .ok ∧ pc' = .answered .ok := by
  have hset : ∀ id file, (s.setFile id file).tasks = s.tasks := fun _ _ => rfl
  have hopen : ∀ id, (s.openFile id).tasks = s.tasks := by
    intro id
    unfold Stores.openFile
    split_ifs <;> rfl
  cases pc with
  | listWorkers =>
    simp only [act] at h
    split_ifs at h
    · cases h
      exact .inl ⟨rfl, by simp⟩
    · cases hworkers : a.workers <;> simp only [hworkers] at h <;> cases h <;> exact .inl ⟨rfl, by simp⟩
  | lock | check | readStatus =>
    cases h
    exact .inl ⟨rfl, by simp⟩
  | findAttempt =>
    simp only [act] at h
    cases hqueue : task.queueDispatchStatus <;> simp only [hqueue] at h <;> cases h <;> exact .inl ⟨rfl, by simp⟩
  | openExisting id | openAttempt id =>
    simp only [act] at h
    split_ifs at h <;> cases h
    · exact .inl ⟨hopen id, by simp⟩
    · exact .inl ⟨rfl, by simp⟩
  | createAttempt found =>
    simp only [act, createAttempt] at h
    split_ifs at h <;> cases h <;> exact .inl ⟨rfl, by simp⟩
  | writeInitialStatus id =>
    simp only [act] at h
    split_ifs at h <;> cases h
    · exact .inl ⟨hset id _, by simp⟩
    · exact .inl ⟨rfl, by simp⟩
  | enqueue id newlyCreated =>
    simp only [act] at h
    split_ifs at h <;> cases h
    · exact .inr ⟨⟨id, rfl⟩, by simp, rfl⟩
    · exact .inl ⟨rfl, by simp⟩
    · exact .inl ⟨rfl, by simp⟩
  | markFailed id =>
    cases h
    refine .inl ⟨?_, by simp⟩
    unfold markFailed
    split_ifs <;> rfl
  | answered reply => cases h

end

namespace State
variable {s t : State} {l : Label}

def Alone (s : State) : Label → Prop
  | .act k _ => ∀ x ∈ s.requests[k]?, passes s.task s.stores x.pc →
      ∀ y ∈ s.requests.zipIdx, y.2 ≠ k → y.1.pc.live = false
  | _ => True

instance (l : Label) : Decidable (s.Alone l) := by
  unfold Alone
  split <;> infer_instance

structure Inv (s : State) : Prop where
  live : ∀ (j k : ℕ) (x y : Request), s.requests[j]? = some x → s.requests[k]? = some y → x.pc.live → y.pc.live → j = k
  answered : ∀ x ∈ s.stores.tasks, ∃ y : Request, s.requests[x.request]? = some y ∧ y.pc = .answered .ok
  distinct : (s.stores.tasks.map Enqueued.request).Nodup

lemma Inv.tasks_le_one (h : s.Inv) : s.stores.tasks.length ≤ 1 := by
  cases htasks : s.stores.tasks with
  | nil => simp
  | cons x rest =>
    cases rest with
    | nil => simp
    | cons y rest =>
      obtain ⟨u, hu, hupc⟩ := h.answered x (by simp [htasks])
      obtain ⟨v, hv, hvpc⟩ := h.answered y (by simp [htasks])
      have hsame : x.request = y.request := h.live _ _ u v hu hv (by rw [hupc]; rfl) (by rw [hvpc]; rfl)
      have hdistinct := h.distinct
      simp [htasks, hsame] at hdistinct

lemma Inv.same (h : s.Inv) (hrequests : t.requests = s.requests)
    (htasks : t.stores.tasks.map Enqueued.request = s.stores.tasks.map Enqueued.request) : t.Inv where
  live := by
    rw [hrequests]
    exact h.live
  answered x hx := by
    have hmem : x.request ∈ s.stores.tasks.map Enqueued.request := htasks ▸ mem_map_of_mem hx
    obtain ⟨y, hy, heq⟩ := mem_map.mp hmem
    rw [hrequests, ← heq]
    exact h.answered y hy
  distinct := htasks ▸ h.distinct

lemma map_request_setTask (stores : Stores) (n : ℕ) (state : TaskState) :
    (stores.setTask n state).tasks.map Enqueued.request = stores.tasks.map Enqueued.request := by
  apply ext_getElem?
  intro i
  simp only [Stores.setTask, getElem?_map, getElem?_modify]
  cases stores.tasks[i]? with
  | none => rfl
  | some x => by_cases hi : n = i <;> simp [hi]

lemma Inv.send (h : s.Inv) (coordinator : ℕ) (client : Client) :
    Inv {s with client := client, requests := s.requests++[⟨coordinator, .listWorkers⟩]} where
  live j k x y hx hy hxlive hylive := by
    have hold : ∀ (i : ℕ) (z : Request), (s.requests++[⟨coordinator, .listWorkers⟩])[i]? = some z →
        z.pc.live → s.requests[i]? = some z := by
      intro i z hz hlive
      rcases getElem?_concat_cases hz with hz | ⟨-, rfl⟩
      · exact hz
      · cases hlive
    exact h.live j k x y (hold j x hx hxlive) (hold k y hy hylive) hxlive hylive
  answered x hx := by
    obtain ⟨y, hy, hpc⟩ := h.answered x hx
    have hlt := lt_of_getElem? hy
    exact ⟨y, (getElem?_append_left hlt).trans hy, hpc⟩
  distinct := h.distinct

lemma Inv.act (h : s.Inv) {k : ℕ} {a} {x : Request} (hx : s.requests[k]? = some x)
    (halone : s.Alone (.act k a)) {stores pc}
    (hact : ClientDispatch.act s.task k s.stores a x.pc = some (stores, pc)) :
    Inv {s with stores := stores, requests := s.requests.set k {x with pc := pc}} := by
  have hlt : k < s.requests.length := lt_of_getElem? hx
  -- If the request is live afterwards, no other one is.
  have hothers : pc.live → ∀ (j : ℕ) (y : Request), j ≠ k → s.requests[j]? = some y → y.pc.live = false := by
    intro hlive j y hj hy
    rcases live_of_act hact hlive with hxlive | hpasses
    · by_contra hylive
      exact hj (h.live j k y x hy hx (by simpa using hylive) hxlive)
    · exact halone x hx hpasses (y, j) (mem_zipIdx_iff_getElem?.mpr hy) hj
  -- The tasks so far are of other requests.
  have hkept : x.pc ≠ .answered .ok → ∀ y ∈ s.stores.tasks, y.request ≠ k ∧
      ∃ z : Request, (s.requests.set k {x with pc := pc})[y.request]? = some z ∧ z.pc = .answered .ok := by
    intro hne y hy
    obtain ⟨z, hz, hpc⟩ := h.answered y hy
    have hk : y.request ≠ k := by
      intro heq
      rw [heq, hx] at hz
      cases hz
      exact hne hpc
    exact ⟨hk, z, (getElem?_set_ne hk.symm).trans hz, hpc⟩
  constructor
  · intro i j y z hy hz hylive hzlive
    rcases getElem?_set_cases hy with ⟨rfl, rfl⟩ | ⟨hi, hy'⟩ <;> rcases getElem?_set_cases hz with ⟨rfl, rfl⟩ | ⟨hj, hz'⟩
    · rfl
    · simp [hothers hylive j z hj hz'] at hzlive
    · simp [hothers hzlive i y hi hy'] at hylive
    · exact h.live i j y z hy' hz' hylive hzlive
  · intro y hy
    rcases tasks_of_act hact with ⟨htasks, hne⟩ | ⟨⟨id, htasks⟩, hne, rfl⟩
    · exact (hkept hne y (htasks ▸ hy)).2
    simp only [htasks, mem_append, mem_singleton] at hy
    rcases hy with hy | rfl
    · exact (hkept hne y hy).2
    · exact ⟨_, getElem?_set_self hlt, rfl⟩
  · rcases tasks_of_act hact with ⟨htasks, -⟩ | ⟨⟨id, htasks⟩, hne, -⟩
    · rw [htasks]
      exact h.distinct
    rw [htasks, map_append, nodup_append]
    refine ⟨h.distinct, by simp, fun j hj i hi => ?_⟩
    obtain ⟨y, hy, rfl⟩ := mem_map.mp hj
    obtain rfl : i = k := by simpa using hi
    exact (hkept hne y hy).1

lemma inv_step (h : s.Inv) (halone : s.Alone l) (hstep : s.step l = some t) : t.Inv := by
  cases l with
  | send coordinator =>
    simp only [step] at hstep
    split at hstep
    · cases hstep
      exact h.send coordinator _
    · cases hstep
  | receive =>
    simp only [step] at hstep
    split at hstep
    · split at hstep
      · cases hstep
        exact h.same rfl rfl
      · cases hstep
    · cases hstep
  | lose | giveUp =>
    simp only [step] at hstep
    split at hstep
    · cases hstep
      exact h.same rfl rfl
    · cases hstep
  | act k a =>
    simp only [step] at hstep
    cases hx : s.requests[k]? with
    | none => simp [hx] at hstep
    | some x =>
      simp only [hx] at hstep
      split_ifs at hstep
      obtain ⟨⟨stores, pc⟩, hact, heq⟩ := Option.map_eq_some_iff.mp hstep
      cases heq
      exact h.act hx halone hact
  | writeStatus | newAttempt =>
    cases hstep
    exact h.same rfl rfl
  | claim n | expire n | acknowledge n =>
    obtain ⟨-, rfl⟩ := of_guarded hstep
    exact h.same rfl (map_request_setTask _ _ _)

section
variable {task : Task} {present : Bool} {attempts : List Attempt}

lemma inv_of_reach (h : Reach step Alone (start task present attempts) t) : t.Inv := by
  have hstart : (start task present attempts).Inv := by constructor <;> simp [start]
  exact h.preserved (P := Inv) hstart inv_step

/-- In every run in which a request looks up the latest attempt only while no other request is live, unless
it is refused, at most one task of the `Dispatch` is accepted. -/
theorem accepted_le_one (h : Reach step Alone (start task present attempts) t) : t.accepted ≤ 1 :=
  countP_le_length.trans (inv_of_reach h).tasks_le_one

end

/-! ### A lost answer -/

def good : Answer := ⟨true, .matching⟩

/-- The answer of a request that was processed completely is lost, the client asks another coordinator, and
workers claim and acknowledge both tasks. -/
def repeated : List (Label × ℕ) :=
  [(.send 0, 1), (.act 0 good, 10), (.lose, 1), (.send 1, 1), (.act 1 good, 10), (.receive, 1),
    (.claim 0, 1), (.claim 1, 1), (.acknowledge 0, 1), (.acknowledge 1, 1)]

def repeatedLate : List (Label × ℕ) :=
  [(.send 0, 1), (.act 0 good, 10), (.lose, 1), (.claim 0, 1), (.acknowledge 0, 1), (.writeStatus 7 .running, 1),
    (.send 1, 1), (.act 1 good, 10), (.receive, 1)]

theorem accepted_le_one_queued :
    (follow step (fun s l => decide (s.Alone l)) (start ⟨.retry, some (.queued, some 7)⟩ true [⟨7, .holds .queued⟩])
        repeatedLate).client = .returned false ∧
      (follow step (fun s l => decide (s.Alone l)) (start ⟨.retry, some (.queued, some 7)⟩ true [⟨7, .holds .queued⟩])
        repeatedLate).accepted ≤ 1 := ⟨by decide +kernel, accepted_le_one (reach_checked _ _)⟩

theorem accepted_two : (¬ ∀ t, Reach step always (start ⟨.start, none⟩ false []) t → t.accepted ≤ 1) ∧
    ¬ ∀ t, Reach step always (start ⟨.retry, some (.queued, some 7)⟩ true [⟨7, .holds .queued⟩]) t → t.accepted ≤ 1 := by
  constructor
  · intro h
    have htwo : (play step (start ⟨.start, none⟩ false []) repeated).accepted = 2 := by decide +kernel
    have hle := h _ (reach_play _ repeated)
    omega
  intro h
  have htwo : (play step (start ⟨.retry, some (.queued, some 7)⟩ true [⟨7, .holds .queued⟩]) repeated).accepted = 2 := by
    decide +kernel
  have hle := h _ (reach_play _ repeated)
  omega

end State
end Ayatsuri.ClientDispatch
