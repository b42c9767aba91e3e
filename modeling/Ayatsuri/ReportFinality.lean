import Ayatsuri.Compaction
import Ayatsuri.CoreStatus

/-! Status reports of workers and the stale-lease repair on one attempt (`ReportStatus` and
`failDistributedAttemptIfCurrent` in `internal/service/coordinator/handler.go`,
`CompareAndSwapLatestAttemptStatus` in `internal/persis/filedagrun/store.go`). A coordinator handles one
report of the run at a time and keeps its handle of the status file; a repair holds the lock of the data
directory and has a handle of its own. -/
namespace Ayatsuri.ReportStatus
open TransitionSystem StatusFile LineLog Disk Handle

structure RunStatus where
  status : Status
  (attemptID attemptKey : String)
  deriving DecidableEq

def isTerminalRunStatus (status : Status) : Bool := status ≠ .notStarted && !status.isActive

def sameAttemptStatus (current incoming : RunStatus) : Bool :=
  if current.attemptID = "" ∧ current.attemptKey = "" then true
  else if current.attemptID ≠ "" ∧ incoming.attemptID ≠ "" ∧ current.attemptID ≠ incoming.attemptID then false
  else if current.attemptKey ≠ "" ∧ incoming.attemptKey ≠ "" ∧ current.attemptKey ≠ incoming.attemptKey then false
  else if current.attemptID ≠ "" ∧ incoming.attemptID ≠ "" then true
  else current.attemptKey ≠ "" && current.attemptKey = incoming.attemptKey

def remoteAttemptRejectedLeaseInactive : String := "stale attempt: lease no longer active"

def remoteAttemptRejectedSuperseded : String := "stale attempt: superseded by newer attempt"

def remoteAttemptRejectedTerminal : String := "stale attempt: run already terminal"

def remoteStatusDecision (isLeaseInactive : String → Bool) (latest incoming : RunStatus) : Except String Unit :=
  if !sameAttemptStatus latest incoming then .error remoteAttemptRejectedSuperseded
  else if !isTerminalRunStatus latest.status then .ok ()
  else if (latest.attemptKey ≠ "" && isLeaseInactive latest.attemptKey) &&
      (incoming.status.isActive || incoming.status = .notStarted) then .error remoteAttemptRejectedLeaseInactive
  else if latest.status = incoming.status then .ok ()
  else .error remoteAttemptRejectedTerminal

inductive Repair
  | lease | running | notStarted
  deriving DecidableEq

def Repair.expectedStatuses : Repair → List Status
  | .lease => [.running, .notStarted, .queued]
  | .running => [.running]
  | .notStarted => [.notStarted]

inductive Role
  | coordinator | repair
  deriving DecidableEq

/-- What an actor is about to do: decide on a report, compare with the next expected status, or the rest of
the operations on its handle. -/
inductive Plan
  | idle
  | report (incoming : RunStatus)
  | compare (attemptID : String) (expected : List Status)
  | run (ops : List (Operation RunStatus))
  deriving DecidableEq

structure Actor where
  role : Role
  handle : Handle RunStatus
  plan : Plan
  deriving DecidableEq

def Actor.running (x : Actor) : Bool :=
  match x.plan with
  | .run _ => true
  | _ => false

/-- `replaceOpenAttempt`: the open handle is used if it is that of the attempt ID. -/
def replaceOpenAttempt (id : String) (h : Handle RunStatus) (expectedAttemptID : String) : List (Operation RunStatus) :=
  if h.writer = none then [.openFile]
  else if expectedAttemptID = id then []
  else [.close, .openFile]

/-- `ReportStatus` after the latest status has been read. -/
def Actor.decide (id : String) (isLeaseInactive : String → Bool) (x : Actor) (latest : Option RunStatus)
    (incoming : RunStatus) : Actor :=
  match latest with
  | none => {x with plan := .idle}
  | some latest =>
    match remoteStatusDecision isLeaseInactive latest incoming with
    | .error _ => {x with plan := .idle}
    | .ok _ => {x with plan := .run (replaceOpenAttempt id x.handle latest.attemptID++[.write incoming])}

/-- `CompareAndSwapLatestAttemptStatus` after the status has been read, and the loop around it. -/
def Actor.compare (x : Actor) (latest : Option RunStatus) (attemptID : String) : List Status → Actor
  | [] => {x with plan := .idle}
  | expected::rest =>
    match latest with
    | none => {x with plan := .idle}
    | some latest =>
      if latest.attemptID ≠ attemptID then {x with plan := .idle}
      else if latest.status ≠ expected then {x with plan := .compare attemptID rest}
      else {x with plan := .run [.openFile, .write {latest with status := .failed}, .close]}

structure State where
  disk : Disk RunStatus
  actors : List Actor
  caches : List (Option (Entry RunStatus))
  deriving DecidableEq

namespace State

inductive Label
  | report (i : ℕ) (incoming : RunStatus)
  | repair (i : ℕ) (attemptID : String) (repair : Repair)
  | read (i : ℕ) (isLeaseInactive : String → Bool)
  | start (i : ℕ) (now : ℕ)
  | act (i : ℕ) (a : Answer)
  | evict (proc : ℕ)

variable (s : State)

def setPlan (i : ℕ) (x : Actor) (plan : Plan) : State :=
  {s with actors := s.actors.set i {x with plan := plan}}

/-- Actor `i` has taken a step of an operation. -/
def put (i : ℕ) (x : Actor) (plan : Plan) (o : Outcome RunStatus) : State where
  disk := o.disk
  actors := s.actors.set i {x with handle := o.handle, plan := plan}
  caches := if o.invalidated then s.caches.set o.handle.proc none else s.caches

def cached (proc : ℕ) : Option (Entry RunStatus) := (s.caches[proc]?).getD none

/-- Actor `i` has read the status and decided. -/
def readBy (length : RunStatus → ℕ) (s : State) (i : ℕ) (proc : ℕ) (x : Actor) : State :=
  {s with
    actors := s.actors.set i x
    caches := s.caches.set proc (refresh length s.disk (s.cached proc))}

def lockFree : Bool := s.actors.all fun x => !(decide (x.role = .repair) && x.running)

variable (length : RunStatus → ℕ) (id : String)

def step (s : State) : Label → Option State
  | .report i incoming => do
    let x ← s.actors[i]?
    if x.plan = .idle ∧ x.role = .coordinator then some (s.setPlan i x (.report incoming)) else none
  | .repair i attemptID repair => do
    let x ← s.actors[i]?
    if x.plan = .idle ∧ x.role = .repair ∧ attemptID ≠ "" then
      some (s.setPlan i x (.compare attemptID repair.expectedStatuses))
    else none
  | .read i isLeaseInactive => do
    let x ← s.actors[i]?
    let latest := readStatus length s.disk (s.cached x.handle.proc)
    match x.plan with
    | .report incoming => some (s.readBy length i x.handle.proc (x.decide id isLeaseInactive latest incoming))
    | .compare attemptID expected =>
      if s.lockFree then some (s.readBy length i x.handle.proc (x.compare latest attemptID expected)) else none
    | _ => none
  | .start i now => do
    let x ← s.actors[i]?
    match x.handle.pc, x.plan with
    | .idle, .run [] => some (s.setPlan i x .idle)
    | .idle, .run (op::ops) =>
      match x.handle.start length s.disk now op with
      | none => some (s.setPlan i x .idle)
      | some o => some (s.put i x (.run ops) o)
    | _, _ => none
  | .act i a => do
    let x ← s.actors[i]?
    let o ← x.handle.act s.disk a
    some (s.put i x x.plan o)
  | .evict proc => some {s with caches := s.caches.set proc none}

end State

/-! A terminal status stays, as long as a report or a repair reads the latest status only while no other one
stands between its own reading and its end. -/

open List Option
variable (last : Option RunStatus)

def Allowed (st : RunStatus) : Prop := ∀ l, last = some l → isTerminalRunStatus l.status → st.status = l.status

def Follows (last next : Option RunStatus) : Prop :=
  ∀ l, last = some l → isTerminalRunStatus l.status → ∃ n, next = some n ∧ n.status = l.status

lemma Follows.refl : Follows last last := fun l hl _ => ⟨l, hl, rfl⟩

lemma Follows.trans {a b c} (hab : Follows a b) (hbc : Follows b c) : Follows a c := by
  intro l hl hterminal
  obtain ⟨n, hn, hstatus⟩ := hab l hl hterminal
  obtain ⟨m, hm, hstatus'⟩ := hbc n hn (hstatus ▸ hterminal)
  exact ⟨m, hm, hstatus'.trans hstatus⟩

variable {last : Option RunStatus}

lemma Allowed.follows {st} (h : Allowed last st) : Follows last (some st) :=
  fun l hl hterminal => ⟨st, rfl, h l hl hterminal⟩

lemma allowed_of_decision {isLeaseInactive : String → Bool} {latest incoming}
    (h : remoteStatusDecision isLeaseInactive latest incoming = .ok ()) : Allowed (some latest) incoming := by
  rintro l hl hterminal
  cases hl
  simp only [remoteStatusDecision, hterminal, Bool.not_true, Bool.false_eq_true, if_false] at h
  split_ifs at h with _ _ hsame
  exact hsame.symm

lemma not_terminal_expected {repair : Repair} {status} (h : status ∈ repair.expectedStatuses) :
    isTerminalRunStatus status = false := by
  cases repair <;> simp only [Repair.expectedStatuses, mem_cons, not_mem_nil, or_false] at h
  · rcases h with rfl | rfl | rfl <;> rfl
  · subst h
    rfl
  · subst h
    rfl

/-! ### The handle at work -/

def isWrite : Operation RunStatus → Bool
  | .write _ => true
  | _ => false

variable (d : Disk RunStatus)

/-- Where the last status is. A handle that has been passed by a compaction writes to a file that nobody reads. -/
def Secure (last : Option RunStatus) (h : Handle RunStatus) : Prop :=
  match h.pc with
  | .flushed _ => d.Holds last
  | .newline st => Allowed last st ∧
      ((∃ ino, h.writer = some ino ∧ d.path = some ino ∧ d.Reads ino [st] last) ∨ h.writer ≠ d.path ∧ d.Holds last)
  | pc => pc.Keeps d last

structure Steady (last : Option RunStatus) (h : Handle RunStatus) (ops : List (Operation RunStatus)) : Prop where
  allowed : ∀ st, .write st ∈ ops → Allowed last st
  once : ops.countP isWrite ≤ 1
  written : ∀ st, h.pc = .newline st → ops.countP isWrite = 0
  secure : Secure d last h

lemma allowed_of_countP {ops : List (Operation RunStatus)} (h : ops.countP isWrite = 0) (last : Option RunStatus) :
    ∀ st, .write st ∈ ops → Allowed last st := by
  intro st hmem
  have := countP_eq_zero.mp h _ hmem
  simp [isWrite] at this

section
variable {d : Disk RunStatus} {last : Option RunStatus} {ino : ℕ} {now : ℕ}

lemma text_append_ne {ino' : ℕ} (hne : ino ≠ ino') (pieces : List (Option RunStatus)) :
    (d.append ino pieces now).text ino' = d.text ino' := by simp [text, append, hne]

lemma holds_append_ne (h : d.Holds last) (hne : some ino ≠ d.path) (pieces : List (Option RunStatus)) :
    (d.append ino pieces now).Holds last := by
  rcases h with ⟨hpath, hlast⟩ | ⟨ino', hpath, hlt, hscan⟩
  · exact .inl ⟨hpath, hlast⟩
  have hino : ino ≠ ino' := fun heq => hne (by rw [heq, hpath])
  refine .inr ⟨ino', hpath, ?_, ?_⟩
  · rw [Disk.length_append]
    exact hlt
  · rw [text_append_ne hino]
    exact hscan

lemma holds_reads (h : d.Holds last) (hpath : d.path = some ino) : d.Reads ino [] last := by
  rcases h with ⟨hnone, -⟩ | ⟨ino', hpath', hreads⟩
  · simp [hnone] at hpath
  · rwa [some.inj (hpath.symm.trans hpath')]

end

variable {d : Disk RunStatus} {h : Handle RunStatus}

lemma Secure.holds (hsecure : Secure d last h) (hidle : h.pc = .idle) : d.Holds last := by
  simpa only [Secure, Pc.Keeps, hidle] using hsecure

lemma secure_of_holds (hholds : d.Holds last) (hidle : h.pc = .idle) : Secure d last h := by
  simpa only [Secure, Pc.Keeps, hidle] using hholds

lemma secure_of_keeps
    (hkeeps : h.pc.Keeps d last) (hc : h.pc = .idle ∨ h.pc.isCompacting) : Secure d last h := by
  unfold Secure
  cases hpc : h.pc with
  | newline | flushed => simp [hpc] at hc
  | idle | parse | parseFrom | temp | stat | remove | rename | closing => simpa only [hpc] using hkeeps

lemma Secure.keeps
    (hsecure : Secure d last h) (hc : h.pc.isCompacting) : h.pc.Keeps d last := by
  unfold Secure at hsecure
  cases hpc : h.pc with
  | idle | newline | flushed => simp [hpc] at hc
  | parse | parseFrom | temp | stat | remove | rename | closing => simpa only [hpc] using hsecure

lemma Secure.load (hsecure : Secure d last h) : d.load = last ∨ d.load = none ∧ h.pc.inGap := by
  cases hpc : h.pc with
  | idle => exact .inl (hsecure.holds hpc).load
  | flushed =>
    simp only [Secure, hpc] at hsecure
    exact .inl hsecure.load
  | newline st =>
    simp only [Secure, hpc] at hsecure
    rcases hsecure with ⟨-, ⟨ino, -, hpath, hreads⟩ | ⟨-, hholds⟩⟩
    · exact .inl (by simp [Disk.load, hpath, parse_of_scan hreads.2])
    · exact .inl hholds.load
  | rename =>
    simp only [Secure, hpc] at hsecure
    exact .inr ⟨by simp [Disk.load, hsecure.1], rfl⟩
  | parse | parseFrom | temp | stat | remove | closing =>
    have hc : h.pc.isCompacting := by rw [hpc]; rfl
    have hgap : h.pc.inGap = false := by rw [hpc]; rfl
    exact .inl ((hsecure.keeps hc).holds (.inr hc) hgap).load

section
variable {d : Disk RunStatus} {last : Option RunStatus} {h : Handle RunStatus} {ops : List (Operation RunStatus)}
  {o : Outcome RunStatus}

lemma Steady.start {length : RunStatus → ℕ} {op now}
    (hsteady : Steady d last h (op::ops)) (hidle : h.pc = .idle) (hstart : h.start length d now op = some o) :
    ∃ next, Follows last next ∧ Steady o.disk next o.handle ops := by
  have hholds : d.Holds last := hsteady.secure.holds hidle
  have hallowed : ∀ st, .write st ∈ ops → Allowed last st := fun st hst => hsteady.allowed st (mem_cons_of_mem _ hst)
  have hcount := hsteady.once
  rw [countP_cons] at hcount
  have honce : ops.countP isWrite ≤ 1 := by omega
  cases op with
  | openFile =>
    have hquiet : ∀ writer st, ({h with writer := writer} : Handle RunStatus).pc = .newline st →
        ops.countP isWrite = 0 := by simp [hidle]
    simp only [Handle.start] at hstart
    split at hstart
    · cases hstart
    · cases hstart
      exact ⟨last, .refl last, hallowed, honce, hquiet _, secure_of_holds hholds hidle⟩
    next hpath =>
    cases hstart
    have hlast : last = none := by
      rcases hholds with ⟨-, hlast⟩ | ⟨ino, hpath', -⟩
      · exact hlast
      · simp [hpath] at hpath'
    subst hlast
    refine ⟨none, .refl none, hallowed, honce, hquiet _, secure_of_holds (.inr ⟨_, rfl, ?_, ?_⟩) hidle⟩
    · simp [Disk.create]
    · exact congrArg scan (Disk.text_create_self [] now)
  | close =>
    simp only [Handle.start] at hstart
    split at hstart <;> cases hstart
    exact ⟨last, .refl last, hallowed, honce, by simp, hholds⟩
  | compact =>
    cases hstart
    exact ⟨last, .refl last, hallowed, honce, by simp, hholds⟩
  | write st =>
    have hst : Allowed last st := hsteady.allowed st mem_cons_self
    have hnone : ops.countP isWrite = 0 := by
      simp only [isWrite, if_true] at hcount
      omega
    have hno := allowed_of_countP hnone
    simp only [Handle.start] at hstart
    split at hstart
    · cases hstart
    next ino hwriter =>
    by_cases hpath : d.path = some ino
    · have hreads := holds_reads hholds hpath
      split_ifs at hstart <;> cases hstart
      · refine ⟨some st, hst.follows, hno _, honce, by simp, .inr ⟨ino, hpath, ?_, ?_⟩⟩
        · rw [Disk.length_append]
          exact hreads.1
        · rw [Disk.text_append hreads.1]
          exact scan_line hreads.2 st
      refine ⟨last, .refl last, hno _, honce, fun _ _ => hnone, hst, .inl ⟨ino, hwriter, hpath, ?_, ?_⟩⟩
      · rw [Disk.length_append]
        exact hreads.1
      · rw [Disk.text_append hreads.1]
        exact scan_record hreads.2 st
    · have hne : some ino ≠ d.path := fun heq => hpath heq.symm
      split_ifs at hstart <;> cases hstart
      · exact ⟨last, .refl last, hno _, honce, by simp, holds_append_ne hholds hne _⟩
      refine ⟨last, .refl last, hno _, honce, fun _ _ => hnone, hst, .inr ⟨?_, holds_append_ne hholds hne _⟩⟩
      rw [Disk.path_append, hwriter]
      exact hne

lemma Steady.act {a : Answer} (hsteady : Steady d last h ops) (hok : h.pc.inGap → a.ok)
    (hact : h.act d a = some o) : ∃ next, Follows last next ∧ Steady o.disk next o.handle ops := by
  by_cases hc : h.pc.isCompacting
  · have hafter := (Handle.act_cases hc hact).1
    have hkeeps := Handle.keeps_act hc (hsteady.secure.keeps hc) hok hact
    refine ⟨last, .refl last, hsteady.allowed, hsteady.once, ?_, secure_of_keeps hkeeps hafter⟩
    intro st hpc
    simp [hpc] at hafter
  have hsecure := hsteady.secure
  unfold Secure at hsecure
  unfold Handle.act at hact
  cases hpc : h.pc with
  | idle => simp [hpc] at hact
  | newline st =>
    simp only [hpc] at hsecure hact
    obtain ⟨ino, hwriter, rfl⟩ := map_eq_some_iff.mp hact
    have hnone := hsteady.written st hpc
    obtain ⟨hst, ⟨ino', hwriter', hpath, hlt, hscan⟩ | ⟨hne, hholds⟩⟩ := hsecure
    · cases hwriter.symm.trans hwriter'
      refine ⟨some st, hst.follows, allowed_of_countP hnone _, hsteady.once, by simp, .inr ⟨ino, hpath, ?_, ?_⟩⟩
      · rw [Disk.length_append]
        exact hlt
      · rw [Disk.text_append hlt]
        exact scan_end hscan
    · rw [hwriter] at hne
      exact ⟨last, .refl last, hsteady.allowed, hsteady.once, by simp, holds_append_ne hholds hne _⟩
  | flushed st =>
    simp only [hpc, some.injEq] at hsecure hact
    subst hact
    exact ⟨last, .refl last, hsteady.allowed, hsteady.once, by simp, hsecure⟩
  | parse | parseFrom | temp | stat | remove | rename | closing => simp [hpc] at hc

end

/-! ### What an actor decides -/

section
variable {d : Disk RunStatus} {x : Actor} {ops : List (Operation RunStatus)}

lemma steady_of_idle {last} (hholds : d.Holds last)
    (hidle : x.handle.pc = .idle) (honce : ops.countP isWrite ≤ 1) (hallowed : ∀ st, .write st ∈ ops → Allowed last st) :
    Steady d last x.handle ops := ⟨hallowed, honce, fun st hpc => by simp [hidle] at hpc, secure_of_holds hholds hidle⟩

variable {latest : Option RunStatus}

lemma steady_decide {id} {isLeaseInactive : String → Bool} {incoming} (hholds : d.Holds latest)
    (hidle : x.handle.pc = .idle) (hplan : (x.decide id isLeaseInactive latest incoming).plan = .run ops) :
    Steady d latest x.handle ops := by
  cases latest with
  | none => simp [Actor.decide] at hplan
  | some latest =>
    simp only [Actor.decide] at hplan
    cases hdecision : remoteStatusDecision isLeaseInactive latest incoming with
    | error text => simp [hdecision] at hplan
    | ok u =>
      simp only [hdecision, Plan.run.injEq] at hplan
      subst hplan
      have hopen : ∀ op ∈ replaceOpenAttempt id x.handle latest.attemptID, op = .openFile ∨ op = .close := by
        unfold replaceOpenAttempt
        split_ifs <;> simp
      refine steady_of_idle hholds hidle ?_ ?_
      · have hzero : (replaceOpenAttempt id x.handle latest.attemptID).countP isWrite = 0 := by
          refine countP_eq_zero.mpr fun op hop => ?_
          rcases hopen op hop with rfl | rfl <;> simp [isWrite]
        simp [hzero, isWrite]
      intro st hst
      rcases mem_append.mp hst with hst | hst
      · rcases hopen _ hst with h | h <;> cases h
      · cases mem_singleton.mp hst
        exact allowed_of_decision hdecision

lemma steady_compare {attemptID} {repair : Repair} {expected} (hholds : d.Holds latest)
    (hidle : x.handle.pc = .idle) (hsuffix : expected <:+ repair.expectedStatuses)
    (hplan : (x.compare latest attemptID expected).plan = .run ops) : Steady d latest x.handle ops := by
  cases expected with
  | nil => simp [Actor.compare] at hplan
  | cons expected rest =>
    cases latest with
    | none => simp [Actor.compare] at hplan
    | some latest =>
      simp only [Actor.compare] at hplan
      split_ifs at hplan with hid hstatus
      have hmem : latest.status ∈ repair.expectedStatuses := by
        rw [not_not.mp hstatus]
        exact hsuffix.mem mem_cons_self
      simp only [Plan.run.injEq] at hplan
      subst hplan
      refine steady_of_idle hholds hidle (by simp [countP_cons, isWrite]) ?_
      intro st hst l hl hterminal
      cases hl
      rw [not_terminal_expected hmem] at hterminal
      cases hterminal

end

/-! ### One actor at a time -/

structure Actor.Rests (x : Actor) : Prop where
  still : x.running = false
  idle : x.handle.pc = .idle
  expects : ∀ attemptID expected, x.plan = .compare attemptID expected →
    ∃ repair : Repair, expected <:+ repair.expectedStatuses

open Actor
open State

namespace State
variable {length : RunStatus → ℕ} {id : String} {s t : State} {last : Option RunStatus} {i : ℕ} {x y : Actor}

/-- The latest status is read only while no report and no swap is about to write, and the reader is not
misled by its cache. The replacement is renamed once the status file is removed. -/
def InTurn (length : RunStatus → ℕ) (s : State) : Label → Prop
  | .read i _ => (∀ y ∈ s.actors, y.running = false) ∧
      ∀ x ∈ s.actors[i]?, ((s.cached x.handle.proc).any fun e => e.misleads length s.disk) = false
  | .act i a => ∀ x ∈ s.actors[i]?, x.handle.pc.inGap → a.ok
  | _ => True

instance (l : Label) : Decidable (s.InTurn length l) := by
  unfold InTurn
  split <;> infer_instance

def othersRest (s : State) (i : ℕ) : Prop := ∀ (j : ℕ) (y : Actor), j ≠ i → s.actors[j]? = some y → y.Rests

structure Calm (last : Option RunStatus) (s : State) : Prop where
  rests : ∀ (j : ℕ) (y : Actor), s.actors[j]? = some y → y.Rests
  holds : s.disk.Holds last

/-- Actor `i` has the rest of its operations before it, and nobody else is about to write. -/
structure Turn (last : Option RunStatus) (s : State) (i : ℕ) (x : Actor) (ops : List (Operation RunStatus)) :
    Prop where
  get : s.actors[i]? = some x
  plan : x.plan = .run ops
  steady : Steady s.disk last x.handle ops
  others : s.othersRest i

def Inv (last : Option RunStatus) (s : State) : Prop := s.Calm last ∨ ∃ i x ops, s.Turn last i x ops

lemma Inv.load (h : s.Inv last) : s.disk.load = last ∨ s.disk.load = none ∧ ∃ x ∈ s.actors, x.handle.pc.inGap := by
  rcases h with hcalm | ⟨i, x, ops, hturn⟩
  · exact .inl hcalm.holds.load
  rcases hturn.steady.secure.load with hload | ⟨hload, hgap⟩
  · exact .inl hload
  · exact .inr ⟨hload, x, mem_of_getElem? hturn.get, hgap⟩

lemma Inv.turn (h : s.Inv last) (hget : s.actors[i]? = some x) (hrests : ¬ x.Rests) : ∃ ops, s.Turn last i x ops := by
  rcases h with hcalm | ⟨j, y, ops, hturn⟩
  · exact absurd (hcalm.rests i x hget) hrests
  by_cases hij : i = j
  · subst hij
    cases hturn.get.symm.trans hget
    exact ⟨ops, hturn⟩
  · exact absurd (hturn.others i x hij hget) hrests

lemma calm_of_set (hothers : s.othersRest i) (hactors : t.actors = s.actors.set i y) (hy : y.Rests)
    (hholds : t.disk.Holds last) : t.Inv last := by
  refine .inl ⟨fun j z hz => ?_, hholds⟩
  rw [hactors] at hz
  rcases getElem?_set_cases hz with ⟨-, rfl⟩ | ⟨hne, hz'⟩
  · exact hy
  · exact hothers j z hne hz'

lemma turn_of_set {ops} (hothers : s.othersRest i) (hget : s.actors[i]? = some x)
    (hactors : t.actors = s.actors.set i y) (hplan : y.plan = .run ops) (hsteady : Steady t.disk last y.handle ops) :
    t.Inv last := by
  refine .inr ⟨i, y, ops, ?_, hplan, hsteady, fun j z hne hz => ?_⟩
  · rw [hactors]
    exact getElem?_set_self (lt_of_getElem? hget)
  · rw [hactors, getElem?_set_ne (Ne.symm hne)] at hz
    exact hothers j z hne hz

lemma Inv.setPlan {plan} (h : s.Inv last) (hget : s.actors[i]? = some x) (hx : x.running = false)
    (hy : x.Rests → ({x with plan := plan} : Actor).Rests) : (s.setPlan i x plan).Inv last := by
  rcases h with hcalm | ⟨j, z, ops, hturn⟩
  · exact calm_of_set (fun j y _ => hcalm.rests j y) rfl (hy (hcalm.rests i x hget)) hcalm.holds
  have hij : i ≠ j := by
    rintro rfl
    cases hturn.get.symm.trans hget
    simp [running, hturn.plan] at hx
  refine .inr ⟨j, z, ops, ?_, hturn.plan, hturn.steady, fun k y hne hk => ?_⟩
  · simp only [State.setPlan, List.getElem?_set_ne hij]
    exact hturn.get
  rcases getElem?_set_cases hk with ⟨-, rfl⟩ | ⟨-, hk'⟩
  · exact hy (hturn.others i x hij hget)
  · exact hturn.others k y hne hk'

lemma Inv.calm (h : s.Inv last) (hstill : ∀ y ∈ s.actors, y.running = false) : s.Calm last := by
  rcases h with hcalm | ⟨i, x, ops, hturn⟩
  · exact hcalm
  · have hx := hstill x (mem_of_getElem? hturn.get)
    simp [running, hturn.plan] at hx

/-! ### The steps -/

variable {incoming : RunStatus}

lemma inv_report (h : s.Inv last) (hstep : s.step length id (.report i incoming) = some t) : t.Inv last := by
  obtain ⟨x, hget, hstep⟩ := bind_eq_some_iff.mp hstep
  split_ifs at hstep with hplan
  cases hstep
  exact h.setPlan hget (by simp [running, hplan.1]) fun hrests => ⟨rfl, hrests.idle, nofun⟩

variable {attemptID : String}

lemma inv_repair {repair} (h : s.Inv last)
    (hstep : s.step length id (.repair i attemptID repair) = some t) : t.Inv last := by
  obtain ⟨x, hget, hstep⟩ := bind_eq_some_iff.mp hstep
  split_ifs at hstep with hplan
  cases hstep
  refine h.setPlan hget (by simp [running, hplan.1]) fun hrests => ⟨rfl, hrests.idle, ?_⟩
  rintro _ _ ⟨⟩
  exact ⟨repair, suffix_refl _⟩

lemma inv_readBy (hcalm : s.Calm last) (hget : s.actors[i]? = some x)
    (hhandle : y.handle = x.handle) (hrun : ∀ ops, y.plan = .run ops → Steady s.disk last y.handle ops)
    (hexpects : ∀ attemptID expected, y.plan = .compare attemptID expected →
      ∃ repair : Repair, expected <:+ repair.expectedStatuses) : (s.readBy length i x.handle.proc y).Inv last := by
  have hothers : s.othersRest i := fun j z _ => hcalm.rests j z
  have hidle : y.handle.pc = .idle := hhandle ▸ (hcalm.rests i x hget).idle
  cases hplan : y.plan with
  | run ops => exact turn_of_set hothers hget rfl hplan (hrun ops hplan)
  | idle | report | compare => exact calm_of_set hothers rfl ⟨by simp [running, hplan], hidle, hexpects⟩ hcalm.holds

variable {isLeaseInactive : String → Bool} {latest : Option RunStatus}

lemma handle_decide : (x.decide id isLeaseInactive latest incoming).handle = x.handle := by
  unfold Actor.decide
  split
  · rfl
  · split <;> rfl

lemma plan_decide : (x.decide id isLeaseInactive latest incoming).plan = .idle ∨
      ∃ ops, (x.decide id isLeaseInactive latest incoming).plan = .run ops := by
  unfold Actor.decide
  split
  · exact .inl rfl
  split
  · exact .inl rfl
  · exact .inr ⟨_, rfl⟩

lemma handle_compare {expected} : (x.compare latest attemptID expected).handle = x.handle := by
  unfold Actor.compare
  split
  · rfl
  split
  · rfl
  · split_ifs <;> rfl

lemma plan_compare {attemptID' expected rest}
    (h : (x.compare latest attemptID expected).plan = .compare attemptID' rest) : rest <:+ expected := by
  cases expected with
  | nil => simp [Actor.compare] at h
  | cons first expected =>
    cases latest with
    | none => simp [Actor.compare] at h
    | some latest =>
      simp only [Actor.compare] at h
      split_ifs at h
      simp only [Plan.compare.injEq] at h
      rw [← h.2]
      exact suffix_cons first expected

lemma inv_read (h : s.Inv last) (hturn : s.InTurn length (.read i isLeaseInactive))
    (hstep : s.step length id (.read i isLeaseInactive) = some t) : t.Inv last := by
  have hcalm := h.calm hturn.1
  obtain ⟨x, hget, hstep⟩ := bind_eq_some_iff.mp hstep
  have hrests := hcalm.rests i x hget
  have hlatest : readStatus length s.disk (s.cached x.handle.proc) = last :=
    (readStatus_eq_load_iff.mpr (hturn.2 x hget)).trans hcalm.holds.load
  rw [hlatest] at hstep
  cases hplan : x.plan with
  | idle | run => simp [hplan] at hstep
  | report incoming =>
    simp only [hplan, some.injEq] at hstep
    subst hstep
    refine inv_readBy hcalm hget handle_decide (fun ops hops => ?_) fun attemptID expected hcompare => ?_
    · rw [handle_decide]
      exact steady_decide hcalm.holds hrests.idle hops
    rcases plan_decide with hidle | ⟨ops, hrun⟩
    · cases hidle.symm.trans hcompare
    · cases hrun.symm.trans hcompare
  | compare attemptID expected =>
    simp only [hplan] at hstep
    split_ifs at hstep
    cases hstep
    obtain ⟨repair, hsuffix⟩ := hrests.expects attemptID expected hplan
    refine inv_readBy hcalm hget handle_compare (fun ops hops => ?_) fun _ rest hrest => ?_
    · rw [handle_compare]
      exact steady_compare hcalm.holds hrests.idle hsuffix hops
    · exact ⟨repair, (plan_compare hrest).trans hsuffix⟩

lemma inv_start {now} (h : s.Inv last) (hstep : s.step length id (.start i now) = some t) :
    ∃ next, Follows last next ∧ t.Inv next := by
  obtain ⟨x, hget, hstep⟩ := bind_eq_some_iff.mp hstep
  split at hstep
  · next hidle hplan =>
    cases hstep
    obtain ⟨ops, hturn⟩ := h.turn hget fun hrests => by simpa [running, hplan] using hrests.still
    exact ⟨last, .refl last, calm_of_set hturn.others rfl ⟨rfl, hidle, nofun⟩ (hturn.steady.secure.holds hidle)⟩
  · next op ops hidle hplan =>
    obtain ⟨ops', hturn⟩ := h.turn hget fun hrests => by simpa [running, hplan] using hrests.still
    cases hturn.plan.symm.trans hplan
    cases hstart : x.handle.start length s.disk now op with
    | none =>
      simp only [hstart, some.injEq] at hstep
      subst hstep
      exact ⟨last, .refl last, calm_of_set hturn.others rfl ⟨rfl, hidle, nofun⟩ (hturn.steady.secure.holds hidle)⟩
    | some o =>
      simp only [hstart, some.injEq] at hstep
      subst hstep
      obtain ⟨next, hnext, hsteady⟩ := hturn.steady.start hidle hstart
      exact ⟨next, hnext, turn_of_set hturn.others hget rfl rfl hsteady⟩
  · cases hstep

lemma inv_act {a} (h : s.Inv last) (hok : s.InTurn length (.act i a))
    (hstep : s.step length id (.act i a) = some t) : ∃ next, Follows last next ∧ t.Inv next := by
  simp only [step, bind_eq_bind, bind_eq_some_iff] at hstep
  obtain ⟨x, hget, o, hact, hstep⟩ := hstep
  cases hstep
  obtain ⟨ops, hturn⟩ := h.turn hget fun hrests => by simp [act, hrests.idle] at hact
  obtain ⟨next, hnext, hsteady⟩ := hturn.steady.act (hok x hget) hact
  exact ⟨next, hnext, turn_of_set hturn.others hget rfl hturn.plan hsteady⟩

lemma inv_step {l} (h : s.Inv last) (hturn : s.InTurn length l) (hstep : s.step length id l = some t) :
    ∃ next, Follows last next ∧ t.Inv next := by
  cases l with
  | report => exact ⟨last, .refl last, inv_report h hstep⟩
  | repair => exact ⟨last, .refl last, inv_repair h hstep⟩
  | read => exact ⟨last, .refl last, inv_read h hturn hstep⟩
  | start => exact inv_start h hstep
  | act => exact inv_act h hturn hstep
  | evict =>
    cases hstep
    refine ⟨last, .refl last, ?_⟩
    rcases h with hcalm | ⟨i, x, ops, hturn⟩
    · exact .inl ⟨hcalm.rests, hcalm.holds⟩
    · exact .inr ⟨i, x, ops, hturn.get, hturn.plan, hturn.steady, hturn.others⟩

lemma inv_reach (h : s.Inv last) (hreach : Reach (step length id) (InTurn length) s t) :
    ∃ next, Follows last next ∧ t.Inv next := by
  refine hreach.invariant (P := fun u => ∃ next, Follows last next ∧ u.Inv next) ⟨last, .refl last, h⟩ ?_
  rintro a l b - ⟨next, hnext, hinv⟩ hturn hstep
  obtain ⟨next', hnext', hinv'⟩ := inv_step hinv hturn hstep
  exact ⟨next', hnext.trans hnext', hinv'⟩

/-! ### Whole runs -/

structure Fresh (s : State) : Prop where
  idle : ∀ x ∈ s.actors, x.plan = .idle ∧ x.handle.pc = .idle
  whole : ∃ last, s.disk.Holds last

lemma Fresh.inv (h : s.Fresh) : ∃ last, s.Inv last := by
  obtain ⟨last, hholds⟩ := h.whole
  refine ⟨last, .inl ⟨fun j y hy => ?_, hholds⟩⟩
  obtain ⟨hplan, hidle⟩ := h.idle y (mem_of_getElem? hy)
  exact ⟨by simp [running, hplan], hidle, by simp [hplan]⟩

/-- Where reports and swaps take turns, a terminal status stays the status of the attempt. -/
theorem terminal_kept (length : RunStatus → ℕ) (id : String) {start s t : State} {st : RunStatus}
    (hstart : start.Fresh) (hs : Reach (step length id) (InTurn length) start s)
    (ht : Reach (step length id) (InTurn length) s t) (hload : s.disk.load = some st)
    (hterminal : isTerminalRunStatus st.status) : (∃ st', t.disk.load = some st' ∧ st'.status = st.status) ∨
      t.disk.load = none ∧ ∃ x ∈ t.actors, x.handle.pc.inGap := by
  obtain ⟨first, hfirst⟩ := hstart.inv
  obtain ⟨last, -, hlast⟩ := inv_reach hfirst hs
  obtain ⟨next, hnext, hinv⟩ := inv_reach hlast ht
  have hst : last = some st := by
    rcases hlast.load with h | ⟨h, -⟩
    · exact h.symm.trans hload
    · cases h.symm.trans hload
  obtain ⟨st', hst', hstatus⟩ := hnext st hst hterminal
  rcases hinv.load with h | h
  · exact .inl ⟨st', h.trans hst', hstatus⟩
  · exact .inr h

def stalled : State where
  disk := ⟨[⟨[some ⟨.running, "a1", "k1"⟩, none], 0⟩], some 0⟩
  actors := [⟨.coordinator, ⟨0, none, .idle⟩, .idle⟩, ⟨.repair, ⟨0, none, .idle⟩, .idle⟩]
  caches := [none]

lemma stalled_fresh : stalled.Fresh := by refine ⟨by decide, some ⟨.running, "a1", "k1"⟩, .inr ⟨0, rfl, by decide, by decide⟩⟩

def swap : List (Label × ℕ) := [(.start 1 1, 2), (.act 1 ⟨1, true⟩, 1), (.start 1 1, 1), (.act 1 ⟨1, true⟩, 7), (.start 1 1, 1)]

/-- The repair fails the attempt, and then the worker's report of the failure is handled. -/
theorem terminal_kept_failed : let inTurn : State → Label → Bool := fun s l => decide (s.InTurn (fun _ => 10) l)
    let s := follow (step (fun _ => 10) "a1") inTurn stalled
      ([(.repair 1 "a1" .lease, 1), (.read 1 fun _ => true, 1)]++swap)
    let t := follow (step (fun _ => 10) "a1") inTurn s
      [(.report 0 ⟨.failed, "a1", "k1"⟩, 1), (.read 0 fun _ => true, 1), (.start 0 2, 2)]
    t ≠ s ∧ ((∃ st', t.disk.load = some st' ∧ st'.status = .failed) ∨
      t.disk.load = none ∧ ∃ x ∈ t.actors, x.handle.pc.inGap) := by
  intro inTurn s t
  have hfailed : s.disk.load = some ⟨.failed, "a1", "k1"⟩ := by decide +kernel
  refine ⟨by decide +kernel, ?_⟩
  exact terminal_kept (fun _ => 10) "a1" stalled_fresh (reach_checked _ _)
    (reach_checked _ _) hfailed (by decide)

/-- A report is accepted while the attempt is running, the repair fails the attempt, and the report is
written over it. -/
theorem terminal_overwritten :
    ¬ ∀ (length : RunStatus → ℕ) (id : String) (start s t : State) (st st' : RunStatus), start.Fresh →
      Reach (step length id) always start s → Reach (step length id) always s t →
      s.disk.load = some st → isTerminalRunStatus st.status → t.disk.load = some st' →
      st'.status = st.status := by
  intro h
  have hkept := h (fun _ => 10) "a1" stalled
    (play (step (fun _ => 10) "a1") stalled
      ([(.report 0 ⟨.running, "a1", "k1"⟩, 1), (.repair 1 "a1" .lease, 1), (.read 0 fun _ => true, 1),
        (.read 1 fun _ => true, 1)]++swap))
    (play (step (fun _ => 10) "a1") _ [(.start 0 2, 2)]) ⟨.failed, "a1", "k1"⟩ ⟨.running, "a1", "k1"⟩
    stalled_fresh (reach_play _ _) (reach_play _ _) (by decide +kernel) (by decide) (by decide +kernel)
  cases hkept

end State
end Ayatsuri.ReportStatus
