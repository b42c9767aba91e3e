import Ayatsuri.TransitionSystem

/-! The instance file of a registered service (`internal/persis/fileserviceregistry`). `UpdateStatus` and the heartbeat,
which makes a missing file anew without the lock of the registrations, write it through one temporary file, and other
processes put it away when they take it for stale. -/
namespace Ayatsuri.ServiceRegistry
open TransitionSystem

/-- The heartbeat goroutine: it waits, has missed the file, has encoded the status, has written the temporary file. -/
inductive Beat
  | waiting | missing
  | encoded (status : ℕ)
  | written | touching | ended
  deriving DecidableEq

inductive Call
  | idle | set
  | encoded (status : ℕ)
  | written
  deriving DecidableEq

inductive Stage
  | registered | taken | cancelled | removed | returned
  deriving DecidableEq

/-- A registration, from the end of `Register` on. A status is known by the number of calls that have set one. -/
structure State where
  status : ℕ := 0
  file : Option ℕ := some 0
  temp : Option ℕ := none
  /-- The status of the last `UpdateStatus` that returned nil. -/
  confirmed : ℕ := 0
  beat : Beat := .waiting
  call : Call := .idle
  unregister : Stage := .registered
  deriving DecidableEq

inductive Label
  | quarantine | tick | beat | update | call | unregister

def Beat.Fits (status : ℕ) (temp : Option ℕ) : Beat → Prop
  | .encoded n => n = status
  | .written => temp = some status
  | .waiting | .missing | .touching | .ended => True

def Call.Fits (status : ℕ) (temp : Option ℕ) : Call → Prop
  | .encoded n => n = status
  | .written => temp = some status
  | .idle | .set => True

namespace State
variable (s : State)

/-- `os.Rename` of the temporary file; it fails if there is none. -/
def rename : State := {s with file := s.temp.or s.file, temp := none}

def beatStep : Option State :=
  match s.beat with
  -- `select` may prefer the ticker, so that the goroutine need not end when it can.
  | .waiting => if s.unregister = .registered ∨ s.unregister = .taken then none else some {s with beat := .ended}
  | .missing => some {s with beat := .encoded s.status}
  | .encoded status => some {s with temp := some status, beat := .written}
  | .written => some {s.rename with beat := if s.temp.isSome then .touching else .waiting}
  | .touching => some {s with beat := .waiting}
  | .ended => none

/-- `UpdateStatus`, which holds the lock until it returns. -/
def callStep : Option State :=
  match s.call with
  | .idle => none
  | .set => some {s with call := .encoded s.status}
  | .encoded status => some {s with temp := some status, call := .written}
  | .written => some {s.rename with call := .idle, confirmed := if s.temp.isSome then s.status else s.confirmed}

def unregisterStep : Option State :=
  match s.unregister with
  | .registered => if s.call = .idle then some {s with unregister := .taken} else none
  | .taken => some {s with unregister := .cancelled}
  | .cancelled => some {s with file := none, unregister := .removed}
  | .removed => if s.beat = .ended then some {s with unregister := .returned} else none
  | .returned => none

def step : Label → Option State
  | .quarantine => some {s with file := none}
  | .tick =>
    if s.beat = .waiting then some {s with beat := if s.file.isSome then .touching else .missing} else none
  | .beat => s.beatStep
  | .update =>
    if s.call = .idle ∧ s.unregister = .registered then some {s with status := s.status+1, call := .set} else none
  | .call => s.callStep
  | .unregister => s.unregisterStep

def recreates : Bool := s.beat ≠ .waiting && s.beat ≠ .touching && s.beat ≠ .ended

/-- The heartbeat does not miss the file while `UpdateStatus` or `Unregister` is under way, and neither of them begins
while it makes the file anew. -/
def Apart : Label → Prop
  | .tick => s.file = none → s.call = .idle ∧ s.unregister = .registered
  | .update => s.recreates = false
  | .unregister => s.unregister = .registered → s.recreates = false
  | .quarantine | .beat | .call => True

instance (s : State) (l : Label) : Decidable (s.Apart l) := by
  unfold Apart
  split <;> infer_instance

def start : State := {}

structure Inv : Prop where
  alone : s.recreates = true → s.call = .idle ∧ s.unregister = .registered
  locked : s.unregister ≠ .registered → s.call = .idle
  beat : s.beat.Fits s.status s.temp
  call : s.call.Fits s.status s.temp
  confirmed : s.confirmed ≤ s.status
  gone : s.unregister = .removed ∨ s.unregister = .returned → s.file = none

variable {s t : State}

lemma Inv.step {l : Label} (h : s.Inv) (hapart : s.Apart l) (hstep : s.step l = some t) : t.Inv := by
  obtain ⟨halone, hlocked, hbeat, hcall, hconfirmed, hgone⟩ := h
  simp only [recreates] at halone
  cases l with
  | quarantine =>
    cases hstep
    exact ⟨halone, hlocked, hbeat, hcall, hconfirmed, fun _ => rfl⟩
  | tick =>
    simp only [Apart, State.step] at hapart hstep
    split_ifs at hstep <;> cases hstep <;> constructor <;> simp_all [recreates, Beat.Fits]
  | beat =>
    simp only [State.step, beatStep] at hstep
    split at hstep
    all_goals try split_ifs at hstep
    all_goals cases hstep
    all_goals constructor <;> simp_all [recreates, Beat.Fits, Call.Fits, rename]
  | update =>
    simp only [Apart, State.step, recreates] at hapart hstep
    split_ifs at hstep
    cases hstep
    cases hpc : s.beat <;> constructor <;> simp_all [recreates, Beat.Fits, Call.Fits] <;> omega
  | call =>
    simp only [State.step, callStep] at hstep
    split at hstep
    all_goals cases hstep
    all_goals cases hpc : s.beat <;> constructor <;> simp_all [recreates, Beat.Fits, Call.Fits, rename]
  | unregister =>
    simp only [Apart, State.step, unregisterStep, recreates] at hapart hstep
    split at hstep
    all_goals try split_ifs at hstep
    all_goals cases hstep
    all_goals constructor <;> simp_all [recreates]

/-- The file is put away and made anew, the status is updated, and the service unregisters. -/
def recreated : State := follow step (fun s l => decide (s.Apart l)) start
  [(.quarantine, 1), (.tick, 1), (.beat, 4), (.update, 1), (.call, 3), (.unregister, 3), (.beat, 1), (.unregister, 1)]

/-- `Unregister` comes between the existence test of the heartbeat and its rename. -/
def leftBehind : State :=
  play step start [(.quarantine, 1), (.tick, 1), (.beat, 1), (.unregister, 3), (.beat, 4), (.unregister, 1)]

/-- So does `UpdateStatus`, and the heartbeat is about to rename. -/
def overtaken : State := play step start [(.quarantine, 1), (.tick, 1), (.beat, 1), (.update, 1), (.call, 3), (.beat, 1)]

end State
end Ayatsuri.ServiceRegistry
