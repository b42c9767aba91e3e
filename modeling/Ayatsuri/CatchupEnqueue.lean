import Ayatsuri.TransitionSystem

/-! `EnqueueCatchupRun` (`internal/service/scheduler/enqueue.go`) for one run ID, called again and again by a
process that may die at any point. Its operations on the run history are those of `CreateAttempt`,
`FindAttempt`, `Open`, `Write`, `Close` and `RemoveDAGRun` (`internal/persis/filedagrun`). -/
namespace Ayatsuri.CatchupEnqueue
open TransitionSystem Option

inductive Pc
  | idle | find | load | create | makeAttempt | openFile | write | compact | rename | close | enqueue
  | rollback | removeDir
  deriving DecidableEq

def Pc.inWindow : Pc → Bool
  | .idle | .find | .load | .create => false
  | _ => true

structure State where
  (runDir attemptDir statusFile item started : Bool)
  pc : Pc
  answer : Option Bool
  deriving DecidableEq

namespace State

def initial : State := ⟨false, false, false, false, false, .idle, none⟩

variable (s : State)

/-- `FindAttempt` finds an attempt only by its status file. -/
def found : Bool := s.runDir && s.attemptDir && s.statusFile

def answered (ok : Bool) : State := {s with pc := .idle, answer := some ok}

def act (ok : Bool) : State :=
  match s.pc with
  | .idle => s
  | .find => if ok && s.found then s.answered true else {s with pc := .load}
  -- The DAG is loaded from its source and the name of the log file is made.
  | .load => if ok then {s with pc := .create} else s.answered false
  | .create => if ok && !s.runDir then {s with runDir := true, pc := .makeAttempt} else s.answered false
  -- An error of `CreateAttempt` is returned before the roll-back is set up.
  | .makeAttempt => if ok then {s with attemptDir := true, pc := .openFile} else s.answered false
  | .openFile => if ok then {s with statusFile := true, pc := .write} else {s with pc := .rollback}
  | .write => if ok then {s with pc := .compact} else {s with pc := .rollback}
  -- `Close` compacts the file; a failing compaction is only logged.
  | .compact => if ok then {s with statusFile := false, pc := .rename} else {s with pc := .close}
  | .rename => {s with statusFile := ok, pc := .close}
  | .close => if ok then {s with pc := .enqueue} else {s with pc := .rollback}
  | .enqueue => if ok then {s with item := true}.answered true else {s with pc := .rollback}
  -- `os.RemoveAll` removes the directory after its content.
  | .rollback =>
    if ok then {s with attemptDir := false, statusFile := false, pc := .removeDir} else s.answered false
  | .removeDir => if ok then {s with runDir := false}.answered false else s.answered false

def dead : State := {s with pc := .idle, answer := none}

inductive Label
  | call
  | act (ok : Bool)
  | die | start
  deriving DecidableEq

def step : Label → Option State
  | .call => if s.pc = .idle then some {s with pc := .find, answer := none} else none
  | .act ok => if s.pc = .idle then none else some (s.act ok)
  | .die => if s.pc = .idle then none else some s.dead
  | .start => if s.item then some {s with item := false, started := true} else none

/-- The process does not die between making the run directory and the queue item or the end of the
roll-back, and no operation fails there that leaves the directory without a roll-back or without a
status file. -/
def safe : Label → Bool
  | .die => !s.pc.inWindow
  | .act false => !decide (s.pc ∈ [Pc.makeAttempt, .rename, .rollback, .removeDir])
  | _ => true

def freshCall : State := play step s [(.call, 1), (.act true, 12)]

/-- What is required of the calls after this state: nil is returned only if the run is in the queue or
has been started, and a call with all stores working returns nil. -/
def Consistent : Prop :=
  (∀ t, Reach step (fun s l => s.safe l) s t → t.answer = some true → t.item ∨ t.started) ∧
    s.freshCall.answer = some true

structure Absent : Prop where
  pc : s.pc.inWindow = false
  runDir : s.runDir = false
  item : s.item = false
  started : s.started = false
  answer : s.answer ≠ some true

structure Present : Prop where
  pc : s.pc.inWindow = false
  runDir : s.runDir
  attemptDir : s.attemptDir
  statusFile : s.statusFile
  queued : s.item ∨ s.started

structure Making : Prop where
  pc : s.pc.inWindow
  runDir : s.runDir
  item : s.item = false
  started : s.started = false
  answer : s.answer ≠ some true
  attemptDir : s.pc ∈ [Pc.openFile, .write, .compact, .rename, .close, .enqueue] → s.attemptDir
  statusFile : s.pc ∈ [Pc.write, .compact, .close, .enqueue] → s.statusFile

def Inv : Prop := s.Absent ∨ s.Present ∨ s.Making

lemma inv_initial : initial.Inv := .inl ⟨rfl, rfl, rfl, rfl, by simp [initial]⟩

variable {s : State}

lemma Absent.act (h : s.Absent) (ok : Bool) : (s.act ok).Inv := by
  obtain ⟨runDir, attemptDir, statusFile, item, started, pc, answer⟩ := s
  obtain ⟨hpc, rfl, rfl, rfl, hanswer⟩ := h
  have absent : ∀ pc answer, pc.inWindow = false → answer ≠ some true →
      Inv ⟨false, attemptDir, statusFile, false, false, pc, answer⟩ := fun _ _ hpc hne => .inl ⟨hpc, rfl, rfl, rfl, hne⟩
  cases pc with
  | idle => exact absent _ _ rfl hanswer
  | find => simpa [State.act, found] using absent .load answer rfl hanswer
  | load =>
    cases ok with
    | false => exact absent _ _ rfl (by simp)
    | true => exact absent _ _ rfl hanswer
  | create =>
    cases ok with
    | false => exact absent _ _ rfl (by simp)
    | true => exact .inr (.inr ⟨rfl, rfl, rfl, rfl, hanswer, by simp [State.act], by simp [State.act]⟩)
  | _ => exact Bool.noConfusion hpc

lemma Present.act (h : s.Present) (ok : Bool) : (s.act ok).Inv := by
  obtain ⟨runDir, attemptDir, statusFile, item, started, pc, answer⟩ := s
  obtain ⟨hpc, rfl, rfl, rfl, hqueued⟩ := h
  have present : ∀ pc answer, pc.inWindow = false → Inv ⟨true, true, true, item, started, pc, answer⟩ :=
    fun _ _ hpc => .inr (.inl ⟨hpc, rfl, rfl, rfl, hqueued⟩)
  cases pc with
  | idle => exact present _ _ rfl
  | find | load | create => cases ok <;> exact present _ _ rfl
  | _ => exact Bool.noConfusion hpc

lemma Making.act (h : s.Making) {ok : Bool} (hsafe : s.safe (.act ok) = true) : (s.act ok).Inv := by
  obtain ⟨runDir, attemptDir, statusFile, item, started, pc, answer⟩ := s
  obtain ⟨hpc, rfl, rfl, rfl, hanswer, hattempt, hfile⟩ := h
  have making : ∀ pc attemptDir statusFile, pc.inWindow = true →
      (pc ∈ [Pc.openFile, .write, .compact, .rename, .close, .enqueue] → attemptDir = true) →
      (pc ∈ [Pc.write, .compact, .close, .enqueue] → statusFile = true) →
        Inv ⟨true, attemptDir, statusFile, false, false, pc, answer⟩ := fun _ _ _ hpc hattempt hfile =>
    .inr (.inr ⟨hpc, rfl, rfl, rfl, hanswer, hattempt, hfile⟩)
  cases pc with
  | idle | find | load | create => exact Bool.noConfusion hpc
  | makeAttempt =>
    cases ok with
    | false => simp [safe] at hsafe
    | true => exact making _ _ _ rfl (fun _ => rfl) (by simp)
  | openFile =>
    cases ok with
    | false => exact making _ _ _ rfl (by simp) (by simp)
    | true => exact making _ _ _ rfl (fun _ => hattempt (by simp)) (fun _ => rfl)
  | write | close =>
    cases ok with
    | false => exact making _ _ _ rfl (by simp) (by simp)
    | true => exact making _ _ _ rfl (fun _ => hattempt (by simp)) (fun _ => hfile (by simp))
  | compact =>
    cases ok with
    | false => exact making _ _ _ rfl (fun _ => hattempt (by simp)) (fun _ => hfile (by simp))
    | true => exact making _ _ _ rfl (fun _ => hattempt (by simp)) (by simp)
  | rename =>
    cases ok with
    | false => simp [safe] at hsafe
    | true => exact making _ _ _ rfl (fun _ => hattempt (by simp)) (fun _ => rfl)
  | enqueue =>
    cases ok with
    | false => exact making _ _ _ rfl (by simp) (by simp)
    | true => exact .inr (.inl ⟨rfl, rfl, hattempt (by simp), hfile (by simp), .inl rfl⟩)
  | rollback =>
    cases ok with
    | false => simp [safe] at hsafe
    | true => exact making _ _ _ rfl (by simp) (by simp)
  | removeDir =>
    cases ok with
    | false => simp [safe] at hsafe
    | true => exact .inl ⟨rfl, rfl, rfl, rfl, by simp [State.act, answered]⟩

variable {t : State}

lemma inv_step {l} (h : s.Inv) (hsafe : s.safe l) (hstep : s.step l = some t) : t.Inv := by
  cases l with
  | act ok =>
    simp only [State.step, ite_none_left_eq_some, some.injEq] at hstep
    obtain ⟨-, rfl⟩ := hstep
    rcases h with h | h | h
    · exact h.act ok
    · exact h.act ok
    · exact h.act hsafe
  | call =>
    obtain ⟨hidle, rfl⟩ := of_guarded hstep
    rcases h with h | h | h
    · exact .inl ⟨rfl, h.runDir, h.item, h.started, by simp⟩
    · exact .inr (.inl {h with pc := rfl})
    · simpa [hidle, Pc.inWindow] using h.pc
  | die =>
    simp only [State.step, ite_none_left_eq_some, some.injEq] at hstep
    obtain ⟨-, rfl⟩ := hstep
    rcases h with h | h | h
    · exact .inl ⟨rfl, h.runDir, h.item, h.started, by simp [dead]⟩
    · exact .inr (.inl {h with pc := rfl})
    · simp [safe, h.pc] at hsafe
  | start =>
    obtain ⟨hitem, rfl⟩ := of_guarded hstep
    rcases h with h | h | h
    · simp [h.item] at hitem
    · exact .inr (.inl {h with queued := .inr rfl})
    · simp [h.item] at hitem

lemma Inv.of_reach (h : s.Inv) (hr : Reach step (fun s l => s.safe l) s t) : t.Inv := hr.preserved h inv_step

lemma Inv.answer (h : s.Inv) (hanswer : s.answer = some true) : s.item ∨ s.started := by
  rcases h with h | h | h
  · exact absurd hanswer h.answer
  · exact h.queued
  · exact absurd hanswer h.answer

lemma Inv.consistent (h : s.Inv) (hidle : s.pc = .idle) : s.Consistent := by
  refine ⟨fun t hr => (h.of_reach hr).answer, ?_⟩
  obtain ⟨runDir, attemptDir, statusFile, item, started, pc, answer⟩ := s
  subst hidle
  rcases h with ⟨-, rfl, rfl, rfl, -⟩ | ⟨-, rfl, rfl, rfl, -⟩ | ⟨hpc, -⟩
  · rfl
  · rfl
  · exact Bool.noConfusion hpc

lemma Making.not_consistent (h : s.Making) : ¬ s.dead.Consistent := by
  rintro ⟨hsafe, hfresh⟩
  obtain ⟨runDir, attemptDir, statusFile, item, started, pc, answer⟩ := s
  obtain ⟨-, rfl, rfl, rfl, -, -, -⟩ := h
  by_cases hfound : attemptDir ∧ statusFile
  · obtain ⟨rfl, rfl⟩ := hfound
    have hreach : Reach step (fun s l => s.safe l) (dead ⟨true, true, true, false, false, pc, answer⟩)
        (follow step safe (dead ⟨true, true, true, false, false, pc, answer⟩) [(.call, 1), (.act true, 1)]) :=
      reach_follow (fun _ _ h => h) _ _
    rcases hsafe _ hreach rfl with hitem | hstarted
    · exact Bool.false_ne_true hitem
    · exact Bool.false_ne_true hstarted
  · have hfail : (dead ⟨true, attemptDir, statusFile, false, false, pc, answer⟩).freshCall.answer = some false := by
      cases attemptDir <;> cases statusFile <;> first | rfl | simp at hfound
    simp [hfail] at hfresh

/-- In every history without a death or failure between the run directory and the queue item, nil is
returned only for a run that is queued or started; and a death there, and only there, spoils the
later calls. -/
theorem enqueue_crash_consistent {s : State} (h : Reach step (fun s l => s.safe l) initial s) :
    (s.answer = some true → s.item ∨ s.started) ∧ (s.dead.Consistent ↔ s.pc.inWindow = false) := by
  have hinv := inv_initial.of_reach h
  refine ⟨hinv.answer, ?_, ?_⟩
  · intro hconsistent
    rcases hinv with hs | hs | hs
    · exact hs.pc
    · exact hs.pc
    · exact absurd hconsistent hs.not_consistent
  intro hpc
  apply Inv.consistent _ rfl
  rcases hinv with hs | hs | hs
  · exact .inl ⟨rfl, hs.runDir, hs.item, hs.started, by simp [dead]⟩
  · exact .inr (.inl {hs with pc := rfl})
  · simp [hs.pc] at hpc

/-- The first call dies before it makes the run directory, the second one enqueues the run, and a third
one finds it started. -/
theorem enqueue_crash_consistent_again : ∃ s : State, s.answer = some true ∧ s.started ∧
    (s.item ∨ s.started) ∧ (s.dead.Consistent ↔ s.pc.inWindow = false) := by
  have h := enqueue_crash_consistent (reach_follow (fun _ _ h => h) initial
    [(.call, 1), (.act true, 2), (.die, 1), (.call, 1), (.act true, 12), (.start, 1), (.call, 1), (.act true, 1)])
  exact ⟨_, by decide +kernel, by decide +kernel, h.1 (by decide +kernel), h.2⟩

def Blocked (s : State) : Prop :=
  s.runDir ∧ s.statusFile = false ∧ s.pc ∈ [Pc.idle, .find, .load, .create] ∧ s.item = false ∧ s.answer ≠ some true

lemma Blocked.step {l} (h : s.Blocked) (hstep : s.step l = some t) : t.Blocked := by
  obtain ⟨runDir, attemptDir, statusFile, item, started, pc, answer⟩ := s
  obtain ⟨rfl, rfl, hpc, rfl, hanswer⟩ := h
  cases l with
  | call =>
    obtain ⟨-, rfl⟩ := of_guarded hstep
    simp [Blocked]
  | die =>
    simp only [State.step, ite_none_left_eq_some, some.injEq] at hstep
    obtain ⟨-, rfl⟩ := hstep
    simp [Blocked, dead]
  | start => simp [State.step] at hstep
  | act ok =>
    simp only [State.step, ite_none_left_eq_some, some.injEq] at hstep
    obtain ⟨hidle, rfl⟩ := hstep
    simp only [List.mem_cons, List.not_mem_nil, or_false] at hpc
    rcases hpc with rfl | rfl | rfl | rfl
    · simp at hidle
    · simpa [State.act, found, Blocked] using hanswer
    · cases ok <;> simp [State.act, Blocked, answered, hanswer]
    · simp [State.act, Blocked, answered]

/-- The process dies before `Enqueue` or before `Open`: then the next call returns nil without an item, or
no call ever does. -/
theorem enqueue_crash_spoils :
    (∃ s : State, Reach step always initial s ∧ s.answer = some true ∧ s.item = false ∧ s.started = false) ∧
    ∃ s : State, Reach step always initial s ∧ s.pc = .idle ∧ ∀ t, Reach step always s t → t.answer ≠ some true := by
  constructor
  · exact ⟨play step initial [(.call, 1), (.act true, 9), (.die, 1), (.call, 1), (.act true, 1)], reach_play _ _,
      by decide +kernel, by decide +kernel, by decide +kernel⟩
  refine ⟨play step initial [(.call, 1), (.act true, 4), (.die, 1)], reach_play _ _, by decide +kernel, ?_⟩
  intro t ht
  have hblocked : t.Blocked := by
    apply ht.invariant (P := Blocked)
    · unfold Blocked
      decide +kernel
    · intro a l b _ ha _ hstep
      exact ha.step hstep
  exact hblocked.2.2.2.2

end State
end Ayatsuri.CatchupEnqueue
