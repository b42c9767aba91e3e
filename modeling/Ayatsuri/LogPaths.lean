import Ayatsuri.RemoteLogs

/-! The log paths in the status of a remote run (`transformLogPaths` in `internal/service/coordinator/handler.go`)
against the files that the log handler writes. -/
namespace Ayatsuri.RemoteLogs
open List LogStreamer

/-- Where the status has a node. -/
inductive Slot
  | step | onInit | onExit | onSuccess | onFailure | onAbort | onWait

def Slot.fallbackName : Slot → String
  | .step => "step"
  | .onInit => "on_init"
  | .onExit => "on_exit"
  | .onSuccess => "on_success"
  | .onFailure => "on_failure"
  | .onAbort => "on_abort"
  | .onWait => "on_wait"

structure ReportedNode where
  slot : Slot := .step
  stepName : String
  /-- The worker has one path for stdout and stderr. -/
  merged : Bool := false

/-- `computePath` of `transformLogPaths`, as the parts below the log directory. -/
def computePath (run : Run) (attemptID stepName : String) (stream : StreamType) : List String :=
  let isSub := run.rootID ≠ "" ∧ run.rootID ≠ run.dagRunID
  let dagName := if isSub then run.rootName else run.dagName
  let dagRunID := if isSub then run.rootID else run.dagRunID
  let attempt := if attemptID = "" then run.dagRunID else attemptID
  [safeName dagName, safeName dagRunID, safeName attempt, logFileName stepName stream]

variable (n : ReportedNode)

/-- `transformNode`: `node.Stdout` or `node.Stderr`. -/
def ReportedNode.storedPath (run : Run) (attemptID : String) (stream : StreamType) : List String :=
  computePath run attemptID (if n.stepName = "" then n.slot.fallbackName else n.stepName) stream

/-- `setupRemoteWriters`: the chunks that carry what the step writes to a stream. -/
def ReportedNode.chunks (attemptID : String) (stream : StreamType) : LogID :=
  ⟨n.stepName, if n.merged then .stdout else stream, attemptID⟩

variable {run : Run} {attemptID : String} {nodes : List ReportedNode}

/-- Every stored path is that of the file written, and no two steps write to one file. -/
structure PathsAgree (run : Run) (attemptID : String) (nodes : List ReportedNode) : Prop where
  streams : ∀ n ∈ nodes, ∀ stream ≠ StreamType.scheduler,
    n.storedPath run attemptID stream = logFilePath run (n.chunks attemptID stream)
  scheduler : computePath run attemptID "" .scheduler = logFilePath run ⟨"", .scheduler, attemptID⟩
  apart : nodes.Pairwise fun m n => ∀ s ≠ StreamType.scheduler, ∀ t ≠ StreamType.scheduler,
    logFilePath run (m.chunks attemptID s) ≠ logFilePath run (n.chunks attemptID t)

/-- What makes the two computations agree on the directory. -/
def SameDir (run : Run) (attemptID : String) : Prop :=
  (attemptID = "" → run.rootID ≠ "" → safeName run.dagRunID = safeName run.rootID) ∧
    (run.rootID ≠ "" → run.rootID = run.dagRunID → safeName run.dagName = safeName run.rootName)

lemma safeName_ne_empty {name : String} (h : name ≠ "") : safeName name ≠ "" := by
  simpa [safeName, maxSafeNameLength] using h

variable {s t : StreamType}

lemma logFileName_inj {a b : String} (hs : s ≠ .scheduler) (ht : t ≠ .scheduler) :
    logFileName a s = logFileName b t ↔ safeName a = safeName b ∧ s = t := by
  -- The endings have one length.
  have hending : ∀ x y : String, x++".stdout.log" ≠ y++".stderr.log" := by
    intro x y heq
    have hlists := congrArg String.toList heq
    rw [String.toList_append, String.toList_append] at hlists
    exact absurd (append_inj_right' hlists (by decide)) (by decide)
  cases s <;> cases t <;> simp [logFileName, hending, (hending _ _).symm] at hs ht ⊢

lemma computePath_eq_iff {a b : String} : computePath run attemptID a s = logFilePath run ⟨b, t, attemptID⟩ ↔
    SameDir run attemptID ∧ logFileName a s = logFileName b t := by
  simp only [computePath, logFilePath, SameDir, cons.injEq, and_true]
  by_cases hroot : run.rootID = ""
  · simp [hroot]
  by_cases hself : run.dagRunID = run.rootID <;> by_cases hattempt : attemptID = "" <;>
    simp [hroot, hself, Ne.symm, hattempt]

lemma chunks_ne_scheduler {stream : StreamType} (h : stream ≠ .scheduler) :
    (if n.merged then .stdout else stream) ≠ StreamType.scheduler := by
  split_ifs
  · decide
  · exact h

open ReportedNode

end Ayatsuri.RemoteLogs
