import Mathlib

/-! Lifecycle phases of dag-runs and of single nodes (`internal/core/status.go`). -/
namespace Ayatsuri

inductive Status
  | notStarted | running | failed | aborted | succeeded | queued
  | partiallySucceeded | waiting | rejected
  deriving DecidableEq

inductive NodeStatus
  | notStarted | running | failed | aborted | succeeded | skipped
  | partiallySucceeded | waiting | rejected | retrying
  deriving DecidableEq

def Status.text : Status → String
  | .notStarted => "not_started"
  | .running => "running"
  | .failed => "failed"
  | .aborted => "aborted"
  | .succeeded => "succeeded"
  | .queued => "queued"
  | .partiallySucceeded => "partially_succeeded"
  | .waiting => "waiting"
  | .rejected => "rejected"

def Status.isActive (s : Status) : Bool := s = .running || s = .queued || s = .waiting

def Status.isSuccess (s : Status) : Bool := s = .succeeded || s = .partiallySucceeded

end Ayatsuri
