import Mathlib

/-! Preconditions (`internal/runtime/condition.go`): a text that has to match an expected value, or a command that has
to succeed, and the negation of either. -/
namespace Ayatsuri.Conditions

/-- `core.Condition`. -/
structure Condition where
  condition : String
  expected : String := ""
  negate : Bool := false

structure Err where
  text : String
  /-- `errors.Is(err, ErrConditionNotMet)`. -/
  notMet : Bool := false
  deriving DecidableEq

variable (detail : String)

def errConditionNotMet : Err := ⟨"condition was not met: "++detail, true⟩

@[simp] lemma notMet_errConditionNotMet : (errConditionNotMet detail).notMet = true := rfl

/-- How `cmd.Output` ends. -/
inductive Outcome
  | exited (code : ℕ)
  | notStarted (reason : String)
  | cancelled (reason : String)

/-- What an evaluation meets: `EvalString` in its two modes, the comparison of a value with a pattern, which is `none`
for an invalid regular expression and for a line too long to scan, and the processes. -/
structure World where
  evalString : String → Except String String
  replaceVars : String → Except String String
  compare : String → String → Option Bool
  output : List String → Outcome

variable (w : World) (shell : List String) (c : Condition)

def matchPattern (value pattern : String) : Bool := (w.compare value pattern).getD false

def matchCondition : Option Err :=
  match w.evalString c.condition with
  | .error e => some {text := "failed to evaluate the value: Error="++e}
  | .ok value =>
    if matchPattern w value c.expected then none
    else some (errConditionNotMet ("expected "++c.expected.quote++", got "++value.quote))

/-- The arguments of `runShellCommand` and, without a shell, of `runDirectCommand`. -/
def argv (command : String) : List String → List String
  | [] => [command]
  | program::args => program::(if "-c" ∈ args then args else args++["-c"])++[command]

def evalCommand : Option Err :=
  match w.replaceVars c.condition with
  | .error e => some {text := "failed to evaluate command: "++e}
  | .ok command =>
    match w.output (argv command shell) with
    | .exited 0 => none
    | .exited (code+1) => some (errConditionNotMet ("exit status "++toString (code+1)))
    | .notStarted reason | .cancelled reason => some (errConditionNotMet reason)

def isMatch : Bool := c.condition ≠ "" && c.expected ≠ ""

def evalCondition : Option Err :=
  let err := if isMatch c then matchCondition w c else evalCommand w shell c
  if c.negate then
    match err with
    | none => some (errConditionNotMet "condition matched but negate is true")
    | some e => if e.notMet then none else some e
  else err

def Outcome.verdict : Outcome → Option Bool
  | .exited code => some (code = 0)
  | .notStarted _ | .cancelled _ => none

/-- Whether the condition is met, before any negation; `none` if it cannot be evaluated. -/
def verdict : Option Bool :=
  if isMatch c then (w.evalString c.condition).toOption.bind fun value => w.compare value c.expected
  else (w.replaceVars c.condition).toOption.bind fun command => (w.output (argv command shell)).verdict

/-- Negated, the condition passes only if it was evaluated and is not met; one that was not evaluated is an error. -/
def FailsClosed : Prop :=
  (evalCondition w shell {c with negate := true} = none → verdict w shell c = some false) ∧
    (verdict w shell c = none → ∀ negate, evalCondition w shell {c with negate := negate} ≠ none)

/-- A text that can be evaluated gives a value to compare, or a command that ends by itself. -/
def Settles : Prop :=
  if isMatch c then ∀ value, w.evalString c.condition = .ok value → w.compare value c.expected ≠ none
  else ∀ command, w.replaceVars c.condition = .ok command → ∃ code, w.output (argv command shell) = .exited code

theorem failsClosed_iff_settles : FailsClosed w shell c ↔ Settles w shell c := by
  have hsame : ∀ negate, isMatch {c with negate := negate} = isMatch c := fun _ => rfl
  simp only [FailsClosed, Settles, evalCondition, verdict, hsame, Bool.forall_bool]
  cases isMatch c with
  | true =>
    cases htext : w.evalString c.condition with
    | error e => simp [matchCondition, htext]
    | ok value =>
      cases hcompare : w.compare value c.expected with
      | none => simp [matchCondition, htext, matchPattern, hcompare, Except.toOption]
      | some b => cases b <;> simp [matchCondition, htext, matchPattern, hcompare, Except.toOption]
  | false =>
    cases htext : w.replaceVars c.condition with
    | error e => simp [evalCommand, htext]
    | ok command =>
      cases hout : w.output (argv command shell) with
      | exited code => cases code <;> simp [evalCommand, htext, hout, Except.toOption, Outcome.verdict]
      | notStarted reason | cancelled reason => simp [evalCommand, htext, hout, Except.toOption, Outcome.verdict]

/-- A world in which no program can be started. -/
def noPrograms : World :=
  { evalString := .ok
    replaceVars := .ok
    compare := fun value pattern => some (value = pattern)
    output := fun _ => .notStarted "executable file not found in $PATH"}

theorem negated_passes_not_started : ¬ FailsClosed noPrograms [] {condition := "ready"} := fun h => h.2 rfl true rfl

end Ayatsuri.Conditions
