import Ayatsuri.TickPlannerEffects

/-! `Flush` step by step: it clears the dirty flag, copies the state under the lock and saves the
copy outside of it. Calls come from the ticker, the event handler and the dispatch goroutines of
one-off runs; writers change the state and set the flag in one critical section. -/
namespace Ayatsuri.Scheduler
open TransitionSystem Function

/-- Where a `Flush` call is. -/
inductive FlushPc (V : Type)
  | idle | snapshot
  | save (copy : V)

structure Flusher (V : Type) where
  watermarkState : V
  watermarkDirty : Bool
  saved : Option V
  failed : Bool
  call : ℕ → FlushPc V

namespace Flusher

inductive Label (V : Type)
  | write (v : V)
  | compareAndSwap (i : ℕ)
  | snapshot (i : ℕ)
  | save (i : ℕ) (ok : Bool)

variable {V : Type} (f : Flusher V)

def setCall (i : ℕ) (pc : FlushPc V) : Flusher V := {f with call := update f.call i pc}

def step : Label V → Option (Flusher V)
  | .write v => some {f with watermarkState := v, watermarkDirty := true}
  | .compareAndSwap i =>
    match f.call i with
    | .idle =>
      if f.watermarkDirty then some ({f with watermarkDirty := false}.setCall i .snapshot)
      else some f
    | _ => none
  | .snapshot i =>
    match f.call i with
    | .snapshot => some (f.setCall i (.save f.watermarkState))
    | _ => none
  | .save i ok =>
    match f.call i with
    | .save copy =>
      if ok then some ({f with saved := some copy}.setCall i .idle)
      else some ({f with watermarkDirty := true, failed := true}.setCall i .idle)
    | _ => none

/-- No call of `Flush` is past its flag. -/
def Idle : Prop := ∀ i, f.call i = .idle

def serial : Label V → Prop
  | .compareAndSwap _ => f.watermarkDirty → f.Idle
  | _ => True

/-- Only call `i` is past its flag. -/
def Only (i : ℕ) : Prop := ∀ j, j ≠ i → f.call j = .idle

/-- Either nothing is under way and the last snapshot is current, or the flag is set, or the one
call under way is going to save the current state. -/
inductive Current (f : Flusher V) : Prop
  | idle (idle : f.Idle)
      (saved : f.failed = false → f.watermarkDirty = false → ∀ v, f.saved = some v → v = f.watermarkState)
  | copying (i : ℕ) (only : f.Only i) (pc : f.call i = .snapshot)
  | saving (i : ℕ) (only : f.Only i) (copy : V) (pc : f.call i = .save copy)
      (newest : f.watermarkDirty = false → copy = f.watermarkState)

variable {f : Flusher V} {i : ℕ}

lemma Only.eq_of_call {j : ℕ} (h : f.Only i) (hj : f.call j ≠ .idle) : j = i := by
  by_contra hne
  exact hj (h j hne)

variable {g : Flusher V}

lemma only_setCall {pc} (h : f.Only i) (hg : g.call = f.call) : (g.setCall i pc).Only i := by
  intro j hj
  simp [setCall, update_of_ne hj, hg, h j hj]

lemma idle_setCall (h : f.Only i) (hg : g.call = f.call) : (g.setCall i .idle).Idle := by
  intro j
  by_cases hj : j = i
  · subst hj
    simp [setCall]
  · simp [setCall, update_of_ne hj, hg, h j hj]

lemma Idle.only (h : f.Idle) (i : ℕ) : f.Only i := fun j _ => h j

variable {f g : Flusher V}

lemma Current.write {v : V} (h : f.Current) :
    ({f with watermarkState := v, watermarkDirty := true} : Flusher V).Current := by
  cases h with
  | idle hidle => exact .idle hidle (by simp)
  | copying i honly hpc => exact .copying i honly hpc
  | saving i honly copy hpc => exact .saving i honly copy hpc (by simp)

lemma Current.compareAndSwap (h : f.Current) (hserial : f.watermarkDirty → f.Idle)
    (hstep : f.step (.compareAndSwap i) = some g) : g.Current := by
  simp only [step] at hstep
  split at hstep
  · split_ifs at hstep with hdirty
    · cases hstep
      exact .copying i (only_setCall ((hserial hdirty).only i) rfl) (by simp [setCall])
    · cases hstep
      exact h
  · simp at hstep

lemma Current.snapshot (h : f.Current) (hstep : f.step (.snapshot i) = some g) : g.Current := by
  simp only [step] at hstep
  split at hstep
  · next hpc =>
    cases hstep
    have honly : f.Only i := by
      cases h with
      | idle hidle => simp [hidle i] at hpc
      | copying j honly | saving j honly => exact honly.eq_of_call (j := i) (by simp [hpc]) ▸ honly
    exact .saving i (only_setCall honly rfl) f.watermarkState (by simp [setCall]) fun _ => rfl
  · simp at hstep

lemma Current.save {ok} (h : f.Current) (hstep : f.step (.save i ok) = some g) : g.Current := by
  simp only [step] at hstep
  split at hstep
  · next copy hpc =>
    cases h with
    | idle hidle => simp [hidle i] at hpc
    | copying j honly hj =>
      obtain rfl := honly.eq_of_call (j := i) (by simp [hpc])
      simp [hpc] at hj
    | saving j honly copy' hj hnewest =>
      obtain rfl := honly.eq_of_call (j := i) (by simp [hpc])
      obtain rfl : copy = copy' := by simpa [hpc] using hj
      split_ifs at hstep
      · cases hstep
        refine .idle (idle_setCall honly rfl) fun _ hdirty v hv => ?_
        obtain rfl : copy = v := Option.some.inj hv
        exact hnewest hdirty
      · cases hstep
        exact .idle (idle_setCall honly rfl) (by simp [setCall])
  · simp at hstep

def loaded (v : V) (dirty : Bool) : Flusher V := ⟨v, dirty, none, false, fun _ => .idle⟩

/-- A writer, then a whole `Flush`. -/
def writeThenFlush : List (Label ℕ × ℕ) := [(.write 1, 1), (.compareAndSwap 0, 1), (.snapshot 0, 1), (.save 0 true, 1)]

def overlapping : List (Label ℕ × ℕ) :=
  [(.write 1, 1), (.compareAndSwap 0, 1), (.snapshot 0, 1), (.write 2, 1), (.compareAndSwap 1, 1),
    (.snapshot 1, 1), (.save 1 true, 1), (.save 0 true, 1)]

def ofState (s : State) : Flusher SchedulerState :=
  ⟨s.planner.watermarkState, s.planner.watermarkDirty, some s.store, false, fun _ => .idle⟩

/-- A `Flush` that nothing interrupts does what the planner's `flush` does in one step. -/
lemma flush_uninterrupted (s : State) (ok : Bool) :
    let f := play step (ofState s) [(.compareAndSwap 0, 1), (.snapshot 0, 1), (.save 0 ok, 1)]
    f.watermarkState = (s.flush ok).planner.watermarkState ∧
      f.watermarkDirty = (s.flush ok).planner.watermarkDirty ∧ f.saved = some (s.flush ok).store := by
  cases hd : s.planner.watermarkDirty <;> cases ok <;>
    simp [play, follow, repeatWhile, step, ofState, setCall, State.flush, hd]

end Flusher
end Ayatsuri.Scheduler
