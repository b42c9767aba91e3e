import Ayatsuri.DispatchSteps

/-! Any number of calls in any number of coordinator processes: a task is accepted once as long as no two
calls are at work on one claim. -/
namespace Ayatsuri.Distributed
open TransitionSystem

namespace Dispatch
variable {encodeKey : String → String} {s t : Dispatch} {pc : Pc} {f : FileName} {value : DispatchTaskFile}

lemma temp_exists {target} {w : Write}
    (hknows : w.Knows s.claims target value) (hf : w.temp? target = some f) : s.claims.get? f ≠ none := by
  cases w with
  | create => cases hf
  | fill suffix | move suffix =>
    cases hf
    obtain ⟨time, hget⟩ := hknows
    simp [hget]

variable {r : DispatchTaskFile}

lemma Claimed.exists (h : s.Claimed f r) : s.claims.get? f ≠ none := by
  obtain ⟨time, hget⟩ := h
  simp [hget]

lemma Knows.exists (h : s.Knows encodeKey pc) (hf : pc.Busy encodeKey f) : s.claims.get? f ≠ none := by
  rcases hf with hf | hf
  · cases pc with
    | rewrite =>
      cases hf
      exact h.2.1.exists
    | requeue =>
      cases hf
      exact h.2.exists
    | stamp =>
      cases hf
      obtain ⟨-, r, hr, -⟩ := h
      exact hr.exists
    | writeClaim =>
      cases hf
      obtain ⟨-, ⟨r, hr, -⟩, -⟩ := h
      exact hr.exists
    | giveBack =>
      cases hf
      obtain ⟨r, hr, -⟩ := h
      exact hr.exists
    | upsertLease | deleteClaim =>
      cases hf
      exact Claimed.exists h
    | _ => cases hf
  · cases pc with
    | rewrite | writeClaim => exact temp_exists h.2.2 hf
    | _ => cases hf

lemma Claimed.frame (h : s.Claimed f r) (hget : t.claims.get? f = s.claims.get? f) : t.Claimed f r := by
  obtain ⟨time, h⟩ := h
  exact ⟨time, hget.trans h⟩

lemma write_knows_frame {target} {w : Write}
    (h : w.Knows s.claims target value) (hget : ∀ f, w.temp? target = some f → t.claims.get? f = s.claims.get? f) :
    w.Knows t.claims target value := by
  cases w with
  | create => trivial
  | fill suffix | move suffix =>
    obtain ⟨time, h⟩ := h
    exact ⟨time, (hget _ rfl).trans h⟩

lemma Knows.frame (h : s.Knows encodeKey pc) (hget : ∀ f, pc.Busy encodeKey f → t.claims.get? f = s.claims.get? f)
    (hripe : ∀ f, .enqueue f.base ∈ s.log → s.Ripe f → t.Ripe f) (hlog : s.log ⊆ t.log) : t.Knows encodeKey pc := by
  cases pc with
  | take => exact ⟨h.1, hlog h.2.1, hripe _ h.2.1 h.2.2⟩
  | rewrite => exact ⟨h.1, h.2.1.frame (hget _ (.inl rfl)), write_knows_frame h.2.2 fun f hf => hget f (.inr hf)⟩
  | requeue => exact ⟨h.1, h.2.frame (hget _ (.inl rfl))⟩
  | stamp =>
    obtain ⟨hname, r, hr, hname'⟩ := h
    exact ⟨hname, r, hr.frame (hget _ (.inl rfl)), hname'⟩
  | writeClaim =>
    obtain ⟨hname, ⟨r, hr, hname'⟩, hw⟩ := h
    exact ⟨hname, ⟨r, hr.frame (hget _ (.inl rfl)), hname'⟩, write_knows_frame hw fun f hf => hget f (.inr hf)⟩
  | giveBack =>
    obtain ⟨r, hr, hname⟩ := h
    exact ⟨r, hr.frame (hget _ (.inl rfl)), hname⟩
  | upsertLease | deleteClaim => exact Claimed.frame h (hget _ (.inl rfl))
  | enqueue record w =>
    cases w with
    | create => trivial
    | fill suffix => exact hlog h
    | move suffix => exact ⟨hlog h.1, hripe _ h.1 h.2⟩
  | _ => trivial

end Dispatch

variable {encodeKey : String → String}

lemma Pc.not_busy_of_takes {a} {pc : Pc} {f g} (h : pc.takes encodeKey a = some f) : ¬ pc.Busy encodeKey g := by
  cases pc <;> simp [Pc.takes, Pc.Busy, Pc.target, Pc.temp] at h ⊢

lemma Pc.not_busy_call {call : Call} {f} : ¬ call.pc.Busy encodeKey f := by
  cases call <;> simp [Call.pc, Pc.Busy, Pc.target, Pc.temp]

namespace Coordinators
variable (encodeKey : String → String)

instance {encodeKey : String → String} {pc : Pc} {f : FileName} : Decidable (pc.Busy encodeKey f) := instDecidableOr

variable (s : Coordinators)

/-- A claim is read in order to recycle or to acknowledge it only while no other call is at work on its
file. -/
def Exclusive : Label → Prop
  | .call _ _ => True
  | .act i a => ∀ x ∈ s.threads[i]?, ∀ f ∈ x.pc.takes encodeKey a, ∀ y ∈ s.threads.zipIdx, y.2 ≠ i →
      ¬ y.1.pc.Busy encodeKey f

instance {encodeKey : String → String} {s : Coordinators} (l : Label) : Decidable (s.Exclusive encodeKey l) := by
  unfold Coordinators.Exclusive
  split <;> infer_instance

structure Inv : Prop where
  sound : s.dispatch.Sound
  knows : ∀ (i : ℕ) (x : Thread), s.threads[i]? = some x → s.dispatch.Knows encodeKey x.pc
  apart : ∀ (i j : ℕ) (x y : Thread), i ≠ j → s.threads[i]? = some x → s.threads[j]? = some y →
    ∀ f, x.pc.Busy encodeKey f → ¬ y.pc.Busy encodeKey f
  owned : ∀ f, f.temps ≠ [] → s.dispatch.claims.get? f ≠ none →
    ∃ (i : ℕ) (x : Thread), s.threads[i]? = some x ∧ x.pc.temp encodeKey = some f

variable (processes : List ℕ)

def start : Coordinators := ⟨⟨Dir.empty, Dir.empty, []⟩, processes.map fun process => ⟨process, .idle⟩⟩

variable {encodeKey} {s t : Coordinators} {i : ℕ} {x : Thread} {a : Answer} {d : Dispatch} {pc : Pc}

lemma inv_start : (start processes).Inv encodeKey := by
  have hidle : ∀ (i : ℕ) (x : Thread), (start processes).threads[i]? = some x → x.pc = .idle := by
    intro i x hx
    simp only [start, List.getElem?_map, Option.map_eq_some_iff] at hx
    obtain ⟨_, -, rfl⟩ := hx
    rfl
  have hnone : ∀ n p, ¬ (start processes).dispatch.Holds n p := by
    rintro n (f | f) <;> simp [start, Dispatch.Holds, Dispatch.Claimed, Dir.get?, Dir.empty]
  constructor
  · constructor
    · simp [start, Dir.get?, Dir.empty]
    · exact fun n p hp => absurd hp (hnone n p)
    · exact fun n p _ hp => absurd hp (hnone n p)
    · simp [start]
    · trivial
  · intro i x hx
    rw [hidle i x hx]
    trivial
  · intro i j x y _ hx _ f hf
    rw [hidle i x hx] at hf
    simp [Pc.Busy, Pc.target, Pc.temp] at hf
  · intro f _ hf
    simp [start, Dir.get?, Dir.empty] at hf

lemma inv_set (h : s.Inv encodeKey) (hx : s.threads[i]? = some x)
    (hprogress : s.dispatch.Progress encodeKey a x.pc d pc)
    (htakes : ∀ f, x.pc.takes encodeKey a = some f → ∀ (j : ℕ) (y : Thread), j ≠ i → s.threads[j]? = some y →
      ¬ y.pc.Busy encodeKey f) : Inv encodeKey ⟨d, s.threads.set i {x with pc := pc}⟩ := by
  -- A file that the call is at work on after the step is none of another call's.
  have hothers : ∀ (j : ℕ) (y : Thread), j ≠ i → s.threads[j]? = some y → ∀ f, pc.Busy encodeKey f →
      ¬ y.pc.Busy encodeKey f := by
    intro j y hj hy f hf hbusy
    rcases hprogress.busy f hf with hf | hf | ⟨hf, -⟩
    · exact h.apart i j x y hj.symm hx hy f hf hbusy
    · exact (h.knows j y hy).exists hbusy hf
    · exact htakes f hf j y hj hy hbusy
  constructor
  · exact hprogress.sound
  · intro j y hy
    rcases getElem?_set_cases hy with ⟨rfl, rfl⟩ | ⟨hj, hy⟩
    · exact hprogress.knows
    refine (h.knows j y hy).frame (fun f hf => ?_) hprogress.ripe hprogress.log
    exact hprogress.frame f (fun hbusy => h.apart i j x y hj.symm hx hy f hbusy hf)
      fun hbusy => hothers j y hj hy f hbusy hf
  · intro j k y z hne hy hz f hf hbusy
    rcases getElem?_set_cases hy with ⟨rfl, rfl⟩ | ⟨hj, hy'⟩ <;> rcases getElem?_set_cases hz with ⟨rfl, rfl⟩ | ⟨hk, hz'⟩
    · exact hne rfl
    · exact hothers k z hk hz' f hf hbusy
    · exact hothers j y hj hy' f hbusy hf
    · exact h.apart j k y z hne hy' hz' f hf hbusy
  · intro f hf hget
    have hlt : i < s.threads.length := lt_of_getElem? hx
    rcases hprogress.temps f hf hget with htemp | ⟨hget, htemp⟩
    · exact ⟨i, {x with pc := pc}, List.getElem?_set_self hlt, htemp⟩
    obtain ⟨j, y, hy, hytemp⟩ := h.owned f hf hget
    have hj : i ≠ j := by
      rintro rfl
      rw [hx] at hy
      cases hy
      exact htemp hytemp
    exact ⟨j, y, (List.getElem?_set_ne hj).trans hy, hytemp⟩

lemma inv_step (h : s.Inv encodeKey) {l} (hexclusive : s.Exclusive encodeKey l)
    (hstep : s.step encodeKey l = some t) : t.Inv encodeKey := by
  cases l with
  | call i call =>
    simp only [step] at hstep
    split at hstep
    · rename_i process hx
      cases hstep
      refine inv_set (a := ⟨true, false, "", "", 0⟩) h hx (.still h.sound ?_ rfl ?_) ?_
      · cases call <;> trivial
      · exact fun f hf => absurd hf Pc.not_busy_call
      · intro f hf
        cases hf
    · cases hstep
  | act i a =>
    simp only [step] at hstep
    cases hx : s.threads[i]? with
    | none => simp [hx] at hstep
    | some x =>
      simp only [hx] at hstep
      split_ifs at hstep
      obtain ⟨⟨d, pc⟩, hact, heq⟩ := Option.map_eq_some_iff.mp hstep
      cases heq
      have htakes : ∀ f, x.pc.takes encodeKey a = some f → ∀ (j : ℕ) (y : Thread), j ≠ i →
          s.threads[j]? = some y → ¬ y.pc.Busy encodeKey f := by
        intro f hf j y hj hy
        exact hexclusive x hx f hf (y, j) (List.mem_zipIdx_iff_getElem?.mpr hy) hj
      refine inv_set h hx (Dispatch.progress_act h.sound (h.knows i x hx) (fun f hf hget => ?_) hact) htakes
      -- A temporary file belongs to another call.
      by_contra htemps
      obtain ⟨j, y, hy, htemp⟩ := h.owned f htemps hget
      have hj : j ≠ i := by
        rintro rfl
        rw [hx] at hy
        cases hy
        exact Pc.not_busy_of_takes hf (.inr htemp)
      exact htakes f hf j y hj hy (.inr htemp)

/-- In every run in which no two calls are at work on one claim, at most one acknowledgement of a task is
accepted, and no task is handed out after that. -/
theorem accepted_at_most_once {processes : List ℕ}
    (h : Reach (step encodeKey) (Exclusive encodeKey) (start processes) t) : AtMostOnce t.dispatch.log := by
  have hinv : t.Inv encodeKey := h.preserved (P := Inv encodeKey) (inv_start processes) fun ha => inv_step ha
  exact hinv.sound.once

/-! ### A claim that expires while it is acknowledged -/

def sampleTask : Task := ⟨"default", "attempt", [], "", "", 0, "", ""⟩

def sampleClaim : DispatchTaskClaim := ⟨"worker", "poller", ⟨"coordinator", "localhost", 50055⟩, [], 30000⟩

def answer (claimToken : String) : Answer := ⟨true, true, "1", claimToken, 1⟩

def recycled : List (Label × ℕ) :=
  [(.call 0 (.enqueue "task.json" sampleTask 0), 1), (.act 0 (answer ""), 3),
    (.call 1 (.claimNext sampleClaim), 1), (.act 1 (answer "a"), 10),
    (.call 1 (.claimNext sampleClaim), 1), (.act 1 (answer "b"), 15),
    (.call 2 (.ackTaskClaim "b" "worker"), 1), (.act 2 (answer ""), 3)]

theorem accepted_at_most_once_recycled :
    .accepted "task.json" ∈ (follow (step id) (fun s l => decide (s.Exclusive id l)) (start [0, 0, 1])
        recycled).dispatch.log ∧ AtMostOnce (follow (step id) (fun s l => decide (s.Exclusive id l)) (start [0, 0, 1])
        recycled).dispatch.log := ⟨by decide +kernel, accepted_at_most_once (reach_checked _ _)⟩

/-- The worker of the first claim acknowledges it. When the claim has been read, it expires: a `ClaimNext`
of the same process recycles it and hands the task out again, and both workers are told Accepted. -/
def overtaken : List (Label × ℕ) :=
  [(.call 0 (.enqueue "task.json" sampleTask 0), 1), (.act 0 (answer ""), 3),
    (.call 1 (.claimNext sampleClaim), 1), (.act 1 (answer "a"), 10),
    (.call 0 (.ackTaskClaim "a" "worker"), 1), (.act 0 (answer ""), 1),
    (.call 1 (.claimNext sampleClaim), 1), (.act 1 (answer "b"), 15),
    (.act 0 (answer ""), 2),
    (.call 2 (.ackTaskClaim "b" "worker"), 1), (.act 2 (answer ""), 3)]

theorem accepted_twice : ¬ ∀ t, Reach (step id) always (start [0, 0, 0]) t → AtMostOnce t.dispatch.log := by
  intro h
  have honce := h _ (reach_play (start [0, 0, 0]) overtaken)
  have hlog : (play (step id) (start [0, 0, 0]) overtaken).dispatch.log =
      [.accepted "task.json", .accepted "task.json", .handedOut "task.json", .handedOut "task.json",
        .enqueue "task.json"] := by decide +kernel
  rw [hlog] at honce
  revert honce
  decide

end Coordinators
end Ayatsuri.Distributed
