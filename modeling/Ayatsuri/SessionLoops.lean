import Ayatsuri.TransitionSystem

/-! The loop of an agent session (`internal/agent/session.go`). `ensureLoop` creates a loop outside of the manager's lock
and stores it in a second critical section; the goroutine of a loop clears the manager's fields when it ends, and so
does `Cancel`, which afterwards cancels the context of the loop it has taken out. -/
namespace Ayatsuri.SessionLoops
open TransitionSystem List Option

inductive Phase
  | created | running
  /-- `loop.Go` has returned, the deferred function has still to run. -/
  | returned | ended
  deriving DecidableEq

structure Loop where
  cancelled : Bool
  phase : Phase
  deriving DecidableEq

def Loop.live (x : Loop) : Prop := x.cancelled = false ∧ (x.phase = .running ∨ x.phase = .returned)

instance (x : Loop) : Decidable x.live := instDecidableAnd

inductive Accepted
  | routed
  | queued (loop : ℕ)
  | notInitialized
  deriving DecidableEq

/-- Where a call of `AcceptUserMessage` is: first in `ensureLoop`, then in `enqueueImmediateUserMessage`. -/
inductive AcceptPc
  | check | create
  | store (loop : ℕ)
  | abandon (loop : ℕ)
  | spawn (loop : ℕ)
  | enqueue
  | done (result : Accepted)
  deriving DecidableEq

def AcceptPc.isDone : AcceptPc → Bool
  | .done _ => true
  | .check | .create | .store _ | .abandon _ | .spawn _ | .enqueue => false

def AcceptPc.stores : AcceptPc → Bool
  | .store _ => true
  | .check | .create | .abandon _ | .spawn _ | .enqueue | .done _ => false

/-- Where a call of `Cancel` is. -/
inductive CancelPc
  | flag | clear
  | fire (loop : ℕ)
  | done
  deriving DecidableEq

def CancelPc.fires : CancelPc → Bool
  | .fire _ => true
  | .flag | .clear | .done => false

/-- `SessionManager` with its goroutines. A loop and the function that cancels its context have one number. -/
structure State where
  (loop loopCancel : Option ℕ)
  canceling : Bool
  loops : List Loop
  accepts : List AcceptPc
  cancels : List CancelPc
  deriving DecidableEq

inductive Label
  | message
  | accept (i : ℕ) (routed : Bool)
  | cancel
  | cancelStep (i : ℕ)
  /-- `loop.Go` returns, for whatever reason. -/
  | stop (k : ℕ)
  /-- The deferred function of `runLoop`. -/
  | exit (k : ℕ)
  deriving DecidableEq

namespace State
variable (s : State) (i : ℕ)

def setAccept (pc : AcceptPc) : State := {s with accepts := s.accepts.set i pc}

def setCancel (pc : CancelPc) : State := {s with cancels := s.cancels.set i pc}

variable (k : ℕ)

def setLoop (f : Loop → Loop) : State := {s with loops := s.loops.modify k f}

def clearLoop : State := {s with loop := none, loopCancel := none}

def acceptStep (routed : Bool) : AcceptPc → Option State
  | .check =>
    if s.loop ≠ none then some (s.setAccept i .enqueue) else some ({s with canceling := false}.setAccept i .create)
  | .create => some ({s with loops := s.loops++[Loop.mk false .created]}.setAccept i (.store s.loops.length))
  | .store k =>
    if s.loop ≠ none then some (s.setAccept i (.abandon k))
    else some ({s with loop := some k, loopCancel := some k}.setAccept i (.spawn k))
  | .abandon k => some ((s.setLoop k fun x => {x with cancelled := true}).setAccept i .enqueue)
  | .spawn k => some ((s.setLoop k fun x => {x with phase := .running}).setAccept i .enqueue)
  | .enqueue =>
    if routed then some (s.setAccept i (.done .routed))
    else
      match s.loop with
      | none => some (s.setAccept i (.done .notInitialized))
      | some k => some (s.setAccept i (.done (.queued k)))
  | .done _ => none

def cancelStep : CancelPc → Option State
  | .flag => some ({s with canceling := true}.setCancel i .clear)
  | .clear =>
    match s.loopCancel with
    | none => some (s.clearLoop.setCancel i .done)
    | some k => some (s.clearLoop.setCancel i (.fire k))
  | .fire k => some ((s.setLoop k fun x => {x with cancelled := true}).setCancel i .done)
  | .done => none

def step : Label → Option State
  | .message => some {s with accepts := s.accepts++[.check]}
  | .accept i routed =>
    match s.accepts[i]? with
    | none => none
    | some pc => s.acceptStep i routed pc
  | .cancel => some {s with cancels := s.cancels++[.flag]}
  | .cancelStep i =>
    match s.cancels[i]? with
    | none => none
    | some pc => s.cancelStep i pc
  | .stop k =>
    match s.loops[k]? with
    | some ⟨_, .running⟩ => some (s.setLoop k fun x => {x with phase := .returned})
    | _ => none
  | .exit k =>
    match s.loops[k]? with
    | some ⟨_, .returned⟩ => some ((s.setLoop k fun x => {x with phase := .ended}).clearLoop)
    | _ => none

def init : State := ⟨none, none, false, [], [], []⟩

/-- The loop goroutine `k` has an uncancelled context. -/
def Live : Prop := ∃ x ∈ s.loops[k]?, x.live

instance (s : State) (k : ℕ) : Decidable (s.Live k) := inferInstanceAs (Decidable (∃ x ∈ s.loops[k]?, x.live))

/-- A call of `Cancel` has taken the loop out and is about to cancel it. -/
def Taken : Prop := .fire k ∈ s.cancels

/-- A goroutine ends only while no other loop is stored, and a loop is stored only while no call of `Cancel` has one in hand. -/
def Orderly : Label → Prop
  | .exit k => s.loop = none ∨ s.loop = some k
  | .accept i _ => s.accepts[i]?.any AcceptPc.stores → ∀ pc ∈ s.cancels, pc.fires = false
  | _ => True

instance (s : State) (l : Label) : Decidable (s.Orderly l) := by
  unfold Orderly
  split <;> infer_instance

end State

/-! ### Who answers for a loop -/

@[simp] def AcceptPc.loop : AcceptPc → Option ℕ
  | .store k | .abandon k | .spawn k => some k
  | .check | .create | .enqueue | .done _ => none

open AcceptPc State

namespace State
variable (s : State)

def Over (k : ℕ) : Prop := ∃ x ∈ s.loops[k]?, x.cancelled ∨ x.phase = .ended

def Covered (k : ℕ) : Prop := s.loop = some k ∨ s.Taken k ∨ s.Over k

structure Inv : Prop where
  same : s.loopCancel = s.loop
  made : ∀ (i k : ℕ), (s.accepts[i]?.bind AcceptPc.loop) = some k → ∃ x ∈ s.loops[k]?, x.phase = .created
  unique : ∀ (i j k : ℕ), (s.accepts[i]?.bind AcceptPc.loop) = some k → (s.accepts[j]?.bind AcceptPc.loop) = some k → i = j
  spawning : ∀ k, .spawn k ∈ s.accepts → s.Covered k
  live : ∀ k, s.Live k → s.Covered k

variable {s t : State} {k : ℕ}

lemma getElem?_setLoop (s : State) (j : ℕ) (f : Loop → Loop) (k : ℕ) :
    (s.setLoop j f).loops[k]? = if j = k then s.loops[k]?.map f else s.loops[k]? := by
  by_cases hjk : j = k <;> simp [setLoop, hjk]

variable {j : ℕ} {f : Loop → Loop}

lemma exists_setLoop {P Q : Loop → Prop} (h : ∃ x ∈ s.loops[k]?, P x)
    (hself : ∀ x ∈ s.loops[k]?, j = k → P x → Q (f x)) (hother : ∀ x, j ≠ k → P x → Q x) :
    ∃ x ∈ (s.setLoop j f).loops[k]?, Q x := by
  obtain ⟨x, hx, hP⟩ := h
  by_cases hjk : j = k
  · refine ⟨f x, ?_, hself x hx hjk hP⟩
    rw [getElem?_setLoop, if_pos hjk, mem_def, mem_def.mp hx]
    rfl
  refine ⟨x, ?_, hother x hjk hP⟩
  rw [getElem?_setLoop, if_neg hjk]
  exact hx

lemma live_setLoop (h : (s.setLoop j f).Live k) : s.Live k ∧ j ≠ k ∨ j = k ∧ ∃ x ∈ s.loops[k]?, (f x).live := by
  obtain ⟨x, hx, hlive⟩ := h
  rw [getElem?_setLoop, mem_def] at hx
  split_ifs at hx with hjk
  · obtain ⟨y, hy, rfl⟩ := map_eq_some_iff.mp hx
    exact .inr ⟨hjk, y, hy, hlive⟩
  · exact .inl ⟨⟨x, hx, hlive⟩, hjk⟩

variable {i : ℕ}

lemma loop_setAccept {pc : AcceptPc} (h : (((s.setAccept i pc).accepts[j]?).bind AcceptPc.loop) = some k) :
    j = i ∧ pc.loop = some k ∨ j ≠ i ∧ (s.accepts[j]?.bind AcceptPc.loop) = some k := by
  obtain ⟨pc', hpc', hk⟩ := bind_eq_some_iff.mp h
  rcases getElem?_set_cases hpc' with ⟨rfl, rfl⟩ | ⟨hne, hpc'⟩
  · exact .inl ⟨rfl, hk⟩
  · exact .inr ⟨hne, bind_eq_some_iff.mpr ⟨pc', hpc', hk⟩⟩

lemma Covered.of_step {u : State} (h : s.Covered k) (hloop : s.loop = some k → u.loop = some k)
    (hcancels : u.cancels = s.cancels) (hover : s.Over k → u.Over k) : u.Covered k := by
  rcases h with h | h | h
  · exact .inl (hloop h)
  · exact .inr (.inl (by rw [Taken, hcancels]; exact h))
  · exact .inr (.inr (hover h))

namespace Inv
variable {i : ℕ}

lemma accept {u : State} {pc pc' : AcceptPc} (h : s.Inv) (hpc : s.accepts[i]? = some pc)
    (haccepts : u.accepts = s.accepts) (hsame : u.loopCancel = u.loop)
    (hcreated : ∀ k, (∃ x ∈ s.loops[k]?, x.phase = .created) → pc.loop ≠ some k ∨ pc'.loop = some k →
      ∃ x ∈ u.loops[k]?, x.phase = .created)
    (hmine : ∀ k, pc'.loop = some k → pc.loop = some k ∨ s.loops[k]? = none ∧ ∃ x ∈ u.loops[k]?, x.phase = .created)
    (hcovered : ∀ k, s.Covered k → u.Covered k) (hspawn : ∀ k, pc' = .spawn k → u.Covered k)
    (hlive : ∀ k, u.Live k → s.Live k ∨ u.Covered k) : (u.setAccept i pc').Inv where
  same := hsame
  made j k hk := by
    rcases loop_setAccept hk with ⟨rfl, hown⟩ | ⟨hne, hother⟩
    · rcases hmine k hown with hold | ⟨-, hnew⟩
      · exact hcreated k (h.made j k (by rw [hpc]; exact hold)) (.inr hown)
      · exact hnew
    rw [haccepts] at hother
    refine hcreated k (h.made j k hother) (.inl fun hold => hne ?_)
    exact h.unique j i k hother (by rw [hpc]; exact hold)
  unique j j' k hj hj' := by
    -- A loop that a call has just created is nobody else's.
    have hothers : ∀ m, (s.accepts[m]?.bind AcceptPc.loop) = some k → pc'.loop = some k → m = i := by
      intro m hm hk
      rcases hmine k hk with hold | ⟨hnone, -⟩
      · exact h.unique m i k hm (by rw [hpc]; exact hold)
      obtain ⟨x, hx, -⟩ := h.made m k hm
      rw [hnone] at hx
      cases hx
    rcases loop_setAccept hj with ⟨hji, hown⟩ | ⟨-, hother⟩
    · rcases loop_setAccept hj' with ⟨hj'i, -⟩ | ⟨-, hother'⟩
      · rw [hji, hj'i]
      · rw [hji, hothers j' (haccepts ▸ hother') hown]
    rcases loop_setAccept hj' with ⟨hj'i, hown'⟩ | ⟨-, hother'⟩
    · rw [hj'i, hothers j (haccepts ▸ hother) hown']
    · exact h.unique j j' k (haccepts ▸ hother) (haccepts ▸ hother')
  spawning k hk := by
    rcases mem_or_eq_of_mem_set hk with hk | hk
    · exact hcovered k (h.spawning k (haccepts ▸ hk))
    · exact hspawn k hk.symm
  live k hk := by
    rcases hlive k hk with hold | hnew
    · exact hcovered k (h.live k hold)
    · exact hnew

lemma acceptStep {pc routed} (h : s.Inv) (hpc : s.accepts[i]? = some pc)
    (hstep : s.acceptStep i routed pc = some t) : t.Inv := by
  have hgoto {pc' : AcceptPc} (hloop : ∀ k, pc'.loop = some k → pc.loop = some k) (hspawn : ∀ k, pc' ≠ .spawn k) :
      (s.setAccept i pc').Inv :=
    h.accept hpc rfl h.same (fun _ hk _ => hk) (fun k hk => .inl (hloop k hk)) (fun _ hk => hk)
      (fun k hk => absurd hk (hspawn k)) fun _ hk => .inl hk
  cases pc with
  | check =>
    simp only [State.acceptStep] at hstep
    split_ifs at hstep with hloop
    · cases hstep
      exact hgoto (by simp) (by simp)
    · cases hstep
      exact h.accept hpc rfl h.same (fun _ hk _ => hk) (by simp) (fun _ hk => hk) (by simp) fun _ hk => .inl hk
  | create =>
    cases hstep
    have hold : ∀ k x, s.loops[k]? = some x → (s.loops++[Loop.mk false .created])[k]? = some x := fun k x hx =>
      (List.getElem?_append_left (lt_of_getElem? hx)).trans hx
    refine h.accept hpc rfl h.same (fun k ⟨x, hx, hcreated⟩ _ => ⟨x, hold k x hx, hcreated⟩) (fun k hk => .inr ?_)
      (fun k hk => hk.of_step id rfl fun ⟨x, hx, hover⟩ => ⟨x, hold k x hx, hover⟩) (by simp) fun k ⟨x, hx, hlive⟩ => ?_
    · cases hk
      exact ⟨List.getElem?_eq_none (le_refl _), Loop.mk false .created, by simp, rfl⟩
    rcases getElem?_concat_cases hx with hx | ⟨-, rfl⟩
    · exact .inl ⟨x, hx, hlive⟩
    · simp [Loop.live] at hlive
  | store k =>
    simp only [State.acceptStep] at hstep
    split_ifs at hstep with hloop
    · cases hstep
      exact hgoto (fun _ hk => hk) (by simp)
    cases hstep
    have hnone : s.loop = none := by simpa using hloop
    refine h.accept hpc rfl rfl (fun _ hk _ => hk) (fun _ hk => .inl hk) (fun j hj => ?_) (fun j hj => ?_) fun _ hk => .inl hk
    · exact hj.of_step (by simp [hnone]) rfl id
    · cases hj
      exact .inl rfl
  | abandon k =>
    cases hstep
    refine h.accept hpc rfl h.same (fun j hj _ => ?_) (by simp) (fun j hj => ?_) (by simp) fun j hj => ?_
    · exact exists_setLoop hj (fun _ _ _ hx => hx) fun _ _ hx => hx
    · exact hj.of_step id rfl fun hover => exists_setLoop hover (fun _ _ _ _ => .inl rfl) fun _ _ hx => hx
    · rcases live_setLoop hj with ⟨hj, -⟩ | ⟨-, x, -, hlive⟩
      · exact .inl hj
      · exact absurd hlive.1 (by simp)
  | spawn k =>
    cases hstep
    obtain ⟨y, hy, hcreated⟩ := h.made i k (by rw [hpc]; rfl)
    have hcovered : ∀ j, s.Covered j → (s.setLoop k fun x => {x with phase := .running}).Covered j := by
      intro j hj
      refine hj.of_step id rfl fun hover => exists_setLoop hover (fun x hx hkj hover => ?_) fun _ _ hx => hx
      subst hkj
      -- The goroutine that is started has not run before.
      obtain rfl : y = x := some_inj.mp (hy.symm.trans hx)
      exact .inl (hover.resolve_right (by simp [hcreated]))
    refine h.accept hpc rfl h.same (fun j hj hne => ?_) (by simp) hcovered (by simp) fun j hj => ?_
    · refine exists_setLoop hj (fun x _ hkj _ => ?_) fun _ _ hx => hx
      simp [hkj] at hne
    rcases live_setLoop hj with ⟨hj, -⟩ | ⟨rfl, -⟩
    · exact .inl hj
    · exact .inr (hcovered k (h.spawning k (mem_of_getElem? hpc)))
  | enqueue =>
    simp only [State.acceptStep] at hstep
    split_ifs at hstep with hrouted
    · cases hstep
      exact hgoto (by simp) (by simp)
    · split at hstep <;> (obtain rfl := some_inj.mp hstep; exact hgoto (by simp) (by simp))
  | done result => exact absurd hstep (by simp [State.acceptStep])

lemma keep {u : State} (h : s.Inv) (haccepts : u.accepts = s.accepts) (hsame : u.loopCancel = u.loop)
    (hcreated : ∀ k : ℕ, (∃ x ∈ s.loops[k]?, x.phase = .created) → ∃ x ∈ u.loops[k]?, x.phase = .created)
    (hcovered : ∀ (k : ℕ) x, s.loops[k]? = some x → s.Covered k → u.Covered k) (hlive : ∀ k, u.Live k → s.Live k) :
    u.Inv where
  same := hsame
  made i k hk := hcreated k (h.made i k (haccepts ▸ hk))
  unique i j k hi hj := h.unique i j k (haccepts ▸ hi) (haccepts ▸ hj)
  spawning k hk := by
    rw [haccepts] at hk
    obtain ⟨i, hi⟩ := mem_iff_getElem?.mp hk
    obtain ⟨x, hx, -⟩ := h.made i k (by rw [hi]; rfl)
    exact hcovered k x hx (h.spawning k hk)
  live k hk := by
    obtain ⟨x, hx, -⟩ := hlive k hk
    exact hcovered k x hx (h.live k (hlive k hk))

lemma taken_set {pc pc'} (hpc : s.cancels[i]? = some pc) (h : s.Taken k) (hne : pc ≠ .fire k) :
    .fire k ∈ s.cancels.set i pc' := by
  obtain ⟨j, hj⟩ := mem_iff_getElem?.mp h
  have hij : i ≠ j := by
    rintro rfl
    rw [hpc] at hj
    exact hne (some_inj.mp hj)
  exact mem_iff_getElem?.mpr ⟨j, by rw [getElem?_set_ne hij, hj]⟩

lemma cancelStep {pc} (h : s.Inv) (hpc : s.cancels[i]? = some pc) (hstep : s.cancelStep i pc = some t) : t.Inv := by
  have hlt := lt_of_getElem? hpc
  cases pc with
  | flag =>
    cases hstep
    refine h.keep rfl h.same (fun _ hk => hk) (fun k _ _ hk => ?_) fun _ hk => hk
    exact hk.imp_right (.imp_left fun htaken => taken_set hpc htaken (by simp))
  | clear =>
    simp only [State.cancelStep] at hstep
    split at hstep
    · next hnone =>
      cases hstep
      refine h.keep rfl rfl (fun _ hk => hk) (fun k _ _ hk => ?_) fun _ hk => hk
      rw [h.same] at hnone
      rcases hk with hloop | htaken | hover
      · simp [hnone] at hloop
      · exact .inr (.inl (taken_set hpc htaken (by simp)))
      · exact .inr (.inr hover)
    next k hk =>
    cases hstep
    refine h.keep rfl rfl (fun _ hk => hk) (fun j _ _ hj => ?_) fun _ hk => hk
    rw [h.same] at hk
    rcases hj with hloop | htaken | hover
    · obtain rfl : k = j := some_inj.mp (hk.symm.trans hloop)
      exact .inr (.inl (mem_iff_getElem?.mpr ⟨i, List.getElem?_set_self hlt⟩))
    · exact .inr (.inl (taken_set hpc htaken (by simp)))
    · exact .inr (.inr hover)
  | fire k =>
    cases hstep
    refine h.keep rfl h.same (fun j hj => ?_) (fun j x hx hj => ?_) fun j hj => ?_
    · exact exists_setLoop hj (fun _ _ _ hx => hx) fun _ _ hx => hx
    · rcases hj with hloop | htaken | hover
      · exact .inl hloop
      · by_cases hjk : k = j
        · refine .inr (.inr (exists_setLoop (P := fun _ => True) ⟨x, hx, trivial⟩ (fun _ _ _ _ => .inl rfl) ?_))
          exact fun _ hne => absurd hjk hne
        · exact .inr (.inl (taken_set hpc htaken (by simpa using hjk)))
      · exact .inr (.inr (exists_setLoop hover (fun _ _ _ _ => .inl rfl) fun _ _ hx => hx))
    · rcases live_setLoop hj with ⟨hj, -⟩ | ⟨-, x, -, hlive⟩
      · exact hj
      · exact absurd hlive.1 (by simp)
  | done => exact absurd hstep (by simp [State.cancelStep])

lemma phase_of_get {x : Loop} (hk : s.loops[k]? = some x) (j : ℕ) (hkj : k = j) : ∀ y ∈ s.loops[j]?, y.phase = x.phase := by
  subst hkj
  simp [hk]

lemma step {l} (h : s.Inv) (horderly : s.Orderly l) (hstep : s.step l = some t) : t.Inv := by
  cases l with
  | message =>
    cases hstep
    have hold : ∀ (i k : ℕ), (((s.accepts++[.check])[i]?).bind AcceptPc.loop) = some k →
        (s.accepts[i]?.bind AcceptPc.loop) = some k := by
      intro i k hk
      obtain ⟨pc, hpc, hk⟩ := bind_eq_some_iff.mp hk
      rcases getElem?_concat_cases hpc with hpc | ⟨-, rfl⟩
      · exact bind_eq_some_iff.mpr ⟨pc, hpc, hk⟩
      · simp at hk
    exact {
      same := h.same
      made := fun i k hk => h.made i k (hold i k hk)
      unique := fun i j k hi hj => h.unique i j k (hold i k hi) (hold j k hj)
      spawning := fun k hk => h.spawning k (by simpa using hk)
      live := h.live}
  | accept i routed =>
    simp only [State.step] at hstep
    split at hstep
    · cases hstep
    · next pc hpc => exact h.acceptStep hpc hstep
  | cancel =>
    cases hstep
    refine h.keep rfl h.same (fun _ hk => hk) (fun k _ _ hk => ?_) fun _ hk => hk
    exact hk.imp_right (.imp_left fun htaken => mem_append_left _ htaken)
  | cancelStep i =>
    simp only [State.step] at hstep
    split at hstep
    · cases hstep
    · next pc hpc => exact h.cancelStep hpc hstep
  | stop k =>
    simp only [State.step] at hstep
    split at hstep
    · next cancelled hk =>
      cases hstep
      have hphase := phase_of_get hk
      refine h.keep rfl h.same (fun j hj => ?_) (fun j x hx hj => ?_) fun j hj => ?_
      · exact exists_setLoop hj (fun x hx hkj hcreated => by simp [hphase j hkj x hx] at hcreated) fun _ _ hx => hx
      · refine hj.of_step id rfl fun hover => exists_setLoop hover (fun x hx hkj hover => .inl ?_) fun _ _ hx => hx
        exact hover.resolve_right (by simp [hphase j hkj x hx])
      · rcases live_setLoop hj with ⟨hj, -⟩ | ⟨hkj, x, hx, hlive⟩
        · exact hj
        · exact ⟨x, hx, hlive.1, .inl (hphase j hkj x hx)⟩
    · cases hstep
  | exit k =>
    simp only [State.step] at hstep
    split at hstep
    · next cancelled hk =>
      cases hstep
      have hphase := phase_of_get hk
      refine h.keep rfl rfl (fun j hj => ?_) (fun j x hx hj => ?_) fun j hj => ?_
      · exact exists_setLoop hj (fun x hx hkj hcreated => by simp [hphase j hkj x hx] at hcreated) fun _ _ hx => hx
      · -- The only loop that may have been stored is the one that ends.
        by_cases hkj : k = j
        · exact .inr (.inr (exists_setLoop (P := fun _ => True) ⟨x, hx, trivial⟩ (fun _ _ _ _ => .inr rfl)
            fun _ hne => absurd hkj hne))
        rcases hj with hloop | htaken | hover
        · rcases horderly with hnone | hown
          · simp [hnone] at hloop
          · exact absurd (some_inj.mp (hown.symm.trans hloop)) hkj
        · exact .inr (.inl htaken)
        · exact .inr (.inr (exists_setLoop hover (fun _ _ _ _ => .inr rfl) fun _ _ hx => hx))
      · rcases live_setLoop hj with ⟨hj, -⟩ | ⟨-, x, -, hlive⟩
        · exact hj
        · exact absurd hlive.2 (by simp)
    · cases hstep

lemma start : init.Inv where
  same := rfl
  made := by simp [init]
  unique := by simp [init]
  spawning := by simp [init]
  live := by simp [init, Live]

lemma reach (h : Reach State.step Orderly init s) : s.Inv := h.preserved (P := Inv) .start Inv.step

end Inv

lemma Covered.of_live (h : s.Covered k) (hlive : s.Live k) : s.loop = some k ∨ s.Taken k := by
  rcases h with h | h | ⟨x, hx, hover⟩
  · exact .inl h
  · exact .inr h
  obtain ⟨y, hy, hopen, hphase⟩ := hlive
  obtain rfl : x = y := some_inj.mp (hx.symm.trans hy)
  rcases hover with hcancelled | hended
  · simp [hopen] at hcancelled
  · simp [hended] at hphase

/-- A call of `Cancel` has a loop in hand only while none is stored, and no other call has another. -/
def Exclusive (s : State) : Prop := ∀ k, s.Taken k → s.loop = none ∧ ∀ j, s.Taken j → j = k

namespace Exclusive
variable {i : ℕ}

lemma keep {u : State} (h : s.Exclusive) (htaken : ∀ k, u.Taken k → s.Taken k) (hloop : s.loop = none → u.loop = none) :
    u.Exclusive := fun k hk => by
  obtain ⟨hnone, honly⟩ := h k (htaken k hk)
  exact ⟨hloop hnone, fun j hj => honly j (htaken j hj)⟩

lemma acceptStep {pc routed} (h : s.Exclusive) (hpc : s.accepts[i]? = some pc) (horderly : s.Orderly (.accept i routed))
    (hstep : s.acceptStep i routed pc = some t) : t.Exclusive := by
  cases pc with
  | store k =>
    have hnot : ∀ j, ¬ s.Taken j := fun j hj => absurd (horderly (by rw [hpc]; rfl) _ hj) (by simp [CancelPc.fires])
    simp only [State.acceptStep] at hstep
    split_ifs at hstep
    all_goals
      cases hstep
      exact fun j hj => absurd hj (hnot j)
  | check | enqueue =>
    simp only [State.acceptStep] at hstep
    split_ifs at hstep
    all_goals first | split at hstep | skip
    all_goals
      cases hstep
      exact h.keep (fun _ hk => hk) id
  | create | abandon | spawn =>
    cases hstep
    exact h.keep (fun _ hk => hk) id
  | done result => exact absurd hstep (by simp [State.acceptStep])

lemma taken_set {pc : CancelPc} {k : ℕ} (hk : .fire k ∈ s.cancels.set i pc) (hpc : pc.fires = false) : s.Taken k := by
  rcases mem_or_eq_of_mem_set hk with hk | rfl
  · exact hk
  · cases hpc

lemma cancelStep {pc} (h : s.Exclusive) (hsame : s.loopCancel = s.loop) (hstep : s.cancelStep i pc = some t) : t.Exclusive := by
  cases pc with
  | flag | fire =>
    cases hstep
    exact h.keep (fun _ hk => taken_set hk rfl) id
  | clear =>
    simp only [State.cancelStep] at hstep
    split at hstep
    · cases hstep
      exact h.keep (fun _ hk => taken_set hk rfl) fun _ => rfl
    next k hk =>
    cases hstep
    -- The loop was stored, so no other call has one in hand.
    have honly : ∀ j, .fire j ∈ s.cancels.set i (.fire k) → j = k := fun j hj => by
      rcases mem_or_eq_of_mem_set hj with hj | hj
      · simp [hsame, (h j hj).1] at hk
      · cases hj
        rfl
    exact fun j hj => ⟨rfl, fun j' hj' => (honly j' hj').trans (honly j hj).symm⟩
  | done => exact absurd hstep (by simp [State.cancelStep])

lemma step {l} (h : s.Exclusive) (hsame : s.loopCancel = s.loop) (horderly : s.Orderly l) (hstep : s.step l = some t) :
    t.Exclusive := by
  cases l with
  | message =>
    cases hstep
    exact h
  | cancel =>
    cases hstep
    exact h.keep (fun _ hk => by simpa [Taken] using hk) id
  | accept i routed =>
    simp only [State.step] at hstep
    split at hstep
    · cases hstep
    · next pc hpc => exact h.acceptStep hpc horderly hstep
  | cancelStep i =>
    simp only [State.step] at hstep
    split at hstep
    · cases hstep
    · exact h.cancelStep hsame hstep
  | stop k | exit k =>
    simp only [State.step] at hstep
    split at hstep
    · cases hstep
      exact h.keep (fun _ hk => hk) fun hnone => by first | exact hnone | rfl
    · cases hstep

lemma reach (h : Reach State.step Orderly init s) : s.Exclusive :=
  (h.invariant (P := fun s => s.Inv ∧ s.Exclusive) ⟨.start, by simp [Exclusive, Taken, init]⟩
    fun _ _ _ _ ⟨hinv, hexclusive⟩ horderly hstep =>
      ⟨hinv.step horderly hstep, hexclusive.step hinv.same horderly hstep⟩).2

end Exclusive

/-! ### After a cancellation -/

def Quiet (s : State) (l : Label) : Prop := s.Orderly l ∧ l ≠ .message

instance (s : State) (l : Label) : Decidable (s.Quiet l) := instDecidableAnd

/-- From when a call of `Cancel` has cleared the loop no other one is stored. -/
lemma loop_none_of_cancel (haccepts : ∀ pc ∈ s.accepts, pc.isDone) (hbegun : s.cancels[i]? = some .flag)
    (h : Reach step Quiet s t) : (∀ pc ∈ t.accepts, pc.isDone) ∧
      (t.loop = none ∨ t.cancels[i]? = some .flag ∨ t.cancels[i]? = some .clear) := by
  refine h.invariant (P := fun t => (∀ pc ∈ t.accepts, pc.isDone) ∧
    (t.loop = none ∨ t.cancels[i]? = some .flag ∨ t.cancels[i]? = some .clear)) ⟨haccepts, .inr (.inl hbegun)⟩ ?_
  intro a l b _ ⟨hdone, hcleared⟩ hquiet hstep
  cases l with
  | message => exact absurd rfl hquiet.2
  | accept j routed =>
    simp only [step] at hstep
    split at hstep
    · cases hstep
    next pc hpc =>
    cases pc with
    | done result => exact absurd hstep (by simp [acceptStep])
    | check | create | store | abandon | spawn | enqueue =>
      exact absurd (hdone _ (mem_of_getElem? hpc)) (by simp [isDone])
  | cancel =>
    cases hstep
    have hkept {pc : CancelPc} (hi : a.cancels[i]? = some pc) : (a.cancels++[.flag])[i]? = some pc :=
      (getElem?_append_left (lt_of_getElem? hi)).trans hi
    exact ⟨hdone, hcleared.imp_right (.imp hkept hkept)⟩
  | cancelStep j =>
    simp only [step] at hstep
    split at hstep
    · cases hstep
    next pc hpc =>
    have hlt := lt_of_getElem? hpc
    cases pc with
    | flag =>
      cases hstep
      refine ⟨hdone, hcleared.imp_right fun hi => ?_⟩
      by_cases hji : j = i
      · subst hji
        exact .inr (getElem?_set_self hlt)
      · change (a.cancels.set j _)[i]? = _ ∨ (a.cancels.set j _)[i]? = _
        rwa [getElem?_set_ne hji]
    | clear =>
      simp only [cancelStep] at hstep
      split at hstep <;> (obtain rfl := some_inj.mp hstep; exact ⟨hdone, .inl rfl⟩)
    | fire k =>
      cases hstep
      refine ⟨hdone, hcleared.imp_right fun hi => ?_⟩
      have hji : j ≠ i := by
        rintro rfl
        rw [hpc] at hi
        simp at hi
      change (a.cancels.set j _)[i]? = _ ∨ (a.cancels.set j _)[i]? = _
      rwa [getElem?_set_ne hji]
    | done => exact absurd hstep (by simp [cancelStep])
  | stop k =>
    simp only [step] at hstep
    split at hstep
    · cases hstep
      exact ⟨hdone, hcleared⟩
    · cases hstep
  | exit k =>
    simp only [step] at hstep
    split at hstep
    · cases hstep
      exact ⟨hdone, .inl rfl⟩
    · cases hstep

/-- If a goroutine ends only while no other loop is stored, and a loop is stored only while no call of `Cancel` has one in hand,
then there is one loop with an uncancelled context. It is the stored one, unless a call of `Cancel` has it in hand, and none
remains when a call of `Cancel` that met no message under way is through. -/
theorem live_loop_stored (h : Reach State.step Orderly init s) : (∀ j k, s.Live j → s.Live k → j = k) ∧
    (∀ k, s.Live k → s.loop = some k ∨ s.Taken k) ∧
    ∀ (i : ℕ) (t : State), (∀ pc ∈ s.accepts, pc.isDone) → s.cancels[i]? = some .flag → Reach State.step Quiet s t →
      (∀ pc ∈ t.cancels, pc = .done) → ∀ k, ¬ t.Live k := by
  have hstored : ∀ {s : State}, Reach step Orderly init s → ∀ k, s.Live k → s.loop = some k ∨ s.Taken k :=
    fun h k hlive => ((Inv.reach h).live k hlive).of_live hlive
  have hexclusive := Exclusive.reach h
  refine ⟨fun j k hj hk => ?_, hstored h, fun i t haccepts hbegun hrun hdone k hlive => ?_⟩
  · rcases hstored h j hj with hj | hj <;> rcases hstored h k hk with hk | hk
    · exact some_inj.mp (hj.symm.trans hk)
    · simp [(hexclusive k hk).1] at hj
    · simp [(hexclusive j hj).1] at hk
    · exact (hexclusive k hk).2 j hj
  obtain ⟨-, hcleared⟩ := loop_none_of_cancel haccepts hbegun hrun
  have hnone : t.loop = none := by
    rcases hcleared with hnone | hi | hi
    · exact hnone
    · exact absurd (hdone _ (mem_of_getElem? hi)) (by simp)
    · exact absurd (hdone _ (mem_of_getElem? hi)) (by simp)
  rcases hstored (h.trans (hrun.mono fun _ _ _ hquiet => hquiet.1)) k hlive with hloop | htaken
  · simp [hnone] at hloop
  · exact absurd (hdone _ htaken) (by simp)

/-- Two messages under way, of which the second finds the loop of the first, and a call of `Cancel`. -/
def cancelledSession : State :=
  follow step (fun s l => decide (s.Orderly l)) init
    [(.message, 1), (.message, 1), (.accept 0 false, 4), (.accept 1 false, 3), (.accept 0 false, 1), (.cancel, 1)]

theorem live_loop_stored_cancelled :
    cancelledSession.Live 0 ∧ (cancelledSession.loop = some 0 ∨ cancelledSession.Taken 0) ∧
      ∀ k, ¬ (follow step (fun s l => decide (s.Quiet l)) cancelledSession [(.cancelStep 0, 3)]).Live k := by
  have hlive : cancelledSession.Live 0 := by decide +kernel
  obtain ⟨-, hstored, hcancel⟩ := live_loop_stored (s := cancelledSession) (reach_checked _ _)
  exact ⟨hlive, hstored 0 hlive, hcancel 0 _ (by decide +kernel) (by decide +kernel)
    (reach_checked _ _) (by decide +kernel)⟩

def twoLoops : State :=
  play step init
    [(.message, 1), (.accept 0 false, 5), (.cancel, 1), (.cancelStep 0, 3), (.message, 1), (.accept 1 false, 5), (.stop 0, 1),
      (.exit 0, 1), (.message, 1), (.accept 2 false, 5)]

/-- A call of `Cancel` begins while a message is about to store its loop. -/
def cancelBegun : State :=
  follow step (fun s l => decide (s.Orderly l)) init [(.message, 1), (.accept 0 false, 2), (.cancel, 1)]

/-- A message stores its loop when a call of `Cancel` has taken out the one before and has not cancelled it yet. -/
def cancelPending : State :=
  play step init [(.message, 1), (.accept 0 false, 5), (.cancel, 1), (.cancelStep 0, 2), (.message, 1), (.accept 1 false, 5)]

/-- Two loops with uncancelled contexts at once, after a goroutine has ended late and without that, and one after a call of
`Cancel` with no later message. -/
theorem live_loop_lost :
    (¬ ∀ s, Reach step always init s → (∀ pc ∈ s.cancels, pc = .done) → ∀ j k, s.Live j → s.Live k → j = k) ∧
    (¬ ∀ s, Reach step always init s → (∀ x ∈ s.loops, x.phase ≠ .ended) → ∀ j k, s.Live j → s.Live k → j = k) ∧
    (¬ ∀ s, Reach step Orderly init s → ∀ (i : ℕ) (t : State), s.cancels[i]? = some .flag → Reach step Quiet s t →
      (∀ pc ∈ t.cancels, pc = .done) → ∀ k, ¬ t.Live k) := by
  refine ⟨fun h => ?_, fun h => ?_, fun h => ?_⟩
  · have hsame := h twoLoops (reach_play _ _) (by decide +kernel) 1 2 (by decide +kernel) (by decide +kernel)
    exact absurd hsame (by decide)
  · have hsame := h cancelPending (reach_play _ _) (by decide +kernel) 0 1 (by decide +kernel) (by decide +kernel)
    exact absurd hsame (by decide)
  exact h cancelBegun (reach_checked _ _) 0
    (follow step (fun s l => decide (s.Quiet l)) cancelBegun [(.cancelStep 0, 2), (.accept 0 false, 3)])
    (by decide +kernel) (reach_checked _ _) (by decide +kernel) 0 (by decide +kernel)

end State
end Ayatsuri.SessionLoops
