import Ayatsuri.RunnerInvariants

/-! Whether the statuses that `isReady` acts on are final. A goroutine can pass through a
terminal status on its way to another one; the conditions below name the branches that
do so, and outside them a terminal status stays. -/
namespace Ayatsuri.Runner
open TransitionSystem List State
variable (st : Step)

/-- No later write of the goroutine changes the decided status of its node, unless it takes
one of the branches that `keeps` excludes. -/
def SettledAt (n : Node) : GPc → Prop
  | .prepareSetFailed | .setTimedOut _ | .askMarkSuccess _ | .markError _
  | .teardownSetLastError _ | .teardownSetFailed | .sendDone (some _) | .recoverNodePanic (some _)
  | .panicSetLastError _ => n.status = .failed
  | .setExitCode e _ => n.status = .failed ∧ ∃ e', e = some e' ∧ e'.deadline ∧ st.timeout
  | .captureOutput | .determineNodeStatus => n.status = .failed ∧ ∃ e', n.err = some e' ∧ e'.deadline ∧ st.timeout
  | .handleError (some e) => leftAlone n.status ∨ n.status = .failed ∧ e.deadline ∧ st.timeout
  | .handleError none | .setLastError _ | .afterError _ | .checkRepeat .. | .finalStatus
  | .checkApproval | .teardownNode | .sendDone none | .recoverNodePanic none | .finishNode
  | .exited => True
  | _ => False

/-- The branches that rewrite a decided status: a repeat, the approval override, markSuccess,
a failing teardown or a panic after another outcome than a failure, and after a step timeout
a failing capture or a status reported by the executor. -/
def keeps (canceled : Bool) (v : View) (ev : GEvent) : Bool :=
  !decided v.node.status ||
  match v.pc, ev with
  | .checkRepeat again _, .next => !again || canceled
  | .checkApproval, .next => !(v.node.status = .succeeded && st.approval)
  | .askMarkSuccess _, .logScanned _ => !st.continueOn.markSuccess
  | _, .teardownFailed _ | _, .panic _ => v.node.status = .failed
  | _, .captureFailed _ | _, .determined _ => v.node.status ≠ .failed
  | _, _ => true

structure Tidy (pc : GPc) (n : Node) : Prop where
  timed : ∀ e, pc = .handleTimeout e → e.deadline ∧ st.timeout
  settled : decided n.status → SettledAt st n pc

section
variable {cfg : Config} {st : Step} {canceled : Bool} {v w : View} {ev : GEvent}

lemma settledAt_handleError {n : Node} {e} (h : ∀ e', e = some e' →
      leftAlone n.status ∨ n.status = .failed ∧ e'.deadline ∧ st.timeout) :
    SettledAt st n (.handleError e) := by
  cases e with
  | none => trivial
  | some e => exact h e rfl

lemma Move.settled (h : Move cfg st canceled v ev w) (hk : keeps st canceled v ev)
    (hd : decided v.node.status) (hs : SettledAt st v.node v.pc) :
    w.node.status = v.node.status ∧ SettledAt st w.node w.pc := by
  cases h
  case notDetermined | determineFailed =>
    refine ⟨rfl, settledAt_handleError ?_⟩
    obtain ⟨hf, e, he, hde, ht⟩ := hs
    simp_all
  case markSuccess => simp_all [keeps, shouldMarkSuccess]
  case stillRunning hr => simp [hr, decided] at hd
  case sendDone panicked => cases panicked <;> exact ⟨rfl, hs⟩
  all_goals simp_all [SettledAt, keeps]

lemma Move.tidy (h : Move cfg st canceled v ev w) (hk : keeps st canceled v ev)
    (hv : Tidy st v.pc v.node) : Tidy st w.pc w.node := by
  obtain ⟨ht, hs⟩ := hv
  refine ⟨fun e he => ?_, fun hw => ?_⟩
  · cases h <;> simp_all
  by_cases hd : decided v.node.status
  · exact (h.settled hk hd (hs hd)).2
  cases h
  case prepared => split_ifs at hw <;> exact absurd hw hd
  case handleTimeout n l e => exact ⟨rfl, e, rfl, ht e rfl⟩
  case determined s allowed =>
    refine settledAt_handleError fun e he => .inl ?_
    cases s <;> simp_all [reportable, leftAlone, decided]
  all_goals simp_all [SettledAt, decided, resetForExecution, shouldMarkSuccess]

end

/-- The loop is inside `processCompletedNode`. -/
def LoopPc.propagating : LoopPc → Bool
  | .propagate .. => true
  | .isReady _ _ k | .shouldContinue _ _ _ _ k | .setBlocked _ _ _ k | .notReady _ k
  | .sendReady _ k => !k.scanning
  | _ => false

variable (p : Plan)

/-- No decided status is rewritten, and no termination arrives while the loop evaluates the
dependents of a completed node. -/
def keepsOutcomes (s : State) : Label → Bool
  | .node n ev =>
    match s.gor n with
    | none => true
    | some pc => keeps (p.step n) s.canceled ⟨pc, s.data n, s.lastError⟩ ev
  | .signal isTermination => !isTermination || !s.loop.propagating
  | .cancel => !s.loop.propagating
  | _ => true

structure Orderly (s : State) : Prop where
  alone : s.loop.propagating → s.deliveries = []
  idle : ∀ g ∈ s.deliveries, ∀ n, g.pending = some n → s.gor n = none →
    s.statusOf n = .running ∨ s.statusOf n = .aborted
  tidy : s.deliveries = [] → ∀ n pc, s.gor n = some pc → Tidy (p.step n) pc (s.data n)

/-- The decided status of node `d` is final: its goroutine is settled, and a delivery that
still holds it writes what is there already. -/
structure Final (s : State) (d : ℕ) : Prop where
  decided : decided (s.statusOf d)
  settled : ∀ pc, s.gor d = some pc → SettledAt (p.step d) (s.data d) pc
  held : ∀ g ∈ s.deliveries, g.pending = some d → s.gor d = none ∧ s.statusOf d = .aborted

section
variable {cfg : Config} {p : Plan} {s t : State}

lemma settledAt_congr {st} {m n : Node} {pc} (hs : m.status = n.status)
    (he : m.err = n.err) : SettledAt st m pc ↔ SettledAt st n pc := by cases pc <;> simp [SettledAt, hs, he]

variable {ev : LoopEvent} {d : ℕ}

lemma LoopMove.final (h : LoopMove cfg p s ev t) (hs : Sound p s)
    (hp : Phased s) (hd : Final p s d) : t.statusOf d = s.statusOf d ∧ Final p t d := by
  obtain ⟨hst, he, hg⟩ := h.untouched hs hp (.inr hd.decided)
  refine ⟨hst, ⟨hst ▸ hd.decided, fun pc hpc => ?_, fun g hgd hpd => ?_⟩⟩
  · exact (settledAt_congr hst he).mpr (hd.settled pc (hg ▸ hpc))
  · rw [hg, hst]
    exact hd.held g (h.deliveries_eq ▸ hgd) hpd

variable {n : ℕ}

lemma final_afterNode {ev pc v} (hg : s.gor n = some pc)
    (h : Move cfg (p.step n) s.canceled ⟨pc, s.data n, s.lastError⟩ ev v)
    (hc : keepsOutcomes p s (.node n ev)) (hd : Final p s d) :
    (s.afterNode n pc v).statusOf d = s.statusOf d ∧ Final p (s.afterNode n pc v) d := by
  rcases eq_or_ne d n with rfl | hn
  · have hk : keeps (p.step d) s.canceled ⟨pc, s.data d, s.lastError⟩ ev := by
      simpa [keepsOutcomes, hg] using hc
    obtain ⟨hst, hse⟩ := h.settled hk hd.decided (hd.settled pc hg)
    have hst : (s.afterNode d pc v).statusOf d = s.statusOf d := by
      rw [statusOf_afterNode, if_pos rfl]
      exact hst
    refine ⟨hst, hst ▸ hd.decided, fun pc' hpc => ?_, fun g hgd hpd => ?_⟩
    · obtain rfl : v.pc = pc' := by simpa using hpc
      simpa [afterNode] using hse
    · exact absurd (hd.held g hgd hpd).1 (by simp [hg])
  · have hst : (s.afterNode n pc v).statusOf d = s.statusOf d := by simp [hn]
    refine ⟨hst, hst ▸ hd.decided, fun pc' hpc => ?_, fun g hgd hpd => ?_⟩
    · have := hd.settled pc' (by simpa [hn] using hpc)
      simpa [afterNode, hn] using this
    · simpa [hn] using hd.held g hgd hpd

lemma final_deliver {i : ℕ} {g : Delivery} (hg : g.pending ≠ some d) (hd : Final p s d) :
    Final p {s with deliveries := s.deliveries.set i g} d :=
  {hd with
    held := forall_mem_set hd.held fun hp => absurd hp hg}

lemma final_setAborted (hn : n = d → s.gor d = none ∧ s.statusOf d = .aborted) (hd : Final p s d) :
    (s.setNode n ((s.data n).setStatus .aborted)).statusOf d = s.statusOf d ∧
      Final p (s.setNode n ((s.data n).setStatus .aborted)) d := by
  rcases eq_or_ne d n with rfl | hne
  · obtain ⟨hg, ha⟩ := hn rfl
    have hst : (s.setNode d ((s.data d).setStatus .aborted)).statusOf d = s.statusOf d := by simp [ha]
    exact ⟨hst, hst ▸ hd.decided, fun pc hpc => absurd (hg.symm.trans hpc) (by simp), fun g hgd hp => ⟨hg, hst.trans ha⟩⟩
  have hst : (s.setNode n ((s.data n).setStatus .aborted)).statusOf d = s.statusOf d := by simp [hne]
  refine ⟨hst, hst ▸ hd.decided, fun pc hpc => ?_, fun g hgd hp => ?_⟩
  · simpa [setNode, hne] using hd.settled pc hpc
  · simpa [hne] using hd.held g hgd hp

variable {l : Label}

lemma SysMove.final (h : SysMove cfg p s l t) (hs : Sound p s) (hp : Phased s)
    (hc : keepsOutcomes p s l) (hd : Final p s d) : t.statusOf d = s.statusOf d ∧ Final p t d := by
  cases h with
  | loop move => exact move.final hs hp hd
  | node gor room move => exact final_afterNode gor move hc hd
  | ignoredSignal => exact ⟨rfl, hd⟩
  | signal | cancel =>
    refine ⟨rfl, hd.decided, hd.settled, fun g hg hpd => ?_⟩
    rcases mem_append.mp hg with hg | hg
    · exact hd.held g hg hpd
    · simp_all
  | visits at_i todo free read =>
    refine ⟨rfl, final_deliver ?_ hd⟩
    rintro rfl
    rcases read with hf | ⟨hf, hr⟩
    · cases hf
    · cases hf
      simpa [hr, decided] using hd.decided
  | overwrites at_i held =>
    obtain ⟨hst, hf⟩ := final_setAborted (fun hn => hd.held _ (mem_of_getElem? at_i) (hn ▸ held)) hd
    exact ⟨hst, final_deliver (by simp) hf⟩

variable {data : ℕ → Node}

lemma reach_final (hs : Reach (step cfg p) (fun s l => keepsOutcomes p s l) (start data) s)
    (hd : Final p s d) (h : Reach (step cfg p) (fun s l => keepsOutcomes p s l) s t) :
    t.statusOf d = s.statusOf d := by
  have hall := h.invariant (P := fun t => t.statusOf d = s.statusOf d ∧ Final p t d) ⟨rfl, hd⟩
    fun a l b ha hi hc hm => by
      have hr := hs.trans ha
      obtain ⟨hst, hf⟩ := (sysMove_of_step hm).final (reach_sound hr) (reach_phased hr) hc hi.2
      exact ⟨hst.trans hi.1, hf⟩
  exact hall.1

lemma orderly_start (data : ℕ → Node) : Orderly p (start data) := ⟨nofun, nofun, fun _ _ _ hg => by cases hg⟩

lemma LoopMove.orderly (h : LoopMove cfg p s ev t) (hs : Sound p s)
    (hp : Phased s) (ho : Orderly p s) : Orderly p t := by
  refine ⟨fun hl => ?_, fun g hg n hn hi => ?_, fun hd n pc hg => ?_⟩
  · have ha := ho.alone
    have hf := hp.flagged
    rw [h.deliveries_eq]
    cases h
    case donePropagates notCanceled => simpa [notCanceled] using hf
    all_goals simp_all [LoopPc.propagating, Resume.scanning]
  · rw [h.deliveries_eq] at hg
    have hi' : s.gor n = none := by
      rcases h.gor_cases n with h' | ⟨-, -, h'⟩
      · exact h'.symm.trans hi
      · simp [h'] at hi
    rcases h.statusOf_cases n with h' | ⟨-, -, h'⟩ | ⟨st, e, k, hl, -⟩ | ⟨-, -, -, h'⟩
    · rw [h']
      exact ho.idle g hg n hn hi'
    · exact .inr h'
    · exact absurd (hs.evaluated n [] (by rw [hl]; rfl)).1 (hs.held g hg n hn)
    · simp [h'] at hi
  · rw [h.deliveries_eq] at hd
    rcases h.gor_cases n with h' | ⟨hl, hns, h'⟩
    · have hgs : s.gor n = some pc := h'.symm.trans hg
      obtain ⟨hst, he, -⟩ := h.untouched (n := n) hs hp (.inl (by simp [hgs]))
      have ht := ho.tidy hd n pc hgs
      refine ⟨ht.timed, fun hdec => (settledAt_congr hst he).mpr (ht.settled ?_)⟩
      change decided (s.statusOf n)
      rw [← hst]
      exact hdec
    obtain rfl : GPc.prepareNode = pc := by simpa [h'] using hg
    refine ⟨by simp, fun hdec => ?_⟩
    change decided (t.statusOf n) = true at hdec
    rcases h.statusOf_cases n with h' | ⟨⟨_, h'⟩, -⟩ | ⟨_, _, _, h', -⟩ | ⟨-, -, h', -⟩
    · simp [h', hns, decided] at hdec
    · simp [hl] at h'
    · simp [hl] at h'
    · simp [h', decided] at hdec

lemma orderly_afterNode {ev pc v} (hg : s.gor n = some pc)
    (h : Move cfg (p.step n) s.canceled ⟨pc, s.data n, s.lastError⟩ ev v)
    (hc : keepsOutcomes p s (.node n ev)) (ho : Orderly p s) : Orderly p (s.afterNode n pc v) := by
  refine ⟨ho.alone, fun g hgd m hm hi => ?_, fun hd m pc' hm => ?_⟩
  · rw [gor_afterNode] at hi
    split_ifs at hi with hmn
    rw [statusOf_afterNode, if_neg hmn]
    exact ho.idle g hgd m hm hi
  rw [gor_afterNode] at hm
  split_ifs at hm with hmn
  · subst hmn
    cases hm
    have := h.tidy (by simpa [keepsOutcomes, hg] using hc) (ho.tidy hd m pc hg)
    simpa [afterNode] using this
  · simpa [afterNode, hmn] using ho.tidy hd m pc' hm

lemma SysMove.orderly (h : SysMove cfg p s l t) (hs : Sound p s) (hp : Phased s)
    (hc : keepsOutcomes p s l) (ho : Orderly p s) : Orderly p t := by
  cases h with
  | loop move => exact move.orderly hs hp ho
  | node gor room move => exact orderly_afterNode gor move hc ho
  | ignoredSignal => exact ho
  | signal | cancel =>
    refine ⟨fun hl => ?_, fun g hg n hn hi => ?_, fun hd => ?_⟩
    · have hl : s.loop.propagating := hl
      simp [keepsOutcomes, hl] at hc
    · rcases mem_append.mp hg with hg | hg
      · exact ho.idle g hg n hn hi
      · simp_all
    · simp [startDelivery] at hd
  | visits at_i todo free read =>
    have hne : s.deliveries ≠ [] := ne_nil_of_mem (mem_of_getElem? at_i)
    refine ⟨fun hl => absurd (ho.alone hl) hne, fun g hg n hn hi => ?_, fun hd => absurd (by simpa using hd) hne⟩
    rcases mem_or_eq_of_mem_set hg with hg | rfl
    · exact ho.idle g hg n hn hi
    rcases read with rfl | ⟨rfl, hr⟩
    · cases hn
    · cases hn
      exact .inl hr
  | overwrites at_i held =>
    have hne : s.deliveries ≠ [] := ne_nil_of_mem (mem_of_getElem? at_i)
    refine ⟨fun hl => absurd (ho.alone hl) hne, fun g hg n hn hi => ?_, fun hd => absurd (by simpa using hd) hne⟩
    change (s.setNode _ _).statusOf n = _ ∨ (s.setNode _ _).statusOf n = _
    rw [statusOf_setNode]
    split_ifs
    · exact .inr rfl
    rcases mem_or_eq_of_mem_set hg with hg | rfl
    · exact ho.idle g hg n hn hi
    · cases hn

lemma reach_orderly
    (h : Reach (step cfg p) (fun s l => keepsOutcomes p s l) (start data) s) : Orderly p s :=
  h.invariant (orderly_start data) fun _ _ _ hr ho hc hm =>
    (sysMove_of_step hm).orderly (reach_sound hr) (reach_phased hr) hc ho

lemma Orderly.final (ho : Orderly p s) (hp : Phased s) (hl : s.loop.early ∨ s.loop.propagating)
    (hd : decided (s.statusOf d)) : Final p s d := by
  rcases hl with hl | hl
  · have hg := hp.early hl d
    refine ⟨hd, fun pc hpc => absurd (hg.symm.trans hpc) (by simp), fun g hgd hpd => ⟨hg, ?_⟩⟩
    rcases ho.idle g hgd d hpd hg with hr | ha
    · simp [hr, decided] at hd
    · exact ha
  · have hnil := ho.alone hl
    refine ⟨hd, fun pc hpc => (ho.tidy hnil d pc hpc).settled hd, fun g hgd _ => ?_⟩
    simp [hnil] at hgd

@[simp] def LoopPc.passing : LoopPc → Option (ℕ × List ℕ)
  | .isReady c ds _ | .shouldContinue c _ _ ds _ => some (c, ds)
  | .sendReady c _ | .startNode c => some (c, [])
  | _ => none

/-- Nodes pass to the start because all their dependencies satisfy `F`, and are blocked
because one of them does. -/
structure Grounded (p : Plan) (F : ℕ → Prop) (s : State) : Prop where
  passed : ∀ c ds, s.loop.passing = some (c, ds) → ∀ d ∈ p.dependencies c, d ∈ ds ∨ F d
  ready : ∀ c ∈ s.readyCh, ∀ d ∈ p.dependencies c, F d
  asked : ∀ c d read ds k, s.loop = .shouldContinue c d read ds k → F d
  blocked : ∀ c st e k, s.loop = .setBlocked c st e k → ∃ d ∈ p.dependencies c, F d

lemma Grounded.mono {F G : ℕ → Prop} (hfg : ∀ d, F d → G d) (h : Grounded p F s) : Grounded p G s where
  passed c ds hl d hd := (h.passed c ds hl d hd).imp_right (hfg d)
  ready c hc d hd := hfg d (h.ready c hc d hd)
  asked c d read ds k hl := hfg d (h.asked c d read ds k hl)
  blocked c st e k hl := (h.blocked c st e k hl).imp fun d hd => ⟨hd.1, hfg d hd.2⟩

variable {F : ℕ → Prop}

lemma grounded_of_idle (hp : s.loop.passing = none)
    (he : s.loop.evaluated = none) (hr : ∀ c ∈ s.readyCh, ∀ d ∈ p.dependencies c, F d) : Grounded p F s where
  passed c ds hl := by cases hp.symm.trans hl
  ready := hr
  asked c d read ds k hl := by simp [hl] at he
  blocked c st e k hl := by simp [hl] at he

lemma LoopMove.grounded (h : LoopMove cfg p s ev t) (hs : Sound p s) (hread : ∀ c d ds k, s.loop = .isReady c (d::ds) k →
      decided (s.statusOf d) → F d) (hg : Grounded p F s) : Grounded p F t := by
  obtain ⟨hp, hr, ha, hb⟩ := hg
  have hpass : ∀ c d ds k, s.loop = .isReady c (d::ds) k → decided (s.statusOf d) →
      ∀ d' ∈ p.dependencies c, d' ∈ ds ∨ F d' := by
    intro c d ds k pc hd d' hd'
    rcases hp c (d::ds) (by rw [pc]; rfl) d' hd' with h | h
    · rcases mem_cons.mp h with rfl | h
      · exact .inr (hread c d' ds k pc hd)
      · exact .inl h
    · exact .inr h
  cases h
  case scanEvaluates n rest pc _ | childEvaluated n _ _ pc _ =>
    refine ⟨fun c ds hl d hd => ?_, hr, by simp, by simp⟩
    obtain ⟨rfl, rfl⟩ : n = c ∧ p.dependencies n = ds := by simpa using hl
    exact .inl hd
  case depSucceeded child d deps k pc status =>
    refine ⟨fun c ds hl => ?_, hr, by simp, by simp⟩
    obtain ⟨rfl, rfl⟩ : child = c ∧ deps = ds := by simpa using hl
    exact hpass child d deps k pc (by rcases status with h | h <;> simp [h, decided])
  case depAsked child d read deps k pc status kind =>
    have hd : decided (s.statusOf d) := by rcases kind with rfl | rfl <;> simp [status, decided]
    refine ⟨fun c ds hl => ?_, hr, fun c d' _ ds _ hl => ?_, by simp⟩
    · obtain ⟨rfl, rfl⟩ : child = c ∧ deps = ds := by simpa using hl
      exact hpass child d deps k pc hd
    · cases hl
      exact hread child d deps k pc hd
  case depAborted child d deps k e pc status =>
    refine ⟨by simp, hr, by simp, fun c _ _ _ hl => ?_⟩
    cases hl
    obtain ⟨-, hsub⟩ := hs.evaluated child (d::deps) (by rw [pc]; rfl)
    exact ⟨d, hsub (by simp), hread child d deps k pc (by
      rcases status with h | h <;> simp [h, decided])⟩
  case continues child d read deps k log pc answer =>
    refine ⟨fun c ds hl => ?_, hr, by simp, by simp⟩
    obtain ⟨rfl, rfl⟩ : child = c ∧ deps = ds := by simpa using hl
    exact hp child deps (by rw [pc]; rfl)
  case blocks child d read deps k log _ _ pc _ _ =>
    refine ⟨by simp, hr, by simp, fun c _ _ _ hl => ?_⟩
    cases hl
    obtain ⟨-, hsub⟩ := hs.evaluated child (d::deps) (by rw [pc]; rfl)
    exact ⟨d, hsub (by simp), ha child d read deps k pc⟩
  case sendInScan child _ pc _ | sendInQueue child _ _ pc _ =>
    refine ⟨by simp, fun c hc d hd => ?_, by simp, by simp⟩
    rcases mem_append.mp hc with hc | hc
    · exact hr c hc d hd
    · obtain rfl : c = child := by simpa using hc
      simpa using hp c [] (by rw [pc]; rfl) d hd
  case depsPassed child k pc =>
    refine ⟨fun c ds hl => ?_, hr, by simp, by simp⟩
    obtain ⟨rfl, rfl⟩ : child = c ∧ [] = ds := by simpa using hl
    exact hp child [] (by rw [pc]; rfl)
  case takeReady n rest pc head =>
    refine ⟨fun c ds hl d hd => ?_, fun c hc => hr c (by simp [head, hc]), by simp, by simp⟩
    obtain ⟨rfl, rfl⟩ : n = c ∧ [] = ds := by simpa using hl
    exact .inr (hr n (by simp [head]) d hd)
  all_goals exact grounded_of_idle rfl rfl hr

lemma SysMove.grounded (h : SysMove cfg p s l t) (hs : Sound p s)
    (hread : ∀ c d ds k, s.loop = .isReady c (d::ds) k → decided (s.statusOf d) → F d)
    (hg : Grounded p F s) : Grounded p F t := by
  cases h with
  | loop move => exact move.grounded hs hread hg
  | _ => exact {hg with}

variable {c : ℕ}

section
variable (h : Reach (step cfg p) (fun s l => keepsOutcomes p s l) (start data) s)
include h

lemma read_final
    {ds k} (pc : s.loop = .isReady c (d::ds) k)
    (hd : decided (s.statusOf d)) : Final p s d := by
  refine (reach_orderly h).final (reach_phased h) ?_ hd
  cases k <;> simp [pc, LoopPc.early, LoopPc.propagating, Resume.scanning]

lemma reach_grounded : Grounded p (Final p s) s := by
  induction h with
  | refl => exact ⟨nofun, nofun, nofun, nofun⟩
  | tail prior hc hm ih =>
    have move := sysMove_of_step hm
    have hs := reach_sound prior
    have hg := move.grounded hs (fun c d ds k pc hd => read_final prior pc hd) ih
    exact hg.mono fun d hd => (move.final hs (reach_phased prior) hc hd).2

end

lemma SysMove.leaves_notStarted (h : SysMove cfg p s l t) (hs : Sound p s)
    (hc : s.statusOf c = .notStarted) (ht : t.statusOf c ≠ .notStarted) :
    (s.loop = .startNode c ∧ t.statusOf c = .running) ∨
    ∃ st e k, s.loop = .setBlocked c st e k ∧ (st = .aborted ∨ st = .skipped) ∧ t.statusOf c = st := by
  cases h with
  | loop move =>
    rcases move.statusOf_cases c with h | ⟨-, hr, -⟩ | ⟨st, e, k, hl, h⟩ | ⟨hl, -, h, -⟩
    · exact absurd (h.trans hc) ht
    · simp [hc] at hr
    · exact .inr ⟨st, e, k, hl, hs.blocked c st e k hl, h⟩
    · exact .inl ⟨hl, h⟩
  | @node n _ pc _ gor room move =>
    rw [statusOf_afterNode] at ht
    split_ifs at ht with hn
    · exact absurd hc (hn ▸ hs.started n pc gor)
    · exact absurd hc ht
  | @overwrites _ n g at_i held =>
    change (s.setNode _ _).statusOf c ≠ _ at ht
    rw [statusOf_setNode] at ht
    split_ifs at ht with hn
    · exact absurd hc (hn ▸ hs.held g (mem_of_getElem? at_i) n held)
    · exact absurd hc ht
  | _ => exact absurd hc ht

/-- A status on which `isReady` acts is final, and nodes leave their initial state only on
account of final statuses of their dependencies. -/
theorem dependencies_final {data : ℕ → Node} (hs : Reach (step cfg p) (fun s l => keepsOutcomes p s l) (start data) s) :
    (∀ c d ds k, s.loop = .isReady c (d::ds) k → decided (s.statusOf d) →
      ∀ u, Reach (step cfg p) (fun s l => keepsOutcomes p s l) s u → u.statusOf d = s.statusOf d) ∧
    ∀ l t c, step cfg p s l = some t → s.statusOf c = .notStarted → t.statusOf c ≠ .notStarted →
      (t.statusOf c = .running ∧ ∀ d ∈ p.dependencies c, decided (s.statusOf d) ∧
        ∀ u, Reach (step cfg p) (fun s l => keepsOutcomes p s l) s u → u.statusOf d = s.statusOf d) ∨
      ((t.statusOf c = .aborted ∨ t.statusOf c = .skipped) ∧ ∃ d ∈ p.dependencies c, decided (s.statusOf d) ∧
          ∀ u, Reach (step cfg p) (fun s l => keepsOutcomes p s l) s u → u.statusOf d = s.statusOf d) := by
  have hg := reach_grounded hs
  refine ⟨fun c d ds k pc hd u hu => reach_final hs (read_final hs pc hd) hu, ?_⟩
  intro l t c hm hc ht
  rcases (sysMove_of_step hm).leaves_notStarted (reach_sound hs) hc ht with
    ⟨hl, hr⟩ | ⟨st, e, k, hl, kind, rfl⟩
  · refine .inl ⟨hr, fun d hd => ?_⟩
    have hf : Final p s d := by simpa using hg.passed c [] (by rw [hl]; rfl) d hd
    exact ⟨hf.decided, fun u => reach_final hs hf⟩
  · obtain ⟨d, hd, hf⟩ := hg.blocked c _ e k hl
    exact .inr ⟨kind, d, hd, hf.decided, fun u => reach_final hs hf⟩

end

def joined : List Step :=
  [{ name := "poll", repeatPolicy := {repeatMode := .untilMode} }, {name := "build"},
   {name := "publish", depends := ["poll", "build"]}]

def joinedPlan : Plan where
  steps := joined
  edges := [(0, 2), (1, 2)]
  edges_lt := by decide
  acyclic := by decide

def readsTransientFailure : State :=
  play (step {} joinedPlan) (start fun _ => {})
    (toSelect++launch++launch ++ toCommand 0++commandFails 0 {text := "not yet"}++[(.node 0 .next, 1)] ++
      succeeds 1++[(.loop .takeDone, 1), (.loop .next, 3)])

def repeatedAfterRead : State :=
  play (step {} joinedPlan) readsTransientFailure
    ([(.loop .next, 1), (.loop (.logScanned .absent), 1), (.loop .next, 100),
      (.node 0 (.logScanned .absent), 1), (.node 0 .next, 2),
      (.node 0 (.conditionEvaluated false), 1), (.node 0 .next, 2)])

theorem aborted_by_repeated_failure : newPlan joined = .ok (joinedPlan, fun _ => {}) ∧
    ∃ s u, Reach (step {} joinedPlan) always (start fun _ => {}) s ∧
      s.loop = .isReady 2 [0, 1] (.propagate [] []) ∧ s.statusOf 0 = .failed ∧
      Reach (step {} joinedPlan) always s u ∧ u.statusOf 2 = .aborted ∧
      u.statusOf 0 = .running ∧ decided (s.statusOf 0) ∧ u.statusOf 0 ≠ s.statusOf 0 := by
  refine ⟨rfl, readsTransientFailure, repeatedAfterRead, reach_play _ _, ?_, ?_, reach_play _ _,
    ?_, ?_, ?_, ?_⟩ <;> decide +kernel

def startsDependent : State :=
  follow (step {} joinedPlan) (keepsOutcomes joinedPlan) (start fun _ => {})
    (toSelect++launch++launch++succeeds 0++succeeds 1++collect++collect ++ [(.loop .takeReady, 1)])

theorem dependencies_final_joined : startsDependent.statusOf 0 = .succeeded ∧
    ∀ u, Reach (step {} joinedPlan) (fun s l => keepsOutcomes joinedPlan s l)
      startsDependent u → u.statusOf 0 = .succeeded := by
  have hdep : startsDependent.statusOf 0 = .succeeded := by decide +kernel
  have hnew : startsDependent.statusOf 2 = .notStarted := by decide +kernel
  have hpc : startsDependent.loop = .startNode 2 := by decide +kernel
  have hstep : step {} joinedPlan startsDependent (.loop .next) =
      some ((startsDependent.spawn 2).goto (.checkFinished joinedPlan.nodes)) := by
    simp [step, loopStep, turnStep, hpc, hnew]
  obtain ⟨-, hwrites⟩ := @dependencies_final {} joinedPlan startsDependent (fun _ => {})
    (reach_follow (fun _ _ h => h) _ _)
  refine ⟨hdep, fun u hu => ?_⟩
  rcases hwrites (.loop .next) _ 2 hstep hnew (by simp) with ⟨-, hall⟩ | ⟨hb, -⟩
  · rw [(hall 0 (by decide)).2 u hu, hdep]
  · simp at hb

end Ayatsuri.Runner
