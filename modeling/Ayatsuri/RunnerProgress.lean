import Ayatsuri.RunnerConcurrency
import Ayatsuri.RunnerTermination

/-! Done messages and what follows from them. A goroutine sends its done message in a
deferred call that runs before the panic recovery, so the loop may see the node before its
failure is recorded. Outside that case every dependent stays covered: it is on its way, or
one of its dependencies will still be announced. -/
namespace Ayatsuri.Runner
open TransitionSystem List

section

def GPc.panicking : GPc → Bool
  | .sendDone (some _) | .recoverNodePanic (some _) | .panicSetLastError _ => true
  | _ => false

variable (s : State)

/-- No execution panics, errors are handled as in `handlesSettled`, and a done message is
sent only while no delivery is about to overwrite the node. -/
def sendsFinal : Label → Bool
  | .node _ (.panic _) => false
  | .node n .next => !(s.gor n).any GPc.sendsDone || s.deliveries.all fun g => g.pending ≠ some n
  | l => handlesSettled s l

structure Closed : Prop where
  calm : ∀ n pc, s.gor n = some pc → pc.panicking = false
  unheld : ∀ n, s.SentDone n → ∀ g ∈ s.deliveries, g.pending ≠ some n

open GPc

section
variable {cfg : Config} {st : Step} {canceled : Bool} {v w : View} {ev : GEvent} (h : Move cfg st canceled v ev w)
include h

lemma Move.calm (hv : v.pc.panicking = false) (hp : ∀ e, ev ≠ .panic e) : w.pc.panicking = false := by
  cases h
  case panic e body => exact absurd rfl (hp e)
  case sendDone panicked => cases panicked <;> simp_all [panicking]
  all_goals simp_all [panicking]

lemma Move.status_sent (hv : v.pc.panicking = false) (hx : v.pc.executing = false) : w.node.status = v.node.status := by
  cases h
  case panic pc n l e body => cases pc <;> simp_all [inBody, executing]
  all_goals simp_all [executing, panicking]

lemma Move.next_of_sendsDone (hd : v.pc.sendsDone) : ev = .next := by
  cases h
  case panic pc _ _ _ body => cases pc <;> simp_all [sendsDone, inBody]
  all_goals first | rfl | cases hd

end

open State

section
variable {cfg : Config} {p : Plan} {s t : State} {l : Label}

lemma sendsFinal_settled (h : sendsFinal s l) : handlesSettled s l := by
  cases l with
  | node n ev => cases ev <;> first | exact h | rfl
  | _ => rfl

variable {n : ℕ}

lemma State.SentDone.ne_running (hn : s.SentDone n) (ho : Owing s) (hc : Closed s) : s.statusOf n ≠ .running := by
  obtain ⟨pc, hg, hx⟩ := hn
  intro hr
  have hm := ho n pc hg hr
  have hp := hc.calm n pc hg
  cases pc
  case recoverNodePanic panicked => cases panicked <;> simp_all [mayRun, panicking]
  all_goals simp_all [mayRun, executing]

lemma SysMove.sentDone (h : SysMove cfg p s l t) (hs : Sound p s) (hn : s.SentDone n) : t.SentDone n := by
  cases h with
  | loop move => exact move.sentDone hs hn
  | node gor room move => exact sentDone_afterNode gor move hn
  | _ => exact hn

lemma closed_afterNode {ev pc v} (hg : s.gor n = some pc)
    (h : Move cfg (p.step n) s.canceled ⟨pc, s.data n, s.lastError⟩ ev v)
    (hc : sendsFinal s (.node n ev)) (hcl : Closed s) : Closed (s.afterNode n pc v) := by
  refine ⟨fun m pc' hm => ?_, fun m hm g hgd hp => ?_⟩
  · rw [gor_afterNode] at hm
    split_ifs at hm with hmn
    · cases hm
      refine h.calm (hcl.calm n pc hg) ?_
      rintro e rfl
      simp [sendsFinal] at hc
    · exact hcl.calm m pc' hm
  obtain ⟨pc', hm, hx⟩ := hm
  rw [gor_afterNode] at hm
  split_ifs at hm with hmn
  · subst hmn
    cases hm
    rw [h.executing_eq] at hx
    by_cases hpc : pc.executing
    · -- the done message is sent in this step
      have hd : pc.sendsDone := by simpa [hpc] using hx
      obtain rfl := h.next_of_sendsDone hd
      have hc : ∀ g ∈ s.deliveries, g.pending ≠ some m := by simpa [sendsFinal, hg, hd] using hc
      exact hc g hgd hp
    · exact hcl.unheld m ⟨pc, hg, by simpa using hpc⟩ g hgd hp
  · exact hcl.unheld m ⟨pc', hm, hx⟩ g hgd hp

lemma SysMove.closed (h : SysMove cfg p s l t) (ho : Owing s) (hc : sendsFinal s l) (hcl : Closed s) : Closed t := by
  cases h with
  | loop move =>
    refine ⟨fun n pc hg => ?_, fun n hn g hgd => ?_⟩
    · rcases move.gor_cases n with hg' | ⟨-, -, hg'⟩
      · exact hcl.calm n pc (hg'.symm.trans hg)
      · obtain rfl : prepareNode = pc := by simpa [hg'] using hg
        rfl
    rw [move.deliveries_eq] at hgd
    obtain ⟨pc, hg, hx⟩ := hn
    rcases move.gor_cases n with hg' | ⟨-, -, hg'⟩
    · exact hcl.unheld n ⟨pc, hg'.symm.trans hg, hx⟩ g hgd
    · obtain rfl : prepareNode = pc := by simpa [hg'] using hg
      cases hx
  | node gor room move => exact closed_afterNode gor move hc hcl
  | ignoredSignal => exact hcl
  | signal | cancel =>
    refine ⟨hcl.calm, fun n hn g hgd hp => ?_⟩
    rcases mem_append.mp hgd with hgd | hgd
    · exact hcl.unheld n hn g hgd hp
    · simp_all
  | visits at_i todo free read =>
    refine ⟨hcl.calm, fun n hn g hgd hp => ?_⟩
    rcases mem_or_eq_of_mem_set hgd with hgd | rfl
    · exact hcl.unheld n hn g hgd hp
    rcases read with rfl | ⟨rfl, hr⟩
    · cases hp
    · cases hp
      exact State.SentDone.ne_running (s := s) hn ho hcl hr
  | overwrites at_i held =>
    refine ⟨hcl.calm, fun n hn g hgd hp => ?_⟩
    rcases mem_or_eq_of_mem_set hgd with hgd | rfl
    · exact hcl.unheld n hn g hgd hp
    · cases hp

lemma reach_closed {data : ℕ → Node} (h : Reach (step cfg p) (fun s l => sendsFinal s l) (start data) s) : Closed s :=
  h.invariant ⟨fun _ _ hg => by simp [start] at hg, fun _ _ g hg => by simp [start] at hg⟩
    fun _ _ _ hr hcl hc hm => (sysMove_of_step hm).closed (reach_owing (fun _ _ => sendsFinal_settled) hr) hc hcl

lemma SysMove.status_sent (h : SysMove cfg p s l t) (hs : Sound p s)
    (hp : Phased s) (hcl : Closed s) (hn : s.SentDone n) : t.statusOf n = s.statusOf n := by
  obtain ⟨pc, hg, hx⟩ := hn
  cases h with
  | loop move => exact (move.untouched hs hp (.inl (by simp [hg]))).1
  | @node m _ pc' _ gor room move =>
    rw [statusOf_afterNode]
    split_ifs with hnm
    · subst hnm
      obtain rfl : pc = pc' := by simpa [hg] using gor
      exact move.status_sent (hcl.calm n pc hg) hx
    · rfl
  | overwrites at_i held =>
    change (s.setNode _ _).statusOf n = _
    rw [statusOf_setNode, if_neg]
    rintro rfl
    exact hcl.unheld n ⟨pc, hg, hx⟩ _ (mem_of_getElem? at_i) held
  | _ => rfl

end

def Resume.children : Resume → List ℕ
  | .scan rest => rest
  | .propagate children _ => children

def Resume.queue : Resume → List ℕ
  | .scan _ => []
  | .propagate _ queue => queue

@[simp] def LoopPc.attends (p : Plan) : LoopPc → List ℕ
  | .evalConditions | .cancelNodes _ | .initHandler | .runInit | .initSetLastError _
  | .initSetCanceled => p.nodes
  | .scan rest => rest
  | .isReady c _ k | .shouldContinue c _ _ _ k | .setBlocked c _ _ k | .sendReady c k => c::k.children
  | .notReady _ k => k.children
  | .propagate children _ => children
  | .startNode c => [c]
  | _ => []

@[simp] def LoopPc.announces : LoopPc → List ℕ
  | .nodeDone n => [n]
  | .isReady _ _ k | .shouldContinue _ _ _ _ k | .setBlocked _ _ _ k | .sendReady _ k => k.queue
  | .notReady c (.propagate _ queue) => c::queue
  | .propagate _ queue => queue
  | _ => []

/-- Node `d` is undecided, or its completion has not been passed on yet. -/
def State.Open (d : ℕ) : Prop := decided (s.statusOf d) = false ∨ s.isExecuting d ∨ d ∈ s.doneCh ∨ d ∈ s.loop.announces

/-- Node `c` has left its initial state, is on its way, or waits for an open dependency. -/
def Covered (p : Plan) (s : State) (c : ℕ) : Prop :=
  s.statusOf c ≠ .notStarted ∨ c ∈ s.readyCh ∨ c ∈ s.loop.attends p ∨ ∃ d ∈ p.dependencies c, s.Open d

open Resume

section
variable {cfg : Config} {p : Plan} {s t : State} {c d : ℕ}

lemma covered_of_open (hd : d ∈ p.dependencies c) (ho : s.Open d) : Covered p s c := .inr (.inr (.inr ⟨d, hd, ho⟩))

variable {ev : LoopEvent}

section
variable (h : LoopMove cfg p s ev t)
include h

lemma LoopMove.attends_covered (hs : Sound p s) (hc : c ∈ s.loop.attends p) : Covered p t c := by
  cases h
  case scanSkips n rest pc status | childSkipped n rest _ pc status =>
    have hc : c = n ∨ c ∈ rest := by simpa [pc] using hc
    rcases hc with rfl | hc
    · exact .inl status
    · exact .inr (.inr (.inl hc))
  case depOpen child d deps k pc status =>
    have hc : c = child ∨ c ∈ k.children := by simpa [pc] using hc
    rcases hc with rfl | hc
    · obtain ⟨-, hsub⟩ := hs.evaluated c (d::deps) (by rw [pc]; rfl)
      exact covered_of_open (hsub (by simp)) (.inl status)
    · exact .inr (.inr (.inl hc))
  case setBlocked child st e k pc =>
    have hc : c = child ∨ c ∈ k.children := by simpa [pc] using hc
    rcases hc with rfl | hc
    · rcases hs.blocked c st e k pc with rfl | rfl <;> exact .inl (by simp)
    · exact .inr (.inr (.inl hc))
  case sendInScan child rest pc _ | sendInQueue child rest _ pc _ =>
    have hc : c = child ∨ c ∈ rest := by simpa [pc, children] using hc
    rcases hc with rfl | hc
    · exact .inr (.inl (by simp))
    · exact .inr (.inr (.inl hc))
  case startNode n pc status =>
    obtain rfl : c = n := by simpa [pc] using hc
    exact .inl (by simp)
  case startSkipped n pc status =>
    obtain rfl : c = n := by simpa [pc] using hc
    exact .inl status
  all_goals exact .inr (.inr (.inl (by simp_all [children])))

lemma LoopMove.undecided_covered (hp : Phased s) (ht : t.canceled = false) (hd : d ∈ p.dependencies c)
    (hscan : ∀ st e rest, s.loop = .setBlocked d st e (.scan rest) → Covered p t c)
    (hu : decided (s.statusOf d) = false) : Covered p t c := by
  rcases h.statusOf_cases d with hst | ⟨⟨rest, hl⟩, -, -⟩ | ⟨st, e, k, hl, -⟩ | ⟨-, -, hst, -⟩
  · exact covered_of_open hd (.inl (hst ▸ hu))
  · have := h.canceled_kept (hp.canceling _ hl)
    simp [ht] at this
  · cases k with
    | scan rest => exact hscan st e rest hl
    | propagate children queue =>
      refine covered_of_open hd (.inr (.inr (.inr ?_)))
      cases h <;> simp_all
  · exact covered_of_open hd (.inl (by simp [hst, decided]))

lemma LoopMove.announced_covered (ht : t.canceled = false) (hd : d ∈ p.dependencies c)
    (ha : d ∈ s.loop.announces) : Covered p t c := by
  cases h
  case doneCanceled n pc isCanceled => simp [isCanceled] at ht
  case nextInQueue n queue pc =>
    have ha : d = n ∨ d ∈ queue := by simpa [pc] using ha
    rcases ha with rfl | ha
    · exact .inr (.inr (.inl (Plan.mem_dependents.mpr hd)))
    · exact covered_of_open hd (.inr (.inr (.inr ha)))
  case leavesChild child children queue pc status =>
    have ha : d = child ∨ d ∈ queue := by simpa [pc] using ha
    rcases ha with rfl | ha
    · exact covered_of_open hd (.inl (by simp [status, decided]))
    · exact covered_of_open hd (.inr (.inr (.inr ha)))
  case depOpen k pc _ | setBlocked k pc =>
    refine covered_of_open hd (.inr (.inr (.inr ?_)))
    cases k <;> simp_all [queue]
  all_goals
    exact covered_of_open hd (.inr (.inr (.inr (by
      simp_all [queue, or_comm]))))

lemma LoopMove.open_covered (hp : Phased s) (ht : t.canceled = false) (hd : d ∈ p.dependencies c)
    (hscan : ∀ st e rest, s.loop = .setBlocked d st e (.scan rest) → Covered p t c)
    (ho : s.Open d) : Covered p t c := by
  rcases ho with ho | ho | ho | ho
  · exact h.undecided_covered hp ht hd hscan ho
  · refine covered_of_open hd (.inr (.inl ?_))
    rcases h.gor_cases d with hg | ⟨-, -, hg⟩
    · rw [isExecuting, hg]
      exact ho
    · rw [isExecuting, hg]
      rfl
  · refine covered_of_open hd (.inr (.inr ?_))
    cases h
    case takeDone n rest pc head => simpa [head, or_comm] using ho
    all_goals exact .inl ho
  · exact h.announced_covered ht hd ho

lemma LoopMove.covered (hs : Sound p s) (hp : Phased s) (ht : t.canceled = false)
    (hscan : ∀ d st e rest, d ∈ p.dependencies c → s.loop = .setBlocked d st e (.scan rest) →
      Covered p t c) (hc : Covered p s c) : Covered p t c := by
  rcases hc with hc | hc | hc | ⟨d, hd, ho⟩
  · exact .inl (h.status_ne_notStarted hs hc)
  · cases h
    case takeReady n rest pc head =>
      have hc : c = n ∨ c ∈ rest := by simpa [head] using hc
      rcases hc with rfl | hc
      · exact .inr (.inr (.inl (by simp)))
      · exact .inr (.inl hc)
    case sendInScan | sendInQueue => exact .inr (.inl (by simp [hc]))
    all_goals exact .inr (.inl hc)
  · exact h.attends_covered hs hc
  · exact h.open_covered hp ht hd (fun st e rest => hscan d st e rest hd) ho

end

variable {n : ℕ}

lemma open_afterNode {ev pc v} (hg : s.gor n = some pc)
    (h : Move cfg (p.step n) s.canceled ⟨pc, s.data n, s.lastError⟩ ev v)
    (hcl : Closed s) (ho : s.Open d) : (s.afterNode n pc v).Open d := by
  have hsent : ∀ m ∈ s.doneCh, m ∈ (s.afterNode n pc v).doneCh := by
    intro m hm
    change m ∈ (if pc.sendsDone then s.doneCh++[n] else s.doneCh)
    split_ifs <;> simp [hm]
  rcases eq_or_ne d n with rfl | hn
  · by_cases hx : pc.executing
    · by_cases hd : pc.sendsDone
      · exact .inr (.inr (.inl (by simp [hd])))
      · exact .inr (.inl (by simp [isExecuting, h.executing_eq, hx, hd]))
    rcases ho with ho | ho | ho | ho
    · have hst : v.node.status = s.statusOf d := h.status_sent (hcl.calm d pc hg) (by simpa using hx)
      exact .inl (by simpa [hst] using ho)
    · simp [isExecuting, hg, hx] at ho
    · exact .inr (.inr (.inl (hsent d ho)))
    · exact .inr (.inr (.inr ho))
  · rcases ho with ho | ho | ho | ho
    · exact .inl (by simpa [hn] using ho)
    · exact .inr (.inl (by simpa [isExecuting, hn] using ho))
    · exact .inr (.inr (.inl (hsent d ho)))
    · exact .inr (.inr (.inr ho))

lemma SysMove.covered {l} (h : SysMove cfg p s l t) (hs : Sound p s) (hp : Phased s)
    (hcl : Closed s) (ht : t.canceled = false)
    (hscan : ∀ ev, LoopMove cfg p s ev t → l = .loop ev → ∀ d st e rest, d ∈ p.dependencies c →
      s.loop = .setBlocked d st e (.scan rest) → Covered p t c) (hc : Covered p s c) : Covered p t c := by
  cases h with
  | loop move => exact move.covered hs hp ht (hscan _ move rfl) hc
  | @node n _ pc v gor room move =>
    rcases hc with hc | hc | hc | ⟨d, hd, ho⟩
    · exact .inl ((SysMove.node gor room move).status_ne_notStarted hs hc)
    · exact .inr (.inl hc)
    · exact .inr (.inr (.inl hc))
    · exact covered_of_open hd (open_afterNode gor move hcl ho)
  | ignoredSignal => exact hc
  | signal | cancel => cases ht
  | visits at_i | overwrites at_i =>
    have hcan := hp.flagged (ne_nil_of_mem (mem_of_getElem? at_i))
    simp [hcan] at ht

lemma SysMove.not_early {l} (h : SysMove cfg p s l t) (hl : s.loop.early = false) : t.loop.early = false := by
  cases h with
  | loop move => cases move <;> simp_all [LoopPc.early, scanning]
  | _ => exact hl

lemma dependents_covered {data : ℕ → Node} (h : Reach (step cfg p) (fun s l => sendsFinal s l) (start data) s)
    (pc : s.loop = .nodeDone n) (ht : Reach (step cfg p) (fun s l => sendsFinal s l) s t)
    (hc : c ∈ p.dependents n) : t.canceled = false → t.loop.early = false ∧ Covered p t c := by
  refine ht.invariant
    (P := fun t => t.canceled = false → t.loop.early = false ∧ Covered p t c)
    (fun _ => ⟨by rw [pc]; rfl, ?_⟩) fun a l b ha ih hl hm hb => ?_
  · exact covered_of_open (Plan.mem_dependents.mp hc) (.inr (.inr (.inr (by simp [pc]))))
  have hr := h.trans ha
  have move := sysMove_of_step hm
  have hcan : a.canceled = false := by
    by_contra hca
    simp [move.canceled_kept (by simpa using hca)] at hb
  obtain ⟨he, hcov⟩ := ih hcan
  refine ⟨move.not_early he, move.covered (reach_sound hr) (reach_phased hr) (reach_closed hr) hb ?_ hcov⟩
  intro ev _ _ d st e rest _ hb
  simp [hb, LoopPc.early, scanning] at he

/-- When the loop receives a node, its status is final and not `running`. Once the node has
been processed, a dependent that is neither decided nor queued waits for a dependency that is
undecided or has still to be received. -/
theorem received_is_final {data : ℕ → Node} {n : ℕ}
    (h : Reach (step cfg p) (fun s l => sendsFinal s l) (start data) s) (pc : s.loop = .nodeDone n) :
    s.statusOf n ≠ .running ∧ (∀ t, Reach (step cfg p) (fun s l => sendsFinal s l) s t →
      t.statusOf n = s.statusOf n) ∧ ∀ t, Reach (step cfg p) (fun s l => sendsFinal s l) s t →
      t.loop = .checkFinished p.nodes → t.canceled = false → ∀ c ∈ p.dependents n,
      t.statusOf c ≠ .notStarted ∨ c ∈ t.readyCh ∨
        ∃ d ∈ p.dependencies c, decided (t.statusOf d) = false ∨ t.isExecuting d ∨ d ∈ t.doneCh := by
  have hsent : s.SentDone n := (reach_sound h).received n pc
  refine ⟨?_, fun t ht => ?_, fun t ht hl hcan c hc => ?_⟩
  · exact hsent.ne_running (reach_owing (fun _ _ => sendsFinal_settled) h) (reach_closed h)
  · have hall := ht.invariant (P := fun t => t.SentDone n ∧ t.statusOf n = s.statusOf n)
      ⟨hsent, rfl⟩ fun a l b ha hi _ hm => by
        have hr := h.trans ha
        have move := sysMove_of_step hm
        have hst := move.status_sent (reach_sound hr) (reach_phased hr) (reach_closed hr) hi.1
        exact ⟨move.sentDone (reach_sound hr) hi.1, hst.trans hi.2⟩
    exact hall.2
  · obtain ⟨-, hcov⟩ := dependents_covered h pc ht hc hcan
    simpa [Covered, State.Open, hl] using hcov

end

def chain : List Step := [{name := "fetch"}, {name := "load", depends := ["fetch"]}]

def chainPlan : Plan where
  steps := chain
  edges := [(0, 1)]
  edges_lt := by decide
  acyclic := by decide

def panicReceived : State :=
  play (step {} chainPlan) (start fun _ => {})
    (toSelect++launch++toCommand 0 ++ [(.node 0 (.panic {text := "panic"}), 1), (.node 0 .next, 1), (.loop .takeDone, 1)])

def panicRecovered : State := play (step {} chainPlan) panicReceived [(.loop .next, 6), (.node 0 .next, 3)]

theorem received_while_running : newPlan chain = .ok (chainPlan, fun _ => {}) ∧
    ∃ s t, Reach (step {} chainPlan) always (start fun _ => {}) s ∧ s.loop = .nodeDone 0 ∧
      s.statusOf 0 = .running ∧ Reach (step {} chainPlan) always s t ∧
      t.loop = .checkFinished chainPlan.nodes ∧ t.canceled = false ∧ t.statusOf 0 = .failed ∧
      t.statusOf 1 = .notStarted ∧ t.readyCh = [] ∧ t.doneCh = [] ∧ t.isExecuting 0 = false := by
  refine ⟨rfl, panicReceived, panicRecovered, reach_play _ _, ?_, ?_, reach_play _ _, ?_, ?_, ?_, ?_, ?_, ?_, ?_⟩ <;> decide +kernel

def successReceived : State :=
  follow (step {} chainPlan) sendsFinal (start fun _ => {}) (toSelect++launch++succeeds 0++[(.loop .takeDone, 1)])

theorem received_is_final_fetch : successReceived.loop = .nodeDone 0 ∧ successReceived.statusOf 0 ≠ .running :=
  have pc : successReceived.loop = .nodeDone 0 := by decide +kernel
  ⟨pc, (received_is_final (reach_follow (fun _ _ h => h) _ _) pc).1⟩

end

/-! Whether the event loop can report a deadlock. In a run that is not disturbed every node
stays covered, so an idle loop with nothing queued has no node left to start; only the
initial scan can block a node without passing it on to its dependents. -/

open Plan
variable (p : Plan)

/-- No cancellation and no panic; and where the scan blocks a node, each of its dependents
has left its initial state, is still to be scanned, or has another undecided dependency. -/
def undisturbed (s : State) : Label → Bool
  | .signal isTermination => !isTermination
  | .cancel => false
  | .node _ (.panic _) => false
  | .loop (.conditions met) => met
  | .loop .next =>
    match s.loop with
    | .initSetCanceled => false
    | .setBlocked u _ _ (.scan rest) =>
      (p.dependents u).all fun c => s.statusOf c ≠ .notStarted || c ∈ rest ||
        (p.dependencies c).any fun d => d ≠ u && !decided (s.statusOf d)
    | _ => true
  | _ => true

section
variable {cfg : Config} {p : Plan} {s t : State}

lemma SysMove.not_canceled {l} (h : SysMove cfg p s l t)
    (hu : undisturbed p s l) (hc : s.canceled = false) : t.canceled = false := by
  cases h with
  | loop move =>
    cases move
    case conditionsUnmet => cases hu
    case initSetCanceled pc => simp [undisturbed, pc] at hu
    all_goals exact hc
  | signal | cancel => cases hu
  | _ => exact hc

variable {data : ℕ → Node}

section
variable (h : Reach (step cfg p) (fun s l => undisturbed p s l) (start data) s)
include h

lemma reach_not_canceled : s.canceled = false :=
  h.invariant (P := fun s => s.canceled = false) rfl fun _ _ _ _ hc hu hm => (sysMove_of_step hm).not_canceled hu hc

lemma reach_sendsFinal : Reach (step cfg p) (fun s l => sendsFinal s l) (start data) s := by
  refine h.mono fun a l ha hu => ?_
  have hc := reach_not_canceled ha
  have hd : a.deliveries = [] := by
    by_contra hne
    simp [(reach_phased ha).flagged hne] at hc
  cases l with
  | node n ev =>
    cases ev
    case panic => cases hu
    all_goals simp [sendsFinal, handlesSettled, hc, hd]
  | _ => rfl

end

lemma LoopMove.blocked_covered {ev} (h : LoopMove cfg p s ev t)
    (hs : Sound p s) (hu : undisturbed p s (.loop ev)) {c d : ℕ} {st e rest}
    (hd : d ∈ p.dependencies c) (hl : s.loop = .setBlocked d st e (.scan rest)) : Covered p t c := by
  have keep := h.status_ne_notStarted hs (n := c)
  cases h
  case setBlocked child st' e' k pc =>
    obtain ⟨rfl, rfl, rfl, rfl⟩ : d = child ∧ st = st' ∧ e = e' ∧ .scan rest = k := by simpa [hl] using pc
    have hall : ∀ c ∈ p.dependents d, (s.statusOf c ≠ .notStarted ∨ c ∈ rest) ∨
        ∃ d' ∈ p.dependencies c, d' ≠ d ∧ decided (s.statusOf d') = false := by simpa [undisturbed, pc] using hu
    rcases hall c (mem_dependents.mpr hd) with (hc | hc) | ⟨d', hd', hne, hc⟩
    · exact .inl (keep hc)
    · exact .inr (.inr (.inl hc))
    · exact covered_of_open hd' (.inl (by simpa [hne] using hc))
  all_goals simp_all

lemma reach_covered
    (h : Reach (step cfg p) (fun s l => undisturbed p s l) (start data) s) {c : ℕ}
    (hc : c < p.size) : Covered p s c := by
  induction h with
  | refl => exact .inr (.inr (.inl (mem_nodes.mpr hc)))
  | @tail a b l prior hu hm ih =>
    have move := sysMove_of_step hm
    have hb := move.not_canceled hu (reach_not_canceled prior)
    refine move.covered (reach_sound prior) (reach_phased prior) (reach_closed (reach_sendsFinal prior)) hb ?_ ih
    rintro ev loopMove rfl d st e rest hd hl
    exact loopMove.blocked_covered (reach_sound prior) hu hd hl

lemma idle_not_executing (ha : Accounted cfg p s) (h0 : s.running = 0) :
    (∀ n, n < p.size → s.isExecuting n = false) ∧ s.doneCh = [] := by
  have hr := ha.running_eq
  have hlen : s.doneCh.length = 0 := by omega
  have hcount : p.nodes.countP s.isExecuting = 0 := by
    have : (executingCount p s : ℤ) = 0 := by omega
    exact_mod_cast this
  refine ⟨fun n hn => ?_, length_eq_zero_iff.mp hlen⟩
  simpa using countP_eq_zero.mp hcount n (mem_nodes.mpr hn)

lemma status_afterNode_idle {n : ℕ} {ev pc v} (hg : s.gor n = some pc)
    (h : Move cfg (p.step n) s.canceled ⟨pc, s.data n, s.lastError⟩ ev v) (hs : Sound p s)
    (ha : Accounted cfg p s) (hcl : Closed s) (h0 : s.running = 0) (m : ℕ) :
    (s.afterNode n pc v).statusOf m = s.statusOf m := by
  have hx : pc.executing = false := by
    have := (idle_not_executing ha h0).1 n (hs.gor_lt n pc hg)
    rwa [isExecuting_eq hg] at this
  rw [State.statusOf_afterNode]
  split_ifs with hm
  · subst hm
    exact h.status_sent (hcl.calm m pc hg) hx
  · rfl

lemma idle_ne_running (hat : Attended p s) (ho : Owing s) (hcl : Closed s)
    (ha : Accounted cfg p s) (h0 : s.running = 0) {n : ℕ} (hn : n < p.size) : s.statusOf n ≠ .running := by
  intro hr
  obtain ⟨pc, hg⟩ := Option.ne_none_iff_exists'.mp (hat n hn hr)
  have hx := (idle_not_executing ha h0).1 n hn
  rw [isExecuting_eq hg] at hx
  exact State.SentDone.ne_running ⟨pc, hg, hx⟩ ho hcl hr

lemma all_started_of_idle (hcov : ∀ c, c < p.size → Covered p s c) (hready : s.readyCh = [])
    (hexec : ∀ n, n < p.size → s.isExecuting n = false) (hdone : s.doneCh = [])
    (hatt : s.loop.attends p = []) (hann : s.loop.announces = [])
    (hst : ∀ n, n < p.size → s.statusOf n ≠ .running ∧ s.statusOf n ≠ .waiting ∧ s.statusOf n ≠ .retrying) :
    ∀ n, n < p.size → s.statusOf n ≠ .notStarted := by
  obtain ⟨rank, hrank, -⟩ := p.exists_rank
  intro n
  -- induction on the rank: a node that has not started waits for one of lower rank
  induction hk : rank n using Nat.strong_induction_on generalizing n with
  | _ k ih =>
    intro hn hns
    subst hk
    rcases hcov n hn with h | h | h | ⟨d, hd, ho⟩
    · exact h hns
    · simp [hready] at h
    · rw [hatt] at h
      cases h
    · have hlt := dependencies_lt hd
      rcases ho with ho | ho | ho | ho
      · have := ih (rank d) (hrank n d hd) d rfl hlt
        obtain ⟨h1, h2, h3⟩ := hst d hlt
        cases hs : s.statusOf d <;> simp_all [decided]
      · simp [hexec d hlt] at ho
      · simp [hdone] at ho
      · rw [hann] at ho
        cases ho

variable (w : PlanNodeStates)

@[simp] lemma note_hasWaiting (st : NodeStatus) :
    (w.note st).hasWaiting ↔ w.hasWaiting ∨ st = .waiting := by cases st <;> simp [PlanNodeStates.note]

@[simp] lemma note_hasRetrying (st : NodeStatus) :
    (w.note st).hasRetrying ↔ w.hasRetrying ∨ st = .retrying := by cases st <;> simp [PlanNodeStates.note]

end

def LoopPc.stopped : LoopPc → Bool
  | .wait => true
  | pc => pc.waited

def HeldUp (s : State) : Prop := ∃ n, n < p.size ∧ (s.statusOf n = .waiting ∨ s.statusOf n = .retrying)

def AllStarted (s : State) : Prop := ∀ n, n < p.size → s.statusOf n ≠ .notStarted

def TurnSound (cfg : Config) (p : Plan) (s : State) : LoopPc → Prop
  | .nodeStates active rest seen =>
    active = acceptsNodes cfg s ∧ (∀ n ∈ rest, n < p.size) ∧ (s.running = 0 →
      (seen.hasWaiting ∨ seen.hasRetrying → HeldUp p s) ∧
      ∀ n, n < p.size → n ∉ rest → (s.statusOf n = .waiting → seen.hasWaiting) ∧
        (s.statusOf n = .retrying → seen.hasRetrying))
  | .checkFinished rest => ∀ n, n < p.size → n ∉ rest → s.statusOf n ≠ .notStarted
  | .checkStuck _ rest => s.running = 0 ∧ ∀ n ∈ rest, unfinished (s.statusOf n) = false
  | .setDeadlock => False
  | .wait | .drained | .handlers _ | .waitHandler | .returned => AllStarted p s ∨ s.running = 0 ∧ HeldUp p s
  | _ => True

section
variable {cfg : Config} {p : Plan} {s t : State}

lemma HeldUp.congr (h : ∀ n, t.statusOf n = s.statusOf n) (hs : HeldUp p s) : HeldUp p t := by
  obtain ⟨n, hn, hst⟩ := hs
  exact ⟨n, hn, by rwa [h n]⟩

lemma turnSound_frame {pc} (hr : t.running = s.running) (hc : t.canceled = s.canceled)
    (hst : s.running = 0 → ∀ n, t.statusOf n = s.statusOf n)
    (hns : ∀ n, s.statusOf n ≠ .notStarted → t.statusOf n ≠ .notStarted)
    (h : TurnSound cfg p s pc) : TurnSound cfg p t pc := by
  have hstop : AllStarted p s ∨ s.running = 0 ∧ HeldUp p s → AllStarted p t ∨ t.running = 0 ∧ HeldUp p t := by
    rintro (h | ⟨h0, h⟩)
    · exact .inl fun n hn => hns n (h n hn)
    · exact .inr ⟨hr.trans h0, h.congr (hst h0)⟩
  cases pc
  case nodeStates active rest seen =>
    obtain ⟨ha, hlt, h⟩ := h
    refine ⟨by simpa [acceptsNodes, hr, hc] using ha, hlt, fun h0 => ?_⟩
    rw [hr] at h0
    obtain ⟨hh, hn⟩ := h h0
    refine ⟨fun hseen => (hh hseen).congr (hst h0), fun n hlt hnr => ?_⟩
    rw [hst h0 n]
    exact hn n hlt hnr
  case checkFinished rest => exact fun n hn hnr => hns n (h n hn hnr)
  case checkStuck =>
    refine ⟨hr.trans h.1, fun n hn => ?_⟩
    rw [hst h.1 n]
    exact h.2 n hn
  case wait | drained | handlers | waitHandler | returned => exact hstop h
  all_goals exact h

lemma acceptsNodes_idle (hm : 0 ≤ cfg.maxActiveRuns) (hc : s.canceled = false)
    (h0 : s.running = 0) : acceptsNodes cfg s := by
  simp only [acceptsNodes, hc, h0, Bool.not_false, Bool.true_and, Bool.or_eq_true, decide_eq_true_eq]
  omega

structure Idle (p : Plan) (s : State) : Prop where
  executing : ∀ n, n < p.size → s.isExecuting n = false
  done : s.doneCh = []
  running : ∀ n, n < p.size → s.statusOf n ≠ .running

lemma LoopMove.turnSound {ev} (h : LoopMove cfg p s ev t)
    (hm : 0 ≤ cfg.maxActiveRuns) (hc : s.canceled = false) (hidle : s.running = 0 → Idle p s)
    (hcov : ∀ c, c < p.size → Covered p s c) (ht : TurnSound cfg p s s.loop) : TurnSound cfg p t t.loop := by
  cases h
  case scanDone | doneCanceled | queueEmpty | ctxDone | startNode | startSkipped =>
    exact fun n hn hnr => absurd (mem_nodes.mpr hn) hnr
  case foundFinished n rest pc status =>
    rw [pc] at ht
    intro m hm hmr
    rcases eq_or_ne m n with rfl | hne
    · intro hns
      have hns : s.statusOf m = .notStarted := hns
      simp [hns, unfinished] at status
    · exact ht m hm (by simp [hne, hmr])
  case allFinished pc =>
    rw [pc] at ht
    exact .inl fun n hn => ht n hn (by simp)
  case canceledBreak isCanceled => simp [hc] at isCanceled
  case choosesReady pc =>
    refine ⟨rfl, fun n hn => mem_nodes.mp hn, fun _ => ⟨by simp, fun n hn hnr => ?_⟩⟩
    exact absurd (mem_nodes.mpr hn) hnr
  case notesState active n rest seen pc =>
    rw [pc] at ht
    obtain ⟨ha, hlt, ht⟩ := ht
    refine ⟨ha, fun m hm => hlt m (by simp [hm]), fun h0 => ?_⟩
    obtain ⟨hh, hn⟩ := ht h0
    refine ⟨fun hseen => ?_, fun m hm hmr => ?_⟩
    · simp only [note_hasWaiting, note_hasRetrying] at hseen
      rcases hseen with (h | h) | (h | h)
      · exact hh (.inl h)
      · exact ⟨n, hlt n (by simp), .inl h⟩
      · exact hh (.inr h)
      · exact ⟨n, hlt n (by simp), .inr h⟩
    · simp only [note_hasWaiting, note_hasRetrying]
      rcases eq_or_ne m n with rfl | hne
      · exact ⟨.inr, .inr⟩
      · exact (hn m hm (by simp [hne, hmr])).imp (fun h => .inl ∘ h) fun h => .inl ∘ h
  case waitBreak active seen pc idle held =>
    rw [pc] at ht
    exact .inr ⟨idle.1, (ht.2.2 idle.1).1 held⟩
  case looksStuck active seen pc idle free =>
    rw [pc] at ht
    obtain ⟨rfl, -, hseen⟩ := ht
    have hready := idle.2 (acceptsNodes_idle hm hc idle.1)
    obtain ⟨hw, hr⟩ := free hready
    obtain ⟨hexec, hdone, hrun⟩ := hidle idle.1
    have hst : ∀ n, n < p.size → s.statusOf n ≠ .running ∧ s.statusOf n ≠ .waiting ∧ s.statusOf n ≠ .retrying := by
      intro n hn
      obtain ⟨h1, h2⟩ := (hseen idle.1).2 n hn (by simp)
      exact ⟨hrun n hn, fun h => by simp [h1 h] at hw, fun h => by simp [h2 h] at hr⟩
    have hall := all_started_of_idle hcov hready hexec hdone (by rw [pc]; rfl) (by rw [pc]; rfl) hst
    refine ⟨idle.1, fun n hn => ?_⟩
    have hn := mem_nodes.mp hn
    obtain ⟨h1, -, h2⟩ := hst n hn
    simp [unfinished, h1, h2, hall n hn]
  case stuck active n rest pc status =>
    rw [pc] at ht
    simp [ht.2 n (by simp)] at status
  case stuckContinues active n rest pc =>
    rw [pc] at ht
    exact ⟨ht.1, fun m hm => ht.2 m (by simp [hm])⟩
  case setDeadlock pc => rw [pc] at ht; exact ht.elim
  case allLeft pc _ | handlersDone pc | handlerRan pc | handlerSkipped pc | waitHandled pc =>
    rw [pc] at ht
    exact ht
  case statusWaits logs pc | statusHandlers logs _ pc =>
    rw [pc] at ht
    have hst := status_kept p logs (f := Node.status) (fun _ _ => rfl) cfg s.data s.canceled s.lastError s.finished
    refine @turnSound_frame cfg p s _ .drained rfl rfl (fun _ => hst) (fun n hn => ?_) ht
    exact fun h => hn ((hst n).symm.trans h)
  all_goals trivial

lemma SysMove.turnSound {l} (h : SysMove cfg p s l t) (hm : 0 ≤ cfg.maxActiveRuns)
    (hs : Sound p s) (hp : Phased s) (hcl : Closed s) (ha : Accounted cfg p s)
    (hc : s.canceled = false) (hu : undisturbed p s l)
    (hidle : s.running = 0 → Idle p s) (hcov : ∀ c, c < p.size → Covered p s c)
    (ht : TurnSound cfg p s s.loop) : TurnSound cfg p t t.loop := by
  cases h with
  | loop move => exact move.turnSound hm hc hidle hcov ht
  | @node n _ pc v gor room move =>
    refine turnSound_frame (s := s) rfl rfl ?_ (fun m hm => ?_) ht
    · exact status_afterNode_idle gor move hs ha hcl
    · exact (SysMove.node gor room move).status_ne_notStarted hs hm
  | ignoredSignal => exact ht
  | signal | cancel => cases hu
  | visits at_i | overwrites at_i =>
    have := hp.flagged (ne_nil_of_mem (mem_of_getElem? at_i))
    simp [hc] at this

lemma reach_turnSound {data : ℕ → Node} (hm : 0 ≤ cfg.maxActiveRuns) (hd : ∀ n, n < p.size → (data n).status ≠ .running)
    (h : Reach (step cfg p) (fun s l => undisturbed p s l) (start data) s) : TurnSound cfg p s s.loop := by
  induction h with
  | refl => trivial
  | @tail a b l prior hu hmove ih =>
    have hfin := reach_sendsFinal prior
    have hcl := reach_closed hfin
    have ha : Accounted cfg p a := reach_accounted prior
    have hidle : a.running = 0 → Idle p a := by
      intro h0
      obtain ⟨hexec, hdone⟩ := idle_not_executing ha h0
      refine ⟨hexec, hdone, fun n hn => ?_⟩
      exact idle_ne_running (reach_attended hd prior) (reach_owing (fun _ _ => sendsFinal_settled) hfin) hcl ha h0 hn
    exact (sysMove_of_step hmove).turnSound hm (reach_sound prior) (reach_phased prior) hcl ha
      (reach_not_canceled prior) hu hidle (fun c => reach_covered prior) ih

/-- An undisturbed run reports no deadlock, and when its loop has stopped, every node has
left its initial state or some node waits for approval or for a retry. -/
theorem never_deadlocks {data : ℕ → Node} (hm : 0 ≤ cfg.maxActiveRuns)
    (hd : ∀ n, n < p.size → (data n).status ≠ .running)
    (h : Reach (step cfg p) (fun s l => undisturbed p s l) (start data) s) :
    s.loop ≠ .setDeadlock ∧ (s.loop.stopped → (∀ n, n < p.size → s.statusOf n ≠ .notStarted) ∨
        ∃ n, n < p.size ∧ (s.statusOf n = .waiting ∨ s.statusOf n = .retrying)) := by
  have ht := reach_turnSound hm hd h
  refine ⟨fun hl => ?_, fun hl => ?_⟩
  · rw [hl] at ht
    exact ht
  have hstop : AllStarted p s ∨ s.running = 0 ∧ HeldUp p s := by
    cases hpc : s.loop <;> rw [hpc] at hl ht <;> first | exact ht | cases hl
  exact hstop.imp_right And.right

end

def backwards : List Step :=
  [{name := "publish", depends := ["build"]}, {name := "build", depends := ["fetch"]}, {name := "fetch"}]

def backwardsPlan : Plan where
  steps := backwards
  edges := [(1, 0), (2, 1)]
  edges_lt := by decide
  acyclic := by decide

def skippedRecord : List RecordedNode := [⟨"publish", {}⟩, ⟨"build", {}⟩, ⟨"fetch", {status := .skipped}⟩]

theorem deadlock_after_skip : ∃ data, createRetryPlan backwards skippedRecord = .ok (backwardsPlan, data) ∧
      (∀ n, n < 3 → (data n).status ≠ .running ∧ (data n).status ≠ .retrying ∧ (data n).status ≠ .waiting) ∧
      ∃ s, Reach (step {} backwardsPlan) always (start data) s ∧ s.loop = .setDeadlock ∧
        s.statusOf 0 = .notStarted ∧ s.canceled = false := by
  refine ⟨_, rfl, ?_, play (step {} backwardsPlan) _ (toSelect++[(.loop (.logScanned .absent), 1),
    (.loop .next, 12)]), reach_play _ _, ?_, ?_, ?_⟩ <;> decide +kernel

def backwardsFinished : State :=
  follow (step {} backwardsPlan) (undisturbed backwardsPlan) (start fun _ => {})
    (toSelect++launch++succeeds 2++collect++launch++succeeds 1++collect ++ launch++succeeds 0++collect)

theorem never_deadlocks_backwards : backwardsFinished.loop.stopped ∧ backwardsFinished.loop ≠ .setDeadlock :=
  ⟨by decide +kernel, (@never_deadlocks {} backwardsPlan backwardsFinished (fun _ => {}) le_rfl
      (fun _ _ => by simp) (reach_follow (fun _ _ h => h) _ _)).1⟩

end Ayatsuri.Runner
