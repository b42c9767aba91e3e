import Ayatsuri.RunnerLoop
import Ayatsuri.TransitionSystem

/-! What holds in every reachable state of a run, whatever the interleaving: the nodes
the actors hold belong to the plan, a node under evaluation has not started, and no
actor but the event loop touches a node before it has started. -/
namespace Ayatsuri.Runner
open List State

def Resume.ids : Resume → List ℕ
  | .scan rest => rest
  | .propagate children queue => children++queue

def LoopPc.ids : LoopPc → List ℕ
  | .cancelNodes rest | .scan rest => rest
  | .isReady child _ k | .shouldContinue child _ _ _ k | .setBlocked child _ _ k
  | .notReady child k | .sendReady child k => child::k.ids
  | .nodeDone n | .startNode n => [n]
  | .propagate children queue => children++queue
  | _ => []

open LoopPc

/-- The node under evaluation in `isReady`, with the dependencies still to be passed. -/
@[simp] def LoopPc.evaluated : LoopPc → Option (ℕ × List ℕ)
  | .isReady child deps _ => some (child, deps)
  | .shouldContinue child d _ deps _ => some (child, d::deps)
  | .setBlocked child _ _ _ | .sendReady child _ => some (child, [])
  | _ => none

section
variable (p : Plan) (logs : LogAnswers) {α : Type} {f : Node → α}
  (hf : ∀ (n : Node) (cache : Option Bool), f {n with continueOnCache := cache} = f n)

include hf

lemma shouldContinue_kept (c : ContinueOn) (n : Node) (log : LogAnswer) : f (shouldContinue c n log).2 = f n := by
  obtain ⟨cache, h⟩ := shouldContinue_frame c n log
  rw [h, hf]

omit hf in
lemma update_kept {data : ℕ → Node} {n d} (h : f d = f (data n)) (m : ℕ) :
    f (Function.update data n d m) = f (data m) := by
  rw [Function.update_apply]
  split_ifs with hm
  · rw [hm, h]
  · rfl

variable (ns : List ℕ)

lemma failuresTolerated_kept (data : ℕ → Node) (m : ℕ) : f ((failuresTolerated p logs ns data).2 m) = f (data m) := by
  induction ns generalizing data with
  | nil => rfl
  | cons n ns ih =>
    unfold failuresTolerated
    split_ifs with hn
    · dsimp only
      split_ifs
      · rw [ih, update_kept (shouldContinue_kept hf ..)]
      · exact update_kept (shouldContinue_kept hf ..) m
    · exact ih data

lemma scanPartial_kept (w : PartialScan) (n m : ℕ) : f ((scanPartial p logs w n).data m) = f (w.data m) := by
  unfold scanPartial
  split
  · rfl
  · dsimp only
    split_ifs
    · apply update_kept
      rw [shouldMarkSuccess, shouldContinue_kept hf, shouldContinue_kept hf]
    · exact update_kept (shouldContinue_kept hf ..) m
  · rfl
  · rfl

lemma foldl_scanPartial_kept (w : PartialScan) (m : ℕ) :
    f ((ns.foldl (scanPartial p logs) w).data m) = f (w.data m) := by
  induction ns generalizing w with
  | nil => rfl
  | cons n ns ih => rw [foldl_cons, ih, scanPartial_kept p logs hf]

lemma isPartialSuccess_kept (data : ℕ → Node) (m : ℕ) : f ((isPartialSuccess p logs data).2 m) = f (data m) := by
  unfold isPartialSuccess
  dsimp only
  split_ifs
  · rw [foldl_scanPartial_kept p logs hf, failuresTolerated_kept p logs hf]
  · exact failuresTolerated_kept p logs hf _ _ _

/-- Computing the verdict changes nothing but the cached answers of `ShouldContinue`. -/
lemma status_kept (cfg : Config) (data : ℕ → Node) (canceled : Bool) (lastError : Option Err)
    (finished : Bool) (m : ℕ) : f ((status cfg p logs data canceled lastError finished).2 m) = f (data m) := by
  unfold status
  dsimp only
  cases cfg.forcedStatus <;> split_ifs <;> first | rfl | exact isPartialSuccess_kept p logs hf data m

end

lemma Move.status_ne_notStarted {cfg st canceled} {v w : View}
    {ev} (h : Move cfg st canceled v ev w) (hv : v.node.status ≠ .notStarted) :
    w.node.status ≠ .notStarted := by
  cases h
  case prepared => dsimp only; split_ifs <;> exact hv
  case determined hs => intro hn; simp_all [reportable]
  all_goals simp_all [resetForExecution, shouldMarkSuccess]

section
variable {cfg : Config} {p : Plan} {s t : State} {ev : LoopEvent} (h : LoopMove cfg p s ev t)
include h
variable (n : ℕ)

lemma LoopMove.statusOf_cases : t.statusOf n = s.statusOf n ∨
    ((∃ rest, s.loop = .cancelNodes (n::rest)) ∧ s.statusOf n = .running ∧ t.statusOf n = .aborted) ∨
    (∃ st e k, s.loop = .setBlocked n st e k ∧ t.statusOf n = st) ∨
    (s.loop = .startNode n ∧ s.statusOf n = .notStarted ∧ t.statusOf n = .running ∧ t.gor n = some .prepareNode) := by
  cases h
  case cancelNode m rest pc hm =>
    rw [statusOf_goto, statusOf_setNode]
    split_ifs with hn
    · subst hn; exact .inr (.inl ⟨⟨rest, pc⟩, hm, rfl⟩)
    · exact .inl rfl
  case continues d _ _ _ log pc _ | blocks d _ _ _ log pc _ =>
    left
    rw [statusOf_goto, statusOf_setNode, shouldContinue_status]
    split_ifs with hn
    · rw [hn]; rfl
    · rfl
  case setBlocked child st e k pc =>
    rw [statusOf_goto, statusOf_setNode]
    split_ifs with hn
    · subst hn; exact .inr (.inr (.inl ⟨st, e, k, pc, rfl⟩))
    · exact .inl rfl
  case startNode m pc hm =>
    rw [statusOf_goto, statusOf_spawn]
    split_ifs with hn
    · subst hn; exact .inr (.inr (.inr ⟨pc, hm, rfl, by simp⟩))
    · exact .inl rfl
  case statusWaits logs pc | statusHandlers logs _ pc =>
    exact .inl (status_kept p logs (f := Node.status) (fun _ _ => rfl) cfg _ _ _ _ n)
  all_goals exact .inl rfl

lemma LoopMove.err_cases : (t.data n).err = (s.data n).err ∨ ∃ st e k, s.loop = .setBlocked n st e k := by
  cases h
  case cancelNode | startNode =>
    refine .inl (update_kept (f := Node.err) ?_ n)
    rfl
  case continues | blocks => exact .inl (update_kept (f := Node.err) (shouldContinue_kept (fun _ _ => rfl) ..) n)
  case setBlocked child st e k pc =>
    rcases eq_or_ne n child with rfl | hn
    · exact .inr ⟨st, e, k, pc⟩
    · exact .inl (congrArg Node.err (Function.update_of_ne hn ..))
  case statusWaits logs pc | statusHandlers logs _ pc =>
    exact .inl (status_kept p logs (f := Node.err) (fun _ _ => rfl) cfg _ _ _ _ n)
  all_goals exact .inl rfl

lemma LoopMove.gor_cases : t.gor n = s.gor n ∨
    (s.loop = .startNode n ∧ s.statusOf n = .notStarted ∧ t.gor n = some .prepareNode) := by
  cases h
  case startNode m pc hm =>
    change (s.spawn m).gor n = _ ∨ (_ ∧ _ ∧ (s.spawn m).gor n = _)
    rw [gor_spawn]
    split_ifs with hn
    · subst hn; exact .inr ⟨pc, hm, rfl⟩
    · exact .inl rfl
  all_goals exact .inl rfl

lemma LoopMove.deliveries_eq : t.deliveries = s.deliveries := by cases h <;> rfl

end

/-- The goroutine of node `n` has sent its done message. -/
def State.SentDone (s : State) (n : ℕ) : Prop := ∃ pc, s.gor n = some pc ∧ pc.executing = false

structure Sound (p : Plan) (s : State) : Prop where
  ids_lt : ∀ n ∈ s.loop.ids, n < p.size
  ready_lt : ∀ n ∈ s.readyCh, n < p.size
  gor_lt : ∀ n pc, s.gor n = some pc → n < p.size
  started : ∀ n pc, s.gor n = some pc → s.statusOf n ≠ .notStarted
  held : ∀ g ∈ s.deliveries, ∀ n, g.pending = some n → s.statusOf n ≠ .notStarted
  evaluated : ∀ c ds, s.loop.evaluated = some (c, ds) → s.statusOf c = .notStarted ∧ ds ⊆ p.dependencies c
  blocked : ∀ c st e k, s.loop = .setBlocked c st e k → st = .aborted ∨ st = .skipped
  sent : ∀ n ∈ s.doneCh, s.SentDone n
  received : ∀ n, s.loop = .nodeDone n → s.SentDone n

lemma sound_start (p : Plan) (data : ℕ → Node) : Sound p (start data) := by constructor <;> simp [start, ids]

section
variable {cfg : Config} {p : Plan} {s t : State} {ev : LoopEvent} (h : LoopMove cfg p s ev t)
include h

lemma LoopMove.status_ne_notStarted (hs : Sound p s) {n : ℕ}
    (hn : s.statusOf n ≠ .notStarted) : t.statusOf n ≠ .notStarted := by
  rcases h.statusOf_cases n with h | ⟨-, -, h⟩ | ⟨st, e, k, hl, h⟩ | ⟨-, -, h, -⟩
  · rwa [h]
  · simp [h]
  · rcases hs.blocked n st e k hl with rfl | rfl <;> simp [h]
  · simp [h]

lemma LoopMove.ids_lt (hs : Sound p s) : ∀ n ∈ t.loop.ids, n < p.size := by
  have hi := hs.ids_lt
  have hr := hs.ready_lt
  cases h
  case takeDone active n rest pc head =>
    intro m hm
    obtain rfl : m = n := by simpa [ids] using hm
    obtain ⟨g, hg, -⟩ := hs.sent m (by simp [head])
    exact hs.gor_lt m g hg
  case nextInQueue n queue pc =>
    exact forall_mem_append.mpr ⟨fun m => Plan.dependents_lt, fun m hm => hi m (by simp [pc, ids, hm])⟩
  all_goals simp_all [ids, Resume.ids, or_imp, forall_and]

lemma LoopMove.ready_lt (hs : Sound p s) : ∀ n ∈ t.readyCh, n < p.size := by
  cases h
  case sendInScan pc _ | sendInQueue pc _ =>
    intro n hn
    rcases mem_append.mp hn with hn | hn
    · exact hs.ready_lt n hn
    · exact hs.ids_lt n (by simp_all [ids])
  case takeReady m rest pc head => exact fun n hn => hs.ready_lt n (by simp [head, hn])
  all_goals exact hs.ready_lt

lemma LoopMove.evaluated (hs : Sound p s) : ∀ c ds, t.loop.evaluated = some (c, ds) →
      s.statusOf c = .notStarted ∧ ds ⊆ p.dependencies c := by
  intro c ds he
  cases h
  case scanEvaluates n rest pc hn | childEvaluated n _ _ pc hn =>
    obtain ⟨rfl, rfl⟩ : n = c ∧ p.dependencies n = ds := by simpa using he
    exact ⟨hn, List.Subset.refl _⟩
  case depsPassed child k pc =>
    obtain ⟨rfl, rfl⟩ : child = c ∧ [] = ds := by simpa using he
    exact hs.evaluated _ [] (by rw [pc]; rfl)
  case depSucceeded child d deps k pc _ | continues child d _ deps k _ pc _ =>
    obtain ⟨hn, hd⟩ := hs.evaluated child (d::deps) (by rw [pc]; rfl)
    obtain ⟨rfl, rfl⟩ : child = c ∧ deps = ds := by simpa using he
    exact ⟨hn, fun x hx => hd (mem_cons_of_mem _ hx)⟩
  case depAsked child d _ deps k pc _ _ =>
    obtain ⟨rfl, rfl⟩ : child = c ∧ d::deps = ds := by simpa using he
    exact hs.evaluated child (d::deps) (by rw [pc]; rfl)
  case depAborted child d deps k _ pc _ | blocks child d _ deps k _ _ _ pc _ _ =>
    obtain ⟨rfl, rfl⟩ : child = c ∧ [] = ds := by simpa using he
    exact ⟨(hs.evaluated child (d::deps) (by rw [pc]; rfl)).1, nil_subset _⟩
  all_goals simp at he

lemma LoopMove.blocked : ∀ c st e k, t.loop = .setBlocked c st e k → st = .aborted ∨ st = .skipped := by
  intro c st e k hl
  cases h
  case depAborted => cases hl; exact .inl rfl
  case blocks kind => cases hl; exact kind
  all_goals simp at hl

lemma LoopMove.sentDone (hs : Sound p s) {n} (hn : s.SentDone n) : t.SentDone n := by
  obtain ⟨pc, hg, hx⟩ := hn
  rcases h.gor_cases n with hg' | ⟨-, hne, -⟩
  · exact ⟨pc, hg'.trans hg, hx⟩
  · exact absurd hne (hs.started n pc hg)

lemma LoopMove.sound (hs : Sound p s) : Sound p t where
  ids_lt := h.ids_lt hs
  ready_lt := h.ready_lt hs
  gor_lt n pc hg := by
    rcases h.gor_cases n with h' | ⟨hl, -, -⟩
    · exact hs.gor_lt n pc (h'.symm.trans hg)
    · exact hs.ids_lt n (by simp [hl, ids])
  started n pc hg := by
    rcases h.gor_cases n with h' | ⟨hl, -, -⟩
    · exact h.status_ne_notStarted hs (hs.started n pc (h'.symm.trans hg))
    · cases h <;> simp_all
  held g hg n hp := h.status_ne_notStarted hs (hs.held g (h.deliveries_eq ▸ hg) n hp)
  evaluated c ds he := by
    obtain ⟨hn, hd⟩ := h.evaluated hs c ds he
    refine ⟨?_, hd⟩
    rcases h.statusOf_cases c with h' | ⟨-, hr, -⟩ | ⟨st, e, k, hl, -⟩ | ⟨hl, -, -, -⟩
    · rw [h', hn]
    · simp [hn] at hr
    · cases h <;> simp_all
    · cases h <;> simp_all
  blocked := h.blocked
  sent n hn := by
    refine h.sentDone hs (hs.sent n ?_)
    cases h <;> first | exact hn | simp_all
  received n hn := by
    refine h.sentDone hs ?_
    cases h
    case takeDone active rest pc head => cases hn; exact hs.sent n (by simp [head])
    all_goals simp at hn

end

lemma Move.executing_eq {cfg st canceled} {v w : View} {ev}
    (h : Move cfg st canceled v ev w) : w.pc.executing = (v.pc.executing && !v.pc.sendsDone) := by
  cases h
  case panic pc n l e body => cases pc <;> simp_all [GPc.inBody, GPc.executing, GPc.sendsDone]
  all_goals rfl

section
variable {cfg : Config} {p : Plan} {s t : State} {n : ℕ}

lemma sentDone_afterNode {m ev pc v} (hg : s.gor n = some pc)
    (h : Move cfg (p.step n) s.canceled ⟨pc, s.data n, s.lastError⟩ ev v) (hm : s.SentDone m) :
    (s.afterNode n pc v).SentDone m := by
  obtain ⟨pc', hg', hx⟩ := hm
  unfold State.SentDone
  rw [gor_afterNode]
  split_ifs with hmn
  · subst hmn
    obtain rfl : pc = pc' := by simpa [hg] using hg'
    exact ⟨v.pc, rfl, by simp [h.executing_eq, hx]⟩
  · exact ⟨pc', hg', hx⟩

lemma sound_afterNode {ev pc v} (hg : s.gor n = some pc)
    (h : Move cfg (p.step n) s.canceled ⟨pc, s.data n, s.lastError⟩ ev v) (hs : Sound p s) :
    Sound p (s.afterNode n pc v) := by
  have hn : v.node.status ≠ .notStarted := h.status_ne_notStarted (hs.started n pc hg)
  have keep : ∀ m, s.statusOf m ≠ .notStarted → (s.afterNode n pc v).statusOf m ≠ .notStarted := by
    intro m hm
    rw [statusOf_afterNode]
    split_ifs
    · exact hn
    · exact hm
  refine ⟨hs.ids_lt, hs.ready_lt, ?_, ?_, fun g hg m hp => keep m (hs.held g hg m hp), ?_,
    hs.blocked, ?_, fun m hm => sentDone_afterNode hg h (hs.received m hm)⟩
  · intro m pc' hm
    rw [gor_afterNode] at hm
    split_ifs at hm with hmn
    · exact hmn ▸ hs.gor_lt n pc hg
    · exact hs.gor_lt m pc' hm
  · intro m pc' hm
    rw [gor_afterNode] at hm
    split_ifs at hm with hmn
    · exact keep m (hmn ▸ hs.started n pc hg)
    · exact keep m (hs.started m pc' hm)
  · intro c ds he
    obtain ⟨hc, hd⟩ := hs.evaluated c ds he
    refine ⟨?_, hd⟩
    rw [statusOf_afterNode, if_neg]
    · exact hc
    · rintro rfl
      exact hs.started c pc hg hc
  · intro m hm
    change m ∈ (if pc.sendsDone then s.doneCh++[n] else s.doneCh) at hm
    split_ifs at hm with hd
    · rcases mem_append.mp hm with hm | hm
      · exact sentDone_afterNode hg h (hs.sent m hm)
      · obtain rfl : m = n := by simpa using hm
        exact ⟨v.pc, by simp, by simp [h.executing_eq, hd]⟩
    · exact sentDone_afterNode hg h (hs.sent m hm)

lemma sound_deliver {i : ℕ} {d : Delivery} (hs : Sound p s)
    (hd : ∀ n, d.pending = some n → s.statusOf n ≠ .notStarted) :
    Sound p {s with deliveries := s.deliveries.set i d} :=
  {hs with
    held := TransitionSystem.forall_mem_set hs.held hd}

lemma sound_setAborted (hs : Sound p s) (hn : s.statusOf n ≠ .notStarted) :
    Sound p (s.setNode n ((s.data n).setStatus .aborted)) := by
  have keep : ∀ m, s.statusOf m ≠ .notStarted →
      (s.setNode n ((s.data n).setStatus .aborted)).statusOf m ≠ .notStarted := by
    intro m hm
    rw [statusOf_setNode]
    split_ifs
    · simp
    · exact hm
  refine {hs with
    started := fun m pc hm => keep m (hs.started m pc hm)
    held := fun g hg m hp => keep m (hs.held g hg m hp)
    evaluated := ?_}
  intro c ds he
  obtain ⟨hc, hd⟩ := hs.evaluated c ds he
  refine ⟨?_, hd⟩
  rw [statusOf_setNode, if_neg]
  · exact hc
  · rintro rfl
    exact hn hc

lemma SysMove.sound {l} (h : SysMove cfg p s l t) (hs : Sound p s) : Sound p t := by
  cases h with
  | loop move => exact move.sound hs
  | node gor room move => exact sound_afterNode gor move hs
  | ignoredSignal => exact hs
  | signal | cancel =>
    refine {hs with held := fun g hg n hn => ?_}
    rcases mem_append.mp hg with hg | hg
    · exact hs.held g hg n hn
    · simp_all
  | visits at_i todo free read =>
    refine sound_deliver hs fun n hn => ?_
    rcases read with rfl | ⟨rfl, hr⟩
    · cases hn
    · cases hn; simp [hr]
  | overwrites at_i held =>
    refine sound_deliver (sound_setAborted hs (hs.held _ (mem_of_getElem? at_i) _ held)) ?_
    simp

lemma SysMove.status_ne_notStarted {l} (h : SysMove cfg p s l t) (hs : Sound p s)
    (hn : s.statusOf n ≠ .notStarted) : t.statusOf n ≠ .notStarted := by
  cases h with
  | loop move => exact move.status_ne_notStarted hs hn
  | node gor room move =>
    rw [statusOf_afterNode]
    split_ifs
    · exact move.status_ne_notStarted (hs.started _ _ gor)
    · exact hn
  | overwrites at_i held =>
    change (s.setNode _ _).statusOf n ≠ _
    rw [statusOf_setNode]
    split_ifs
    · simp
    · exact hn
  | _ => exact hn

open TransitionSystem in
lemma reach_sound {data : ℕ → Node} {C : State → Label → Prop} (h : Reach (step cfg p) C (start data) s) : Sound p s :=
  h.invariant (sound_start p data) fun _ _ _ _ hs _ hm => (sysMove_of_step hm).sound hs

open TransitionSystem in
lemma reach_status_ne_notStarted {C : State → Label → Prop} (hs : Sound p s)
    (hn : s.statusOf n ≠ .notStarted) (h : Reach (step cfg p) C s t) : Sound p t ∧ t.statusOf n ≠ .notStarted :=
  h.invariant (P := fun t => Sound p t ∧ t.statusOf n ≠ .notStarted) ⟨hs, hn⟩
    fun _ _ _ _ hi _ hm => ⟨(sysMove_of_step hm).sound hi.1, (sysMove_of_step hm).status_ne_notStarted hi.1 hi.2⟩

end

def Resume.scanning : Resume → Bool
  | .scan _ => true
  | .propagate .. => false

def LoopPc.early : LoopPc → Bool
  | .evalConditions | .cancelNodes _ | .initHandler | .runInit | .initSetLastError _
  | .initSetCanceled | .scan _ => true
  | .isReady _ _ k | .shouldContinue _ _ _ _ k | .setBlocked _ _ _ k | .notReady _ k
  | .sendReady _ k => k.scanning
  | _ => false

structure Phased (s : State) : Prop where
  early : s.loop.early → ∀ n, s.gor n = none
  flagged : s.deliveries ≠ [] → s.canceled
  canceling : ∀ rest, s.loop = .cancelNodes rest → s.canceled

section
variable {cfg : Config} {p : Plan} {s t : State} {ev : LoopEvent}

section
variable (h : LoopMove cfg p s ev t)
include h

lemma LoopMove.canceled_kept (hc : s.canceled) : t.canceled := by cases h <;> first | rfl | exact hc

lemma LoopMove.phased (hp : Phased s) : Phased t := by
  obtain ⟨he, hf, hc⟩ := hp
  refine ⟨?_, fun hd => h.canceled_kept (hf (h.deliveries_eq ▸ hd)), fun rest hl => ?_⟩
  · cases h <;> simp_all [LoopPc.early, Resume.scanning]
  · cases h <;> simp_all

lemma LoopMove.untouched (hs : Sound p s) (hp : Phased s) {n : ℕ} (hn : s.gor n ≠ none ∨ decided (s.statusOf n)) :
    t.statusOf n = s.statusOf n ∧ (t.data n).err = (s.data n).err ∧ t.gor n = s.gor n := by
  have hne : s.statusOf n ≠ .notStarted := by
    rcases hn with hn | hn
    · obtain ⟨pc, hg⟩ := Option.ne_none_iff_exists'.mp hn
      exact hs.started n pc hg
    · intro he
      simp [he, decided] at hn
  have hb : ∀ st e k, s.loop ≠ .setBlocked n st e k := fun st e k hl => hne (hs.evaluated n [] (by rw [hl]; rfl)).1
  refine ⟨?_, ?_, ?_⟩
  · rcases h.statusOf_cases n with h | ⟨⟨rest, hl⟩, hr, -⟩ | ⟨st, e, k, hl, -⟩ | ⟨-, h, -⟩
    · exact h
    · rcases hn with hn | hn
      · exact absurd (hp.early (by rw [hl]; rfl) n) hn
      · simp [hr, decided] at hn
    · exact absurd hl (hb st e k)
    · exact absurd h hne
  · rcases h.err_cases n with h | ⟨st, e, k, hl⟩
    · exact h
    · exact absurd hl (hb st e k)
  · rcases h.gor_cases n with h | ⟨-, h, -⟩
    · exact h
    · exact absurd h hne

end

lemma SysMove.phased {l} (h : SysMove cfg p s l t) (hp : Phased s) : Phased t := by
  cases h with
  | loop move => exact move.phased hp
  | @node n _ pc v gor room move =>
    refine ⟨fun he => ?_, hp.flagged, hp.canceling⟩
    have := hp.early he n
    simp [gor] at this
  | ignoredSignal => exact hp
  | signal | cancel => exact ⟨hp.early, fun _ => rfl, fun _ _ => rfl⟩
  | visits at_i | overwrites at_i =>
    refine ⟨hp.early, fun _ => hp.flagged ?_, hp.canceling⟩
    exact ne_nil_of_mem (mem_of_getElem? at_i)

lemma SysMove.canceled_kept {l} (h : SysMove cfg p s l t) (hc : s.canceled) : t.canceled := by
  cases h with
  | loop move => exact move.canceled_kept hc
  | signal | cancel => rfl
  | _ => exact hc

open TransitionSystem in
lemma reach_phased {data : ℕ → Node} {C : State → Label → Prop} (h : Reach (step cfg p) C (start data) s) : Phased s :=
  h.invariant ⟨fun _ _ => rfl, fun hd => absurd rfl hd, nofun⟩ fun _ _ _ _ hp _ hm => (sysMove_of_step hm).phased hp

end
end Ayatsuri.Runner
