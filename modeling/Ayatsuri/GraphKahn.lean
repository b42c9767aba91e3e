import Mathlib

/-! Kahn's algorithm on a directed multigraph given by its list of edges. Parallel
edges count with their multiplicity, as they do in adjacency lists that are
appended to edge by edge. -/
namespace Ayatsuri.GraphKahn
open List Function
variable {α : Type*} [DecidableEq α] (edges : List (α × α))

def preds (v : α) : List α := (edges.filter fun e => e.2 = v).map Prod.fst

def succs (u : α) : List α := (edges.filter fun e => e.1 = u).map Prod.snd

variable {edges : List (α × α)} {u v : α}

lemma mem_preds : u ∈ preds edges v ↔ (u, v) ∈ edges := by simp [preds]

lemma mem_succs : v ∈ succs edges u ↔ (u, v) ∈ edges := by simp [succs]

lemma count_succs (edges : List (α × α)) (u v : α) : (succs edges u).count v = (preds edges v).count u := by
  induction edges with
  | nil => simp [succs, preds]
  | cons e es ih =>
    obtain ⟨a, b⟩ := e
    simp only [succs, preds, filter_cons] at ih ⊢
    by_cases ha : a = u <;> by_cases hb : b = v <;> simp_all

structure Pass (α : Type*) where
  degree : α → Int
  queue : List α

/-- Remove one incoming edge of `v`. -/
def relax (p : Pass α) (v : α) : Pass α :=
  ⟨update p.degree v (p.degree v - 1), if p.degree v - 1 = 0 then p.queue++[v] else p.queue⟩

/-- The nodes in the order in which they leave the queue, at most `fuel` more of them. -/
def drain (edges : List (α × α)) : ℕ → Pass α → List α → List α
  | 0, _, done => done
  | fuel+1, p, done =>
    match p.queue with
    | [] => done
    | u::q => drain edges fuel ((succs edges u).foldl relax ⟨p.degree, q⟩) (done++[u])

variable (nodes : List α)

def start (edges : List (α × α)) : Pass α :=
  ⟨fun v => (preds edges v).length, nodes.filter fun v => (preds edges v).length = 0⟩

def order (edges : List (α × α)) : List α := drain edges nodes.length (start nodes edges) []

def isCyclic (edges : List (α × α)) : Bool := (order nodes edges).length ≠ nodes.length

lemma foldl_relax (vs : List α) (p : Pass α) (h : ∀ v, (vs.count v : Int) ≤ p.degree v) :
    (∀ w, (vs.foldl relax p).degree w = p.degree w - vs.count w) ∧
    ∃ fresh, (vs.foldl relax p).queue = p.queue++fresh ∧ fresh.Nodup ∧
      ∀ w, w ∈ fresh ↔ w ∈ vs ∧ p.degree w = vs.count w := by
  induction vs generalizing p with
  | nil => exact ⟨by simp, [], by simp⟩
  | cons v vs ih =>
    have hv := h v
    rw [count_cons_self] at hv
    have hrest : ∀ w, (vs.count w : Int) ≤ (relax p v).degree w := by
      intro w
      by_cases hw : w = v
      · subst hw; simp only [relax, update_self]; omega
      have := h w
      rw [count_cons_of_ne (Ne.symm hw)] at this
      simpa [relax, hw] using this
    obtain ⟨hdeg, fresh, hq, hnd, hmem⟩ := ih (relax p v) hrest
    refine ⟨?_, ?_⟩
    · intro w
      rw [foldl_cons, hdeg w]
      by_cases hw : w = v
      · subst hw; simp only [relax, update_self, count_cons_self]; push_cast; ring
      · simp [relax, hw, count_cons_of_ne (Ne.symm hw)]
    by_cases hz : p.degree v - 1 = 0
    · -- the last incoming edge of `v`: it is enqueued here and not again later
      have hcv : vs.count v = 0 := by omega
      have hnv : v ∉ vs := count_eq_zero.mp hcv
      refine ⟨v::fresh, ?_, ?_, ?_⟩
      · rw [foldl_cons, hq]; simp [relax, hz]
      · exact nodup_cons.mpr ⟨fun hm => hnv ((hmem v).mp hm).1, hnd⟩
      · intro w
        by_cases hw : w = v
        · subst hw; simp [hcv]; omega
        · simp [hw, hmem w, relax, count_cons_of_ne (Ne.symm hw)]
    refine ⟨fresh, ?_, hnd, ?_⟩
    · rw [foldl_cons, hq]; simp [relax, hz]
    intro w
    rw [hmem w]
    by_cases hw : w = v
    · subst hw
      simp only [relax, update_self, mem_cons, true_or, true_and, count_cons_self]
      constructor
      · rintro ⟨_, he⟩; push_cast; omega
      intro he
      push_cast at he
      have hpos : 0 < vs.count w := by omega
      exact ⟨count_pos_iff.mp hpos, by omega⟩
    · simp [relax, hw, count_cons_of_ne (Ne.symm hw)]

/-- What the loop keeps: in-degrees count the predecessors that are still to leave
the queue, and every listed node comes after all its predecessors. -/
structure Invariant (edges : List (α × α)) (p : Pass α) (done : List α) :
    Prop where
  nodup : (done++p.queue).Nodup
  listed : ∀ v ∈ done++p.queue, v ∈ nodes
  degree : ∀ v, p.degree v = (preds edges v).countP fun d => d ∉ done
  settled : ∀ v ∈ p.queue, ∀ d ∈ preds edges v, d ∈ done
  sorted : ∀ l v r, done = l++v::r → ∀ d ∈ preds edges v, d ∈ l
  waiting : ∀ v ∈ nodes, p.degree v = 0 → v ∈ done++p.queue

variable {nodes : List α}

lemma start_invariant (hn : nodes.Nodup) : Invariant nodes edges (start nodes edges) [] where
  nodup := by simpa [start] using hn.filter _
  listed := by
    intro v hv
    simp only [nil_append, start, mem_filter] at hv
    exact hv.1
  degree := by intro v; simp [start]
  settled := by
    intro v hv d hd
    have := (mem_filter.mp hv).2
    simp only [decide_eq_true_eq] at this
    rw [length_eq_zero_iff.mp this] at hd
    simp at hd
  sorted := by intro l v r h; simp at h
  waiting := by
    intro v hv h
    simp only [start, Nat.cast_eq_zero] at h
    simp [start, hv, length_eq_zero_iff.mp h]

variable {done : List α}

lemma countP_snoc (xs : List α) (hu : u ∉ done) :
    (xs.countP fun d => d ∉ done++[u])+xs.count u = xs.countP fun d => d ∉ done := by
  induction xs with
  | nil => simp
  | cons x xs ih =>
    by_cases hx : x = u
    · subst hx
      simp [hu] at ih ⊢
      omega
    · by_cases hd : x ∈ done <;> simp [count_cons_of_ne hx, hx, hd] at ih ⊢ <;> omega

lemma drain_step_invariant (he : ∀ e ∈ edges, e.2 ∈ nodes) {deg : α → Int} {q : List α}
    (h : Invariant nodes edges ⟨deg, u::q⟩ done) :
    Invariant nodes edges ((succs edges u).foldl relax ⟨deg, q⟩) (done++[u]) := by
  have hu : u ∉ done := by
    have := h.nodup
    simp only [nodup_append, mem_cons, forall_eq_or_imp] at this
    exact fun hm => (this.2.2 u hm).1 rfl
  have hcount : ∀ v, ((succs edges u).count v : Int) ≤ deg v := by
    intro v
    have hd : deg v = _ := h.degree v
    rw [count_succs, hd]
    have := countP_snoc (preds edges v) hu
    omega
  obtain ⟨hdeg, fresh, hq, hnd, hmem⟩ := foldl_relax (succs edges u) ⟨deg, q⟩ hcount
  have hfresh : ∀ w ∈ fresh, w ∉ done++u::q := by
    intro w hw hin
    obtain ⟨hs, hd⟩ := (hmem w).mp hw
    have hpos : 0 < (succs edges u).count w := count_pos_iff.mpr hs
    have hall : ∀ d ∈ preds edges w, d ∈ done := by
      rcases mem_append.mp hin with hin | hin
      · obtain ⟨l, r, hlr⟩ := append_of_mem hin
        intro d hd'
        rw [hlr]
        exact mem_append_left _ (h.sorted l w r hlr d hd')
      · exact h.settled w hin
    have hzero : deg w = 0 := by
      have hdw : deg w = _ := h.degree w
      rw [hdw]
      simp only [Nat.cast_eq_zero, countP_eq_zero, decide_eq_true_eq, not_not]
      exact hall
    simp only at hd
    omega
  have hdegree : ∀ v, ((succs edges u).foldl relax ⟨deg, q⟩).degree v =
      (preds edges v).countP fun d => d ∉ done++[u] := by
    intro v
    rw [hdeg v, count_succs]
    have := countP_snoc (preds edges v) hu
    have hd := h.degree v
    simp only at hd ⊢
    omega
  refine ⟨?_, ?_, hdegree, ?_, ?_, ?_⟩
  · rw [hq, show (done++[u])++(q++fresh) = (done++u::q)++fresh by simp]
    exact nodup_append.mpr ⟨h.nodup, hnd, fun a ha b hb hab => hfresh b hb (hab ▸ ha)⟩
  · intro v hv
    rw [hq, show (done++[u])++(q++fresh) = (done++u::q)++fresh by simp] at hv
    rcases mem_append.mp hv with hv | hv
    · exact h.listed v hv
    · exact he (u, v) (mem_succs.mp ((hmem v).mp hv).1)
  · intro v hv d hd
    rw [hq] at hv
    rcases mem_append.mp hv with hv | hv
    · exact mem_append_left _ (h.settled v (mem_cons_of_mem _ hv) d hd)
    have hz : ((succs edges u).foldl relax ⟨deg, q⟩).degree v = 0 := by
      rw [hdeg v]
      have := ((hmem v).mp hv).2
      simp only at this ⊢
      omega
    rw [hdegree v, Nat.cast_eq_zero, countP_eq_zero] at hz
    have := hz d hd
    simp only [decide_eq_true_eq, not_not] at this
    exact this
  · intro l v r hlr d hd
    rcases eq_nil_or_concat r with rfl | ⟨r', z, rfl⟩
    · obtain ⟨h1, h2⟩ := append_inj' hlr rfl
      obtain rfl : u = v := by simpa using h2
      exact h1 ▸ h.settled u (mem_cons_self ..) d hd
    · have hlr' : done++[u] = (l++v::r')++[z] := by simpa using hlr
      exact h.sorted l v r' (append_inj' hlr' rfl).1 d hd
  · intro v hv hz
    rw [hq, show (done++[u])++(q++fresh) = (done++u::q)++fresh by simp]
    by_cases hzero : deg v = 0
    · exact mem_append_left _ (h.waiting v hv hzero)
    -- the in-degree reached zero in this round, so `v` was enqueued by it
    rw [hdeg v] at hz
    simp only at hz
    have hpos : 0 < (succs edges u).count v := by omega
    exact mem_append_right _ ((hmem v).mpr ⟨count_pos_iff.mp hpos, by simp only; omega⟩)

lemma drain_invariant (he : ∀ e ∈ edges, e.2 ∈ nodes)
    (fuel : ℕ) (p : Pass α) (done : List α) (h : Invariant nodes edges p done)
    (hf : nodes.length ≤ done.length+fuel) : ∃ deg, Invariant nodes edges ⟨deg, []⟩ (drain edges fuel p done) := by
  induction fuel generalizing p done with
  | zero =>
    obtain ⟨deg, queue⟩ := p
    have hlen : (done++queue).length ≤ nodes.length := (h.nodup.subperm fun v hv => h.listed v hv).length_le
    rw [length_append] at hlen
    obtain rfl : queue = [] := length_eq_zero_iff.mp (by omega)
    exact ⟨deg, h⟩
  | succ fuel ih =>
    obtain ⟨deg, queue⟩ := p
    cases queue with
    | nil => exact ⟨deg, h⟩
    | cons u q => exact ih _ _ (drain_step_invariant he h) (by simp only [length_append, length_singleton]; omega)

variable (hn : nodes.Nodup)
include hn

/-- The loop ends with an empty queue: the fuel of `order` is enough. -/
lemma order_invariant (he : ∀ e ∈ edges, e.2 ∈ nodes) :
    ∃ deg, Invariant nodes edges ⟨deg, []⟩ (order nodes edges) := drain_invariant he _ _ _ (start_invariant hn) (by simp)

lemma exists_rank_of_not_isCyclic
    (he : ∀ e ∈ edges, e.1 ∈ nodes ∧ e.2 ∈ nodes) (hc : isCyclic nodes edges = false) :
    ∃ rank : α → ℕ, (∀ e ∈ edges, rank e.1 < rank e.2) ∧ ∀ v ∈ nodes, rank v < nodes.length := by
  obtain ⟨deg, h⟩ := order_invariant hn fun e hm => (he e hm).2
  have hlen : (order nodes edges).length = nodes.length := by simpa [isCyclic] using hc
  have hnd : (order nodes edges).Nodup := by simpa using h.nodup
  have hsub : nodes ⊆ order nodes edges :=
    ((hnd.subperm fun v hv => h.listed v (by simpa using hv)).perm_of_length_le hlen.ge).symm.subset
  refine ⟨fun v => (order nodes edges).idxOf v, ?_, fun v hv => hlen ▸ idxOf_lt_length_of_mem (hsub hv)⟩
  rintro ⟨u, v⟩ hm
  obtain ⟨l, r, hlr⟩ := append_of_mem (hsub (he _ hm).2)
  have hu : u ∈ l := h.sorted l v r hlr u (mem_preds.mpr hm)
  have hv : v ∉ l := by
    intro hv
    rw [hlr] at hnd
    exact (nodup_append.mp hnd).2.2 v hv v (mem_cons_self ..) rfl
  have hidx : idxOf u (l++v::r) < idxOf v (l++v::r) := by
    rw [idxOf_append_of_mem hu, idxOf_append_of_notMem hv]
    have := idxOf_lt_length_of_mem hu
    omega
  simpa only [hlr] using hidx

lemma isCyclic_eq_false_of_acyclic (he : ∀ e ∈ edges, e.1 ∈ nodes ∧ e.2 ∈ nodes)
    (hacyclic : ∀ v, ¬ Relation.TransGen (fun u v => (u, v) ∈ edges) v v) : isCyclic nodes edges = false := by
  obtain ⟨deg, h⟩ := order_invariant hn fun e hm => (he e hm).2
  let r := Relation.TransGen fun u v => (u, v) ∈ edges
  have hstrict : IsStrictOrder α r := {irrefl := hacyclic, trans := fun _ _ _ => Relation.TransGen.trans}
  have hwf : {v | v ∈ nodes}.WellFoundedOn r := (finite_toSet nodes).wellFoundedOn
  have hall : ∀ v ∈ nodes, v ∈ order nodes edges := fun v hv => by
    refine hwf.induction hv fun v hv ih => ?_
    have hdone : ∀ d ∈ preds edges v, d ∈ order nodes edges := fun d hd =>
      ih d (he _ (mem_preds.mp hd)).1 (.single (mem_preds.mp hd))
    have hzero : deg v = 0 := by
      rw [show deg v = _ from h.degree v]
      simpa [countP_eq_zero] using hdone
    simpa using h.waiting v hv hzero
  have hperm : (order nodes edges).Perm nodes :=
    (perm_ext_iff_of_nodup (by simpa using h.nodup) hn).mpr fun v => ⟨fun hv => h.listed v (by simpa using hv), hall v⟩
  simp [isCyclic, hperm.length_eq]

lemma isCyclic_eq_false_iff (he : ∀ e ∈ edges, e.1 ∈ nodes ∧ e.2 ∈ nodes) :
    isCyclic nodes edges = false ↔ ∀ v, ¬ Relation.TransGen (fun u v => (u, v) ∈ edges) v v := by
  refine ⟨fun hc v hv => ?_, isCyclic_eq_false_of_acyclic hn he⟩
  obtain ⟨rank, hrank, -⟩ := exists_rank_of_not_isCyclic hn he hc
  have hlt : ∀ u v, Relation.TransGen (fun u v => (u, v) ∈ edges) u v → rank u < rank v := fun u v huv => by
    induction huv with
    | single hedge => exact hrank _ hedge
    | tail _ hedge ih => exact ih.trans (hrank _ hedge)
  exact lt_irrefl _ (hlt v v hv)

end Ayatsuri.GraphKahn
