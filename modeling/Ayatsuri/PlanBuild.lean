import Ayatsuri.NodeModel
import Ayatsuri.GraphKahn

/-! Execution plans (`internal/runtime/plan.go`). Node IDs are consecutive in list
order, so a node is named by its position. `DependencyMap` and `DependantMap` are
the two adjacency views of one list of edges, in the order in which they are added. -/
namespace Ayatsuri
open List GraphKahn

inductive PlanError
  | cyclicPlan
  | missingNode (name : String)
  deriving DecidableEq

structure Plan where
  steps : List Step
  edges : List (ℕ × ℕ)
  edges_lt : ∀ e ∈ edges, e.1 < steps.length ∧ e.2 < steps.length
  acyclic : isCyclic (range steps.length) edges = false

/-- `nodeByName`: a later node of the same name replaces an earlier one. -/
def nodeByName (steps : List Step) (name : String) : Option ℕ :=
  steps.zipIdx.foldl (fun found s => if s.1.name = name then some s.2 else found) none

def dependsEdges (steps : List Step) (v : ℕ) : List String → Except PlanError (List (ℕ × ℕ))
  | [] => .ok []
  | d::ds =>
    match nodeByName steps d with
    | none => .error (.missingNode d)
    | some u => (dependsEdges steps v ds).map ((u, v) :: ·)

/-- The edges of the nodes from position `v` on. -/
def edgesFrom (steps : List Step) : ℕ → List Step → Except PlanError (List (ℕ × ℕ))
  | _, [] => .ok []
  | v, s::ss =>
    match dependsEdges steps v s.depends with
    | .error e => .error e
    | .ok es => (edgesFrom steps (v+1) ss).map (es ++ ·)

variable {name : String} {steps : List Step}

lemma nodeByName_eq_some {u : ℕ} (h : nodeByName steps name = some u) : ∃ s, steps[u]? = some s ∧ s.name = name := by
  have key : ∀ (ss : List (Step × ℕ)) (found : Option ℕ),
      ss.foldl (fun found s => if s.1.name = name then some s.2 else found) found = some u →
        found = some u ∨ ∃ s ∈ ss, s.1.name = name ∧ s.2 = u := by
    intro ss
    induction ss with
    | nil => exact fun found hfound => .inl hfound
    | cons s ss ih =>
      intro found hfound
      rcases ih _ hfound with hs | ⟨t, ht, hu⟩
      · beta_reduce at hs
        split_ifs at hs with hn
        · exact .inr ⟨s, by simp, hn, Option.some_inj.mp hs⟩
        · exact .inl hs
      · exact .inr ⟨t, by simp [ht], hu⟩
  rcases key steps.zipIdx none h with hnone | ⟨s, hs, hn, rfl⟩
  · cases hnone
  · exact ⟨s.1, mk_mem_zipIdx_iff_getElem?.mp hs, hn⟩

lemma nodeByName_lt {u : ℕ} (h : nodeByName steps name = some u) : u < steps.length := by
  obtain ⟨s, hs, -⟩ := nodeByName_eq_some h
  exact (List.getElem?_eq_some_iff.mp hs).1

lemma nodeByName_eq_none_iff : nodeByName steps name = none ↔ ∀ s ∈ steps, s.name ≠ name := by
  have key : ∀ (ss : List (Step × ℕ)) (found : Option ℕ),
      ss.foldl (fun found s => if s.1.name = name then some s.2 else found) found = none ↔
        found = none ∧ ∀ s ∈ ss, s.1.name ≠ name := by
    intro ss
    induction ss with
    | nil => simp
    | cons s ss ih =>
      intro found
      rw [foldl_cons, ih]
      by_cases hn : s.1.name = name <;> simp [hn]
  rw [nodeByName, key]
  simp only [true_and]
  refine ⟨fun h s hs => ?_, fun h s hs => h s.1 (fst_mem_of_mem_zipIdx hs)⟩
  obtain ⟨i, hi⟩ := mem_iff_getElem?.mp hs
  exact h (s, i) (mk_mem_zipIdx_iff_getElem?.mpr hi)

lemma dependsEdges_cases (steps : List Step) (v : ℕ) (ds : List String) :
    (∃ d ∈ ds, nodeByName steps d = none ∧ dependsEdges steps v ds = .error (.missingNode d)) ∨
      (∀ d ∈ ds, nodeByName steps d ≠ none) ∧ ∃ es, dependsEdges steps v ds = .ok es ∧
        ∀ e, e ∈ es ↔ e.2 = v ∧ ∃ d ∈ ds, nodeByName steps d = some e.1 := by
  induction ds with
  | nil => exact .inr ⟨by simp, [], rfl, by simp⟩
  | cons d ds ih =>
    cases hn : nodeByName steps d with
    | none => exact .inl ⟨d, by simp, hn, by simp [dependsEdges, hn]⟩
    | some u =>
      rcases ih with ⟨d', hd', hnone, herror⟩ | ⟨hall, es, hok, hmem⟩
      · exact .inl ⟨d', by simp [hd'], hnone, by simp [dependsEdges, hn, herror, Except.map]⟩
      refine .inr ⟨by simpa [hn] using hall, (u, v)::es, by simp [dependsEdges, hn, hok, Except.map], fun e => ?_⟩
      rw [mem_cons, hmem e]
      simp only [exists_mem_cons_iff, hn, Option.some_inj, Prod.ext_iff]
      constructor
      · rintro (⟨hu, hv⟩ | ⟨hv, hd⟩)
        · exact ⟨hv, .inl hu.symm⟩
        · exact ⟨hv, .inr hd⟩
      rintro ⟨hv, hu | hd⟩
      · exact .inl ⟨hu.symm, hv⟩
      · exact .inr ⟨hv, hd⟩

lemma edgesFrom_cases (steps ss : List Step) (v : ℕ) :
    (∃ s ∈ ss, ∃ d ∈ s.depends, nodeByName steps d = none ∧ edgesFrom steps v ss = .error (.missingNode d)) ∨
      (∀ s ∈ ss, ∀ d ∈ s.depends, nodeByName steps d ≠ none) ∧ ∃ es, edgesFrom steps v ss = .ok es ∧
        ∀ e, e ∈ es ↔ ∃ k s, ss[k]? = some s ∧ e.2 = v+k ∧ ∃ d ∈ s.depends, nodeByName steps d = some e.1 := by
  induction ss generalizing v with
  | nil => exact .inr ⟨by simp, [], rfl, by simp⟩
  | cons s ss ih =>
    rcases dependsEdges_cases steps v s.depends with ⟨d, hd, hnone, herror⟩ | ⟨hall, es, hok, hmem⟩
    · exact .inl ⟨s, by simp, d, hd, hnone, by simp [edgesFrom, herror]⟩
    rcases ih (v+1) with ⟨t, ht, d, hd, hnone, herror⟩ | ⟨hrest, fs, hfs, hmemRest⟩
    · exact .inl ⟨t, by simp [ht], d, hd, hnone, by simp [edgesFrom, hok, herror, Except.map]⟩
    refine .inr ⟨forall_mem_cons.mpr ⟨hall, hrest⟩, es++fs, by simp [edgesFrom, hok, hfs, Except.map], fun e => ?_⟩
    rw [mem_append, hmem e, hmemRest e]
    constructor
    · rintro (⟨hv, hd⟩ | ⟨k, t, ht, hv, hd⟩)
      · exact ⟨0, s, rfl, hv, hd⟩
      · exact ⟨k+1, t, ht, by omega, hd⟩
    rintro ⟨k, t, ht, hv, hd⟩
    cases k with
    | zero =>
      cases ht
      exact .inl ⟨hv, hd⟩
    | succ k => exact .inr ⟨k, t, ht, by omega, hd⟩

/-- Node `v` has a step that depends on the name of node `u`. -/
def DependsOn (steps : List Step) (v u : ℕ) : Prop :=
  ∃ s, steps[v]? = some s ∧ ∃ d ∈ s.depends, nodeByName steps d = some u

variable {es : List (ℕ × ℕ)}

lemma mem_edgesFrom (h : edgesFrom steps 0 steps = .ok es) {e : ℕ × ℕ} : e ∈ es ↔ DependsOn steps e.2 e.1 := by
  rcases edgesFrom_cases steps steps 0 with ⟨s, -, d, -, -, herror⟩ | ⟨-, fs, hok, hmem⟩
  · cases h.symm.trans herror
  · cases h.symm.trans hok
    simpa [DependsOn] using hmem e

lemma edgesFrom_lt (h : edgesFrom steps 0 steps = .ok es) :
    ∀ e ∈ es, e.1 < steps.length ∧ e.2 < steps.length := fun e he => by
  obtain ⟨s, hs, d, -, hd⟩ := (mem_edgesFrom h).mp he
  exact ⟨nodeByName_lt hd, (List.getElem?_eq_some_iff.mp hs).1⟩

/-- `addNode` for every step, then `buildEdges` with its cycle check. -/
def buildPlan (steps : List Step) : Except PlanError Plan :=
  match h : edgesFrom steps 0 steps with
  | .error e => .error e
  | .ok es =>
    if hc : isCyclic (range steps.length) es = false then
      .ok ⟨steps, es, edgesFrom_lt h, hc⟩
    else .error .cyclicPlan

section
variable {steps : List Step} {es : List (ℕ × ℕ)}

lemma buildPlan_eq_error {e : PlanError} (h : edgesFrom steps 0 steps = .error e) : buildPlan steps = .error e := by
  unfold buildPlan
  split
  · next e' h' => cases h.symm.trans h'; rfl
  · next es h' => cases h.symm.trans h'

lemma buildPlan_eq_ok (h : edgesFrom steps 0 steps = .ok es) (hc : isCyclic (range steps.length) es = false) :
    ∃ p, buildPlan steps = .ok p := by
  unfold buildPlan
  split
  · next e h' => cases h.symm.trans h'
  next fs h' =>
  cases h.symm.trans h'
  exact ⟨_, dif_pos hc⟩

lemma buildPlan_eq_cyclic (h : edgesFrom steps 0 steps = .ok es)
    (hc : ¬ isCyclic (range steps.length) es = false) : buildPlan steps = .error .cyclicPlan := by
  unfold buildPlan
  split
  · next e h' => cases h.symm.trans h'
  next fs h' =>
  cases h.symm.trans h'
  exact dif_neg hc

end

lemma buildPlan_steps {p : Plan} (h : buildPlan steps = .ok p) : p.steps = steps := by
  unfold buildPlan at h
  split at h
  · cases h
  split at h
  · cases h; rfl
  · cases h

namespace Plan
variable (p : Plan)

def size : ℕ := p.steps.length

def nodes : List ℕ := range p.size

variable (n : ℕ)

def step : Step := p.steps.getD n default

def dependencies : List ℕ := preds p.edges n

def dependents : List ℕ := succs p.edges n

variable {p : Plan}

@[simp] lemma mem_nodes {n : ℕ} : n ∈ p.nodes ↔ n < p.size := mem_range

variable {c d : ℕ}

lemma mem_dependents : c ∈ p.dependents d ↔ d ∈ p.dependencies c := by
  simp [dependents, dependencies, mem_succs, mem_preds]

lemma dependencies_lt (h : d ∈ p.dependencies c) : d < p.size := (p.edges_lt _ (mem_preds.mp h)).1

lemma dependents_lt (h : c ∈ p.dependents d) : c < p.size := (p.edges_lt _ (mem_succs.mp h)).2

lemma exists_rank (p : Plan) : ∃ rank : ℕ → ℕ, (∀ c d, d ∈ p.dependencies c → rank d < rank c) ∧
      ∀ n, n < p.size → rank n < p.size := by
  obtain ⟨rank, h, hb⟩ := exists_rank_of_not_isCyclic
    (nodup_range (n := p.steps.length)) (fun e he => by simpa using p.edges_lt e he) p.acyclic
  refine ⟨rank, fun c d hd => h (d, c) (mem_preds.mp hd), fun n hn => ?_⟩
  have := hb n (mem_range.mpr hn)
  rwa [length_range] at this

end Plan

/-- `NewPlan`: every node starts in the zero state. -/
def newPlan (steps : List Step) : Except PlanError (Plan × (ℕ → Node)) := (buildPlan steps).map fun p => (p, fun _ => {})

/-- `NewPlan` succeeds if and only if all names are known and no step depends on itself. -/
theorem newPlan_spec (steps : List Step) : ((∃ plan, newPlan steps = .ok plan) ↔
      (∀ s ∈ steps, ∀ d ∈ s.depends, ∃ t ∈ steps, t.name = d) ∧ ∀ v, ¬ Relation.TransGen (DependsOn steps) v v) ∧
    ((∃ d, newPlan steps = .error (.missingNode d)) ↔ ¬ ∀ s ∈ steps, ∀ d ∈ s.depends, ∃ t ∈ steps, t.name = d) ∧
    (newPlan steps = .error .cyclicPlan → ∃ v, Relation.TransGen (DependsOn steps) v v) := by
  have hnames : ∀ d, nodeByName steps d ≠ none ↔ ∃ t ∈ steps, t.name = d := fun d => by simp [nodeByName_eq_none_iff]
  rcases edgesFrom_cases steps steps 0 with ⟨s, hs, d, hd, hnone, herror⟩ | ⟨hall, es, hok, -⟩
  · have hmissing : ¬ ∀ s ∈ steps, ∀ d ∈ s.depends, ∃ t ∈ steps, t.name = d := fun h => (hnames d).mpr (h s hs d hd) hnone
    have hplan : newPlan steps = .error (.missingNode d) := by simp [newPlan, buildPlan_eq_error herror, Except.map]
    simp [hplan, hmissing]
  have hknown : ∀ s ∈ steps, ∀ d ∈ s.depends, ∃ t ∈ steps, t.name = d := fun s hs d hd => (hnames d).mp (hall s hs d hd)
  have hcyclic : isCyclic (range steps.length) es = false ↔ ∀ v, ¬ Relation.TransGen (DependsOn steps) v v := by
    rw [isCyclic_eq_false_iff nodup_range fun e he => by simpa using edgesFrom_lt hok e he]
    simp only [mem_edgesFrom hok]
    exact forall_congr' fun v => not_congr Relation.transGen_swap
  by_cases hc : isCyclic (range steps.length) es = false
  · obtain ⟨p, hp⟩ := buildPlan_eq_ok hok hc
    simpa [newPlan, hp, Except.map, hcyclic.mp hc] using hknown
  have hplan : newPlan steps = .error .cyclicPlan := by simp [newPlan, buildPlan_eq_cyclic hok hc, Except.map]
  have hcycle : ∃ v, Relation.TransGen (DependsOn steps) v v := by simpa using hcyclic.not.mp hc
  refine ⟨⟨fun ⟨plan, h⟩ => by simp [hplan] at h, fun h => absurd hcycle (by simpa using h.2)⟩, ?_, fun _ => hcycle⟩
  simpa [hplan] using hknown

end Ayatsuri
