import Mathlib

/-! The variables of an `env` that is a YAML map (`internal/core/spec/types/env.go`, `internal/core/spec/variables.go`):
`parseMap` lists the entries in any order, and `evaluatePairs` evaluates one after the other, each with those
before it in scope. What `eval.String` makes of a value is an argument. -/
namespace Ayatsuri.EnvMaps
open List Function Option

inductive EnvSource
  | inherited | presolved | dagEnv
  deriving DecidableEq

/-- The scope of an evaluation, and the variables set so far. -/
structure Env where
  scope : String → Option (String × EnvSource)
  vars : String → Option String

structure BuildContext where
  noEval : Bool
  buildEnv : String → Option String
  evalString : Env → String → Option String

abbrev Pair := String × String

namespace BuildContext
variable (ctx : BuildContext) (env : Env)

/-- The value of an entry; `none` is an error. -/
def value (p : Pair) : Option String :=
  if ctx.noEval then some p.2 else (ctx.buildEnv p.1).elim (ctx.evalString env p.2) some

def withEntry (p : Pair) (value : String) : Env where
  scope :=
    if ctx.noEval then env.scope
    else update env.scope p.1 (some (value, if (ctx.buildEnv p.1).isSome then .presolved else .dagEnv))
  vars := update env.vars p.1 (some value)

variable (pairs : List Pair)

def run : Option Env := pairs.foldlM (fun env p => (ctx.value env p).map (ctx.withEntry env p)) env

def evaluatePairs : Option (String → Option String) := (ctx.run env pairs).map Env.vars

/-- The entries, each with the value it has in `env`. -/
def given : Env := pairs.foldl (fun e p => (ctx.value env p).elim e (ctx.withEntry e p)) env

variable {ctx} {env e f : Env} {pairs p q before after : List Pair} {x : Pair}

lemma run_cons : ctx.run e (x::pairs) = (ctx.value e x).bind fun v => ctx.run (ctx.withEntry e x v) pairs := by
  simp only [run, foldlM_cons, bind_eq_bind, bind_map]
  rfl

lemma run_append : ctx.run e (p++q) = (ctx.run e p).bind fun f => ctx.run f q := by simp [run, foldlM_append]

lemma vars_run {k : String} (h : ctx.run e pairs = some f) (hk : k ∉ pairs.map Prod.fst) : f.vars k = e.vars k := by
  induction pairs generalizing e with
  | nil =>
    cases h
    rfl
  | cons x pairs ih =>
    rw [run_cons] at h
    obtain ⟨v, -, h⟩ := bind_eq_some_iff.mp h
    simp only [map_cons, mem_cons, not_or] at hk
    rw [ih h hk.2]
    exact update_of_ne hk.1 ..

lemma value_of_run (h : ctx.run e (x::after) = some f) (hx : x.1 ∉ after.map Prod.fst) : ctx.value e x = f.vars x.1 := by
  rw [run_cons] at h
  obtain ⟨v, hv, h⟩ := bind_eq_some_iff.mp h
  rw [vars_run h hx, hv]
  simp [withEntry]

lemma withEntry_comm {x y : Pair} (hne : x.1 ≠ y.1) (v w : String) :
    ctx.withEntry (ctx.withEntry e x v) y w = ctx.withEntry (ctx.withEntry e y w) x v := by
  cases h : ctx.noEval <;> simp [withEntry, h, update_comm hne]

lemma given_concat : ctx.given env (before++[x]) =
    (ctx.value env x).elim (ctx.given env before) (ctx.withEntry (ctx.given env before) x) := by simp [given]

section
variable (hkeys : (pairs.map Prod.fst).Nodup)
include hkeys

lemma given_perm (hp : p.Perm pairs) : ctx.given env p = ctx.given env pairs := by
  refine hp.foldl_eq' (fun x hx y hy z => ?_) env
  by_cases hxy : x = y
  · rw [hxy]
  have hne : x.1 ≠ y.1 := fun heq => hxy (inj_on_of_nodup_map hkeys (hp.subset hx) (hp.subset hy) heq)
  cases ctx.value env x with
  | none => rfl
  | some v =>
    cases ctx.value env y with
    | none => rfl
    | some w => exact withEntry_comm hne v w

variable {vars : String → Option String} (hall : ∀ p, p.Perm pairs → ctx.evaluatePairs env p = some vars)
include hall

lemma value_of_order (hp : (before++x::after).Perm pairs) (hrun : ctx.run env before = some e) : ctx.value e x = vars x.1 := by
  obtain ⟨f, hf, rfl⟩ := map_eq_some_iff.mp (hall _ hp)
  rw [run_append, hrun] at hf
  refine value_of_run hf fun hmem => ?_
  have hnodup := (hp.map Prod.fst).nodup_iff.mpr hkeys
  rw [map_append, map_cons] at hnodup
  exact (nodup_cons.mp (nodup_append.mp hnodup).2.1).1 hmem

lemma value_of_first (hp : (before++x::after).Perm pairs) : ctx.value env x = vars x.1 :=
  value_of_order hkeys hall (show ([]++x::(before++after)).Perm pairs from perm_middle.symm.trans hp) rfl

lemma run_eq_given (hp : (before++after).Perm pairs) : ctx.run env before = some (ctx.given env before) := by
  induction before using List.reverseRecOn generalizing after with
  | nil => rfl
  | append_singleton before x ih =>
    rw [append_assoc, singleton_append] at hp
    have hrun := ih hp
    have hvalue := value_of_order hkeys hall hp hrun
    have hbase := value_of_first hkeys hall hp
    rw [run_append, hrun, given_concat, bind_some, run_cons, hvalue, hbase]
    obtain ⟨f, hf, -⟩ := map_eq_some_iff.mp (hall _ hp)
    rw [run_append, hrun, bind_some, run_cons, hvalue] at hf
    obtain ⟨v, hv, -⟩ := bind_eq_some_iff.mp hf
    simp [hv, run]

end

lemma run_of_stable (hstable : ∀ before x after, (before++x::after).Perm pairs →
      ctx.value (ctx.given env before) x = ctx.value env x) (hp : (before++after).Perm pairs) :
    ctx.run (ctx.given env before) after =
      if after.all fun x => (ctx.value env x).isSome then some (ctx.given env (before++after)) else none := by
  induction after generalizing before with
  | nil => simp [run]
  | cons x after ih =>
    rw [run_cons, hstable before x after hp]
    cases hv : ctx.value env x with
    | none => simp [hv]
    | some v =>
      have hnext := ih (show (before++[x]++after).Perm pairs by simpa using hp)
      rw [given_concat, hv, elim_some] at hnext
      rw [bind_some]
      simpa only [all_cons, hv, isSome_some, Bool.true_and, append_assoc, singleton_append] using hnext

end BuildContext

open BuildContext

/-- If some order of a map is without an error, all orders give the same variables exactly if every entry has the same value (or
error) before and after any of the others. If none is, they agree. -/
theorem evaluatePairs_perm_iff (ctx : BuildContext) (env : Env) (pairs : List Pair) (hkeys : (pairs.map Prod.fst).Nodup) :
    ((∃ p, p.Perm pairs ∧ (ctx.evaluatePairs env p).isSome) →
      ((∀ p q, p.Perm pairs → q.Perm pairs → ctx.evaluatePairs env p = ctx.evaluatePairs env q) ↔
        ∀ before x after, (before++x::after).Perm pairs → ctx.value (ctx.given env before) x = ctx.value env x)) ∧
    ((∀ p, p.Perm pairs → ctx.evaluatePairs env p = none) →
      ∀ p q, p.Perm pairs → q.Perm pairs → ctx.evaluatePairs env p = ctx.evaluatePairs env q) := by
  refine ⟨fun ⟨p₀, hp₀, hsome⟩ => ⟨fun hagree before x after hp => ?_, fun hstable p q hp hq => ?_⟩, fun hnone p q hp hq => ?_⟩
  · obtain ⟨vars, hvars⟩ := isSome_iff_exists.mp hsome
    have hall : ∀ p, p.Perm pairs → ctx.evaluatePairs env p = some vars := fun p hp => (hagree p p₀ hp hp₀).trans hvars
    have hrun := run_eq_given hkeys hall hp
    exact (value_of_order hkeys hall hp hrun).trans (value_of_first hkeys hall hp).symm
  · have hrun {p : List Pair} (hp : p.Perm pairs) : ctx.run env p =
        if pairs.all fun x => (ctx.value env x).isSome then some (ctx.given env pairs) else none := by
      rw [← hp.all_eq, ← given_perm hkeys hp]
      exact run_of_stable hstable (show ([]++p).Perm pairs from hp)
    rw [evaluatePairs, evaluatePairs, hrun hp, hrun hq]
  · rw [hnone p hp, hnone q hq]

/-- `$B` stands for the variable `B`. -/
def sample : BuildContext where
  noEval := false
  buildEnv _ := none
  evalString env val := if val = "$B" then (env.scope "B").map Prod.fst else some val

def inherited : Env := ⟨fun k => if k = "B" then some ("0", .inherited) else none, fun _ => none⟩

/-- Neither entry names the other. -/
theorem evaluatePairs_perm_constant :
    sample.evaluatePairs inherited [("A", "2"), ("B", "1")] = sample.evaluatePairs inherited [("B", "1"), ("A", "2")] := by
  refine ((evaluatePairs_perm_iff sample inherited [("A", "2"), ("B", "1")] (by decide)).1 ⟨_, .refl _, by decide⟩).mpr ?_ _ _
    (.refl _) (.swap ..)
  intro before x after hp
  have hx : x ∈ [("A", "2"), ("B", "1")] := hp.subset (by simp)
  rcases mem_pair.mp hx with rfl | rfl <;> rfl

/-- The value of `A` depends on whether `B` comes first. -/
theorem evaluatePairs_order_matters :
    ((sample.evaluatePairs inherited [("A", "$B"), ("B", "1")]).bind fun vars => vars "A") = some "0" ∧
      ((sample.evaluatePairs inherited [("B", "1"), ("A", "$B")]).bind fun vars => vars "A") = some "1" := by decide

end Ayatsuri.EnvMaps
