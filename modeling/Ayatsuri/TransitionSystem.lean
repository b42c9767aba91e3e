import Mathlib

/-! Transition systems given by a partial step function. A label names the actor
that moves together with the answer its environment gives, so a system of
interleaved actors is one function. `Reach step C` follows only steps that meet
the side condition `C`, judged in the state before the step. -/
namespace Ayatsuri.TransitionSystem
variable {S L : Type*}

/-- States reachable by steps that all meet the condition `C`. -/
inductive Reach (step : S → L → Option S) (C : S → L → Prop) (s : S) : S → Prop
  | refl : Reach step C s s
  | tail {t u : S} {l : L} (prior : Reach step C s t) (meets : C t l) (move : step t l = some u) : Reach step C s u

def always (_ : S) (_ : L) : Prop := True

namespace Reach
variable {step : S → L → Option S} {C D : S → L → Prop} {s t u : S}

lemma trans (h : Reach step C s t) (g : Reach step C t u) : Reach step C s u := by
  induction g with
  | refl => exact h
  | tail _ hc hm ih => exact Reach.tail ih hc hm

lemma mono (hcd : ∀ a l, Reach step C s a → C a l → D a l) (h : Reach step C s t) : Reach step D s t := by
  induction h with
  | refl => exact Reach.refl
  | tail prior hc hm ih => exact Reach.tail ih (hcd _ _ prior hc) hm

variable {P : S → Prop}

lemma invariant (h : Reach step C s t) (start : P s)
    (kept : ∀ a l b, Reach step C s a → P a → C a l → step a l = some b → P b) : P t := by
  induction h with
  | refl => exact start
  | tail prior hc hm ih => exact kept _ _ _ prior ih hc hm

lemma preserved (h : Reach step C s t) (start : P s) (kept : ∀ {a l b}, P a → C a l → step a l = some b → P b) : P t :=
  h.invariant start fun _ _ _ _ ha hc hm => kept ha hc hm

end Reach

/-- A guarded step is taken only where its guard holds. -/
lemma of_guarded {c : Prop} [Decidable c] {s t : S} (h : (if c then some s else none) = some t) : c ∧ s = t := by
  split_ifs at h with hc
  exact ⟨hc, Option.some.inj h⟩

variable {α : Type*}
open List
variable {l : List α}

lemma lt_of_getElem? {i : ℕ} {x} (h : l[i]? = some x) : i < l.length := (List.getElem?_eq_some_iff.mp h).1

lemma getElem?_set_cases {i j : ℕ} {x y} (h : (l.set i x)[j]? = some y) : j = i ∧ y = x ∨ j ≠ i ∧ l[j]? = some y := by
  by_cases hj : j = i
  · subst hj
    obtain ⟨hlt, hget⟩ := List.getElem?_eq_some_iff.mp h
    exact .inl ⟨rfl, by simpa using hget.symm⟩
  · rw [List.getElem?_set_ne (Ne.symm hj)] at h
    exact .inr ⟨hj, h⟩

lemma getElem?_concat_cases {j : ℕ} {x y} (h : (l++[x])[j]? = some y) : l[j]? = some y ∨ j = l.length ∧ y = x := by
  rw [getElem?_append] at h
  split_ifs at h with hlt
  · exact .inl h
  rw [getElem?_singleton] at h
  split_ifs at h with hj
  exact .inr ⟨by omega, (Option.some_inj.mp h).symm⟩

variable {P : α → Prop}

lemma forall_mem_set {i a} (h : ∀ x ∈ l, P x) (ha : P a) : ∀ x ∈ l.set i a, P x := by
  intro x hx
  rcases mem_or_eq_of_mem_set hx with hx | rfl
  · exact h x hx
  · exact ha

lemma forall_mem_concat {l a} (h : ∀ x ∈ l, P x) (ha : P a) :
    ∀ x ∈ l++[a], P x := forall_mem_append.mpr ⟨h, forall_mem_singleton.mpr ha⟩

lemma map_set_of_eq {α β : Type*} {f : α → β} {l : List α} {i : ℕ} {x y} (h : l[i]? = some x) (hf : f y = f x) :
    (l.set i y).map f = l.map f := by
  obtain ⟨hlt, rfl⟩ := List.getElem?_eq_some_iff.mp h
  have hlt' : i < (l.map f).length := by simpa using hlt
  have hself : f l[i] = (l.map f)[i] := by simp
  rw [List.map_set, hf, hself, List.set_getElem_self]

section
variable {step : S → L → Option S} {C : S → L → Prop}

/-- Take the label as often as it is enabled and permitted, at most `k` times. -/
def repeatWhile (step : S → L → Option S) (permitted : S → L → Bool) (l : L) : ℕ → S → S
  | 0, s => s
  | k+1, s =>
    if permitted s l then
      match step s l with
      | none => s
      | some t => repeatWhile step permitted l k t
    else s

def follow (step : S → L → Option S) (permitted : S → L → Bool) (s : S) (sched : List (L × ℕ)) : S :=
  sched.foldl (fun s e => repeatWhile step permitted e.1 e.2 s) s

variable {permitted : S → L → Bool}

lemma reach_repeatWhile {l} (hp : ∀ s, permitted s l → C s l) (k : ℕ) (s : S) :
    Reach step C s (repeatWhile step permitted l k s) := by
  induction k generalizing s with
  | zero => exact Reach.refl
  | succ k ih =>
    unfold repeatWhile
    split_ifs with h
    · cases hs : step s l with
      | none => exact Reach.refl
      | some t => exact (Reach.tail Reach.refl (hp s h) hs).trans (ih t)
    · exact Reach.refl

lemma reach_follow_of_mem {sched} (hp : ∀ e ∈ sched, ∀ s, permitted s e.1 → C s e.1) (s : S) :
    Reach step C s (follow step permitted s sched) := by
  induction sched generalizing s with
  | nil => exact Reach.refl
  | cons e sched ih =>
    exact (reach_repeatWhile (hp e mem_cons_self) e.2 s).trans
      (ih (fun e' he' => hp e' (mem_cons_of_mem _ he')) _)

lemma reach_follow (hp : ∀ s l, permitted s l → C s l)
    (s : S) (sched : List (L × ℕ)) : Reach step C s (follow step permitted s sched) :=
  reach_follow_of_mem (fun _ _ s h => hp s _ h) s

lemma reach_checked [∀ s l, Decidable (C s l)] (s : S) (sched : List (L × ℕ)) :
    Reach step C s (follow step (fun s l => decide (C s l)) s sched) :=
  reach_follow (fun _ _ h => of_decide_eq_true h) s sched

def play (step : S → L → Option S) (s : S) (sched : List (L × ℕ)) : S := follow step (fun _ _ => true) s sched

lemma reach_play (s : S) (sched : List (L × ℕ)) : Reach step always s (play step s sched) :=
  reach_follow (fun _ _ _ => trivial) s sched

end
end Ayatsuri.TransitionSystem
