import Mathlib

/-! Merging sorted sources through a priority queue that holds the next element of each, and cutting
the merged list into pages that begin after a given key. -/
namespace Ayatsuri.SortedMerge
open List
variable {α ι κ : Type*} [LinearOrder κ]

def popMin (key : α → κ) : List α → Option (α × List α)
  | [] => none
  | x::xs =>
    match popMin key xs with
    | none => some (x, xs)
    | some (y, ys) => if key y < key x then some (y, x::ys) else some (x, xs)

variable {l : List α}

lemma popMin_ne_nil (key : α → κ) (h : l ≠ []) : ∃ x rest, popMin key l = some (x, rest) := by
  cases l with
  | nil => exact absurd rfl h
  | cons x xs =>
    simp only [popMin]
    split
    · exact ⟨x, xs, rfl⟩
    split
    · exact ⟨_, _, rfl⟩
    · exact ⟨x, xs, rfl⟩

variable {x : α} {key : α → κ}

lemma popMin_perm {rest} (h : popMin key l = some (x, rest)) : (x::rest).Perm l := by
  induction l generalizing x rest with
  | nil => simp [popMin] at h
  | cons z zs ih =>
    simp only [popMin] at h
    split at h
    · obtain ⟨rfl, rfl⟩ := by simpa using h
      exact List.Perm.refl _
    rename_i y ys hpop
    split at h
    · obtain ⟨rfl, rfl⟩ := by simpa using h
      exact (List.Perm.swap z y ys).trans ((ih hpop).cons z)
    · obtain ⟨rfl, rfl⟩ := by simpa using h
      exact List.Perm.refl _

lemma popMin_le {rest} (h : popMin key l = some (x, rest)) {y} (hy : y ∈ l) : key x ≤ key y := by
  induction l generalizing x rest y with
  | nil => simp at hy
  | cons z zs ih =>
    simp only [popMin] at h
    split at h
    · rename_i hpop
      obtain ⟨rfl, rfl⟩ := by simpa using h
      have hnil : zs = [] := by
        by_contra hne
        obtain ⟨_, _, hsome⟩ := popMin_ne_nil key hne
        simp [hpop] at hsome
      subst hnil
      simp only [mem_singleton] at hy
      exact hy ▸ le_refl _
    rename_i w ws hpop
    rcases mem_cons.mp hy with rfl | hmem
    · split at h <;> obtain ⟨rfl, rfl⟩ := by simpa using h
      · rename_i hlt
        exact hlt.le
      · exact le_refl _
    have hle := ih hpop hmem
    split at h <;> obtain ⟨rfl, rfl⟩ := by simpa using h
    · exact hle
    · rename_i hlt
      exact (not_lt.mp hlt).trans hle

structure Source (ι α : Type*) where
  next : ι → Option (α × ι)
  rest : ι → List α
  rest_none : ∀ i, next i = none → rest i = []
  rest_some : ∀ i a j, next i = some (a, j) → rest i = a::rest j

variable (source : Source ι α) (key : α → κ) (queue : List (α × ι))

def push (i : ι) : List (α × ι) :=
  match source.next i with
  | none => queue
  | some (a, j) => queue++[(a, j)]

/-- The first `target` elements that `keep` accepts, in the order in which the queue yields them. -/
def collect (keep : α → Bool) : ℕ → Option ℕ → List (α × ι) → List α
  | 0, _, _ => []
  | fuel+1, target, queue =>
    if target = some 0 then []
    else
      match popMin (key ∘ Prod.fst) queue with
      | none => []
      | some ((a, i), queue) =>
        if keep a then a::collect keep fuel (target.map Nat.pred) (push source queue i)
        else collect keep fuel target (push source queue i)

def pending : List α := queue.flatMap fun p => p.1::source.rest p.2

def SortedQueue : Prop := ∀ p ∈ queue, (p.1::source.rest p.2).Pairwise (key · < key ·)

def takeUpTo : Option ℕ → List α → List α
  | none, l => l
  | some n, l => l.take n

variable {source key}

lemma pending_push (i : ι) : pending source (push source queue i) = pending source queue++source.rest i := by
  unfold push
  split
  · rename_i hnone
    simp [source.rest_none i hnone]
  · rename_i a j hsome
    simp [pending, source.rest_some i a j hsome]

lemma SortedQueue.push {queue} (h : SortedQueue source key queue) {i}
    (hi : (source.rest i).Pairwise (key · < key ·)) : SortedQueue source key (push source queue i) := by
  unfold SortedMerge.push
  split
  · exact h
  rename_i a j hsome
  intro p hp
  rcases mem_append.mp hp with hmem | hlast
  · exact h p hmem
  · rw [mem_singleton.mp hlast]
    rwa [source.rest_some i a j hsome] at hi

lemma pending_foldl_push (its : List ι) (queue : List (α × ι)) :
    pending source (its.foldl (push source) queue) = pending source queue++its.flatMap source.rest := by
  induction its generalizing queue with
  | nil => simp
  | cons i its ih => simp [ih, pending_push]

lemma SortedQueue.foldl_push {its : List ι} (hits : ∀ i ∈ its, (source.rest i).Pairwise (key · < key ·))
    {queue} (h : SortedQueue source key queue) :
    SortedQueue source key (its.foldl (SortedMerge.push source) queue) := by
  induction its generalizing queue with
  | nil => exact h
  | cons i its ih => exact ih (fun j hj => hits j (mem_cons_of_mem _ hj)) (h.push (hits i mem_cons_self))

variable {a : α}

lemma SortedQueue.popMin_le {queue rest} (h : SortedQueue source key queue) {i}
    (hpop : popMin (key ∘ Prod.fst) queue = some ((a, i), rest)) {b} (hb : b ∈ pending source queue) :
    key a ≤ key b := by
  obtain ⟨p, hp, hmem⟩ := mem_flatMap.mp hb
  have hhead : key a ≤ key p.1 := SortedMerge.popMin_le hpop hp
  rcases mem_cons.mp hmem with rfl | hrest
  · exact hhead
  · exact hhead.trans (rel_of_pairwise_cons (h p hp) hrest).le

lemma SortedQueue.of_perm {queue queue'} (h : SortedQueue source key queue)
    (hperm : queue'.Perm queue) : SortedQueue source key queue' := fun p hp => h p (hperm.mem_iff.mp hp)

lemma collect_eq {keep : α → Bool} {fuel : ℕ} {target queue} {merged : List α}
    (hqueue : SortedQueue source key queue) (hsorted : merged.Pairwise (key · < key ·))
    (hperm : merged.Perm (pending source queue)) (hfuel : merged.length ≤ fuel) :
    collect source key keep fuel target queue = takeUpTo target (merged.filter keep) := by
  induction merged generalizing fuel target queue with
  | nil =>
    have hnil : queue = [] := by
      cases queue with
      | nil => rfl
      | cons p ps => simp [pending] at hperm
    subst hnil
    cases fuel <;> cases target <;> simp [collect, takeUpTo, popMin]
  | cons a merged ih =>
    obtain ⟨fuel, rfl⟩ : ∃ m, fuel = m+1 := ⟨fuel - 1, by simp at hfuel; omega⟩
    have hne : queue ≠ [] := by
      rintro rfl
      simp [pending] at hperm
    obtain ⟨⟨b, i⟩, rest, hpop⟩ := popMin_ne_nil (key ∘ Prod.fst) hne
    have hqperm := popMin_perm hpop
    have hpending : (pending source queue).Perm (b::pending source (push source rest i)) := by
      rw [pending_push]
      refine (hqperm.symm.flatMap_right _).trans ?_
      simpa [pending] using perm_append_comm
    -- The merged list begins with the element that is popped, the only one with the least key.
    have hb : b ∈ a::merged := hperm.mem_iff.mpr (hpending.mem_iff.mpr mem_cons_self)
    obtain rfl : b = a := by
      rcases mem_cons.mp hb with heq | hmem
      · exact heq
      · have hlt := rel_of_pairwise_cons hsorted hmem
        exact absurd (hqueue.popMin_le hpop (hperm.mem_iff.mp mem_cons_self)) (not_le.mpr hlt)
    have hrest : SortedQueue source key (push source rest i) := by
      have hall := hqueue.of_perm hqperm
      apply SortedQueue.push (fun p hp => hall p (mem_cons_of_mem _ hp))
      exact (hall _ mem_cons_self).of_cons
    have hstep := @ih fuel
    have hnext : merged.Perm (pending source (push source rest i)) := (hperm.trans hpending).cons_inv
    have hlen : merged.length ≤ fuel := by simpa using hfuel
    simp only [collect, hpop]
    rcases target with _ | _ | n
    · by_cases hkeep : keep b <;> simp [hkeep, hstep hrest hsorted.of_cons hnext hlen, takeUpTo]
    · simp [takeUpTo]
    · by_cases hkeep : keep b <;> simp [hkeep, hstep hrest hsorted.of_cons hnext hlen, takeUpTo]

def sortBy (key : α → κ) (l : List α) : List α := l.insertionSort fun a b => key a ≤ key b

lemma sortBy_perm (l : List α) : (sortBy key l).Perm l := perm_insertionSort _ l

lemma mem_sortBy : a ∈ sortBy key l ↔ a ∈ l := (sortBy_perm l).mem_iff

lemma pairwise_sortBy (h : (l.map key).Nodup) : (sortBy key l).Pairwise (key · < key ·) := by
  have : Std.Total fun a b => key a ≤ key b := ⟨fun a b => le_total _ _⟩
  have : IsTrans α fun a b => key a ≤ key b := ⟨fun a b c => le_trans⟩
  have hsorted := pairwise_insertionSort (fun a b => key a ≤ key b) l
  have hdistinct : ((sortBy key l).map key).Nodup := ((sortBy_perm l).map key).nodup_iff.mpr h
  refine (hsorted.and (pairwise_map.mp hdistinct)).imp ?_
  rintro a b ⟨hle, hne⟩
  exact lt_of_le_of_ne hle hne

variable {l' : List α}

lemma eq_of_mem_iff (h : l.Pairwise (key · < key ·)) (h' : l'.Pairwise (key · < key ·))
    (hmem : ∀ a, a ∈ l ↔ a ∈ l') : l = l' := by
  have nodup : ∀ {m : List α}, m.Pairwise (key · < key ·) → m.Nodup := by
    intro m hm
    apply hm.imp
    rintro a b hlt rfl
    exact lt_irrefl _ hlt
  apply ((perm_ext_iff_of_nodup (nodup h) (nodup h')).mpr hmem).eq_of_pairwise _ h h'
  intro a b _ _ hab hba
  exact absurd (hab.trans hba) (lt_irrefl _)

lemma sortBy_eq_of_perm (h : l.Perm l') (hnodup : (l.map key).Nodup) : sortBy key l = sortBy key l' := by
  apply eq_of_mem_iff (pairwise_sortBy hnodup) (pairwise_sortBy ((h.map key).nodup_iff.mp hnodup))
  intro a
  rw [mem_sortBy, mem_sortBy, h.mem_iff]

lemma filter_after {pre post} (h : (pre++a::post).Pairwise (key · < key ·)) :
    (pre++a::post).filter (fun b => decide (key a < key b)) = post := by
  obtain ⟨-, hpost, hcross⟩ := pairwise_append.mp h
  have hpre : pre.filter (fun b => decide (key a < key b)) = [] := by
    apply filter_eq_nil_iff.mpr
    intro b hb
    simpa using (hcross b hb a mem_cons_self).le
  have hall : post.filter (fun b => decide (key a < key b)) = post := by
    apply filter_eq_self.mpr
    intro b hb
    simpa using rel_of_pairwise_cons hpost hb
  simp [hpre, hall]

end Ayatsuri.SortedMerge
