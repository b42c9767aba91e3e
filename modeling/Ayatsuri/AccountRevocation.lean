import Ayatsuri.AccountService

/-! Concurrent changes of one account or webhook. Every call reads the record, edits
the object it was handed and stores the whole of it, so that an old value can
come back with an edit of another field. -/
namespace Ayatsuri.AccountRevocation
open List Option Function
open TransitionSystem Accounts

structure Call (R E : Type) where
  ref : ℕ
  (done rest : List (Op R E))
  running : Bool := true

structure State (R E : Type) where
  file : File R
  cache : Option Entry := none
  heap : ℕ → R
  fresh : ℕ := 0
  calls : List (Call R E) := []

open State

/-- `read` is a lookup by any other caller, `used` the update of the last use. -/
inductive Label (C : Type)
  | start (c : C)
  | read
  | next (k : ℕ)
  | update (k now : ℕ) (fails : Bool)
  | used (now : ℕ)
  | evict

section
variable {R E C F : Type} (K : Kind R E) (body : C → List (Op R E)) (field : E → F) (s : State R E)

def State.hit : Option Entry := s.cache.filter fun c => !K.isStale c s.file

/-- `GetByID`. -/
def State.load : ℕ × State R E :=
  match s.hit K with
  | some c => (c.ref, s)
  | none => (s.fresh, {s with
      heap := update s.heap s.fresh s.file.data
      fresh := s.fresh+1
      cache := some ⟨s.fresh, K.size s.file.data, s.file.modTime⟩})

def State.step : Label C → Option (State R E)
  | .start c => some {(s.load K).2 with calls := s.calls++[⟨(s.load K).1, [], body c, true⟩]}
  | .read => some (s.load K).2
  | .next k =>
    match s.calls[k]? with
    | some ⟨ref, done, .edit e::rest, true⟩ => some {s with
        heap := update s.heap ref (K.edit e (s.heap ref))
        calls := s.calls.set k ⟨ref, done++[.edit e], rest, true⟩}
    | some ⟨ref, done, .check ok error::rest, true⟩ =>
      some {s with calls := s.calls.set k ⟨ref, done++[.check ok error], rest, ok (s.heap ref)⟩}
    | _ => none
  | .update k now fails =>
    match s.calls[k]? with
    | some ⟨ref, done, [], true⟩ =>
      if fails then some {s with calls := s.calls.set k ⟨ref, done, [], false⟩}
      else some {s with
        file := ⟨s.heap ref, now⟩
        cache := if K.invalidates then none else s.cache
        calls := s.calls.set k ⟨ref, done, [], false⟩}
    | _ => none
  | .used now => some {s with file := ⟨K.used now s.file.data, now⟩, cache := none}
  | .evict => some {s with cache := none}

def edits [DecidableEq F] (f : F) (ops : List (Op R E)) : List E :=
  ops.filterMap fun
    | .edit e => if field e = f then some e else none
    | .check .. => none

variable [DecidableEq F]

/-- A read while a call is under way is handed the object that call has, and no two calls under way set the field. -/
def Orderly (f : F) (s : State R E) : Label C → Prop
  | .start c => ∀ d ∈ s.calls, d.running →
      (s.hit K).isSome ∧ ¬ (edits field f (body c) ≠ [] ∧ edits field f (d.done++d.rest) ≠ [])
  | .read => ∀ d ∈ s.calls, d.running → (s.hit K).isSome
  | _ => True

/-- No call from the `n`-th on assigns to the field in this step. -/
def Spared (n : ℕ) (f : F) (s : State R E) : Label C → Prop
  | .next k => n ≤ k → ∀ d ∈ s.calls[k]?, edits field f (d.rest.take 1) = []
  | _ => True

def State.Has (e : E) (s : State R E) : Prop :=
  K.edit e s.file.data = s.file.data ∧ ∀ c ∈ s.cache, K.edit e (s.heap c.ref) = s.heap c.ref

end

section
variable {R E C F : Type} {K : Kind R E} {body : C → List (Op R E)} {field : E → F} [DecidableEq F] {f : F}
  {s t : State R E}

/-- The steps: the record is read, a call assigns, a call goes on without touching the record, or the file is written. -/
inductive Move (K : Kind R E) (body : C → List (Op R E)) (s : State R E) : Label C → State R E → Prop
  | start {c : C} : Move K body s (.start c) {(s.load K).2 with calls := s.calls++[⟨(s.load K).1, [], body c, true⟩]}
  | read : Move K body s .read (s.load K).2
  | edit {k : ℕ} {d : Call R E} {e : E} {rest : List (Op R E)} (here : s.calls[k]? = some d) (running : d.running = true)
    (next : d.rest = .edit e::rest) : Move K body s (.next k) {s with
      heap := update s.heap d.ref (K.edit e (s.heap d.ref))
      calls := s.calls.set k {d with done := d.done++[.edit e], rest := rest}}
  | goOn {l : Label C} {k : ℕ} {d d' : Call R E} (here : s.calls[k]? = some d) (running : d.running = true)
    (ref : d'.ref = d.ref) (same : ∀ (field : E → F) f, edits field f d'.done = edits field f d.done ∧
      edits field f d'.rest = edits field f d.rest) : Move K body s l {s with calls := s.calls.set k d'}
  | write {k now : ℕ} {d : Call R E} (here : s.calls[k]? = some d) (running : d.running = true) (done : d.rest = []) :
    Move K body s (.update k now false) {s with
      file := ⟨s.heap d.ref, now⟩
      cache := if K.invalidates then none else s.cache
      calls := s.calls.set k {d with running := false}}
  | used {now : ℕ} : Move K body s (.used now) {s with file := ⟨K.used now s.file.data, now⟩, cache := none}
  | evict : Move K body s .evict {s with cache := none}

variable {l : Label C}

lemma move_of_step (h : s.step K body l = some t) : Move (F := F) K body s l t := by
  cases l with
  | start c => exact some_inj.mp h ▸ .start
  | read => exact some_inj.mp h ▸ .read
  | used now => exact some_inj.mp h ▸ .used
  | evict => exact some_inj.mp h ▸ .evict
  | next k =>
    simp only [step] at h
    split at h
    · next ref done e rest hd =>
      cases h
      exact .edit hd rfl rfl
    · next ref done ok error rest hd =>
      cases h
      exact .goOn hd rfl rfl fun field f => ⟨by simp [edits], rfl⟩
    · cases h
  | update k now fails =>
    simp only [step] at h
    split at h
    · next ref done hd =>
      cases fails with
      | true =>
        cases h
        exact .goOn hd rfl rfl fun _ _ => ⟨rfl, rfl⟩
      | false =>
        cases h
        exact .write hd rfl rfl
    · cases h

lemma load_cases (K : Kind R E) (s : State R E) : (∃ c, s.cache = some c ∧ s.hit K = some c ∧ s.load K = (c.ref, s)) ∨
    s.hit K = none ∧ s.load K = (s.fresh, {s with
      heap := update s.heap s.fresh s.file.data
      fresh := s.fresh+1
      cache := some ⟨s.fresh, K.size s.file.data, s.file.modTime⟩}) := by
  unfold load
  cases hhit : s.hit K with
  | some c => exact .inl ⟨c, (filter_eq_some_iff.mp hhit).1, rfl, rfl⟩
  | none => exact .inr ⟨rfl, rfl⟩

structure State.Shared (s : State R E) : Prop where
  entry : ∀ c ∈ s.cache, c.ref < s.fresh
  held : ∀ d ∈ s.calls, d.running → d.ref < s.fresh ∧ ∀ c ∈ s.cache, c.ref = d.ref
  one : ∀ d ∈ s.calls, ∀ d' ∈ s.calls, d.running → d'.running → d.ref = d'.ref

variable {d : Call R E} {k : ℕ}

lemma mem_set_calls {calls : List (Call R E)} {d' x} (hd : calls[k]? = some d) (h : x ∈ calls.set k d') :
    x ∈ calls ∨ x = d' ∧ d ∈ calls := (mem_or_eq_of_mem_set h).imp_right fun hx => ⟨hx, mem_of_getElem? hd⟩

lemma State.Shared.set (h : s.Shared) (d' : Call R E) (hd : s.calls[k]? = some d) (hrunning : d.running = true)
    (href : d'.ref = d.ref) (heap : ℕ → R) : ({s with calls := s.calls.set k d', heap := heap} : State R E).Shared := by
  have hold : ∀ x ∈ s.calls.set k d', x.running → ∃ y ∈ s.calls, y.running ∧ x.ref = y.ref := by
    intro x hx hrun
    rcases mem_set_calls hd hx with hx | ⟨rfl, hmem⟩
    · exact ⟨x, hx, hrun, rfl⟩
    · exact ⟨d, hmem, hrunning, href⟩
  refine ⟨h.entry, fun x hx hrun => ?_, fun x hx x' hx' hrun hrun' => ?_⟩
  · obtain ⟨y, hy, hyrun, heq⟩ := hold x hx hrun
    exact heq ▸ h.held y hy hyrun
  obtain ⟨y, hy, hyrun, heq⟩ := hold x hx hrun
  obtain ⟨y', hy', hyrun', heq'⟩ := hold x' hx' hrun'
  rw [heq, heq']
  exact h.one y hy y' hy' hyrun hyrun'

lemma State.Shared.uncache (h : s.Shared) {file cache} (hcache : ∀ c ∈ cache, c ∈ s.cache) :
    ({s with file := file, cache := cache} : State R E).Shared :=
  ⟨fun c hc => h.entry c (hcache c hc),
    fun d hd hrun => ⟨(h.held d hd hrun).1, fun c hc => (h.held d hd hrun).2 c (hcache c hc)⟩, h.one⟩

lemma State.Shared.load (h : s.Shared) (hhit : ∀ d ∈ s.calls, d.running → (s.hit K).isSome) :
    (s.load K).2.Shared ∧ (s.load K).1 < (s.load K).2.fresh ∧ (∀ c ∈ (s.load K).2.cache, c.ref = (s.load K).1) ∧
      ∀ d ∈ s.calls, d.running → d.ref = (s.load K).1 := by
  rcases load_cases K s with ⟨c, hc, -, hload⟩ | ⟨hmiss, hload⟩
  · rw [hload]
    refine ⟨h, h.entry c hc, fun c' hc' => ?_, fun d hd hrun => ((h.held d hd hrun).2 c hc).symm⟩
    rw [some_inj.mp (hc.symm.trans hc')]
  have hidle : ∀ d ∈ s.calls, d.running → False := fun d hd hrun => by simpa [hmiss] using hhit d hd hrun
  rw [hload]
  refine ⟨⟨fun c hc => ?_, fun d hd hrun => (hidle d hd hrun).elim, fun d hd _ _ hrun => (hidle d hd hrun).elim⟩,
    Nat.lt_succ_self _, fun c hc => ?_, fun d hd hrun => (hidle d hd hrun).elim⟩
  all_goals
    cases hc
    simp

lemma load_calls (K : Kind R E) (s : State R E) : (s.load K).2.calls = s.calls := by
  rcases load_cases K s with ⟨c, -, -, hload⟩ | ⟨-, hload⟩ <;> rw [hload]

lemma shared_of_move (h : s.Shared) (hmove : Move (F := F) K body s l t) (hcond : Orderly K body field f s l) :
    t.Shared := by
  cases hmove with
  | @start c =>
    obtain ⟨hshared, hlt, hcache, href⟩ := h.load fun d hd hrun => (hcond d hd hrun).1
    have hlast : ∀ d ∈ s.calls++[⟨(s.load K).1, [], body c, true⟩], d.running → d.ref = (s.load K).1 :=
      forall_mem_concat href fun _ => rfl
    refine ⟨hshared.entry, fun d hd hrun => ?_, fun d hd d' hd' hrun hrun' => ?_⟩
    · rw [hlast d hd hrun]
      exact ⟨hlt, hcache⟩
    · rw [hlast d hd hrun, hlast d' hd' hrun']
  | read => exact (h.load hcond).1
  | @edit k d e rest here running next =>
    exact h.set {d with done := d.done++[.edit e], rest := rest} here running rfl _
  | goOn here running ref same => exact h.set _ here running ref _
  | @write k now d here running done =>
    have hset := h.set {d with running := false} here running rfl s.heap
    refine hset.uncache fun c hc => ?_
    split_ifs at hc
    · cases hc
    · exact hc
  | used | evict => exact h.uncache fun c hc => by cases hc

/-- No two calls under way set the field, and what a call under way has set last is in the object it holds. -/
structure State.Effective (K : Kind R E) (field : E → F) (f : F) (s : State R E) : Prop where
  apart : ∀ (i j : ℕ) d d', s.calls[i]? = some d → s.calls[j]? = some d' → i ≠ j → d.running → d'.running →
    edits field f (d.done++d.rest) = [] ∨ edits field f (d'.done++d'.rest) = []
  effect : ∀ d ∈ s.calls, d.running → ∀ e, (edits field f d.done).getLast? = some e → K.edit e (s.heap d.ref) = s.heap d.ref

structure Fields (K : Kind R E) (field : E → F) : Prop where
  idem : ∀ e r, K.edit e (K.edit e r) = K.edit e r
  comm : ∀ e e' r, field e ≠ field e' → K.edit e (K.edit e' r) = K.edit e' (K.edit e r)
  used : ∀ e now r, K.edit e (K.used now r) = K.used now (K.edit e r)

lemma edits_append (a b : List (Op R E)) : edits field f (a++b) = edits field f a++edits field f b := by simp [edits]

lemma field_of_mem_edits {ops : List (Op R E)} {e : E} (h : e ∈ edits field f ops) : field e = f := by
  obtain ⟨op, -, hop⟩ := mem_filterMap.mp h
  cases op with
  | check ok error => cases hop
  | edit e' =>
    dsimp only at hop
    split_ifs at hop with hf
    exact some_inj.mp hop ▸ hf

lemma State.Effective.set (h : s.Effective K field f) (d' : Call R E) (hd : s.calls[k]? = some d)
    (hrunning : d.running) (heap : ℕ → R)
    (hedits : edits field f (d'.done++d'.rest) = edits field f (d.done++d.rest))
    (heffect : ∀ (i : ℕ) x, (s.calls.set k d')[i]? = some x → x.running → ∀ e, (edits field f x.done).getLast? = some e →
      K.edit e (heap x.ref) = heap x.ref) :
    ({s with calls := s.calls.set k d', heap := heap} : State R E).Effective K field f := by
  have hold : ∀ (i : ℕ) x, (s.calls.set k d')[i]? = some x → x.running →
      ∃ y, s.calls[i]? = some y ∧ y.running ∧ edits field f (x.done++x.rest) = edits field f (y.done++y.rest) := by
    intro i x hx hrun
    rcases getElem?_set_cases hx with ⟨rfl, rfl⟩ | ⟨-, hx⟩
    · exact ⟨d, hd, hrunning, hedits⟩
    · exact ⟨x, hx, hrun, rfl⟩
  refine ⟨fun i j x x' hx hx' hne hrun hrun' => ?_, fun x hx hrun => ?_⟩
  · obtain ⟨y, hy, hyrun, heq⟩ := hold i x hx hrun
    obtain ⟨y', hy', hyrun', heq'⟩ := hold j x' hx' hrun'
    rw [heq, heq']
    exact h.apart i j y y' hy hy' hne hyrun hyrun'
  · obtain ⟨i, hi⟩ := getElem?_of_mem hx
    exact heffect i x hi hrun

lemma effective_of_move (hfields : Fields K field) (hshared : s.Shared) (h : s.Effective K field f)
    (hmove : Move (F := F) K body s l t) (hcond : Orderly K body field f s l) : t.Effective K field f := by
  have hload : (∀ d ∈ s.calls, d.running → (s.hit K).isSome) → (s.load K).2.Effective K field f := by
    intro hhit
    rcases load_cases K s with ⟨c, -, -, hload⟩ | ⟨hmiss, hload⟩
    · rwa [hload]
    · rw [hload]
      exact ⟨h.apart, fun d hd hrun => absurd (hhit d hd hrun) (by simp [hmiss])⟩
  cases hmove with
  | @start c =>
    have hold := hload fun d hd hrun => (hcond d hd hrun).1
    refine ⟨fun i j d d' hd hd' hne hrun hrun' => ?_, fun d hd hrun e he => ?_⟩
    · rcases getElem?_concat_cases hd with hd | ⟨hi, rfl⟩ <;> rcases getElem?_concat_cases hd' with hd' | ⟨hj, rfl⟩
      · exact h.apart i j d d' hd hd' hne hrun hrun'
      · have hboth := (hcond d (mem_of_getElem? hd) hrun).2
        by_contra hnot
        rw [not_or] at hnot
        exact hboth ⟨by simpa using hnot.2, hnot.1⟩
      · have hboth := (hcond d' (mem_of_getElem? hd') hrun').2
        by_contra hnot
        rw [not_or] at hnot
        exact hboth ⟨by simpa using hnot.1, hnot.2⟩
      · exact absurd (hi.trans hj.symm) hne
    · rcases mem_append.mp hd with hd | hd
      · exact hold.effect d (load_calls K s ▸ hd) hrun e he
      · obtain rfl := mem_singleton.mp hd
        simp [edits] at he
  | read => exact hload hcond
  | @edit k d e₀ rest here running next =>
    refine h.set _ here running _ (by rw [next]; simp [edits]) fun i x hx hrun e he => ?_
    -- Whoever has set the field, the object is the one that is edited.
    rcases getElem?_set_cases hx with ⟨rfl, rfl⟩ | ⟨hne, hx⟩
    · rw [update_self]
      rw [edits_append] at he
      by_cases hf : field e₀ = f
      · have heq : e₀ = e := by simpa [edits, hf] using he
        subst heq
        exact hfields.idem e₀ _
      have hlast : (edits field f d.done).getLast? = some e := by simpa [edits, hf] using he
      have hfe := field_of_mem_edits (mem_of_getLast? hlast)
      rw [hfields.comm e e₀ _ (by rw [hfe]; exact Ne.symm hf), h.effect d (mem_of_getElem? here) running e hlast]
    have hmem := mem_of_getElem? hx
    have hfe := field_of_mem_edits (mem_of_getLast? he)
    have hne₀ : field e ≠ field e₀ := by
      intro heq
      rcases h.apart i k x d hx here hne hrun running with hnil | hnil
      · rw [edits_append, append_eq_nil_iff] at hnil
        simp [hnil.1] at he
      · simp [next, edits, ← heq, hfe] at hnil
    rw [hshared.one x hmem d (mem_of_getElem? here) hrun running, update_self,
      hfields.comm e e₀ _ hne₀, ← hshared.one x hmem d (mem_of_getElem? here) hrun running, h.effect x hmem hrun e he]
  | @goOn _ k d d' here running ref same =>
    refine h.set _ here running _ (by simp [edits_append, same field f]) fun i x hx hrun e he => ?_
    rcases getElem?_set_cases hx with ⟨rfl, rfl⟩ | ⟨-, hx⟩
    · rw [(same field f).1] at he
      rw [ref]
      exact h.effect d (mem_of_getElem? here) running e he
    · exact h.effect x (mem_of_getElem? hx) hrun e he
  | @write k now d here running done =>
    have hset := h.set {d with running := false} here running s.heap rfl fun i x hx hrun e he => by
      rcases getElem?_set_cases hx with ⟨rfl, rfl⟩ | ⟨-, hx⟩
      · cases hrun
      · exact h.effect x (mem_of_getElem? hx) hrun e he
    exact ⟨hset.apart, hset.effect⟩
  | used | evict => exact ⟨h.apart, h.effect⟩

/-- The file, the cached object and the objects of the calls under way all meet `P`. -/
structure State.All (P : R → Prop) (s : State R E) : Prop where
  file : P s.file.data
  cached : ∀ c ∈ s.cache, c.ref < s.fresh ∧ P (s.heap c.ref)
  held : ∀ d ∈ s.calls, d.running → d.ref < s.fresh ∧ P (s.heap d.ref)

variable {P : R → Prop}

lemma State.All.load (h : s.All P) :
    (s.load K).2.All P ∧ (s.load K).1 < (s.load K).2.fresh ∧ P ((s.load K).2.heap (s.load K).1) := by
  rcases load_cases K s with ⟨c, hc, -, hload⟩ | ⟨-, hload⟩
  · rw [hload]
    exact ⟨h, h.cached c hc⟩
  rw [hload]
  refine ⟨⟨h.file, fun c hc => ?_, fun d hd hrun => ?_⟩, Nat.lt_succ_self _, by simpa using h.file⟩
  · cases hc
    exact ⟨Nat.lt_succ_self _, by simpa using h.file⟩
  · obtain ⟨hlt, hP⟩ := h.held d hd hrun
    exact ⟨hlt.trans (Nat.lt_succ_self _), by simpa [update_of_ne hlt.ne] using hP⟩

lemma all_of_move (h : s.All P) (hmove : Move (F := F) K body s l t)
    (hedit : ∀ k d e, l = .next k → s.calls[k]? = some d → d.running → d.rest.head? = some (.edit e) → ∀ r, P r → P (K.edit e r))
    (hused : ∀ now r, P r → P (K.used now r)) : t.All P := by
  have hset : ∀ {k : ℕ} {d d' : Call R E} {heap : ℕ → R}, s.calls[k]? = some d → d.running = true → d'.ref = d.ref →
      (∀ i, P (s.heap i) → P (heap i)) →
      ∀ x ∈ s.calls.set k d', x.running → x.ref < s.fresh ∧ P (heap x.ref) := by
    intro k d d' heap hd hrunning href hheap x hx hrun
    rcases mem_set_calls hd hx with hx | ⟨rfl, hmem⟩
    · exact (h.held x hx hrun).imp_right (hheap _)
    · rw [href]
      exact (h.held d hmem hrunning).imp_right (hheap _)
  cases hmove with
  | start =>
    obtain ⟨hall, hnew⟩ := h.load (K := K)
    refine ⟨hall.file, hall.cached, fun d hd hrun => ?_⟩
    rcases mem_append.mp hd with hd | hd
    · exact hall.held d (load_calls K s ▸ hd) hrun
    · rw [mem_singleton.mp hd]
      exact hnew
  | read => exact h.load.1
  | @edit k d e rest here running next =>
    have hheap : ∀ i, P (s.heap i) → P (update s.heap d.ref (K.edit e (s.heap d.ref)) i) := by
      intro i hi
      by_cases heq : i = d.ref
      · subst heq
        rw [update_self]
        exact hedit k d e rfl here running (by simp [next]) _ hi
      · rwa [update_of_ne heq]
    exact ⟨h.file, fun c hc => (h.cached c hc).imp_right (hheap _), hset here running rfl hheap⟩
  | goOn here running ref same => exact ⟨h.file, h.cached, hset here running ref fun _ hi => hi⟩
  | @write k now d here running done =>
    refine ⟨(h.held d (mem_of_getElem? here) running).2, fun c hc => h.cached c ?_, hset here running rfl fun _ hi => hi⟩
    dsimp only at hc
    split_ifs at hc
    · cases hc
    · exact hc
  | used => exact ⟨hused _ _ h.file, by simp, h.held⟩
  | evict => exact ⟨h.file, by simp, h.held⟩

/-- The calls among the first `n` that are under way have no more assignments to the field to make. -/
def State.Quiet (field : E → F) (f : F) (n : ℕ) (s : State R E) : Prop :=
  n ≤ s.calls.length ∧ ∀ (k : ℕ) d, k < n → s.calls[k]? = some d → d.running → edits field f d.rest = []

lemma quiet_of_move {n : ℕ} (h : s.Quiet field f n) (hmove : Move (F := F) K body s l t) : t.Quiet field f n := by
  have hset : ∀ {k : ℕ} {d d' : Call R E}, s.calls[k]? = some d → d.running = true →
      (edits field f d.rest = [] → edits field f d'.rest = []) → n ≤ (s.calls.set k d').length ∧
      ∀ (i : ℕ) x, i < n → (s.calls.set k d')[i]? = some x → x.running → edits field f x.rest = [] := by
    intro k d d' hd hrunning hrest
    refine ⟨by simpa using h.1, fun i x hi hx hrun => ?_⟩
    rcases getElem?_set_cases hx with ⟨rfl, rfl⟩ | ⟨-, hx⟩
    · exact hrest (h.2 i d hi hd hrunning)
    · exact h.2 i x hi hx hrun
  cases hmove with
  | start =>
    refine ⟨by simpa using h.1.trans (Nat.le_succ _), fun k d hk hd hrun => ?_⟩
    rcases getElem?_concat_cases hd with hd | ⟨rfl, -⟩
    · exact h.2 k d hk hd hrun
    · exact absurd h.1 (by omega)
  | read => exact ⟨load_calls K s ▸ h.1, load_calls K s ▸ h.2⟩
  | edit here running next =>
    refine hset here running fun hnil => ?_
    rw [next] at hnil
    exact (append_eq_nil_iff.mp ((edits_append [_] _).symm.trans hnil)).2
  | goOn here running ref same => exact hset here running fun hnil => (same field f).2.trans hnil
  | write here running done => exact hset here running id
  | used => exact h
  | evict => exact h

lemma all_of_update (hshared : s.Shared) (heffective : s.Effective K field f) {k now : ℕ} {e}
    (hd : s.calls[k]? = some d) (he : (edits field f d.done).getLast? = some e)
    (hupdate : s.step K body (.update k now false) = some t) :
    t.All (fun r => K.edit e r = r) ∧ t.Quiet field f t.calls.length := by
  simp only [step, hd] at hupdate
  split at hupdate
  next ref done heq =>
    cases heq
    cases hupdate
    have hmem := mem_of_getElem? hd
    have heffect := heffective.effect _ hmem rfl e he
    obtain ⟨hlt, hcache⟩ := hshared.held _ hmem rfl
    refine ⟨⟨heffect, fun c hc => ?_, fun x hx hrun => ?_⟩, le_rfl, fun i x _ hx hrun => ?_⟩
    · have hc : c ∈ s.cache := by
        dsimp only at hc
        split_ifs at hc
        · cases hc
        · exact hc
      rw [show c.ref = ref from hcache c hc]
      exact ⟨hlt, heffect⟩
    · rcases mem_set_calls hd hx with hx | ⟨rfl, -⟩
      · rw [show x.ref = ref from hshared.one x hx _ hmem hrun rfl]
        exact ⟨hlt, heffect⟩
      · cases hrun
    · rcases getElem?_set_cases hx with ⟨rfl, rfl⟩ | ⟨hne, hx⟩
      · cases hrun
      rcases heffective.apart i k x _ hx hd hne hrun rfl with hnil | hnil
      · exact (append_eq_nil_iff.mp ((edits_append _ _).symm.trans hnil)).2
      · rw [append_nil] at hnil
        simp [hnil] at he
  next => cases hupdate

end

/-- Once a call that has set a field has returned success, what it has set is what the file has and what a read answers,
until a call that was started later assigns to the field. -/
def Kept {R E C F : Type} [DecidableEq F] (K : Kind R E) (body : C → List (Op R E)) (field : E → F) : Prop :=
  ∀ (f : F) (file : File R) (s t u : State R E) (k now : ℕ) (d : Call R E) (e : E),
    Reach (step K body) (Orderly K body field f) {file := file, heap := fun _ => file.data} s →
    s.calls[k]? = some d → (edits field f d.done).getLast? = some e → s.step K body (.update k now false) = some t →
    Reach (step K body) (Spared field t.calls.length f) t u → u.Has K e

lemma kept_of_fields {R E C F : Type} [DecidableEq F] {K : Kind R E} {body : C → List (Op R E)} {field : E → F}
    (hfields : Fields K field) : Kept K body field := by
  intro f file s t u k now d e hreach hd he hupdate hlater
  have hinv : s.Shared ∧ s.Effective K field f := by
    refine hreach.invariant (P := fun s => s.Shared ∧ s.Effective K field f) ⟨⟨by simp, by simp, by simp⟩, by simp, by simp⟩ ?_
    intro a l b _ ⟨hshared, heffective⟩ hcond hstep
    have hmove := move_of_step (F := F) hstep
    exact ⟨shared_of_move hshared hmove hcond, effective_of_move hfields hshared heffective hmove hcond⟩
  obtain ⟨hshared, heffective⟩ := hinv
  have hf := field_of_mem_edits (mem_of_getLast? he)
  have hall : u.All (fun r => K.edit e r = r) ∧ u.Quiet field f t.calls.length := by
    refine hlater.invariant (P := fun u => State.All (fun r => K.edit e r = r) u ∧ State.Quiet field f t.calls.length u)
      (all_of_update hshared heffective hd he hupdate) ?_
    intro a l b _ ⟨hall, hquiet⟩ hspared hstep
    have hmove := move_of_step (F := F) hstep
    refine ⟨all_of_move hall hmove (fun i x e' hl hx hrun hhead r hr => ?_) fun n r hr => ?_, quiet_of_move hquiet hmove⟩
    · -- A later call does not assign to the field in this step, and an earlier one has nothing left to assign.
      have hne : field e ≠ field e' := by
        intro heq
        obtain ⟨rest, hrest⟩ := head?_eq_some_iff.mp hhead
        subst hl
        by_cases hi : i < t.calls.length
        · have hnil := hquiet.2 i x hi hx hrun
          simp [hrest, edits, ← heq, hf] at hnil
        · have hnil := hspared (Nat.le_of_not_lt hi) x hx
          simp [hrest, edits, ← heq, hf] at hnil
      rw [hfields.comm e e' r hne, hr]
    · rw [hfields.used, hr]
  exact ⟨hall.1.file, fun c hc => (hall.1.cached c hc).2⟩

/-! ### Users and webhooks -/

inductive UserField
  | username | role | password | disabled | updatedAt
deriving DecidableEq

def userField : UserEdit → UserField
  | .username _ => .username
  | .role _ => .role
  | .passwordHash _ => .password
  | .isDisabled _ => .disabled
  | .updatedAt _ => .updatedAt

inductive WebhookField
  | tokenHash | tokenPrefix | enabled | updatedAt
deriving DecidableEq

def webhookField : WebhookEdit → WebhookField
  | .tokenHash _ => .tokenHash
  | .tokenPrefix _ => .tokenPrefix
  | .enabled _ => .enabled
  | .updatedAt _ => .updatedAt

inductive UserChange
  | updateUser (input : UpdateUserInput) (hash : Option String) (now : ℕ)
  | changePassword (oldPassword newPassword : String) (hash : Option String) (now : ℕ)
  | resetPassword (newPassword : String) (hash : Option String) (now : ℕ)

variable (cfg : Config)

def userBody : UserChange → List (Op User UserEdit)
  | .updateUser input hash now => updateUser input hash now
  | .changePassword oldPassword newPassword hash now => changePassword cfg.compare oldPassword newPassword hash now
  | .resetPassword newPassword hash now => resetPassword newPassword hash now

inductive WebhookChange
  | toggleWebhook (enabled : Bool) (now : ℕ)
  | regenerateWebhookToken (token : Option (String × String)) (now : ℕ)

def webhookBody : WebhookChange → List (Op Webhook WebhookEdit)
  | .toggleWebhook enabled now => toggleWebhook enabled now
  | .regenerateWebhookToken token now => regenerateWebhookToken token now

lemma fields_users : Fields cfg.users userField where
  idem e _ := by cases e <;> rfl
  comm e e' _ h := by cases e <;> cases e' <;> first | rfl | exact absurd rfl h
  used _ _ _ := rfl

lemma fields_webhooks : Fields cfg.webhooks webhookField where
  idem e _ := by cases e <;> rfl
  comm e e' _ h := by cases e <;> cases e' <;> first | rfl | exact absurd rfl h
  used e _ _ := by cases e <;> rfl

/-- Changes of users and of webhooks are kept while every read made during a call hits the cache and no two calls that
set the same field overlap. -/
theorem revocation_kept (cfg : Config) :
    Kept cfg.users (userBody cfg) userField ∧ Kept cfg.webhooks webhookBody webhookField :=
  ⟨kept_of_fields (fields_users cfg), kept_of_fields (fields_webhooks cfg)⟩

def active : State User UserEdit := {file := ⟨viewer, 0⟩, heap := fun _ => viewer}

def disable : UserChange := .updateUser {isDisabled := some true} none 1

def rename : UserChange := .updateUser {username := some "bob"} none 2

def disabling : State User UserEdit := play (step plain.users (userBody plain)) active [(.start disable, 1), (.next 0, 2)]

def disabled : State User UserEdit := play (step plain.users (userBody plain)) disabling [(.update 0 5 false, 1)]

/-- The user is still disabled when a later call has read the record. -/
theorem revocation_kept_disabled :
    (play (step plain.users (userBody plain)) disabled [(.start rename, 1)]).Has plain.users (.isDisabled true) := by
  have hreach : Reach (step plain.users (userBody plain)) (Orderly plain.users (userBody plain) userField .disabled)
      active disabling :=
    ((Reach.refl.tail (l := .start disable) (fun d hd => by cases hd) rfl).tail (l := .next 0) trivial rfl).tail (l := .next 0)
      trivial rfl
  exact (revocation_kept plain).1 .disabled ⟨viewer, 0⟩ disabling disabled _ 0 5 _ (.isDisabled true) hreach rfl rfl rfl
    (Reach.refl.tail (l := .start rename) trivial rfl)

def crossing : State User UserEdit :=
  play (step plain.users (userBody plain)) active [(.start rename, 1), (.evict, 1), (.start disable, 1), (.next 1, 2)]

def crossed : State User UserEdit := play (step plain.users (userBody plain)) crossing [(.update 1 5 false, 1)]

/-- The call that renames the user stores the record it read before, and the user is no longer disabled. -/
theorem revocation_lost : Reach (step plain.users (userBody plain)) always active crossing ∧
      crossing.step plain.users (userBody plain) (.update 1 5 false) = some crossed ∧ crossed.file.data.isDisabled ∧
      ∃ u, Reach (step plain.users (userBody plain)) (Spared userField 2 .disabled) crossed u ∧
        u.file.data.isDisabled = false := by
  refine ⟨reach_play _ _, rfl, rfl, play _ crossed [(.next 0, 2), (.update 0 6 false, 1)],
    reach_follow_of_mem (fun e he _ _ => ?_) _, rfl⟩
  rcases mem_cons.mp he with rfl | he
  · exact fun h => absurd h (by decide)
  · obtain rfl := mem_singleton.mp he
    trivial

end Ayatsuri.AccountRevocation
