import Ayatsuri.LeaseRepair

/-! What one pass of the repair does to a run whose lease is lost, and to one whose lease is fresh. Where
the leases and records name the attempts they belong to, a pass repairs exactly the root runs it finds. -/
namespace Ayatsuri.LeaseRepair
open Distributed List Dir

lemma foldl_reaches {α β : Type*} {f : β → α → β} {P D : β → Prop} {l : List α} {x b} (hx : x ∈ l)
    (hb : P b ∨ D b) (hkeep : ∀ b, ∀ a ∈ l, P b → P (f b a) ∨ D (f b a)) (hstay : ∀ b, ∀ a ∈ l, D b → D (f b a))
    (hreach : ∀ b, P b → D (f b x)) : D (l.foldl f b) := by
  obtain ⟨before, after, rfl⟩ := append_of_mem hx
  rw [foldl_append, foldl_cons]
  refine foldlRecOn after f ?_ fun b hb a ha => hstay b a (by simp [ha]) hb
  have hbefore : P (before.foldl f b) ∨ D (before.foldl f b) := by
    refine foldlRecOn (motive := fun b => P b ∨ D b) before f hb fun b hb a ha => ?_
    rcases hb with hb | hb
    · exact hkeep b a (by simp [ha]) hb
    · exact .inr (hstay b a (by simp [ha]) hb)
  rcases hbefore with h | h
  · exact hreach _ h
  · exact hstay _ x (by simp) h

variable (run : StoredRun) (status : RunStatus)

def StoredRun.key : String := attemptKeyForStatus run.ref status run.attemptID

open StoredRun

namespace State
variable {s t : State} {run run' : StoredRun} {status : RunStatus} {ref : DAGRunRef} {attemptID key k : String}

def Distinct (s : State) : Prop := (s.runs.map StoredRun.ref).Nodup

lemma Distinct.eq (h : s.Distinct) (hrun : run ∈ s.runs) (hrun' : run' ∈ s.runs) (href : run.ref = run'.ref) :
    run = run' := inj_on_of_nodup_map h hrun hrun' href

/-! ### Looking up -/

lemma latest_ok {p : StoredRun → Bool} (h : s.latest p = .ok (run, status)) :
    run ∈ s.runs ∧ p run ∧ run.status = some status := by
  unfold latest at h
  cases hfind : s.runs.find? p with
  | none => simp [hfind] at h
  | some x =>
    cases hstatus : x.status with
    | none => simp [hfind, hstatus] at h
    | some st =>
      simp only [hfind, hstatus, Except.ok.injEq, Prod.mk.injEq] at h
      obtain ⟨rfl, rfl⟩ := h
      exact ⟨mem_of_find?_eq_some hfind, find?_some hfind, hstatus⟩

lemma findAttempt_ok (h : s.findAttempt ref = .ok (run, status)) :
    run ∈ s.runs ∧ run.under = none ∧ run.ref = ref ∧ run.status = some status := by
  unfold findAttempt at h
  split_ifs at h
  obtain ⟨hmem, hp, hstatus⟩ := latest_ok h
  simp only [Bool.and_eq_true, decide_eq_true_eq] at hp
  exact ⟨hmem, hp.1, hp.2, hstatus⟩

lemma findAttempt_of_mem (hd : s.Distinct) (hrun : run ∈ s.runs) (hunder : run.under = none)
    (hstatus : run.status = some status) (hid : run.ref.id ≠ "") : s.findAttempt run.ref = .ok (run, status) := by
  unfold findAttempt latest
  rw [if_neg hid]
  cases hfind : s.runs.find? fun x => x.under = none && x.ref = run.ref with
  | none => simpa [hunder] using find?_eq_none.mp hfind run hrun
  | some x =>
    have hp := find?_some hfind
    simp only [Bool.and_eq_true, decide_eq_true_eq] at hp
    cases hd.eq (mem_of_find?_eq_some hfind) hrun hp.2
    simp [hstatus]

lemma resolveLatestAttempt_ok {dagRun root}
    (h : s.resolveLatestAttempt dagRun root = .ok (run, status)) : run ∈ s.runs ∧ run.status = some status := by
  unfold resolveLatestAttempt at h
  split_ifs at h
  · unfold findSubAttempt at h
    split_ifs at h
    exact ⟨(latest_ok h).1, (latest_ok h).2.2⟩
  · exact ⟨(findAttempt_ok h).1, (findAttempt_ok h).2.2.2⟩

/-! ### Failing an attempt -/

section
variable {text reason : String} {expected : List Status} {mutate : RunStatus → RunStatus}

lemma swapFirst_hit {seen} (hfind : s.findAttempt ref = .ok (run, status)) (hattempt : status.attemptID = attemptID)
    (hexpected : status.status ∈ expected) : s.swapFirst ref attemptID mutate seen expected =
      .ok (s.setStatus ref (mutate status), some (mutate status, true)) := by
  induction expected generalizing seen with
  | nil => simp at hexpected
  | cons first rest ih =>
    by_cases hfirst : status.status = first
    · simp [swapFirst, compareAndSwapLatestAttemptStatus, hfind, hattempt, hfirst, bind, Except.bind, pure, Except.pure]
    have hrest : status.status ∈ rest := by simpa [hfirst] using hexpected
    simpa [swapFirst, compareAndSwapLatestAttemptStatus, hfind, hattempt, hfirst, bind, Except.bind, pure,
      Except.pure] using ih hrest

lemma swapFirst_miss (seen : Option (RunStatus × Bool)) {result}
    (hmiss : ∀ run status, s.findAttempt ref = .ok (run, status) →
      status.attemptID = attemptID → status.status ∉ expected)
    (hattempt : attemptID ≠ "") (h : s.swapFirst ref attemptID mutate seen expected = .ok (t, result)) : t = s := by
  induction expected generalizing seen with
  | nil =>
    simp only [swapFirst, Except.ok.injEq, Prod.mk.injEq] at h
    exact h.1.symm
  | cons first rest ih =>
    cases hfind : s.findAttempt ref with
    | error e => simp [swapFirst, compareAndSwapLatestAttemptStatus, hfind, bind, Except.bind] at h
    | ok found =>
      obtain ⟨run, status⟩ := found
      by_cases hsame : status.attemptID = attemptID
      · have hfirst : status.status ≠ first := fun heq => hmiss run status hfind hsame (by simp [heq])
        refine ih (some (status, false)) (fun run' status' hfind' hsame' hmem => ?_) ?_
        · exact hmiss run' status' hfind' hsame' (mem_cons_of_mem _ hmem)
        · simpa [swapFirst, compareAndSwapLatestAttemptStatus, hfind, hsame, hfirst, bind, Except.bind, pure,
            Except.pure] using h
      · simp [swapFirst, compareAndSwapLatestAttemptStatus, hfind, hsame, hattempt, bind, Except.bind, pure, Except.pure] at h
        exact h.1.symm

def Hits (run : StoredRun) (ref : DAGRunRef) (attemptID : String) (expected : List Status) : Prop :=
  run.under = none ∧ run.ref = ref ∧ attemptID ≠ "" ∧
    ∃ status, run.status = some status ∧ status.attemptID = attemptID ∧ status.status ∈ expected

lemma fail_hit (hfind : s.findAttempt ref = .ok (run, status)) (hattempt : status.attemptID = attemptID)
    (hne : attemptID ≠ "") (hexpected : status.status ∈ expected) :
    s.failDistributedAttemptIfCurrent text ref attemptID key reason expected =
      (s.setStatus ref (failStatus text reason status)).deleteDistributedTracking key := by
  unfold failDistributedAttemptIfCurrent
  rw [if_neg hne, swapFirst_hit hfind hattempt hexpected]
  simp [failStatus, Status.isActive]

lemma fail_miss (text key reason : String) (hmiss : ∀ run status, s.findAttempt ref = .ok (run, status) →
      status.attemptID = attemptID → attemptID ≠ "" → status.status ∉ expected) :
    s.failDistributedAttemptIfCurrent text ref attemptID key reason expected = s ∨
      s.failDistributedAttemptIfCurrent text ref attemptID key reason expected = s.deleteDistributedTracking key := by
  unfold failDistributedAttemptIfCurrent
  split_ifs with hne
  · exact .inl rfl
  cases hswap : s.swapFirst ref attemptID (failStatus text reason) none expected with
  | error e => exact .inl rfl
  | ok found =>
    obtain ⟨t, result⟩ := found
    have ht : t = s := swapFirst_miss none (fun run status hfind hsame => hmiss run status hfind hsame hne) hne hswap
    subst ht
    cases result with
    | none => exact .inr rfl
    | some seen =>
      simp only
      split_ifs
      · exact .inr rfl
      · exact .inl rfl
      · exact .inr rfl

/-- What a call that fails an attempt can do: nothing, drop the tracking, or both fail the run it names and
drop the tracking. -/
lemma fail_rec {P : State → Prop} (h : P s) (hdelete : ∀ t, P t → P (t.deleteDistributedTracking key))
    (hset : ∀ run status, s.findAttempt ref = .ok (run, status) → Hits run ref attemptID expected →
      P (s.setStatus ref (failStatus text reason status))) :
    P (s.failDistributedAttemptIfCurrent text ref attemptID key reason expected) := by
  by_cases hhit : ∃ run status, s.findAttempt ref = .ok (run, status) ∧ status.attemptID = attemptID ∧
      attemptID ≠ "" ∧ status.status ∈ expected
  · obtain ⟨run, status, hfind, hsame, hne, hexpected⟩ := hhit
    rw [fail_hit hfind hsame hne hexpected]
    obtain ⟨-, hroot, href, hstatus⟩ := findAttempt_ok hfind
    exact hdelete _ (hset run status hfind ⟨hroot, href, hne, status, hstatus, hsame, hexpected⟩)
  rcases fail_miss text key reason fun run status hfind hsame hne hexpected =>
    hhit ⟨run, status, hfind, hsame, hne, hexpected⟩ with heq | heq <;> rw [heq]
  · exact h
  · exact hdelete s h

/-! ### What a call leaves alone -/

def tracking (s : State) (k : String) : Option DAGRunLease × Option ActiveDistributedRun :=
  (s.leases.get? k, s.active.get? k)

@[simp] lemma runs_delete : (s.deleteDistributedTracking key).runs = s.runs := by
  unfold deleteDistributedTracking
  split_ifs <;> rfl

lemma tracking_delete (hk : k ≠ key) : (s.deleteDistributedTracking key).tracking k = s.tracking k := by
  unfold deleteDistributedTracking
  split_ifs
  · rfl
  · simp [tracking, get?_remove, hk]

lemma tracking_delete_none (h : s.tracking k = (none, none)) :
    (s.deleteDistributedTracking key).tracking k = (none, none) := by
  by_cases hk : k = key
  · unfold deleteDistributedTracking
    split_ifs
    · exact h
    · simp [tracking, get?_remove, hk]
  · rw [tracking_delete hk]
    exact h

lemma tracking_delete_self (hk : key ≠ "") : (s.deleteDistributedTracking key).tracking key = (none, none) := by
  simp [deleteDistributedTracking, hk, tracking, get?_remove]

lemma mem_setStatus (hrun : run ∈ s.runs) (h : ¬ (run.under = none ∧ run.ref = ref)) :
    run ∈ (s.setStatus ref status).runs := mem_map.mpr ⟨run, hrun, if_neg h⟩

lemma mem_setStatus_self (hrun : run ∈ s.runs) (hunder : run.under = none) :
    {run with status := some status} ∈ (s.setStatus run.ref status).runs :=
  mem_map.mpr ⟨run, hrun, if_pos ⟨hunder, rfl⟩⟩

lemma Distinct.setStatus (h : s.Distinct) : (s.setStatus ref status).Distinct := by
  have href : (s.setStatus ref status).runs.map StoredRun.ref = s.runs.map StoredRun.ref := by
    simp only [State.setStatus, map_map]
    refine map_congr_left fun run _ => ?_
    simp only [Function.comp_apply]
    split_ifs <;> rfl
  unfold Distinct
  rw [href]
  exact h

lemma Distinct.delete (h : s.Distinct) : (s.deleteDistributedTracking key).Distinct := by
  simpa only [Distinct, runs_delete] using h

lemma Distinct.fail (h : s.Distinct) :
    (s.failDistributedAttemptIfCurrent text ref attemptID key reason expected).Distinct :=
  fail_rec h (fun _ => Distinct.delete) fun _ _ _ _ => h.setStatus

lemma tracking_fail (hk : k ≠ key) :
    (s.failDistributedAttemptIfCurrent text ref attemptID key reason expected).tracking k = s.tracking k :=
  fail_rec (P := fun t => t.tracking k = s.tracking k) rfl (fun _ h => (tracking_delete hk).trans h) fun _ _ _ _ => rfl

lemma tracking_fail_none (h : s.tracking k = (none, none)) :
    (s.failDistributedAttemptIfCurrent text ref attemptID key reason expected).tracking k = (none, none) :=
  fail_rec (P := fun t => t.tracking k = (none, none)) h (fun _ => tracking_delete_none) fun _ _ _ _ => h

lemma mem_fail (hd : s.Distinct) (hrun : run ∈ s.runs) (hmiss : ¬ Hits run ref attemptID expected) :
    run ∈ (s.failDistributedAttemptIfCurrent text ref attemptID key reason expected).runs := by
  refine fail_rec (P := fun t => run ∈ t.runs) hrun (fun t h => by rwa [runs_delete]) fun found status hfind hhit => ?_
  refine mem_setStatus hrun fun ⟨_, href⟩ => hmiss ?_
  cases hd.eq (findAttempt_ok hfind).1 hrun (hhit.2.1.trans href.symm)
  exact hhit

lemma mem_of_mem_fail {s₀ : State}
    (horigin : ∀ run ∈ s.runs, run ∈ s₀.runs ∨ ∃ st, run.status = some st ∧ st.status = .failed) :
    ∀ run ∈ (s.failDistributedAttemptIfCurrent text ref attemptID key reason expected).runs,
      run ∈ s₀.runs ∨ ∃ st, run.status = some st ∧ st.status = .failed := by
  refine fail_rec (P := fun t => ∀ run ∈ t.runs, run ∈ s₀.runs ∨ ∃ st, run.status = some st ∧ st.status = .failed)
    horigin (fun t h => by rwa [runs_delete]) fun found status _ _ run hrun => ?_
  obtain ⟨x, hx, rfl⟩ := mem_map.mp hrun
  split_ifs
  · exact .inr ⟨_, rfl, rfl⟩
  · exact horigin x hx

end
end State

/-! ### States whose records name what they belong to -/

lemma attemptKeyForStatus_eq {ref} {status : RunStatus} (h : status.attemptID ≠ "") (a b : String) :
    attemptKeyForStatus ref status a = attemptKeyForStatus ref status b := by simp [attemptKeyForStatus, h]

lemma attemptID_listed : (run.listed status).attemptID = status.attemptID := by
  unfold listed
  split_ifs <;> rfl

lemma status_listed : (run.listed status).status = status.status := by
  unfold listed
  split_ifs <;> rfl

lemma workerID_listed : (run.listed status).workerID = status.workerID := by
  unfold listed
  split_ifs <;> rfl

namespace State
variable (s : State)

structure Attempt (run : StoredRun) (status : RunStatus) : Prop where
  mem : run ∈ s.runs
  root : run.under = none
  reads : run.status = some status
  named : status.attemptID ≠ ""

/-- A name and an ID stand for one run, an attempt key for one attempt, and leases and records have the names
of the attempts whose keys they have. A root run has the same key in the listing. -/
structure WellFormed : Prop where
  distinct : s.Distinct
  ids : ∀ run ∈ s.runs, run.ref.id ≠ ""
  leaseKeys : ∀ x ∈ s.leases.entries, x.2.attemptKey = x.1
  activeKeys : ∀ x ∈ s.active.entries, x.2.attemptKey = x.1
  keys : ∀ run ∈ s.runs, run.under = none → ∀ status, run.status = some status →
    ∀ run' status', s.Attempt run' status' → ∀ a,
      attemptKeyForStatus run.ref (run.listed status) a = run'.key status' → run = run'
  listed : ∀ run status, s.Attempt run status →
    attemptKeyForStatus run.ref (run.listed status) status.attemptID = run.key status ∧ run.key status ≠ ""
  leases : ∀ run status, s.Attempt run status → ∀ x ∈ s.leases.entries,
    (x.1 = run.key status ↔ x.2.dagRun = run.ref ∧ x.2.attemptID = status.attemptID)
  records : ∀ run status, s.Attempt run status → ∀ x ∈ s.active.entries, x.1 = run.key status →
    x.2.dagRun = run.ref ∧ x.2.attemptID = status.attemptID ∧ (x.2.root.id = "" ∨ x.2.root.id = run.ref.id)

structure Waits (s₀ : State) (run : StoredRun) (k : String) (s : State) : Prop where
  distinct : s.Distinct
  origin : ∀ run ∈ s.runs, run ∈ s₀.runs ∨ ∃ st, run.status = some st ∧ st.status = .failed
  mem : run ∈ s.runs
  lease : s.leases.get? k = s₀.leases.get? k

/-- No node of the list is running, waiting or not started. -/
def Over (nodes : List Node) : Prop := ∀ node ∈ nodes, node.status ∉ [NodeStatus.running, .waiting, .notStarted]

structure Done (run : StoredRun) (k : String) (s : State) : Prop where
  distinct : s.Distinct
  failed : ∃ st, {run with status := some st} ∈ s.runs ∧ st.status = .failed ∧ Over st.nodes ∧
    ∀ status, run.status = some status → st.handlers = status.handlers
  tracking : s.tracking k = (none, none)

section
variable {s₀ s : State} {run : StoredRun} {status : RunStatus} {ref : DAGRunRef} {attemptID key k : String}
  {text reason : String} {expected : List Status}

lemma Waits.fail (h : Waits s₀ run k s) (hk : k ≠ key) (hmiss : ¬ Hits run ref attemptID expected) :
    Waits s₀ run k (s.failDistributedAttemptIfCurrent text ref attemptID key reason expected) where
  distinct := h.distinct.fail
  origin := mem_of_mem_fail h.origin
  mem := mem_fail h.distinct h.mem hmiss
  lease := (congrArg Prod.fst (tracking_fail hk)).trans h.lease

lemma Waits.delete (h : Waits s₀ run k s) (hk : k ≠ key) : Waits s₀ run k (s.deleteDistributedTracking key) where
  distinct := h.distinct.delete
  origin := by simpa only [runs_delete] using h.origin
  mem := by simpa only [runs_delete] using h.mem
  lease := (congrArg Prod.fst (tracking_delete hk)).trans h.lease

lemma failNode_status (text reason : String) (node : Node) :
    (failNode text reason node).status ∉ [NodeStatus.running, .waiting, .notStarted] := by
  unfold failNode
  cases hnode : node.status <;> simp [hnode]

lemma Waits.hit (h : Waits s₀ run k s) (hrun : s₀.Attempt run status) (hid : run.ref.id ≠ "")
    (hexpected : status.status ∈ expected) (hk : k ≠ "") :
    Done run k (s.failDistributedAttemptIfCurrent text run.ref status.attemptID k reason expected) := by
  have hfind := findAttempt_of_mem h.distinct h.mem hrun.root hrun.reads hid
  rw [fail_hit hfind rfl hrun.named hexpected]
  refine ⟨h.distinct.setStatus.delete, ⟨failStatus text reason status, ?_, rfl, fun node hnode => ?_, fun st hst => ?_⟩,
    tracking_delete_self hk⟩
  · rw [runs_delete]
    exact mem_setStatus_self h.mem hrun.root
  · obtain ⟨node, -, rfl⟩ := mem_map.mp hnode
    exact failNode_status text reason node
  · cases hrun.reads.symm.trans hst
    rfl

lemma Done.delete (h : Done run k s) : Done run k (s.deleteDistributedTracking key) where
  distinct := h.distinct.delete
  failed := by simpa only [runs_delete] using h.failed
  tracking := tracking_delete_none h.tracking

lemma Done.fail (h : Done run k s) (hexpected : .failed ∉ expected) :
    Done run k (s.failDistributedAttemptIfCurrent text ref attemptID key reason expected) := by
  obtain ⟨st, hmem, hfailed, hnodes⟩ := h.failed
  refine ⟨h.distinct.fail, ⟨st, mem_fail h.distinct hmem ?_, hfailed, hnodes⟩, tracking_fail_none h.tracking⟩
  rintro ⟨-, -, -, st', hst', -, hst'expected⟩
  cases hst'
  exact hexpected (hfailed ▸ hst'expected)

end

/-! ### What the scans look at -/

structure Lost (clock : Clock) (s : State) (run : StoredRun) (status : RunStatus) : Prop where
  active : status.status = .running ∨ status.status = .notStarted
  remote : isRemoteWorkerID status.workerID
  stale : ∀ l, s.leases.get? (run.key status) = some l → isFresh clock.now clock.staleThreshold l = false

section
variable {clock : Clock} {s₀ s : State} {run : StoredRun} {status st : RunStatus} {k a : String} {ref : DAGRunRef}
  {lease : Option DAGRunLease}

lemma active_checkLease {x : String × DAGRunLease} (hwf : s₀.WellFormed) (hx : x ∈ s₀.leases.entries)
    (hfresh : x.1 = k → isFresh clock.now clock.staleThreshold x.2) :
    (s.checkLease clock x.2).active.get? k = s.active.get? k := by
  unfold checkLease markLeaseRunFailed
  split_ifs with hstale
  · rfl
  · refine congrArg Prod.snd (tracking_fail fun heq => hstale (hfresh ?_))
    rw [heq, hwf.leaseKeys x hx]

lemma active_checkLease_subset (lease : DAGRunLease) :
    (s.checkLease clock lease).active.entries ⊆ s.active.entries := by
  unfold checkLease markLeaseRunFailed
  split_ifs
  · exact List.Subset.refl _
  refine fail_rec (P := fun t => t.active.entries ⊆ s.active.entries) (List.Subset.refl _) (fun t h => ?_)
    fun _ _ _ _ => List.Subset.refl _
  unfold deleteDistributedTracking
  split_ifs
  · exact h
  · exact List.Subset.trans (filter_subset_self _) h

lemma Done.checkLease (h : Done run k s) (lease : DAGRunLease) : Done run k (s.checkLease clock lease) := by
  unfold State.checkLease markLeaseRunFailed
  split_ifs
  · exact h
  · exact h.fail (by simp)

lemma upsert_cases (s : State) (now : ℤ) (ref : DAGRunRef) (st : RunStatus) (a : String) :
    s.upsertActiveDistributedRun now ref st a = s ∨ ∃ record, s.upsertActiveDistributedRun now ref st a =
        {s with active := s.active.put (attemptKeyForStatus ref st a) record} := by
  unfold upsertActiveDistributedRun
  by_cases hkey : attemptKeyForStatus ref st a = ""
  · exact .inl (if_pos hkey)
  by_cases hremote : isRemoteWorkerID st.workerID
  · exact .inr ⟨_, by simp [hkey, hremote]; rfl⟩
  · exact .inl (by simp [hkey, hremote])

lemma Waits.upsert (h : Waits s₀ run k s) : Waits s₀ run k (s.upsertActiveDistributedRun clock.now ref st a) := by
  rcases upsert_cases s clock.now ref st a with heq | ⟨record, heq⟩ <;> rw [heq]
  · exact h
  · exact {h with}

lemma Done.upsert (h : Done run k s)
    (hk : k ≠ attemptKeyForStatus ref st a) : Done run k (s.upsertActiveDistributedRun clock.now ref st a) := by
  rcases upsert_cases s clock.now ref st a with heq | ⟨record, heq⟩ <;> rw [heq]
  · exact h
  refine ⟨h.distinct, h.failed, ?_⟩
  have htracking := h.tracking
  simp only [State.tracking, Prod.mk.injEq] at htracking ⊢
  exact ⟨htracking.1, by rw [get?_put, if_neg hk, htracking.2]⟩

variable {record : ActiveDistributedRun}

lemma matches_spec (h : indexedDistributedRunMatchesStatus record ref st) :
    (st.status = .running ∨ st.status = .notStarted) ∧ attemptKeyForStatus ref st record.attemptID = record.attemptKey := by
  simp only [indexedDistributedRunMatchesStatus, Bool.and_eq_true, Bool.or_eq_true, decide_eq_true_eq] at h
  exact ⟨h.1.1.1.2, h.1.2⟩

lemma resolve_record (hid : run.ref.id ≠ "") (hd : s.Distinct)
    (hmem : {run with status := some st} ∈ s.runs) (hroot : run.under = none) (hdagRun : record.dagRun = run.ref)
    (hrecord : record.root.id = "" ∨ record.root.id = run.ref.id) :
    s.resolveLatestAttempt record.dagRun record.root = .ok ({run with status := some st}, st) := by
  have hself : ¬ (record.root.id ≠ "" ∧ record.root.id ≠ record.dagRun.id) := by
    rw [hdagRun]
    rintro ⟨hne, hne'⟩
    exact hrecord.elim hne hne'
  rw [resolveLatestAttempt, if_neg hself, hdagRun]
  exact findAttempt_of_mem hd hmem hroot rfl hid

lemma leaseMatches_stale (h : ∀ l, lease = some l → isFresh clock.now clock.staleThreshold l = false) :
    leaseMatchesStatus lease ref st a clock.now clock.staleThreshold = false := by
  cases lease with
  | none => rfl
  | some l => simp [leaseMatchesStatus, h l rfl]

lemma fresh_of_matches (h : leaseMatchesStatus lease ref st a clock.now clock.staleThreshold) :
    ∀ l, lease = some l → isFresh clock.now clock.staleThreshold l := by
  rintro l rfl
  simp only [leaseMatchesStatus, Bool.and_eq_true] at h
  exact h.1.1.1.1.1

lemma leaseMatchesStatus_eq (h : st.attemptID ≠ "") (a b : String) (now staleThreshold : ℤ) :
    leaseMatchesStatus lease ref st a now staleThreshold = leaseMatchesStatus lease ref st b now staleThreshold := by
  cases lease with
  | none => rfl
  | some l => simp [leaseMatchesStatus, h, attemptKeyForStatus_eq h a b]

lemma checkIndexed_cases (clock : Clock) (s : State) (record : ActiveDistributedRun) :
    s.checkIndexed clock record = s ∨ s.checkIndexed clock record = s.deleteDistributedTracking record.attemptKey ∨
      ∃ run st, s.resolveLatestAttempt record.dagRun record.root = .ok (run, st) ∧
        indexedDistributedRunMatchesStatus record run.ref st ∧
        (s.checkIndexed clock record = s.upsertActiveDistributedRun clock.now run.ref st record.attemptID ∨
          s.checkIndexed clock record =
            s.markStatusLeaseRunFailed clock.text run.ref st record.attemptID record.attemptKey) := by
  unfold checkIndexed
  split_ifs
  · exact .inl rfl
  split
  · exact .inl rfl
  · exact .inr (.inl rfl)
  next run st hresolve =>
  split_ifs with hmatches
  · exact .inr (.inl rfl)
  · exact .inr (.inr ⟨run, st, hresolve, by simpa using hmatches, .inl rfl⟩)
  · exact .inr (.inr ⟨run, st, hresolve, by simpa using hmatches, .inr rfl⟩)

variable {x : DAGRunRef × RunStatus}

lemma mem_listStatuses (h : x ∈ s.listStatuses) :
    ∃ run ∈ s.runs, ∃ st, run.under = none ∧ run.today ∧ run.status = some st ∧
      (st.status = .running ∨ st.status = .notStarted) ∧ x = (run.ref, run.listed st) := by
  obtain ⟨run, hrun, hx⟩ := mem_filterMap.mp h
  split_ifs at hx with hlisted
  obtain ⟨st, hst, hx⟩ := Option.bind_eq_some_iff.mp hx
  split_ifs at hx with hactive
  cases hx
  exact ⟨run, hrun, st, hlisted.1, hlisted.2, hst, hactive, rfl⟩

lemma listStatuses_of_mem (hrun : run ∈ s.runs) (hroot : run.under = none)
    (htoday : run.today) (hst : run.status = some st) (hactive : st.status = .running ∨ st.status = .notStarted) :
    (run.ref, run.listed st) ∈ s.listStatuses := mem_filterMap.mpr ⟨run, hrun, by simp [hroot, htoday, hst, hactive]⟩

lemma checkListed_cases (clock : Clock) (s : State) (x : DAGRunRef × RunStatus) :
    s.checkListed clock x = s ∨ isRemoteWorkerID x.2.workerID ∧ ∃ attemptID, s.checkListed clock x =
      s.markStatusLeaseRunFailed clock.text x.1 x.2 attemptID (attemptKeyForStatus x.1 x.2 attemptID) := by
  unfold checkListed
  simp only
  split_ifs with hremote
  · exact .inl rfl
  split
  · exact .inl rfl
  next attemptID _ =>
  split_ifs
  · exact .inl rfl
  · exact .inl rfl
  · exact .inr ⟨by simpa using hremote, attemptID, rfl⟩

lemma Done.checkListed (h : Done run k s) (hx : x.2.status ≠ .failed) : Done run k (s.checkListed clock x) := by
  rcases checkListed_cases clock s x with heq | ⟨-, attemptID, heq⟩ <;> rw [heq]
  · exact h
  · exact h.fail (by simpa using hx.symm)

lemma leaseMatches_listed (hkey : attemptKeyForStatus run.ref (run.listed status) status.attemptID = run.key status)
    (hnamed : status.attemptID ≠ "")
    (h : leaseMatchesStatus lease run.ref status run.attemptID clock.now clock.staleThreshold) :
    leaseMatchesStatus lease run.ref (run.listed status) status.attemptID clock.now clock.staleThreshold := by
  cases lease with
  | none => simp [leaseMatchesStatus] at h
  | some l =>
    simp only [leaseMatchesStatus, hkey, attemptID_listed, workerID_listed, hnamed, if_false, Bool.and_eq_true] at h ⊢
    obtain ⟨⟨⟨⟨⟨hfresh, hlkey⟩, hid⟩, hdag⟩, hroot⟩, hworker⟩ := h
    refine ⟨⟨⟨⟨⟨hfresh, hlkey⟩, hid⟩, hdag⟩, ?_⟩, hworker⟩
    unfold listed
    split_ifs
    · simp [RunStatus.summary, isZero]
    · exact hroot

lemma Done.checkIndexed {x : String × ActiveDistributedRun} (hwf : s₀.WellFormed) (hrun : s₀.Attempt run status)
    (hx : x ∈ s₀.active.entries) (h : Done run (run.key status) s) : Done run (run.key status) (s.checkIndexed clock x.2) := by
  rcases checkIndexed_cases clock s x.2 with heq | heq | ⟨found, st, hresolve, hmatches, heq | heq⟩ <;> rw [heq]
  · exact h
  · exact h.delete
  · obtain ⟨hactive, hkey⟩ := matches_spec hmatches
    refine h.upsert fun hown => ?_
    -- The record of the run itself would have led to a failed status.
    have hown' : x.1 = run.key status := by rw [← hwf.activeKeys x hx, ← hkey, hown]
    obtain ⟨st', hmem, hfailed, -⟩ := h.failed
    obtain ⟨hdagRun, -, hroot⟩ := hwf.records run status hrun x hx hown'
    have hfound := resolve_record (hwf.ids run hrun.mem) h.distinct hmem hrun.root hdagRun hroot
    rw [hresolve] at hfound
    simp only [Except.ok.injEq, Prod.mk.injEq] at hfound
    rw [hfound.2, hfailed] at hactive
    simp at hactive
  · refine h.fail ?_
    rcases (matches_spec hmatches).1 with hactive | hactive <;> simp [hactive]

/-! ### The checks of a scan -/

variable (hwf : s₀.WellFormed) (hrun : s₀.Attempt run status) (h : Waits s₀ run (run.key status) s)
include hwf hrun h

section
variable {x : String × DAGRunLease}

lemma waits_checkLease (hx : x ∈ s₀.leases.entries)
    (hfresh : x.1 = run.key status → isFresh clock.now clock.staleThreshold x.2) :
    Waits s₀ run (run.key status) (s.checkLease clock x.2) := by
  unfold checkLease markLeaseRunFailed
  split_ifs with hstale
  · exact h
  have hne : x.1 ≠ run.key status := fun heq => hstale (hfresh heq)
  refine h.fail ?_ ?_
  · rw [hwf.leaseKeys x hx]
    exact hne.symm
  rintro ⟨-, href, -, st, hst, hattempt, -⟩
  cases hrun.reads.symm.trans hst
  exact hne ((hwf.leases run status hrun x hx).mpr ⟨href.symm, hattempt.symm⟩)

lemma done_checkLease (hlost : s₀.Lost clock run status) (hx : x ∈ s₀.leases.entries) (hkey : x.1 = run.key status) :
    Done run (run.key status) (s.checkLease clock x.2) := by
  obtain ⟨href, hattempt⟩ := (hwf.leases run status hrun x hx).mp hkey
  have hstale := hlost.stale x.2 (get?_eq_some.mpr (hkey ▸ hx))
  unfold checkLease markLeaseRunFailed
  rw [if_neg (by simp [hstale]), href, hattempt, hwf.leaseKeys x hx, hkey]
  refine h.hit hrun (hwf.ids run hrun.mem) ?_ (hwf.listed run status hrun).2
  rcases hlost.active with hstatus | hstatus <;> simp [hstatus]

end

section
variable {x : String × ActiveDistributedRun}

lemma waits_checkIndexed (hx : x ∈ s₀.active.entries) (hkey : x.1 ≠ run.key status) :
    Waits s₀ run (run.key status) (s.checkIndexed clock x.2) := by
  have hne : x.2.attemptKey ≠ run.key status := hwf.activeKeys x hx ▸ hkey
  rcases checkIndexed_cases clock s x.2 with heq | heq | ⟨found, st, hresolve, hmatches, heq | heq⟩ <;> rw [heq]
  · exact h
  · exact h.delete hne.symm
  · exact h.upsert
  · refine h.fail hne.symm ?_
    rintro ⟨-, href, -, st', hst', -, -⟩
    cases hrun.reads.symm.trans hst'
    obtain ⟨hmem, hst⟩ := resolveLatestAttempt_ok hresolve
    cases h.distinct.eq hmem h.mem href.symm
    cases hrun.reads.symm.trans hst
    exact hne ((matches_spec hmatches).2.symm.trans (attemptKeyForStatus_eq hrun.named _ _))

lemma resolve_own (hx : x ∈ s₀.active.entries) (hkey : x.1 = run.key status)
    (hremote : isRemoteWorkerID status.workerID) (hstatus : status.status = .running ∨ status.status = .notStarted) :
    s.resolveLatestAttempt x.2.dagRun x.2.root = .ok (run, status) ∧
      indexedDistributedRunMatchesStatus x.2 run.ref status := by
  obtain ⟨hdagRun, hattempt, hroot⟩ := hwf.records run status hrun x hx hkey
  have hrecordKey : x.2.attemptKey = run.key status := (hwf.activeKeys x hx).trans hkey
  have hself : {run with status := some status} = run := by rw [← hrun.reads]
  constructor
  · have := resolve_record (hwf.ids run hrun.mem) h.distinct (hself.symm ▸ h.mem) hrun.root hdagRun hroot
    rwa [hself] at this
  have hfallback : attemptKeyForStatus run.ref status status.attemptID = run.key status :=
    attemptKeyForStatus_eq hrun.named _ _
  simp [indexedDistributedRunMatchesStatus, hremote, hstatus, hattempt, hfallback, hrecordKey, (hwf.listed run status hrun).2]

lemma done_checkIndexed (hlost : s₀.Lost clock run status) (hx : x ∈ s₀.active.entries) (hkey : x.1 = run.key status) :
    Done run (run.key status) (s.checkIndexed clock x.2) := by
  obtain ⟨-, hattempt, -⟩ := hwf.records run status hrun x hx hkey
  obtain ⟨hresolve, hmatches⟩ := resolve_own hwf hrun h hx hkey hlost.remote hlost.active
  have hrecordKey : x.2.attemptKey = run.key status := (hwf.activeKeys x hx).trans hkey
  have hnonempty := (hwf.listed run status hrun).2
  have hlease : leaseMatchesStatus (s.leases.get? x.2.attemptKey) run.ref status x.2.attemptID clock.now
      clock.staleThreshold = false := by
    rw [hrecordKey, h.lease]
    exact leaseMatches_stale hlost.stale
  unfold checkIndexed markStatusLeaseRunFailed
  rw [if_neg (by rw [hrecordKey]; exact hnonempty), hresolve]
  simp only [hmatches, hlease, Bool.not_true, Bool.false_eq_true, if_false]
  rw [hattempt, hrecordKey]
  exact h.hit hrun (hwf.ids run hrun.mem) (by simp) hnonempty

lemma waits_checkIndexed_fresh (hx : x ∈ s₀.active.entries) (hremote : isRemoteWorkerID status.workerID)
    (hstatus : status.status = .running ∨ status.status = .notStarted)
    (hlease : leaseMatchesStatus (s₀.leases.get? (run.key status)) run.ref status run.attemptID clock.now
      clock.staleThreshold) :
    Waits s₀ run (run.key status) (s.checkIndexed clock x.2) := by
  by_cases hkey : x.1 = run.key status
  · obtain ⟨hresolve, hmatches⟩ := resolve_own hwf hrun h hx hkey hremote hstatus
    have hmatchesLease : leaseMatchesStatus (s.leases.get? x.2.attemptKey) run.ref status x.2.attemptID clock.now
        clock.staleThreshold := by
      rw [hwf.activeKeys x hx, hkey, h.lease, leaseMatchesStatus_eq hrun.named _ run.attemptID]
      exact hlease
    unfold checkIndexed
    split_ifs
    · exact h
    · simp only [hresolve, hmatches, hmatchesLease, Bool.not_true, Bool.false_eq_true, if_false, if_true]
      exact h.upsert
  · exact waits_checkIndexed hwf hrun h hx hkey

end

lemma waits_checkListed {run' : StoredRun} {status'} (hrun' : run' ∈ s₀.runs) (hroot : run'.under = none)
    (hstatus' : run'.status = some status') (hne : run' ≠ run) :
    Waits s₀ run (run.key status) (s.checkListed clock (run'.ref, run'.listed status')) := by
  rcases checkListed_cases clock s (run'.ref, run'.listed status') with heq | ⟨-, attemptID, heq⟩ <;> rw [heq]
  · exact h
  refine h.fail (fun hkey => ?_) ?_
  · exact hne (hwf.keys run' hrun' hroot status' hstatus' run status hrun attemptID hkey.symm)
  · rintro ⟨-, href, -⟩
    exact hne (hwf.distinct.eq hrun' hrun.mem href.symm)

lemma done_checkListed (hlost : s₀.Lost clock run status) :
    Done run (run.key status) (s.checkListed clock (run.ref, run.listed status)) := by
  obtain ⟨hkey, hnonempty⟩ := hwf.listed run status hrun
  have hresolve : s.resolveAttemptIDForStatus run.ref (run.listed status) = .ok status.attemptID := by
    simp [resolveAttemptIDForStatus, attemptID_listed, hrun.named]
  have hlease : leaseMatchesStatus (s.leases.get? (run.key status)) run.ref (run.listed status) status.attemptID
      clock.now clock.staleThreshold = false := by
    rw [h.lease]
    exact leaseMatches_stale hlost.stale
  unfold checkListed markStatusLeaseRunFailed
  simp only [workerID_listed, hlost.remote, hresolve, hkey, hnonempty, hlease, status_listed, Bool.not_true,
    Bool.false_eq_true, if_false]
  exact h.hit hrun (hwf.ids run hrun.mem) (by simp) hnonempty

lemma waits_checkListed_fresh (hlease : leaseMatchesStatus (s₀.leases.get? (run.key status)) run.ref status run.attemptID clock.now
      clock.staleThreshold) :
    Waits s₀ run (run.key status) (s.checkListed clock (run.ref, run.listed status)) := by
  obtain ⟨hkey, hnonempty⟩ := hwf.listed run status hrun
  have hresolve : s.resolveAttemptIDForStatus run.ref (run.listed status) = .ok status.attemptID := by
    simp [resolveAttemptIDForStatus, attemptID_listed, hrun.named]
  have hmatches : leaseMatchesStatus (s.leases.get? (run.key status)) run.ref (run.listed status) status.attemptID
      clock.now clock.staleThreshold := by
    rw [h.lease]
    exact leaseMatches_listed hkey hrun.named hlease
  unfold checkListed
  simp only [hresolve, hkey, hnonempty, hmatches, if_false, if_true]
  split_ifs <;> exact h

end

/-! ### One pass -/

/-- The attempts that a scan comes to: those of root runs, with their ID in the status, that are listed or
have a record or a lease. -/
structure Found (run : StoredRun) (status : RunStatus) : Prop where
  root : run.under = none
  named : status.attemptID ≠ ""
  scanned : run.today ∨ (s.active.get? (run.key status)).isSome ∨ (s.leases.get? (run.key status)).isSome

section
variable {clock : Clock} {s₀ s : State} {run : StoredRun} {status : RunStatus}

def scanLeases (clock : Clock) (s : State) : State := (s.leases.entries.map Prod.snd).foldl (checkLease clock) s

lemma waits_start (hwf : s₀.WellFormed) (hrun : s₀.Attempt run status) : Waits s₀ run (run.key status) s₀ :=
  ⟨hwf.distinct, fun _ h => .inl h, hrun.mem, rfl⟩

lemma active_scanLeases_subset : (scanLeases clock s₀).active.entries ⊆ s₀.active.entries :=
  foldlRecOn (motive := fun t : State => t.active.entries ⊆ s₀.active.entries) _ _ (List.Subset.refl _)
    fun _ h lease _ => List.Subset.trans (active_checkLease_subset lease) h

lemma waits_scanLeases (clock : Clock) (hwf : s₀.WellFormed) (hrun : s₀.Attempt run status)
    (hfresh : ∀ l, s₀.leases.get? (run.key status) = some l → isFresh clock.now clock.staleThreshold l) :
    Waits s₀ run (run.key status) (scanLeases clock s₀) ∧
      (scanLeases clock s₀).active.get? (run.key status) = s₀.active.get? (run.key status) := by
  refine foldlRecOn (motive := fun t : State => Waits s₀ run (run.key status) t ∧
    t.active.get? (run.key status) = s₀.active.get? (run.key status)) _ _ ⟨waits_start hwf hrun, rfl⟩ ?_
  rintro t ⟨hwaits, hactive⟩ lease hlease
  obtain ⟨x, hx, rfl⟩ := mem_map.mp hlease
  have hown : x.1 = run.key status → isFresh clock.now clock.staleThreshold x.2 :=
    fun hkey => hfresh x.2 (get?_eq_some.mpr (hkey ▸ hx))
  exact ⟨waits_checkLease hwf hrun hwaits hx hown, (active_checkLease hwf hx hown).trans hactive⟩

section
variable (hwf : s₀.WellFormed) (hrun : s₀.Attempt run status)
include hwf hrun

lemma done_scanLeases (hlost : s₀.Lost clock run status) {l} (hl : s₀.leases.get? (run.key status) = some l) :
    Done run (run.key status) (scanLeases clock s₀) := by
  have hmem : (run.key status, l) ∈ s₀.leases.entries := get?_eq_some.mp hl
  refine foldl_reaches (P := Waits s₀ run (run.key status)) (mem_map_of_mem hmem) (.inl (waits_start hwf hrun))
    (fun t lease hlease hwaits => ?_) (fun t lease _ hdone => hdone.checkLease lease)
    fun t hwaits => done_checkLease hwf hrun hwaits hlost hmem rfl
  obtain ⟨x, hx, rfl⟩ := mem_map.mp hlease
  by_cases hkey : x.1 = run.key status
  · exact .inr (done_checkLease hwf hrun hwaits hlost hx hkey)
  · exact .inl (waits_checkLease hwf hrun hwaits hx fun heq => absurd heq hkey)

lemma Done.indexed (hsubset : s.active.entries ⊆ s₀.active.entries) (h : Done run (run.key status) s) :
    Done run (run.key status) (s.detectIndexedDistributedStatuses clock) := by
  refine foldlRecOn (motive := Done run (run.key status)) _ _ h fun t hdone record hrecord => ?_
  obtain ⟨x, hx, rfl⟩ := mem_map.mp hrecord
  exact hdone.checkIndexed hwf hrun (hsubset hx)

lemma done_indexed (hlost : s₀.Lost clock run status) (hsubset : s.active.entries ⊆ s₀.active.entries) {record}
    (hrecord : s.active.get? (run.key status) = some record) (h : Waits s₀ run (run.key status) s) :
    Done run (run.key status) (s.detectIndexedDistributedStatuses clock) := by
  have hmem : (run.key status, record) ∈ s.active.entries := get?_eq_some.mp hrecord
  refine foldl_reaches (P := Waits s₀ run (run.key status)) (mem_map_of_mem hmem) (.inl h)
    (fun t y hy hwaits => ?_) (fun t y hy hdone => ?_)
    fun t hwaits => done_checkIndexed hwf hrun hwaits hlost (hsubset hmem) rfl
  · obtain ⟨x, hx, rfl⟩ := mem_map.mp hy
    by_cases hkey : x.1 = run.key status
    · exact .inr (done_checkIndexed hwf hrun hwaits hlost (hsubset hx) hkey)
    · exact .inl (waits_checkIndexed hwf hrun hwaits (hsubset hx) hkey)
  · obtain ⟨x, hx, rfl⟩ := mem_map.mp hy
    exact hdone.checkIndexed hwf hrun (hsubset hx)

end

variable {x : DAGRunRef × RunStatus}

lemma Waits.listed {k} (h : Waits s₀ run k s) (hx : x ∈ s.listStatuses) :
    ∃ run' ∈ s₀.runs, ∃ st, run' ∈ s.runs ∧ run'.under = none ∧ run'.today ∧ run'.status = some st ∧
      x = (run'.ref, run'.listed st) := by
  obtain ⟨run', hrun', st, hroot, htoday, hst, hactive, rfl⟩ := mem_listStatuses hx
  rcases h.origin run' hrun' with horigin | ⟨st', hst', hfailed⟩
  · exact ⟨run', horigin, st, hrun', hroot, htoday, hst, rfl⟩
  · cases hst.symm.trans hst'
    simp [hfailed] at hactive

lemma Done.orphaned {k} (h : Done run k s) : Done run k (s.detectOrphanedDistributedStatuses clock) := by
  refine foldlRecOn (motive := Done run k) _ _ h fun t hdone x hx => hdone.checkListed ?_
  obtain ⟨run', -, st, -, -, -, hactive, rfl⟩ := mem_listStatuses hx
  rw [status_listed]
  rcases hactive with hactive | hactive <;> simp [hactive]

section
variable (hwf : s₀.WellFormed) (hrun : s₀.Attempt run status)
include hwf hrun

lemma done_orphaned (hlost : s₀.Lost clock run status) (htoday : run.today) (h : Waits s₀ run (run.key status) s) :
    Done run (run.key status) (s.detectOrphanedDistributedStatuses clock) := by
  have hmem := listStatuses_of_mem h.mem hrun.root htoday hrun.reads hlost.active
  have hown := fun (t : State) (hwaits : Waits s₀ run (run.key status) t) => done_checkListed hwf hrun hwaits hlost
  refine foldl_reaches (P := Waits s₀ run (run.key status)) hmem (.inl h) (fun t x hx hwaits => ?_)
    (fun t x hx hdone => hdone.checkListed ?_) hown
  · obtain ⟨run', horigin, st, -, hroot, -, hst, rfl⟩ := h.listed hx
    by_cases hsame : run' = run
    · subst hsame
      cases hst.symm.trans hrun.reads
      exact .inr (hown t hwaits)
    · exact .inl (waits_checkListed hwf hrun hwaits horigin hroot hst hsame)
  · obtain ⟨run', -, st, -, -, -, hactive, rfl⟩ := mem_listStatuses hx
    rw [status_listed]
    rcases hactive with hactive | hactive <;> simp [hactive]

lemma waits_indexed (hsubset : s.active.entries ⊆ s₀.active.entries)
    (hown : ∀ x ∈ s.active.entries, x.1 = run.key status → ∀ t, Waits s₀ run (run.key status) t →
      Waits s₀ run (run.key status) (t.checkIndexed clock x.2)) (h : Waits s₀ run (run.key status) s) :
    Waits s₀ run (run.key status) (s.detectIndexedDistributedStatuses clock) := by
  refine foldlRecOn (motive := Waits s₀ run (run.key status)) _ _ h fun t hwaits record hrecord => ?_
  obtain ⟨x, hx, rfl⟩ := mem_map.mp hrecord
  by_cases hkey : x.1 = run.key status
  · exact hown x hx hkey t hwaits
  · exact waits_checkIndexed hwf hrun hwaits (hsubset hx) hkey

lemma waits_orphaned (hown : run.today → ∀ t, Waits s₀ run (run.key status) t →
      Waits s₀ run (run.key status) (t.checkListed clock (run.ref, run.listed status)))
    (h : Waits s₀ run (run.key status) s) :
    Waits s₀ run (run.key status) (s.detectOrphanedDistributedStatuses clock) := by
  refine foldlRecOn (motive := Waits s₀ run (run.key status)) _ _ h fun t hwaits x hx => ?_
  obtain ⟨run', horigin, st, -, hroot, htoday, hst, rfl⟩ := h.listed hx
  by_cases hsame : run' = run
  · subst hsame
    cases hst.symm.trans hrun.reads
    exact hown htoday t hwaits
  · exact waits_checkListed hwf hrun hwaits horigin hroot hst hsame

lemma done_pass (hlost : s₀.Lost clock run status)
    (hfound : s₀.Found run status) : Done run (run.key status) (s₀.detectStaleLeases clock) := by
  have hsubset : (scanLeases clock s₀).active.entries ⊆ s₀.active.entries := active_scanLeases_subset
  cases hlease : s₀.leases.get? (run.key status) with
  | some l => exact ((done_scanLeases hwf hrun hlost hlease).indexed hwf hrun hsubset).orphaned
  | none =>
    obtain ⟨hwaits, hactive⟩ := waits_scanLeases clock hwf hrun (by simp [hlease])
    cases hrecord : s₀.active.get? (run.key status) with
    | some record => exact (done_indexed hwf hrun hlost hsubset (hactive.trans hrecord) hwaits).orphaned
    | none =>
      have htoday : run.today := by simpa [hlease, hrecord] using hfound.scanned
      refine done_orphaned hwf hrun hlost htoday (waits_indexed hwf hrun hsubset (fun x hx hkey => ?_) hwaits)
      exact absurd (hkey ▸ mem_names_of_mem hx) (get?_eq_none.mp (hactive.trans hrecord))

lemma mem_pass_of_not_found (hfound : ¬ s₀.Found run status) : run ∈ (s₀.detectStaleLeases clock).runs := by
  have hmissed : ¬ (run.today ∨ (s₀.active.get? (run.key status)).isSome ∨
      (s₀.leases.get? (run.key status)).isSome) := fun h => hfound ⟨hrun.root, hrun.named, h⟩
  simp only [not_or, Option.not_isSome_iff_eq_none] at hmissed
  obtain ⟨htoday, hrecord, hlease⟩ := hmissed
  obtain ⟨hwaits, hactive⟩ := waits_scanLeases clock hwf hrun (by simp [hlease])
  refine (waits_orphaned hwf hrun (fun h => absurd h htoday)
    (waits_indexed hwf hrun active_scanLeases_subset (fun x hx hkey => ?_) hwaits)).mem
  exact absurd (hkey ▸ mem_names_of_mem hx) (get?_eq_none.mp (hactive.trans hrecord))

lemma mem_pass_of_fresh (hremote : isRemoteWorkerID status.workerID)
    (hstatus : status.status = .running ∨ status.status = .notStarted)
    (hlease : leaseMatchesStatus (s₀.leases.get? (run.key status)) run.ref status run.attemptID clock.now
      clock.staleThreshold) : run ∈ (s₀.detectStaleLeases clock).runs := by
  have hfresh := fresh_of_matches hlease
  obtain ⟨hwaits, -⟩ := waits_scanLeases clock hwf hrun hfresh
  refine (waits_orphaned hwf hrun (fun _ t ht => waits_checkListed_fresh hwf hrun ht hlease)
    (waits_indexed hwf hrun active_scanLeases_subset (fun x hx _ t ht => ?_) hwaits)).mem
  exact waits_checkIndexed_fresh hwf hrun ht (active_scanLeases_subset hx) hremote hstatus hlease

end

/-! ### Runs that the last two scans do not fail -/

def Safe (run : StoredRun) : Prop :=
  ∀ status, run.status = some status → run.under = none → status.attemptID ≠ "" →
    isRemoteWorkerID status.workerID → ¬ (status.status = .running ∨ status.status = .notStarted)

lemma matches_remote {record ref} {st : RunStatus}
    (h : indexedDistributedRunMatchesStatus record ref st) : isRemoteWorkerID st.workerID := by
  simp only [indexedDistributedRunMatchesStatus, Bool.and_eq_true] at h
  exact h.1.1.1.1

lemma mem_checkIndexed (hsafe : Safe run) (record : ActiveDistributedRun) (h : s.Distinct ∧ run ∈ s.runs) :
    (s.checkIndexed clock record).Distinct ∧ run ∈ (s.checkIndexed clock record).runs := by
  rcases checkIndexed_cases clock s record with heq | heq | ⟨found, st, hresolve, hmatches, heq | heq⟩ <;> rw [heq]
  · exact h
  · simpa only [Distinct, runs_delete] using h
  · rcases upsert_cases s clock.now found.ref st record.attemptID with heq | ⟨record, heq⟩ <;> rw [heq] <;> exact h
  · refine ⟨h.1.fail, mem_fail h.1 h.2 ?_⟩
    rintro ⟨hroot, href, hne, st', hst', hattempt, -⟩
    obtain ⟨hmem, hst⟩ := resolveLatestAttempt_ok hresolve
    cases h.1.eq hmem h.2 href.symm
    cases hst'.symm.trans hst
    exact hsafe _ hst hroot (hattempt ▸ hne) (matches_remote hmatches) (matches_spec hmatches).1

lemma mem_checkListed (hsafe : Safe run) {first : State}
    (hfirst : first.Distinct ∧ run ∈ first.runs) (hx : x ∈ first.listStatuses) (h : s.Distinct ∧ run ∈ s.runs) :
    (s.checkListed clock x).Distinct ∧ run ∈ (s.checkListed clock x).runs := by
  rcases checkListed_cases clock s x with heq | ⟨hremote, attemptID, heq⟩ <;> rw [heq]
  · exact h
  refine ⟨h.1.fail, mem_fail h.1 h.2 ?_⟩
  rintro ⟨hroot, href, hne, st', hst', hattempt, -⟩
  obtain ⟨run', hrun', st, -, -, hst, hactive, rfl⟩ := mem_listStatuses hx
  cases hfirst.1.eq hrun' hfirst.2 href.symm
  cases hst.symm.trans hst'
  rw [workerID_listed] at hremote
  exact hsafe _ hst hroot (hattempt ▸ hne) hremote hactive

lemma distinct_pass (hd : s₀.Distinct) : (s₀.detectStaleLeases clock).Distinct := by
  refine foldlRecOn (motive := Distinct) _ _ (foldlRecOn (motive := Distinct) _ _
    (foldlRecOn (motive := Distinct) _ _ hd fun t ht lease _ => ?_) fun t ht record _ => ?_) fun t ht x _ => ?_
  · unfold checkLease markLeaseRunFailed
    split_ifs
    · exact ht
    · exact ht.fail
  · rcases checkIndexed_cases clock t record with heq | heq | ⟨found, st, -, -, heq | heq⟩ <;> rw [heq]
    · exact ht
    · exact ht.delete
    · rcases upsert_cases t clock.now found.ref st record.attemptID with heq | ⟨record, heq⟩ <;> rw [heq] <;> exact ht
    · exact ht.fail
  · rcases checkListed_cases clock t x with heq | ⟨-, attemptID, heq⟩ <;> rw [heq]
    · exact ht
    · exact ht.fail

lemma mem_of_safe (hsafe : Safe run) (h : s.Distinct ∧ run ∈ s.runs) :
    run ∈ ((s.detectIndexedDistributedStatuses clock).detectOrphanedDistributedStatuses clock).runs := by
  have hindexed : (s.detectIndexedDistributedStatuses clock).Distinct ∧
      run ∈ (s.detectIndexedDistributedStatuses clock).runs :=
    foldlRecOn (motive := fun t : State => t.Distinct ∧ run ∈ t.runs) _ _ h fun t ht record _ =>
      mem_checkIndexed hsafe record ht
  exact (foldlRecOn (motive := fun t : State => t.Distinct ∧ run ∈ t.runs) _ _ hindexed fun t ht x hx =>
    mem_checkListed hsafe hindexed hx ht).2

lemma mem_pass_of_unnamed (hd : s₀.Distinct) (hmem : run ∈ s₀.runs) (hst : run.status = some status)
    (hunnamed : ¬ (run.under = none ∧ status.attemptID ≠ "")) : run ∈ (s₀.detectStaleLeases clock).runs := by
  have hsafe : Safe run := fun st hst' hroot hne => by
    cases hst.symm.trans hst'
    exact absurd ⟨hroot, hne⟩ hunnamed
  refine mem_of_safe hsafe (foldlRecOn (motive := fun t : State => t.Distinct ∧ run ∈ t.runs) _ _
    ⟨hd, hmem⟩ fun t ht lease _ => ?_)
  unfold checkLease markLeaseRunFailed
  split_ifs
  · exact ht
  refine ⟨ht.1.fail, mem_fail ht.1 ht.2 ?_⟩
  rintro ⟨hroot, -, hne, st, hst', hattempt, -⟩
  cases hst.symm.trans hst'
  exact hunnamed ⟨hroot, hattempt ▸ hne⟩

/-! ### The whole pass -/

/-- What a pass is for: lost attempts are failed with all their nodes and handlers and lose their tracking, and attempts
with a fresh matching lease stay as they are. -/
structure Repaired (clock : Clock) (s t : State) : Prop where
  failed : ∀ run ∈ s.runs, ∀ status, run.status = some status → s.Lost clock run status →
    ∃ st, {run with status := some st} ∈ t.runs ∧ st.status = .failed ∧ Over (st.nodes++st.handlers) ∧
      t.leases.get? (run.key status) = none ∧ t.active.get? (run.key status) = none
  kept : ∀ run ∈ s.runs, ∀ status, run.status = some status →
    leaseMatchesStatus (s.leases.get? (run.key status)) run.ref status run.attemptID clock.now
      clock.staleThreshold → run ∈ t.runs

lemma kept_of_matches (hwf : s₀.WellFormed) (hmem : run ∈ s₀.runs) (hst : run.status = some status)
    (hlease : leaseMatchesStatus (s₀.leases.get? (run.key status)) run.ref status run.attemptID clock.now
      clock.staleThreshold) : run ∈ (s₀.detectStaleLeases clock).runs := by
  by_cases hnamed : run.under = none ∧ status.attemptID ≠ ""
  · have hrun : s₀.Attempt run status := ⟨hmem, hnamed.1, hst, hnamed.2⟩
    by_cases htarget : isRemoteWorkerID status.workerID ∧ (status.status = .running ∨ status.status = .notStarted)
    · exact mem_pass_of_fresh hwf hrun htarget.1 htarget.2 hlease
    obtain ⟨hwaits, -⟩ := waits_scanLeases clock hwf hrun (fresh_of_matches hlease)
    refine mem_of_safe (fun st hst' _ _ hremote hactive => ?_) ⟨hwaits.distinct, hwaits.mem⟩
    cases hst.symm.trans hst'
    exact htarget ⟨hremote, hactive⟩
  · exact mem_pass_of_unnamed hwf.distinct hmem hst hnamed

/-- Where leases and records name their attempts, one pass does what it is for exactly if a scan comes to
every lost attempt and no handler of one is running, waiting or not started. -/
theorem repaired_iff_found (clock : Clock) {s : State} (hwf : s.WellFormed) :
    s.Repaired clock (s.detectStaleLeases clock) ↔ ∀ run ∈ s.runs, ∀ status, run.status = some status →
      s.Lost clock run status → s.Found run status ∧ Over status.handlers := by
  have hdistinct : (s.detectStaleLeases clock).Distinct := distinct_pass hwf.distinct
  constructor
  · intro hrepaired run hmem status hst hlost
    obtain ⟨st, hmem', hfailed, hover, -⟩ := hrepaired.failed run hmem status hst hlost
    by_cases hfound : s.Found run status
    · refine ⟨hfound, ?_⟩
      obtain ⟨st', hmem'', -, -, hhandlers⟩ := (done_pass hwf ⟨hmem, hfound.root, hst, hfound.named⟩ hlost hfound).failed
      cases hdistinct.eq hmem' hmem'' rfl
      rw [← hhandlers status hst]
      exact fun node hnode => hover node (mem_append_right _ hnode)
    exfalso
    have hkept : run ∈ (s.detectStaleLeases clock).runs := by
      by_cases hnamed : run.under = none ∧ status.attemptID ≠ ""
      · exact mem_pass_of_not_found hwf ⟨hmem, hnamed.1, hst, hnamed.2⟩ hfound
      · exact mem_pass_of_unnamed hwf.distinct hmem hst hnamed
    have heq := hdistinct.eq hmem' hkept rfl
    rw [← heq] at hst
    cases hst
    rcases hlost.active with hactive | hactive <;> simp [hfailed] at hactive
  · intro hfound
    refine ⟨fun run hmem status hst hlost => ?_, fun run hmem status hst hlease => ?_⟩
    · obtain ⟨hscanned, hhandlers⟩ := hfound run hmem status hst hlost
      have hdone := done_pass hwf ⟨hmem, hscanned.root, hst, hscanned.named⟩ hlost hscanned
      obtain ⟨st, hmem', hfailed, hnodes, hsame⟩ := hdone.failed
      have htracking := hdone.tracking
      simp only [State.tracking, Prod.mk.injEq] at htracking
      rw [← hsame status hst] at hhandlers
      exact ⟨st, hmem', hfailed, forall_mem_append.mpr ⟨hnodes, hhandlers⟩, htracking⟩
    · exact kept_of_matches hwf hmem hst hlease

def tracked : State where
  runs :=
    [⟨⟨"a", "1"⟩, none, "x", false, false, some ⟨⟨"a", "1"⟩, ⟨"", ""⟩, "x", "kx", "w", .running, "", "", [⟨.running, "", ""⟩], []⟩⟩,
      ⟨⟨"b", "2"⟩, none, "y", true, false, some ⟨⟨"b", "2"⟩, ⟨"", ""⟩, "y", "ky", "w", .running, "", "", [], []⟩⟩]
  leases :=
    ⟨[("kx", ⟨"kx", ⟨"a", "1"⟩, ⟨"a", "1"⟩, "x", "q", "w", ⟨"", "", 0⟩, 0, 1⟩),
      ("ky", ⟨"ky", ⟨"b", "2"⟩, ⟨"b", "2"⟩, "y", "q", "w", ⟨"", "", 0⟩, 0, 99⟩)], by decide⟩
  active := ⟨[("ky", ⟨"ky", ⟨"b", "2"⟩, ⟨"b", "2"⟩, "y", "w", .running, 0⟩)], by decide⟩

lemma tracked_attempt {run status} (h : tracked.Attempt run status) :
    run = ⟨⟨"a", "1"⟩, none, "x", false, false, some status⟩ ∧
        status = ⟨⟨"a", "1"⟩, ⟨"", ""⟩, "x", "kx", "w", .running, "", "", [⟨.running, "", ""⟩], []⟩ ∨
      run = ⟨⟨"b", "2"⟩, none, "y", true, false, some status⟩ ∧
        status = ⟨⟨"b", "2"⟩, ⟨"", ""⟩, "y", "ky", "w", .running, "", "", [], []⟩ := by
  have hmem := h.mem
  have hreads := h.reads
  simp only [tracked, mem_cons, not_mem_nil, or_false] at hmem
  rcases hmem with rfl | rfl <;> cases hreads
  · exact .inl ⟨rfl, rfl⟩
  · exact .inr ⟨rfl, rfl⟩

lemma tracked_wellFormed : tracked.WellFormed where
  distinct := by
    unfold Distinct
    decide
  ids := by decide
  leaseKeys := by decide
  activeKeys := by decide
  keys := by
    intro run hmem hroot status hst run' status' hrun' a hkey
    have hrun : tracked.Attempt run status := by
      refine ⟨hmem, hroot, hst, ?_⟩
      simp only [tracked, mem_cons, not_mem_nil, or_false] at hmem
      rcases hmem with rfl | rfl <;> cases hst <;> decide
    rcases tracked_attempt hrun with ⟨rfl, rfl⟩ | ⟨rfl, rfl⟩ <;>
      rcases tracked_attempt hrun' with ⟨rfl, rfl⟩ | ⟨rfl, rfl⟩ <;> first | rfl | simp [attemptKeyForStatus, listed, key] at hkey
  listed := by
    intro run status hrun
    rcases tracked_attempt hrun with ⟨rfl, rfl⟩ | ⟨rfl, rfl⟩ <;> decide
  leases := by
    intro run status hrun
    rcases tracked_attempt hrun with ⟨rfl, rfl⟩ | ⟨rfl, rfl⟩ <;> decide
  records := by
    intro run status hrun
    rcases tracked_attempt hrun with ⟨rfl, rfl⟩ | ⟨rfl, rfl⟩ <;> decide

/-- The lost attempt is found by its lease. -/
theorem repaired_iff_found_tracked : tracked.Repaired ⟨100, "now", 10⟩ (tracked.detectStaleLeases ⟨100, "now", 10⟩) := by
  refine (repaired_iff_found ⟨100, "now", 10⟩ tracked_wellFormed).mpr fun run hmem status hst hlost => ?_
  simp only [tracked, mem_cons, not_mem_nil, or_false] at hmem
  rcases hmem with rfl | rfl <;> cases hst <;> exact ⟨⟨rfl, by decide, by decide⟩, by simp [Over]⟩

def orphanedSubRun : State where
  runs :=
    [⟨⟨"a", "1"⟩, none, "x", true, false, some ⟨⟨"a", "1"⟩, ⟨"", ""⟩, "x", "kx", "local", .running, "", "", [], []⟩⟩,
      ⟨⟨"b", "2"⟩, some ⟨"a", "1"⟩, "y", true, false,
        some ⟨⟨"a", "1"⟩, ⟨"a", "1"⟩, "y", "ky", "w", .running, "", "", [⟨.running, "", ""⟩], []⟩⟩]
  leases := ⟨[("ky", ⟨"ky", ⟨"b", "2"⟩, ⟨"a", "1"⟩, "y", "q", "w", ⟨"", "", 0⟩, 0, 1⟩)], by decide⟩
  active := ⟨[("ky", ⟨"ky", ⟨"b", "2"⟩, ⟨"a", "1"⟩, "y", "w", .running, 0⟩)], by decide⟩

/-- The swap looks for a sub-DAG run among the root runs, so it is never failed. -/
theorem subRun_not_repaired : ¬ ∀ (clock : Clock) (s : State), s.Repaired clock (s.detectStaleLeases clock) := by
  intro h
  obtain ⟨st, hmem, hfailed, -⟩ := (h ⟨100, "now", 10⟩ orphanedSubRun).failed
    ⟨⟨"b", "2"⟩, some ⟨"a", "1"⟩, "y", true, false,
      some ⟨⟨"a", "1"⟩, ⟨"a", "1"⟩, "y", "ky", "w", .running, "", "", [⟨.running, "", ""⟩], []⟩⟩ (by decide) _ rfl
    ⟨.inl rfl, by decide, by decide⟩
  have hruns : (orphanedSubRun.detectStaleLeases ⟨100, "now", 10⟩).runs = orphanedSubRun.runs := by decide +kernel
  rw [hruns] at hmem
  simp only [orphanedSubRun, mem_cons, not_mem_nil, or_false, StoredRun.mk.injEq] at hmem
  rcases hmem with hmem | hmem
  · simp at hmem
  simp only [Option.some.injEq] at hmem
  rw [hmem.2.2.2.2.2] at hfailed
  cases hfailed

end
end State
end Ayatsuri.LeaseRepair
