import Ayatsuri.Directory

/-! The file stores that coordinators share (`internal/persis/filedistributed`): dispatch tasks, which are
pending or claimed, and the leases of distributed attempts. Every record is a JSON file that is written to
a temporary file of the same directory and renamed. -/
namespace Ayatsuri.Distributed

structure CoordinatorEndpoint where
  (id host : String)
  port : ℤ
  deriving DecidableEq

structure Task where
  (queueName attemptKey : String)
  workerSelector : List (String × String)
  (ownerCoordinatorId ownerCoordinatorHost : String)
  ownerCoordinatorPort : ℤ
  (claimToken workerId : String)
  deriving DecidableEq

structure DispatchTaskFile where
  task : Option Task
  taskFileName : String
  enqueuedAt : ℤ
  claimToken : String
  claimedAt : ℤ
  (workerID pollerID : String)
  owner : CoordinatorEndpoint
  deriving DecidableEq

structure DAGRunRef where
  (name id : String)
  deriving DecidableEq

structure DAGRunLease where
  attemptKey : String
  (dagRun root : DAGRunRef)
  (attemptID queueName workerID : String)
  owner : CoordinatorEndpoint
  (claimedAt lastHeartbeatAt : ℤ)
  deriving DecidableEq

inductive Content (α : Type)
  | whole (value : α)
  | fragment
  deriving DecidableEq

structure File (α : Type) where
  content : Content α
  modTime : ℤ
  deriving DecidableEq

structure Store where
  (pending claims : Dir String (File DispatchTaskFile))
  leases : Dir String (File DAGRunLease)

/-! ### Writing and reading files -/

/-- How far a process gets with writing a file: it dies before it creates the temporary file, when this
is empty or partly or fully written, or not before it has been renamed. -/
inductive Stage
  | before | created | partly | written | renamed
  deriving DecidableEq

def writeJSONAtomic {α : Type} (d : Dir String (File α)) (path temp : String) (value : α) (now : ℤ) : Stage → Dir String (File α)
  | .before => d
  | .created | .partly => d.put temp ⟨.fragment, now⟩
  | .written => d.put temp ⟨.whole value, now⟩
  | .renamed => d.put path ⟨.whole value, now⟩

def readJSONFile {α : Type} (f : File α) : Except String α :=
  match f.content with
  | .whole value => .ok value
  | .fragment => .error "decode json: unexpected end of JSON input"

/-! ### Tasks -/

variable (task : Task)

def clearTaskClaim : Task :=
  {task with
    ownerCoordinatorId := ""
    ownerCoordinatorHost := ""
    ownerCoordinatorPort := 0
    claimToken := ""
    workerId := ""}

def maxInt32 : ℤ := 2147483647

def Task.claimedBy (owner : CoordinatorEndpoint) (claimToken : String) : Task :=
  {task with
    ownerCoordinatorId := owner.id
    ownerCoordinatorHost := owner.host
    ownerCoordinatorPort := owner.port
    claimToken := claimToken}

def applyTaskClaim (owner : CoordinatorEndpoint) (claimToken : String) : Except String Task :=
  if owner.port < 0 ∨ maxInt32 < owner.port then .error ("owner coordinator port out of range: " ++ toString owner.port)
  else .ok (task.claimedBy owner claimToken)

def matchesSelector (workerLabels selector : List (String × String)) : Bool :=
  selector.all fun (key, value) => (workerLabels.lookup key).getD "" = value

namespace DispatchTaskFile

def claimedBy (r : DispatchTaskFile) (task : Task) (workerID pollerID : String) (owner : CoordinatorEndpoint)
    (claimToken : String) (now : ℤ) : DispatchTaskFile :=
  {r with
    task := some (task.claimedBy owner claimToken)
    claimToken := claimToken
    claimedAt := now
    workerID := workerID
    pollerID := pollerID
    owner := owner}

def cleared (r : DispatchTaskFile) : DispatchTaskFile :=
  {r with
    task := r.task.map clearTaskClaim
    claimToken := ""
    claimedAt := 0
    workerID := ""
    pollerID := ""
    owner := ⟨"", "", 0⟩}

def inQueue (queueName : String) (r : DispatchTaskFile) : Bool :=
  r.task.any fun task => queueName = "" || task.queueName = queueName

def ofAttempt (attemptKey : String) (r : DispatchTaskFile) : Bool := r.task.any fun task => task.attemptKey = attemptKey

def suits (workerLabels : List (String × String)) (r : DispatchTaskFile) : Bool :=
  r.task.any fun task => matchesSelector workerLabels task.workerSelector

end DispatchTaskFile

def claimTimeoutOf (claimTimeout : ℤ) : ℤ := if claimTimeout ≤ 0 then 30000 else claimTimeout

def claimTime (r : DispatchTaskFile) (modTime : ℤ) : ℤ := if 0 < r.claimedAt then r.claimedAt else modTime

def isExpired (now claimTimeout : ℤ) (f : File DispatchTaskFile) : Bool :=
  match f.content with
  | .whole r => claimTimeoutOf claimTimeout ≤ now - claimTime r f.modTime
  | .fragment => false

structure DispatchTaskClaim where
  (workerID pollerID : String)
  owner : CoordinatorEndpoint
  labels : List (String × String)
  claimTimeout : ℤ
  deriving DecidableEq

structure ClaimedDispatchTask where
  task : Task
  claimToken : String
  claimedAt : ℤ
  (workerID pollerID : String)
  owner : CoordinatorEndpoint
  deriving DecidableEq

namespace Store

def requeue (s : Store) (claimPath : String) (r : DispatchTaskFile) (now : ℤ) : Store :=
  {s with
    claims := (s.claims.put claimPath ⟨.whole r.cleared, now⟩).remove claimPath
    pending := s.pending.put r.taskFileName ⟨.whole r.cleared, now⟩}

def recycleClaim (now claimTimeout : ℤ) (s : Store) (x : String × File DispatchTaskFile) : Except String Store := do
  let r ← readJSONFile x.2
  if now - claimTime r x.2.modTime < claimTimeoutOf claimTimeout then return s
  return s.requeue x.1 r now

def recycleExpiredClaims (s : Store) (now claimTimeout : ℤ) : Except String Store :=
  s.claims.sorted.foldlM (recycleClaim now claimTimeout) s

def findTask (labels : List (String × String)) :
    List (String × File DispatchTaskFile) → Except String (Option (String × DispatchTaskFile))
  | [] => .ok none
  | x::files => do
    let r ← readJSONFile x.2
    if r.suits labels then return some (x.1, r)
    findTask labels files

variable (encodeKey : String → String)

def claimPath (claimToken : String) : String := "claim_" ++ encodeKey claimToken ++ ".json"

/-- `ClaimNext`, as far as the process gets with writing the claim; a new token and the name of the
temporary file are given. -/
def claimNext (s : Store) (claim : DispatchTaskClaim) (claimToken temp : String) (now : ℤ) (stage : Stage) :
    Except String (Option ClaimedDispatchTask × Store) := do
  let s ← s.recycleExpiredClaims now claim.claimTimeout
  let some (pendingPath, r) ← findTask claim.labels s.pending.sorted | return (none, s)
  let some task := r.task | return (none, s)
  -- The file is renamed and stamped; it is renamed back when the claim cannot be applied.
  let path := claimPath encodeKey claimToken
  let claimed : Store := {s with pending := s.pending.remove pendingPath, claims := s.claims.put path ⟨.whole r, now⟩}
  let claimedTask ← applyTaskClaim task claim.owner claimToken
  let r := r.claimedBy task claim.workerID claim.pollerID claim.owner claimToken now
  return (some ⟨claimedTask, claimToken, now, claim.workerID, claim.pollerID, claim.owner⟩,
    {claimed with claims := writeJSONAtomic claimed.claims path temp r now stage})

def enqueue (s : Store) (task : Task) (fileName temp : String) (now : ℤ) (stage : Stage) : Store :=
  let record : DispatchTaskFile := ⟨some task, fileName, now, "", 0, "", "", ⟨"", "", 0⟩⟩
  {s with pending := writeJSONAtomic s.pending fileName temp record now stage}

def deleteClaim (s : Store) (claimToken : String) : Store :=
  {s with claims := s.claims.remove (claimPath encodeKey claimToken)}

def outstandingPaths (s : Store) : List (String × File DispatchTaskFile) := s.pending.sorted++s.claims.sorted

def countRecords (p : DispatchTaskFile → Bool) : List (String × File DispatchTaskFile) → Except String ℕ
  | [] => .ok 0
  | x::files => do
    let r ← readJSONFile x.2
    let count ← countRecords p files
    return if p r then count+1 else count

def countOutstandingByQueue (s : Store) (queueName : String) (now claimTimeout : ℤ) : Except String (ℕ × Store) := do
  let s ← s.recycleExpiredClaims now claimTimeout
  let count ← countRecords (DispatchTaskFile.inQueue queueName) s.outstandingPaths
  return (count, s)

def anyRecord (p : DispatchTaskFile → Bool) : List (String × File DispatchTaskFile) → Except String Bool
  | [] => .ok false
  | x::files => do
    let r ← readJSONFile x.2
    if p r then return true
    anyRecord p files

def hasOutstandingAttempt (s : Store) (attemptKey : String) (now claimTimeout : ℤ) : Except String (Bool × Store) := do
  if attemptKey = "" then return (false, s)
  let s ← s.recycleExpiredClaims now claimTimeout
  let found ← anyRecord (DispatchTaskFile.ofAttempt attemptKey) s.outstandingPaths
  return (found, s)

/-! ### Leases -/

def leasePath (attemptKey : String) : String := encodeKey attemptKey ++ ".json"

/-- `Upsert`; a lease without times gets the current one. -/
def upsert (s : Store) (lease : DAGRunLease) (temp : String) (now : ℤ) (stage : Stage) : Except String Store := do
  if lease.attemptKey = "" then throw "attempt key is required"
  let lease := if lease.claimedAt = 0 then {lease with claimedAt := now} else lease
  let lease := if lease.lastHeartbeatAt = 0 then {lease with lastHeartbeatAt := now} else lease
  return {s with leases := writeJSONAtomic s.leases (leasePath encodeKey lease.attemptKey) temp lease now stage}

def touch (s : Store) (attemptKey temp : String) (observedAt now : ℤ) (stage : Stage) : Except String Store := do
  let some f := s.leases.get? (leasePath encodeKey attemptKey) | throw "dag-run lease not found"
  let lease ← readJSONFile f
  let lease := {lease with lastHeartbeatAt := observedAt}
  return {s with leases := writeJSONAtomic s.leases (leasePath encodeKey attemptKey) temp lease now stage}

def deleteLease (s : Store) (attemptKey : String) : Store :=
  {s with leases := s.leases.remove (leasePath encodeKey attemptKey)}

def listLeases : List (String × File DAGRunLease) → Except String (List DAGRunLease)
  | [] => .ok []
  | x::files => do
    let lease ← readJSONFile x.2
    let leases ← listLeases files
    return if lease.attemptKey = "" then leases else lease::leases

def listAll (s : Store) : Except String (List DAGRunLease) := listLeases s.leases.sorted

def listByQueue (s : Store) (queueName : String) : Except String (List DAGRunLease) := do
  let leases ← s.listAll
  return leases.filter fun lease => lease.queueName = queueName

end Store

/-! What the calls of the shared stores see when every file is a committed record. -/

open SortedMerge List Option DispatchTaskFile Dir

def Content.value? {α : Type} : Content α → Option α
  | .whole value => some value
  | .fragment => none

variable {ε α β : Type}

@[simp] lemma ok_bind (a : α) (f : α → Except ε β) : (Except.ok a >>= f) = f a := rfl

@[simp] lemma error_bind (e : ε) (f : α → Except ε β) : (Except.error e >>= f) = .error e := rfl

def recordsOf {α : Type} (files : List (String × File α)) : List α := files.filterMap fun x => x.2.content.value?

/-- Every file is a complete record of which `p` holds. -/
def Committed {α : Type} (p : α → Prop) (files : List (String × File α)) : Prop :=
  ∀ x ∈ files, ∃ r, x.2.content = .whole r ∧ p r

section
variable {α : Type} {p : α → Prop} {files files' : List (String × File α)} {x : String × File α}

lemma Committed.of_subset (h : Committed p files) (hsub : files' ⊆ files) : Committed p files' :=
  fun x hx => h x (hsub hx)

lemma Committed.cons_inv (h : Committed p (x::files)) : (∃ r, x.2.content = .whole r ∧ p r) ∧ Committed p files :=
  forall_mem_cons.mp h

lemma Committed.append (h : Committed p files) (h' : Committed p files') : Committed p (files++files') :=
  forall_mem_append.mpr ⟨h, h'⟩

lemma recordsOf_cons {r} (h : x.2.content = .whole r) : recordsOf (x::files) = r::recordsOf files := by
  simp [recordsOf, h, Content.value?]

lemma recordsOf_append : recordsOf (files++files') = recordsOf files++recordsOf files' := filterMap_append

lemma recordsOf_perm (h : files.Perm files') : (recordsOf files).Perm (recordsOf files') := h.filterMap _

lemma recordsOf_sublist {p : String × File α → Bool} : (recordsOf (files.filter p)).Sublist (recordsOf files) :=
  filter_sublist.filterMap _

lemma mem_recordsOf {r} : r ∈ recordsOf files ↔ ∃ x ∈ files, x.2.content = .whole r := by
  simp only [recordsOf, mem_filterMap]
  refine exists_congr fun x => and_congr_right fun _ => ?_
  cases x.2.content <;> simp [Content.value?]

lemma readJSONFile_whole {f : File α} {r} (h : f.content = .whole r) : readJSONFile f = .ok r := by
  simp [readJSONFile, h]

lemma readJSONFile_fragment {f : File α} (h : f.content = .fragment) :
    readJSONFile f = .error "decode json: unexpected end of JSON input" := by simp [readJSONFile, h]

end

namespace Store
variable {p : DispatchTaskFile → Bool} {files : List (String × File DispatchTaskFile)} {q : DispatchTaskFile → Prop}

lemma countRecords_eq (h : Committed q files) : countRecords p files = .ok ((recordsOf files).countP p) := by
  induction files with
  | nil => rfl
  | cons x files ih =>
    obtain ⟨⟨r, hr, -⟩, hfiles⟩ := h.cons_inv
    rw [countRecords, readJSONFile_whole hr, ok_bind, ih hfiles, ok_bind, recordsOf_cons hr, countP_cons]
    cases p r <;> rfl

lemma anyRecord_eq (h : Committed q files) : anyRecord p files = .ok ((recordsOf files).any p) := by
  induction files with
  | nil => rfl
  | cons x files ih =>
    obtain ⟨⟨r, hr, -⟩, hfiles⟩ := h.cons_inv
    rw [anyRecord, readJSONFile_whole hr, ok_bind, recordsOf_cons hr, any_cons]
    cases p r
    · exact ih hfiles
    · rfl

lemma listLeases_eq {files} (h : Committed (·.attemptKey ≠ "") files) : listLeases files = .ok (recordsOf files) := by
  induction files with
  | nil => rfl
  | cons x files ih =>
    obtain ⟨⟨r, hr, hkey⟩, hfiles⟩ := h.cons_inv
    rw [listLeases, readJSONFile_whole hr, ok_bind, ih hfiles, ok_bind, if_neg hkey, recordsOf_cons hr]
    rfl

lemma findTask_eq {labels}
    (h : ∀ x ∈ files, ∃ r, x.2.content = .whole r ∧ r.taskFileName = x.1) : findTask labels files =
      .ok (((recordsOf files).find? fun r => r.suits labels).map fun r => (r.taskFileName, r)) := by
  induction files with
  | nil => rfl
  | cons x files ih =>
    obtain ⟨⟨r, hr, hname⟩, hfiles⟩ := forall_mem_cons.mp h
    rw [findTask, readJSONFile_whole hr, ok_bind, recordsOf_cons hr, find?_cons]
    cases r.suits labels
    · exact ih hfiles
    · simp [hname]
      rfl

structure Clean (s : Store) : Prop where
  pending : ∀ x ∈ s.pending.entries, ∃ r, x.2.content = .whole r ∧ r.taskFileName = x.1
  pendingTask : Committed (·.task.isSome) s.pending.entries
  claims : Committed (·.task.isSome) s.claims.entries
  leases : Committed (·.attemptKey ≠ "") s.leases.entries
  apart : ∀ r ∈ recordsOf s.claims.entries, r.taskFileName ∉ s.pending.names
  distinct : ((recordsOf s.claims.entries).map taskFileName).Nodup

variable {s t : Store} {n : String} {f : File DispatchTaskFile} {r : DispatchTaskFile} {now claimTimeout : ℤ}

lemma recordsOf_claims_perm (hf : (n, f) ∈ s.claims.entries) (hr : f.content = .whole r) :
    (recordsOf s.claims.entries).Perm (r::recordsOf (s.claims.remove n).entries) := by
  have hperm := recordsOf_perm (perm_cons_remove hf)
  rwa [recordsOf_cons (x := (n, f)) hr] at hperm

lemma entries_requeue_claims : (s.requeue n r now).claims.entries = (s.claims.remove n).entries := entries_remove_put

lemma recordsOf_requeue_pending (h : r.taskFileName ∉ s.pending.names) :
    recordsOf (s.requeue n r now).pending.entries = r.cleared::recordsOf s.pending.entries := by
  rw [requeue, entries_put h, recordsOf_cons rfl]

lemma Clean.requeue (h : s.Clean) (hf : (n, f) ∈ s.claims.entries) (hr : f.content = .whole r) :
    (s.requeue n r now).Clean := by
  have hperm := recordsOf_claims_perm hf hr
  have hfresh : r.taskFileName ∉ s.pending.names := h.apart r (hperm.mem_iff.mpr mem_cons_self)
  have hdistinct := (hperm.map taskFileName).nodup_iff.mp h.distinct
  rw [map_cons, nodup_cons] at hdistinct
  have htask : r.cleared.task.isSome := by
    obtain ⟨r', hr', htask⟩ := h.claims _ hf
    obtain rfl : r = r' := by simpa [hr] using hr'
    simpa [cleared] using htask
  have hsub : (s.requeue n r now).claims.entries ⊆ s.claims.entries := by
    rw [entries_requeue_claims]
    exact filter_subset_self _
  constructor
  · intro x hx
    rcases mem_put.mp hx with rfl | ⟨hx, -⟩
    · exact ⟨r.cleared, rfl, rfl⟩
    · exact h.pending x hx
  · intro x hx
    rcases mem_put.mp hx with rfl | ⟨hx, -⟩
    · exact ⟨r.cleared, rfl, htask⟩
    · exact h.pendingTask x hx
  · exact h.claims.of_subset hsub
  · exact h.leases
  · intro r' hr'
    rw [entries_requeue_claims] at hr'
    rw [Store.requeue, names_put hfresh, mem_cons, not_or]
    constructor
    · intro heq
      exact hdistinct.1 (heq ▸ mem_map_of_mem hr')
    · exact h.apart r' (hperm.mem_iff.mpr (mem_cons_of_mem _ hr'))
  · rw [entries_requeue_claims]
    exact hdistinct.2

lemma recycleClaim_eq (hr : f.content = .whole r) : recycleClaim now claimTimeout s (n, f) =
      .ok (if isExpired now claimTimeout f then s.requeue n r now else s) := by
  simp only [recycleClaim, readJSONFile_whole hr, ok_bind, isExpired, hr]
  by_cases hexpired : now - claimTime r f.modTime < claimTimeoutOf claimTimeout
  · simp [hexpired, hexpired.not_ge]
    rfl
  · simp [hexpired, not_lt.mp hexpired]
    rfl

lemma foldlM_recycleClaim (now claimTimeout : ℤ) (files : List (String × File DispatchTaskFile)) :
    ∀ s : Store, s.Clean → files ⊆ s.claims.entries → (files.map Prod.fst).Nodup →
      ∃ t, files.foldlM (recycleClaim now claimTimeout) s = .ok t ∧ t.Clean ∧ t.leases = s.leases ∧
        (recordsOf t.pending.entries).Perm ((recordsOf (files.filter fun x => isExpired now claimTimeout x.2)).map
          cleared++recordsOf s.pending.entries) ∧
        ∀ x, x ∈ t.claims.entries ↔ x ∈ s.claims.entries ∧ ¬ (x ∈ files ∧ isExpired now claimTimeout x.2) := by
  induction files with
  | nil =>
    intro s hs _ _
    exact ⟨s, rfl, hs, rfl, by simp [recordsOf], by simp⟩
  | cons x files ih =>
    obtain ⟨n, f⟩ := x
    intro s hs hsub hnodup
    rw [cons_subset] at hsub
    rw [map_cons, nodup_cons] at hnodup
    obtain ⟨r, hr, -⟩ := hs.claims _ hsub.1
    rw [foldlM_cons, recycleClaim_eq hr, ok_bind]
    cases hexpired : isExpired now claimTimeout f with
    | false =>
      obtain ⟨t, hrun, ht, hleases, hpending, hclaims⟩ := ih s hs hsub.2 hnodup.2
      refine ⟨t, by simpa using hrun, ht, hleases, ?_, fun y => (hclaims y).trans ?_⟩
      · rwa [filter_cons_of_neg (by simp [hexpired])]
      refine and_congr_right fun _ => not_congr (and_congr_left fun hy => ?_)
      rw [mem_cons]
      refine ⟨.inr, Or.rec (fun heq => ?_) id⟩
      simp [heq, hexpired] at hy
    | true =>
      have hfresh : r.taskFileName ∉ s.pending.names :=
        hs.apart r ((recordsOf_claims_perm hsub.1 hr).mem_iff.mpr mem_cons_self)
      have hne : ∀ y ∈ files, y.1 ≠ n := by
        rintro y hy rfl
        exact hnodup.1 (mem_map.mpr ⟨y, hy, rfl⟩)
      have hsub' : files ⊆ (s.requeue n r now).claims.entries := by
        intro y hy
        rw [entries_requeue_claims]
        exact mem_remove.mpr ⟨hsub.2 hy, hne y hy⟩
      obtain ⟨t, hrun, ht, hleases, hpending, hclaims⟩ := ih _ (hs.requeue hsub.1 hr) hsub' hnodup.2
      refine ⟨t, by simpa using hrun, ht, hleases, ?_, fun y => (hclaims y).trans ?_⟩
      · rw [filter_cons_of_pos (by simp [hexpired]), recordsOf_cons hr, map_cons, cons_append]
        rw [recordsOf_requeue_pending hfresh] at hpending
        exact hpending.trans perm_middle
      rw [entries_requeue_claims, mem_remove]
      constructor
      · rintro ⟨⟨hy, hyn⟩, hnot⟩
        refine ⟨hy, ?_⟩
        rintro ⟨hmem, hyexpired⟩
        rcases mem_cons.mp hmem with rfl | hmem
        · exact hyn rfl
        · exact hnot ⟨hmem, hyexpired⟩
      · rintro ⟨hy, hnot⟩
        refine ⟨⟨hy, ?_⟩, fun h => hnot ⟨mem_cons_of_mem _ h.1, h.2⟩⟩
        rintro rfl
        have heq : y.2 = f := eq_of_mem hy hsub.1
        exact hnot ⟨mem_cons.mpr (.inl (Prod.ext rfl heq)), heq ▸ hexpired⟩

def claimable (s : Store) (now claimTimeout : ℤ) : List DispatchTaskFile :=
  (recordsOf (s.claims.entries.filter fun x => isExpired now claimTimeout x.2)).map cleared ++
    recordsOf s.pending.entries

lemma Clean.recycleExpiredClaims (h : s.Clean) (now claimTimeout : ℤ) :
    ∃ t, s.recycleExpiredClaims now claimTimeout = .ok t ∧ t.Clean ∧ t.leases = s.leases ∧
      (recordsOf t.pending.entries).Perm (s.claimable now claimTimeout) ∧
      t.claims.entries.Perm (s.claims.entries.filter fun x => !isExpired now claimTimeout x.2) := by
  obtain ⟨t, hrun, ht, hleases, hpending, hclaims⟩ := foldlM_recycleClaim now claimTimeout s.claims.sorted
    s h (fun x hx => mem_sorted.mp hx) ((sorted_perm.map _).nodup_iff.mpr s.claims.nodup)
  refine ⟨t, hrun, ht, hleases, hpending.trans ?_, ?_⟩
  · exact ((recordsOf_perm (sorted_perm.filter _)).map _).append_right _
  apply (perm_ext_iff_of_nodup (List.Nodup.of_map _ t.claims.nodup)
    ((List.Nodup.of_map _ s.claims.nodup).filter _)).mpr
  intro x
  rw [hclaims, mem_filter, mem_sorted]
  simp only [Bool.not_eq_true', not_and, Bool.not_eq_true]
  exact and_congr_right fun hx => ⟨fun h => h hx, fun h _ => h⟩

def records (s : Store) : List DispatchTaskFile := recordsOf s.pending.entries++recordsOf s.claims.entries

lemma countP_records_recycle (hp : ∀ r, p r.cleared = p r)
    (hpending : (recordsOf t.pending.entries).Perm (s.claimable now claimTimeout))
    (hclaims : t.claims.entries.Perm (s.claims.entries.filter fun x => !isExpired now claimTimeout x.2)) :
    t.records.countP p = s.records.countP p := by
  have hsplit : (recordsOf s.claims.entries).Perm
      (recordsOf (s.claims.entries.filter fun x => isExpired now claimTimeout x.2) ++
        recordsOf (s.claims.entries.filter fun x => !isExpired now claimTimeout x.2)) := by
    rw [← recordsOf_append]
    exact recordsOf_perm (filter_append_perm _ _).symm
  have hcleared : p ∘ cleared = p := funext hp
  simp only [records, countP_append, hpending.countP_eq, (recordsOf_perm hclaims).countP_eq,
    hsplit.countP_eq, claimable, countP_map, hcleared]
  omega

/-! ### Calls on a clean store -/

def nextClaim (s : Store) (claim : DispatchTaskClaim) (claimToken : String) (now : ℤ) : Option ClaimedDispatchTask :=
  ((sortBy taskFileName (s.claimable now claim.claimTimeout)).find? fun r =>
    r.suits claim.labels).bind fun r => r.task.map fun task =>
      ⟨task.claimedBy claim.owner claimToken, claimToken, now, claim.workerID, claim.pollerID, claim.owner⟩

variable (encodeKey : String → String)

/-- Every call on the store `s` succeeds and answers according to the records of `c`. -/
structure Sees (s c : Store) : Prop where
  listAll : s.listAll = .ok (recordsOf c.leases.sorted)
  listByQueue : ∀ queueName, s.listByQueue queueName =
    .ok ((recordsOf c.leases.sorted).filter fun lease => lease.queueName = queueName)
  count : ∀ queueName now claimTimeout, (s.countOutstandingByQueue queueName now claimTimeout).map Prod.fst =
    .ok (c.records.countP (inQueue queueName))
  has : ∀ attemptKey now claimTimeout, (s.hasOutstandingAttempt attemptKey now claimTimeout).map Prod.fst =
    .ok (decide (attemptKey ≠ "") && c.records.any (ofAttempt attemptKey))
  claim : ∀ claim claimToken temp now, 0 ≤ claim.owner.port → claim.owner.port ≤ maxInt32 →
    (s.claimNext encodeKey claim claimToken temp now .renamed).map Prod.fst = .ok (c.nextClaim claim claimToken now)

lemma Clean.committed (h : s.Clean) : Committed (·.task.isSome) s.outstandingPaths :=
  (h.pendingTask.of_subset fun _ hx => mem_sorted.mp hx).append
    (h.claims.of_subset fun _ hx => mem_sorted.mp hx)

lemma recordsOf_outstandingPaths : (recordsOf s.outstandingPaths).Perm s.records := by
  rw [outstandingPaths, recordsOf_append]
  exact (recordsOf_perm sorted_perm).append (recordsOf_perm sorted_perm)

lemma Clean.listAll (h : s.Clean) : s.listAll = .ok (recordsOf s.leases.sorted) :=
  listLeases_eq (h.leases.of_subset fun _ hx => mem_sorted.mp hx)

lemma Clean.count (h : s.Clean) (queueName : String) (now claimTimeout : ℤ) :
    (s.countOutstandingByQueue queueName now claimTimeout).map Prod.fst =
      .ok (s.records.countP (inQueue queueName)) := by
  obtain ⟨t, hrun, ht, -, hpending, hclaims⟩ := h.recycleExpiredClaims now claimTimeout
  have hcleared : ∀ r : DispatchTaskFile, r.cleared.inQueue queueName = r.inQueue queueName := by
    rintro ⟨task, -, -, -, -, -, -, -⟩
    cases task <;> rfl
  rw [countOutstandingByQueue, hrun, ok_bind, countRecords_eq ht.committed, ok_bind,
    recordsOf_outstandingPaths.countP_eq, countP_records_recycle hcleared hpending hclaims]
  rfl

lemma any_eq_decide_countP {α : Type} (p : α → Bool) (l : List α) : l.any p = decide (0 < l.countP p) := by
  rw [Bool.eq_iff_iff, List.any_eq_true, decide_eq_true_eq, countP_pos_iff]

lemma Clean.has (h : s.Clean) (attemptKey : String) (now claimTimeout : ℤ) :
    (s.hasOutstandingAttempt attemptKey now claimTimeout).map Prod.fst =
      .ok (decide (attemptKey ≠ "") && s.records.any (ofAttempt attemptKey)) := by
  by_cases hkey : attemptKey = ""
  · simp [hasOutstandingAttempt, hkey]
    rfl
  obtain ⟨t, hrun, ht, -, hpending, hclaims⟩ := h.recycleExpiredClaims now claimTimeout
  have hcleared : ∀ r : DispatchTaskFile, r.cleared.ofAttempt attemptKey = r.ofAttempt attemptKey := by
    rintro ⟨task, -, -, -, -, -, -, -⟩
    cases task <;> rfl
  rw [hasOutstandingAttempt, if_neg hkey, hrun, ok_bind, anyRecord_eq ht.committed, ok_bind, any_eq_decide_countP,
    any_eq_decide_countP, recordsOf_outstandingPaths.countP_eq, countP_records_recycle hcleared hpending hclaims]
  simp [hkey]
  rfl

lemma map_taskFileName (h : ∀ x ∈ files, ∃ r, x.2.content = .whole r ∧ r.taskFileName = x.1) :
    (recordsOf files).map taskFileName = files.map Prod.fst := by
  induction files with
  | nil => rfl
  | cons x files ih =>
    obtain ⟨⟨r, hr, hname⟩, hfiles⟩ := forall_mem_cons.mp h
    rw [recordsOf_cons hr, map_cons, map_cons, hname, ih hfiles]

lemma Clean.sorted (h : s.Clean) : ∀ x ∈ s.pending.sorted, ∃ r, x.2.content = .whole r ∧ r.taskFileName = x.1 :=
  fun x hx => h.pending x (mem_sorted.mp hx)

lemma Clean.recordsOf_sorted (h : s.Clean) :
    recordsOf s.pending.sorted = sortBy taskFileName (recordsOf s.pending.entries) := by
  have hnodup : ((recordsOf s.pending.entries).map taskFileName).Nodup := by
    rw [map_taskFileName h.pending]
    exact s.pending.nodup
  have hpairwise : (recordsOf s.pending.sorted).Pairwise (fun a b => a.taskFileName < b.taskFileName) := by
    apply pairwise_map.mp
    rw [map_taskFileName h.sorted]
    exact pairwise_map.mpr pairwise_sorted
  apply eq_of_mem_iff hpairwise (pairwise_sortBy hnodup)
  intro r
  rw [mem_sortBy, (recordsOf_perm sorted_perm).mem_iff]

lemma mem_recordsOf_task (h : s.Clean) (hr : r ∈ recordsOf s.pending.entries) : ∃ task, r.task = some task := by
  obtain ⟨x, hx, hcontent⟩ := mem_recordsOf.mp hr
  obtain ⟨r', hr', htask⟩ := h.pendingTask x hx
  obtain rfl : r = r' := by simpa [hcontent] using hr'
  exact isSome_iff_exists.mp htask

lemma Clean.findTask (h : t.Clean) (hpending : (recordsOf t.pending.entries).Perm (s.claimable now claimTimeout))
    (labels : List (String × String)) : findTask labels t.pending.sorted =
      .ok (((sortBy taskFileName (s.claimable now claimTimeout)).find? fun r =>
        r.suits labels).map fun r => (r.taskFileName, r)) := by
  have hnodup : ((recordsOf t.pending.entries).map taskFileName).Nodup := by
    rw [map_taskFileName h.pending]
    exact t.pending.nodup
  rw [findTask_eq h.sorted, h.recordsOf_sorted, sortBy_eq_of_perm hpending hnodup]

lemma Clean.claim (h : s.Clean) (claim : DispatchTaskClaim)
    (claimToken temp : String) (now : ℤ) (stage : Stage) (hport : 0 ≤ claim.owner.port)
    (hmax : claim.owner.port ≤ maxInt32) :
    (s.claimNext encodeKey claim claimToken temp now stage).map Prod.fst = .ok (s.nextClaim claim claimToken now) := by
  obtain ⟨t, hrun, ht, -, hpending, -⟩ := h.recycleExpiredClaims now claim.claimTimeout
  have hfind := ht.findTask hpending claim.labels
  rw [claimNext, hrun, ok_bind, hfind, ok_bind, nextClaim]
  cases hnext : (sortBy taskFileName (s.claimable now claim.claimTimeout)).find? fun r => r.suits claim.labels with
  | none => rfl
  | some r =>
    have hmem : r ∈ recordsOf t.pending.entries := hpending.mem_iff.mpr (mem_sortBy.mp (mem_of_find?_eq_some hnext))
    obtain ⟨task, htask⟩ := mem_recordsOf_task ht hmem
    have hclaim : applyTaskClaim task claim.owner claimToken = .ok (task.claimedBy claim.owner claimToken) :=
      if_neg (by omega)
    simp only [map_some, htask, hclaim, ok_bind, bind_some]
    rfl

lemma Clean.sees (h : s.Clean) : Sees encodeKey s s where
  listAll := h.listAll
  listByQueue queueName := by
    rw [Store.listByQueue, h.listAll]
    rfl
  count := h.count
  has := h.has
  claim claim claimToken temp now := h.claim encodeKey claim claimToken temp now .renamed

end Store
end Ayatsuri.Distributed
