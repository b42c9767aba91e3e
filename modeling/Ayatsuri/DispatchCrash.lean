import Ayatsuri.DispatchStore
import Ayatsuri.TransitionSystem

/-! A process that dies while it writes a record leaves a temporary file in the directory that the other
processes list. -/
namespace Ayatsuri.Distributed
open SortedMerge TransitionSystem List Dir DispatchTaskFile

namespace Store
variable {s c t : Store} {name temp : String} {now claimTimeout : ℤ} {encodeKey : String → String}

/-! ### A temporary file in one of the directories -/

lemma mem_of_whole {α : Type} {files} {x y : String × File α} {r} (hx : x ∈ y::files)
    (hfragment : x.2.content = .fragment) (hy : y.2.content = .whole r) : x ∈ files := by
  rcases mem_cons.mp hx with rfl | hmem
  · simp [hy] at hfragment
  · exact hmem

variable {files : List (String × File DispatchTaskFile)} {x : String × File DispatchTaskFile}

lemma countRecords_fragment {p : DispatchTaskFile → Bool} (hx : x ∈ files) (hfragment : x.2.content = .fragment) :
    countRecords p files = .error "decode json: unexpected end of JSON input" := by
  induction files with
  | nil => simp at hx
  | cons y files ih =>
    rw [countRecords]
    cases hy : y.2.content with
    | fragment => rw [readJSONFile_fragment hy, error_bind]
    | whole r => rw [readJSONFile_whole hy, ok_bind, ih (mem_of_whole hx hfragment hy), error_bind]

lemma foldlM_recycleClaim_fragment (hx : x ∈ files) (hfragment : x.2.content = .fragment) (s : Store) :
    files.foldlM (recycleClaim now claimTimeout) s = .error "decode json: unexpected end of JSON input" := by
  induction files generalizing s with
  | nil => simp at hx
  | cons y files ih =>
    rw [foldlM_cons]
    cases hy : y.2.content with
    | fragment => rw [recycleClaim, readJSONFile_fragment hy, error_bind, error_bind]
    | whole r => rw [recycleClaim_eq hy, ok_bind, ih (mem_of_whole hx hfragment hy)]

lemma listLeases_fragment {files} {x : String × File DAGRunLease}
    (hx : x ∈ files) (hfragment : x.2.content = .fragment) :
    listLeases files = .error "decode json: unexpected end of JSON input" := by
  induction files with
  | nil => simp at hx
  | cons y files ih =>
    rw [listLeases]
    cases hy : y.2.content with
    | fragment => rw [readJSONFile_fragment hy, error_bind]
    | whole r => rw [readJSONFile_whole hy, ok_bind, ih (mem_of_whole hx hfragment hy), error_bind]

lemma exists_unexpired (files : List (String × File DispatchTaskFile)) :
    ∃ now, ∀ x ∈ files, isExpired now 0 x.2 = false := by
  have hbound : ∃ now : ℤ, ∀ x ∈ files, ∀ r, x.2.content = .whole r → now ≤ claimTime r x.2.modTime := by
    induction files with
    | nil => exact ⟨0, by simp⟩
    | cons x files ih =>
      obtain ⟨now, hnow⟩ := ih
      cases hx : x.2.content with
      | fragment =>
        refine ⟨now, forall_mem_cons.mpr ⟨?_, hnow⟩⟩
        simp [hx]
      | whole r =>
        refine ⟨min now (claimTime r x.2.modTime), forall_mem_cons.mpr ⟨?_, ?_⟩⟩
        · intro r' hr'
          obtain rfl : r = r' := by simpa [hx] using hr'
          exact min_le_right _ _
        · exact fun y hy r' hr' => (min_le_left _ _).trans (hnow y hy r' hr')
  obtain ⟨now, hnow⟩ := hbound
  refine ⟨now, fun x hx => ?_⟩
  cases hcontent : x.2.content with
  | fragment => simp [isExpired, hcontent]
  | whole r =>
    have hle := hnow x hx r hcontent
    simp only [isExpired, hcontent, claimTimeoutOf, le_refl, if_true, decide_eq_false_iff_not]
    omega

lemma foldlM_recycleClaim_unexpired {q : DispatchTaskFile → Prop}
    (h : Committed q files) (hunexpired : ∀ x ∈ files, isExpired now claimTimeout x.2 = false) (s : Store) :
    files.foldlM (recycleClaim now claimTimeout) s = .ok s := by
  induction files with
  | nil => rfl
  | cons x files ih =>
    obtain ⟨⟨r, hr, -⟩, hfiles⟩ := h.cons_inv
    obtain ⟨hx, hrest⟩ := forall_mem_cons.mp hunexpired
    rw [foldlM_cons, recycleClaim_eq hr, hx, ok_bind]
    exact ih hfiles hrest

lemma inQueue_all (r : DispatchTaskFile) : r.inQueue "" = r.task.isSome := by cases hr : r.task <;> simp [inQueue, hr]

lemma count_unexpired (hpending : Committed (·.task.isSome) s.pending.entries)
    (hclaims : Committed (·.task.isSome) s.claims.entries)
    (hunexpired : ∀ x ∈ s.claims.entries, isExpired now claimTimeout x.2 = false) :
    (s.countOutstandingByQueue "" now claimTimeout).map Prod.fst = .ok s.records.length := by
  have hsorted : Committed (·.task.isSome) s.claims.sorted := hclaims.of_subset fun _ hx => mem_sorted.mp hx
  have hrun : s.recycleExpiredClaims now claimTimeout = .ok s :=
    foldlM_recycleClaim_unexpired hsorted (fun x hx => hunexpired x (mem_sorted.mp hx)) s
  have hall : Committed (·.task.isSome = true) s.outstandingPaths :=
    (hpending.of_subset fun _ hx => mem_sorted.mp hx).append hsorted
  have hlength : (recordsOf s.outstandingPaths).countP (inQueue "") = s.records.length := by
    rw [← recordsOf_outstandingPaths.length_eq, countP_eq_length]
    intro r hr
    obtain ⟨x, hx, hcontent⟩ := mem_recordsOf.mp hr
    obtain ⟨r', hr', htask⟩ := hall x hx
    obtain rfl : r = r' := by simpa [hcontent] using hr'
    rwa [inQueue_all]
  rw [countOutstandingByQueue, hrun, ok_bind, countRecords_eq hall, ok_bind, hlength]
  rfl

def Leftover {α : Type} (p : α → Prop) (content : Content α) : Prop :=
  content = .fragment ∨ ∃ r, content = .whole r ∧ p r

lemma records_length_of_sees (hs : Sees encodeKey s c) (hc : c.Clean)
    (hcount : (s.countOutstandingByQueue "" now claimTimeout).map Prod.fst = .ok s.records.length) :
    s.records.length = c.records.length := by
  have heq := hcount.symm.trans (hs.count "" now claimTimeout)
  have hall : c.records.countP (inQueue "") = c.records.length := by
    rw [countP_eq_length]
    intro r hr
    rw [inQueue_all]
    rcases mem_append.mp hr with hr | hr
    · obtain ⟨task, htask⟩ := mem_recordsOf_task hc hr
      simp [htask]
    obtain ⟨x, hx, hcontent⟩ := mem_recordsOf.mp hr
    obtain ⟨r', hr', htask⟩ := hc.claims x hx
    obtain rfl : r = r' := by simpa [hcontent] using hr'
    exact htask
  rw [hall] at heq
  simpa using heq

variable {content : Content DispatchTaskFile}

lemma not_sees_pending (hc : c.Clean) (htemp : temp ∉ c.pending.names) (hcontent : Leftover (·.task.isSome) content) :
    ¬ Sees encodeKey {c with pending := c.pending.put temp ⟨content, now⟩} c := by
  intro hs
  obtain ⟨time, htime⟩ := exists_unexpired c.claims.entries
  rcases hcontent with rfl | ⟨r, rfl, htask⟩
  · have hrun : recycleExpiredClaims {c with pending := c.pending.put temp ⟨.fragment, now⟩} time 0 = .ok _ :=
      foldlM_recycleClaim_unexpired (hc.claims.of_subset fun _ hx => mem_sorted.mp hx)
        (fun x hx => htime x (mem_sorted.mp hx)) _
    have hmem : (temp, (⟨.fragment, now⟩ : File DispatchTaskFile)) ∈
        outstandingPaths {c with pending := c.pending.put temp ⟨.fragment, now⟩} :=
      mem_append_left _ (mem_sorted.mpr (mem_put.mpr (.inl rfl)))
    have hcount := hs.count "" time 0
    rw [countOutstandingByQueue, hrun, ok_bind, countRecords_fragment hmem rfl, error_bind] at hcount
    cases hcount
  · have hpending : Committed (·.task.isSome) (c.pending.put temp ⟨.whole r, now⟩).entries := by
      rw [entries_put htemp]
      exact forall_mem_cons.mpr ⟨⟨r, rfl, htask⟩, hc.pendingTask⟩
    have hlength := records_length_of_sees hs hc (count_unexpired hpending hc.claims htime)
    simp [records, entries_put htemp, recordsOf_cons] at hlength

lemma not_sees_claims (hc : c.Clean) (htemp : temp ∉ c.claims.names) (hcontent : Leftover (·.task.isSome) content) :
    ¬ Sees encodeKey {c with claims := c.claims.put temp ⟨content, now⟩} c := by
  intro hs
  rcases hcontent with rfl | ⟨r, rfl, htask⟩
  · have hmem : (temp, (⟨.fragment, now⟩ : File DispatchTaskFile)) ∈ (c.claims.put temp ⟨.fragment, now⟩).sorted :=
      mem_sorted.mpr (mem_put.mpr (.inl rfl))
    have hcount := hs.count "" 0 0
    rw [countOutstandingByQueue, recycleExpiredClaims, foldlM_recycleClaim_fragment hmem rfl, error_bind] at hcount
    cases hcount
  obtain ⟨time, htime⟩ := exists_unexpired (c.claims.put temp ⟨.whole r, now⟩).entries
  have hclaims : Committed (·.task.isSome) (c.claims.put temp ⟨.whole r, now⟩).entries := by
    rw [entries_put htemp]
    exact forall_mem_cons.mpr ⟨⟨r, rfl, htask⟩, hc.claims⟩
  have hlength := records_length_of_sees hs hc (count_unexpired hc.pendingTask hclaims htime)
  simp [records, entries_put htemp, recordsOf_cons] at hlength

lemma not_sees_leases (hc : c.Clean) (htemp : temp ∉ c.leases.names) {content}
    (hcontent : Leftover (·.attemptKey ≠ "") content) :
    ¬ Sees encodeKey {c with leases := c.leases.put temp ⟨content, now⟩} c := by
  intro hs
  have hlist := hs.listAll
  rcases hcontent with rfl | ⟨lease, rfl, hkey⟩
  · have hmem : (temp, (⟨.fragment, now⟩ : File DAGRunLease)) ∈ (c.leases.put temp ⟨.fragment, now⟩).sorted :=
      mem_sorted.mpr (mem_put.mpr (.inl rfl))
    rw [listAll, listLeases_fragment hmem rfl] at hlist
    cases hlist
  have hleases : Committed (·.attemptKey ≠ "") (c.leases.put temp ⟨.whole lease, now⟩).sorted := by
    intro x hx
    rcases mem_put.mp (mem_sorted.mp hx) with rfl | ⟨hmem, -⟩
    · exact ⟨lease, rfl, hkey⟩
    · exact hc.leases x hmem
  rw [listAll, listLeases_eq hleases] at hlist
  have hlength := congrArg length (Except.ok.inj hlist)
  rw [(recordsOf_perm sorted_perm).length_eq, (recordsOf_perm sorted_perm).length_eq,
    entries_put htemp, recordsOf_cons rfl] at hlength
  simp at hlength

/-! ### What a finished write leaves -/

variable (hs : s.Clean)
include hs

lemma Clean.enqueue (task : Task) {fileName} (hpending : fileName ∉ s.pending.names)
    (hclaims : ∀ r ∈ recordsOf s.claims.entries, r.taskFileName ≠ fileName) :
    (s.enqueue task fileName temp now .renamed).Clean where
  pending := by
    intro x hx
    rcases mem_put.mp hx with rfl | ⟨hx, -⟩
    · exact ⟨_, rfl, rfl⟩
    · exact hs.pending x hx
  pendingTask := by
    intro x hx
    rcases mem_put.mp hx with rfl | ⟨hx, -⟩
    · exact ⟨_, rfl, rfl⟩
    · exact hs.pendingTask x hx
  claims := hs.claims
  leases := hs.leases
  apart := by
    intro r hr
    simp only [Store.enqueue, writeJSONAtomic, names_put hpending, mem_cons, not_or]
    exact ⟨hclaims r hr, hs.apart r hr⟩
  distinct := hs.distinct

variable {path : String}

lemma Clean.rename {r} (hr : r ∈ recordsOf s.pending.entries) (hpath : path ∉ s.claims.names) :
    ({s with pending := s.pending.remove r.taskFileName, claims := s.claims.put path ⟨.whole r, now⟩} : Store).Clean := by
  obtain ⟨x, hx, hcontent⟩ := mem_recordsOf.mp hr
  obtain ⟨r', hr', hname⟩ := hs.pending x hx
  obtain rfl : r = r' := by simpa [hcontent] using hr'
  have hmem : r.taskFileName ∈ s.pending.names := hname ▸ mem_names_of_mem hx
  have hrecords : recordsOf (s.claims.put path ⟨.whole r, now⟩).entries = r::recordsOf s.claims.entries := by
    rw [entries_put hpath, recordsOf_cons rfl]
  constructor
  · exact fun y hy => hs.pending y (mem_remove.mp hy).1
  · exact hs.pendingTask.of_subset fun y hy => (mem_remove.mp hy).1
  · intro y hy
    rcases mem_put.mp hy with rfl | ⟨hy, -⟩
    · obtain ⟨task, htask⟩ := mem_recordsOf_task hs hr
      exact ⟨r, rfl, by simp [htask]⟩
    · exact hs.claims y hy
  · exact hs.leases
  · intro r' hr'
    rw [hrecords, mem_cons] at hr'
    rcases hr' with rfl | hr'
    · exact notMem_names_remove
    · exact fun hin => hs.apart r' hr' (names_remove_subset hin)
  · rw [hrecords, map_cons, nodup_cons]
    refine ⟨fun hin => ?_, hs.distinct⟩
    obtain ⟨r', hr', heq⟩ := mem_map.mp hin
    exact hs.apart r' hr' (heq ▸ hmem)

lemma Clean.rewrite {f : File DispatchTaskFile} {r r' : DispatchTaskFile}
    (hf : (path, f) ∈ s.claims.entries) (hr : f.content = .whole r) (hname : r'.taskFileName = r.taskFileName)
    (htask : r'.task.isSome) (now : ℤ) :
    ({s with claims := s.claims.put path ⟨.whole r', now⟩} : Store).Clean := by
  have hperm := recordsOf_claims_perm hf hr
  have hrecords : recordsOf (s.claims.put path ⟨.whole r', now⟩).entries =
      r'::recordsOf (s.claims.remove path).entries := recordsOf_cons rfl
  have hnames : (recordsOf (s.claims.put path ⟨.whole r', now⟩).entries).map taskFileName =
      (r::recordsOf (s.claims.remove path).entries).map taskFileName := by rw [hrecords, map_cons, map_cons, hname]
  constructor
  · exact hs.pending
  · exact hs.pendingTask
  · intro y hy
    rcases mem_put.mp hy with rfl | ⟨hy, -⟩
    · exact ⟨r', rfl, htask⟩
    · exact hs.claims y hy
  · exact hs.leases
  · intro a ha
    have hin := mem_map_of_mem (f := taskFileName) ha
    rw [hnames, ← (hperm.map _).mem_iff] at hin
    obtain ⟨b, hb, heq⟩ := mem_map.mp hin
    exact heq ▸ hs.apart b hb
  · rw [hnames, ← (hperm.map _).nodup_iff]
    exact hs.distinct

lemma Clean.putLease {lease : DAGRunLease} (hkey : lease.attemptKey ≠ "") :
    ({s with leases := s.leases.put path ⟨.whole lease, now⟩} : Store).Clean := by
  refine {hs with leases := fun x hx => ?_}
  rcases mem_put.mp hx with rfl | ⟨hx, -⟩
  · exact ⟨lease, rfl, hkey⟩
  · exact hs.leases x hx

lemma Clean.removeClaim (path : String) : ({s with claims := s.claims.remove path} : Store).Clean :=
  {hs with
    claims := hs.claims.of_subset fun _ hx => (mem_remove.mp hx).1
    apart := fun r hr => hs.apart r (recordsOf_sublist.subset hr)
    distinct := hs.distinct.sublist (recordsOf_sublist.map _)}

lemma Clean.removeLease (path : String) : ({s with leases := s.leases.remove path} : Store).Clean :=
  {hs with leases := hs.leases.of_subset fun _ hx => (mem_remove.mp hx).1}

end Store

/-! ### Calls that write a record -/

/-- A call that writes a record, and the file it writes to where the call chooses one. Recycling rewrites
the file of an expired claim before it renames it. -/
inductive WriteCall
  | enqueue (task : Task) (fileName : String)
  | claimNext (claim : DispatchTaskClaim) (claimToken : String)
  | recycleClaim (claimPath : String)
  | upsert (lease : DAGRunLease)
  | touch (attemptKey : String) (observedAt : ℤ)
  deriving DecidableEq

variable (encodeKey : String → String) (s : Store) (temp : String)

def WriteCall.run (now : ℤ) (stage : Stage) : WriteCall → Except String Store
  | .enqueue task fileName => .ok (s.enqueue task fileName temp now stage)
  | .claimNext claim claimToken => (s.claimNext encodeKey claim claimToken temp now stage).map Prod.snd
  | .recycleClaim claimPath =>
    match s.claims.get? claimPath with
    | none => .ok s
    | some f => do
      let r ← readJSONFile f
      return {s with claims := writeJSONAtomic s.claims claimPath temp r.cleared now stage}
  | .upsert lease => s.upsert encodeKey lease temp now stage
  | .touch attemptKey observedAt => s.touch encodeKey attemptKey temp observedAt now stage

def WriteCall.Writes (now : ℤ) : WriteCall → Prop
  | .enqueue _ fileName =>
    temp ∉ s.pending.names ∧ fileName ∉ s.pending.names ∧ ∀ r ∈ recordsOf s.claims.entries, r.taskFileName ≠ fileName
  | .claimNext claim claimToken =>
    temp ∉ s.claims.names ∧ temp ≠ Store.claimPath encodeKey claimToken ∧
      Store.claimPath encodeKey claimToken ∉ s.claims.names ∧
      0 ≤ claim.owner.port ∧ claim.owner.port ≤ maxInt32 ∧ (s.nextClaim claim claimToken now).isSome
  | .recycleClaim claimPath => temp ∉ s.claims.names ∧ claimPath ∈ s.claims.names
  | .upsert lease => temp ∉ s.leases.names ∧ lease.attemptKey ≠ ""
  | .touch attemptKey _ => temp ∉ s.leases.names ∧ Store.leasePath encodeKey attemptKey ∈ s.leases.names

def Stage.Settled (stage : Stage) : Prop := stage = .before ∨ stage = .renamed

def Stage.committed : Stage → Stage
  | .renamed => .renamed
  | _ => .before

inductive Event
  | call (call : WriteCall) (temp : String) (now : ℤ) (stage : Stage)
  | recycleExpiredClaims (now claimTimeout : ℤ)
  | deleteClaim (claimToken : String)
  | deleteLease (attemptKey : String)
  deriving DecidableEq

def Store.step : Event → Option Store
  | .call call temp now stage => (call.run encodeKey s temp now stage).toOption
  | .recycleExpiredClaims now claimTimeout => (s.recycleExpiredClaims now claimTimeout).toOption
  | .deleteClaim claimToken => some (s.deleteClaim encodeKey claimToken)
  | .deleteLease attemptKey => some (s.deleteLease encodeKey attemptKey)

def Store.Orderly : Event → Prop
  | .call call temp now stage => call.Writes encodeKey s temp now ∧ stage.Settled
  | _ => True

def Store.Tolerant (s c : Store) : Prop :=
  Sees encodeKey s c ∧ ∀ t, Reach (Store.step encodeKey) (Store.Orderly encodeKey) s t → Sees encodeKey t t

structure WriteCall.Spec (run : Stage → Store) : Prop where
  before : (run .before).Clean
  renamed : (run .renamed).Clean
  spoilt : ∀ stage, ¬ stage.Settled → ¬ Store.Sees encodeKey (run stage) (run .before)

namespace Store
variable {encodeKey : String → String} {s c t : Store} {temp : String} {now : ℤ} {stage : Stage}

lemma leftover_of_not_settled {α : Type} (p : α → Prop) (value : α) (hvalue : p value) (hstage : ¬ stage.Settled) :
    ∃ content, Leftover p content ∧ ∀ (d : Dir String (File α)) (path temp : String) (now : ℤ),
      writeJSONAtomic d path temp value now stage = d.put temp ⟨content, now⟩ := by
  cases stage with
  | before => exact absurd (.inl rfl) hstage
  | renamed => exact absurd (.inr rfl) hstage
  | created | partly => exact ⟨_, .inl rfl, fun _ _ _ _ => rfl⟩
  | written => exact ⟨_, .inr ⟨value, rfl, hvalue⟩, fun _ _ _ _ => rfl⟩

variable {r : DispatchTaskFile} {path : String}

lemma spec_pending (hc : c.Clean) (htemp : temp ∉ c.pending.names)
    (hr : r.task.isSome) (hrenamed : ({c with pending := c.pending.put path ⟨.whole r, now⟩} : Store).Clean) :
    WriteCall.Spec encodeKey fun stage => {c with pending := writeJSONAtomic c.pending path temp r now stage} where
  before := hc
  renamed := hrenamed
  spoilt := by
    intro stage hstage
    obtain ⟨content, hcontent, heq⟩ := leftover_of_not_settled (·.task.isSome) r hr hstage
    rw [heq]
    exact not_sees_pending hc htemp hcontent

lemma spec_claims (hc : c.Clean) (htemp : temp ∉ c.claims.names)
    (hr : r.task.isSome) (hrenamed : ({c with claims := c.claims.put path ⟨.whole r, now⟩} : Store).Clean) :
    WriteCall.Spec encodeKey fun stage => {c with claims := writeJSONAtomic c.claims path temp r now stage} where
  before := hc
  renamed := hrenamed
  spoilt := by
    intro stage hstage
    obtain ⟨content, hcontent, heq⟩ := leftover_of_not_settled (·.task.isSome) r hr hstage
    rw [heq]
    exact not_sees_claims hc htemp hcontent

variable {lease : DAGRunLease}

lemma spec_leases (hc : c.Clean) (htemp : temp ∉ c.leases.names) (hkey : lease.attemptKey ≠ "") :
    WriteCall.Spec encodeKey fun stage => {c with leases := writeJSONAtomic c.leases path temp lease now stage} where
  before := hc
  renamed := hc.putLease hkey
  spoilt := by
    intro stage hstage
    obtain ⟨content, hcontent, heq⟩ := leftover_of_not_settled (·.attemptKey ≠ "") lease hkey hstage
    rw [heq]
    exact not_sees_leases hc htemp hcontent

lemma Clean.run_claimNext (hs : s.Clean) {claim : DispatchTaskClaim} {claimToken}
    (hpath : claimPath encodeKey claimToken ∉ s.claims.names) (hport : 0 ≤ claim.owner.port)
    (hmax : claim.owner.port ≤ maxInt32) (hnext : (s.nextClaim claim claimToken now).isSome) :
    ∃ c : Store, ∃ f r r', c.Clean ∧
      (∀ name ∈ c.claims.names, name = claimPath encodeKey claimToken ∨ name ∈ s.claims.names) ∧
      (claimPath encodeKey claimToken, f) ∈ c.claims.entries ∧ f.content = .whole r ∧
      r'.taskFileName = r.taskFileName ∧ r'.task.isSome ∧
      ∀ stage, (s.claimNext encodeKey claim claimToken temp now stage).map Prod.snd =
        .ok {c with claims := writeJSONAtomic c.claims (claimPath encodeKey claimToken) temp r' now stage} := by
  obtain ⟨t, hrun, ht, -, hpending, hclaims⟩ := hs.recycleExpiredClaims now claim.claimTimeout
  have hfind := ht.findTask hpending claim.labels
  have hnames : ∀ name ∈ t.claims.names, name ∈ s.claims.names := by
    intro name hname
    exact (filter_sublist.map _).subset ((hclaims.map Prod.fst).mem_iff.mp hname)
  rw [nextClaim] at hnext
  cases hr : (sortBy taskFileName (s.claimable now claim.claimTimeout)).find? fun r => r.suits claim.labels with
  | none => simp [hr] at hnext
  | some r =>
    have hmem : r ∈ recordsOf t.pending.entries := hpending.mem_iff.mpr (mem_sortBy.mp (mem_of_find?_eq_some hr))
    obtain ⟨task, htask⟩ := mem_recordsOf_task ht hmem
    have hclaim : applyTaskClaim task claim.owner claimToken = .ok (task.claimedBy claim.owner claimToken) :=
      if_neg (by omega)
    have hfresh : claimPath encodeKey claimToken ∉ t.claims.names := fun h => hpath (hnames _ h)
    refine ⟨_, ⟨.whole r, now⟩, r, r.claimedBy task claim.workerID claim.pollerID claim.owner claimToken now,
      ht.rename hmem hfresh, ?_, mem_put.mpr (.inl rfl), rfl, rfl, rfl, ?_⟩
    · intro name hname
      rw [names_put hfresh, mem_cons] at hname
      exact hname.imp_right (hnames name)
    intro stage
    rw [claimNext, hrun, ok_bind, hfind, ok_bind, hr]
    simp only [Option.map_some, htask, hclaim, ok_bind]
    rfl

lemma upsert_eq (hkey : lease.attemptKey ≠ "") :
    ∃ lease' : DAGRunLease, lease'.attemptKey = lease.attemptKey ∧ ∀ stage, s.upsert encodeKey lease temp now stage =
      .ok {s with leases := writeJSONAtomic s.leases (leasePath encodeKey lease'.attemptKey) temp lease' now stage} := by
  simp only [upsert, if_neg hkey]
  refine ⟨_, ?_, fun stage => rfl⟩
  by_cases hclaimed : lease.claimedAt = 0 <;> by_cases hheartbeat : lease.lastHeartbeatAt = 0 <;>
    simp [hclaimed, hheartbeat]

lemma touch_eq {attemptKey} {observedAt : ℤ} {f : File DAGRunLease}
    (hf : (leasePath encodeKey attemptKey, f) ∈ s.leases.entries) (hlease : f.content = .whole lease) :
    ∃ lease' : DAGRunLease, lease'.attemptKey = lease.attemptKey ∧
      ∀ stage, s.touch encodeKey attemptKey temp observedAt now stage =
        .ok {s with leases := writeJSONAtomic s.leases (leasePath encodeKey attemptKey) temp lease' now stage} := by
  refine ⟨{lease with lastHeartbeatAt := observedAt}, rfl, fun stage => ?_⟩
  simp only [Store.touch, get?_eq_some.mpr hf, readJSONFile_whole hlease, ok_bind]
  rfl

lemma Clean.run_spec (hs : s.Clean) {call : WriteCall} (hcall : call.Writes encodeKey s temp now) :
    ∃ run : Stage → Store, (∀ stage, call.run encodeKey s temp now stage = .ok (run stage)) ∧
      WriteCall.Spec encodeKey run := by
  cases call with
  | enqueue task fileName =>
    obtain ⟨htemp, hpending, hclaims⟩ := hcall
    have hrenamed : (s.enqueue task fileName temp now .renamed).Clean := hs.enqueue task hpending hclaims
    exact ⟨_, fun _ => rfl, spec_pending hs htemp rfl hrenamed⟩
  | claimNext claim claimToken =>
    obtain ⟨htemp, hne, hpath, hport, hmax, hnext⟩ := hcall
    obtain ⟨c, f, r, r', hc, hnames, hf, hr, hname, htask, hrun⟩ := hs.run_claimNext hpath hport hmax hnext
    have hfresh : temp ∉ c.claims.names := fun h => (hnames temp h).elim hne htemp
    exact ⟨_, hrun, spec_claims hc hfresh htask (hc.rewrite hf hr hname htask now)⟩
  | recycleClaim claimPath =>
    obtain ⟨htemp, hpath⟩ := hcall
    obtain ⟨⟨path, f⟩, hf, rfl⟩ := mem_map.mp hpath
    obtain ⟨r, hr, htask⟩ := hs.claims _ hf
    have hcleared : r.cleared.task.isSome := by simpa [cleared] using htask
    have hname : r.cleared.taskFileName = r.taskFileName := rfl
    refine ⟨_, fun stage => ?_, spec_claims hs htemp hcleared (hs.rewrite hf hr hname hcleared now)⟩
    simp only [WriteCall.run, get?_eq_some.mpr hf, readJSONFile_whole hr, ok_bind]
    rfl
  | upsert lease =>
    obtain ⟨htemp, hkey⟩ := hcall
    obtain ⟨lease', hkey', hrun⟩ := upsert_eq hkey
    exact ⟨_, hrun, spec_leases hs htemp (hkey' ▸ hkey)⟩
  | touch attemptKey observedAt =>
    obtain ⟨htemp, hpath⟩ := hcall
    obtain ⟨⟨path, f⟩, hf, heq⟩ := mem_map.mp hpath
    obtain rfl : path = leasePath encodeKey attemptKey := heq
    obtain ⟨lease, hlease, hkey⟩ := hs.leases _ hf
    obtain ⟨touched, htouched, hrun⟩ := touch_eq hf hlease
    exact ⟨_, hrun, spec_leases hs htemp (htouched ▸ hkey)⟩

lemma Clean.step (hs : s.Clean) {event} (horderly : s.Orderly encodeKey event)
    (h : s.step encodeKey event = some t) : t.Clean := by
  cases event with
  | call call temp now stage =>
    obtain ⟨hcall, hstage⟩ := horderly
    obtain ⟨run, hrun, hspec⟩ := hs.run_spec hcall
    obtain rfl : run stage = t := by simpa [Store.step, hrun, Except.toOption] using h
    rcases hstage with rfl | rfl
    · exact hspec.before
    · exact hspec.renamed
  | recycleExpiredClaims now claimTimeout =>
    obtain ⟨u, hrun, hu, -⟩ := hs.recycleExpiredClaims now claimTimeout
    obtain rfl : u = t := by simpa [Store.step, hrun, Except.toOption] using h
    exact hu
  | deleteClaim claimToken =>
    cases h
    exact hs.removeClaim _
  | deleteLease attemptKey =>
    cases h
    exact hs.removeLease _

lemma Clean.tolerant (hs : s.Clean) : s.Tolerant encodeKey s := by
  refine ⟨hs.sees encodeKey, fun t ht => ?_⟩
  have hclean : t.Clean := ht.preserved hs fun hs => hs.step
  exact hclean.sees encodeKey

/-- A crash during a write is tolerated exactly when it leaves no temporary file: the record is then either
not there or complete. -/
theorem crash_tolerated_iff_settled (hs : s.Clean) {call : WriteCall} (hcall : call.Writes encodeKey s temp now)
    (stage : Stage) :
    ∃ t c, call.run encodeKey s temp now stage = .ok t ∧ call.run encodeKey s temp now stage.committed = .ok c ∧
      (t.Tolerant encodeKey c ↔ stage.Settled) := by
  obtain ⟨run, hrun, hspec⟩ := hs.run_spec hcall
  refine ⟨run stage, run stage.committed, hrun stage, hrun _, ?_⟩
  constructor
  · intro htolerant
    by_contra hstage
    have hbefore : stage.committed = .before := by
      cases stage with
      | renamed => exact absurd (.inr rfl) hstage
      | _ => rfl
    rw [hbefore] at htolerant
    exact hspec.spoilt stage hstage htolerant.1
  · rintro (rfl | rfl)
    · exact hspec.before.tolerant
    · exact hspec.renamed.tolerant

/-! ### A crash of `Enqueue` -/

def empty : Store := ⟨Dir.empty, Dir.empty, Dir.empty⟩

def exampleTask : Task := ⟨"default", "attempt", [], "", "", 0, "", ""⟩

def exampleClaim : DispatchTaskClaim := ⟨"worker", "poller", ⟨"coordinator", "localhost", 50055⟩, [], 30000⟩

lemma empty_clean : empty.Clean := by constructor <;> simp [empty, Dir.empty, Committed, recordsOf]

theorem crash_tolerated_iff_settled_enqueue :
    ∃ t c, (WriteCall.enqueue exampleTask "task.json").run id empty "task.json.tmp.1" 0 .renamed = .ok t ∧
      (WriteCall.enqueue exampleTask "task.json").run id empty "task.json.tmp.1" 0 .renamed = .ok c ∧
      (t.Tolerant id c ↔ Stage.renamed.Settled) :=
  crash_tolerated_iff_settled empty_clean (by simp [WriteCall.Writes, empty, Dir.empty, names, recordsOf]) .renamed

/-- A process dies in `Enqueue`. If its temporary file is only partly written, no worker gets a task any
more; if it is fully written, a worker gets a task that was never enqueued. -/
theorem enqueue_crash_seen :
    (empty.enqueue exampleTask "task.json" "task.json.tmp.1" 0 .partly).claimNext id exampleClaim "token" "temp" 1
        .renamed = .error "decode json: unexpected end of JSON input" ∧
      ((empty.enqueue exampleTask "task.json" "task.json.tmp.1" 0 .written).claimNext id exampleClaim "token" "temp" 1
    .renamed).map Prod.fst = .ok (some ⟨exampleTask.claimedBy exampleClaim.owner "token", "token", 1, "worker", "poller",
          exampleClaim.owner⟩) ∧ ∀ stage, stage = .created ∨ stage = .partly ∨ stage = .written →
        ¬ (empty.enqueue exampleTask "task.json" "task.json.tmp.1" 0 stage).Tolerant id empty := by
  refine ⟨rfl, rfl, fun stage hstage htolerant => ?_⟩
  have hclaim := htolerant.1.claim exampleClaim "token" "temp" 1 (by decide) (by decide)
  rcases hstage with rfl | rfl | rfl <;> cases hclaim

end Store
end Ayatsuri.Distributed
