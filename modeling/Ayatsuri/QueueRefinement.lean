import Ayatsuri.QueueStore
import Ayatsuri.TransitionSystem

/-! One process on one queue: the store refines the list of the items that were enqueued and not yet
removed, in the order of their enqueuing. -/
namespace Ayatsuri.FileQueue
open TransitionSystem List Option Item

/-! ### The abstract queue -/

def inOrder {T : Type} (q : List (Item T)) : List (Item T) :=
  (q.filter fun i => i.priority = .high)++q.filter fun i => i.priority = .low

lemma length_inOrder {T : Type} (q : List (Item T)) : (inOrder q).length = q.length := by
  induction q with
  | nil => rfl
  | cons i q ih =>
    simp only [inOrder, length_append, length_cons] at ih ⊢
    cases hp : i.priority with
    | high | low => simp [hp]; omega

section
variable {T : Type} [LinearOrder T] {st : Stamp T} {q : List (Item T)} {item : Item T}

structure WellFormed (q : List (Item T)) : Prop where
  ordered : q.Pairwise fun a b => a.queuedAt < b.queuedAt
  plain : ∀ i ∈ q, '/' ∉ i.dagRun.id.toList
  pattern : ∀ i ∈ q, i.matchesPattern

lemma WellFormed.sublist {q'} (h : WellFormed q) (hsub : q'.Sublist q) : WellFormed q' :=
  ⟨h.ordered.sublist hsub, fun i hi => h.plain i (hsub.subset hi), fun i hi => h.pattern i (hsub.subset hi)⟩

lemma WellFormed.filter (h : WellFormed q) (p : Item T → Bool) : WellFormed (q.filter p) := h.sublist filter_sublist

lemma wellFormed_nil : WellFormed ([] : List (Item T)) := ⟨.nil, by simp, by simp⟩

lemma WellFormed.named (h : WellFormed q) : Named st q := by
  refine ⟨h.ordered.imp_of_mem fun {a b} ha hb hlt => ?_, h.plain⟩
  rw [id_eq_stem (h.plain a ha), id_eq_stem (h.plain b hb)]
  exact stem_ne hlt.ne

lemma indexOf_entries (q : List (Item T)) :
    (indexOf st q).high++(indexOf st q).low = (inOrder q).map (fileName st) := by simp [indexOf, names, inOrder]

lemma indexOf_total (q : List (Item T)) : (indexOf st q).total = q.length := by
  rw [← length_inOrder q, ← length_map (fileName st), ← indexOf_entries, length_append]
  rfl

lemma WellFormed.names_sorted (h : WellFormed q) (priority : QueuePriority) :
    (names st priority q).insertionSort (· ≤ ·) = names st priority q := by
  refine List.Pairwise.insertionSort_eq (pairwise_map.mpr ?_)
  refine (h.filter _).ordered.imp_of_mem fun {a b} ha hb hlt => ?_
  have hpa : a.priority = priority := by simpa using (mem_filter.mp ha).2
  have hpb : b.priority = priority := by simpa using (mem_filter.mp hb).2
  exact (fileName_lt (hpa.trans hpb.symm) hlt).le

lemma inOrder_erase (h : (inOrder q).head? = some item) : inOrder (q.erase item) = (inOrder q).tail := by
  have hhigh := erase_filter (a := item) (f := fun i : Item T => i.priority = .high) (l := q)
  have hlow := erase_filter (a := item) (f := fun i : Item T => i.priority = .low) (l := q)
  have hmem : ∀ i ∈ q.filter (·.priority = .high), i.priority = .high := fun i hi => by
    simpa using (mem_filter.mp hi).2
  have hother : ∀ i ∈ q.filter (·.priority = .low), i.priority ≠ .high := fun i hi => by
    simp [show i.priority = .low by simpa using (mem_filter.mp hi).2]
  rw [inOrder, ← hhigh, ← hlow, inOrder]
  rw [inOrder] at h
  cases hq : q.filter (·.priority = .high) with
  | cons first rest =>
    rw [hq] at h hmem
    obtain rfl : first = item := by simpa using h
    have hnot : first ∉ q.filter (·.priority = .low) := fun hi => hother first hi (hmem first mem_cons_self)
    rw [erase_cons_head, erase_of_not_mem hnot]
    rfl
  | nil =>
    rw [hq] at h
    cases hlow : q.filter (·.priority = .low) with
    | nil => simp [hlow] at h
    | cons first rest =>
      rw [hlow] at h
      obtain rfl : first = item := by simpa using h
      rw [erase_cons_head]
      rfl

end

open Store

/-! ### The store against the queue -/

namespace Store
variable {T : Type} [LinearOrder T] {st : Stamp T} {s : Store T} {q q₀ : List (Item T)}

/-- The directory holds `q`, and the index, if there is one, still lists `q₀`. -/
structure Holds (st : Stamp T) (s : Store T) (q₀ q : List (Item T)) : Prop where
  items : s.items = q
  found : s.found
  index : ∀ idx modTime, s.index = some (idx, modTime) → idx = indexOf st q₀
  cache : ∀ idx cached modTime, s.index = some (idx, modTime) → s.cache = some (cached, modTime) → cached = idx
  absent : s.present = false → q = [] ∧ s.index = none

lemma Holds.invalidate (h : s.Holds st q₀ q) : s.invalidateQueueIndexLocked.Holds st q q :=
  ⟨h.items, h.found, by simp [invalidateQueueIndexLocked], by simp [invalidateQueueIndexLocked], fun hp => ⟨(h.absent hp).1, rfl⟩⟩

variable {a : Save}

lemma Holds.save (h : s.Holds st q₀ q) : ((s.saveQueueIndexLocked (indexOf st q) a).2 →
    (s.saveQueueIndexLocked (indexOf st q) a).1.Holds st q q) ∧ ((s.saveQueueIndexLocked (indexOf st q) a).2 = false →
      (s.saveQueueIndexLocked (indexOf st q) a).1.Holds st q₀ q) := by
  unfold saveQueueIndexLocked
  split_ifs
  · exact ⟨fun _ => ⟨h.items, h.found, by simp, by simp, fun hp => ⟨(h.absent hp).1, rfl⟩⟩, by simp⟩
  · exact ⟨by simp, fun _ => {h with cache := by simp}⟩
  · refine ⟨fun _ => ⟨h.items, h.found, ?_, ?_, by simp⟩, by simp⟩
    · rintro idx modTime heq
      simp only [some.injEq, Prod.mk.injEq] at heq
      exact heq.1.symm
    rintro idx cached modTime heq hcache
    simp only [some.injEq, Prod.mk.injEq] at heq hcache
    exact hcache.1.symm.trans heq.1
  · exact ⟨by simp, fun _ => h⟩

lemma Holds.load (h : s.Holds st q₀ q) (hq : WellFormed q) (a : Save) :
    ∃ q₁, (q₁ = q₀ ∨ q₁ = q) ∧ (s.loadOrRebuildQueueIndexLocked st a).1.Holds st q₁ q ∧
      ∀ idx, (s.loadOrRebuildQueueIndexLocked st a).2 = some idx → idx = indexOf st q₁ := by
  unfold loadOrRebuildQueueIndexLocked
  split_ifs with hp
  · cases hindex : s.index with
    | none =>
      have hidx : (⟨s.sortedNames st .high, s.sortedNames st .low⟩ : QueueReadIndex) = indexOf st q := by
        have hsorted : ∀ priority, s.sortedNames st priority = names st priority q := fun priority => by
          rw [← hq.names_sorted priority, sortedNames, h.items]
          rfl
        rw [indexOf, hsorted, hsorted]
      have hempty : s.Holds st q q := ⟨h.items, h.found, by simp [hindex], by simp [hindex], h.absent⟩
      simp only [rebuildQueueIndexLocked, hidx]
      refine ⟨q, .inr rfl, ?_, ?_⟩
      · cases hsaved : (s.saveQueueIndexLocked (indexOf st q) a).2 with
        | true => exact hempty.save.1 hsaved
        | false => exact hempty.save.2 hsaved
      intro idx
      split_ifs
      · exact fun heq => (some.inj heq).symm
      · simp
    | some file =>
      obtain ⟨idx, modTime⟩ := file
      have hidx : idx = indexOf st q₀ := h.index idx modTime hindex
      have hread : ({s with cache := some (idx, modTime)} : Store T).Holds st q₀ q := by
        refine {h with cache := ?_}
        intro idx' cached modTime' hi hc
        have hi' : s.index = some (idx', modTime') := hi
        rw [hindex] at hi'
        simp only [some.injEq, Prod.mk.injEq] at hi' hc
        exact hc.1.symm.trans hi'.1
      rw [hindex] at hread
      refine ⟨q₀, .inl rfl, ?_⟩
      cases hcache : s.cache with
      | none => exact ⟨hread, fun idx' heq => (some.inj heq).symm.trans hidx⟩
      | some file =>
        obtain ⟨cached, cachedAt⟩ := file
        simp only
        split_ifs with heq
        · subst heq
          have hsame : cached = idx := h.cache idx cached cachedAt hindex hcache
          exact ⟨h, fun idx' heq => (some.inj heq).symm.trans (hsame.trans hidx)⟩
        · exact ⟨hread, fun idx' heq => (some.inj heq).symm.trans hidx⟩
  · obtain ⟨rfl, hnone⟩ := h.absent (by simpa using hp)
    refine ⟨[], .inr rfl, ⟨h.items, h.found, ?_, by simp, fun _ => ⟨rfl, hnone⟩⟩, ?_⟩
    · intro idx modTime hi
      simp [hnone] at hi
    · exact fun idx heq => (some.inj heq).symm

variable {itemIDs : List String}

lemma Holds.dropFromIndex (h : s.Holds st q₀ q) (hq₀ : WellFormed q₀)
    (hdrop : q = q₀.filter fun i => i.id st ∉ itemIDs) (a : Saves) : (s.dropFromIndex st itemIDs a).Holds st q q := by
  have hq : WellFormed q := hdrop ▸ hq₀.filter _
  obtain ⟨q₁, hq₁, hloaded, hidx⟩ := h.load hq a.rebuild
  unfold Store.dropFromIndex
  cases hload : s.loadOrRebuildQueueIndexLocked st a.rebuild with
  | mk s₁ idx =>
    rw [hload] at hloaded hidx
    cases idx with
    | none => exact hloaded.invalidate
    | some idx =>
      obtain rfl := hidx idx rfl
      -- Whether the old or the rebuilt index was read, what is left of it lists `q`.
      have hleft : itemIDs.foldl QueueReadIndex.removeItemID (indexOf st q₁) = indexOf st q := by
        obtain rfl | rfl := hq₁
        · rw [hq₀.named.removeItemIDs, hdrop]
        rw [hq.named.removeItemIDs]
        congr 1
        rw [hdrop, List.filter_filter]
        simp
      simp only [hleft]
      cases hsaved : s₁.saveQueueIndexLocked (indexOf st q) a.final with
      | mk s₂ ok =>
        have hsave := hloaded.save (a := a.final)
        rw [hsaved] at hsave
        cases ok with
        | true => exact hsave.1 rfl
        | false => exact (hsave.2 rfl).invalidate

lemma load_isSome (st : Stamp T) (s : Store T) (h : a.ok) : (s.loadOrRebuildQueueIndexLocked st a).2.isSome := by
  have hsave : ∀ idx, (s.saveQueueIndexLocked idx a).2 := by
    intro idx
    unfold saveQueueIndexLocked
    split_ifs <;> simp_all
  unfold loadOrRebuildQueueIndexLocked
  split_ifs
  · cases s.index with
    | none => simp [rebuildQueueIndexLocked, hsave]
    | some file =>
      cases s.cache with
      | none => rfl
      | some file =>
        simp only
        split_ifs <;> rfl
  · rfl

section
variable (h : s.Holds st q₀ q)
include h

lemma Holds.listItems (hq : WellFormed q) (priority : QueuePriority) :
    s.listItems priority = q.filter fun i => i.priority = priority := by
  have hmatch : (s.items.filter fun i => s.found && i.priority = priority && i.matchesPattern) =
      q.filter fun i => i.priority = priority := by
    rw [h.items]
    exact filter_congr fun i hi => by simp [h.found, hq.pattern i hi]
  rw [Store.listItems, hmatch]
  exact List.Pairwise.insertionSort_eq ((hq.filter _).ordered.imp le_of_lt)

lemma Holds.firstItem (hq : WellFormed q) : s.firstItem = (inOrder q).head? := by
  rw [Store.firstItem, h.listItems hq, h.listItems hq, inOrder, head?_append]

lemma Holds.lock : ({s with present := true} : Store T).Holds st q₀ q := {h with absent := by simp}

lemma Holds.setItems {q' : List (Item T)} (hp : s.present) : ({s with items := q'} : Store T).Holds st q₀ q' :=
  {h with items := rfl, absent := by simp [hp]}

end

/-! ### The operations -/

section
variable (h : s.Holds st q q) (hq : WellFormed q)
include h hq

lemma Holds.enqueue {item pushed a} :
    (s.enqueue st item pushed a).1.Holds st (if (s.enqueue st item pushed a).2 then q++[item] else q)
      (if (s.enqueue st item pushed a).2 then q++[item] else q) := by
  obtain ⟨q₁, hq₁, hloaded, hidx⟩ := h.load hq a.rebuild
  obtain rfl : q₁ = q := by simpa using hq₁
  unfold enqueue
  cases hload : s.loadOrRebuildQueueIndexLocked st a.rebuild with
  | mk s₁ idx =>
    rw [hload] at hloaded hidx
    cases idx with
    | none => exact hloaded
    | some idx =>
      obtain rfl := hidx idx rfl
      by_cases hpush : (pushed && !('/' ∈ item.dagRun.id.toList))
      · simp only [hpush, if_true]
        have hpushed : ({s₁ with present := true, items := s₁.items++[item]} : Store T).Holds st q₁
            (q₁++[item]) := by
          rw [hloaded.items]
          exact hloaded.lock.setItems rfl
        rw [indexOf_append]
        cases hsaved : saveQueueIndexLocked {s₁ with present := true, items := s₁.items++[item]}
            (indexOf st (q₁++[item])) a.final with
        | mk s₂ ok =>
          have hsave := hpushed.save (a := a.final)
          rw [hsaved] at hsave
          cases ok with
          | true => exact hsave.1 rfl
          | false => exact (hsave.2 rfl).invalidate
      · simp only [hpush]
        exact hloaded

lemma Holds.dequeueByName {a} : (s.dequeueByName st a).2 = (inOrder q).head? ∧
      let q' := (inOrder q).head?.elim q q.erase
      (s.dequeueByName st a).1.Holds st q' q' := by
  unfold Store.dequeueByName
  rw [h.firstItem hq]
  cases hfirst : (inOrder q).head? with
  | none => exact ⟨rfl, h.lock⟩
  | some item =>
    have hi : item ∈ q := by
      have hmem : item ∈ inOrder q := mem_of_head? hfirst
      simp only [inOrder, mem_append, mem_filter] at hmem
      exact hmem.elim And.left And.left
    refine ⟨rfl, ?_⟩
    have hremoved : ({s with present := true, items := s.items.erase item} : Store T).Holds st q
        (q.erase item) := by
      rw [h.items]
      exact h.lock.setItems rfl
    exact hremoved.dropFromIndex hq (hq.named.erase_eq_filter hi) a

lemma Holds.dequeueByDAGRunID {dagRun a} :
    (s.dequeueByDAGRunID st dagRun a).2 = (inOrder q).filter (·.dagRun = dagRun) ∧
      let q' := q.filter fun i => i.dagRun ≠ dagRun
      (s.dequeueByDAGRunID st dagRun a).1.Holds st q' q' := by
  have hpopped : (s.listItems .high++s.listItems .low).filter (·.dagRun = dagRun) =
      (inOrder q).filter fun i => i.dagRun = dagRun := by rw [h.listItems hq, h.listItems hq, inOrder]
  have hleft : (s.items.filter fun i => !(s.found && i.matchesPattern && i.dagRun = dagRun)) =
      q.filter fun i => i.dagRun ≠ dagRun := by
    rw [h.items]
    exact filter_congr fun i hi => by simp [h.found, hq.pattern i hi]
  have hremoved : ({s with present := true, items := q.filter fun i => i.dagRun ≠ dagRun} :
      Store T).Holds st q (q.filter fun i => i.dagRun ≠ dagRun) := h.lock.setItems rfl
  have hmem : ∀ i ∈ q, i.dagRun = dagRun ↔ i ∈ (inOrder q).filter (·.dagRun = dagRun) := by
    intro i hi
    cases hp : i.priority <;> simp [inOrder, hi, hp]
  simp only [Store.dequeueByDAGRunID, hpopped, hleft]
  split_ifs with hempty
  · rw [List.isEmpty_iff] at hempty
    refine ⟨hempty.symm, ?_⟩
    have hsame : (q.filter fun i => i.dagRun ≠ dagRun) = q := by
      rw [filter_eq_self]
      intro i hi
      have hnot := (hmem i hi).not.mpr (by simp [hempty])
      simpa using hnot
    rw [hsame] at hremoved ⊢
    exact hremoved
  refine ⟨rfl, hremoved.dropFromIndex hq ?_ a⟩
  refine filter_congr fun i hi => ?_
  have hids : i.id st ∈ ((inOrder q).filter fun i => i.dagRun = dagRun).map (Item.id st) ↔ i.dagRun = dagRun := by
    rw [hmem i hi, List.mem_map]
    constructor
    · rintro ⟨j, hj, hid⟩
      have hjq : j ∈ q := by
        simp only [inOrder, mem_filter, mem_append] at hj
        exact hj.1.elim And.left And.left
      exact hq.named.id_inj hjq hi hid ▸ hj
    · exact fun hj => ⟨i, hj, rfl⟩
  simp [hids]

end

lemma Holds.deleteFiles (h : s.Holds st q₀ q) (hp : s.present)
    (hq : WellFormed q) (hplain : ∀ itemID ∈ itemIDs, '/' ∉ itemID.toList) :
    (s.deleteFiles st itemIDs).Holds st q₀ (q.filter fun i => i.id st ∉ itemIDs) ∧
      (s.deleteFiles st itemIDs).present := by
  induction itemIDs generalizing s q with
  | nil => simpa [deleteFiles] using ⟨h, hp⟩
  | cons itemID itemIDs ih =>
    have hrest : ∀ itemID ∈ itemIDs, '/' ∉ itemID.toList := fun id hid => hplain id (mem_cons_of_mem _ hid)
    have hbase : base (itemID ++ ".json") = itemID ++ ".json" := base_of_plain (by simp [hplain itemID mem_cons_self])
    have hsplit : (q.filter fun i => i.id st ≠ itemID).filter (·.id st ∉ itemIDs) =
        q.filter fun i => i.id st ∉ itemID::itemIDs := by
      rw [List.filter_filter]
      exact filter_congr fun i _ => by simp [Bool.and_comm]
    rw [← hsplit]
    by_cases hempty : itemID = ""
    · rw [filter_id_absent itemID fun i hi => hempty ▸ hq.named.id_ne_empty hi]
      have hskip : s.deleteFiles st (itemID::itemIDs) = s.deleteFiles st itemIDs := by simp [deleteFiles, hempty]
      rw [hskip]
      exact ih h hp hq hrest
    have hjson : itemID ++ ".json" ≠ ".json" := append_json_eq_iff.not.mpr hempty
    have hremove : s.deleteFiles st (itemID::itemIDs) =
        (s.removeFile st (itemID ++ ".json")).deleteFiles st itemIDs := by simp [deleteFiles, hempty, hbase, hjson]
    rw [hremove]
    refine ih ⟨?_, h.found, ?_, ?_, by simp [removeFile, hp]⟩ hp (hq.filter _) hrest
    · -- A file is hit exactly if its ID is.
      simp only [removeFile, h.items]
      refine filter_congr fun i hi => ?_
      have hid : i.id st = i.stem st := id_eq_stem (hq.plain i hi)
      simp [fileName, hid]
    · intro idx modTime hindex
      simp only [removeFile] at hindex
      split_ifs at hindex
      exact h.index idx modTime hindex
    · intro idx cached modTime hindex hcache
      simp only [removeFile] at hindex
      split_ifs at hindex
      exact h.cache idx cached modTime hindex hcache

variable (h : s.Holds st q q) (hq : WellFormed q)
include h hq

lemma Holds.deleteByItemIDs {a : Saves} (hplain : ∀ itemID ∈ itemIDs, '/' ∉ itemID.toList) :
    let q' := q.filter fun i => i.id st ∉ itemIDs
    (s.deleteByItemIDs st itemIDs none a).Holds st q' q' := (h.lock.deleteFiles rfl hq hplain).1.dropFromIndex hq rfl a

/-- What `List` and `Len` answer, unless a rebuilt index cannot be saved. -/
lemma Holds.loaded : (s.loadOrRebuildQueueIndexLocked st a).1.Holds st q q ∧
      (∀ idx, (s.loadOrRebuildQueueIndexLocked st a).2 = some idx → idx = indexOf st q) ∧
      (a.ok → (s.loadOrRebuildQueueIndexLocked st a).2 = some (indexOf st q)) := by
  obtain ⟨q₁, hq₁, hloaded, hidx⟩ := h.load hq a
  obtain rfl : q₁ = q := by simpa using hq₁
  refine ⟨hloaded, hidx, fun hok => ?_⟩
  obtain ⟨idx, hsome⟩ := isSome_iff_exists.mp (load_isSome st s hok)
  rw [hsome, hidx idx hsome]

lemma Holds.list : (∀ listed, (s.list st a).2 = some listed → listed = (inOrder q).map (fileName st)) ∧
      (a.ok → (s.list st a).2 = some ((inOrder q).map (fileName st))) := by
  obtain ⟨-, hidx, hok⟩ := h.loaded hq (a := a)
  refine ⟨fun listed hlist => ?_, fun ha => ?_⟩
  · obtain ⟨idx, hsome, rfl⟩ := map_eq_some_iff.mp hlist
    rw [hidx idx hsome, indexOf_entries]
  · simp only [Store.list, hok ha, map_some, indexOf_entries]

lemma Holds.len : (∀ n, (s.len st a).2 = some n → n = q.length) ∧ (a.ok → (s.len st a).2 = some q.length) := by
  obtain ⟨-, hidx, hok⟩ := h.loaded hq (a := a)
  refine ⟨fun n hlen => ?_, fun ha => ?_⟩
  · obtain ⟨idx, hsome, rfl⟩ := map_eq_some_iff.mp hlen
    rw [hidx idx hsome, indexOf_total]
  · simp only [Store.len, hok ha, map_some, indexOf_total]

end Store

/-! ### Runs -/

structure System (T : Type) where
  store : Store T
  queued : List (Item T)
  /-- The time of the last `Enqueue`. -/
  last : WithBot T

inductive Label (T : Type)
  | enqueue (item : Item T) (pushed : Bool) (a : Saves)
  | dequeueByName (a : Saves)
  | dequeueByDAGRunID (dagRun : DAGRunRef) (a : Saves)
  | deleteByItemIDs (itemIDs : List String) (fault : Option ℕ) (a : Saves)
  | list (a : Save)
  | len (a : Save)

namespace System
variable {T : Type} [LinearOrder T] (st : Stamp T)

def step (s : System T) : Label T → Option (System T)
  | .enqueue item pushed a =>
    if s.last < item.queuedAt then
      let r := s.store.enqueue st item pushed a
      some ⟨r.1, if r.2 then s.queued++[item] else s.queued, item.queuedAt⟩
    else none
  | .dequeueByName a =>
    let r := s.store.dequeueByName st a
    some {s with store := r.1, queued := r.2.elim s.queued s.queued.erase}
  | .dequeueByDAGRunID dagRun a =>
    let r := s.store.dequeueByDAGRunID st dagRun a
    some {s with store := r.1, queued := s.queued.filter fun i => i ∉ r.2}
  | .deleteByItemIDs itemIDs fault a =>
    let removed := fault.elim itemIDs fun k => itemIDs.take k
    some {s with
      store := s.store.deleteByItemIDs st itemIDs fault a
      queued := s.queued.filter fun i => i.id st ∉ removed}
  | .list a => some {s with store := (s.store.list st a).1}
  | .len a => some {s with store := (s.store.len st a).1}

def start (found : Bool) : System T := ⟨.empty found, [], ⊥⟩

/-- Run IDs have neither a separator nor a line break, item IDs have no separator, and no removal of
an item file fails. -/
def regular : Label T → Bool
  | .enqueue item _ _ => decide ('/' ∉ item.dagRun.id.toList) && item.matchesPattern
  | .deleteByItemIDs itemIDs fault _ => itemIDs.all (fun itemID => '/' ∉ itemID.toList) && fault.isNone
  | _ => true

structure Refines (s : System T) : Prop where
  wellFormed : WellFormed s.queued
  earlier : ∀ i ∈ s.queued, (i.queuedAt : WithBot T) ≤ s.last
  holds : s.store.Holds st s.queued s.queued

variable {st} {s t : System T} {l : Label T}

lemma Refines.sublist {store q} (h : s.Refines st)
    (hsub : q.Sublist s.queued) (hholds : store.Holds st q q) : (⟨store, q, s.last⟩ : System T).Refines st :=
  ⟨h.wellFormed.sublist hsub, fun i hi => h.earlier i (hsub.subset hi), hholds⟩

lemma Refines.enqueue {item pushed a} (h : s.Refines st) (hl : regular (.enqueue item pushed a))
    (hstep : s.step st (.enqueue item pushed a) = some t) : t.Refines st := by
  have hholds : (s.store.enqueue st item pushed a).1.Holds st _ _ := h.holds.enqueue h.wellFormed
  simp only [regular, Bool.and_eq_true, decide_eq_true_eq] at hl
  simp only [step] at hstep
  split_ifs at hstep with htime hadded
  · cases hstep
    rw [if_pos hadded] at hholds
    have hlater : ∀ i ∈ s.queued, i.queuedAt < item.queuedAt := fun i hi =>
      WithBot.coe_lt_coe.mp ((h.earlier i hi).trans_lt htime)
    refine ⟨⟨?_, ?_, ?_⟩, ?_, hholds⟩
    · exact pairwise_append.mpr ⟨h.wellFormed.ordered, pairwise_singleton _ _, by simpa using hlater⟩
    · simpa [or_imp, forall_and, hl.1] using h.wellFormed.plain
    · simpa [or_imp, forall_and, hl.2] using h.wellFormed.pattern
    · simpa [or_imp, forall_and] using fun i hi => (hlater i hi).le
  · cases hstep
    rw [if_neg hadded] at hholds
    exact ⟨h.wellFormed, fun i hi => (h.earlier i hi).trans htime.le, hholds⟩

lemma Refines.step (h : s.Refines st) (hl : regular l) (hstep : s.step st l = some t) : t.Refines st := by
  cases l with
  | enqueue item pushed a => exact h.enqueue hl hstep
  | dequeueByName a =>
    cases hstep
    obtain ⟨hfirst, hholds⟩ := h.holds.dequeueByName h.wellFormed (a := a)
    rw [hfirst]
    refine h.sublist ?_ hholds
    cases (inOrder s.queued).head? with
    | none => exact List.Sublist.refl _
    | some item => exact erase_sublist
  | dequeueByDAGRunID dagRun a =>
    cases hstep
    have hremoved : (s.store.dequeueByDAGRunID st dagRun a).2 =
        (inOrder s.queued).filter (·.dagRun = dagRun) := (h.holds.dequeueByDAGRunID h.wellFormed).1
    have hleft : (s.queued.filter fun i => i ∉ (s.store.dequeueByDAGRunID st dagRun a).2) =
        s.queued.filter fun i => i.dagRun ≠ dagRun := by
      rw [hremoved]
      refine filter_congr fun i hi => ?_
      cases hp : i.priority <;> simp [inOrder, hi, hp]
    rw [hleft]
    exact h.sublist filter_sublist (h.holds.dequeueByDAGRunID h.wellFormed).2
  | deleteByItemIDs itemIDs fault a =>
    cases hstep
    simp only [regular, Bool.and_eq_true, List.all_eq_true, decide_eq_true_eq, isNone_iff_eq_none] at hl
    obtain ⟨hplain, rfl⟩ := hl
    exact h.sublist filter_sublist (h.holds.deleteByItemIDs h.wellFormed hplain)
  | list a | len a =>
    cases hstep
    exact h.sublist (List.Sublist.refl _) (h.holds.loaded h.wellFormed).1

lemma refines_start : (start true : System T).Refines st :=
  ⟨wellFormed_nil, by simp [start], ⟨rfl, rfl, by simp [start, empty], by simp [start, empty], by simp [start, empty]⟩⟩

def saved : Save := ⟨true, 1⟩
def failed : Save := ⟨false, 1⟩

def mixed : System (Fin 10) :=
  follow (step digits) (fun _ l => regular l) (start true)
    [(.enqueue ⟨.low, 1, ⟨"etl", "a"⟩⟩ true ⟨saved, saved⟩, 1), (.enqueue ⟨.high, 2, ⟨"etl", "b"⟩⟩ true ⟨saved, failed⟩, 1),
      (.enqueue ⟨.low, 3, ⟨"etl", "c"⟩⟩ true ⟨saved, saved⟩, 1)]

def single (found : Bool) (id : String) (final : Save) : System (Fin 10) :=
  play (step digits) (start found) [(.enqueue ⟨.low, 1, ⟨"etl", id⟩⟩ true ⟨saved, final⟩, 1)]

def deleted (itemIDs : List String) (fault : Option ℕ) : System (Fin 10) :=
  play (step digits) (start true) [(.enqueue ⟨.low, 1, ⟨"etl", "a"⟩⟩ true ⟨saved, saved⟩, 1),
    (.deleteByItemIDs itemIDs fault ⟨saved, saved⟩, 1)]

end System
end Ayatsuri.FileQueue
