import Ayatsuri.QueueStore
import Ayatsuri.TransitionSystem

/-! Several processes on one queue directory. Each process runs one operation at a time, as a
sequence of file-system steps; the index is read at the start of an operation and installed at its end,
and only the dequeue operations take the directory lock. -/
namespace Ayatsuri.FileQueue
open TransitionSystem List Option Item

inductive Removal
  | byName
  | byRun (dagRun : DAGRunRef)
  | byIDs (itemIDs : List String)

def Removal.plain : Removal → Bool
  | .byIDs itemIDs => itemIDs.all fun itemID => '/' ∉ itemID.toList
  | _ => true

inductive Operation (T : Type)
  | list
  | enqueue (item : Item T)
  | remove (r : Removal)

inductive Goal (T : Type)
  | list
  | enqueue (item : Item T)
  | drop (itemIDs : List String)

inductive Pc (T : Type)
  | idle
  | lock (r : Removal)
  | scan (r : Removal) (ps : List QueuePriority) (removed : List String)
  | remove (r : Removal) (files : List (String × String)) (ps : List QueuePriority) (removed : List String)
  | statDir (g : Goal T)
  | statIndex (g : Goal T)
  | readIndex (g : Goal T) (modTime : Option ℕ)
  | readDir (g : Goal T)
  /-- `saveQueueIndexLocked` changes the index file, in a rebuild or at the end. -/
  | install (rebuilding : Bool) (g : Goal T) (idx : QueueReadIndex)
  | statSaved (rebuilding : Bool) (g : Goal T) (idx : QueueReadIndex)
  | loaded (g : Goal T) (idx : QueueReadIndex)
  | invalidate (g : Goal T)
  | unlock

structure Answer where
  ok : Bool
  modTime : ℕ
  stale : Bool

namespace Pc
variable {T : Type}

def isIdle : Pc T → Bool
  | .idle => true
  | _ => false

lemma eq_idle_of_isIdle {pc : Pc T} (h : pc.isIdle) : pc = .idle := by cases pc <;> simp_all [isIdle]

def finish : Goal T → Pc T
  | .drop _ => .unlock
  | _ => .idle

variable (rebuilding : Bool)

/-- `rebuildQueueIndexLocked` hands on its error; only the dequeue operations then invalidate. -/
def saveFailed (g : Goal T) : Pc T :=
  if rebuilding then
    match g with
    | .drop _ => .invalidate g
    | _ => finish g
  else .invalidate g

def saved (g : Goal T) (idx : QueueReadIndex) : Pc T := if rebuilding then .loaded g idx else finish g

def first : Removal → Pc T
  | .byIDs itemIDs => .remove (.byIDs itemIDs) (itemIDs.map fun itemID => (base (itemID ++ ".json"), itemID)) [] []
  | r => .scan r [.high, .low] []

def ofOperation : Operation T → Pc T
  | .list => .statDir .list
  | .enqueue item => .statDir (.enqueue item)
  | .remove r => .lock r

end Pc

namespace Store
variable {T : Type} [LinearOrder T] (st : Stamp T) (s : Store T)

def candidates (priority : QueuePriority) : Removal → List (Item T)
  | .byName => (s.listItems priority).head?.toList
  | .byRun dagRun => (s.listItems priority).filter fun i => i.dagRun = dagRun
  | .byIDs _ => []

def fileExists (fileName : String) : Bool :=
  s.items.any (·.fileName st = fileName) || (fileName = queueIndexFileName && s.index.isSome)

def act (a : Answer) : Pc T → Option (Store T × Pc T)
  | .idle | .lock _ | .unlock => none
  | .scan r [] removed =>
    match r with
    | .byName => some (s, .unlock)
    | _ => some (s, if removed = [] then .unlock else .statDir (.drop removed))
  | .scan r (p::ps) removed =>
    match s.candidates p r with
    | [] => some (s, .scan r ps removed)
    | items => some (s, .remove r (items.map fun i => (i.fileName st, i.id st)) ps removed)
  | .remove r [] ps removed =>
    match r with
    | .byRun _ => some (s, .scan r ps removed)
    | _ => some (s, .statDir (.drop removed))
  | .remove r ((fileName, itemID)::files) ps removed =>
    match r with
    | .byIDs _ =>
      if fileName = ".json" then some (s, .remove r files ps (removed++[itemID]))
      else if a.ok then some (s.removeFile st fileName, .remove r files ps (removed++[itemID]))
      else some (s, .unlock)
    | .byRun _ =>
      if a.ok && s.fileExists st fileName then
        some (s.removeFile st fileName, .remove r files ps (removed++[itemID]))
      else some (s, .remove r files ps removed)
    | .byName =>
      if a.ok && s.fileExists st fileName then
        some (s.removeFile st fileName, .remove r files ps (removed++[itemID]))
      else some (s, .unlock)
  | .statDir g =>
    if s.present then some (s, .statIndex g)
    else some ({s with cache := none}, .loaded g ⟨[], []⟩)
  | .statIndex g =>
    match s.index, s.cache with
    | some (_, modTime), some (cached, cachedAt) =>
      if cachedAt = modTime then some (s, .loaded g cached) else some (s, .readIndex g (some modTime))
    | some (_, modTime), none => some (s, .readIndex g (some modTime))
    | none, _ => some (s, .readIndex g none)
  | .readIndex g modTime =>
    match s.index with
    | some (idx, _) => some ({s with cache := some (idx, modTime.getD 0)}, .loaded g idx)
    | none => some (s, .readDir g)
  | .readDir g => some (s, .install true g ⟨s.sortedNames st .high, s.sortedNames st .low⟩)
  | .install rebuilding g idx =>
    if idx.total = 0 then
      if a.ok || s.index.isNone then
        some ({s with cache := none, index := none}, .saved rebuilding g idx)
      else some ({s with cache := none}, .saveFailed rebuilding g)
    else if a.ok then
      some ({s with present := true, index := some (idx, a.modTime)}, .statSaved rebuilding g idx)
    else some (s, .saveFailed rebuilding g)
  | .statSaved rebuilding g idx =>
    some ({s with cache := some (idx, (s.index.map Prod.snd).getD 0)}, .saved rebuilding g idx)
  | .loaded g idx =>
    match g with
    | .list => some (s, .idle)
    | .enqueue item =>
      if a.ok && !('/' ∈ item.dagRun.id.toList) then
        some ({s with
          present := true
          items := (s.items.filter fun i => i.fileName st ≠ item.fileName st)++[item]},
          .install false g (idx.append item.priority (item.fileName st)))
      else some (s, .idle)
    | .drop itemIDs => some (s, .install false g (itemIDs.foldl QueueReadIndex.removeItemID idx))
  | .invalidate g => some (s.invalidateQueueIndexLocked, .finish g)

end Store

structure Process (T : Type) where
  cache : Option (QueueReadIndex × ℕ)
  pc : Pc T

structure Shared (T : Type) where
  present : Bool
  items : List (Item T)
  index : Option (QueueReadIndex × ℕ)
  lock : Option ℕ
  procs : List (Process T)
  /-- As in `Store`. -/
  found : Bool

namespace Shared
variable {T : Type} [LinearOrder T] (st : Stamp T)

inductive Event (T : Type)
  | start (i : ℕ) (op : Operation T)
  | act (i : ℕ) (a : Answer)

variable (s : Shared T)

def view (p : Process T) : Store T := ⟨s.present, s.items, s.index, p.cache, s.found⟩

def put (i : ℕ) (store : Store T) (pc : Pc T) : Shared T :=
  {s with
    present := store.present
    items := store.items
    index := store.index
    procs := s.procs.set i ⟨store.cache, pc⟩
    found := store.found}

def step : Event T → Option (Shared T)
  | .start i op => do
    let p ← s.procs[i]?
    if p.pc.isIdle then some (s.put i (s.view p) (.ofOperation op)) else none
  | .act i a => do
    let p ← s.procs[i]?
    match p.pc with
    | .lock r =>
      if s.lock = none || a.stale then
        some {s.put i {s.view p with present := true} (.first r) with lock := some i}
      else none
    | .unlock => some {s.put i (s.view p) .idle with lock := if s.lock = some i then none else s.lock}
    | pc => ((s.view p).act st a pc).map fun r => s.put i r.1 r.2

def empty (n : ℕ) (found : Bool) : Shared T := ⟨false, [], none, none, replicate n ⟨none, .idle⟩, found⟩

def quiet : Bool := s.procs.all fun p => p.pc.isIdle

/-- An operation starts only while none is in progress, with item IDs that have no separator; an item
file has a new name, the removal of an item by its ID does not fail, and a new index file has a
modification time that no process remembers. -/
def careful : Event T → Bool
  | .start _ op =>
    s.quiet &&
      match op with
      | .remove r => r.plain
      | _ => true
  | .act i a =>
    match (s.procs[i]?).map Process.pc with
    | some (.remove (.byIDs _) (_::_) _ _) => a.ok
    | some (.loaded (.enqueue item) _) => s.items.all fun i => i.fileName st ≠ item.fileName st
    | some (.install _ _ _) => s.procs.all fun p => p.cache.all fun c => c.2 ≠ a.modTime
    | _ => true

end Shared

open Store

/-! ### One operation alone -/

namespace Store
variable {T : Type} [LinearOrder T] {st : Stamp T} {s t : Store T} {a : Answer} {g : Goal T}

def dropped : Goal T → List String
  | .drop itemIDs => itemIDs
  | _ => []

structure Behind (st : Stamp T) (s : Store T) (itemIDs : List String) : Prop where
  index : ∀ idx modTime, s.index = some (idx, modTime) → Lists st (itemIDs.foldl QueueReadIndex.removeItemID idx) s.items
  absent : ∀ itemID ∈ itemIDs, ∀ i ∈ s.items, i.id st ≠ itemID

def Phase (st : Stamp T) (s : Store T) : Pc T → Prop
  | .idle | .unlock => s.Behind st []
  | .lock r => s.Behind st [] ∧ r.plain
  | .scan r _ removed => s.Behind st removed ∧ (r = .byName → removed = [])
  | .remove r files _ removed =>
    s.Behind st removed ∧ (∀ f ∈ files, f.1 = f.2 ++ ".json" ∧ '/' ∉ f.2.toList) ∧
      (r = .byName → files.length+removed.length ≤ 1)
  | .statDir g | .statIndex g => s.Behind st (dropped g)
  | .readIndex g modTime => s.Behind st (dropped g) ∧ modTime = s.index.map Prod.snd
  | .readDir g => s.Behind st (dropped g) ∧ s.index = none
  | .install rebuilding g idx =>
    Lists st idx s.items ∧ (∀ itemID ∈ dropped g, ∀ i ∈ s.items, i.id st ≠ itemID) ∧ (rebuilding → s.index = none)
  | .statSaved _ g idx =>
    Lists st idx s.items ∧ (∀ itemID ∈ dropped g, ∀ i ∈ s.items, i.id st ≠ itemID) ∧
      ∃ modTime, s.index = some (idx, modTime)
  | .loaded g idx => Lists st ((dropped g).foldl QueueReadIndex.removeItemID idx) s.items ∧ s.Behind st (dropped g)
  | .invalidate _ => True

structure Good (st : Stamp T) (s : Store T) (pc : Pc T) : Prop where
  named : Named st s.items
  missing : s.present = false → s.items = [] ∧ s.index = none
  cache : ∀ idx cached modTime, s.index = some (idx, modTime) → s.cache = some (cached, modTime) → cached = idx
  phase : s.Phase st pc

def Permitted (st : Stamp T) (s : Store T) (a : Answer) : Pc T → Prop
  | .remove (.byIDs _) (_::_) _ _ => a.ok
  | .loaded (.enqueue item) _ => ∀ i ∈ s.items, i.fileName st ≠ item.fileName st
  | .install _ _ _ => ∀ cached modTime, s.cache = some (cached, modTime) → modTime ≠ a.modTime
  | _ => True

lemma behind_of_none {itemIDs} (hnone : s.index = none)
    (habsent : ∀ itemID ∈ itemIDs, ∀ i ∈ s.items, i.id st ≠ itemID) : s.Behind st itemIDs := ⟨by simp [hnone], habsent⟩

variable {fileName itemID : String}

lemma items_removeFile (hq : Named st s.items) (hname : fileName = itemID ++ ".json") :
    (s.removeFile st fileName).items = s.items.filter fun i => i.id st ≠ itemID := by
  refine filter_congr fun i hi => ?_
  have hid : i.id st = i.stem st := Item.id_eq_stem (hq.plain i hi)
  simp [Item.fileName, hid, hname]

lemma index_removeFile (st : Stamp T) (s : Store T) (fileName : String) :
    (s.removeFile st fileName).index = s.index ∨ (s.removeFile st fileName).index = none := by
  unfold removeFile
  dsimp only
  split_ifs
  · exact .inr rfl
  · exact .inl rfl

variable {removed : List String}

lemma Behind.removeFile
    (h : s.Behind st removed) (hq : Named st s.items) (hname : fileName = itemID ++ ".json") :
    (s.removeFile st fileName).Behind st (removed++[itemID]) := by
  have hitems := items_removeFile hq hname
  constructor
  · intro idx modTime hindex
    have hold : s.index = some (idx, modTime) := by
      obtain hsame | hnone := index_removeFile st s fileName
      · exact hsame ▸ hindex
      · simp [hnone] at hindex
    rw [hitems, foldl_append]
    exact (h.index idx modTime hold).removeItemID hq itemID
  · intro id hid i hi
    rw [hitems, mem_filter] at hi
    obtain hid | hid := mem_append.mp hid
    · exact h.absent id hid i hi.1
    · rw [mem_singleton.mp hid]
      simpa using hi.2

lemma Behind.skip (h : s.Behind st removed)
    (hq : Named st s.items) (habsent : ∀ i ∈ s.items, i.id st ≠ itemID) : s.Behind st (removed++[itemID]) := by
  constructor
  · intro idx modTime hindex
    rw [foldl_append]
    exact (h.index idx modTime hindex).removeAbsent hq (by simpa using habsent)
  · simpa [or_imp, forall_and] using ⟨h.absent, habsent⟩

variable {pc pc' : Pc T}

lemma Good.removeFile (h : s.Good st pc) (hname : fileName = itemID ++ ".json")
    (hphase : (s.removeFile st fileName).Phase st pc') : (s.removeFile st fileName).Good st pc' where
  named := by
    rw [items_removeFile h.named hname]
    exact h.named.filter _
  missing hp := by
    obtain ⟨hitems, hindex⟩ := h.missing hp
    refine ⟨by simp [Store.removeFile, hitems], ?_⟩
    obtain hsame | hnone := index_removeFile st s fileName
    · exact hsame.trans hindex
    · exact hnone
  cache idx cached modTime hindex hcache := by
    obtain hsame | hnone := index_removeFile st s fileName
    · exact h.cache idx cached modTime (hsame ▸ hindex) hcache
    · simp [hnone] at hindex
  phase := hphase

lemma Good.goto (h : s.Good st pc) (hphase : s.Phase st pc') : s.Good st pc' :=
  {h with phase := hphase}

lemma mem_of_mem_listItems {p i} (h : i ∈ s.listItems p) : i ∈ s.items :=
  (mem_filter.mp ((perm_insertionSort _ _).mem_iff.mp h)).1

variable {r : Removal}

lemma mem_of_mem_candidates {p i} (h : i ∈ s.candidates p r) : i ∈ s.items := by
  cases r with
  | byName => exact mem_of_mem_listItems (mem_of_head? (by simpa [candidates] using h))
  | byRun dagRun => exact mem_of_mem_listItems (mem_filter.mp h).1
  | byIDs => simp [candidates] at h

variable {ps : List QueuePriority}

lemma Good.scan
    (h : s.Good st (.scan r ps removed)) (hact : s.act st a (.scan r ps removed) = some (t, pc)) : t.Good st pc := by
  obtain ⟨hbehind, hname⟩ := h.phase
  cases ps with
  | nil =>
    simp only [act] at hact
    split at hact
    · cases hact
      obtain rfl := hname rfl
      exact h.goto hbehind
    cases hact
    split_ifs with hnil
    · subst hnil
      exact h.goto hbehind
    · exact h.goto hbehind
  | cons p ps =>
    simp only [act] at hact
    split at hact
    · cases hact
      exact h.goto ⟨hbehind, hname⟩
    cases hact
    refine h.goto ⟨hbehind, fun f hf => ?_, fun hr => ?_⟩
    · obtain ⟨i, hi, rfl⟩ := mem_map.mp hf
      have hplain := h.named.plain i (mem_of_mem_candidates hi)
      dsimp only
      rw [id_eq_stem hplain]
      exact ⟨rfl, stem_plain hplain⟩
    · subst hr
      cases hhead : (s.listItems p).head? <;> simp [candidates, hhead, hname rfl]

lemma Good.remove {files} (h : s.Good st (.remove r files ps removed))
    (hp : s.Permitted st a (.remove r files ps removed))
    (hact : s.act st a (.remove r files ps removed) = some (t, pc)) : t.Good st pc := by
  obtain ⟨hbehind, hfiles, hname⟩ := h.phase
  cases files with
  | nil =>
    simp only [act] at hact
    split at hact
    · cases hact
      exact h.goto ⟨hbehind, by simp⟩
    · cases hact
      exact h.goto hbehind
  | cons f files =>
    obtain ⟨fileName, itemID⟩ := f
    obtain ⟨hjson, hplain⟩ := hfiles _ mem_cons_self
    have hrest : ∀ f ∈ files, f.1 = f.2 ++ ".json" ∧ '/' ∉ f.2.toList := fun f hf => hfiles f (mem_cons_of_mem _ hf)
    have hremoved : (s.removeFile st fileName).Good st (.remove r files ps (removed++[itemID])) := by
      refine h.removeFile hjson ⟨hbehind.removeFile h.named hjson, hrest, fun hr => ?_⟩
      have hlen := hname hr
      simp only [length_cons, length_append, length_nil] at hlen ⊢
      omega
    cases r with
    | byIDs itemIDs =>
      have hok : a.ok := hp
      simp only [act, hok, if_true] at hact
      split_ifs at hact with hskip
      · cases hact
        -- Only the empty ID makes the bare extension.
        have hempty : itemID = "" := append_json_eq_iff.mp (hjson.symm.trans hskip)
        refine h.goto ⟨hbehind.skip h.named fun i hi => ?_, hrest, by simp⟩
        exact hempty ▸ h.named.id_ne_empty hi
      · cases hact
        exact hremoved
    | byRun dagRun =>
      simp only [act] at hact
      split_ifs at hact
      · cases hact
        exact hremoved
      · cases hact
        exact h.goto ⟨hbehind, hrest, by simp⟩
    | byName =>
      simp only [act] at hact
      split_ifs at hact
      · cases hact
        exact hremoved
      cases hact
      obtain rfl : removed = [] := by
        have hlen := hname rfl
        simp only [length_cons] at hlen
        exact eq_nil_of_length_eq_zero (by omega)
      exact h.goto hbehind

lemma Good.statDir (h : s.Good st (.statDir g)) (hact : s.act st a (.statDir g) = some (t, pc)) : t.Good st pc := by
  have hbehind : s.Behind st (dropped g) := h.phase
  simp only [act] at hact
  split_ifs at hact with hpresent
  · cases hact
    exact h.goto hbehind
  cases hact
  have hmissing := h.missing (by simpa using hpresent)
  refine ⟨h.named, h.missing, by simp, ?_, ⟨hbehind.index, hbehind.absent⟩⟩
  dsimp only
  rw [hmissing.1]
  exact (lists_indexOf []).removeAbsent (by simpa [hmissing.1] using h.named) (by simp)

lemma Good.statIndex (h : s.Good st (.statIndex g))
    (hact : s.act st a (.statIndex g) = some (t, pc)) : t.Good st pc := by
  have hbehind : s.Behind st (dropped g) := h.phase
  simp only [act] at hact
  split at hact
  · next idx modTime cached cachedAt hindex hcache =>
    split_ifs at hact with htime
    · cases hact
      subst htime
      have hsame : cached = idx := h.cache idx cached cachedAt hindex hcache
      exact h.goto ⟨hsame ▸ hbehind.index idx cachedAt hindex, hbehind⟩
    · cases hact
      exact h.goto ⟨hbehind, by simp [hindex]⟩
  · next hindex _ =>
    cases hact
    exact h.goto ⟨hbehind, by simp [hindex]⟩
  · next hindex =>
    cases hact
    exact h.goto ⟨hbehind, by simp [hindex]⟩

lemma Good.readIndex {m} (h : s.Good st (.readIndex g m))
    (hact : s.act st a (.readIndex g m) = some (t, pc)) : t.Good st pc := by
  obtain ⟨hbehind, rfl⟩ := h.phase
  simp only [act] at hact
  split at hact
  · next idx modTime hindex =>
    cases hact
    refine ⟨h.named, h.missing, ?_, hbehind.index idx modTime hindex, ⟨hbehind.index, hbehind.absent⟩⟩
    intro idx' cached modTime' hi hc
    have hi' : s.index = some (idx', modTime') := hi
    rw [hindex] at hi'
    simp only [hindex, some.injEq, Prod.mk.injEq] at hi' hc
    exact hc.1.symm.trans hi'.1
  · next hindex =>
    cases hact
    exact h.goto ⟨hbehind, hindex⟩

lemma Good.readDir (h : s.Good st (.readDir g)) (hact : s.act st a (.readDir g) = some (t, pc)) : t.Good st pc := by
  obtain ⟨hbehind, hnone⟩ := h.phase
  simp only [act] at hact
  cases hact
  exact h.goto ⟨⟨perm_insertionSort _ _, perm_insertionSort _ _⟩, hbehind.absent, fun _ => hnone⟩

variable {rebuilding : Bool} {idx : QueueReadIndex}

lemma phase_saved (hq : Named st s.items) (hlists : Lists st idx s.items)
    (habsent : ∀ itemID ∈ dropped g, ∀ i ∈ s.items, i.id st ≠ itemID)
    (hindex : ∀ idx' modTime, s.index = some (idx', modTime) → idx' = idx) : s.Phase st (.saved rebuilding g idx) := by
  have hcurrent : ∀ itemIDs, (∀ itemID ∈ itemIDs, ∀ i ∈ s.items, i.id st ≠ itemID) →
      s.Behind st itemIDs := fun itemIDs habs =>
    ⟨fun idx' modTime hi => by
      rw [hindex idx' modTime hi]
      exact hlists.removeAbsent hq habs, habs⟩
  cases rebuilding with
  | true => exact ⟨hlists.removeAbsent hq habsent, hcurrent _ habsent⟩
  | false => cases g <;> exact hcurrent [] (by simp)

lemma phase_saveFailed (h : rebuilding → s.index = none) : s.Phase st (.saveFailed rebuilding g) := by
  cases rebuilding with
  | false => exact trivial
  | true =>
    cases g with
    | drop itemIDs => exact trivial
    | list | enqueue item => exact behind_of_none (h rfl) (by simp)

lemma Good.install
    (h : s.Good st (.install rebuilding g idx)) (hp : s.Permitted st a (.install rebuilding g idx))
    (hact : s.act st a (.install rebuilding g idx) = some (t, pc)) : t.Good st pc := by
  obtain ⟨hlists, habsent, hnone⟩ := h.phase
  simp only [act] at hact
  split_ifs at hact with htotal hremove hok
  · cases hact
    exact ⟨h.named, fun hm => ⟨(h.missing hm).1, rfl⟩, by simp, phase_saved h.named hlists habsent (by simp)⟩
  · cases hact
    exact ⟨h.named, h.missing, by simp, phase_saveFailed hnone⟩
  · cases hact
    refine ⟨h.named, by simp, ?_, hlists, habsent, _, rfl⟩
    intro idx' cached modTime hi hc
    simp only [some.injEq, Prod.mk.injEq] at hi
    exact absurd hi.2.symm (hp cached modTime hc)
  · cases hact
    exact h.goto (phase_saveFailed hnone)

lemma Good.statSaved (h : s.Good st (.statSaved rebuilding g idx))
    (hact : s.act st a (.statSaved rebuilding g idx) = some (t, pc)) : t.Good st pc := by
  obtain ⟨hlists, habsent, modTime, hindex⟩ := h.phase
  simp only [act] at hact
  cases hact
  have hsame : ∀ idx' modTime', s.index = some (idx', modTime') → idx' = idx := by
    intro idx' modTime' hi
    rw [hindex] at hi
    simp only [some.injEq, Prod.mk.injEq] at hi
    exact hi.1.symm
  refine ⟨h.named, h.missing, ?_, phase_saved h.named hlists habsent hsame⟩
  intro idx' cached modTime' hi hc
  simp only [some.injEq, Prod.mk.injEq] at hc
  exact hc.1.symm.trans (hsame idx' modTime' hi).symm

lemma Good.loaded (h : s.Good st (.loaded g idx))
    (hp : s.Permitted st a (.loaded g idx)) (hact : s.act st a (.loaded g idx) = some (t, pc)) : t.Good st pc := by
  obtain ⟨hlists, hbehind⟩ := h.phase
  cases g with
  | list =>
    simp only [act] at hact
    cases hact
    exact h.goto hbehind
  | drop itemIDs =>
    simp only [act] at hact
    cases hact
    exact h.goto ⟨hlists, hbehind.absent, by simp⟩
  | enqueue item =>
    have hnew : ∀ i ∈ s.items, i.fileName st ≠ item.fileName st := hp
    simp only [act] at hact
    split_ifs at hact with hpush
    · cases hact
      have hall : (s.items.filter fun i => i.fileName st ≠ item.fileName st) = s.items := by
        rw [filter_eq_self]
        intro i hi
        simpa using hnew i hi
      have hplain : '/' ∉ item.dagRun.id.toList := by simpa using (Bool.and_eq_true_iff.mp hpush).2
      rw [hall]
      refine ⟨⟨?_, ?_⟩, by simp, h.cache, hlists.append item, by simp [dropped], by simp⟩
      · refine pairwise_append.mpr ⟨h.named.distinct, pairwise_singleton _ _, ?_⟩
        intro i hi j hj heq
        obtain rfl := mem_singleton.mp hj
        rw [id_eq_stem (h.named.plain i hi), id_eq_stem hplain] at heq
        exact hnew i hi (congrArg (· ++ ".json") heq)
      · simpa [or_imp, forall_and, hplain] using h.named.plain
    · cases hact
      exact h.goto hbehind

lemma Good.act (h : s.Good st pc) (hp : s.Permitted st a pc) (hact : s.act st a pc = some (t, pc')) : t.Good st pc' := by
  cases pc with
  | idle | lock | unlock => simp [act] at hact
  | scan r ps removed => exact h.scan hact
  | remove r files ps removed => exact h.remove hp hact
  | statDir g => exact h.statDir hact
  | statIndex g => exact h.statIndex hact
  | readIndex g m => exact h.readIndex hact
  | readDir g => exact h.readDir hact
  | install rebuilding g idx => exact h.install hp hact
  | statSaved rebuilding g idx => exact h.statSaved hact
  | loaded g idx => exact h.loaded hp hact
  | invalidate g =>
    simp only [act] at hact
    cases hact
    refine ⟨h.named, fun hm => ⟨(h.missing hm).1, rfl⟩, by simp [invalidateQueueIndexLocked], ?_⟩
    cases g <;> exact behind_of_none rfl (by simp)

lemma index_act (hact : s.act st a pc = some (t, pc')) : t.index = s.index ∨ t.index = none ∨
      (∃ rebuilding g idx, pc = .install rebuilding g idx ∧ t.index = some (idx, a.modTime)) := by
  cases pc with
  | idle | lock | unlock => simp [act] at hact
  | install rebuilding g idx =>
    simp only [act] at hact
    split_ifs at hact <;> cases hact
    · exact .inr (.inl rfl)
    · exact .inl rfl
    · exact .inr (.inr ⟨rebuilding, g, idx, rfl, rfl⟩)
    · exact .inl rfl
  | invalidate g =>
    simp only [act] at hact
    cases hact
    exact .inr (.inl rfl)
  | remove r files ps removed =>
    cases files with
    | nil => cases r <;> simp only [act] at hact <;> cases hact <;> exact .inl rfl
    | cons f files =>
      have hremoved := index_removeFile st s f.1
      cases r <;> simp only [act] at hact <;> split_ifs at hact <;> cases hact
      all_goals first
        | exact .inl rfl
        | exact hremoved.imp_right .inl
  | scan r ps removed =>
    left
    cases ps <;> simp only [act] at hact <;> split at hact <;> cases hact <;> rfl
  | statDir g =>
    left
    simp only [act] at hact
    split_ifs at hact <;> cases hact <;> rfl
  | statIndex g =>
    left
    simp only [act] at hact
    split at hact
    · split_ifs at hact <;> cases hact <;> rfl
    · cases hact
      rfl
    · cases hact
      rfl
  | readIndex g m =>
    left
    simp only [act] at hact
    split at hact <;> cases hact <;> rfl
  | readDir g | statSaved rebuilding g idx =>
    cases hact
    exact .inl rfl
  | loaded g idx =>
    left
    cases g with
    | list | drop =>
      cases hact
      rfl
    | enqueue item =>
      simp only [act] at hact
      split_ifs at hact <;> cases hact <;> rfl

end Store

/-! ### All processes -/

namespace Shared
variable {T : Type} [LinearOrder T] {st : Stamp T} {s t : Shared T}

structure Inv (st : Stamp T) (s : Shared T) : Prop where
  named : Named st s.items
  missing : s.present = false → s.items = [] ∧ s.index = none
  coherent : ∀ p ∈ s.procs, ∀ idx cached modTime, s.index = some (idx, modTime) →
    p.cache = some (cached, modTime) → cached = idx
  active : ∃ i, (∀ (j : ℕ) (p : Process T), j ≠ i → s.procs[j]? = some p → p.pc.isIdle) ∧
    ∀ p, s.procs[i]? = some p → (s.view p).Phase st p.pc
  current : s.quiet → ∀ idx modTime, s.index = some (idx, modTime) → Lists st idx s.items

variable {p : Process T}

lemma Inv.good (h : s.Inv st) (hp : p ∈ s.procs) (hphase : (s.view p).Phase st p.pc) : (s.view p).Good st p.pc :=
  ⟨h.named, h.missing, h.coherent p hp, hphase⟩

variable {i : ℕ}

lemma Inv.phase_of_act (h : s.Inv st) (hi : s.procs[i]? = some p) (hbusy : p.pc.isIdle = false) :
    (∀ (j : ℕ) (p : Process T), j ≠ i → s.procs[j]? = some p → p.pc.isIdle) ∧ (s.view p).Phase st p.pc := by
  obtain ⟨k, hidle, hphase⟩ := h.active
  have hk : i = k := by
    by_contra hne
    simp [hidle i p hne hi] at hbusy
  subst hk
  exact ⟨hidle, hphase p hi⟩

lemma inv_put {store : Store T} {pc} (hi : s.procs[i]? = some p)
    (hidle : ∀ (j : ℕ) (p : Process T), j ≠ i → s.procs[j]? = some p → p.pc.isIdle) (hgood : store.Good st pc)
    (hothers : ∀ p ∈ s.procs, ∀ idx cached modTime, store.index = some (idx, modTime) →
      p.cache = some (cached, modTime) → cached = idx) : (s.put i store pc).Inv st := by
  have hlen : i < s.procs.length := lt_of_getElem? hi
  have hself : (s.procs.set i ⟨store.cache, pc⟩)[i]? = some ⟨store.cache, pc⟩ := by simp [getElem?_set_self hlen]
  refine ⟨hgood.named, hgood.missing, ?_, ⟨i, ?_, ?_⟩, ?_⟩
  · exact forall_mem_set hothers hgood.cache
  · intro j p' hne hj
    refine hidle j p' hne ?_
    simpa [Shared.put, getElem?_set_ne (Ne.symm hne)] using hj
  · intro p' hp'
    obtain rfl : ⟨store.cache, pc⟩ = p' := some.inj (hself.symm.trans hp')
    exact hgood.phase
  · intro hquiet idx modTime hindex
    have hpc : pc.isIdle := all_eq_true.mp hquiet ⟨store.cache, pc⟩ (mem_of_getElem? hself)
    have hphase := hgood.phase
    rw [Pc.eq_idle_of_isIdle hpc] at hphase
    exact hphase.index idx modTime hindex

lemma Inv.start {op} (h : s.Inv st)
    (hc : s.careful st (.start i op)) (hstep : s.step st (.start i op) = some t) : t.Inv st := by
  simp only [careful, Bool.and_eq_true] at hc
  obtain ⟨p, hi, hstep⟩ := bind_eq_some_iff.mp hstep
  split_ifs at hstep
  cases hstep
  have hbehind : (s.view p).Behind st [] := ⟨h.current hc.1, by simp⟩
  have hidle : ∀ (j : ℕ) (p : Process T), j ≠ i → s.procs[j]? = some p → p.pc.isIdle :=
    fun j p' _ hj => all_eq_true.mp hc.1 p' (mem_of_getElem? hj)
  have hphase : (s.view p).Phase st (.ofOperation op) := by
    cases op with
    | list | enqueue => exact hbehind
    | remove r => exact ⟨hbehind, hc.2⟩
  exact inv_put hi hidle ⟨h.named, h.missing, h.coherent p (mem_of_getElem? hi), hphase⟩ h.coherent

lemma Inv.setLock {holder : Option ℕ} (h : s.Inv st) : ({s with lock := holder} : Shared T).Inv st :=
  {h with}

lemma Inv.lock {r} (h : s.Inv st) (hi : s.procs[i]? = some p)
    (hpc : p.pc = .lock r) : (s.put i {s.view p with present := true} (.first r)).Inv st := by
  obtain ⟨hidle, hphase⟩ := h.phase_of_act hi (by simp [hpc, Pc.isIdle])
  rw [hpc] at hphase
  obtain ⟨hbehind, hplain⟩ := hphase
  refine inv_put hi hidle ⟨h.named, by simp, h.coherent p (mem_of_getElem? hi), ?_⟩ h.coherent
  have hfirst : ({s.view p with present := true} : Store T).Behind st [] := ⟨hbehind.index, hbehind.absent⟩
  cases r with
  | byName | byRun => exact ⟨hfirst, fun _ => rfl⟩
  | byIDs itemIDs =>
    refine ⟨hfirst, fun f hf => ?_, by simp⟩
    obtain ⟨itemID, hid, rfl⟩ := mem_map.mp hf
    have hnot : '/' ∉ itemID.toList := by simpa using all_eq_true.mp hplain itemID hid
    exact ⟨base_of_plain (by simp [hnot]), hnot⟩

lemma Inv.unlock (h : s.Inv st) (hi : s.procs[i]? = some p)
    (hpc : p.pc = .unlock) : (s.put i (s.view p) .idle).Inv st := by
  obtain ⟨hidle, hphase⟩ := h.phase_of_act hi (by simp [hpc, Pc.isIdle])
  rw [hpc] at hphase
  exact inv_put hi hidle ⟨h.named, h.missing, h.coherent p (mem_of_getElem? hi), hphase⟩ h.coherent

lemma permitted_of_careful {a} (hi : s.procs[i]? = some p)
    (hc : s.careful st (.act i a)) : (s.view p).Permitted st a p.pc := by
  simp only [careful, hi, map_some] at hc
  unfold Store.Permitted
  split
  · next heq => simpa [heq] using hc
  · next heq => simpa [heq, view] using hc
  · next heq =>
    intro cached modTime hcache
    simp only [heq] at hc
    have hown := all_eq_true.mp hc p (mem_of_getElem? hi)
    have hcache' : p.cache = some (cached, modTime) := hcache
    simpa [hcache'] using hown
  · trivial

lemma Inv.act {a} {r : Store T × Pc T} (h : s.Inv st) (hi : s.procs[i]? = some p) (hc : s.careful st (.act i a))
    (hact : (s.view p).act st a p.pc = some r) : (s.put i r.1 r.2).Inv st := by
  have hbusy : p.pc.isIdle = false := by cases hpc : p.pc <;> simp_all [Pc.isIdle, Store.act]
  obtain ⟨hidle, hphase⟩ := h.phase_of_act hi hbusy
  have hgood := (h.good (mem_of_getElem? hi) hphase).act (permitted_of_careful hi hc) hact
  refine inv_put hi hidle hgood fun p' hp' idx cached modTime hindex hcache => ?_
  obtain hsame | hnone | ⟨rebuilding, g, idx', hpc, hnew⟩ := Store.index_act hact
  · exact h.coherent p' hp' idx cached modTime (hsame.symm.trans hindex) hcache
  · simp [hnone] at hindex
  -- A new index has a time that no process remembers.
  simp only [careful, hi, map_some, hpc] at hc
  have hfresh := all_eq_true.mp hc p' hp'
  rw [hnew] at hindex
  simp only [some.injEq, Prod.mk.injEq] at hindex
  simp [hcache, hindex.2] at hfresh

lemma Inv.step {e} (h : s.Inv st) (hc : s.careful st e) (hstep : s.step st e = some t) : t.Inv st := by
  cases e with
  | start i op => exact h.start hc hstep
  | act i a =>
    obtain ⟨p, hi, hstep⟩ := bind_eq_some_iff.mp hstep
    split at hstep
    · next r hpc =>
      split_ifs at hstep
      cases hstep
      exact (h.lock hi hpc).setLock
    · next hpc =>
      cases hstep
      exact (h.unlock hi hpc).setLock
    · obtain ⟨r, hact, rfl⟩ := map_eq_some_iff.mp hstep
      exact h.act hi hc hact

lemma inv_empty (n : ℕ) (found : Bool) : (empty n found : Shared T).Inv st := by
  refine ⟨⟨.nil, by simp [empty]⟩, fun _ => ⟨rfl, rfl⟩, by simp [empty], ⟨0, ?_, ?_⟩, by simp [empty]⟩
  · intro j p _ hj
    rw [eq_of_mem_replicate (mem_of_getElem? hj)]
    rfl
  intro p hp
  rw [eq_of_mem_replicate (mem_of_getElem? hp)]
  exact behind_of_none rfl (by simp)

def runItem (t : Fin 10) (id : String) : Item (Fin 10) := ⟨.low, t, ⟨"etl", id⟩⟩

/-- Process `i` starts the operation. -/
def starts (i : ℕ) (op : Operation (Fin 10)) : Event (Fin 10) × ℕ := (.start i op, 1)

/-- Process `i` takes `k` steps; files it installs get the time `modTime`. -/
def acts (i k modTime : ℕ) : Event (Fin 10) × ℕ := (.act i ⟨true, modTime, false⟩, k)

def inTurn : Shared (Fin 10) :=
  follow (step digits) (careful digits) (empty 2 true)
    [starts 0 (.enqueue (runItem 1 "a")), acts 0 9 1, starts 1 (.enqueue (runItem 2 "b")), acts 1 9 2,
      starts 0 (.remove .byName), acts 0 19 3]

def lostEnqueue : Shared (Fin 10) :=
  play (step digits) (empty 2 true)
    [starts 0 (.enqueue (runItem 1 "a")), starts 1 (.enqueue (runItem 2 "b")), acts 0 1 1, acts 1 1 2,
      acts 0 9 1, acts 1 9 2]

def keptEntry : Shared (Fin 10) :=
  play (step digits) (empty 2 true)
    [starts 0 (.enqueue (runItem 1 "a")), acts 0 9 1, starts 1 (.enqueue (runItem 2 "b")), acts 1 3 2,
      starts 0 (.remove .byName), acts 0 19 3, acts 1 9 4]

def sameTime : Shared (Fin 10) :=
  play (step digits) (empty 2 true)
    [starts 0 (.enqueue (runItem 1 "a")), acts 0 9 1, starts 1 (.enqueue (runItem 2 "b")), acts 1 9 1,
      starts 0 (.enqueue (runItem 3 "c")), acts 0 9 2]

end Shared
end Ayatsuri.FileQueue
