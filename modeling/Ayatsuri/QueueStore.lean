import Mathlib

/-! The file queue of one name: item files whose names carry priority, time and run ID, and a
persisted index of these names that each process also caches. `List` and `Len` read the index, the
dequeue operations read the directory. -/
namespace Ayatsuri.FileQueue

inductive QueuePriority
  | high | low
  deriving DecidableEq

structure DAGRunRef where
  (name id : String)
  deriving DecidableEq

variable (T : Type)

/-- How a time stands in a file name, `20060102_150405_000000000Z`: with a fixed width, and ordered
as the times are. -/
structure Stamp [LinearOrder T] where
  format : T → String
  width : ℕ
  length_format : ∀ t, (format t).toList.length = width
  format_lt : ∀ {t u : T}, t < u → (format t).toList < (format u).toList
  plain : ∀ t, '/' ∉ (format t).toList

structure Item where
  priority : QueuePriority
  queuedAt : T
  dagRun : DAGRunRef
  deriving DecidableEq

/-! ### File names -/

def itemTag : QueuePriority → String
  | .high => "item_high_"
  | .low => "item_low_"

/-- `filepath.Base` of a path that does not end in a separator. -/
def base (path : String) : String := String.ofList (path.toList.reverse.takeWhile (· ≠ '/')).reverse

def queueItemIDFromFileName (fileName : String) : String :=
  let chars := (base fileName).toList
  if '.' ∈ chars then String.ofList ((chars.reverse.dropWhile (· ≠ '.')).tail).reverse else base fileName

namespace Item
variable {T : Type} [LinearOrder T] (st : Stamp T) (item : Item T)

def stem : String := itemTag item.priority++st.format item.queuedAt ++ "_" ++ item.dagRun.id

/-- `queueFileName`. -/
def fileName : String := item.stem st ++ ".json"

/-- `NewQueuedFile(path).ID()`. -/
def id : String := queueItemIDFromFileName (item.fileName st)

/-- The pattern of `QueueFile` ends in `(.*)\.json`, and the dot does not match a line break. -/
def matchesPattern : Bool := decide ('\n' ∉ item.dagRun.id.toList)

end Item

/-! ### The index -/

structure QueueReadIndex where
  (high low : List String)
  deriving DecidableEq

namespace QueueReadIndex
variable (idx : QueueReadIndex)

def total : ℕ := idx.high.length+idx.low.length

def append (priority : QueuePriority) (fileName : String) : QueueReadIndex :=
  match priority with
  | .high => {idx with high := idx.high++[fileName]}
  | .low => {idx with low := idx.low++[fileName]}

def removeQueueFileNameByID (target : List String) (itemID : String) : List String :=
  target.eraseP fun fileName => queueItemIDFromFileName fileName = itemID

def removeItemID (itemID : String) : QueueReadIndex :=
  if itemID = "" then idx
  else
    { high := removeQueueFileNameByID idx.high itemID
      low := removeQueueFileNameByID idx.low itemID}

end QueueReadIndex

/-! ### The store -/

structure Save where
  ok : Bool
  modTime : ℕ

structure Saves where
  (rebuild final : Save)

structure Store where
  present : Bool
  items : List (Item T)
  /-- `.queue-index.json` and its modification time. -/
  (index cache : Option (QueueReadIndex × ℕ))
  /-- Whether the path of the directory, which `listItems` does not escape, matches itself as a pattern of `filepath.Glob`. -/
  found : Bool

def queueIndexFileName : String := ".queue-index.json"

namespace Store
variable {T : Type} [LinearOrder T] (st : Stamp T)

def empty (found : Bool) : Store T := ⟨false, [], none, none, found⟩

variable (s : Store T)

def saveQueueIndexLocked (idx : QueueReadIndex) (a : Save) : Store T × Bool :=
  if idx.total = 0 then
    if a.ok || s.index.isNone then ({s with cache := none, index := none}, true)
    else ({s with cache := none}, false)
  else if a.ok then
    ({s with present := true, index := some (idx, a.modTime), cache := some (idx, a.modTime)}, true)
  else (s, false)

variable (priority : QueuePriority)

/-- The names of the item files of one priority, as `sort.Strings` orders them. -/
def sortedNames : List String :=
  ((s.items.filter fun i => i.priority = priority).map (Item.fileName st)).insertionSort (· ≤ ·)

def rebuildQueueIndexLocked (a : Save) : Store T × Option QueueReadIndex :=
  let idx : QueueReadIndex := ⟨s.sortedNames st .high, s.sortedNames st .low⟩
  let saved := s.saveQueueIndexLocked idx a
  (saved.1, if saved.2 then some idx else none)

def loadOrRebuildQueueIndexLocked (a : Save) : Store T × Option QueueReadIndex :=
  if s.present then
    match s.index with
    | some (idx, modTime) =>
      match s.cache with
      | some (cached, cachedAt) =>
        if cachedAt = modTime then (s, some cached)
        else ({s with cache := some (idx, modTime)}, some idx)
      | none => ({s with cache := some (idx, modTime)}, some idx)
    | none => s.rebuildQueueIndexLocked st a
  else ({s with cache := none}, some ⟨[], []⟩)

def invalidateQueueIndexLocked : Store T := {s with index := none, cache := none}

/-- `QueueFile.listItems`, where no other directory matches the pattern. -/
def listItems : List (Item T) :=
  (s.items.filter fun i => s.found && i.priority = priority && i.matchesPattern).insertionSort fun i j => i.queuedAt ≤ j.queuedAt

variable (itemIDs : List String)

def dropFromIndex (a : Saves) : Store T :=
  match s.loadOrRebuildQueueIndexLocked st a.rebuild with
  | (s, none) => s.invalidateQueueIndexLocked
  | (s, some idx) =>
    match s.saveQueueIndexLocked (itemIDs.foldl QueueReadIndex.removeItemID idx) a.final with
    | (s, true) => s
    | (s, false) => s.invalidateQueueIndexLocked

/-- `DualQueue.Dequeue`: the oldest item of high priority, else of low priority. -/
def firstItem : Option (Item T) := ((s.listItems .high).head?).or (s.listItems .low).head?

/-- `DequeueByName`; taking the lock creates the directory. -/
def dequeueByName (a : Saves) : Store T × Option (Item T) :=
  match s.firstItem with
  | none => ({s with present := true}, none)
  | some item => ({s with present := true, items := s.items.erase item}.dropFromIndex st [item.id st] a, some item)

def dequeueByDAGRunID (dagRun : DAGRunRef) (a : Saves) : Store T × List (Item T) :=
  let popped := (s.listItems .high++s.listItems .low).filter fun i => i.dagRun = dagRun
  let s := {s with
    present := true
    items := s.items.filter fun i => !(s.found && i.matchesPattern && i.dagRun = dagRun)}
  if popped.isEmpty then (s, []) else (s.dropFromIndex st (popped.map (Item.id st)) a, popped)

/-- `os.Remove` of a file in the queue directory that may be missing. -/
def removeFile (fileName : String) : Store T :=
  {s with
    items := s.items.filter fun i => i.fileName st ≠ fileName
    index := if fileName = queueIndexFileName then none else s.index}

/-- The loop of `DualQueue.DeleteByItemIDs`. -/
def deleteFiles : Store T :=
  itemIDs.foldl (fun s itemID =>
    if itemID = "" || base (itemID ++ ".json") = ".json" then s
    else s.removeFile st (base (itemID ++ ".json"))) s

/-- `DeleteByItemIDs`. The `fault` says at which ID `os.Remove` fails on a file that is not just
missing, as it does for a name that is too long. -/
def deleteByItemIDs (fault : Option ℕ) (a : Saves) : Store T :=
  match fault with
  | some k => {s with present := true}.deleteFiles st (itemIDs.take k)
  | none => ({s with present := true}.deleteFiles st itemIDs).dropFromIndex st itemIDs a

/-- `Enqueue`; `pushed` says that the item file could be written. The flag in the result says that the
call returned no error. -/
def enqueue (item : Item T) (pushed : Bool) (a : Saves) : Store T × Bool :=
  match s.loadOrRebuildQueueIndexLocked st a.rebuild with
  | (s, none) => (s, false)
  | (s, some idx) =>
    if pushed && !('/' ∈ item.dagRun.id.toList) then
      match {s with present := true, items := s.items++[item]}.saveQueueIndexLocked
          (idx.append item.priority (item.fileName st)) a.final with
      | (s, true) => (s, true)
      | (s, false) => (s.invalidateQueueIndexLocked, true)
    else (s, false)

/-- `List`, as the names of the listed files; `none` is an error. -/
def list (a : Save) : Store T × Option (List String) :=
  let loaded := s.loadOrRebuildQueueIndexLocked st a
  (loaded.1, loaded.2.map fun idx => idx.high++idx.low)

def len (a : Save) : Store T × Option ℕ :=
  let loaded := s.loadOrRebuildQueueIndexLocked st a
  (loaded.1, loaded.2.map QueueReadIndex.total)

end Store

/-! The index of a set of item files: what it lists, and that taking item IDs out of it is taking the
items out of the set. -/

open List QueueReadIndex

/-! ### Names -/

lemma append_lt_append_of_lt {α : Type*} [LinearOrder α] {a b : List α} (x y : List α)
    (hlen : a.length = b.length) (h : a < b) : a++x < b++y := by
  induction a generalizing b with
  | nil =>
    obtain rfl : b = [] := eq_nil_of_length_eq_zero hlen.symm
    simp at h
  | cons c a ih =>
    cases b with
    | nil => simp at hlen
    | cons d b =>
      rw [cons_lt_cons_iff] at h
      rw [cons_append, cons_append, cons_lt_cons_iff]
      exact h.imp_right fun ⟨hcd, hab⟩ => ⟨hcd, ih (by simpa using hlen) hab⟩

lemma append_left_lt {α : Type*} [LinearOrder α] {a b} (p : List α) (h : a < b) : p++a < p++b := by
  induction p with
  | nil => exact h
  | cons c p ih =>
    rw [cons_append, cons_append, cons_lt_cons_iff]
    exact .inr ⟨rfl, ih⟩

lemma base_of_plain {path : String} (h : '/' ∉ path.toList) : base path = path := by
  have hall : path.toList.reverse.takeWhile (· ≠ '/') = path.toList.reverse := by
    rw [takeWhile_eq_self_iff]
    intro c hc
    simp only [decide_eq_true_eq]
    rintro rfl
    exact h (mem_reverse.mp hc)
  rw [base, hall, reverse_reverse, String.ofList_toList]

lemma append_json_eq_iff {stem} : stem ++ ".json" = ".json" ↔ stem = "" := by
  constructor
  · intro heq
    have hlen := congrArg String.length heq
    simpa using hlen
  · rintro rfl
    rfl

lemma queueItemIDFromFileName_json {stem : String} (h : '/' ∉ stem.toList) :
    queueItemIDFromFileName (stem ++ ".json") = stem := by
  have hbase : base (stem ++ ".json") = stem ++ ".json" := base_of_plain (by simp [h])
  simp [queueItemIDFromFileName, hbase]

namespace Item
variable {T : Type} [LinearOrder T] {st : Stamp T} {a b : Item T}

lemma stem_plain (h : '/' ∉ a.dagRun.id.toList) : '/' ∉ (a.stem st).toList := by
  have htag : '/' ∉ (itemTag a.priority).toList := by cases a.priority <;> decide
  simp [stem, htag, st.plain, h]

lemma id_eq_stem (h : '/' ∉ a.dagRun.id.toList) : a.id st = a.stem st := queueItemIDFromFileName_json (stem_plain h)

lemma fileName_lt (hp : a.priority = b.priority) (h : a.queuedAt < b.queuedAt) : a.fileName st < b.fileName st := by
  rw [String.lt_iff_toList_lt]
  simp only [fileName, stem, String.toList_append, append_assoc, hp]
  refine append_left_lt _ (append_lt_append_of_lt _ _ ?_ (st.format_lt h))
  rw [st.length_format, st.length_format]

lemma stem_ne_of_priority (h : a.priority ≠ b.priority) : a.stem st ≠ b.stem st := by
  intro heq
  -- The sixth letter tells them apart.
  have hchars : (a.stem st).toList.take 6 = (b.stem st).toList.take 6 := by rw [heq]
  simp only [stem, String.toList_append, append_assoc] at hchars
  cases ha : a.priority <;> cases hb : b.priority <;> simp_all [itemTag]

lemma stem_ne (h : a.queuedAt ≠ b.queuedAt) : a.stem st ≠ b.stem st := by
  by_cases hp : a.priority = b.priority
  · intro heq
    have hname : a.fileName st = b.fileName st := congrArg (· ++ ".json") heq
    rcases lt_or_gt_of_ne h with hlt | hlt
    · exact (fileName_lt hp hlt).ne hname
    · exact (fileName_lt hp.symm hlt).ne hname.symm
  · exact stem_ne_of_priority hp

end Item

instance neZero_ten : NeZero 10 := ⟨by decide⟩

def digits : Stamp (Fin 10) where
  format t := String.ofList [Char.ofNat (48+t.val)]
  width := 1
  length_format t := by simp
  format_lt {t u} := by revert t u; decide
  plain := by decide

/-! ### Indices -/

section
variable {T : Type} [LinearOrder T] {st : Stamp T} {q : List (Item T)} {item : Item T}

structure Named (st : Stamp T) (q : List (Item T)) : Prop where
  distinct : q.Pairwise fun a b => a.id st ≠ b.id st
  plain : ∀ i ∈ q, '/' ∉ i.dagRun.id.toList

lemma Named.sublist {q'} (h : Named st q) (hsub : q'.Sublist q) : Named st q' :=
  ⟨h.distinct.sublist hsub, fun i hi => h.plain i (hsub.subset hi)⟩

lemma Named.filter (h : Named st q) (p : Item T → Bool) : Named st (q.filter p) := h.sublist filter_sublist

lemma Named.id_inj (h : Named st q) {a b : Item T} (ha : a ∈ q) (hb : b ∈ q) (heq : a.id st = b.id st) : a = b := by
  by_contra hne
  have hsymm : Std.Symm fun a b : Item T => a.id st ≠ b.id st := ⟨fun _ _ h => h.symm⟩
  exact h.distinct.forall ha hb hne heq

lemma Named.nodup (h : Named st q) : q.Nodup := by
  refine h.distinct.imp fun {a b} hne heq => hne ?_
  rw [heq]

def names (st : Stamp T) (priority : QueuePriority) (q : List (Item T)) : List String :=
  (q.filter fun i => i.priority = priority).map (Item.fileName st)

def indexOf (st : Stamp T) (q : List (Item T)) : QueueReadIndex := ⟨names st .high q, names st .low q⟩

lemma indexOf_append (q : List (Item T)) (item : Item T) :
    (indexOf st q).append item.priority (item.fileName st) = indexOf st (q++[item]) := by
  cases hp : item.priority <;> simp [indexOf, names, append, hp]

lemma Named.removeName (h : Named st q) (priority : QueuePriority) (itemID : String) :
    QueueReadIndex.removeQueueFileNameByID (names st priority q) itemID =
      names st priority (q.filter fun i => i.id st ≠ itemID) := by
  induction q with
  | nil => rfl
  | cons i q ih =>
    have htail : Named st q := h.sublist (sublist_cons_self i q)
    have hne : ∀ j ∈ q, i.id st ≠ j.id st := (pairwise_cons.mp h.distinct).1
    by_cases hp : i.priority = priority
    · by_cases hid : i.id st = itemID
      · have hrest : q.filter (·.id st ≠ itemID) = q := by
          rw [filter_eq_self]
          intro j hj
          simpa [hid] using Ne.symm (hne j hj)
        have hfilter : (i::q).filter (·.id st ≠ itemID) = q := by rw [filter_cons_of_neg (by simp [hid]), hrest]
        have hname : queueItemIDFromFileName (i.fileName st) = itemID := hid
        rw [hfilter]
        simp [removeQueueFileNameByID, names, hp, hname]
      · have hname : ¬ queueItemIDFromFileName (i.fileName st) = itemID := hid
        have := ih htail
        simp only [removeQueueFileNameByID, names] at this ⊢
        simp [hp, hid, hname, this]
    · have := ih htail
      simp only [removeQueueFileNameByID, names] at this ⊢
      by_cases hid : i.id st = itemID
      · simp [hp, hid, this]
      · simp [hp, hid, this]

lemma filter_id_absent (itemID : String) (h : ∀ i ∈ q, i.id st ≠ itemID) :
    (q.filter fun i => i.id st ≠ itemID) = q := by
  rw [filter_eq_self]
  intro i hi
  simpa using h i hi

lemma Named.id_ne_empty (h : Named st q) (hi : item ∈ q) : item.id st ≠ "" := by
  rw [Item.id_eq_stem (h.plain item hi)]
  intro heq
  have hlen : (item.stem st).toList.length = 0 := by simp [heq]
  cases hp : item.priority <;> simp [Item.stem, itemTag, hp] at hlen

lemma Named.removeItemID (h : Named st q) (itemID : String) :
    (indexOf st q).removeItemID itemID = indexOf st (q.filter fun i => i.id st ≠ itemID) := by
  by_cases hid : itemID = ""
  · subst hid
    rw [filter_id_absent "" fun i hi => h.id_ne_empty hi]
    rfl
  · rw [QueueReadIndex.removeItemID, if_neg hid]
    simp only [indexOf, h.removeName]

lemma Named.removeItemIDs (h : Named st q) (itemIDs : List String) :
    itemIDs.foldl QueueReadIndex.removeItemID (indexOf st q) = indexOf st (q.filter fun i => i.id st ∉ itemIDs) := by
  induction itemIDs generalizing q with
  | nil => simp
  | cons itemID itemIDs ih =>
    have hfilter : (q.filter fun i => i.id st ≠ itemID).filter (·.id st ∉ itemIDs) =
        q.filter fun i => i.id st ∉ itemID::itemIDs := by
      rw [List.filter_filter]
      refine filter_congr fun i _ => ?_
      simp [Bool.and_comm]
    rw [foldl_cons, h.removeItemID, ih (h.filter _), hfilter]

lemma Named.erase_eq_filter {item : Item T} (hq : Named st q) (hi : item ∈ q) :
    q.erase item = q.filter fun i => i.id st ∉ [item.id st] := by
  rw [hq.nodup.erase_eq_filter]
  refine filter_congr fun i hmem => ?_
  by_cases heq : i = item
  · simp [heq]
  · have hid : i.id st ≠ item.id st := fun hid => heq (hq.id_inj hmem hi hid)
    simp [bne_iff_ne.mpr heq, hid]

structure Lists (st : Stamp T) (idx : QueueReadIndex) (q : List (Item T)) : Prop where
  high : idx.high.Perm (names st .high q)
  low : idx.low.Perm (names st .low q)

lemma lists_indexOf (q : List (Item T)) : Lists st (indexOf st q) q := ⟨.refl _, .refl _⟩

variable {idx : QueueReadIndex}

lemma Lists.append (h : Lists st idx q) (item : Item T) :
    Lists st (idx.append item.priority (item.fileName st)) (q++[item]) := by
  cases hp : item.priority with
  | high =>
    refine ⟨?_, ?_⟩
    · simpa [QueueReadIndex.append, names, hp] using h.high.append_right [item.fileName st]
    · simpa [QueueReadIndex.append, names, hp] using h.low
  | low =>
    refine ⟨?_, ?_⟩
    · simpa [QueueReadIndex.append, names, hp] using h.high
    · simpa [QueueReadIndex.append, names, hp] using h.low.append_right [item.fileName st]

lemma Named.names_distinct (h : Named st q) (priority : QueuePriority) :
    (names st priority q).Pairwise fun a b => queueItemIDFromFileName a ≠ queueItemIDFromFileName b :=
  pairwise_map.mpr (h.filter _).distinct

lemma Named.removeName_perm (h : Named st q) {l priority}
    (hl : l.Perm (names st priority q)) (itemID : String) : (QueueReadIndex.removeQueueFileNameByID l itemID).Perm
      (names st priority (q.filter fun i => i.id st ≠ itemID)) := by
  rw [← h.removeName]
  refine (hl.symm.eraseP _ ?_).symm
  refine (h.names_distinct priority).imp fun {a b} hne ha hb => hne ?_
  exact (of_decide_eq_true ha).trans (of_decide_eq_true hb).symm

lemma Lists.removeItemID (h : Lists st idx q) (hq : Named st q) (itemID : String) :
    Lists st (idx.removeItemID itemID) (q.filter fun i => i.id st ≠ itemID) := by
  by_cases hid : itemID = ""
  · subst hid
    rw [filter_id_absent "" fun i hi => hq.id_ne_empty hi]
    exact h
  · rw [QueueReadIndex.removeItemID, if_neg hid]
    exact ⟨hq.removeName_perm h.high itemID, hq.removeName_perm h.low itemID⟩

lemma Lists.removeAbsent {itemIDs : List String} (h : Lists st idx q)
    (hq : Named st q) (habsent : ∀ itemID ∈ itemIDs, ∀ i ∈ q, i.id st ≠ itemID) :
    Lists st (itemIDs.foldl QueueReadIndex.removeItemID idx) q := by
  induction itemIDs generalizing idx with
  | nil => exact h
  | cons itemID itemIDs ih =>
    refine ih ?_ fun id hid => habsent id (mem_cons_of_mem _ hid)
    have hremoved := h.removeItemID hq itemID
    rwa [filter_id_absent itemID (habsent itemID mem_cons_self)] at hremoved

end
end Ayatsuri.FileQueue
