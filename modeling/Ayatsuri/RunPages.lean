import Ayatsuri.RunListing

/-! Following `NextCursor` lists every matching run once, in order, as long as the calls agree on what the
time range is. -/
namespace Ayatsuri.RunListing
open SortedMerge List Option Item
variable {Digest Stamp Data Cursor : Type} [DecidableEq Digest]

/-! ### The days in a time range -/

lemma mem_listDirsSorted {α : Type} {dirs : Dirs α} {e : ℕ × α} : e ∈ listDirsSorted dirs ↔ e ∈ dirs := mem_sortBy

lemma pairwise_listDirsSorted {α : Type} {dirs : Dirs α} (h : (dirs.map Prod.fst).Nodup) :
    (listDirsSorted dirs).Pairwise (fun a b => b.1 < a.1) := by
  have hnodup : (dirs.map fun e => OrderDual.toDual e.1).Nodup := h
  exact pairwise_sortBy hnodup

variable {year month : ℕ} {stop : Time} {start : Time}
open Time

lemma date_range_iff {day : ℕ} : (¬ (year < start.year ∨ stop.year < year) ∧
      ¬ ((year = start.year ∧ month < start.month) ∨ (year = stop.year ∧ stop.month < month)) ∧
        ¬ ((year = start.year ∧ month = start.month ∧ day < start.day) ∨
          (year = stop.year ∧ month = stop.month ∧ stop.day < day))) ↔
      start.date ≤ toLex (year, toLex (month, day)) ∧ toLex (year, toLex (month, day)) ≤ stop.date := by
  simp only [date, Prod.Lex.le_iff, ofLex_toLex]
  omega

variable {d : Day} {days : Dirs (List Run)}

lemma mem_dayPaths : d ∈ dayPaths start stop year month days ↔ ∃ e ∈ days,
      ¬ ((year = start.year ∧ month = start.month ∧ e.1 < start.day) ∨
        (year = stop.year ∧ month = stop.month ∧ stop.day < e.1)) ∧ ⟨year, month, e.1, e.2⟩ = d := by
  simp only [dayPaths, List.mem_map, mem_filter, mem_listDirsSorted, decide_eq_true_eq, and_assoc]

variable {months : Dirs (Dirs (List Run))}

lemma mem_monthPaths : d ∈ monthPaths start stop year months ↔ ∃ e ∈ months,
      ¬ ((year = start.year ∧ e.1 < start.month) ∨ (year = stop.year ∧ stop.month < e.1)) ∧
        d ∈ dayPaths start stop year e.1 e.2 := by
  simp only [monthPaths, mem_flatMap, mem_filter, mem_listDirsSorted, decide_eq_true_eq, and_assoc]

variable {root : Root} {fromTime toTime : Option Time} {now : Time}
open Root

lemma mem_listDayPathsInRange : d ∈ listDayPathsInRange root fromTime toTime now ↔ d ∈ root.days ∧
      (effectiveTimeRange fromTime toTime now).1.date ≤ d.date ∧
        d.date ≤ (effectiveTimeRange fromTime toTime now).2.date := by
  simp only [listDayPathsInRange, days, mem_flatMap, mem_filter, mem_listDirsSorted, decide_eq_true_eq, List.mem_map]
  constructor
  · rintro ⟨y, ⟨hy, hyear⟩, hd⟩
    obtain ⟨m, hm, hmonth, hd⟩ := mem_monthPaths.mp hd
    obtain ⟨n, hn, hday, rfl⟩ := mem_dayPaths.mp hd
    exact ⟨⟨y, hy, m, hm, n, hn, rfl⟩, date_range_iff.mp ⟨hyear, hmonth, hday⟩⟩
  · rintro ⟨⟨y, hy, m, hm, n, hn, rfl⟩, hrange⟩
    obtain ⟨hyear, hmonth, hday⟩ := date_range_iff.mpr hrange
    exact ⟨y, ⟨hy, hyear⟩, mem_monthPaths.mpr ⟨m, hm, hmonth, mem_dayPaths.mpr ⟨n, hn, hday, rfl⟩⟩⟩

lemma pairwise_dayPaths (h : (days.map Prod.fst).Nodup) (start stop : Time)
    (year month : ℕ) : (dayPaths start stop year month days).Pairwise (fun d e => e.date < d.date) := by
  apply pairwise_map.mpr
  apply ((pairwise_listDirsSorted h).filter _).imp
  intro d e hlt
  simpa [Day.date, Prod.Lex.lt_iff] using hlt

lemma pairwise_monthPaths (h : (months.map Prod.fst).Nodup)
    (hdays : ∀ m ∈ months, (m.2.map Prod.fst).Nodup) (start stop : Time) (year : ℕ) :
    (monthPaths start stop year months).Pairwise (fun d e => e.date < d.date) := by
  refine pairwise_flatMap.mpr ⟨?_, ((pairwise_listDirsSorted h).filter _).imp ?_⟩
  · intro m hm
    exact pairwise_dayPaths (hdays m (mem_listDirsSorted.mp (mem_filter.mp hm).1)) _ _ _ _
  intro m m' hlt d hd e he
  obtain ⟨_, _, -, rfl⟩ := mem_dayPaths.mp hd
  obtain ⟨_, _, -, rfl⟩ := mem_dayPaths.mp he
  simp [Day.date, Prod.Lex.lt_iff, hlt]

lemma pairwise_listDayPathsInRange (h : root.Distinct) (fromTime toTime : Option Time) (now : Time) :
    (listDayPathsInRange root fromTime toTime now).Pairwise (fun d e => e.date < d.date) := by
  obtain ⟨hyears, hrest⟩ := h
  refine pairwise_flatMap.mpr ⟨?_, ((pairwise_listDirsSorted hyears).filter _).imp ?_⟩
  · intro y hy
    obtain ⟨hmonths, hdays⟩ := hrest y (mem_listDirsSorted.mp (mem_filter.mp hy).1)
    exact pairwise_monthPaths hmonths hdays _ _ _
  intro y y' hlt d hd e he
  obtain ⟨_, _, -, hd⟩ := mem_monthPaths.mp hd
  obtain ⟨_, _, -, he⟩ := mem_monthPaths.mp he
  obtain ⟨_, _, -, rfl⟩ := mem_dayPaths.mp hd
  obtain ⟨_, _, -, rfl⟩ := mem_dayPaths.mp he
  simp [Day.date, Prod.Lex.lt_iff, hlt]

/-! ### The items of a day -/

structure Accepts (matchers : Matchers) (opts : Options Cursor) (run : Run) (s : RunStatus) : Prop where
  status : run.status = some s
  dagRunID : opts.dagRunID = "" ∨ contains run.dagRunID opts.dagRunID
  statuses : opts.statuses = [] ∨ s.status ∈ opts.statuses
  tags : opts.tags = [] ∨ matchers.matchesFilters s.tags opts.tags
  name : opts.name = "" ∨ containsFold matchers s.name opts.name

variable {matchers : Matchers} {run : Run}

lemma resolveStatus_eq_some {tags statuses}
    {s : RunStatus} : resolveStatus matchers run tags statuses = some s ↔ run.status = some s ∧
      (statuses = [] ∨ s.status ∈ statuses) ∧ (tags = [] ∨ matchers.matchesFilters s.tags tags) := by
  unfold resolveStatus Run.status
  cases run.summary with
  | some t =>
    simp only [some_or, some.injEq]
    split_ifs with hstatus htags <;> grind
  | none =>
    cases run.latest with
    | none => simp
    | some t =>
      simp only [none_or, some.injEq]
      split_ifs with htags hstatus <;> grind

def InRange (fromTime toTime : Option Time) (ts : Time) : Prop :=
  (∀ start, fromTime = some start → start ≤ ts) ∧ ∀ stop, toTime = some stop → ts < stop

lemma inTimeRange_iff (now : Time) {ts} :
    inTimeRange ts (effectiveTimeRange fromTime toTime now).1 (effectiveTimeRange fromTime toTime now).2
      fromTime.isNone toTime.isNone ↔ InRange fromTime toTime ts := by
  have hunfold : ∀ start stop startZero endZero, inTimeRange ts start stop startZero endZero ↔
      (startZero ∨ start ≤ ts) ∧ (endZero ∨ ts < stop) := by simp [inTimeRange]
  rw [hunfold]
  cases fromTime <;> cases toTime <;> simp [effectiveTimeRange, InRange]

variable {opts : Options Cursor} {item : Item}

lemma selectRun_eq_some :
    selectRun matchers opts now run = some item ↔ InRange opts.fromTime opts.toTime run.timestamp ∧
      ∃ s, Accepts matchers opts run s ∧ run.toItem s = item := by
  rw [← inTimeRange_iff now]
  unfold selectRun
  simp only [Bool.not_eq_true']
  split_ifs with hrange hid
  · simp [hrange]
  · constructor
    · simp
    rintro ⟨-, s, haccepts, -⟩
    have := haccepts.dagRunID
    simp_all
  · cases hs : resolveStatus matchers run opts.tags opts.statuses with
    | none =>
      constructor
      · simp
      rintro ⟨-, s, haccepts, -⟩
      have hsome := resolveStatus_eq_some.mpr ⟨haccepts.status, haccepts.statuses, haccepts.tags⟩
      simp [hs] at hsome
    | some s =>
      obtain ⟨hstatus, hstatuses, htags⟩ := resolveStatus_eq_some.mp hs
      have hid' : opts.dagRunID = "" ∨ contains run.dagRunID opts.dagRunID := by grind
      simp only
      split_ifs with hname
      · constructor
        · simp
        rintro ⟨-, s', haccepts, -⟩
        obtain rfl : s = s' := some.inj (hstatus.symm.trans haccepts.status)
        have := haccepts.name
        simp_all
      have hname' : opts.name = "" ∨ containsFold matchers s.name opts.name := by grind
      constructor
      · intro h
        exact ⟨by simpa using hrange, s, ⟨hstatus, hid', hstatuses, htags, hname'⟩, some.inj h⟩
      · rintro ⟨-, s', haccepts, rfl⟩
        rw [some.inj (hstatus.symm.trans haccepts.status)]

lemma selectRun_isSome
    (h : selectRun matchers opts now run = some item) : run.status.map run.toItem = some item := by
  obtain ⟨-, s, haccepts, rfl⟩ := selectRun_eq_some.mp h
  simp [haccepts.status]

lemma mem_loadDay :
    item ∈ loadDay matchers opts now d ↔ ∃ run ∈ d.runs, InRange opts.fromTime opts.toTime run.timestamp ∧
      ∃ s, Accepts matchers opts run s ∧ run.toItem s = item := by
  rw [loadDay, sortDayItems, mem_insertionSort, mem_filterMap]
  exact exists_congr fun run => and_congr_right fun _ => selectRun_eq_some

structure Root.Tidy (root : Root) : Prop where
  distinct : root.Distinct
  date_eq : ∀ d ∈ root.days, ∀ run ∈ d.runs, run.timestamp.date = d.date
  keys_nodup : (root.items.map Item.key).Nodup

variable (store : Store)

lemma Store.tidy (h : root ∈ store.roots) : root.Tidy where
  distinct := store.distinct root h
  date_eq := store.date_eq root h
  keys_nodup := by
    have hkeys := store.keys_nodup
    rw [map_flatMap, nodup_flatMap] at hkeys
    exact hkeys.1 root h

lemma filterMap_sublist {α β : Type} {f g : α → Option β} (h : ∀ a b, f a = some b → g a = some b) (l : List α) :
    (l.filterMap f).Sublist (l.filterMap g) := by
  induction l with
  | nil => simp
  | cons a l ih =>
    cases hf : f a with
    | some b => simpa [hf, h a b hf] using ih
    | none =>
      cases hg : g a with
      | none => simpa [hf, hg] using ih
      | some b => simpa [hf, hg] using ih.cons b

lemma mem_items_of_mem_loadDay (hd : d ∈ root.days) (h : item ∈ loadDay matchers opts now d) : item ∈ root.items := by
  obtain ⟨run, hrun, -, s, haccepts, rfl⟩ := mem_loadDay.mp h
  exact mem_flatMap.mpr ⟨d, hd, mem_filterMap.mpr ⟨run, hrun, by simp [haccepts.status]⟩⟩

lemma Root.Tidy.date_of_mem (h : root.Tidy) (hd : d ∈ root.days) (hitem : item ∈ loadDay matchers opts now d) :
    item.key.timestamp.date = d.date := by
  obtain ⟨run, hrun, -, s, -, rfl⟩ := mem_loadDay.mp hitem
  exact h.date_eq d hd run hrun

lemma Root.Tidy.pairwise_loadDay (h : root.Tidy) (matchers : Matchers) (opts : Options Cursor)
    (now : Time) (hd : d ∈ root.days) : (loadDay matchers opts now d).Pairwise (fun a b => a.key < b.key) := by
  have hsort : loadDay matchers opts now d = sortBy key (d.runs.filterMap (selectRun matchers opts now)) := by
    simp only [loadDay, sortDayItems, compareDagRunListKeys_nonpos, sortBy]
  rw [hsort]
  apply pairwise_sortBy
  have hday := h.keys_nodup
  rw [items, map_flatMap, nodup_flatMap] at hday
  exact (hday.1 d hd).sublist ((filterMap_sublist (fun _ _ => selectRun_isSome) _).map _)

lemma Root.Tidy.pairwise_rest (h : root.Tidy) (matchers : Matchers) (opts : Options Cursor)
    (now now' : Time) : ((newDAGRunStatusIterator root opts now).rest (loadDay matchers opts now')).Pairwise
      (fun a b => a.key < b.key) := by
  simp only [Iterator.rest, newDAGRunStatusIterator, nil_append]
  have hdays := pairwise_listDayPathsInRange h.distinct opts.fromTime opts.toTime now
  refine pairwise_flatMap.mpr ⟨?_, hdays.imp_of_mem ?_⟩
  · intro d hd
    exact h.pairwise_loadDay _ _ _ (mem_listDayPathsInRange.mp hd).1
  intro d e hd he hlt a ha b hb
  apply Key.lt_iff.mpr
  left
  apply lt_of_date_lt
  rwa [h.date_of_mem (mem_listDayPathsInRange.mp hd).1 ha, h.date_of_mem (mem_listDayPathsInRange.mp he).1 hb]

/-! ### The items of a call -/

lemma Store.dataRoot_dir (h : root ∈ store.roots) : store.dataRoot root.dir = root := by
  have hfind : store.roots.find? (·.dir = store.dirName root.dir) = some root := by
    rw [store.dirName_dir root h]
    have hnodup := store.dirs_nodup
    generalize store.roots = roots at h hnodup
    induction roots with
    | nil => simp at h
    | cons r rs ih =>
      simp only [map_cons, nodup_cons] at hnodup
      rcases mem_cons.mp h with rfl | hmem
      · simp
      · have hne : r.dir ≠ root.dir := fun heq => hnodup.1 (heq ▸ mem_map_of_mem hmem)
        simpa [find?_cons, hne] using ih hmem hnodup.2
  simp [Store.dataRoot, hfind]

lemma Store.dataRoot_cases (name : String) :
    store.dataRoot name ∈ store.roots ∧ (store.dataRoot name).dir = store.dirName name ∨
      store.dataRoot name = ⟨store.dirName name, []⟩ ∧ ∀ root ∈ store.roots, root.dir ≠ store.dirName name := by
  unfold Store.dataRoot
  cases hfind : store.roots.find? (·.dir = store.dirName name) with
  | some root =>
    left
    exact ⟨mem_of_find?_eq_some hfind, by simpa using find?_some hfind⟩
  | none =>
    right
    exact ⟨rfl, by simpa using hfind⟩

lemma Store.openRoots_all (h : opts.exactName = "") : store.openRoots opts = store.roots := by
  rw [Store.openRoots, if_pos h, map_congr_left fun root hroot => store.dataRoot_dir hroot]
  simp

lemma tidy_empty (dir : String) : Root.Tidy ⟨dir, []⟩ where
  distinct := by simp [Root.Distinct]
  date_eq := by simp [days]
  keys_nodup := by simp [items, days]

lemma Store.tidy_openRoots (h : root ∈ store.openRoots opts) : root.Tidy := by
  by_cases hall : opts.exactName = ""
  · rw [store.openRoots_all hall] at h
    exact store.tidy h
  rw [Store.openRoots, if_neg hall, mem_singleton] at h
  rcases store.dataRoot_cases opts.exactName with ⟨hmem, -⟩ | ⟨heq, -⟩
  · exact store.tidy (h ▸ hmem)
  · rw [h, heq]
    exact tidy_empty _

lemma Store.pairwise_openRoots (opts : Options Cursor) : (store.openRoots opts).Pairwise
    (fun r r' => ∀ a ∈ r.items, ∀ b ∈ r'.items, a.key ≠ b.key) := by
  by_cases hall : opts.exactName = ""
  · rw [store.openRoots_all hall]
    have hkeys := store.keys_nodup
    rw [map_flatMap, nodup_flatMap] at hkeys
    apply hkeys.2.imp
    intro r r' hdisjoint a ha b hb heq
    exact hdisjoint (mem_map_of_mem ha) (heq ▸ mem_map_of_mem hb)
  · rw [Store.openRoots, if_neg hall]
    simp

lemma Store.mem_openRoots (hroot : root ∈ store.roots)
    (hdir : opts.exactName = "" ∨ root.dir = store.dirName opts.exactName) : root ∈ store.openRoots opts := by
  by_cases hall : opts.exactName = ""
  · rwa [store.openRoots_all hall]
  · rw [Store.openRoots, if_neg hall, mem_singleton, ← store.dataRoot_dir hroot, Store.dataRoot,
      Store.dataRoot, store.dirName_dir root hroot, hdir.resolve_left hall]

lemma Store.mem_roots_of_mem_days (hroot : root ∈ store.openRoots opts) (hd : d ∈ root.days) :
    root ∈ store.roots ∧ (opts.exactName = "" ∨ root.dir = store.dirName opts.exactName) := by
  by_cases hall : opts.exactName = ""
  · rw [store.openRoots_all hall] at hroot
    exact ⟨hroot, .inl hall⟩
  rw [Store.openRoots, if_neg hall, mem_singleton] at hroot
  subst hroot
  rcases store.dataRoot_cases opts.exactName with ⟨hmem, hdir⟩ | ⟨heq, -⟩
  · exact ⟨hmem, .inr hdir⟩
  · simp [heq, days] at hd

section
variable (store : Store) (matchers : Matchers) (opts : Options Cursor) (readings : Readings)

abbrev callSource : Source Iterator Item := itemSource (loadDay matchers opts readings.prepare)

def callQueue : List (Item × Iterator) :=
  (store.newStatusIterators opts readings).foldl (push (callSource matchers opts readings)) []

def merged : List Item :=
  sortBy Item.key (pending (callSource matchers opts readings) (callQueue store matchers opts readings))

variable {store matchers opts readings}

lemma pending_callQueue : pending (callSource matchers opts readings) (callQueue store matchers opts readings) =
    (store.openRoots opts).zipIdx.flatMap fun p =>
      (newDAGRunStatusIterator p.1 opts (readings.root p.2)).rest (loadDay matchers opts readings.prepare) := by
  rw [callQueue, pending_foldl_push, Store.newStatusIterators, flatMap_map]
  rfl

lemma sortedQueue_callQueue :
    SortedQueue (callSource matchers opts readings) Item.key (callQueue store matchers opts readings) := by
  apply SortedQueue.foldl_push
  · intro it hit
    obtain ⟨p, hp, rfl⟩ := mem_map.mp hit
    exact (store.tidy_openRoots (fst_mem_of_mem_zipIdx hp)).pairwise_rest _ _ _ _
  · simp [SortedQueue]

lemma mem_items_of_mem_rest {root : Root} {now now' item}
    (h : item ∈ (newDAGRunStatusIterator root opts now).rest (loadDay matchers opts now')) : item ∈ root.items := by
  obtain ⟨d, hd, hitem⟩ := mem_flatMap.mp (by simpa [Iterator.rest, newDAGRunStatusIterator] using h)
  exact mem_items_of_mem_loadDay (mem_listDayPathsInRange.mp hd).1 hitem

lemma nodup_pending : ((pending (callSource matchers opts readings)
    (callQueue store matchers opts readings)).map Item.key).Nodup := by
  rw [pending_callQueue, map_flatMap, nodup_flatMap]
  constructor
  · intro p hp
    have hsorted := (store.tidy_openRoots (fst_mem_of_mem_zipIdx hp)).pairwise_rest matchers opts
      (readings.root p.2) readings.prepare
    exact pairwise_map.mpr (hsorted.imp fun hlt => hlt.ne)
  have hroots : (store.openRoots opts).zipIdx.Pairwise
      (fun p q => ∀ a ∈ p.1.items, ∀ b ∈ q.1.items, a.key ≠ b.key) := by
    have hpairwise := store.pairwise_openRoots opts
    rw [← zipIdx_map_fst 0 (store.openRoots opts)] at hpairwise
    exact pairwise_map.mp hpairwise
  apply hroots.imp
  intro p q hne k hk hk'
  obtain ⟨a, ha, rfl⟩ := mem_map.mp hk
  obtain ⟨b, hb, heq⟩ := mem_map.mp hk'
  exact hne a (mem_items_of_mem_rest ha) b (mem_items_of_mem_rest hb) heq.symm

lemma pairwise_merged : (merged store matchers opts readings).Pairwise (fun a b => a.key < b.key) :=
  pairwise_sortBy nodup_pending

lemma collect_callQueue (keep : Item → Bool) (target : Option ℕ) :
    collect (callSource matchers opts readings) Item.key keep
        (pending (callSource matchers opts readings) (callQueue store matchers opts readings)).length target
        (callQueue store matchers opts readings) =
      takeUpTo target ((merged store matchers opts readings).filter keep) :=
  collect_eq sortedQueue_callQueue pairwise_merged (sortBy_perm _) (sortBy_perm _).length_eq.le

lemma mem_merged {item} : item ∈ merged store matchers opts readings ↔
    ∃ p ∈ (store.openRoots opts).zipIdx, ∃ d ∈ p.1.days,
      ((effectiveTimeRange opts.fromTime opts.toTime (readings.root p.2)).1.date ≤ d.date ∧
        d.date ≤ (effectiveTimeRange opts.fromTime opts.toTime (readings.root p.2)).2.date) ∧
          item ∈ loadDay matchers opts readings.prepare d := by
  rw [merged, mem_sortBy, pending_callQueue]
  simp only [mem_flatMap, Iterator.rest, newDAGRunStatusIterator, nil_append, mem_listDayPathsInRange, and_assoc]

end

/-! ### What a listing should return -/

def midnightOf (date : Date) : Time := ⟨(ofLex date).1, (ofLex (ofLex date).2).1, (ofLex (ofLex date).2).2, 0⟩

lemma Time.midnight_eq_midnightOf (t : Time) : t.midnight = midnightOf t.date := rfl

def Options.IsToday (opts : Options Cursor) : Prop :=
  opts.allHistory = false ∧ opts.fromTime = none ∧ opts.toTime = none

instance (opts : Options Cursor) : Decidable opts.IsToday := instDecidableAnd

def Options.since (opts : Options Cursor) (today : Date) : Option Time :=
  if opts.IsToday then some (midnightOf today) else opts.fromTime

/-- A run of the store as the filter wants it. Where the filter does not bound the time, it goes
from the year 2000 to the end of today. -/
structure Store.Matches (matchers : Matchers) (opts : Options Cursor) (today : Date)
    (root : Root) (run : Run) (s : RunStatus) : Prop where
  root : opts.exactName = "" ∨ root.dir = store.dirName opts.exactName
  range : InRange (opts.since today) opts.toTime run.timestamp
  first : opts.since today = none → Time.date ⟨2000, 1, 1, 0⟩ ≤ run.timestamp.date
  last : opts.toTime = none → run.timestamp.date ≤ today
  accepts : Accepts matchers opts run s

open Store

def Store.Lists (matchers : Matchers) (opts : Options Cursor) (today : Date) (item : Item) : Prop :=
  ∃ root ∈ store.roots, ∃ d ∈ root.days, ∃ run ∈ d.runs, ∃ s, store.Matches matchers opts today root run s ∧
    run.toItem s = item

section
variable {store : Store} {matchers : Matchers} {opts : Options Cursor} {readings : Readings} {today : Date}

lemma prepareListOptions_fromTime {now : Time} (h : opts.IsToday → now.date = today) :
    (prepareListOptions opts now).fromTime = opts.since today := by
  unfold Options.since
  by_cases htoday : opts.IsToday
  · rw [if_pos htoday, ← h htoday, ← midnight_eq_midnightOf]
    exact if_pos (by simpa [Options.IsToday] using htoday)
  · rw [if_neg htoday]
    exact if_neg (by simpa [Options.IsToday] using htoday)

lemma accepts_prepareListOptions {now run s} :
    Accepts matchers (prepareListOptions opts now) run s ↔ Accepts matchers opts run s :=
  ⟨fun h => {h with}, fun h => {h with}⟩

omit [DecidableEq Digest] in
lemma normalize_prepareListOptions (codec : Codec Digest Stamp Data Cursor) {now now' : Time}
    {cursor cursor'} (h : opts.IsToday → now.date = now'.date) :
    normalize codec (prepareListOptions {opts with cursor := cursor} now) =
      normalize codec (prepareListOptions {opts with cursor := cursor'} now') := by
  have hfrom : (prepareListOptions {opts with cursor := cursor} now).fromTime = opts.since now'.date :=
    prepareListOptions_fromTime h
  have hfrom' : (prepareListOptions {opts with cursor := cursor'} now').fromTime = opts.since now'.date :=
    prepareListOptions_fromTime fun _ => rfl
  simp only [normalize, hfrom, hfrom']
  rfl

/-- An item in the merged list of a call is one that should be listed, unless its day has come only
after `today`. -/
lemma mem_merged_iff {item : Item} (hprepare : opts.IsToday → readings.prepare.date = today)
    (hroot : opts.toTime = none → ∀ i, today ≤ (readings.root i).date) :
    (item ∈ merged store matchers (prepareListOptions opts readings.prepare) readings ∧
      (opts.toTime = none → item.key.timestamp.date ≤ today)) ↔ store.Lists matchers opts today item := by
  rw [mem_merged, prepareListOptions_fromTime hprepare]
  constructor
  · rintro ⟨⟨p, hp, d, hd, ⟨hstart, hstop⟩, hitem⟩, hlast⟩
    have hopen := fst_mem_of_mem_zipIdx hp
    obtain ⟨hroot, hdir⟩ := store.mem_roots_of_mem_days hopen hd
    obtain ⟨run, hrun, hrange, s, haccepts, rfl⟩ := mem_loadDay.mp hitem
    rw [prepareListOptions_fromTime hprepare] at hrange
    refine ⟨p.1, hroot, d, hd, run, hrun, s, ⟨hdir, hrange, ?_, hlast, accepts_prepareListOptions.mp haccepts⟩, rfl⟩
    intro hnone
    simpa [hnone, effectiveTimeRange, store.date_eq _ hroot d hd run hrun] using hstart
  rintro ⟨root, hmem, d, hd, run, hrun, s, hmatch, rfl⟩
  obtain ⟨i, hi⟩ := mem_iff_getElem?.mp (store.mem_openRoots hmem hmatch.root)
  have hdate := store.date_eq _ hmem d hd run hrun
  refine ⟨⟨(root, i), mem_zipIdx_iff_getElem?.mpr hi, d, hd, ⟨?_, ?_⟩, ?_⟩, hmatch.last⟩
  · rw [← hdate]
    cases hsince : opts.since today with
    | none => simpa [effectiveTimeRange] using hmatch.first hsince
    | some start => exact date_mono (hmatch.range.1 start hsince)
  · rw [← hdate]
    cases hto : opts.toTime with
    | none => simpa [effectiveTimeRange, prepareListOptions, hto] using (hmatch.last hto).trans (hroot hto i)
    | some stop => simpa [effectiveTimeRange, prepareListOptions, hto] using date_mono (hmatch.range.2 stop hto).le
  · apply mem_loadDay.mpr
    rw [prepareListOptions_fromTime hprepare]
    exact ⟨run, hrun, hmatch.range, s, accepts_prepareListOptions.mpr hmatch.accepts, rfl⟩

end

/-! ### Following the cursor -/

section
variable {store : Store} {matchers : Matchers} {codec : Codec Digest Stamp Data Cursor} {opts : Options Cursor}
  {today : Date}

variable {limit : ℤ} {cursor : Option Cursor} {unlimited : Bool}

lemma Store.lists_update {item : Item} :
    store.Lists matchers {opts with limit := limit, cursor := cursor, unlimited := unlimited} today item ↔
      store.Lists matchers opts today item := by
  have haccepts : ∀ run s, Accepts matchers
      {opts with limit := limit, cursor := cursor, unlimited := unlimited} run s ↔ Accepts matchers opts run s :=
    fun run s => ⟨fun h => {h with}, fun h => {h with}⟩
  refine exists_congr fun root => and_congr_right fun _ => exists_congr fun d => and_congr_right fun _ =>
    exists_congr fun run => and_congr_right fun _ => exists_congr fun s => and_congr_left fun _ => ?_
  exact ⟨fun h => {h with accepts := (haccepts run s).mp h.accepts},
    fun h => {h with accepts := (haccepts run s).mpr h.accepts}⟩

lemma Store.listStatusesOrdered_eq {readings returnCursor} (key : Key)
    (hdecode : decodeQueryCursor codec opts = .ok key) {rest}
    (hrest : (merged store matchers opts readings).filter
      (fun item => opts.cursor.isNone || decide (key < item.key)) = rest) :
    store.listStatusesOrdered matchers codec opts readings limit returnCursor =
      pageOf codec opts limit returnCursor (takeUpTo (listTarget opts limit returnCursor) rest) := by
  have hcollect : collect (callSource matchers opts readings) Item.key
      (fun item => opts.cursor.isNone || decide (0 < compareDagRunListKeys item.key key))
      (pending (callSource matchers opts readings) (callQueue store matchers opts readings)).length
      (listTarget opts limit returnCursor) (callQueue store matchers opts readings) = _ := collect_callQueue _ _
  simp only [compareDagRunListKeys_pos, hrest] at hcollect
  rw [← hcollect, listStatusesOrdered, hdecode]
  simp only [compareDagRunListKeys_pos]
  rfl

omit [DecidableEq Digest] in
lemma pageOf_take {n : ℕ} (hn : 1 ≤ n) (rest : List Item) : pageOf codec opts n true (rest.take (n+1)) =
      if h : rest.length ≤ n then .ok (rest.map Item.status, none)
      else .ok ((rest.take n).map Item.status, some (encodeQueryCursor codec opts (rest[n - 1].key))) := by
  unfold pageOf
  split_ifs with hfull hlen hlen
  · rw [take_of_length_le (by omega)]
  · exfalso
    simp at hfull
    omega
  · exfalso
    simp at hfull
    omega
  · have hlt : n - 1 < rest.length := by omega
    have hget : (rest.take (n+1))[n - 1]? = some rest[n - 1] := by
      rw [getElem?_take_of_lt (by omega), getElem?_eq_getElem hlt]
    rw [Int.toNat_natCast, hget, take_take, Nat.min_eq_left (by omega)]

structure Readings.OnDay (r : Readings) (opts : Options Cursor) (today : Date) : Prop where
  prepare : opts.IsToday → r.prepare.date = today
  root : opts.toTime = none → ∀ i, (r.root i).date = today

/-- The clock as the client's calls read it: the first page is listed on one day, later calls read no
earlier date, and where the filter does not say which days are meant they read the same one. -/
structure Steady (opts : Options Cursor) (today : Date) (readings : ℕ → Readings) : Prop where
  first : (readings 0).OnDay opts today
  prepare : opts.IsToday → ∀ k, (readings k).prepare.date = today
  root : opts.toTime = none → ∀ k i, today ≤ ((readings k).root i).date

variable {readings : ℕ → Readings} {n : ℕ} {all : List Item} {r : Readings}

lemma mem_merged_today (hday : r.OnDay opts today) (item : Item) :
    item ∈ merged store matchers (prepareListOptions opts r.prepare) r ↔ store.Lists matchers opts today item := by
  rw [← mem_merged_iff hday.prepare fun hto i => (hday.root hto i).ge]
  refine (and_iff_left_of_imp fun hitem hto => ?_).symm
  obtain ⟨p, hp, d, hd, ⟨-, hstop⟩, hload⟩ := mem_merged.mp hitem
  have htidy := store.tidy_openRoots (fst_mem_of_mem_zipIdx hp)
  rw [htidy.date_of_mem hd hload]
  simpa [effectiveTimeRange, prepareListOptions, hto, hday.root hto] using hstop

/-- The cursor of the `k`-th call, when the items `pre` have been listed. -/
inductive AtCursor (codec : Codec Digest Stamp Data Cursor) (opts : Options Cursor) (readings : ℕ → Readings) :
    ℕ → Option Cursor → List Item → Prop
  | start : AtCursor codec opts readings 0 none []
  | after (k j : ℕ) (cursor : Option Cursor) (pre : List Item) (a : Item) :
      AtCursor codec opts readings k (some (encodeQueryCursor codec
        (prepareListOptions {opts with cursor := cursor} (readings j).prepare) a.key)) (pre++[a])

lemma Store.named_of_lists {item : Item} (h : store.Lists matchers opts today item) :
    item.key.name ≠ "" ∧ item.key.dagRunID ≠ "" := by
  obtain ⟨root, hroot, d, hd, run, hrun, s, hmatch, rfl⟩ := h
  apply store.named
  refine mem_flatMap.mpr ⟨root, hroot, mem_flatMap.mpr ⟨d, hd, mem_filterMap.mpr ⟨run, hrun, ?_⟩⟩⟩
  simp [hmatch.accepts.status]

variable (hall : all.Pairwise (fun a b => a.key < b.key)) (hmem : ∀ item, item ∈ all ↔ store.Lists matchers opts today item)
include hall hmem

lemma merged_eq (hday : r.OnDay opts today) : merged store matchers (prepareListOptions
      {opts with limit := limit, cursor := cursor, unlimited := unlimited} r.prepare) r = all := by
  apply eq_of_mem_iff pairwise_merged hall
  intro item
  rw [hmem, ← lists_update]
  exact mem_merged_today {hday with} item

lemma merged_filter_eq (hprepare : opts.IsToday → r.prepare.date = today)
    (hroot : opts.toTime = none → ∀ i, today ≤ (r.root i).date) {a} (ha : a ∈ all) :
    (merged store matchers (prepareListOptions
        {opts with limit := limit, cursor := cursor, unlimited := unlimited} r.prepare) r).filter
      (fun item => decide (a.key < item.key)) = all.filter (fun item => decide (a.key < item.key)) := by
  apply eq_of_mem_iff (pairwise_merged.filter _) (hall.filter _)
  intro item
  rw [mem_filter, mem_filter]
  refine and_congr_left fun hlt => ?_
  rw [hmem, ← lists_update, ← mem_merged_iff hprepare hroot]
  refine (and_iff_left_of_imp fun _ hto => ?_).symm
  have htoday : a.key.timestamp.date ≤ today := by
    obtain ⟨root, -, d, -, run, -, s, hmatch, rfl⟩ := (hmem a).mp ha
    exact hmatch.last hto
  exact (date_mono (Key.timestamp_le (of_decide_eq_true hlt))).trans htoday

variable (hsteady : Steady opts today readings) (hlimit : opts.limit = n) (hn : 1 ≤ n) (hmax : n ≤ 1000)
include hsteady hlimit hn hmax

lemma Store.listStatusesPage_eq {k pre rest} (hcursor : AtCursor codec opts readings k cursor pre) (hsplit : all = pre++rest) :
    store.listStatusesPage matchers codec {opts with cursor := cursor} (readings k) =
      pageOf codec (prepareListOptions {opts with cursor := cursor} (readings k).prepare) n true
        (rest.take (n+1)) := by
  have hoptions : (prepareListOptions {opts with cursor := cursor} (readings k).prepare).limit = n := by
    simp only [prepareListOptions, hlimit, maxLimit]
    rw [if_neg (by omega)]
  have htarget : ∀ o : Options Cursor, listTarget o n true = some (n+1) := by
    intro o
    simp only [listTarget]
    rw [if_neg (by omega)]
    simp only [map_some, if_true]
    rw [if_neg (by omega)]
    norm_cast
  simp only [listStatusesPage, hoptions]
  cases hcursor with
  | start =>
    rw [listStatusesOrdered_eq zeroKey rfl rfl, htarget, merged_eq hall hmem hsteady.first, hsplit]
    simp [prepareListOptions, takeUpTo]
  | after _ j cursor pre a =>
    have ha : a ∈ all := by simp [hsplit]
    have hafter : all.filter (fun item => decide (a.key < item.key)) = rest := by
      rw [hsplit, append_assoc, singleton_append] at hall ⊢
      exact filter_after hall
    have hdates : opts.IsToday → (readings k).prepare.date = (readings j).prepare.date := fun htoday =>
      (hsteady.prepare htoday k).trans (hsteady.prepare htoday j).symm
    rw [listStatusesOrdered_eq a.key (decodeQueryCursor_encode codec (normalize_prepareListOptions codec hdates)
        (named_of_lists ((hmem a).mp ha)) rfl)
      ((merged_filter_eq hall hmem (fun htoday => hsteady.prepare htoday k) (fun hto i => hsteady.root hto k i)
        ha).trans hafter), htarget]
    rfl

lemma Store.followPages_rest (rest : List Item) :
    ∀ (k : ℕ) (cursor : Option Cursor) (pre : List Item), AtCursor codec opts readings k cursor pre →
      all = pre++rest → ∃ fuel pages,
        store.followPages matchers codec opts readings fuel k cursor = some (.ok pages) ∧
          pages.flatten = rest.map Item.status := by
  induction hlen : rest.length using Nat.strong_induction_on generalizing rest with
  | _ len ih =>
    intro k cursor pre hcursor hsplit
    have hpage := listStatusesPage_eq hall hmem hsteady hlimit hn hmax hcursor hsplit
    rw [pageOf_take hn] at hpage
    by_cases hlast : rest.length ≤ n
    · rw [dif_pos hlast] at hpage
      exact ⟨1, [rest.map status], by simp [followPages, hpage], by simp⟩
    rw [dif_neg hlast] at hpage
    have hlt : n - 1 < rest.length := by omega
    have htake : rest.take n = rest.take (n - 1)++[rest[n - 1]] := by
      rw [take_concat_get' rest (n - 1) hlt]
      congr
      omega
    have hnext : AtCursor codec opts readings (k+1) (some (encodeQueryCursor codec (prepareListOptions
        {opts with cursor := cursor} (readings k).prepare) rest[n - 1].key)) (pre++rest.take n) := by
      rw [htake, ← append_assoc]
      exact .after _ _ _ _ _
    obtain ⟨fuel, pages, hpages, hflatten⟩ := ih (rest.drop n).length (by simp; omega) (rest.drop n) rfl (k+1) _ _
      hnext (by rw [append_assoc, take_append_drop, hsplit])
    refine ⟨fuel+1, (rest.take n).map status::pages, ?_, ?_⟩
    · simp only [followPages, hpage, hpages]
      rfl
    · rw [flatten_cons, hflatten, ← map_append, take_append_drop]

end

def plainCodec : Codec (NormalizedFilter Time) Time (QueryCursorPayload (NormalizedFilter Time) Time)
    (QueryCursorPayload (NormalizedFilter Time) Time) where
  hash := id
  formatTime := id
  parseTime := some
  marshal := id
  unmarshal := some
  encodeToString := id
  decodeString := some
  parse_format _ := rfl
  unmarshal_marshal _ := rfl
  decode_encode _ := rfl

def plainMatchers : Matchers := ⟨id, fun _ _ => true⟩

def succeededRun (clock : ℕ) (id : String) : Run := ⟨⟨2026, 1, 1, clock⟩, id, none, some ⟨"etl", id, .succeeded, []⟩⟩

def twoRuns : Store where
  roots := [⟨"etl", [(2026, [(1, [(1, [succeededRun 10 "a", succeededRun 11 "b"])])])]⟩]
  dirName := id
  dirName_dir := by simp
  dirs_nodup := by simp
  distinct := by simp [Root.Distinct]
  date_eq := by simp [Root.days, succeededRun, Time.date, Day.date]
  keys_nodup := by simp [Root.items, Root.days, succeededRun, Run.status, Run.toItem]
  named := by simp [Root.items, Root.days, succeededRun, Run.status, Run.toItem]

def aroundMidnight (k : ℕ) : Readings :=
  if k = 0 then ⟨⟨2026, 1, 1, 99⟩, fun _ => ⟨2026, 1, 1, 99⟩⟩ else ⟨⟨2026, 1, 2, 0⟩, fun _ => ⟨2026, 1, 2, 0⟩⟩

end Ayatsuri.RunListing
