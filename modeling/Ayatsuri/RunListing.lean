import Ayatsuri.CoreStatus
import Ayatsuri.SortedMerge

/-! Listing the runs of the store page by page (`internal/persis/filedagrun/pagination.go`,
`query_cursor.go` and `store.go`). -/
namespace Ayatsuri.RunListing
open SortedMerge

structure Time where
  (year month day clock : ℕ)
  deriving DecidableEq

abbrev Date := ℕ ×ₗ ℕ ×ₗ ℕ

def Time.date (t : Time) : Date := toLex (t.year, toLex (t.month, t.day))

def Time.position (t : Time) : Date ×ₗ ℕ := toLex (t.date, t.clock)

lemma Time.position_injective : Function.Injective Time.position := by
  rintro ⟨y, m, d, c⟩ ⟨y', m', d', c'⟩ h
  simpa [Time.position, Time.date, and_assoc] using h

instance : LinearOrder Time := LinearOrder.lift' Time.position Time.position_injective

variable {t u : Time}

lemma Time.lt_iff : t < u ↔ t.date < u.date ∨ t.date = u.date ∧ t.clock < u.clock :=
  Prod.Lex.lt_iff (x := t.position) (y := u.position)

lemma Time.lt_of_date_lt (h : t.date < u.date) : t < u := Time.lt_iff.mpr (.inl h)

lemma Time.date_mono (h : t ≤ u) : t.date ≤ u.date := by
  by_contra hlt
  exact absurd h (not_le.mpr (Time.lt_of_date_lt (not_le.mp hlt)))

/-- `time.Now().Truncate(24 * time.Hour)`. -/
def Time.midnight (t : Time) : Time := {t with clock := 0}

/-! ### Keys -/

structure Key where
  timestamp : Time
  (name dagRunID : String)
  deriving DecidableEq

def compareDagRunListKeys (a b : Key) : ℤ :=
  if b.timestamp < a.timestamp then -1
  else if a.timestamp < b.timestamp then 1
  else if a.name < b.name then -1
  else if b.name < a.name then 1
  else if a.dagRunID < b.dagRunID then -1
  else if b.dagRunID < a.dagRunID then 1
  else 0

def Key.position (k : Key) : Timeᵒᵈ ×ₗ String ×ₗ String :=
  toLex (OrderDual.toDual k.timestamp, toLex (k.name, k.dagRunID))

lemma Key.position_injective : Function.Injective Key.position := by
  rintro ⟨t, n, r⟩ ⟨t', n', r'⟩ h
  simpa [Key.position] using h

instance : LinearOrder Key := LinearOrder.lift' Key.position Key.position_injective

variable {a b : Key}

lemma Key.lt_iff : a < b ↔ b.timestamp < a.timestamp ∨
    a.timestamp = b.timestamp ∧ (a.name < b.name ∨ a.name = b.name ∧ a.dagRunID < b.dagRunID) := by
  refine (Prod.Lex.lt_iff (x := a.position) (y := b.position)).trans ?_
  simp only [Key.position, ofLex_toLex, OrderDual.toDual_lt_toDual, OrderDual.toDual_inj, Prod.Lex.lt_iff]

lemma Key.timestamp_le (h : a < b) : b.timestamp ≤ a.timestamp := by
  rcases Key.lt_iff.mp h with hlt | ⟨heq, -⟩
  · exact hlt.le
  · exact heq.ge

lemma compareDagRunListKeys_neg : compareDagRunListKeys a b < 0 ↔ a < b := by
  rw [Key.lt_iff]
  unfold compareDagRunListKeys
  rcases lt_trichotomy a.timestamp b.timestamp with ht | ht | ht
  · simp [ht, ht.not_gt, ht.ne]
  · rcases lt_trichotomy a.name b.name with hn | hn | hn
    · simp [ht, hn]
    · rcases lt_trichotomy a.dagRunID b.dagRunID with hr | hr | hr <;> simp [ht, hn, hr, hr.not_gt]
    · simp [ht, hn, hn.not_gt, hn.ne']
  · simp [ht]

lemma compareDagRunListKeys_swap (a b : Key) : compareDagRunListKeys b a = -compareDagRunListKeys a b := by
  unfold compareDagRunListKeys
  rcases lt_trichotomy a.timestamp b.timestamp with ht | ht | ht
  · simp [ht, ht.not_gt]
  · rcases lt_trichotomy a.name b.name with hn | hn | hn
    · simp [ht, hn, hn.not_gt]
    · rcases lt_trichotomy a.dagRunID b.dagRunID with hr | hr | hr <;> simp [ht, hn, hr, hr.not_gt]
    · simp [ht, hn, hn.not_gt]
  · simp [ht, ht.not_gt]

lemma compareDagRunListKeys_pos : 0 < compareDagRunListKeys a b ↔ b < a := by
  rw [← compareDagRunListKeys_neg, compareDagRunListKeys_swap a b]
  omega

lemma compareDagRunListKeys_nonpos : compareDagRunListKeys a b ≤ 0 ↔ a ≤ b := by
  rw [← not_lt, compareDagRunListKeys_pos, not_lt]

/-! ### The content of the store -/

structure RunStatus where
  (name dagRunID : String)
  status : Status
  tags : List String
  deriving DecidableEq

structure Run where
  timestamp : Time
  dagRunID : String
  (summary latest : Option RunStatus)
  deriving DecidableEq

structure Item where
  key : Key
  status : RunStatus
  deriving DecidableEq

def Run.status (run : Run) : Option RunStatus := run.summary.or run.latest

def Run.toItem (run : Run) (status : RunStatus) : Item := ⟨⟨run.timestamp, status.name, status.dagRunID⟩, status⟩

structure Day where
  (year month day : ℕ)
  runs : List Run
  deriving DecidableEq

def Day.date (d : Day) : Date := toLex (d.year, toLex (d.month, d.day))

abbrev Dirs (α : Type) := List (ℕ × α)

structure Root where
  dir : String
  years : Dirs (Dirs (Dirs (List Run)))

variable (root : Root)

def Root.days : List Day := root.years.flatMap fun y => y.2.flatMap fun m => m.2.map fun d => ⟨y.1, m.1, d.1, d.2⟩

def Root.items : List Item := root.days.flatMap fun d => d.runs.filterMap fun run => run.status.map run.toItem

def Root.Distinct : Prop :=
  (root.years.map Prod.fst).Nodup ∧ ∀ y ∈ root.years, (y.2.map Prod.fst).Nodup ∧ ∀ m ∈ y.2, (m.2.map Prod.fst).Nodup

/-- The store: `dirName` is the directory name that `NewDataRoot` computes for a DAG, and leaves
the directories it has made as they are. -/
structure Store where
  roots : List Root
  dirName : String → String
  dirName_dir : ∀ root ∈ roots, dirName root.dir = root.dir
  dirs_nodup : (roots.map Root.dir).Nodup
  distinct : ∀ root ∈ roots, root.Distinct
  date_eq : ∀ root ∈ roots, ∀ d ∈ root.days, ∀ run ∈ d.runs, run.timestamp.date = d.date
  keys_nodup : ((roots.flatMap Root.items).map Item.key).Nodup
  named : ∀ item ∈ roots.flatMap Root.items, item.key.name ≠ "" ∧ item.key.dagRunID ≠ ""

/-! ### Options and cursors -/

structure Options (Cursor : Type) where
  dagRunID : String := ""
  name : String := ""
  exactName : String := ""
  fromTime : Option Time := none
  toTime : Option Time := none
  statuses : List Status := []
  limit : ℤ := 0
  cursor : Option Cursor := none
  tags : List String := []
  unlimited : Bool := false
  allHistory : Bool := false

/-- The readings of the clock in one call: in `prepareListOptions`, and for each DAG directory. -/
structure Readings where
  prepare : Time
  root : ℕ → Time

def maxLimit : ℤ := 1000

def prepareListOptions {Cursor : Type} (opts : Options Cursor) (now : Time) : Options Cursor :=
  {opts with
    fromTime :=
      if !opts.allHistory ∧ opts.fromTime = none ∧ opts.toTime = none then some now.midnight else opts.fromTime
    limit := if !opts.unlimited ∧ (opts.limit = 0 ∨ maxLimit < opts.limit) then maxLimit else opts.limit}

structure QueryCursorPayload (Digest Stamp : Type) where
  version : ℤ
  filterHash : Option Digest
  timestamp : Option Stamp
  (name dagRunID : String)
  deriving DecidableEq

structure NormalizedFilter (Stamp : Type) where
  (dagRunID name exactName : String)
  (fromTime toTime : Option Stamp)
  statuses : List ℤ
  tags : List String
  allHistory : Bool
  deriving DecidableEq

/-- The text formats a cursor goes through. Only an empty text is `none`. -/
structure Codec (Digest Stamp Data Cursor : Type) where
  hash : NormalizedFilter Stamp → Digest
  formatTime : Time → Stamp
  parseTime : Stamp → Option Time
  marshal : QueryCursorPayload Digest Stamp → Data
  unmarshal : Data → Option (QueryCursorPayload Digest Stamp)
  encodeToString : Data → Cursor
  decodeString : Cursor → Option Data
  parse_format : ∀ t, parseTime (formatTime t) = some t
  unmarshal_marshal : ∀ p, unmarshal (marshal p) = some p
  decode_encode : ∀ d, decodeString (encodeToString d) = some d

structure Matchers where
  toLower : String → String
  matchesFilters : List String → List String → Bool

variable {Digest Stamp Data Cursor : Type} [DecidableEq Digest]

def statusNumber : Status → ℤ
  | .notStarted => 0
  | .running => 1
  | .failed => 2
  | .aborted => 3
  | .succeeded => 4
  | .queued => 5
  | .partiallySucceeded => 6
  | .waiting => 7
  | .rejected => 8

variable (codec : Codec Digest Stamp Data Cursor) (opts : Options Cursor)

def normalize : NormalizedFilter Stamp where
  dagRunID := opts.dagRunID
  name := opts.name
  exactName := opts.exactName
  fromTime := opts.fromTime.map codec.formatTime
  toTime := opts.toTime.map codec.formatTime
  statuses := (opts.statuses.map statusNumber).insertionSort (· ≤ ·)
  tags := opts.tags.insertionSort (· ≤ ·)
  allHistory := opts.allHistory

def queryFilterHash : Digest := codec.hash (normalize codec opts)

def queryCursorVersion : ℤ := 1

def encodeQueryCursor (key : Key) : Cursor :=
  codec.encodeToString (codec.marshal {
    version := queryCursorVersion
    filterHash := some (queryFilterHash codec opts)
    timestamp := some (codec.formatTime key.timestamp)
    name := key.name
    dagRunID := key.dagRunID})

def invalidQueryCursor (reason : String) : String := "filedagrun: invalid query cursor: " ++ reason

def zeroKey : Key := ⟨⟨1, 1, 1, 0⟩, "", ""⟩

def decodeQueryCursor : Except String Key := do
  match opts.cursor with
  | none => return zeroKey
  | some cursor =>
    let some data := codec.decodeString cursor | throw (invalidQueryCursor "decode cursor")
    let some payload := codec.unmarshal data | throw (invalidQueryCursor "parse cursor")
    if payload.version ≠ queryCursorVersion then throw (invalidQueryCursor "unsupported cursor version")
    let (some hash, some stamp) := (payload.filterHash, payload.timestamp)
      | throw (invalidQueryCursor "cursor is incomplete")
    if payload.name = "" ∨ payload.dagRunID = "" then throw (invalidQueryCursor "cursor is incomplete")
    if hash ≠ queryFilterHash codec opts then
      throw (invalidQueryCursor "cursor does not match the current filters")
    let some timestamp := codec.parseTime stamp | throw (invalidQueryCursor "invalid cursor timestamp")
    return ⟨timestamp, payload.name, payload.dagRunID⟩

lemma decodeQueryCursor_encode {opts opts' : Options Cursor}
    {key : Key} (hfilter : normalize codec opts' = normalize codec opts)
    (hnamed : key.name ≠ "" ∧ key.dagRunID ≠ "") (hcursor : opts'.cursor = some (encodeQueryCursor codec opts key)) :
    decodeQueryCursor codec opts' = .ok key := by
  have hhash : queryFilterHash codec opts' = queryFilterHash codec opts := congrArg codec.hash hfilter
  simp [decodeQueryCursor, hcursor, encodeQueryCursor, codec.decode_encode, codec.unmarshal_marshal,
    codec.parse_format, hhash, hnamed.1, hnamed.2]
  rfl

/-! ### Iterators over the days of a DAG -/

def effectiveTimeRange (fromTime toTime : Option Time) (now : Time) : Time × Time :=
  (fromTime.getD ⟨2000, 1, 1, 0⟩, toTime.getD now)

def listDirsSorted {α : Type} (dirs : Dirs α) : Dirs α := sortBy (fun e => OrderDual.toDual e.1) dirs

def dayPaths (start stop : Time) (year month : ℕ) (days : Dirs (List Run)) : List Day :=
  ((listDirsSorted days).filter fun e =>
    ¬ ((year = start.year ∧ month = start.month ∧ e.1 < start.day) ∨
      (year = stop.year ∧ month = stop.month ∧ stop.day < e.1))).map fun e => ⟨year, month, e.1, e.2⟩

def monthPaths (start stop : Time) (year : ℕ) (months : Dirs (Dirs (List Run))) : List Day :=
  ((listDirsSorted months).filter fun e =>
    ¬ ((year = start.year ∧ e.1 < start.month) ∨ (year = stop.year ∧ stop.month < e.1))).flatMap fun e =>
      dayPaths start stop year e.1 e.2

def listDayPathsInRange (fromTime toTime : Option Time) (now : Time) : List Day :=
  let (start, stop) := effectiveTimeRange fromTime toTime now
  ((listDirsSorted root.years).filter fun e => ¬ (e.1 < start.year ∨ stop.year < e.1)).flatMap fun e =>
    monthPaths start stop e.1 e.2

def inTimeRange (ts start stop : Time) (startZero endZero : Bool) : Bool :=
  (startZero || !decide (ts < start)) && (endZero || decide (ts < stop))

/-- `strings.Contains`. -/
def contains (s sub : String) : Bool := decide (sub.toList <:+: s.toList)

variable (matchers : Matchers)

def containsFold (value query : String) : Bool := contains (matchers.toLower value) (matchers.toLower query)

def resolveStatus (run : Run) (tags : List String) (statuses : List Status) : Option RunStatus :=
  match run.summary with
  | some s =>
    if statuses ≠ [] ∧ s.status ∉ statuses then none
    else if tags ≠ [] ∧ !matchers.matchesFilters s.tags tags then none
    else some s
  | none =>
    match run.latest with
    | none => none
    | some s =>
      if tags ≠ [] ∧ !matchers.matchesFilters s.tags tags then none
      else if statuses ≠ [] ∧ s.status ∉ statuses then none
      else some s

def sortDayItems (items : List Item) : List Item := items.insertionSort fun a b => compareDagRunListKeys a.key b.key ≤ 0

def selectRun (opts : Options Cursor) (now : Time) (run : Run) : Option Item :=
  let (start, stop) := effectiveTimeRange opts.fromTime opts.toTime now
  if !inTimeRange run.timestamp start stop opts.fromTime.isNone opts.toTime.isNone then none
  else if opts.dagRunID ≠ "" ∧ !contains run.dagRunID opts.dagRunID then none
  else
    match resolveStatus matchers run opts.tags opts.statuses with
    | none => none
    | some status =>
      if opts.name ≠ "" ∧ !containsFold matchers status.name opts.name then none
      else some (run.toItem status)

def loadDay (opts : Options Cursor) (now : Time) (day : Day) : List Item :=
  sortDayItems (day.runs.filterMap (selectRun matchers opts now))

structure Iterator where
  dayPaths : List Day
  dayItems : List Item

def nextDay (load : Day → List Item) : List Day → Option (Item × Iterator)
  | [] => none
  | day::days =>
    match load day with
    | [] => nextDay load days
    | item::items => some (item, ⟨days, items⟩)

variable (load : Day → List Item) (it : Iterator)

def Iterator.next : Option (Item × Iterator) :=
  match it.dayItems with
  | item::items => some (item, {it with dayItems := items})
  | [] => nextDay load it.dayPaths

def Iterator.rest : List Item := it.dayItems++it.dayPaths.flatMap load

variable {days : List Day}

lemma nextDay_none {load : Day → List Item} (h : nextDay load days = none) : days.flatMap load = [] := by
  induction days with
  | nil => rfl
  | cons day days ih =>
    simp only [nextDay] at h
    split at h
    · rename_i hload
      simp [hload, ih h]
    · simp at h

lemma nextDay_some {load : Day → List Item} {item : Item} {it : Iterator}
    (h : nextDay load days = some (item, it)) : days.flatMap load = item::it.rest load := by
  induction days with
  | nil => simp [nextDay] at h
  | cons day days ih =>
    simp only [nextDay] at h
    split at h
    · rename_i hload
      simp [hload, ih h]
    rename_i hload
    obtain ⟨rfl, rfl⟩ := by simpa using h
    simp [hload, Iterator.rest]

def itemSource : Source Iterator Item where
  next := Iterator.next load
  rest := Iterator.rest load
  rest_none := by
    rintro ⟨days, _ | ⟨item, items⟩⟩ h
    · simpa [Iterator.rest] using nextDay_none h
    · simp [Iterator.next] at h
  rest_some := by
    rintro ⟨days, _ | ⟨item, items⟩⟩ a j h
    · simpa [Iterator.rest] using nextDay_some h
    · obtain ⟨rfl, rfl⟩ := by simpa [Iterator.next] using h
      simp [Iterator.rest]

/-! ### Pages -/

variable (store : Store)

/-- The directory that `NewDataRoot` opens for a name; it need not exist. -/
def Store.dataRoot (name : String) : Root :=
  (store.roots.find? fun root => root.dir = store.dirName name).getD ⟨store.dirName name, []⟩

def Store.openRoots (opts : Options Cursor) : List Root :=
  if opts.exactName = "" then store.roots.map fun root => store.dataRoot root.dir
  else [store.dataRoot opts.exactName]

def newDAGRunStatusIterator (opts : Options Cursor) (now : Time) : Iterator :=
  ⟨listDayPathsInRange root opts.fromTime opts.toTime now, []⟩

def Store.newStatusIterators (opts : Options Cursor) (readings : Readings) : List Iterator :=
  (store.openRoots opts).zipIdx.map fun p => newDAGRunStatusIterator p.1 opts (readings.root p.2)

/-- How many items are collected; `none` is `math.MaxInt`. -/
def listTarget (opts : Options Cursor) (limit : ℤ) (returnCursor : Bool) : Option ℕ :=
  let target := if limit ≤ 0 then (if opts.unlimited then none else some opts.limit) else some limit
  target.map fun target =>
    let target := if target ≤ 0 then 1 else target
    (if returnCursor then target+1 else target).toNat

def pageOf (opts : Options Cursor) (limit : ℤ) (returnCursor : Bool)
    (items : List Item) : Except String (List RunStatus × Option Cursor) :=
  if !returnCursor ∨ limit ≤ 0 ∨ items.length ≤ limit then .ok (items.map Item.status, none)
  else
    match items[limit.toNat - 1]? with
    | none => .error "index out of range"
    | some last => .ok ((items.take limit.toNat).map Item.status, some (encodeQueryCursor codec opts last.key))

def Store.listStatusesOrdered (matchers : Matchers) (codec : Codec Digest Stamp Data Cursor)
    (opts : Options Cursor) (readings : Readings) (limit : ℤ) (returnCursor : Bool) :
    Except String (List RunStatus × Option Cursor) := do
  let cursorKey ← decodeQueryCursor codec opts
  let source := itemSource (loadDay matchers opts readings.prepare)
  let queue := (store.newStatusIterators opts readings).foldl (push source) []
  let keep := fun item : Item => opts.cursor.isNone || decide (0 < compareDagRunListKeys item.key cursorKey)
  -- Every round takes an item off the iterators, so the number of items is enough rounds.
  pageOf codec opts limit returnCursor
    (collect source Item.key keep (pending source queue).length (listTarget opts limit returnCursor) queue)

def Store.listStatusesPage (matchers : Matchers) (codec : Codec Digest Stamp Data Cursor)
    (opts : Options Cursor) (readings : Readings) : Except String (List RunStatus × Option Cursor) :=
  let options := prepareListOptions opts readings.prepare
  store.listStatusesOrdered matchers codec options readings options.limit true

def Store.listStatuses (matchers : Matchers) (codec : Codec Digest Stamp Data Cursor)
    (opts : Options Cursor) (readings : Readings) : Except String (List RunStatus) := do
  let options := prepareListOptions opts readings.prepare
  let page ← store.listStatusesOrdered matchers codec options readings options.limit false
  return page.1

/-- The pages of a client that follows `NextCursor` until it is empty; `none` if `fuel` calls are not enough. -/
def Store.followPages (store : Store) (matchers : Matchers) (codec : Codec Digest Stamp Data Cursor)
    (opts : Options Cursor) (readings : ℕ → Readings) :
    ℕ → ℕ → Option Cursor → Option (Except String (List (List RunStatus)))
  | 0, _, _ => none
  | fuel+1, k, cursor =>
    match store.listStatusesPage matchers codec {opts with cursor := cursor} (readings k) with
    | .error e => some (.error e)
    | .ok (items, none) => some (.ok [items])
    | .ok (items, some next) =>
      (store.followPages matchers codec opts readings fuel (k+1) (some next)).map fun pages => pages.map (items :: ·)

end Ayatsuri.RunListing
