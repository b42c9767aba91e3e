import Ayatsuri.ByteLines
import Ayatsuri.Directory
import Ayatsuri.TransitionSystem

/-! The event store (`internal/persis/fileeventstore`): `Emit` puts a file into the inbox through a temporary
file next to it, a collector in another process appends what it finds in the inbox to the log of the event's
hour and then deletes the file, and a reader follows both with a cursor of log offsets and the last inbox file
it has seen. -/
namespace Ayatsuri.EventStore
open TransitionSystem ByteLines

inductive EventKind
  | dagRun | automata | llmUsage
  deriving DecidableEq

inductive EventType
  | dagRunQueued | dagRunRunning | dagRunWaiting | dagRunSucceeded | dagRunFailed | dagRunAborted | dagRunRejected
  | automataNeedsInput | automataError | automataFinished | llmUsageRecorded
  deriving DecidableEq

/-- An event that `Validate` accepts. The times are Unix nanoseconds; the fields that nothing here reads are
together in `data`. -/
structure Event where
  id : String
  (occurredAt recordedAt : ℤ)
  kind : EventKind
  type : EventType
  data : String
  deriving DecidableEq

/-- `OccurredAt.UTC().Format(hourFormat)`, as the number of the hour. -/
def Event.hour (e : Event) : ℤ := e.occurredAt / 3600000000000

/-- `IsDAGRunEventType`. -/
def Event.isDAGRun (e : Event) : Bool :=
  match e.kind with
  | .dagRun =>
    match e.type with
    | .dagRunQueued | .dagRunRunning | .dagRunWaiting | .dagRunSucceeded | .dagRunFailed | .dagRunAborted
    | .dagRunRejected => true
    | .llmUsageRecorded | .automataNeedsInput | .automataError | .automataFinished => false
  | .automata | .llmUsage => false

variable (B : Type)

/-- Events as lines of JSON, as far as a scanner takes them. -/
structure Codec where
  encode : Event → List B
  decode : List B → Option Event
  /-- `ScannerMaxTokenSize`: a scanner stops with an error at a line of this length. -/
  limit : ℕ
  encode_short : ∀ e, (encode e).length < limit
  decode_encode : ∀ e, decode (encode e) = some e
  decode_cut : ∀ e bytes rest, bytes++rest = encode e → rest ≠ [] → decode bytes = none

/-- `pendingInboxEvent`. -/
structure Pending where
  path : String
  raw : List B
  event : Event
  deriving DecidableEq

/-- A call of `Emit` with the names of its inbox file and of the temporary file of `WriteFileAtomic`. -/
structure Call where
  event : Event
  (name temp : String)
  deriving DecidableEq

/-- Where a call of `Emit` is: it still has to write `rest` and then to rename, or it has returned. -/
inductive EmitPc (B : Type)
  | writing (rest : List B)
  | ok | failed
  deriving DecidableEq

/-- Where `DrainOnce` is. -/
inductive CollectorPc (B : Type)
  | idle
  | scan (todo : List String) (pending : List (Pending B))
  | quarantine (name : String) (todo : List String) (pending : List (Pending B))
  | discard (name : String) (todo : List String) (pending : List (Pending B))
  | groups (groups : List (ℤ × List (Pending B)))
  /-- `appendGroup` with the bytes that are still to be written. -/
  | append (hour : ℤ) (rest : Text B) (group : List (Pending B)) (groups : List (ℤ × List (Pending B)))
  | remove (items : List (Pending B)) (groups : List (ℤ × List (Pending B)))
  deriving DecidableEq

/-- `DAGRunCursor`. A log without an entry has offset 0. -/
structure Cursor where
  committedOffsets : ℤ → ℕ
  lastInboxFile : String

def Cursor.empty : Cursor := ⟨fun _ => 0, ""⟩

/-- Where `ReadDAGRunEvents` is, with the events by ID and the next cursor as far as it has them. -/
inductive ReaderPc
  | idle
  | logs (todo : List ℤ) (found : List Event) (next : Cursor)
  | inbox (todo : List String) (found : List Event) (next : Cursor)
  | quarantine (name : String) (todo : List String) (found : List Event) (next : Cursor)

structure State where
  inbox : Dir String (List B)
  quarantined : List String
  logs : Dir ℤ (Text B)
  emits : List (Call × EmitPc B)
  collector : CollectorPc B
  seenIDs : List String
  reader : ReaderPc
  cursor : Cursor
  reads : ℕ
  returned : List Event

inductive Label
  | emit (event : Event) (name temp : String)
  | writeTemp (call size : ℕ)
  | rename (call : ℕ)
  /-- The next step of the collector; a write to a log takes `size` bytes. -/
  | collect (size : ℕ)
  | crash | fail | read
  deriving DecidableEq

def defaultBatchSize : ℕ := 256

section
variable {B : Type} (found : List Event)

/-- `selectNewestDAGRunEvent`. -/
def selectNewest (e : Event) : List Event :=
  match found.find? fun current => current.id = e.id with
  | none => found++[e]
  | some current =>
    if current.recordedAt < e.recordedAt then
      found.map fun x => if x.id = e.id then e else x
    else if e.recordedAt = current.recordedAt ∧ current.occurredAt < e.occurredAt then
      found.map fun x => if x.id = e.id then e else x
    else found

/-- `events`, sorted by the time of recording and the ID. -/
def sortEvents : List Event := SortedMerge.sortBy (fun e => toLex (e.recordedAt, e.id)) found

/-- `pendingByHour` in the order of the hours. -/
def groupByHour (pending : List (Pending B)) : List (ℤ × List (Pending B)) :=
  let hours := SortedMerge.sortBy id (pending.map fun p => p.event.hour).dedup
  hours.map fun hour => (hour, pending.filter fun p => p.event.hour = hour)

/-- What `appendGroup` writes. -/
def groupText (group : List (Pending B)) : Text B := group.flatMap fun p => line p.raw

variable (codec : Codec B) (text : Text B)

/-- What a scanner finds before its error, if there is one. -/
def decodeLines : List Event := ((tokens text).takeWhile fun bytes => bytes.length < codec.limit).filterMap codec.decode

def tooLong : Bool := (tokens text).any fun bytes => codec.limit ≤ bytes.length

/-- The loop of `loadSeenIDs`, which ends at the first error of `loadSeenIDsFromFile`. -/
def seenIn : List (ℤ × Text B) → List String
  | [] => []
  | log::logs => (decodeLines codec log.2).map Event.id++if tooLong codec log.2 then [] else seenIn logs

def loadSeenIDs (logs : Dir ℤ (Text B)) : List String := seenIn codec logs.sorted

/-- `readCommittedEventsFromOffset`, with the size of the log; `none` is an error. -/
def readCommittedEventsFromOffset (offset : ℕ) : Option (List Event × ℕ) :=
  let size := text.length
  let offset := if size < offset then 0 else offset
  if offset = size then some ([], size)
  else if tooLong codec (text.drop offset) then none
  else some ((decodeLines codec (text.drop offset)).filter fun e => e.isDAGRun, size)

end

namespace State
variable {B : Type}

def init : State B where
  inbox := Dir.empty
  quarantined := []
  logs := Dir.empty
  emits := []
  collector := .idle
  seenIDs := []
  reader := .idle
  cursor := Cursor.empty
  reads := 0
  returned := []

variable (s : State B)

def log (hour : ℤ) : Text B := (s.logs.get? hour).getD []

/-- `os.Rename` into the quarantine directory, if the file is there. -/
def moveToQuarantine (name : String) : State B :=
  if name ∈ s.inbox.names then
    {s with inbox := s.inbox.remove name, quarantined := name::s.quarantined}
  else s

/-- A piece of the temporary file. The file may have been moved or deleted meanwhile, which the writer does not
notice. -/
def writeTemp (i size : ℕ) : Option (State B) :=
  match s.emits[i]? with
  | some (call, .writing rest) =>
    let emits := s.emits.set i (call, .writing (rest.drop size))
    match s.inbox.get? call.temp with
    | none => some {s with emits := emits}
    | some bytes => some {s with emits := emits, inbox := s.inbox.put call.temp (bytes++rest.take size)}
  | _ => none

/-- The rename of `WriteFileAtomic`, which needs the temporary file. -/
def rename (i : ℕ) : Option (State B) :=
  match s.emits[i]? with
  | some (call, .writing []) =>
    match s.inbox.get? call.temp with
    | none => some {s with emits := s.emits.set i (call, .failed)}
    | some bytes =>
      some {s with
        emits := s.emits.set i (call, .ok)
        inbox := (s.inbox.remove call.temp).put call.name bytes}
  | _ => none

def names : List String := s.emits.flatMap fun x => [x.1.name, x.1.temp]

variable (codec : Codec B) (batchSize : ℕ)

def collect (s : State B) (size : ℕ) : State B :=
  match s.collector with
  | .idle => {s with collector := .scan ((s.inbox.sorted.map Prod.fst).take batchSize) []}
  | .scan [] pending => {s with collector := .groups (groupByHour pending)}
  | .scan (name::todo) pending =>
    -- `readPendingEvent`
    match s.inbox.get? name with
    | none => {s with collector := .quarantine name todo pending}
    | some raw =>
      match codec.decode raw with
      | none => {s with collector := .quarantine name todo pending}
      | some event =>
        if event.id ∈ s.seenIDs then {s with collector := .discard name todo pending}
        else if event.id ∈ pending.map (·.event.id) then {s with collector := .discard name todo pending}
        else {s with collector := .scan todo (pending++[⟨name, raw, event⟩])}
  | .quarantine name todo pending => {s.moveToQuarantine name with collector := .scan todo pending}
  | .discard name todo pending => {s with inbox := s.inbox.remove name, collector := .scan todo pending}
  | .groups [] => {s with collector := .idle}
  | .groups ((hour, group)::groups) =>
    {s with logs := s.logs.put hour (s.log hour), collector := .append hour (groupText group) group groups}
  | .append _ [] group groups =>
    {s with seenIDs := group.map (·.event.id)++s.seenIDs, collector := .remove group groups}
  | .append hour rest group groups =>
    {s with
      logs := s.logs.put hour (s.log hour++rest.take size)
      collector := .append hour (rest.drop size) group groups}
  | .remove [] groups => {s with collector := .groups groups}
  | .remove (p::items) groups =>
    if p.event.id ∈ s.seenIDs then {s with inbox := s.inbox.remove p.path, collector := .remove items groups}
    else {s with collector := .remove items groups}

/-- `reloadSeenIDs`. -/
def reloaded (hour : ℤ) : List String := (decodeLines codec (s.log hour)).map Event.id++s.seenIDs

/-- `appendGroup` ends in an error. The log is read again, and unless that fails too, the files of the events that are
seen now are removed. -/
def failAppend : Option (State B) :=
  match s.collector with
  | .append hour _ group _ =>
    let items := if tooLong codec (s.log hour) then [] else group.filter fun p => p.event.id ∈ s.reloaded codec hour
    some {s with seenIDs := s.reloaded codec hour, collector := .remove items []}
  | _ => none

def read (s : State B) : State B :=
  match s.reader with
  | .idle => {s with reader := .logs (s.logs.sorted.map Prod.fst) [] ⟨fun _ => 0, s.cursor.lastInboxFile⟩}
  | .logs (hour::todo) found next =>
    match readCommittedEventsFromOffset codec (s.log hour) (s.cursor.committedOffsets hour) with
    | none => {s with reader := .idle}
    | some (events, size) =>
      {s with
        reader := .logs todo (events.foldl selectNewest found)
          {next with committedOffsets := Function.update next.committedOffsets hour size}}
  | .logs [] found next => {s with reader := .inbox (s.inbox.sorted.map Prod.fst) found next}
  | .inbox (name::todo) found next =>
    if s.cursor.lastInboxFile ≠ "" ∧ name ≤ s.cursor.lastInboxFile then {s with reader := .inbox todo found next}
    else
      -- `readInboxDAGRunEvent`
      match s.inbox.get? name with
      | none => {s with reader := .inbox todo found {next with lastInboxFile := name}}
      | some bytes =>
        match codec.decode bytes with
        | none => {s with reader := .quarantine name todo found next}
        | some event =>
          let found := if event.isDAGRun then selectNewest found event else found
          {s with reader := .inbox todo found {next with lastInboxFile := name}}
  | .quarantine name todo found next =>
    if name ∈ s.inbox.names then {s.moveToQuarantine name with reader := .inbox todo found next}
    else {s with reader := .idle}
  | .inbox [] found next =>
    {s with
      reader := .idle
      cursor := next
      reads := s.reads+1
      returned := s.returned++sortEvents found}

def step (s : State B) : Label → Option (State B)
  | .emit event name temp =>
    -- The names have a fresh UUID, and `CreateTemp` takes one that is free.
    if name ∉ s.names ∧ temp ∉ s.names ∧ name ≠ temp then
      some {s with
        inbox := s.inbox.put temp []
        emits := s.emits++[(⟨event, name, temp⟩, .writing (codec.encode event))]}
    else none
  | .writeTemp i size => s.writeTemp i size
  | .rename i => s.rename i
  | .collect size => some (s.collect codec batchSize size)
  | .crash => some {s with collector := .idle, seenIDs := loadSeenIDs codec s.logs}
  | .fail => s.failAppend codec
  | .read => some (s.read codec)

def Distinct : Label → Prop
  | .emit event _ _ => event.id ∉ s.emits.map fun x => x.1.event.id
  | _ => True

def Whole (s : State B) : Prop := ∀ log ∈ s.logs.entries, ByteLines.Whole log.2

/-- A crash of the collector, or an append that ends in an error, leaves no line unfinished. -/
def CrashAtLineEnd : Label → Prop
  | .crash | .fail => s.Whole
  | _ => True

def ListWithoutTemps : Label → Prop
  | .collect _ => s.collector = .idle → ∀ x ∈ s.emits, x.1.temp ∉ s.inbox.names
  | _ => True

section
variable [DecidableEq B] (s : State B)

instance (l : Label) : Decidable (s.Distinct l) := by
  unfold Distinct
  split <;> infer_instance

instance : Decidable s.Whole := inferInstanceAs (Decidable (∀ log ∈ s.logs.entries, ByteLines.Whole log.2))

instance (l : Label) : Decidable (s.CrashAtLineEnd l) := by
  unfold CrashAtLineEnd
  split <;> infer_instance

instance (l : Label) : Decidable (s.ListWithoutTemps l) := by
  unfold ListWithoutTemps
  split <;> infer_instance

end
end State

def twoBytes : Codec (Event × Bool) where
  encode e := [(e, false), (e, true)]
  decode
    | [(e, false), (e', true)] => if e = e' then some e else none
    | _ => none
  limit := 10485760
  encode_short e := by simp
  decode_encode e := by simp
  decode_cut e bytes rest h hrest := by
    match bytes, rest with
    | [], _ => rfl
    | [(_, false)], _ | [(_, true)], _ => rfl
    | _::_::_, [] => exact absurd rfl hrest
    | _::_::_, _::_ => simp at h

/-! What the files of the event store hold in every run in which events have IDs of their own and the collector
crashes or fails to append only at the ends of lines: an inbox file belongs to one call of `Emit`, a line of a log is
an emitted event, and what the collector has seen is on a finished line. -/

open List Dir

namespace CollectorPc
variable {B : Type}

@[simp] def unwritten : CollectorPc B → ℤ → Text B
  | .append hour rest _ _, h => if h = hour then rest else []
  | _, _ => []

@[simp] def grouped : CollectorPc B → List (ℤ × List (Pending B))
  | .append hour _ group later => (hour, group)::later
  | .groups later | .remove _ later => later
  | _ => []

@[simp] def waiting : CollectorPc B → List (Pending B)
  | .idle => []
  | .scan _ pending | .quarantine _ _ pending | .discard _ _ pending => pending
  | .groups later | .append _ _ _ later | .remove _ later => later.flatMap Prod.snd

@[simp] def opened : CollectorPc B → List (Pending B)
  | .append _ _ group _ => group
  | .remove items _ => items
  | _ => []

end CollectorPc

open CollectorPc

section
variable {B : Type} {codec : Codec B} {logs : List (ℤ × Text B)} {id : String}

lemma mem_of_mem_seenIn (h : id ∈ seenIn codec logs) :
    ∃ log ∈ logs, ∃ bytes ∈ tokens log.2, ∃ event, codec.decode bytes = some event ∧ event.id = id := by
  induction logs with
  | nil => cases h
  | cons log logs ih =>
    rcases mem_append.mp h with h | h
    · obtain ⟨event, hevent, rfl⟩ := mem_map.mp h
      obtain ⟨bytes, hbytes, hdecode⟩ := mem_filterMap.mp hevent
      exact ⟨log, mem_cons_self, bytes, (takeWhile_sublist _).subset hbytes, event, hdecode, rfl⟩
    · split_ifs at h
      · cases h
      · obtain ⟨log', hlog, hrest⟩ := ih h
        exact ⟨log', mem_cons_of_mem _ hlog, hrest⟩

/-- Where every line is an event, a scanner comes to the end. -/
lemma scans {text : Text B} (h : ∀ bytes ∈ tokens text, ∃ e, bytes = codec.encode e) :
    tooLong codec text = false ∧ decodeLines codec text = (tokens text).filterMap codec.decode := by
  have hshort : ∀ bytes ∈ tokens text, bytes.length < codec.limit := fun bytes hbytes => by
    obtain ⟨e, rfl⟩ := h bytes hbytes
    exact codec.encode_short e
  constructor
  · simpa [tooLong] using hshort
  · rw [decodeLines, takeWhile_eq_self_iff.mpr (by simpa using hshort)]

lemma mem_seenIn (h : ∀ log ∈ logs, ∀ bytes ∈ tokens log.2, ∃ e, bytes = codec.encode e) {log event}
    (hlog : log ∈ logs) (hevent : codec.encode event ∈ tokens log.2) : event.id ∈ seenIn codec logs := by
  induction logs with
  | nil => cases hlog
  | cons first logs ih =>
    obtain ⟨hfirst, hrest⟩ := forall_mem_cons.mp h
    obtain ⟨hshort, hscanned⟩ := scans hfirst
    rw [seenIn, hshort, hscanned]
    rcases mem_cons.mp hlog with rfl | hlog
    · exact mem_append_left _ (mem_map_of_mem (mem_filterMap.mpr ⟨_, hevent, codec.decode_encode event⟩))
    · exact mem_append_right _ (ih hrest hlog)

end

namespace State
variable {B : Type} {codec : Codec B} {batchSize : ℕ} {s t : State B} {l : Label}

def calls (s : State B) : List Call := s.emits.map Prod.fst

def full (s : State B) (hour : ℤ) : Text B := s.log hour++s.collector.unwritten hour

def Owns (codec : Codec B) (file : String × List B) (x : Call × EmitPc B) : Prop :=
  (∃ rest, x.2 = .writing rest ∧ file.1 = x.1.temp ∧ file.2++rest = codec.encode x.1.event) ∨
    x.2 = .ok ∧ file.1 = x.1.name ∧ file.2 = codec.encode x.1.event

structure Files (codec : Codec B) (s : State B) : Prop where
  ids : (s.emits.map fun x => x.1.event.id).Nodup
  names : s.names.Nodup
  owned : ∀ file ∈ s.inbox.entries, ∃ x ∈ s.emits, Owns codec file x

def Took (codec : Codec B) (s : State B) (p : Pending B) : Prop :=
  ∃ call ∈ s.calls, p.event = call.event ∧ p.raw = codec.encode call.event ∧ (p.path = call.name ∨ p.path = call.temp)

structure Logs (codec : Codec B) (s : State B) : Prop where
  whole : ∀ hour, ByteLines.Whole (s.full hour)
  emitted : ∀ hour, ∀ bytes ∈ lines (s.full hour),
    ∃ call ∈ s.calls, bytes = codec.encode call.event ∧ call.event.hour = hour
  took : ∀ p ∈ s.collector.waiting++s.collector.opened, s.Took codec p
  hours : ∀ group ∈ s.collector.grouped, ∀ p ∈ group.2, p.event.hour = group.1
  placed : ∀ p ∈ s.collector.opened, p.raw ∈ lines (s.full p.event.hour)
  seen : ∀ id ∈ s.seenIDs, ∃ call ∈ s.calls, call.event.id = id ∧
    codec.encode call.event ∈ lines (s.log call.event.hour)

def Orderly (s : State B) (l : Label) : Prop := s.Distinct l ∧ s.CrashAtLineEnd l

/-! ### The calls of `Emit` -/

variable {i : ℕ}

lemma mem_set_or {α : Type*} {xs : List α} {x y z} (hx : x ∈ xs) (hz : xs[i]? = some z) : x = z ∨ x ∈ xs.set i y := by
  obtain ⟨j, hj, rfl⟩ := mem_iff_getElem.mp hx
  by_cases hij : i = j
  · subst hij
    exact .inl (by simpa [hj] using hz)
  · refine .inr (mem_iff_getElem.mpr ⟨j, by simpa using hj, ?_⟩)
    exact getElem_set_ne hij _

variable (s : State B) (i : ℕ) (call : Call) in
inductive CallStep : State B → Prop
  | write (rest : List B) (size : ℕ) (h : s.emits[i]? = some (call, .writing rest)) (gone : call.temp ∉ s.inbox.names) :
      CallStep {s with emits := s.emits.set i (call, .writing (rest.drop size))}
  | grow (rest bytes : List B) (size : ℕ) (h : s.emits[i]? = some (call, .writing rest))
      (file : (call.temp, bytes) ∈ s.inbox.entries) : CallStep {s with
        emits := s.emits.set i (call, .writing (rest.drop size)), inbox := s.inbox.put call.temp (bytes++rest.take size)}
  | fail (h : s.emits[i]? = some (call, .writing [])) (gone : call.temp ∉ s.inbox.names) :
      CallStep {s with emits := s.emits.set i (call, .failed)}
  | rename (bytes : List B) (h : s.emits[i]? = some (call, .writing [])) (file : (call.temp, bytes) ∈ s.inbox.entries) :
      CallStep {s with emits := s.emits.set i (call, .ok), inbox := (s.inbox.remove call.temp).put call.name bytes}

lemma callStep_writeTemp {size : ℕ} (h : s.writeTemp i size = some t) : ∃ call, CallStep s i call t := by
  unfold writeTemp at h
  split at h
  · rename_i call rest hcall
    refine ⟨call, ?_⟩
    dsimp only at h
    split at h
    · rename_i hnone
      cases h
      exact .write rest size hcall (get?_eq_none.mp hnone)
    rename_i bytes hfile
    cases h
    exact .grow rest bytes size hcall (get?_eq_some.mp hfile)
  · cases h

lemma callStep_rename (h : s.rename i = some t) : ∃ call, CallStep s i call t := by
  unfold rename at h
  split at h
  · rename_i call hcall
    refine ⟨call, ?_⟩
    split at h
    · rename_i hnone
      cases h
      exact .fail hcall (get?_eq_none.mp hnone)
    rename_i bytes hfile
    cases h
    exact .rename bytes hcall (get?_eq_some.mp hfile)
  · cases h

variable (codec : Codec B) (s : State B) in
inductive FailStep : State B → Prop
  | give {hour : ℤ} {rest : Text B} {group items : List (Pending B)} {later : List (ℤ × List (Pending B))}
      (pc : s.collector = .append hour rest group later)
      (seen : ∀ p ∈ items, p ∈ group ∧ p.event.id ∈ s.reloaded codec hour) :
      FailStep {s with seenIDs := s.reloaded codec hour, collector := .remove items []}

lemma failStep (h : s.failAppend codec = some t) : FailStep codec s t := by
  unfold failAppend at h
  split at h
  · rename_i hpc
    cases h
    refine .give hpc fun p hp => ?_
    split_ifs at hp
    · cases hp
    · simpa using hp
  · cases h

lemma step_cases (h : State.step codec batchSize s l = some t) :
    (∃ event name temp, l = .emit event name temp ∧ name ∉ s.names ∧ temp ∉ s.names ∧ name ≠ temp ∧ t = {s with
        inbox := s.inbox.put temp []
        emits := s.emits++[(⟨event, name, temp⟩, .writing (codec.encode event))]}) ∨
    (∃ i call, CallStep s i call t) ∨
    (∃ size, l = .collect size ∧ t = s.collect codec batchSize size) ∨
    (l = .crash ∧ t = {s with collector := .idle, seenIDs := loadSeenIDs codec s.logs}) ∨
    (l = .fail ∧ FailStep codec s t) ∨
    (l = .read ∧ t = s.read codec) := by
  cases l with
  | emit event name temp =>
    obtain ⟨hfresh, rfl⟩ := of_guarded h
    exact .inl ⟨event, name, temp, rfl, hfresh.1, hfresh.2.1, hfresh.2.2, rfl⟩
  | writeTemp i size => exact .inr (.inl ⟨i, callStep_writeTemp h⟩)
  | rename i => exact .inr (.inl ⟨i, callStep_rename h⟩)
  | collect size =>
    cases h
    exact .inr (.inr (.inl ⟨size, rfl, rfl⟩))
  | crash =>
    cases h
    exact .inr (.inr (.inr (.inl ⟨rfl, rfl⟩)))
  | fail => exact .inr (.inr (.inr (.inr (.inl ⟨rfl, failStep h⟩))))
  | read =>
    cases h
    exact .inr (.inr (.inr (.inr (.inr ⟨rfl, rfl⟩))))

variable {call : Call}

lemma CallStep.at_index (h : CallStep s i call t) :
    ∃ rest pc, s.emits[i]? = some (call, .writing rest) ∧ t.emits = s.emits.set i (call, pc) := by
  cases h with
  | write rest size h gone | grow rest bytes size h file => exact ⟨rest, _, h, rfl⟩
  | fail h gone | rename bytes h file => exact ⟨[], _, h, rfl⟩

lemma CallStep.frame (h : CallStep s i call t) :
    t.logs = s.logs ∧ t.collector = s.collector ∧ t.seenIDs = s.seenIDs ∧ t.quarantined = s.quarantined := by
  cases h <;> exact ⟨rfl, rfl, rfl, rfl⟩

lemma CallStep.calls_eq (h : CallStep s i call t) : t.calls = s.calls := by
  obtain ⟨rest, pc, hget, hset⟩ := h.at_index
  rw [calls, calls, hset]
  exact map_set_of_eq hget rfl

lemma names_eq : s.names = s.calls.flatMap fun call => [call.name, call.temp] := by simp [names, calls, flatMap_map]

lemma ids_eq : (s.emits.map fun x => x.1.event.id) = s.calls.map fun call => call.event.id := by simp [calls]

lemma CallStep.mem_emits (h : CallStep s i call t) {x} (hx : x ∈ s.emits) :
    (∃ rest, x = (call, .writing rest)) ∨ x ∈ t.emits := by
  obtain ⟨rest, pc, hget, hset⟩ := h.at_index
  rcases mem_set_or (y := (call, pc)) hx hget with rfl | hmem
  · exact .inl ⟨rest, rfl⟩
  · exact .inr (hset ▸ hmem)

namespace Files
variable {x y : Call × EmitPc B} (h : Files codec s)
include h

lemma eq_of_name (hx : x ∈ s.emits) (hy : y ∈ s.emits) {name}
    (hxn : name = x.1.name ∨ name = x.1.temp) (hyn : name = y.1.name ∨ name = y.1.temp) : x = y := by
  by_contra hne
  have hpair := (nodup_flatMap.mp h.names).2
  have : Std.Symm (Function.onFun List.Disjoint fun x : Call × EmitPc B => [x.1.name, x.1.temp]) :=
    ⟨fun _ _ hab => List.Disjoint.symm hab⟩
  exact hpair.forall hx hy hne (by simpa using hxn) (by simpa using hyn)

lemma name_ne_temp (hx : x ∈ s.emits) (hy : y ∈ s.emits) : x.1.name ≠ y.1.temp := by
  intro heq
  obtain rfl := h.eq_of_name hx hy (.inl rfl) (.inr heq)
  have hnodup := (nodup_flatMap.mp h.names).1 x hx
  simp [heq] at hnodup

lemma call_eq_of_id {c d : Call} (hc : c ∈ s.calls) (hd : d ∈ s.calls) (hid : c.event.id = d.event.id) : c = d := by
  have hids := h.ids
  rw [ids_eq] at hids
  exact inj_on_of_nodup_map hids hc hd hid

lemma mem_names {name} (hname : name ∈ s.inbox.names) : name ∈ s.names := by
  obtain ⟨file, hfile, rfl⟩ := mem_map.mp hname
  obtain ⟨x, hx, hown⟩ := h.owned file hfile
  refine mem_flatMap.mpr ⟨x, hx, ?_⟩
  rcases hown with ⟨_, -, hn, -⟩ | ⟨-, hn, -⟩ <;> simp [hn]

lemma shrink (hemits : t.emits = s.emits) (hinbox : t.inbox.entries ⊆ s.inbox.entries) : Files codec t where
  ids := hemits ▸ h.ids
  names := by
    rw [State.names, hemits]
    exact h.names
  owned file hfile := hemits ▸ h.owned file (hinbox hfile)

lemma emit {event : Event} {name temp} (hid : event.id ∉ s.emits.map fun x => x.1.event.id)
    (hname : name ∉ s.names) (htemp : temp ∉ s.names) (hne : name ≠ temp) (hinbox : t.inbox = s.inbox.put temp [])
    (hemits : t.emits = s.emits++[(⟨event, name, temp⟩, .writing (codec.encode event))]) : Files codec t where
  ids := by
    rw [hemits, map_append]
    refine nodup_append.mpr ⟨h.ids, nodup_singleton _, ?_⟩
    rintro id hmem _ hnew rfl
    have heq : id = event.id := mem_singleton.mp hnew
    exact hid (heq ▸ hmem)
  names := by
    rw [State.names, hemits, flatMap_append]
    refine nodup_append.mpr ⟨h.names, by simpa using hne, ?_⟩
    rintro x hx _ hy rfl
    rcases (by simpa using hy : x = name ∨ x = temp) with rfl | rfl
    · exact hname hx
    · exact htemp hx
  owned file hfile := by
    rw [hinbox, mem_put] at hfile
    rw [hemits]
    rcases hfile with rfl | ⟨hfile, -⟩
    · exact ⟨_, mem_append_right _ (mem_singleton.mpr rfl), .inl ⟨_, rfl, rfl, rfl⟩⟩
    · obtain ⟨x, hx, hown⟩ := h.owned file hfile
      exact ⟨x, mem_append_left _ hx, hown⟩

lemma owned_other {i} {call : Call} (hstep : CallStep s i call t) {file : String × List B}
    (hfile : file ∈ s.inbox.entries) (hne : file.1 ≠ call.temp) : ∃ x ∈ t.emits, Owns codec file x := by
  obtain ⟨x, hx, hown⟩ := h.owned file hfile
  rcases hstep.mem_emits hx with ⟨rest, rfl⟩ | hmem
  · rcases hown with ⟨_, -, hname, -⟩ | ⟨hpc, -⟩
    · exact absurd hname hne
    · cases hpc
  · exact ⟨x, hmem, hown⟩

lemma temp_content {i : ℕ} {call : Call} {rest bytes}
    (hget : s.emits[i]? = some (call, .writing rest)) (hfile : (call.temp, bytes) ∈ s.inbox.entries) :
    bytes++rest = codec.encode call.event := by
  have hmem := mem_of_getElem? hget
  obtain ⟨x, hx, hown⟩ := h.owned _ hfile
  rcases hown with ⟨rest', hpc, hname, hbytes⟩ | ⟨hpc, hname, -⟩
  · obtain rfl := h.eq_of_name hmem hx (.inr rfl) (.inr hname)
    cases hpc
    exact hbytes
  · exact absurd hname.symm (h.name_ne_temp hx hmem)

lemma callStep {i call} (hstep : CallStep s i call t) : Files codec t where
  ids := by
    rw [ids_eq, hstep.calls_eq, ← ids_eq]
    exact h.ids
  names := by
    rw [names_eq, hstep.calls_eq, ← names_eq]
    exact h.names
  owned file hfile := by
    have hother : ∀ {f}, f ∈ s.inbox.entries → f.1 ≠ call.temp → ∃ x ∈ t.emits, Owns codec f x :=
      fun hf hne => h.owned_other hstep hf hne
    cases hstep with
    | write rest size hget gone | fail hget gone => exact hother hfile fun heq => gone (heq ▸ mem_names_of_mem hfile)
    | grow rest bytes size hget htemp =>
      rcases mem_put.mp hfile with rfl | ⟨hfile, hne⟩
      · have hlt := lt_of_getElem? hget
        refine ⟨_, mem_set hlt _, .inl ⟨_, rfl, rfl, ?_⟩⟩
        rw [append_assoc, take_append_drop]
        exact h.temp_content hget htemp
      · exact hother hfile hne
    | rename bytes hget htemp =>
      rcases mem_put.mp hfile with rfl | ⟨hfile, -⟩
      · have hlt := lt_of_getElem? hget
        refine ⟨_, mem_set hlt _, .inr ⟨rfl, rfl, ?_⟩⟩
        simpa using h.temp_content hget htemp
      · obtain ⟨hfile, hne⟩ := mem_remove.mp hfile
        exact hother hfile hne

end Files

/-! ### The collector -/

lemma log_put {hour h : ℤ} {text} (hlogs : t.logs = s.logs.put hour text) :
    t.log h = if h = hour then text else s.log h := by
  rw [log, log, hlogs, get?_put]
  split_ifs <;> rfl

lemma log_of_sorted {log} (h : log ∈ s.logs.sorted) : s.log log.1 = log.2 := by
  rw [State.log, get?_eq_some.mpr (mem_sorted.mp h)]
  rfl

lemma whole_log (h : s.Whole) (hour : ℤ) : ByteLines.Whole (s.log hour) := by
  rw [log]
  cases hget : s.logs.get? hour with
  | none => rfl
  | some text => exact h _ (get?_eq_some.mp hget)

lemma Took.mono (hcalls : s.calls ⊆ t.calls) {p} (h : s.Took codec p) : t.Took codec p := by
  obtain ⟨call, hcall, hrest⟩ := h
  exact ⟨call, hcalls hcall, hrest⟩

variable {pending : List (Pending B)}

lemma mem_groupByHour {hour : ℤ} {group}
    (h : (hour, group) ∈ groupByHour pending) : group = pending.filter fun p => p.event.hour = hour := by
  simp only [groupByHour, mem_map] at h
  obtain ⟨hour', -, heq⟩ := h
  cases heq
  rfl

lemma mem_flatMap_groupByHour {p} : p ∈ (groupByHour pending).flatMap Prod.snd ↔ p ∈ pending := by
  rw [mem_flatMap]
  constructor
  · rintro ⟨⟨hour, group⟩, hgroup, hp⟩
    rw [mem_groupByHour hgroup] at hp
    exact (mem_filter.mp hp).1
  intro hp
  refine ⟨(p.event.hour, pending.filter fun q => q.event.hour = p.event.hour), ?_, ?_⟩
  · refine mem_map.mpr ⟨p.event.hour, ?_, rfl⟩
    simp only [SortedMerge.mem_sortBy, mem_dedup, mem_map]
    exact ⟨p, hp, rfl⟩
  · simpa using hp

lemma lines_groupText (group : List (Pending B)) :
    ByteLines.Whole (groupText group) ∧ lines (groupText group) = group.map fun p => p.raw :=
  lines_flatMap group fun p => p.raw

namespace Logs

lemma frame (h : Logs codec s) (hcalls : s.calls ⊆ t.calls) (hlogs : t.logs = s.logs) (hseen : t.seenIDs = s.seenIDs)
    (hunwritten : ∀ hour, t.collector.unwritten hour = s.collector.unwritten hour)
    (hwaiting : t.collector.waiting ⊆ s.collector.waiting)
    (hopened : t.collector.opened ⊆ s.collector.opened)
    (hhours : ∀ group ∈ t.collector.grouped, ∀ p ∈ group.2, p.event.hour = group.1) : Logs codec t := by
  have hlog : t.log = s.log := by
    funext hour
    rw [log, log, hlogs]
  have hfull : t.full = s.full := by
    funext hour
    rw [full, full, hlog, hunwritten]
  refine ⟨?_, ?_, ?_, hhours, ?_, ?_⟩
  · rw [hfull]
    exact h.whole
  · intro hour bytes hbytes
    rw [hfull] at hbytes
    obtain ⟨call, hcall, hrest⟩ := h.emitted hour bytes hbytes
    exact ⟨call, hcalls hcall, hrest⟩
  · intro p hp
    refine (h.took p ?_).mono hcalls
    rcases mem_append.mp hp with hp | hp
    · exact mem_append_left _ (hwaiting hp)
    · exact mem_append_right _ (hopened hp)
  · intro p hp
    rw [hfull]
    exact h.placed p (hopened hp)
  · intro id hid
    obtain ⟨call, hcall, hrest⟩ := h.seen id (hseen ▸ hid)
    exact ⟨call, hcalls hcall, hlog ▸ hrest⟩

variable {later : List (ℤ × List (Pending B))} (h : Logs codec s)
include h
variable {hour : ℤ} {group : List (Pending B)}

lemma lines_openLog
    (hpc : s.collector = .groups ((hour, group)::later)) (h' : ℤ) : lines (State.full {s with
        logs := s.logs.put hour (s.log hour), collector := .append hour (groupText group) group later} h') =
      lines (s.full h')++if h' = hour then group.map (·.raw) else [] := by
  have hfull : s.full h' = s.log h' := by simp [full, hpc]
  have hwhole : ByteLines.Whole (s.log h') := hfull ▸ h.whole h'
  rw [full, log_put (s := s) rfl, hfull]
  simp only [unwritten]
  split_ifs with heq
  · subst heq
    rw [lines_append hwhole, (lines_groupText group).2]
  · simp

lemma openLog (hpc : s.collector = .groups ((hour, group)::later)) :
    Logs codec {s with logs := s.logs.put hour (s.log hour), collector := .append hour (groupText group) group later} := by
  have hlines := h.lines_openLog hpc
  have hhours := h.hours
  have htook := h.took
  simp only [hpc, grouped, forall_mem_cons] at hhours
  simp only [hpc, waiting, opened, append_nil, flatMap_cons] at htook
  have hfull : ∀ h', s.full h' = s.log h' := by
    intro h'
    simp [full, hpc]
  set u : State B := {s with logs := s.logs.put hour (s.log hour), collector := .append hour (groupText group) group later}
  have hlog : ∀ h', u.log h' = s.log h' := by
    intro h'
    rw [log_put (s := s) rfl]
    split_ifs with heq
    · rw [heq]
    · rfl
  refine ⟨?_, ?_, ?_, forall_mem_cons.mpr hhours, ?_, ?_⟩
  · intro h'
    rw [full, hlog, ← hfull]
    refine whole_append (h.whole h') ?_
    simp only [u, unwritten]
    split_ifs
    · exact (lines_groupText group).1
    · rfl
  · intro h' bytes hbytes
    rw [hlines, mem_append] at hbytes
    rcases hbytes with hbytes | hbytes
    · exact h.emitted h' bytes hbytes
    split_ifs at hbytes with heq
    · obtain ⟨p, hp, rfl⟩ := mem_map.mp hbytes
      obtain ⟨call, hcall, hevent, hraw, -⟩ := htook p (mem_append_left _ hp)
      exact ⟨call, hcall, hraw, by rw [← hevent, hhours.1 p hp, heq]⟩
    · cases hbytes
  · intro p hp
    apply htook
    rcases mem_append.mp hp with hp | hp
    · exact mem_append_right _ hp
    · exact mem_append_left _ hp
  · intro p hp
    rw [hlines, if_pos (hhours.1 p hp)]
    exact mem_append_right _ (mem_map_of_mem hp)
  · intro id hid
    obtain ⟨call, hcall, hid, hline⟩ := h.seen id hid
    exact ⟨call, hcall, hid, (hlog _).symm ▸ hline⟩

lemma write {rest} (hpc : s.collector = .append hour rest group later) (size : ℕ) : Logs codec {s with
      logs := s.logs.put hour (s.log hour++rest.take size), collector := .append hour (rest.drop size) group later} := by
  obtain ⟨hwhole, hemitted, htook, hhours, hplaced, hseen⟩ := h
  simp only [hpc, grouped] at hhours
  simp only [hpc, waiting, opened] at htook hplaced
  set u : State B := {s with
      logs := s.logs.put hour (s.log hour++rest.take size), collector := .append hour (rest.drop size) group later}
  have hlog : ∀ h', u.log h' = if h' = hour then s.log hour++rest.take size else s.log h' := fun h' => log_put rfl
  have hfull : u.full = s.full := by
    funext h'
    rw [full, full, hlog, hpc]
    simp only [u, unwritten]
    split_ifs with heq
    · rw [append_assoc, take_append_drop, heq]
    · rfl
  refine ⟨hfull ▸ hwhole, hfull ▸ hemitted, htook, hhours, hfull ▸ hplaced, ?_⟩
  intro id hid
  obtain ⟨call, hcall, hid, hline⟩ := hseen id hid
  refine ⟨call, hcall, hid, ?_⟩
  rw [hlog]
  split_ifs with heq
  · exact lines_subset_append _ _ (heq ▸ hline)
  · exact hline

lemma sync (hpc : s.collector = .append hour [] group later) :
    Logs codec {s with seenIDs := group.map (·.event.id)++s.seenIDs, collector := .remove group later} := by
  obtain ⟨hwhole, hemitted, htook, hhours, hplaced, hseen⟩ := h
  simp only [hpc, grouped, forall_mem_cons] at hhours
  simp only [hpc, waiting, opened] at htook hplaced
  have hfull : ∀ h', s.full h' = s.log h' := by
    intro h'
    simp [full, hpc]
  set u : State B := {s with seenIDs := group.map (·.event.id)++s.seenIDs, collector := .remove group later}
  have hfull' : u.full = s.full := by
    funext h'
    rw [hfull]
    exact append_nil _
  refine ⟨hfull' ▸ hwhole, hfull' ▸ hemitted, htook, hhours.2, hfull' ▸ hplaced, ?_⟩
  intro id hid
  rcases mem_append.mp hid with hid | hid
  · obtain ⟨p, hp, rfl⟩ := mem_map.mp hid
    obtain ⟨call, hcall, hevent, hraw, -⟩ := htook p (mem_append_right _ hp)
    refine ⟨call, hcall, by rw [hevent], ?_⟩
    have hline := hplaced p hp
    rwa [hfull, hraw, hevent] at hline
  · exact hseen id hid

/-- The collector gives up its round while no line is unfinished. -/
lemma giveUp (hwhole : s.Whole) (items : List (Pending B)) {ids : List String}
    (hitems : ∀ p ∈ items, s.Took codec p ∧ p.raw ∈ lines (s.log p.event.hour))
    (hids : ∀ id ∈ ids, ∃ call ∈ s.calls, call.event.id = id ∧ codec.encode call.event ∈ lines (s.log call.event.hour)) :
    Logs codec {s with collector := .remove items [], seenIDs := ids} := by
  set u : State B := {s with collector := .remove items [], seenIDs := ids}
  have hfull : u.full = s.log := funext fun _ => append_nil _
  refine ⟨hfull ▸ whole_log hwhole, ?_, fun p hp => (hitems p (by simpa [u] using hp)).1, by simp [u],
    hfull ▸ fun p hp => (hitems p hp).2, hids⟩
  rw [hfull]
  exact fun hour bytes hbytes => h.emitted hour bytes (lines_subset_append _ _ hbytes)

lemma seen_of_token (hwhole : s.Whole) {bytes event} (hbytes : bytes ∈ tokens (s.log hour))
    (hdecode : codec.decode bytes = some event) :
    ∃ call ∈ s.calls, call.event.id = event.id ∧ codec.encode call.event ∈ lines (s.log call.event.hour) := by
  rw [tokens_of_whole (whole_log hwhole hour)] at hbytes
  obtain ⟨call, hcall, rfl, hhour⟩ := h.emitted hour bytes (lines_subset_append _ _ hbytes)
  rw [codec.decode_encode] at hdecode
  cases hdecode
  exact ⟨call, hcall, rfl, by rwa [hhour]⟩

lemma crash (hwhole : s.Whole) : Logs codec {s with collector := .idle, seenIDs := loadSeenIDs codec s.logs} := by
  refine {h.giveUp hwhole [] (by simp) fun id hid => ?_ with}
  obtain ⟨log, hsorted, bytes, hbytes, event, hdecode, rfl⟩ := mem_of_mem_seenIn hid
  exact h.seen_of_token hwhole (log_of_sorted hsorted ▸ hbytes) hdecode

lemma decodeLines_log (hwhole : s.Whole) (hour : ℤ) :
    decodeLines codec (s.log hour) = (lines (s.log hour)).filterMap codec.decode := by
  have htokens := tokens_of_whole (whole_log hwhole hour)
  rw [← htokens]
  refine (scans fun bytes hbytes => ?_).2
  rw [htokens] at hbytes
  obtain ⟨call, -, heq, -⟩ := h.emitted hour bytes (lines_subset_append _ _ hbytes)
  exact ⟨call.event, heq⟩

lemma fail (hfiles : Files codec s) (hwhole : s.Whole) (hfail : FailStep codec s t) : Logs codec t := by
  cases hfail with
  | @give hour rest group items later hpc hitems =>
    have hseen : ∀ id ∈ s.reloaded codec hour, ∃ call ∈ s.calls,
        call.event.id = id ∧ codec.encode call.event ∈ lines (s.log call.event.hour) := by
      intro id hid
      rcases mem_append.mp hid with hid | hid
      · obtain ⟨event, hevent, rfl⟩ := mem_map.mp hid
        obtain ⟨bytes, hbytes, hdecode⟩ := mem_filterMap.mp hevent
        exact h.seen_of_token hwhole ((takeWhile_sublist _).subset hbytes) hdecode
      · exact h.seen id hid
    refine h.giveUp hwhole items (fun p hp => ?_) hseen
    obtain ⟨hgroup, hid⟩ := hitems p hp
    have htook := h.took p (mem_append_right _ (by simpa [hpc] using hgroup))
    refine ⟨htook, ?_⟩
    -- no other event has the ID that was found in the log
    obtain ⟨call, hcall, hevent, hraw, -⟩ := htook
    obtain ⟨call', hcall', hid, hline⟩ := hseen _ hid
    obtain rfl := inj_on_of_nodup_map (ids_eq ▸ hfiles.ids) hcall' hcall (by rw [hid, hevent])
    rwa [hevent, hraw]

end Logs

lemma Files.took (h : Files codec s) {name raw event}
    (hfile : s.inbox.get? name = some raw) (hdecode : codec.decode raw = some event) :
    s.Took codec ⟨name, raw, event⟩ := by
  obtain ⟨x, hx, hown⟩ := h.owned _ (get?_eq_some.mp hfile)
  have hraw : raw = codec.encode x.1.event := by
    rcases hown with ⟨rest, -, -, hbytes⟩ | ⟨-, -, hbytes⟩
    · by_cases hrest : rest = []
      · simpa [hrest] using hbytes
      · rw [codec.decode_cut _ _ _ hbytes hrest] at hdecode
        cases hdecode
    · exact hbytes
  rw [hraw, codec.decode_encode] at hdecode
  cases hdecode
  refine ⟨x.1, mem_map_of_mem hx, rfl, hraw, ?_⟩
  rcases hown with ⟨rest, -, hname, -⟩ | ⟨-, hname, -⟩
  · exact .inr hname
  · exact .inl hname

variable (codec : Codec B) (batchSize : ℕ) (s : State B) in
inductive CollectStep : State B → Prop
  | list (h : s.collector = .idle) :
      CollectStep {s with collector := .scan ((s.inbox.sorted.map Prod.fst).take batchSize) []}
  | group (pending : List (Pending B)) (h : s.collector = .scan [] pending) :
      CollectStep {s with collector := .groups (groupByHour pending)}
  | unreadable (name : String) (todo : List String) (pending : List (Pending B))
      (h : s.collector = .scan (name::todo) pending) (file : (s.inbox.get? name).bind codec.decode = none) :
      CollectStep {s with collector := .quarantine name todo pending}
  | known (name : String) (todo : List String) (pending : List (Pending B)) (raw : List B) (event : Event)
      (h : s.collector = .scan (name::todo) pending) (file : s.inbox.get? name = some raw)
      (decoded : codec.decode raw = some event)
      (known : event.id ∈ s.seenIDs ∨ event.id ∈ pending.map fun p => p.event.id) :
      CollectStep {s with collector := .discard name todo pending}
  | queue (name : String) (todo : List String) (pending : List (Pending B)) (raw : List B) (event : Event)
      (h : s.collector = .scan (name::todo) pending) (file : s.inbox.get? name = some raw)
      (decoded : codec.decode raw = some event) (unseen : event.id ∉ s.seenIDs)
      (unqueued : event.id ∉ pending.map fun p => p.event.id) :
      CollectStep {s with collector := .scan todo (pending++[⟨name, raw, event⟩])}
  | quarantine (name : String) (todo : List String) (pending : List (Pending B))
      (h : s.collector = .quarantine name todo pending) :
      CollectStep {s.moveToQuarantine name with collector := .scan todo pending}
  | discard (name : String) (todo : List String) (pending : List (Pending B))
      (h : s.collector = .discard name todo pending) :
      CollectStep {s with inbox := s.inbox.remove name, collector := .scan todo pending}
  | finish (h : s.collector = .groups []) : CollectStep {s with collector := .idle}
  | openLog (hour : ℤ) (group : List (Pending B)) (later : List (ℤ × List (Pending B)))
      (h : s.collector = .groups ((hour, group)::later)) : CollectStep {s with
        logs := s.logs.put hour (s.log hour), collector := .append hour (groupText group) group later}
  | sync (hour : ℤ) (group : List (Pending B)) (later : List (ℤ × List (Pending B)))
      (h : s.collector = .append hour [] group later) : CollectStep {s with
        seenIDs := group.map (·.event.id)++s.seenIDs, collector := .remove group later}
  | write (hour : ℤ) (rest : Text B) (group : List (Pending B)) (later : List (ℤ × List (Pending B))) (size : ℕ)
      (h : s.collector = .append hour rest group later) (unwritten : rest ≠ []) : CollectStep {s with
        logs := s.logs.put hour (s.log hour++rest.take size), collector := .append hour (rest.drop size) group later}
  | removed (later : List (ℤ × List (Pending B))) (h : s.collector = .remove [] later) :
      CollectStep {s with collector := .groups later}
  | remove (p : Pending B) (items : List (Pending B)) (later : List (ℤ × List (Pending B)))
      (h : s.collector = .remove (p::items) later) (seen : p.event.id ∈ s.seenIDs) :
      CollectStep {s with inbox := s.inbox.remove p.path, collector := .remove items later}
  | keep (p : Pending B) (items : List (Pending B)) (later : List (ℤ × List (Pending B)))
      (h : s.collector = .remove (p::items) later) (unseen : p.event.id ∉ s.seenIDs) :
      CollectStep {s with collector := .remove items later}

lemma collectStep (codec : Codec B) (batchSize : ℕ) (s : State B) (size : ℕ) :
    CollectStep codec batchSize s (s.collect codec batchSize size) := by
  unfold collect
  split
  · exact .list ‹_›
  · exact .group _ ‹_›
  · rename_i name todo pending hpc
    split
    · exact .unreadable name todo pending hpc (by simp_all)
    rename_i raw hfile
    split
    · exact .unreadable name todo pending hpc (by simp_all)
    rename_i event hdecode
    split_ifs with hseen hqueued
    · exact .known name todo pending raw event hpc hfile hdecode (.inl hseen)
    · exact .known name todo pending raw event hpc hfile hdecode (.inr hqueued)
    · exact .queue name todo pending raw event hpc hfile hdecode hseen hqueued
  · exact .quarantine _ _ _ ‹_›
  · exact .discard _ _ _ ‹_›
  · exact .finish ‹_›
  · exact .openLog _ _ _ ‹_›
  · exact .sync _ _ _ ‹_›
  · rename_i hour rest group later hne hpc
    exact .write hour rest group later size hpc hne
  · exact .removed _ ‹_›
  · rename_i p items later hpc
    split_ifs with hseen
    · exact .remove p items later hpc hseen
    · exact .keep p items later hpc hseen

variable (name : String)

lemma moveToQuarantine_inbox : (s.moveToQuarantine name).inbox.entries ⊆ s.inbox.entries := by
  unfold moveToQuarantine
  split_ifs
  · exact filter_subset_self _
  · exact fun _ h => h

lemma moveToQuarantine_frame : (s.moveToQuarantine name).emits = s.emits ∧ (s.moveToQuarantine name).logs = s.logs ∧
      (s.moveToQuarantine name).seenIDs = s.seenIDs ∧ (s.moveToQuarantine name).collector = s.collector := by
  unfold moveToQuarantine
  split_ifs <;> exact ⟨rfl, rfl, rfl, rfl⟩

lemma CollectStep.frame (h : CollectStep codec batchSize s t) :
    t.emits = s.emits ∧ t.inbox.entries ⊆ s.inbox.entries := by
  cases h with
  | quarantine name todo pending h =>
    exact ⟨(moveToQuarantine_frame name).1, moveToQuarantine_inbox name⟩
  | discard | remove => exact ⟨rfl, filter_subset_self _⟩
  | _ => exact ⟨rfl, fun _ h => h⟩

lemma calls_subset (h : t.emits = s.emits) : s.calls ⊆ t.calls := by simp [calls, h]

lemma Logs.collectStep (h : Logs codec s) (hfiles : Files codec s) (hstep : CollectStep codec batchSize s t) :
    Logs codec t := by
  cases hstep with
  | list hpc | finish hpc => exact h.frame (fun _ h => h) rfl rfl (by simp [hpc]) (by simp) (by simp) (by simp)
  | group pending hpc =>
    refine h.frame (fun _ h => h) rfl rfl (by simp [hpc]) ?_ (by simp) ?_
    · intro p hp
      rw [hpc]
      exact mem_flatMap_groupByHour.mp hp
    rintro ⟨hour, group⟩ hgroup p hp
    change p ∈ group at hp
    rw [mem_groupByHour hgroup] at hp
    simpa using (mem_filter.mp hp).2
  | unreadable _ _ _ hpc | known _ _ _ _ _ hpc | discard _ _ _ hpc =>
    exact h.frame (fun _ h => h) rfl rfl (by simp [hpc]) (by simp [hpc]) (by simp) (by simp)
  | quarantine name todo pending hpc =>
    have hframe := moveToQuarantine_frame (s := s) name
    exact h.frame (calls_subset hframe.1) hframe.2.1 hframe.2.2.1 (by simp [hpc])
      (by simp [hpc]) (by simp) (by simp)
  | removed _ hpc | remove _ _ _ hpc | keep _ _ _ hpc =>
    have hhours := h.hours
    simp only [hpc, grouped] at hhours
    exact h.frame (fun _ h => h) rfl rfl (by simp [hpc]) (by simp [hpc]) (by simp [hpc]) hhours
  | queue name todo pending raw event hpc file decoded unseen unqueued =>
    have hnew := hfiles.took file decoded
    have hold : Logs codec {s with collector := .scan todo pending} :=
      h.frame (fun _ h => h) rfl rfl (by simp [hpc]) (by simp [hpc]) (by simp) (by simp)
    refine {hold with took := ?_}
    intro p hp
    simp only [waiting, opened, append_nil, mem_append, mem_singleton] at hp
    rcases hp with hp | rfl
    · exact hold.took p (mem_append_left _ hp)
    · exact hnew
  | openLog hour group later hpc => exact h.openLog hpc
  | sync hour group later hpc => exact h.sync hpc
  | write hour rest group later size hpc unwritten => exact h.write hpc size

lemma read_frame (codec : Codec B) (s : State B) : (s.read codec).emits = s.emits ∧ (s.read codec).logs = s.logs ∧
    (s.read codec).collector = s.collector ∧ (s.read codec).seenIDs = s.seenIDs ∧
    (s.read codec).inbox.entries ⊆ s.inbox.entries := by
  unfold read
  split
  case h_5 name _ _ _ _ =>
    split_ifs
    · obtain ⟨hemits, hlogs, hseen, hcollector⟩ := moveToQuarantine_frame (s := s) name
      exact ⟨hemits, hlogs, hcollector, hseen, moveToQuarantine_inbox name⟩
    · exact ⟨rfl, rfl, rfl, rfl, fun _ h => h⟩
  all_goals
    repeat' split
    all_goals exact ⟨rfl, rfl, rfl, rfl, fun _ h => h⟩

structure Inv (codec : Codec B) (s : State B) : Prop extends Files codec s, Logs codec s

lemma inv_init : Inv codec (State.init : State B) where
  ids := nodup_nil
  names := nodup_nil
  owned := by simp [init, empty]
  whole _ := rfl
  emitted hour bytes hbytes := by simp [full, log, init, empty, get?] at hbytes
  took := by simp [init]
  hours := by simp [init]
  placed := by simp [init]
  seen := by simp [init]

lemma Inv.step (h : Inv codec s) (hl : s.Orderly l) (hstep : State.step codec batchSize s l = some t) :
    Inv codec t := by
  rcases step_cases hstep with ⟨event, name, temp, rfl, hname, htemp, hne, rfl⟩ | ⟨i, call, hcall⟩ |
    ⟨size, rfl, rfl⟩ | ⟨rfl, rfl⟩ | ⟨rfl, hfail⟩ | ⟨rfl, rfl⟩
  · exact ⟨h.toFiles.emit hl.1 hname htemp hne rfl rfl,
      h.toLogs.frame (by simp [calls]) rfl rfl (fun _ => rfl) (fun _ h => h) (fun _ h => h) h.hours⟩
  · obtain ⟨hlogs, hpc, hseen, -⟩ := hcall.frame
    exact ⟨h.toFiles.callStep hcall, h.toLogs.frame (by simp [hcall.calls_eq]) hlogs hseen (by simp [hpc]) (by simp [hpc])
      (by simp [hpc]) (hpc ▸ h.hours)⟩
  · have hcollect := collectStep codec batchSize s size
    exact ⟨h.toFiles.shrink hcollect.frame.1 hcollect.frame.2, h.toLogs.collectStep h.toFiles hcollect⟩
  · exact ⟨h.toFiles.shrink rfl fun _ h => h, h.toLogs.crash hl.2⟩
  · refine ⟨?_, h.toLogs.fail h.toFiles hl.2 hfail⟩
    cases hfail
    exact h.toFiles.shrink rfl fun _ h => h
  · obtain ⟨hemits, hlogs, hpc, hseen, hinbox⟩ := read_frame codec s
    exact ⟨h.toFiles.shrink hemits hinbox, h.toLogs.frame (calls_subset hemits) hlogs hseen (by simp [hpc])
      (by simp [hpc]) (by simp [hpc]) (hpc ▸ h.hours)⟩

end State
end Ayatsuri.EventStore
