import Ayatsuri.CoreStatus
import Ayatsuri.Directory
import Ayatsuri.LineLog
import Ayatsuri.TransitionSystem

/-! The index of the runs of a day (`internal/persis/filedagrun/dagrunindex/dagrunindex.go`): a rebuild reads
the status file of each run's newest attempt, takes the sizes and modification times afterwards and writes
them into the index together with what it read; a listing goes by the index as long as they are the same. -/
namespace Ayatsuri.DayIndex
open TransitionSystem LineLog

inductive TriggerType
  | unknown | scheduler | manual | webhook | subDAG | retry | catchUp | automata
  deriving DecidableEq

/-- What `resolveStatus` copies from a summary. Start and end are in Unix seconds, 0 if they are not set, and
the backoff is the bits of a `float64`. -/
structure RunStatus where
  (parentName parentID name dagRunID attemptID : String)
  status : Status
  tags : List String
  (startedAt finishedAt : ℤ)
  workerID : String
  leaseAt : ℤ
  (params queuedAt scheduleTime : String)
  triggerType : TriggerType
  (createdAt autoRetryCount autoRetryLimit autoRetryInterval : ℤ)
  autoRetryBackoff : UInt64
  autoRetryMaxInterval : ℤ
  (procGroup suspendFlagName : String)
  deriving DecidableEq

structure Entry where
  (dagRunDir latestAttemptDir : String)
  summary : RunStatus
  deriving DecidableEq

/-- `DAGRunIndexEntry`. -/
structure ProtoEntry where
  (dagRunDir dagRunId latestAttemptDir : String)
  (latestStatusSize latestStatusModTime runDirModTime : ℕ)
  status : Status
  (startedAt finishedAt : ℤ)
  tags : List String
  (name workerId params queuedAt scheduleTime : String)
  triggerType : TriggerType
  createdAt : ℤ
  attemptId : String
  autoRetryCount : ℤ
  (parentDagRunName parentDagRunId : String)
  (autoRetryLimit autoRetryInterval : ℤ)
  autoRetryBackoff : UInt64
  autoRetryMaxInterval : ℤ
  (procGroup suspendFlagName : String)
  deriving DecidableEq

def maxInt32 : ℤ := 2147483647

def int32 (n : ℤ) : ℤ := n.bmod (2 ^ 32)

/-- What `writeIndex` puts together for an entry. -/
def Entry.toProto (e : Entry) (size modTime runDirModTime : ℕ) : ProtoEntry where
  dagRunDir := e.dagRunDir
  dagRunId := e.summary.dagRunID
  latestAttemptDir := e.latestAttemptDir
  latestStatusSize := size
  latestStatusModTime := modTime
  runDirModTime := runDirModTime
  status := e.summary.status
  startedAt := e.summary.startedAt
  finishedAt := e.summary.finishedAt
  tags := e.summary.tags
  name := e.summary.name
  workerId := e.summary.workerID
  params := e.summary.params
  queuedAt := e.summary.queuedAt
  scheduleTime := e.summary.scheduleTime
  triggerType := e.summary.triggerType
  createdAt := e.summary.createdAt
  attemptId := e.summary.attemptID
  autoRetryCount := int32 (min e.summary.autoRetryCount maxInt32)
  parentDagRunName := e.summary.parentName
  parentDagRunId := e.summary.parentID
  autoRetryLimit := int32 (min e.summary.autoRetryLimit maxInt32)
  autoRetryInterval := e.summary.autoRetryInterval
  autoRetryBackoff := e.summary.autoRetryBackoff
  autoRetryMaxInterval := e.summary.autoRetryMaxInterval
  procGroup := e.summary.procGroup
  suspendFlagName := e.summary.suspendFlagName

/-- `protoToEntries`, which leaves the lease time at its zero value. -/
def ProtoEntry.toEntry (p : ProtoEntry) : Entry where
  dagRunDir := p.dagRunDir
  latestAttemptDir := p.latestAttemptDir
  summary :=
    { dagRunID := p.dagRunId
      status := p.status
      startedAt := p.startedAt
      finishedAt := p.finishedAt
      tags := p.tags
      name := p.name
      workerID := p.workerId
      leaseAt := 0
      params := p.params
      queuedAt := p.queuedAt
      scheduleTime := p.scheduleTime
      triggerType := p.triggerType
      createdAt := p.createdAt
      attemptID := p.attemptId
      autoRetryCount := p.autoRetryCount
      parentName := p.parentDagRunName
      parentID := p.parentDagRunId
      autoRetryLimit := p.autoRetryLimit
      autoRetryInterval := p.autoRetryInterval
      autoRetryBackoff := p.autoRetryBackoff
      autoRetryMaxInterval := p.autoRetryMaxInterval
      procGroup := p.procGroup
      suspendFlagName := p.suspendFlagName}

/-! ### The day directory -/

structure File where
  text : List (Option RunStatus)
  modTime : ℕ
  deriving DecidableEq

structure Run where
  modTime : ℕ
  attempts : List (String × Option File)
  deriving DecidableEq

/-- The index's `parseStatusFile`: the last line that counts, also if its end is missing. -/
def parseStatusFile (f : File) : Option RunStatus :=
  match scan f.text with
  | ([st], _) => some st
  | (_, last) => last

def Run.file (run : Run) (attempt : String) : Option File :=
  ((run.attempts.find? fun a => a.1 = attempt).map Prod.snd).join

/-- `LatestAttempt` and `ReadStatus` of the attempt it finds. -/
def Run.readLatest (run : Run) : Option RunStatus := (run.attempts.findSome? Prod.snd).bind fun f => parse f.text

def minRunsForIndex : ℕ := 10

section
variable (length : RunStatus → ℕ) (runID : String → String)

def File.size (f : File) : ℕ := (f.text.map fun piece => piece.elim 1 length).sum

def newEntry (dir attempt : String) (st : RunStatus) : Entry := ⟨dir, attempt, {st with dagRunID := runID dir}⟩

def entryOf (dir : String) (run : Run) : Option Entry :=
  run.attempts.head?.bind fun a => (a.2.bind parseStatusFile).map (newEntry runID dir a.1)

def ProtoEntry.isFor (p : ProtoEntry) (run : Run) : Bool :=
  run.modTime = p.runDirModTime && (run.file p.latestAttemptDir).any fun f =>
    f.size length = p.latestStatusSize && f.modTime = p.latestStatusModTime

variable (runs : Dir String Run)

def validateIndex (index : List ProtoEntry) : Bool :=
  index.length = runs.entries.length && index.all fun p => (runs.get? p.dagRunDir).any (p.isFor length)

variable (index : Option (List ProtoEntry))

/-- `TryLoadForDay`, if nobody interferes. -/
def tryLoadForDay : Option (List Entry) :=
  if runs.entries.length < minRunsForIndex then none
  else
    match index with
    | some index =>
      if validateIndex length runs index then some (index.map ProtoEntry.toEntry)
      else some (runs.entries.filterMap fun x => entryOf runID x.1 x.2)
    | none => some (runs.entries.filterMap fun x => entryOf runID x.1 x.2)

/-- `loadDayRuns` and `resolveStatus`: the status of each run, from the summary or from its files. -/
def loadDayRuns : List (String × Option RunStatus) :=
  match tryLoadForDay length runID runs index with
  | none => runs.entries.map fun x => (x.1, x.2.readLatest)
  | some entries =>
    if entries.length = runs.entries.length then entries.map fun e => (e.dagRunDir, some e.summary)
    else runs.entries.map fun x =>
      match entries.find? fun e => e.dagRunDir = x.1 with
      | some e => (x.1, some e.summary)
      | none => (x.1, x.2.readLatest)

/-! ### Rebuilds among writers -/

inductive Pc
  | idle
  /-- `findLatestAttempt` of the next run directory. -/
  | find (todo : List String) (entries : List Entry) (allTerminal : Bool)
  /-- `parseStatusFile` of the attempt that was found. -/
  | parse (dir attempt : String) (todo : List String) (entries : List Entry) (allTerminal : Bool)
  /-- `writeIndex`: `os.Stat` of the next run directory. -/
  | stat (todo : List Entry) (protos : List ProtoEntry)
  /-- `writeIndex`: `os.Stat` of the status file. -/
  | statFile (e : Entry) (runDirModTime : ℕ) (todo : List Entry) (protos : List ProtoEntry)
  | write (protos : List ProtoEntry)
  deriving DecidableEq

def Pc.act : Pc → Option Pc
  | .idle | .write _ => none
  | .find [] entries allTerminal =>
    if allTerminal && minRunsForIndex ≤ entries.length then some (.stat entries []) else some .idle
  | .find (dir::todo) entries allTerminal =>
    match runs.get? dir with
    | none => some .idle
    | some run =>
      match run.attempts.head? with
      | none => some (.find todo entries allTerminal)
      | some a => some (.parse dir a.1 todo entries allTerminal)
  | .parse dir attempt todo entries allTerminal =>
    match ((runs.get? dir).bind fun run => run.file attempt).bind parseStatusFile with
    | none => some (.find todo entries allTerminal)
    | some st => some (.find todo (entries++[newEntry runID dir attempt st]) (allTerminal && !st.status.isActive))
  | .stat [] protos => some (.write protos)
  | .stat (e::todo) protos =>
    match runs.get? e.dagRunDir with
    | none => some .idle
    | some run => some (.statFile e run.modTime todo protos)
  | .statFile e runDirModTime todo protos =>
    match (runs.get? e.dagRunDir).bind fun run => run.file e.latestAttemptDir with
    | none => some .idle
    | some f => some (.stat todo (protos++[e.toProto (f.size length) f.modTime runDirModTime]))

structure State where
  runs : Dir String Run
  index : Option (List ProtoEntry)
  rebuilds : List Pc

namespace State

inductive Label
  /-- A rebuild begins, after `TryLoadForDay` found no valid index. -/
  | rebuild (i : ℕ)
  | act (i : ℕ)
  | write (dir attempt : String) (file : Option File)
  | newAttempt (dir attempt : String) (now : ℕ)
  | hide (dir attempt : String) (now : ℕ)
  | newRun (dir : String) (now : ℕ)

def setFile (run : Run) (attempt : String) (file : Option File) : Run :=
  {run with attempts := run.attempts.map fun a => if a.1 = attempt then (a.1, file) else a}

def step (s : State) : Label → Option State
  | .rebuild i => do
    let pc ← s.rebuilds[i]?
    if pc = .idle then some {s with rebuilds := s.rebuilds.set i (.find s.runs.names [] true)} else none
  | .act i => do
    let pc ← s.rebuilds[i]?
    match pc with
    | .write protos => some {s with index := some protos, rebuilds := s.rebuilds.set i .idle}
    | pc => (pc.act length runID s.runs).map fun next => {s with rebuilds := s.rebuilds.set i next}
  | .write dir attempt file => do
    let run ← s.runs.get? dir
    some {s with runs := s.runs.put dir (setFile run attempt file)}
  | .newAttempt dir attempt now => do
    let run ← s.runs.get? dir
    if run.attempts.any fun a => a.1 = attempt then none
    else some {s with runs := s.runs.put dir ⟨now, (attempt, none)::run.attempts⟩}
  | .hide dir attempt now => do
    let run ← s.runs.get? dir
    some {s with runs := s.runs.put dir ⟨now, run.attempts.filter fun a => a.1 ≠ attempt⟩}
  | .newRun dir now =>
    if dir ∈ s.runs.names then none else some {s with runs := s.runs.put dir ⟨now, []⟩}

end State
end

/-! The index of a day says what the status files say, as long as no run changes between a rebuild's reading
and its `os.Stat` of it, every change shows in the sizes and times, and the statuses fit the index. -/

open List Option Entry Dir State

lemma mem_of_scan {R : Type*} (text : List (Option R)) :
    (∀ r ∈ (scan text).1, some r ∈ text) ∧ ∀ r ∈ (scan text).2, some r ∈ text := by
  induction text using reverseRecOn with
  | nil => simp [scan]
  | append_singleton text piece ih =>
    obtain ⟨hline, hlast⟩ := ih
    rw [scan_append, foldl_cons, foldl_nil]
    generalize scan text = seen at hline hlast ⊢
    obtain ⟨line, last⟩ := seen
    have hkeep : ∀ r, some r ∈ text → some r ∈ text++[piece] := fun r h => mem_append_left _ h
    cases piece with
    | some record =>
      refine ⟨fun r hr => ?_, fun r hr => hkeep r (hlast r hr)⟩
      rcases mem_append.mp hr with hr | hr
      · exact hkeep r (hline r hr)
      · rw [mem_singleton.mp hr]
        simp
    | none =>
      rcases line with _ | ⟨record, _ | ⟨_, _⟩⟩
      · exact ⟨by simp [feed], fun r hr => hkeep r (hlast r hr)⟩
      · refine ⟨by simp [feed], fun r hr => ?_⟩
        cases hr
        exact hkeep _ (hline _ (by simp))
      · exact ⟨by simp [feed], fun r hr => hkeep r (hlast r hr)⟩

lemma mem_of_parseStatusFile {f : File} {st} (h : parseStatusFile f = some st) : some st ∈ f.text := by
  obtain ⟨hline, hlast⟩ := mem_of_scan f.text
  unfold parseStatusFile at h
  split at h
  · next heq =>
    cases h
    exact hline st (by simp [heq])
  · next heq => exact hlast st (by simp [heq, h])

lemma parse_eq_parseStatusFile {f : File} (h : (scan f.text).1 = []) : parse f.text = parseStatusFile f := by
  unfold parseStatusFile parse
  split
  · next heq => simp [heq] at h
  · next heq => rw [heq]

section
variable {length : RunStatus → ℕ} {runID : String → String}

/-- The index has room for the status: no lease time, the counters in 32 bits, the run ID of the directory. -/
structure Fits (runID : String → String) (dir : String) (st : RunStatus) : Prop where
  leaseAt : st.leaseAt = 0
  autoRetryCount : -2147483648 ≤ st.autoRetryCount ∧ st.autoRetryCount ≤ maxInt32
  autoRetryLimit : -2147483648 ≤ st.autoRetryLimit ∧ st.autoRetryLimit ≤ maxInt32
  dagRunID : st.dagRunID = runID dir

lemma int32_min {n : ℤ} (h : -2147483648 ≤ n ∧ n ≤ maxInt32) : int32 (min n maxInt32) = n := by
  unfold maxInt32 at h ⊢
  rw [min_eq_left h.2, int32]
  exact Int.bmod_eq_of_le (by omega) (by omega)

variable {dir : String} {attempt : String}

lemma toEntry_toProto {st} (h : Fits runID dir st) (size modTime runDirModTime : ℕ) :
    ((newEntry runID dir attempt st).toProto size modTime runDirModTime).toEntry = newEntry runID dir attempt st := by
  simp only [newEntry, toProto, ProtoEntry.toEntry, int32_min h.autoRetryCount, int32_min h.autoRetryLimit, ← h.leaseAt]

lemma Fits.newEntry {st} (h : Fits runID dir st) : (newEntry runID dir attempt st).summary = st := by
  simp only [DayIndex.newEntry, ← h.dagRunID]

def Run.Fits (runID : String → String) (dir : String) (run : Run) : Prop :=
  ∀ a ∈ run.attempts, ∀ f, a.2 = some f → ∀ st, some st ∈ f.text → DayIndex.Fits runID dir st

/-! ### One run -/

variable {e : Entry} {run : Run}

lemma entryOf_eq_some : entryOf runID dir run = some e ↔ ∃ attempt f older st, run.attempts = (attempt, some f)::older ∧
      parseStatusFile f = some st ∧ e = newEntry runID dir attempt st := by
  unfold entryOf
  constructor
  · intro h
    obtain ⟨a, ha, h⟩ := bind_eq_some_iff.mp h
    obtain ⟨st, hst, rfl⟩ := map_eq_some_iff.mp h
    obtain ⟨f, hf, hst⟩ := bind_eq_some_iff.mp hst
    obtain ⟨older, hattempts⟩ := head?_eq_some_iff.mp ha
    exact ⟨a.1, f, older, st, by rw [hattempts, ← hf], hst, rfl⟩
  · rintro ⟨attempt, f, older, st, hattempts, hst, rfl⟩
    simp [hattempts, hst]

lemma dagRunDir_entryOf (h : entryOf runID dir run = some e) : e.dagRunDir = dir := by
  obtain ⟨attempt, f, older, st, -, -, rfl⟩ := entryOf_eq_some.mp h
  rfl

variable {file : Option File}

lemma Run.file_head {older} (h : run.attempts = (attempt, file)::older) : run.file attempt = file := by simp [Run.file, h]

lemma entryOf_setFile
    (h : entryOf runID dir run = some e) (hne : e.latestAttemptDir ≠ attempt) :
    entryOf runID dir (setFile run attempt file) = some e := by
  obtain ⟨newest, f, older, st, hattempts, hst, rfl⟩ := entryOf_eq_some.mp h
  refine entryOf_eq_some.mpr ⟨newest, f, older.map fun a => if a.1 = attempt then (a.1, file) else a, st, ?_, hst, rfl⟩
  have hne' : ¬ newest = attempt := hne
  simp [setFile, hattempts, hne']

variable {other : String}

lemma find?_setFile (attempts : List (String × Option File)) :
    ((attempts.map fun a => if a.1 = attempt then (a.1, file) else a).find? fun a => a.1 = other) =
      (attempts.find? fun a => a.1 = other).map fun a => if other = attempt then (a.1, file) else a := by
  induction attempts with
  | nil => rfl
  | cons a rest ih =>
    by_cases hother : a.1 = other
    · simp [hother]
      split_ifs <;> simp [hother]
    by_cases ha : a.1 = attempt
    · have hne : ¬ attempt = other := fun h => hother (ha.trans h)
      simpa [ha, hne, hother] using ih
    · simpa [ha, hother] using ih

lemma file_setFile {f} (h : (setFile run attempt file).file attempt = some f) : file = some f := by
  unfold Run.file setFile at h
  rw [find?_setFile] at h
  cases hfind : run.attempts.find? fun a => a.1 = attempt with
  | none => simp [hfind] at h
  | some a => simpa [hfind] using h

lemma file_setFile_ne (hne : other ≠ attempt) : (setFile run attempt file).file other = run.file other := by
  unfold Run.file setFile
  rw [find?_setFile]
  simp [hne]

lemma readLatest_of_entryOf (hfits : run.Fits runID dir)
    (hquiet : ∀ a ∈ run.attempts, ∀ f, a.2 = some f → (scan f.text).1 = []) (h : entryOf runID dir run = some e) :
    run.readLatest = some e.summary := by
  obtain ⟨attempt, f, older, st, hattempts, hst, rfl⟩ := entryOf_eq_some.mp h
  have hmem : (attempt, some f) ∈ run.attempts := by simp [hattempts]
  have hread : run.readLatest = parse f.text := by simp [Run.readLatest, hattempts]
  rw [hread, parse_eq_parseStatusFile (hquiet _ hmem f rfl), hst,
    (hfits _ hmem f rfl st (mem_of_parseStatusFile hst)).newEntry]

lemma isFor_iff {p : ProtoEntry} : p.isFor length run ↔ run.modTime = p.runDirModTime ∧
    ∃ f, run.file p.latestAttemptDir = some f ∧ f.size length = p.latestStatusSize ∧
      f.modTime = p.latestStatusModTime := by
  unfold ProtoEntry.isFor
  cases hfile : run.file p.latestAttemptDir with
  | none => simp
  | some f => simp

/-! ### What a rebuild knows -/

def Current (runID : String → String) (runs : Dir String Run) (e : Entry) : Prop :=
  ∃ run, runs.get? e.dagRunDir = some run ∧ entryOf runID e.dagRunDir run = some e

structure Recorded (length : RunStatus → ℕ) (runID : String → String) (runs : Dir String Run) (p : ProtoEntry) :
    Prop where
  known : p.dagRunDir ∈ runs.names
  honest : ∀ run, runs.get? p.dagRunDir = some run → p.isFor length run → entryOf runID p.dagRunDir run = some p.toEntry

def Pc.protos : Pc → List ProtoEntry
  | .stat _ protos | .statFile _ _ _ protos | .write protos => protos
  | .idle | .find .. | .parse .. => []

/-- The runs that have been read, or are being read, and have not been looked at by `os.Stat`. -/
def Pc.holds : Pc → List String
  | .find _ entries _ => entries.map dagRunDir
  | .parse dir _ _ entries _ => dir::entries.map dagRunDir
  | .stat todo _ => todo.map dagRunDir
  | .statFile e _ todo _ => e.dagRunDir::todo.map dagRunDir
  | .idle | .write _ => []

def Pc.Knows (length : RunStatus → ℕ) (runID : String → String) (runs : Dir String Run) : Pc → Prop
  | .idle => True
  | .find todo entries _ => (entries.map dagRunDir++todo).Nodup ∧ ∀ e ∈ entries, Current runID runs e
  | .parse dir attempt todo entries _ =>
    (entries.map dagRunDir++dir::todo).Nodup ∧ (∀ e ∈ entries, Current runID runs e) ∧
      ∃ run file older, runs.get? dir = some run ∧ run.attempts = (attempt, file)::older
  | .stat todo protos =>
    (protos.map ProtoEntry.dagRunDir++todo.map dagRunDir).Nodup ∧ (∀ e ∈ todo, Current runID runs e) ∧
      ∀ p ∈ protos, Recorded length runID runs p
  | .statFile e _ todo protos =>
    (protos.map ProtoEntry.dagRunDir++e.dagRunDir::todo.map dagRunDir).Nodup ∧ Current runID runs e ∧
      (∀ e ∈ todo, Current runID runs e) ∧ ∀ p ∈ protos, Recorded length runID runs p
  | .write protos => (protos.map ProtoEntry.dagRunDir).Nodup ∧ ∀ p ∈ protos, Recorded length runID runs p

variable {runs : Dir String Run}

lemma Pc.Knows.recorded {pc : Pc} (h : pc.Knows length runID runs) : ∀ p ∈ pc.protos, Recorded length runID runs p := by
  cases pc with
  | idle | find | parse => simp [Pc.protos]
  | stat => exact h.2.2
  | statFile => exact h.2.2.2
  | write => exact h.2

lemma Pc.Knows.held {pc : Pc} (h : pc.Knows length runID runs)
    (hheld : dir ∈ pc.holds) : ∃ run, runs.get? dir = some run := by
  have hentries : ∀ entries : List Entry, (∀ e ∈ entries, Current runID runs e) →
      dir ∈ entries.map dagRunDir → ∃ run, runs.get? dir = some run := by
    intro entries hcurrent hdir
    obtain ⟨e, he, rfl⟩ := mem_map.mp hdir
    obtain ⟨run, hrun, -⟩ := hcurrent e he
    exact ⟨run, hrun⟩
  cases pc with
  | idle | write => simp [Pc.holds] at hheld
  | find todo entries allTerminal => exact hentries entries h.2 hheld
  | parse dir' attempt todo entries allTerminal =>
    rcases mem_cons.mp hheld with rfl | hheld
    · obtain ⟨-, -, run, -, -, hrun, -⟩ := h
      exact ⟨run, hrun⟩
    · exact hentries entries h.2.1 hheld
  | stat todo protos => exact hentries todo h.2.1 hheld
  | statFile e runDirModTime todo protos =>
    rcases mem_cons.mp hheld with rfl | hheld
    · obtain ⟨-, ⟨run, hrun, -⟩, -⟩ := h
      exact ⟨run, hrun⟩
    · exact hentries todo h.2.2.1 hheld

lemma recorded_toProto (hrun : runs.get? e.dagRunDir = some run)
    (hfits : run.Fits runID e.dagRunDir) (hentry : entryOf runID e.dagRunDir run = some e)
    (size modTime runDirModTime : ℕ) : Recorded length runID runs (e.toProto size modTime runDirModTime) := by
  refine ⟨mem_names_of_mem (get?_eq_some.mp hrun), fun run' hrun' _ => ?_⟩
  cases hrun.symm.trans hrun'
  obtain ⟨attempt, f, older, st, hattempts, hst, heq⟩ := entryOf_eq_some.mp hentry
  have hst' := hfits (attempt, some f) (by simp [hattempts]) f rfl st (mem_of_parseStatusFile hst)
  have hround : (e.toProto size modTime runDirModTime).toEntry = e := by
    rw [heq]
    exact toEntry_toProto hst' size modTime runDirModTime
  rw [hround]
  exact hentry

lemma Pc.Knows.act {pc next : Pc} (hfits : ∀ x ∈ runs.entries, x.2.Fits runID x.1)
    (h : pc.Knows length runID runs) (hact : pc.act length runID runs = some next) : next.Knows length runID runs := by
  cases pc with
  | idle | write => simp [Pc.act] at hact
  | find todo entries allTerminal =>
    obtain ⟨hnodup, hcurrent⟩ := h
    cases todo with
    | nil =>
      simp only [Pc.act] at hact
      split_ifs at hact <;> cases hact
      · exact ⟨by simpa using hnodup, hcurrent, by simp⟩
      · trivial
    | cons dir todo =>
      simp only [Pc.act] at hact
      split at hact
      · cases hact
        trivial
      next run hrun =>
      cases hattempts : run.attempts with
      | nil =>
        simp only [hattempts, head?_nil, some.injEq] at hact
        subst hact
        exact ⟨hnodup.sublist (List.Sublist.append_left (sublist_cons_self dir todo) _), hcurrent⟩
      | cons a older =>
        simp only [hattempts, head?_cons, some.injEq] at hact
        subst hact
        exact ⟨hnodup, hcurrent, run, a.2, older, hrun, hattempts⟩
  | parse dir attempt todo entries allTerminal =>
    obtain ⟨hnodup, hcurrent, run, file, older, hrun, hattempts⟩ := h
    simp only [Pc.act, hrun, bind_some, Run.file_head hattempts] at hact
    cases hst : file.bind parseStatusFile with
    | none =>
      simp only [hst, some.injEq] at hact
      subst hact
      exact ⟨hnodup.sublist (List.Sublist.append_left (sublist_cons_self dir todo) _), hcurrent⟩
    | some st =>
      simp only [hst, some.injEq] at hact
      subst hact
      refine ⟨by simpa [newEntry] using hnodup, forall_mem_concat hcurrent ?_⟩
      obtain ⟨f, rfl, hst⟩ := bind_eq_some_iff.mp hst
      exact ⟨run, hrun, entryOf_eq_some.mpr ⟨attempt, f, older, st, hattempts, hst, rfl⟩⟩
  | stat todo protos =>
    obtain ⟨hnodup, hcurrent, hrecorded⟩ := h
    cases todo with
    | nil =>
      simp only [Pc.act, some.injEq] at hact
      subst hact
      exact ⟨by simpa using hnodup, hrecorded⟩
    | cons e todo =>
      obtain ⟨run, hrun, hentry⟩ := hcurrent e mem_cons_self
      simp only [Pc.act, hrun, some.injEq] at hact
      subst hact
      exact ⟨hnodup, ⟨run, hrun, hentry⟩, fun e he => hcurrent e (mem_cons_of_mem _ he), hrecorded⟩
  | statFile e runDirModTime todo protos =>
    obtain ⟨hnodup, ⟨run, hrun, hentry⟩, hcurrent, hrecorded⟩ := h
    simp only [Pc.act, hrun, bind_some] at hact
    split at hact
    · cases hact
      trivial
    next f hf =>
    cases hact
    refine ⟨by simpa [toProto] using hnodup, hcurrent, forall_mem_concat hrecorded ?_⟩
    exact recorded_toProto hrun (hfits _ (get?_eq_some.mp hrun)) hentry _ _ _

/-! ### Changes of a run -/

section
variable {runs : Dir String Run} {dir : String} {run' : Run}

lemma Current.put {e : Entry} (h : Current runID runs e) (hne : e.dagRunDir ≠ dir) :
    Current runID (runs.put dir run') e := by
  obtain ⟨run, hrun, hentry⟩ := h
  exact ⟨run, by rw [get?_put, if_neg hne, hrun], hentry⟩

def Shows (length : RunStatus → ℕ) (runID : String → String) (dir : String) (run' : Run) (p : ProtoEntry) : Prop :=
  p.dagRunDir = dir → p.isFor length run' → entryOf runID dir run' = some p.toEntry

lemma Recorded.put {p} (h : Recorded length runID runs p) (hown : Shows length runID dir run' p) :
    Recorded length runID (runs.put dir run') p := by
  refine ⟨?_, fun run hrun hfor => ?_⟩
  · obtain ⟨x, hx, hname⟩ := mem_map.mp h.known
    by_cases hne : p.dagRunDir = dir
    · exact mem_map.mpr ⟨(dir, run'), mem_put.mpr (.inl rfl), hne.symm⟩
    · exact mem_map.mpr ⟨x, mem_put.mpr (.inr ⟨hx, hname ▸ hne⟩), hname⟩
  rw [get?_put] at hrun
  split_ifs at hrun with hne
  · cases hrun
    rw [hne]
    exact hown hne hfor
  · exact h.honest run hrun hfor

lemma Pc.Knows.put {pc : Pc} (h : pc.Knows length runID runs) (hheld : dir ∉ pc.holds)
    (hown : ∀ p ∈ pc.protos, Shows length runID dir run' p) : pc.Knows length runID (runs.put dir run') := by
  have hentries : ∀ entries : List Entry, dir ∉ entries.map dagRunDir →
      (∀ e ∈ entries, Current runID runs e) → ∀ e ∈ entries, Current runID (runs.put dir run') e :=
    fun entries hdir hcurrent e he => (hcurrent e he).put fun heq => hdir (heq ▸ mem_map_of_mem he)
  cases pc with
  | idle => trivial
  | find todo entries allTerminal => exact ⟨h.1, hentries entries hheld h.2⟩
  | parse dir' attempt todo entries allTerminal =>
    obtain ⟨hnodup, hcurrent, run, file, older, hrun, hattempts⟩ := h
    simp only [Pc.holds, mem_cons, not_or] at hheld
    exact ⟨hnodup, hentries entries hheld.2 hcurrent, run, file, older,
      by rw [get?_put, if_neg (Ne.symm hheld.1), hrun], hattempts⟩
  | stat todo protos => exact ⟨h.1, hentries todo hheld h.2.1, fun p hp => (h.2.2 p hp).put (hown p hp)⟩
  | statFile e runDirModTime todo protos =>
    simp only [Pc.holds, mem_cons, not_or] at hheld
    exact ⟨h.1, h.2.1.put (Ne.symm hheld.1), hentries todo hheld.2 h.2.2.1, fun p hp => (h.2.2.2 p hp).put (hown p hp)⟩
  | write protos => exact ⟨h.1, fun p hp => (h.2 p hp).put (hown p hp)⟩

end

namespace State
variable {s t : State}

def recorded (s : State) : List ProtoEntry := s.index.getD []++s.rebuilds.flatMap Pc.protos

/-- A run changes only while no rebuild has read it without having looked at its times; the change gives the
status file or the run directory another size or time than recorded; and the statuses fit the index. -/
def Settled (length : RunStatus → ℕ) (runID : String → String) (s : State) : Label → Prop
  | .write dir attempt file => (∀ pc ∈ s.rebuilds, dir ∉ pc.holds) ∧
      ∀ f ∈ file, (∀ piece ∈ f.text, ∀ st ∈ piece, Fits runID dir st) ∧
        ∀ p ∈ s.recorded, p.dagRunDir = dir → p.latestAttemptDir = attempt →
          ¬ (f.size length = p.latestStatusSize ∧ f.modTime = p.latestStatusModTime)
  | .newAttempt dir _ now | .hide dir _ now => (∀ pc ∈ s.rebuilds, dir ∉ pc.holds) ∧
      ∀ p ∈ s.recorded, p.dagRunDir = dir → p.runDirModTime ≠ now
  | .rebuild _ | .act _ | .newRun _ _ => True

structure Inv (length : RunStatus → ℕ) (runID : String → String) (s : State) : Prop where
  fits : ∀ x ∈ s.runs.entries, x.2.Fits runID x.1
  knows : ∀ pc ∈ s.rebuilds, pc.Knows length runID s.runs
  index : ∀ protos ∈ s.index, (protos.map ProtoEntry.dagRunDir).Nodup ∧ ∀ p ∈ protos, Recorded length runID s.runs p

lemma Inv.recorded (h : s.Inv length runID) : ∀ p ∈ s.recorded, Recorded length runID s.runs p := by
  intro p hp
  rcases mem_append.mp hp with hp | hp
  · cases hindex : s.index with
    | none => simp [hindex] at hp
    | some protos => exact (h.index protos hindex).2 p (by simpa [hindex] using hp)
  · obtain ⟨pc, hpc, hp⟩ := mem_flatMap.mp hp
    exact (h.knows pc hpc).recorded p hp

variable {dir : String}

lemma Inv.put {run'} (h : s.Inv length runID) (hfits : run'.Fits runID dir)
    (hheld : ∀ pc ∈ s.rebuilds, dir ∉ pc.holds) (hown : ∀ p ∈ s.recorded, Shows length runID dir run' p) :
    ({s with runs := s.runs.put dir run'} : State).Inv length runID where
  fits x hx := by
    rcases mem_put.mp hx with rfl | ⟨hx, -⟩
    · exact hfits
    · exact h.fits x hx
  knows pc hpc := (h.knows pc hpc).put (hheld pc hpc) fun p hp =>
    hown p (mem_append_right _ (mem_flatMap.mpr ⟨pc, hpc, hp⟩))
  index protos hprotos := by
    obtain ⟨hnodup, hrecorded⟩ := h.index protos hprotos
    refine ⟨hnodup, fun p hp => (hrecorded p hp).put (hown p (mem_append_left _ ?_))⟩
    have hindex : s.index = some protos := hprotos
    simpa [hindex] using hp

lemma Inv.set {i pc index} (h : s.Inv length runID) (hpc : pc.Knows length runID s.runs)
    (hindex : ∀ protos ∈ index, (protos.map ProtoEntry.dagRunDir).Nodup ∧ ∀ p ∈ protos, Recorded length runID s.runs p) :
    (⟨s.runs, index, s.rebuilds.set i pc⟩ : State).Inv length runID where
  fits := h.fits
  knows := forall_mem_set h.knows hpc
  index := hindex

lemma inv_write {attempt file} (h : s.Inv length runID) (hsettled : s.Settled length runID (.write dir attempt file))
    (hstep : s.step length runID (.write dir attempt file) = some t) : t.Inv length runID := by
  obtain ⟨run, hrun, ⟨⟩⟩ := bind_eq_some_iff.mp hstep
  obtain ⟨hheld, hfile⟩ := hsettled
  refine h.put (fun a ha f hf st hst => ?_) hheld fun p hp hdir hfor => ?_
  · obtain ⟨a', ha', rfl⟩ := mem_map.mp ha
    split_ifs at hf
    · exact (hfile f hf).1 _ hst st rfl
    · exact h.fits (dir, run) (get?_eq_some.mp hrun) a' ha' f hf st hst
  obtain ⟨htime, f, hf, hstat⟩ := isFor_iff.mp hfor
  by_cases hattempt : p.latestAttemptDir = attempt
  · rw [hattempt] at hf
    exact absurd hstat ((hfile f (file_setFile hf)).2 p hp hdir hattempt)
  rw [file_setFile_ne hattempt] at hf
  have hrecorded := h.recorded p hp
  rw [← hdir] at hrun ⊢
  exact entryOf_setFile (hrecorded.honest run hrun (isFor_iff.mpr ⟨htime, f, hf, hstat⟩)) hattempt

variable {now : ℕ}

section
variable (h : s.Inv length runID)
include h

lemma inv_newAttempt {attempt} (hsettled : s.Settled length runID (.newAttempt dir attempt now))
    (hstep : s.step length runID (.newAttempt dir attempt now) = some t) : t.Inv length runID := by
  obtain ⟨run, hrun, hstep⟩ := bind_eq_some_iff.mp hstep
  split_ifs at hstep
  cases hstep
  refine h.put (fun a ha f hf st hst => ?_) hsettled.1 fun p hp hdir hfor => ?_
  · rcases mem_cons.mp ha with rfl | ha
    · cases hf
    · exact h.fits (dir, run) (get?_eq_some.mp hrun) a ha f hf st hst
  · exact absurd (isFor_iff.mp hfor).1.symm (hsettled.2 p hp hdir)

lemma inv_hide {attempt} (hsettled : s.Settled length runID (.hide dir attempt now))
    (hstep : s.step length runID (.hide dir attempt now) = some t) : t.Inv length runID := by
  obtain ⟨run, hrun, ⟨⟩⟩ := bind_eq_some_iff.mp hstep
  refine h.put (fun a ha f hf st hst => ?_) hsettled.1 fun p hp hdir hfor => ?_
  · exact h.fits (dir, run) (get?_eq_some.mp hrun) a (mem_filter.mp ha).1 f hf st hst
  · exact absurd (isFor_iff.mp hfor).1.symm (hsettled.2 p hp hdir)

lemma inv_newRun (hstep : s.step length runID (.newRun dir now) = some t) : t.Inv length runID := by
  simp only [step] at hstep
  split_ifs at hstep with hnew
  cases hstep
  have hnone : s.runs.get? dir = none := get?_eq_none.mpr hnew
  refine h.put (by simp [Run.Fits]) (fun pc hpc hheld => ?_) fun p hp hdir => ?_
  · obtain ⟨run, hrun⟩ := (h.knows pc hpc).held hheld
    simp [hnone] at hrun
  · exact absurd (hdir ▸ (h.recorded p hp).known) hnew

lemma inv_step {l} (hsettled : s.Settled length runID l)
    (hstep : s.step length runID l = some t) : t.Inv length runID := by
  cases l with
  | write => exact inv_write h hsettled hstep
  | newAttempt => exact inv_newAttempt h hsettled hstep
  | hide => exact inv_hide h hsettled hstep
  | newRun => exact inv_newRun h hstep
  | rebuild i =>
    obtain ⟨pc, -, hstep⟩ := bind_eq_some_iff.mp hstep
    split_ifs at hstep
    cases hstep
    exact h.set ⟨s.runs.nodup, by simp⟩ h.index
  | act i =>
    obtain ⟨pc, hget, hstep⟩ := bind_eq_some_iff.mp hstep
    have hknows := h.knows pc (mem_of_getElem? hget)
    split at hstep
    · next protos =>
      cases hstep
      refine h.set trivial fun protos' hprotos' => ?_
      cases hprotos'
      exact hknows
    · obtain ⟨next, hact, rfl⟩ := map_eq_some_iff.mp hstep
      exact h.set (hknows.act h.fits hact) h.index

end

structure Fresh (runID : String → String) (s : State) : Prop where
  index : s.index = none
  idle : ∀ pc ∈ s.rebuilds, pc = .idle
  fits : ∀ x ∈ s.runs.entries, x.2.Fits runID x.1

lemma inv_reach {start} (hstart : start.Fresh runID)
    (hreach : Reach (step length runID) (Settled length runID) start s) : s.Inv length runID := by
  refine hreach.invariant (P := Inv length runID) ⟨hstart.fits, fun pc hpc => ?_, by simp [hstart.index]⟩ ?_
  · rw [hstart.idle pc hpc]
    trivial
  · intro a l b _ hinv hsettled hstep
    exact inv_step hinv hsettled hstep

/-! ### The listing -/

def Quiet (s : State) : Prop := ∀ x ∈ s.runs.entries, ∀ a ∈ x.2.attempts, ∀ f, a.2 = some f → (scan f.text).1 = []

def readDay (s : State) : List (String × Option RunStatus) := s.runs.entries.map fun x => (x.1, x.2.readLatest)

lemma read_of_entry {e : Entry} {run : Run} (h : s.Inv length runID) (hquiet : s.Quiet)
    (hrun : s.runs.get? e.dagRunDir = some run) (hentry : entryOf runID e.dagRunDir run = some e) :
    (e.dagRunDir, some e.summary) = (e.dagRunDir, run.readLatest) := by
  have hmem := get?_eq_some.mp hrun
  rw [readLatest_of_entryOf (h.fits _ hmem) (hquiet _ hmem) hentry]

lemma mem_entries_iff {entries : List Entry} (h : s.Inv length runID) (hquiet : s.Quiet)
    (hnodup : (entries.map dagRunDir).Nodup) (hlength : entries.length = s.runs.entries.length)
    (hcurrent : ∀ e ∈ entries, Current runID s.runs e) (x : String × Option RunStatus) :
    x ∈ entries.map (fun e => (e.dagRunDir, some e.summary)) ↔ x ∈ s.readDay := by
  have hsubset : entries.map dagRunDir ⊆ s.runs.names := by
    intro dir hdir
    obtain ⟨e, he, rfl⟩ := mem_map.mp hdir
    obtain ⟨run, hrun, -⟩ := hcurrent e he
    exact mem_names_of_mem (get?_eq_some.mp hrun)
  have hperm : (entries.map dagRunDir).Perm s.runs.names :=
    (hnodup.subperm hsubset).perm_of_length_le (by simp [names, hlength])
  constructor
  · intro hx
    obtain ⟨e, he, rfl⟩ := mem_map.mp hx
    obtain ⟨run, hrun, hentry⟩ := hcurrent e he
    rw [read_of_entry h hquiet hrun hentry]
    exact mem_map.mpr ⟨(e.dagRunDir, run), get?_eq_some.mp hrun, rfl⟩
  intro hx
  obtain ⟨⟨dir, run⟩, hrun, rfl⟩ := mem_map.mp hx
  obtain ⟨e, he, rfl⟩ := mem_map.mp (hperm.mem_iff.mpr (mem_names_of_mem hrun))
  obtain ⟨run', hrun', hentry⟩ := hcurrent e he
  cases (get?_eq_some.mpr hrun).symm.trans hrun'
  exact mem_map.mpr ⟨e, he, read_of_entry h hquiet hrun' hentry⟩

def rebuilt (runID : String → String) (s : State) : List Entry :=
  s.runs.entries.filterMap fun x => entryOf runID x.1 x.2

lemma current_of_rebuilt {e} (he : e ∈ s.rebuilt runID) : Current runID s.runs e := by
  obtain ⟨x, hx, hentry⟩ := mem_filterMap.mp he
  have hdir := dagRunDir_entryOf hentry
  exact ⟨x.2, by rw [hdir]; exact get?_eq_some.mpr hx, hdir ▸ hentry⟩

lemma nodup_rebuilt : ((s.rebuilt runID).map dagRunDir).Nodup := by
  have hsub : ((s.rebuilt runID).map dagRunDir).Sublist s.runs.names := by
    unfold rebuilt names
    generalize s.runs.entries = entries
    induction entries with
    | nil => simp
    | cons x rest ih =>
      cases hentry : entryOf runID x.1 x.2 with
      | none => simpa [hentry] using ih.cons x.1
      | some e => simpa [hentry, dagRunDir_entryOf hentry] using ih
  exact s.runs.nodup.sublist hsub

lemma lookup_rebuilt (h : s.Inv length runID) (hquiet : s.Quiet) {x : String × Run} (hx : x ∈ s.runs.entries) :
    (match (s.rebuilt runID).find? fun e => e.dagRunDir = x.1 with
      | some e => (x.1, some e.summary)
      | none => (x.1, x.2.readLatest)) = (x.1, x.2.readLatest) := by
  cases hfind : (s.rebuilt runID).find? fun e => e.dagRunDir = x.1 with
  | none => rfl
  | some e =>
    have hdir : e.dagRunDir = x.1 := by simpa using find?_some hfind
    obtain ⟨run, hrun, hentry⟩ := current_of_rebuilt (mem_of_find?_eq_some hfind)
    rw [hdir] at hrun hentry
    cases hrun.symm.trans (get?_eq_some.mpr hx)
    simp only [readLatest_of_entryOf (h.fits x hx) (hquiet x hx) hentry]

lemma listing_rebuilt (h : s.Inv length runID) (hquiet : s.Quiet) (x : String × Option RunStatus) :
    (x ∈ if (s.rebuilt runID).length = s.runs.entries.length then
        (s.rebuilt runID).map fun e => (e.dagRunDir, some e.summary)
      else s.runs.entries.map fun x =>
        match (s.rebuilt runID).find? fun e => e.dagRunDir = x.1 with
        | some e => (x.1, some e.summary)
        | none => (x.1, x.2.readLatest)) ↔ x ∈ s.readDay := by
  split_ifs with hlength
  · exact mem_entries_iff h hquiet nodup_rebuilt hlength (fun e he => current_of_rebuilt he) x
  · rw [map_congr_left fun y hy => lookup_rebuilt h hquiet hy]
    rfl

end State
end

/-! ### A day of ten runs -/

instance {runID : String → String} {dir : String} {st : RunStatus} : Decidable (Fits runID dir st) :=
  decidable_of_iff (st.leaseAt = 0 ∧ (-2147483648 ≤ st.autoRetryCount ∧ st.autoRetryCount ≤ maxInt32) ∧
      (-2147483648 ≤ st.autoRetryLimit ∧ st.autoRetryLimit ≤ maxInt32) ∧ st.dagRunID = runID dir)
    ⟨fun ⟨h₁, h₂, h₃, h₄⟩ => ⟨h₁, h₂, h₃, h₄⟩, fun ⟨h₁, h₂, h₃, h₄⟩ => ⟨h₁, h₂, h₃, h₄⟩⟩

namespace State

instance {length : RunStatus → ℕ} {runID : String → String} {s : State} (l : Label) :
    Decidable (s.Settled length runID l) := by
  unfold State.Settled
  split <;> infer_instance

def statusOf (dir attempt : String) (status : Status) : RunStatus :=
  ⟨"", "", "etl", dir, attempt, status, [], 0, 0, "", 0, "", "", "", .scheduler, 0, 0, 0, 0, 0, 0, "", ""⟩

def tenRuns : List String := ["r0", "r1", "r2", "r3", "r4", "r5", "r6", "r7", "r8", "r9"]

def tenSucceeded : State where
  runs := ⟨tenRuns.map fun dir => (dir, ⟨0, [("a1", some ⟨[some (statusOf dir "a1" .succeeded), none], 0⟩)]⟩), by decide⟩
  index := none
  rebuilds := [.idle]

lemma tenSucceeded_fresh : tenSucceeded.Fresh id := by
  refine ⟨rfl, by decide, fun x hx a ha f hf st hst => ?_⟩
  obtain ⟨dir, -, rfl⟩ := mem_map.mp hx
  obtain rfl := mem_singleton.mp ha
  cases hf
  simp only [mem_cons, some.injEq, reduceCtorEq, not_mem_nil, or_false] at hst
  rw [hst]
  exact ⟨rfl, by simp [statusOf, maxInt32], by simp [statusOf, maxInt32], rfl⟩

def retryOfFirst : List (Label × ℕ) :=
  [(.newAttempt "r0" "a2" 5, 1), (.write "r0" "a2" (some ⟨[some (statusOf "r0" "a2" .running), none], 6⟩), 1)]

end State
end Ayatsuri.DayIndex
