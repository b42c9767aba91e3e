import Ayatsuri.BufferedWriter
import Ayatsuri.LogStreamer
import Ayatsuri.TransitionSystem

/-! The logs of a run on a remote worker, up to the files of the coordinator (`internal/service/worker/remote_handler.go`,
`internal/service/coordinator/log_handler.go`). Every writer of the worker has a stream of its own, which the coordinator
handles while the run goes on, with writers of its own that append to the files. -/
namespace Ayatsuri.RemoteLogs
open TransitionSystem Masking LogStreamer List Option BufferedWriter LogWriter

/-! ### The coordinator -/

structure Run where
  (dagName dagRunID rootName rootID : String)
  deriving DecidableEq

def maxSafeNameLength : ℕ := 100

def isAllowed (c : Char) : Bool :=
  ('a' ≤ c && c ≤ 'z') || ('A' ≤ c && c ≤ 'Z') || ('0' ≤ c && c ≤ '9') || c = '_' || c = '-'

/-- `fileutil.SafeName`. -/
def safeName (name : String) : String :=
  String.ofList ((name.toList.map fun c => if isAllowed c then c else '_').take maxSafeNameLength)

structure LogID where
  stepName : String
  streamType : StreamType
  attemptID : String
  deriving DecidableEq

def chunkID (c : LogChunk) : LogID := ⟨c.stepName, c.streamType, c.attemptID⟩

def streamTypeName : StreamType → String
  | .stdout => "LOG_STREAM_TYPE_STDOUT"
  | .stderr => "LOG_STREAM_TYPE_STDERR"
  | .scheduler => "LOG_STREAM_TYPE_SCHEDULER"

variable (run : Run)

def streamKey (id : LogID) : String :=
  "/".intercalate [run.dagName, run.dagRunID, id.attemptID, id.stepName, streamTypeName id.streamType]

def logFileName (stepName : String) : StreamType → String
  | .scheduler => "scheduler.log"
  | .stdout => safeName stepName ++ ".stdout.log"
  | .stderr => safeName stepName ++ ".stderr.log"

/-- `logFilePath`, as the parts below the log directory. -/
def logFilePath (id : LogID) : List String :=
  let dagName := if run.rootID ≠ "" then run.rootName else run.dagName
  let dagRunID := if run.rootID ≠ "" then run.rootID else run.dagRunID
  let attemptDir := if id.attemptID = "" then dagRunID else id.attemptID
  [safeName dagName, safeName dagRunID, safeName attemptDir, logFileName id.stepName id.streamType]

def flushThreshold : ℕ := 65536

def fileBufferSize : ℕ := 64*1024

/-- `logWriter`. -/
structure FileWriter where
  path : List String
  buffer : Bytes := []
  bytesSinceFlush : ℕ := 0
  deriving DecidableEq

/-- `write`, with the bytes that go to the file. -/
def FileWriter.write (w : FileWriter) (data : Bytes) : FileWriter × Bytes :=
  let step := BufferedWriter.write fileBufferSize w.buffer data
  let bytes := w.bytesSinceFlush+data.length
  if flushThreshold ≤ bytes then
    ({w with buffer := [], bytesSinceFlush := 0}, step.1.flatten++(flush step.2).flatten)
  else ({w with buffer := step.2, bytesSinceFlush := bytes}, step.1.flatten)

abbrev Files := List String → Bytes

variable (files : Files) (path : List String)

def Files.append (data : Bytes) : Files := Function.update files path (files path++data)

abbrev Writers := List (String × FileWriter)

variable (writers : Writers)

/-- One round of `handleStream`. -/
def handleChunk (c : LogChunk) : Files × Writers :=
  let key := streamKey run (chunkID c)
  if c.isFinal then
    match writers.lookup key with
    | none => (files, writers)
    | some w => (files.append w.path (flush w.buffer).flatten, writers.filter fun x => x.1 ≠ key)
  else if c.data.length = 0 then (files, writers)
  else
    let w := (writers.lookup key).getD {path := logFilePath run (chunkID c)}
    (files.append w.path (w.write c.data).2, (key, (w.write c.data).1)::writers.filter fun x => x.1 ≠ key)

/-! ### The system -/

inductive Owner
  | step (k : ℕ)
  | scheduler | resend
  deriving DecidableEq

structure Stream where
  owner : Owner
  inFlight : List LogChunk
  writers : Writers
  deriving DecidableEq

structure Sender where
  writer : LogWriter
  stream : Option ℕ := none
  produced : Bytes := []
  ended : Bool := false
  deriving DecidableEq

structure State where
  /-- What `SetAttemptID` has set, once the agent has an attempt. -/
  attemptID : String
  senders : List Sender
  scheduler : Sender
  /-- What `StreamSchedulerLog` has sent. -/
  resent : Option Bytes
  /-- `Run` of the agent has returned. -/
  returned : Bool
  streams : List Stream
  files : Files

inductive Label
  | attempt (id : String)
  | openStep (stepName : String) (stderr : Bool)
  | write (k : ℕ) (p : Bytes)
  | finish (k : ℕ) (failed : Bool)
  | log (p : Bytes)
  | resend | returns | closeLog
  | receive (j : ℕ)
  deriving DecidableEq

def send (owner : Owner) (stream : Option ℕ) (chunks : List LogChunk) (streams : List Stream) : Option ℕ × List Stream :=
  if chunks = [] then (stream, streams)
  else
    match stream with
    | none => (some streams.length, streams++[⟨owner, chunks, []⟩])
    | some j => (some j, streams.modify j fun st => {st with inFlight := st.inFlight++chunks})

namespace State

def setSender (s : State) (k : ℕ) (x : Sender) (chunks : List LogChunk) : State :=
  {s with
    senders := s.senders.set k {x with stream := (send (.step k) x.stream chunks s.streams).1}
    streams := (send (.step k) x.stream chunks s.streams).2}

def setScheduler (s : State) (x : Sender) (chunks : List LogChunk) : State :=
  {s with
    scheduler := {x with stream := (send .scheduler x.stream chunks s.streams).1}
    streams := (send .scheduler x.stream chunks s.streams).2}

def step (run : Run) (s : State) : Label → Option State
  | .attempt id =>
    if s.attemptID = "" ∧ id ≠ "" ∧ s.returned = false then
      some {s with attemptID := id}
    else none
  | .openStep stepName stderr =>
    if s.attemptID ≠ "" ∧ s.returned = false then
      some { s with senders := s.senders ++
        [{writer := {stepName := stepName, streamType := if stderr then .stderr else .stdout}}]}
    else none
  | .write k p =>
    match s.senders[k]? with
    | none => none
    | some x =>
      if x.ended then none
      else
        (x.writer.write s.attemptID p).map fun y => s.setSender k {x with writer := y.1, produced := x.produced++p} y.2
  | .finish k failed =>
    match s.senders[k]? with
    | none => none
    | some x =>
      if x.ended then none
      else if failed then some (s.setSender k {x with ended := true} [])
      else
        some (s.setSender k {x with writer := (x.writer.close s.attemptID).1, ended := true} (x.writer.close s.attemptID).2)
  | .log p =>
    (s.scheduler.writer.write s.attemptID p).map fun y =>
      s.setScheduler {s.scheduler with writer := y.1, produced := s.scheduler.produced++p} y.2
  | .resend =>
    if s.attemptID ≠ "" ∧ s.returned = false ∧ s.resent = none then
      let chunks := streamSchedulerLog s.attemptID s.scheduler.produced
      some {s with
        resent := some s.scheduler.produced
        streams := (send .resend none chunks s.streams).2}
    else none
  | .returns =>
    if s.returned = false ∧ ∀ x ∈ s.senders, x.ended then some {s with returned := true} else none
  | .closeLog =>
    if s.returned ∧ s.scheduler.writer.closed = false then
      some (s.setScheduler {s.scheduler with writer := (s.scheduler.writer.close s.attemptID).1}
        (s.scheduler.writer.close s.attemptID).2)
    else none
  | .receive j =>
    match s.streams[j]? with
    | some ⟨owner, c::rest, writers⟩ =>
      some {s with
        files := (handleChunk run s.files writers c).1
        streams := s.streams.set j ⟨owner, rest, (handleChunk run s.files writers c).2⟩}
    | _ => none

@[simp] def init : State where
  attemptID := ""
  senders := []
  scheduler := { writer := {stepName := "scheduler", streamType := .scheduler} }
  resent := none
  returned := false
  streams := []
  files _ := []

end State

def Sender.id (x : Sender) (attemptID : String) : LogID := ⟨x.writer.stepName, x.writer.streamType, attemptID⟩

variable (s : State)

def Drained (x : Sender) : Prop := x.writer.closed → ∀ st ∈ x.stream.bind fun j => s.streams[j]?, st.inFlight = []

structure State.Finished : Prop where
  returned : s.returned
  closed : s.scheduler.writer.closed
  steps : ∀ x ∈ s.senders, Drained s x
  scheduler : Drained s s.scheduler

instance (s : State) (x : Sender) : Decidable (Drained s x) :=
  inferInstanceAs (Decidable (_ → ∀ st ∈ x.stream.bind fun j => s.streams[j]?, st.inFlight = []))

instance (s : State) : Decidable s.Finished :=
  decidable_of_iff (s.returned ∧ s.scheduler.writer.closed ∧ (∀ x ∈ s.senders, Drained s x) ∧ Drained s s.scheduler)
    ⟨fun ⟨hreturned, hclosed, hsteps, hscheduler⟩ => ⟨hreturned, hclosed, hsteps, hscheduler⟩,
      fun h => ⟨h.returned, h.closed, h.steps, h.scheduler⟩⟩

def State.Unique (k : ℕ) (x : Sender) : Prop :=
  ∀ i y, s.senders[i]? = some y → i ≠ k → logFilePath run (y.id s.attemptID) ≠ logFilePath run (x.id s.attemptID)

/-! ### One stream at the coordinator -/

lemma FileWriter.write_spec (w : FileWriter) (data : Bytes) :
    (w.write data).2++(w.write data).1.buffer = w.buffer++data ∧ (w.write data).1.path = w.path := by
  dsimp only [FileWriter.write]
  split_ifs
  · refine ⟨?_, rfl⟩
    rw [append_nil, flush_flatten, write_flatten]
  · exact ⟨write_flatten _ _ _, rfl⟩

lemma Files.append_self (data : Bytes) : files.append path data path = files path++data := Function.update_self ..

lemma Files.append_of_ne {path other} (data : Bytes) (h : other ≠ path) :
    files.append path data other = files other := Function.update_of_ne h ..

def buffered : Bytes := writers.flatMap fun x => x.2.buffer

structure Stream.Only (id : LogID) (st : Stream) : Prop where
  chunks : ∀ c ∈ st.inFlight, chunkID c = id ∧ (c.isFinal → c.data = [])
  writers : st.writers = [] ∨ ∃ w, st.writers = [(streamKey run id, w)] ∧ w.path = logFilePath run id

variable {owner : Owner} {run : Run}

lemma handleChunk_only {id} {c : LogChunk} {rest writers}
    (files : Files) (h : Stream.Only run id ⟨owner, c::rest, writers⟩) :
    Stream.Only run id ⟨owner, rest, (handleChunk run files writers c).2⟩ ∧
      (∀ path, path ≠ logFilePath run id → (handleChunk run files writers c).1 path = files path) ∧
      (handleChunk run files writers c).1 (logFilePath run id)++buffered (handleChunk run files writers c).2 =
        files (logFilePath run id)++buffered writers++c.data ∧
      (c.isFinal → (handleChunk run files writers c).2 = []) := by
  obtain ⟨hid, hfinal⟩ := h.chunks c mem_cons_self
  have hrest : ∀ c ∈ rest, chunkID c = id ∧ (c.isFinal → c.data = []) := fun c hc => h.chunks c (mem_cons_of_mem _ hc)
  dsimp only [handleChunk]
  rw [hid]
  by_cases hf : c.isFinal
  · rw [if_pos hf, hfinal hf, append_nil]
    rcases h.writers with hnil | ⟨w, hw, hpath⟩
    · change writers = [] at hnil
      subst hnil
      exact ⟨⟨hrest, .inl rfl⟩, fun _ _ => rfl, rfl, fun _ => rfl⟩
    change writers = _ at hw
    subst hw
    simp only [lookup_cons_self, ne_eq, not_true_eq_false, decide_false, filter_cons_of_neg, filter_nil,
      Bool.false_eq_true, not_false_eq_true, hpath]
    refine ⟨⟨hrest, .inl rfl⟩, fun path hne => files.append_of_ne _ hne, ?_, fun _ => trivial⟩
    rw [files.append_self, flush_flatten]
    simp [buffered]
  rw [if_neg hf]
  by_cases hempty : c.data.length = 0
  · rw [if_pos hempty, length_eq_zero_iff.mp hempty, append_nil]
    exact ⟨⟨hrest, h.writers⟩, fun _ _ => rfl, rfl, fun hf' => absurd hf' hf⟩
  rw [if_neg hempty]
  rcases h.writers with hnil | ⟨w, hw, hpath⟩
  · change writers = [] at hnil
    subst hnil
    simp only [lookup_nil, getD_none, filter_nil]
    obtain ⟨hdata, hpath⟩ := FileWriter.write_spec {path := logFilePath run id} c.data
    refine ⟨⟨hrest, .inr ⟨_, rfl, hpath⟩⟩, fun path hne => files.append_of_ne _ hne, ?_, fun hf' => absurd hf' hf⟩
    rw [files.append_self, append_assoc]
    simpa [buffered] using hdata
  change writers = _ at hw
  subst hw
  simp only [lookup_cons_self, getD_some, ne_eq, not_true_eq_false, decide_false, Bool.false_eq_true,
    not_false_eq_true, filter_cons_of_neg, filter_nil, hpath]
  obtain ⟨hdata, hpath'⟩ := w.write_spec c.data
  refine ⟨⟨hrest, .inr ⟨_, rfl, hpath'.trans hpath⟩⟩, fun path hne => files.append_of_ne _ hne, ?_, fun hf' => absurd hf' hf⟩
  rw [files.append_self, append_assoc, append_assoc]
  congr 1
  simpa [buffered] using hdata

def IsLog : Prop := path.getLast? = some "scheduler.log"

lemma isLog_logFilePath {id : LogID} (h : id.streamType = .scheduler) : IsLog (logFilePath run id) := by
  simp [IsLog, logFilePath, h, logFileName]

lemma not_isLog_logFilePath {id : LogID} (h : id.streamType ≠ .scheduler) : ¬ IsLog (logFilePath run id) := by
  -- Whatever the name of the step is, the suffix differs.
  have hsuffix : ∀ name suffix : String, ¬ suffix.toList <:+ "scheduler.log".toList → name++suffix ≠ "scheduler.log" := by
    intro name suffix hnot heq
    exact hnot ⟨name.toList, by rw [← String.toList_append, heq]⟩
  simp only [IsLog, logFilePath, getLast?_cons_cons, getLast?_singleton, some.injEq]
  cases htype : id.streamType with
  | scheduler => exact absurd htype h
  | stdout | stderr => exact hsuffix _ _ (by decide)

variable (st : Stream)

structure Stream.Logs : Prop where
  chunks : ∀ c ∈ st.inFlight, c.streamType = .scheduler
  writers : ∀ x ∈ st.writers, IsLog x.2.path

lemma handleChunk_logs {c rest writers} (files : Files)
    (h : Stream.Logs ⟨owner, c::rest, writers⟩) : Stream.Logs ⟨owner, rest, (handleChunk run files writers c).2⟩ ∧
      ∀ path, ¬ IsLog path → (handleChunk run files writers c).1 path = files path := by
  have hrest : ∀ c ∈ rest, c.streamType = .scheduler := fun c hc => h.chunks c (mem_cons_of_mem _ hc)
  have hfilter : ∀ key : String, ∀ x ∈ writers.filter fun x => x.1 ≠ key, IsLog x.2.path := fun key x hx =>
    h.writers x (mem_of_mem_filter hx)
  have hlookup : ∀ key w, writers.lookup key = some w → IsLog w.path := by
    intro key w hw
    obtain ⟨front, back, hwriters, -⟩ := lookup_eq_some_iff.mp hw
    exact h.writers (key, w) (hwriters ▸ by simp)
  dsimp only [handleChunk]
  by_cases hf : c.isFinal
  · rw [if_pos hf]
    cases hw : writers.lookup (streamKey run (chunkID c)) with
    | none => exact ⟨⟨hrest, h.writers⟩, fun _ _ => rfl⟩
    | some w =>
      refine ⟨⟨hrest, hfilter _⟩, fun path hnot => files.append_of_ne _ ?_⟩
      exact fun heq => hnot (heq ▸ hlookup _ w hw)
  rw [if_neg hf]
  by_cases hempty : c.data.length = 0
  · rw [if_pos hempty]
    exact ⟨⟨hrest, h.writers⟩, fun _ _ => rfl⟩
  rw [if_neg hempty]
  have hpath : IsLog ((writers.lookup (streamKey run (chunkID c))).getD {path := logFilePath run (chunkID c)}).path := by
    cases hw : writers.lookup (streamKey run (chunkID c)) with
    | none => exact isLog_logFilePath (h.chunks c mem_cons_self)
    | some w => exact hlookup _ w hw
  generalize (writers.lookup (streamKey run (chunkID c))).getD {path := logFilePath run (chunkID c)} = w at hpath ⊢
  refine ⟨⟨hrest, fun x hx => ?_⟩, fun path hnot => files.append_of_ne _ fun heq => hnot (heq ▸ hpath)⟩
  rcases mem_cons.mp hx with rfl | hx
  · exact (w.write_spec c.data).2.symm ▸ hpath
  · exact hfilter _ x hx

/-! ### The streams of the senders -/

variable (streams : List Stream)

def streamAt (owner : Owner) (stream : Option ℕ) : Stream := (stream.bind fun j => streams[j]?).getD ⟨owner, [], []⟩

def Linked (owner : Owner) (stream : Option ℕ) : Prop :=
  ∀ j, stream = some j → ∃ st, streams[j]? = some st ∧ st.owner = owner

section
variable {streams : List Stream} {owner other : Owner} {stream stream' : Option ℕ} {chunks : List LogChunk}

lemma streamAt_some {j : ℕ} {st} (h : streams[j]? = some st) : streamAt streams owner (some j) = st := by
  simp [streamAt, h]

lemma streamAt_congr {streams'} (h : ∀ j, stream = some j → streams'[j]? = streams[j]?) :
    streamAt streams' owner stream = streamAt streams owner stream := by
  cases stream with
  | none => rfl
  | some j => simp [streamAt, h j rfl]

section
variable (hlinked : Linked streams owner stream)
include hlinked

lemma send_streamAt : streamAt (send owner stream chunks streams).2 owner (send owner stream chunks streams).1 =
      {streamAt streams owner stream with inFlight := (streamAt streams owner stream).inFlight++chunks} := by
  unfold send
  by_cases hempty : chunks = []
  · rw [if_pos hempty, hempty, append_nil]
  rw [if_neg hempty]
  cases stream with
  | none => simp [streamAt]
  | some j =>
    obtain ⟨st, hst, -⟩ := hlinked j rfl
    simp [streamAt, hst]

lemma send_linked : Linked (send owner stream chunks streams).2 owner (send owner stream chunks streams).1 := by
  unfold send
  by_cases hempty : chunks = []
  · rw [if_pos hempty]
    exact hlinked
  rw [if_neg hempty]
  intro j hj
  cases stream with
  | none =>
    cases hj
    exact ⟨⟨owner, chunks, []⟩, by simp, rfl⟩
  | some i =>
    cases hj
    obtain ⟨st, hst, howner⟩ := hlinked j rfl
    exact ⟨{st with inFlight := st.inFlight++chunks}, by simp [hst], howner⟩

lemma getElem?_send {i : ℕ} {st : Stream} (h : (send owner stream chunks streams).2[i]? = some st) :
    (send owner stream chunks streams).1 = some i ∧ st.owner = owner ∨ streams[i]? = some st := by
  unfold send at h ⊢
  by_cases hempty : chunks = []
  · rw [if_pos hempty] at h
    exact .inr h
  rw [if_neg hempty] at h ⊢
  cases stream with
  | none =>
    change (streams++[⟨owner, chunks, []⟩])[i]? = some st at h
    rcases getElem?_concat_cases h with h | ⟨rfl, rfl⟩
    · exact .inr h
    · exact .inl ⟨rfl, rfl⟩
  | some j =>
    change (streams.modify j _)[i]? = some st at h
    rw [getElem?_modify] at h
    split_ifs at h with hj
    · subst hj
      obtain ⟨old, hold, rfl⟩ := map_eq_some_iff.mp h
      obtain ⟨st, hst, howner⟩ := hlinked j rfl
      exact .inl ⟨rfl, by rw [hold] at hst; cases hst; exact howner⟩
    · exact .inr (by simpa using h)

lemma send_other (hother : Linked streams other stream') (hne : other ≠ owner)
    {j : ℕ} (hj : stream' = some j) : (send owner stream chunks streams).2[j]? = streams[j]? := by
  obtain ⟨st, hst, howner⟩ := hother j hj
  unfold send
  split_ifs
  · rfl
  cases stream with
  | none => exact getElem?_append_left (lt_of_getElem? hst)
  | some i =>
    obtain ⟨mine, hmine, howner'⟩ := hlinked i rfl
    have hij : i ≠ j := by
      rintro rfl
      rw [hst] at hmine
      cases hmine
      exact hne (howner.symm.trans howner')
    change (streams.modify i _)[j]? = _
    simp [hij]

end

lemma Linked.send_kept (hother : Linked streams other stream') (hlinked : Linked streams owner stream) (hne : other ≠ owner) :
    Linked (send owner stream chunks streams).2 other stream' := by
  intro j hj
  rw [send_other hlinked hother hne hj]
  exact hother j hj

lemma Linked.set {j : ℕ} {st st' : Stream} (h : Linked streams owner stream) (hst : streams[j]? = some st)
    (howner : st'.owner = st.owner) : Linked (streams.set j st') owner stream := by
  intro i hi
  obtain ⟨old, hold, hown⟩ := h i hi
  by_cases hij : j = i
  · subst hij
    rw [hst] at hold
    cases hold
    exact ⟨st', getElem?_set_self (lt_of_getElem? hst), howner.trans hown⟩
  · exact ⟨old, by rw [getElem?_set_ne hij, hold], hown⟩

lemma send_some (j : ℕ) : (send owner (some j) chunks streams).1 = some j := by
  unfold send
  split_ifs <;> rfl

end

/-! ### The senders -/

def Stream.Ending : Prop := (st.inFlight = [] ∧ st.writers = []) ∨ ∃ front c, st.inFlight = front++[c] ∧ c.isFinal

def Stream.left : Bytes := buffered st.writers++received st.inFlight

structure Sender.Held (run : Run) (attemptID : String) (streams : List Stream) (owner : Owner) (x : Sender) : Prop where
  linked : Linked streams owner x.stream
  only : (streamAt streams owner x.stream).Only run (x.id attemptID)
  opened : x.writer.closed = false → x.stream.isSome → x.writer.stream
  ending : x.writer.closed → x.writer.buffer = [] ∧ (streamAt streams owner x.stream).Ending

def Sender.Balanced (run : Run) (attemptID : String) (streams : List Stream) (files : Files) (owner : Owner) (x : Sender) : Prop :=
  files (logFilePath run (x.id attemptID))++(streamAt streams owner x.stream).left++x.writer.buffer = x.produced

structure Moves (attemptID : String) (x x' : Sender) (chunks : List LogChunk) : Prop where
  wasOpen : x.writer.closed = false
  id : x'.id attemptID = x.id attemptID
  stream : x'.stream = x.stream
  carries : ∀ c ∈ chunks, Carries x.writer attemptID c
  total : ∃ p, x'.produced = x.produced++p ∧ received chunks++x'.writer.buffer = x.writer.buffer++p
  opened : x'.writer.closed = false → x.writer.stream ∨ chunks ≠ [] → x'.writer.stream
  emptied : x'.writer.closed → x'.writer.buffer = []
  final : x'.writer.closed → x.writer.stream ∨ chunks ≠ [] → ∃ front c, chunks = front++[c] ∧ c.isFinal

section
variable {run : Run} {attemptID : String} {streams : List Stream} {owner other : Owner} {x x' y : Sender}
  {chunks : List LogChunk} {files : Files}

lemma Moves.write {w p} (h : x.writer.write attemptID p = some (w, chunks)) :
    Moves attemptID x {x with writer := w, produced := x.produced++p} chunks := by
  obtain ⟨hcarries, hname, htype⟩ := write_carries h
  have hopen : x.writer.closed = false := by
    by_contra hclosed
    simp [LogWriter.write, hclosed] at h
  have hopen' : w.closed = false := (write_closed h).trans hopen
  exact {
    wasOpen := hopen
    id := by simp [Sender.id, hname, htype]
    stream := rfl
    carries := hcarries
    total := ⟨p, rfl, write_received h⟩
    opened := fun _ hstream => write_stream h hstream
    emptied := fun hclosed => by simp [hopen'] at hclosed
    final := fun hclosed => by simp [hopen'] at hclosed}

lemma Moves.close (h : x.writer.closed = false) (ended : Bool) :
    Moves attemptID x {x with writer := (x.writer.close attemptID).1, ended := ended} (x.writer.close attemptID).2 := by
  obtain ⟨hcarries, hname, htype⟩ := x.writer.close_carries attemptID
  obtain ⟨hreceived, hbuffer⟩ := x.writer.close_received attemptID h
  have hclosed := x.writer.close_closed attemptID
  exact {
    wasOpen := h
    id := by simp [Sender.id, hname, htype]
    stream := rfl
    carries := hcarries
    total := ⟨[], by simp, by rw [hreceived, hbuffer]⟩
    opened := fun hopen => by simp [hclosed] at hopen
    emptied := fun _ => hbuffer
    final := fun _ hstream => close_final h hstream}

lemma Moves.rest (h : x.writer.closed = false) (ended : Bool) : Moves attemptID x {x with ended := ended} [] where
  wasOpen := h
  id := rfl
  stream := rfl
  carries := by simp
  total := ⟨[], by simp, by simp [received]⟩
  opened := fun _ hstream => hstream.resolve_right fun hne => hne rfl
  emptied := fun hclosed => by simp [h] at hclosed
  final := fun hclosed => by simp [h] at hclosed

lemma Moves.chunkID (m : Moves attemptID x x' chunks) {c : LogChunk} (hc : c ∈ chunks) :
    chunkID c = x.id attemptID ∧ (c.isFinal → c.data = []) := by
  obtain ⟨hname, htype, hattempt, hfinal⟩ := m.carries c hc
  exact ⟨by simp [RemoteLogs.chunkID, Sender.id, hname, htype, hattempt], hfinal⟩

lemma isSome_send {stream : Option ℕ} (h : (send owner stream chunks streams).1.isSome) :
    stream.isSome ∨ chunks ≠ [] := by
  by_cases hempty : chunks = []
  · exact .inl (by simpa [send, hempty] using h)
  · exact .inr hempty

lemma send_eq_none {stream} (h : (send owner stream chunks streams).1 = none) : stream = none ∧ chunks = [] := by
  by_cases hempty : chunks = []
  · exact ⟨by simpa [send, hempty] using h, hempty⟩
  · cases stream with
    | none | some j => simp [send, hempty] at h

lemma Sender.Held.move (h : x.Held run attemptID streams owner) (m : Moves attemptID x x' chunks) :
    Sender.Held run attemptID (send owner x'.stream chunks streams).2 owner
      {x' with stream := (send owner x'.stream chunks streams).1} := by
  rw [m.stream]
  refine ⟨send_linked h.linked, ?_, fun hopen hsome => ?_, fun hclosed => ⟨m.emptied hclosed, ?_⟩⟩
  · change (streamAt _ owner (send owner x.stream chunks streams).1).Only run (x'.id attemptID)
    rw [send_streamAt h.linked, m.id]
    exact ⟨forall_mem_append.mpr ⟨h.only.chunks, fun c => m.chunkID⟩, h.only.writers⟩
  · exact m.opened hopen ((isSome_send hsome).imp_left (h.opened m.wasOpen))
  change (streamAt _ owner (send owner x.stream chunks streams).1).Ending
  by_cases hnone : (send owner x.stream chunks streams).1 = none
  · rw [hnone]
    exact .inl ⟨rfl, rfl⟩
  have hsome := isSome_iff_ne_none.mpr hnone
  obtain ⟨front, c, hchunks, hfinal⟩ := m.final hclosed ((isSome_send hsome).imp_left (h.opened m.wasOpen))
  rw [send_streamAt h.linked]
  exact .inr ⟨_++front, c, by rw [hchunks, append_assoc], hfinal⟩

variable {streams' : List Stream}

lemma Sender.Held.congr (h : y.Held run attemptID streams other)
    (hsame : ∀ j, y.stream = some j → streams'[j]? = streams[j]?) : y.Held run attemptID streams' other where
  linked j hj := by
    rw [hsame j hj]
    exact h.linked j hj
  only := by
    rw [streamAt_congr hsame]
    exact h.only
  opened := h.opened
  ending := by
    rw [streamAt_congr hsame]
    exact h.ending

lemma Sender.Balanced.move (h : x.Balanced run attemptID streams files owner) (m : Moves attemptID x x' chunks)
    (hlinked : Linked streams owner x.stream) :
    Sender.Balanced run attemptID (send owner x'.stream chunks streams).2 files owner
      {x' with stream := (send owner x'.stream chunks streams).1} := by
  rw [m.stream]
  obtain ⟨p, hproduced, hreceived⟩ := m.total
  change files (logFilePath run (x'.id attemptID))++(streamAt _ owner (send owner x.stream chunks streams).1).left ++
    x'.writer.buffer = x'.produced
  rw [send_streamAt hlinked, m.id, hproduced, ← h]
  simp only [Stream.left, received_append, append_assoc, hreceived]

lemma Sender.Balanced.congr {files'} (h : y.Balanced run attemptID streams files other)
    (hsame : ∀ j, y.stream = some j → streams'[j]? = streams[j]?)
    (hfile : files' (logFilePath run (y.id attemptID)) = files (logFilePath run (y.id attemptID))) :
    y.Balanced run attemptID streams' files' other := by
  unfold Sender.Balanced
  rw [streamAt_congr hsame, hfile]
  exact h

section
variable {o : Owner} {j : ℕ} {c : LogChunk} {rest : List LogChunk} {writers : Writers}

lemma Sender.Held.receive (h : x.Held run attemptID streams owner) (hst : streams[j]? = some ⟨o, c::rest, writers⟩)
    (hown : x.stream = some j) :
    x.Held run attemptID (streams.set j ⟨o, rest, (handleChunk run files writers c).2⟩) owner := by
  have hlt := lt_of_getElem? hst
  have hold : streamAt streams owner x.stream = ⟨o, c::rest, writers⟩ := by rw [hown, streamAt_some hst]
  have hnew : streamAt (streams.set j ⟨o, rest, (handleChunk run files writers c).2⟩) owner x.stream =
      ⟨o, rest, (handleChunk run files writers c).2⟩ := by rw [hown, streamAt_some (getElem?_set_self hlt)]
  obtain ⟨honly, -, -, hfinal⟩ := handleChunk_only files (hold ▸ h.only)
  refine ⟨fun i hi => ?_, by rw [hnew]; exact honly, h.opened, fun hclosed => ?_⟩
  · obtain rfl : j = i := some_inj.mp (hown.symm.trans hi)
    obtain ⟨st, hst', howner⟩ := h.linked j hown
    rw [hst] at hst'
    cases hst'
    exact ⟨_, getElem?_set_self hlt, howner⟩
  obtain ⟨hbuffer, hending⟩ := h.ending hclosed
  refine ⟨hbuffer, ?_⟩
  rw [hold] at hending
  rw [hnew]
  rcases hending with ⟨hnil, -⟩ | ⟨front, last, hlast, hisFinal⟩
  · simp at hnil
  cases front with
  | nil =>
    obtain ⟨rfl, rfl⟩ := cons_eq_cons.mp hlast
    exact .inl ⟨rfl, hfinal hisFinal⟩
  | cons head front =>
    obtain ⟨-, rfl⟩ := cons_eq_cons.mp hlast
    exact .inr ⟨front, last, rfl, hisFinal⟩

lemma Sender.Balanced.receive (h : x.Balanced run attemptID streams files owner) (hheld : x.Held run attemptID streams owner)
    (hst : streams[j]? = some ⟨o, c::rest, writers⟩) (hown : x.stream = some j) :
    x.Balanced run attemptID (streams.set j ⟨o, rest, (handleChunk run files writers c).2⟩)
      (handleChunk run files writers c).1 owner := by
  have hlt := lt_of_getElem? hst
  have hold : streamAt streams owner x.stream = ⟨o, c::rest, writers⟩ := by rw [hown, streamAt_some hst]
  obtain ⟨-, -, htotal, -⟩ := handleChunk_only files (hold ▸ hheld.only)
  unfold Sender.Balanced at h ⊢
  rw [← h, hold, hown, streamAt_some (getElem?_set_self hlt)]
  simp only [Stream.left, received, flatMap_cons, ← append_assoc]
  rw [htotal]

end
end

/-! ### What a step does -/

variable (run : Run) (s : State) in
inductive Moved : Label → State → Prop
  | attempt {id : String} (start : s.attemptID = "") : Moved (.attempt id) {s with attemptID := id}
  | opens {stepName : String} {stderr : Bool} (started : s.attemptID ≠ "") (running : s.returned = false) :
    Moved (.openStep stepName stderr) { s with senders := s.senders ++
      [{writer := {stepName := stepName, streamType := if stderr then .stderr else .stdout}}]}
  | sends {l : Label} {k : ℕ} {x x' : Sender} {chunks : List LogChunk} (here : s.senders[k]? = some x)
    (running : x.ended = false) (moves : x.writer.closed = false → Moves s.attemptID x x' chunks)
    (ends : x'.writer.closed → x'.ended)
    (closes : x'.ended → l ≠ .finish k true → x'.writer.closed) : Moved l (s.setSender k x' chunks)
  | logs {l : Label} {x : Sender} {chunks : List LogChunk} (moves : Moves s.attemptID s.scheduler x chunks)
    (quiet : ∀ k, l ≠ .finish k true) : Moved l (s.setScheduler x chunks)
  | resend (again : s.resent = none) : Moved .resend {s with
        resent := some s.scheduler.produced
        streams := (send .resend none (streamSchedulerLog s.attemptID s.scheduler.produced) s.streams).2}
  | returns (ended : ∀ x ∈ s.senders, x.ended) : Moved .returns {s with returned := true}
  | receive {j : ℕ} {owner : Owner} {c : LogChunk} {rest : List LogChunk} {writers : Writers}
    (here : s.streams[j]? = some ⟨owner, c::rest, writers⟩) : Moved (.receive j) {s with
      files := (handleChunk run s.files writers c).1
      streams := s.streams.set j ⟨owner, rest, (handleChunk run s.files writers c).2⟩}

variable {s t : State}
open State Moves

lemma moved_of_step {l} (h : s.step run l = some t) : Moved run s l t := by
  cases l with
  | attempt id =>
    obtain ⟨⟨hstart, -⟩, rfl⟩ := of_guarded h
    exact .attempt hstart
  | openStep stepName stderr =>
    obtain ⟨⟨hstarted, hrunning⟩, rfl⟩ := of_guarded h
    exact .opens hstarted hrunning
  | write k p =>
    simp only [step] at h
    cases hx : s.senders[k]? with
    | none => simp [hx] at h
    | some x =>
      rw [hx] at h
      by_cases hended : x.ended
      · simp [hended] at h
      dsimp only at h
      rw [if_neg hended] at h
      obtain ⟨⟨w, chunks⟩, hw, rfl⟩ := map_eq_some_iff.mp h
      have hopen := (write hw).wasOpen
      have hclosed : w.closed = false := (write_closed hw).trans hopen
      refine .sends hx (by simpa using hended) (fun _ => write hw) ?_ ?_
      · intro hc
        simp [hclosed] at hc
      · intro he
        exact absurd he hended
  | finish k failed =>
    simp only [step] at h
    cases hx : s.senders[k]? with
    | none => simp [hx] at h
    | some x =>
      rw [hx] at h
      by_cases hended : x.ended
      · simp [hended] at h
      have hrunning : x.ended = false := by simpa using hended
      dsimp only at h
      rw [if_neg hended] at h
      by_cases hfailed : failed
      · rw [if_pos hfailed] at h
        cases h
        exact .sends hx hrunning (fun hopen => rest hopen true) (fun _ => rfl) fun _ hl => absurd (hfailed ▸ rfl) hl
      rw [if_neg hfailed] at h
      cases h
      exact .sends hx hrunning (fun hopen => close hopen true) (fun _ => rfl) fun _ _ => x.writer.close_closed _
  | log p =>
    simp only [step, map_eq_some_iff] at h
    obtain ⟨⟨w, chunks⟩, hw, rfl⟩ := h
    exact .logs (write hw) (by simp)
  | resend =>
    obtain ⟨⟨-, -, hagain⟩, rfl⟩ := of_guarded h
    exact .resend hagain
  | returns =>
    obtain ⟨⟨-, hended⟩, rfl⟩ := of_guarded h
    exact .returns hended
  | closeLog =>
    obtain ⟨⟨-, hopen⟩, rfl⟩ := of_guarded h
    exact .logs (close hopen _) (by simp)
  | receive j =>
    simp only [step] at h
    split at h
    · next owner c rest writers hst =>
      cases h
      exact .receive hst
    · cases h

/-! ### Every state of a run -/

def State.streamOf (s : State) : Owner → Option ℕ
  | .step k => s.senders[k]?.bind Sender.stream
  | .scheduler => s.scheduler.stream
  | .resend => none

structure State.Inv (run : Run) (s : State) : Prop where
  steps : ∀ (k : ℕ) x, s.senders[k]? = some x → x.Held run s.attemptID s.streams (.step k)
  log : Linked s.streams .scheduler s.scheduler.stream
  owned : ∀ (j : ℕ) st, s.streams[j]? = some st → st.owner = .resend ∨ s.streamOf st.owner = some j
  logs : ∀ st ∈ s.streams, (∀ k, st.owner ≠ .step k) → st.Logs
  logType : s.scheduler.writer.streamType = .scheduler
  kinds : ∀ x ∈ s.senders, x.writer.streamType ≠ .scheduler
  running : ∀ x ∈ s.senders, x.writer.closed → x.ended
  started : s.attemptID = "" → s.senders = []
  ended : s.returned → ∀ x ∈ s.senders, x.ended
  touched : ∀ path, s.files path ≠ [] → IsLog path ∨ ∃ x ∈ s.senders, logFilePath run (x.id s.attemptID) = path
  balanced : ∀ (k : ℕ) x, s.senders[k]? = some x → s.Unique run k x → x.Balanced run s.attemptID s.streams s.files (.step k)

lemma State.Unique.of_ids {k} {x x' : Sender} (h : t.Unique run k x')
    (hids : ∀ (i : ℕ) y, s.senders[i]? = some y → ∃ y', t.senders[i]? = some y' ∧ y'.id t.attemptID = y.id s.attemptID)
    (hx : x'.id t.attemptID = x.id s.attemptID) : s.Unique run k x := by
  intro i y hy hne
  obtain ⟨y', hy', hid⟩ := hids i y hy
  rw [← hid, ← hx]
  exact h i y' hy' hne

namespace State.Inv
variable {run : Run} {s : State}

lemma start (run : Run) : init.Inv run where
  steps := by simp
  log := by simp [Linked]
  owned := by simp
  logs := by simp
  logType := rfl
  kinds := by simp
  running := by simp
  started _ := rfl
  ended := by simp
  touched := by simp
  balanced := by simp

lemma attempt (h : s.Inv run) (hstart : s.attemptID = "") (id : String) : {s with attemptID := id : State}.Inv run :=
  {h with
    steps := by simp [h.started hstart]
    started := fun _ => h.started hstart
    touched := fun path hpath => by simpa [h.started hstart] using h.touched path hpath
    balanced := by simp [h.started hstart]}

lemma opens (h : s.Inv run) (hstarted : s.attemptID ≠ "") (hrunning : s.returned = false) {w : LogWriter}
    (hkind : w.streamType ≠ .scheduler) (hempty : w.buffer = []) (hopen : w.closed = false) :
    {s with senders := s.senders++[{writer := w}] : State}.Inv run where
  steps k x hx := by
    rcases getElem?_concat_cases hx with hx | ⟨-, rfl⟩
    · exact h.steps k x hx
    refine ⟨by simp [Linked], ⟨by simp [streamAt], .inl rfl⟩, by simp, ?_⟩
    intro hclosed
    simp [hopen] at hclosed
  log := h.log
  owned j st hst := by
    rcases h.owned j st hst with hresend | hstream
    · exact .inl hresend
    refine .inr ?_
    cases howner : st.owner with
    | step k =>
      rw [howner] at hstream
      obtain ⟨x, hx, hj⟩ := bind_eq_some_iff.mp hstream
      exact bind_eq_some_iff.mpr
        ⟨x, (getElem?_append_left (lt_of_getElem? hx)).trans hx, hj⟩
    | scheduler | resend => rwa [howner] at hstream
  logs := h.logs
  logType := h.logType
  kinds := forall_mem_concat h.kinds hkind
  running := forall_mem_concat h.running (by simp [hopen])
  started hstart := absurd hstart hstarted
  ended hreturned := by simp [hrunning] at hreturned
  touched path hpath := (h.touched path hpath).imp_right fun ⟨x, hx, heq⟩ => ⟨x, mem_append_left _ hx, heq⟩
  balanced k x hx hunique := by
    have hold : ∀ (i : ℕ) y, s.senders[i]? = some y → (s.senders++[{writer := w}])[i]? = some y := fun i y hy =>
      (getElem?_append_left (lt_of_getElem? hy)).trans hy
    rcases getElem?_concat_cases hx with hx | ⟨rfl, rfl⟩
    · exact h.balanced k x hx (hunique.of_ids (fun i y hy => ⟨y, hold i y hy, rfl⟩) rfl)
    -- Nobody has written to the file of the new sender.
    have hfile : s.files (logFilePath run (Sender.id {writer := w} s.attemptID)) = [] := by
      by_contra hne
      rcases h.touched _ hne with hlog | ⟨y, hy, heq⟩
      · exact not_isLog_logFilePath hkind hlog
      · obtain ⟨i, hi⟩ := mem_iff_getElem?.mp hy
        exact hunique i y (hold i y hi) (lt_of_getElem? hi).ne heq
    change s.files _++_++w.buffer = []
    rw [hfile, hempty]
    rfl

section
variable {t : State} {owner : Owner} {stream : Option ℕ} {chunks : List LogChunk}
variable (h : s.Inv run) (hlinked : Linked s.streams owner stream)
include h hlinked

lemma owned_send (hstreams : t.streams = (send owner stream chunks s.streams).2)
    (hhad : owner = .resend ∨ s.streamOf owner = stream)
    (hhas : owner = .resend ∨ t.streamOf owner = (send owner stream chunks s.streams).1)
    (hothers : ∀ o, o ≠ owner → t.streamOf o = s.streamOf o) (j : ℕ) (st : Stream) (hst : t.streams[j]? = some st) :
    st.owner = .resend ∨ t.streamOf st.owner = some j := by
  rw [hstreams] at hst
  rcases getElem?_send hlinked hst with ⟨hj, rfl⟩ | hst
  · exact hhas.imp_right fun hhas => hhas.trans hj
  rcases h.owned j st hst with hresend | hj
  · exact .inl hresend
  by_cases howner : st.owner = owner
  · subst howner
    refine hhas.imp_right fun hhas => ?_
    rcases hhad with hresend | hhad
    · rw [hresend] at hj
      exact absurd hj (by simp [streamOf])
    · rw [hhas, ← hhad, hj, send_some]
  · exact .inr ((hothers _ howner).trans hj)

lemma held_send {k : ℕ} {x} (hx : s.senders[k]? = some x)
    (hne : .step k ≠ owner) : x.Held run s.attemptID (send owner stream chunks s.streams).2 (.step k) :=
  (h.steps k x hx).congr fun _ hj => send_other hlinked (h.steps k x hx).linked hne hj

lemma balanced_send {k : ℕ} {x} (hx : s.senders[k]? = some x) (hunique : s.Unique run k x) (hne : .step k ≠ owner) :
    x.Balanced run s.attemptID (send owner stream chunks s.streams).2 s.files (.step k) :=
  (h.balanced k x hx hunique).congr (fun _ hj => send_other hlinked (h.steps k x hx).linked hne hj) rfl

end

variable {chunks : List LogChunk}

lemma sends (h : s.Inv run) {k : ℕ} {x x' : Sender} (hx : s.senders[k]? = some x)
    (hrunning : x.ended = false) (m : Moves s.attemptID x x' chunks) (hends : x'.writer.closed → x'.ended) :
    (s.setSender k x' chunks).Inv run := by
  have hlinked : Linked s.streams (.step k) x'.stream := by
    rw [m.stream]
    exact (h.steps k x hx).linked
  have hmem := mem_of_getElem? hx
  have hlt := lt_of_getElem? hx
  set u : Sender := {x' with stream := (send (.step k) x'.stream chunks s.streams).1} with hu
  have hid : u.id s.attemptID = x.id s.attemptID := m.id
  have hids : ∀ (i : ℕ) y, s.senders[i]? = some y →
      ∃ y', (s.senders.set k u)[i]? = some y' ∧ y'.id s.attemptID = y.id s.attemptID := by
    intro i y hy
    by_cases hik : k = i
    · subst hik
      rw [hx] at hy
      cases hy
      exact ⟨u, getElem?_set_self hlt, hid⟩
    · exact ⟨y, by rw [getElem?_set_ne hik, hy], rfl⟩
  refine {
    steps := fun i y hy => ?_
    log := h.log.send_kept hlinked (by simp)
    owned := h.owned_send hlinked rfl (.inr ?_) (.inr ?_) fun o ho => ?_
    logs := fun st hst hnot => ?_
    logType := h.logType
    kinds := fun y hy => ?_
    running := fun y hy hclosed => ?_
    started := fun hstart => ?_
    ended := fun hreturned => ?_
    touched := fun path hpath => ?_
    balanced := fun i y hy hunique => ?_}
  · rcases getElem?_set_cases hy with ⟨rfl, rfl⟩ | ⟨hne, hy⟩
    · exact (h.steps i x hx).move m
    · exact h.held_send hlinked hy (by simpa using hne)
  · simp [streamOf, hx, m.stream]
  · simp [streamOf, setSender, hlt]
  · cases o with
    | step i =>
      have hik : k ≠ i := fun heq => ho (heq ▸ rfl)
      simp [streamOf, setSender, getElem?_set_ne hik]
    | scheduler => rfl
    | resend => rfl
  · obtain ⟨i, hi⟩ := mem_iff_getElem?.mp hst
    rcases getElem?_send hlinked hi with ⟨-, howner⟩ | hi
    · exact absurd howner (hnot k)
    · exact h.logs st (mem_of_getElem? hi) hnot
  · rcases mem_or_eq_of_mem_set hy with hy | rfl
    · exact h.kinds y hy
    · have htype : x'.writer.streamType = x.writer.streamType := congrArg LogID.streamType m.id
      exact htype.symm ▸ h.kinds x hmem
  · rcases mem_or_eq_of_mem_set hy with hy | rfl
    · exact h.running y hy hclosed
    · exact hends hclosed
  · simp [h.started hstart] at hmem
  · simp [h.ended hreturned x hmem] at hrunning
  · refine (h.touched path hpath).imp_right fun ⟨y, hy, heq⟩ => ?_
    obtain ⟨i, hi⟩ := mem_iff_getElem?.mp hy
    obtain ⟨y', hy', hsame⟩ := hids i y hi
    exact ⟨y', mem_of_getElem? hy', by rw [← heq]; exact congrArg (logFilePath run) hsame⟩
  · rcases getElem?_set_cases hy with ⟨rfl, rfl⟩ | ⟨hne, hy⟩
    · exact (h.balanced i x hx (hunique.of_ids hids hid)).move m (h.steps i x hx).linked
    · exact h.balanced_send hlinked hy (hunique.of_ids hids rfl) (by simpa using hne)

lemma logs_send (h : s.Inv run) {owner stream}
    (hlinked : Linked s.streams owner stream) (howner : ∀ k, owner ≠ .step k) (hchunks : ∀ c ∈ chunks, c.streamType = .scheduler)
    (st : Stream) (hst : st ∈ (send owner stream chunks s.streams).2) (hnot : ∀ k, st.owner ≠ .step k) : st.Logs := by
  have hold : (streamAt s.streams owner stream).Logs := by
    cases stream with
    | none => exact ⟨by simp [streamAt], by simp [streamAt]⟩
    | some j =>
      obtain ⟨old, hold, hown⟩ := hlinked j rfl
      rw [streamAt_some hold]
      exact h.logs old (mem_of_getElem? hold) (hown ▸ howner)
  obtain ⟨i, hi⟩ := mem_iff_getElem?.mp hst
  rcases getElem?_send hlinked hi with ⟨hown, -⟩ | hi
  · have hnew := @send_streamAt s.streams owner stream chunks hlinked
    rw [hown, streamAt_some hi] at hnew
    rw [hnew]
    exact ⟨forall_mem_append.mpr ⟨hold.chunks, hchunks⟩, hold.writers⟩
  · exact h.logs st (mem_of_getElem? hi) hnot

lemma logsMove (h : s.Inv run) {x} (m : Moves s.attemptID s.scheduler x chunks) :
    (s.setScheduler x chunks).Inv run := by
  have hlinked : Linked s.streams .scheduler x.stream := by
    rw [m.stream]
    exact h.log
  have htype : x.writer.streamType = s.scheduler.writer.streamType := congrArg LogID.streamType m.id
  exact {h with
    steps := fun k y hy => h.held_send hlinked hy (by simp)
    log := send_linked hlinked
    owned := h.owned_send hlinked rfl (.inr m.stream.symm) (.inr rfl) fun o ho => by
      cases o with
      | step k => rfl
      | scheduler => exact absurd rfl ho
      | resend => rfl
    logs := h.logs_send hlinked (by simp) fun c hc => (m.carries c hc).2.1.trans h.logType
    logType := htype.trans h.logType
    balanced := fun k y hy hunique => h.balanced_send hlinked hy hunique (by simp)}

lemma resend (h : s.Inv run) : {s with
      resent := some s.scheduler.produced
      streams := (send .resend none (streamSchedulerLog s.attemptID s.scheduler.produced) s.streams).2 : State}.Inv run := by
  have hlinked : Linked s.streams .resend none := by simp [Linked]
  exact {h with
    steps := fun k y hy => h.held_send hlinked hy (by simp)
    log := h.log.send_kept hlinked (by simp)
    owned := h.owned_send hlinked rfl (.inl rfl) (.inl rfl) fun _ _ => rfl
    logs := h.logs_send hlinked (by simp) (streamSchedulerLog_scheduler _ _)
    balanced := fun k y hy hunique => h.balanced_send hlinked hy hunique (by simp)}

section
variable {j : ℕ} {owner : Owner} {c : LogChunk} {rest : List LogChunk} {writers : Writers}

lemma receive_files (h : s.Inv run) (hst : s.streams[j]? = some ⟨owner, c::rest, writers⟩) {path}
    (hchange : (handleChunk run s.files writers c).1 path ≠ s.files path) :
    (∃ (k : ℕ) (x : Sender), s.senders[k]? = some x ∧ x.stream = some j ∧ logFilePath run (x.id s.attemptID) = path) ∨
      IsLog path ∧ ∀ k, owner ≠ .step k := by
  by_cases hstep : ∃ k, owner = .step k
  · obtain ⟨k, rfl⟩ := hstep
    obtain ⟨x, hx, hj⟩ := bind_eq_some_iff.mp ((h.owned j _ hst).resolve_left (by simp))
    have honly := (h.steps k x hx).only
    rw [hj, streamAt_some hst] at honly
    refine .inl ⟨k, x, hx, hj, ?_⟩
    by_contra hne
    exact hchange ((handleChunk_only s.files honly).2.1 path (Ne.symm hne))
  · rw [not_exists] at hstep
    refine .inr ⟨?_, hstep⟩
    by_contra hnot
    exact hchange ((handleChunk_logs s.files (h.logs _ (mem_of_getElem? hst) hstep)).2 path hnot)

lemma receive (h : s.Inv run) (hst : s.streams[j]? = some ⟨owner, c::rest, writers⟩) : {s with
      files := (handleChunk run s.files writers c).1
      streams := s.streams.set j ⟨owner, rest, (handleChunk run s.files writers c).2⟩ : State}.Inv run := by
  refine {h with
    steps := fun k x hx => ?_
    log := h.log.set hst rfl
    owned := fun i st hi => ?_
    logs := fun st hmem hnot => ?_
    touched := fun path hpath => ?_
    balanced := fun k x hx hunique => ?_}
  · by_cases hown : x.stream = some j
    · exact (h.steps k x hx).receive hst hown
    refine (h.steps k x hx).congr fun i hi => getElem?_set_ne ?_
    rintro rfl
    exact hown hi
  · rcases getElem?_set_cases hi with ⟨rfl, rfl⟩ | ⟨-, hi⟩
    · exact h.owned i ⟨owner, c::rest, writers⟩ hst
    · exact h.owned i st hi
  · rcases mem_or_eq_of_mem_set hmem with hmem | rfl
    · exact h.logs st hmem hnot
    · exact (handleChunk_logs s.files (h.logs _ (mem_of_getElem? hst) hnot)).1
  · by_cases hchange : (handleChunk run s.files writers c).1 path = s.files path
    · exact h.touched path (hchange ▸ hpath)
    rcases h.receive_files hst hchange with ⟨k, x, hx, -, heq⟩ | ⟨hlog, -⟩
    · exact .inr ⟨x, mem_of_getElem? hx, heq⟩
    · exact .inl hlog
  · have hbalanced := h.balanced k x hx hunique
    by_cases hown : x.stream = some j
    · exact hbalanced.receive (h.steps k x hx) hst hown
    refine hbalanced.congr (fun i hi => getElem?_set_ne ?_) ?_
    · rintro rfl
      exact hown hi
    by_contra hchange
    rcases h.receive_files hst hchange with ⟨i, y, hy, hj, heq⟩ | ⟨hlog, -⟩
    · refine hunique i y hy ?_ heq
      rintro rfl
      rw [hx] at hy
      cases hy
      exact hown hj
    · exact not_isLog_logFilePath (h.kinds x (mem_of_getElem? hx)) hlog

end

lemma open_of_running (h : s.Inv run) {k : ℕ} {x : Sender} (hx : s.senders[k]? = some x) (hrunning : x.ended = false) :
    x.writer.closed = false := by
  by_contra hclosed
  have hended := h.running x (mem_of_getElem? hx) (by simpa using hclosed)
  simp [hrunning] at hended

lemma step {l t} (h : s.Inv run) (hstep : s.step run l = some t) : t.Inv run := by
  cases moved_of_step hstep with
  | attempt hstart => exact h.attempt hstart _
  | @opens _ stderr hstarted hrunning =>
    refine h.opens hstarted hrunning ?_ rfl rfl
    cases stderr <;> simp
  | @sends _ _ x _ _ hx hrunning hmoves hends =>
    exact h.sends hx hrunning (hmoves (h.open_of_running hx hrunning)) hends
  | logs hmoves => exact h.logsMove hmoves
  | resend => exact h.resend
  | returns hended => exact {h with ended := fun _ => hended}
  | receive hst => exact h.receive hst

lemma reach {C : State → Label → Prop} {t} (h : Reach (State.step run) C State.init t) : t.Inv run :=
  h.invariant (P := State.Inv run) (.start run) fun _ _ _ _ hinv _ hstep => hinv.step hstep

end State.Inv

/-! ### Steps -/

def Succeeds (k : ℕ) (_ : State) (l : Label) : Prop := l ≠ .finish k true

instance (k : ℕ) (s : State) (l : Label) : Decidable (Succeeds k s l) := inferInstanceAs (Decidable (l ≠ .finish k true))

lemma closed_of_succeeds {k : ℕ} (h : Reach (step run) (Succeeds k) init s) :
    ∀ x, s.senders[k]? = some x → x.ended → x.writer.closed := by
  refine h.invariant (P := fun s => ∀ x, s.senders[k]? = some x → x.ended → x.writer.closed)
    (by simp) fun a l b _ hinv hsucceeds hstep => ?_
  cases moved_of_step hstep with
  | attempt | logs | resend | returns | receive => exact hinv
  | opens =>
    intro x hx hended
    rcases getElem?_concat_cases hx with hx | ⟨-, rfl⟩
    · exact hinv x hx hended
    · simp at hended
  | sends hhere hrunning hmoves hends hcloses =>
    intro y hy hended
    rcases getElem?_set_cases hy with ⟨rfl, rfl⟩ | ⟨-, hy⟩
    · exact hcloses hended hsucceeds
    · exact hinv y hy hended

lemma Sender.Balanced.complete {x : Sender}
    (h : x.Balanced run s.attemptID s.streams s.files owner) (hheld : x.Held run s.attemptID s.streams owner)
    (hclosed : x.writer.closed) (hdrained : Drained s x) : s.files (logFilePath run (x.id s.attemptID)) = x.produced := by
  obtain ⟨hbuffer, hending⟩ := hheld.ending hclosed
  have hempty : (streamAt s.streams owner x.stream).inFlight = [] := by
    cases hst : x.stream.bind fun j => s.streams[j]? with
    | none => simp [streamAt, hst]
    | some st =>
      simp only [streamAt, hst, getD_some]
      exact hdrained hclosed st hst
  have hleft : (streamAt s.streams owner x.stream).left = [] := by
    rcases hending with ⟨-, hwriters⟩ | ⟨front, c, hinFlight, -⟩
    · simp [Stream.left, hempty, hwriters, buffered, received]
    · simp [hempty] at hinFlight
  rw [Sender.Balanced, hleft, hbuffer, append_nil, append_nil] at h
  exact h

/-! ### The scheduler log -/

/-- No part of the scheduler log is sent before the attempt has its ID, and it is empty when it is sent again. -/
def LogOnce (s : State) : Label → Prop
  | .attempt _ => s.scheduler.stream = none
  | .resend => s.scheduler.produced = []
  | _ => True

instance (s : State) (l : Label) : Decidable (LogOnce s l) := by
  unfold LogOnce
  split <;> infer_instance

structure State.LogInv (run : Run) (s : State) : Prop where
  held : s.scheduler.Held run s.attemptID s.streams .scheduler
  sole : ∀ st ∈ s.streams, st.owner ≠ .resend
  fresh : s.scheduler.stream = none → ∀ path, IsLog path → s.files path = []
  balanced : s.scheduler.Balanced run s.attemptID s.streams s.files .scheduler

namespace State.LogInv
variable {run : Run} {s t : State} {l : Label}

lemma start (run : Run) : init.LogInv run where
  held := ⟨by simp [Linked], ⟨by simp [streamAt], .inl rfl⟩, by simp, by simp⟩
  sole := by simp
  fresh _ _ _ := rfl
  balanced := rfl

lemma attempt (h : s.LogInv run) (hinv : s.Inv run) (hnone : s.scheduler.stream = none) (id : String) :
    {s with attemptID := id : State}.LogInv run where
  held := by
    refine {h.held with only := ?_}
    change (streamAt s.streams .scheduler s.scheduler.stream).Only run _
    rw [hnone]
    exact ⟨by simp [streamAt], .inl rfl⟩
  sole := h.sole
  fresh := h.fresh
  balanced := by
    have hfiles : ∀ attemptID, s.files (logFilePath run (s.scheduler.id attemptID)) = [] := fun attemptID =>
      h.fresh hnone _ (isLog_logFilePath hinv.logType)
    have hbalanced := h.balanced
    unfold Sender.Balanced at hbalanced ⊢
    rw [hfiles] at hbalanced
    rw [← hbalanced]
    change s.files _++_++_ = _
    rw [hfiles]

variable {chunks : List LogChunk}

section
variable (h : s.LogInv run)
include h

lemma sole_send {owner stream} (hlinked : Linked s.streams owner stream)
    (hne : owner ≠ .resend) (st : Stream) (hst : st ∈ (send owner stream chunks s.streams).2) : st.owner ≠ .resend := by
  obtain ⟨i, hi⟩ := mem_iff_getElem?.mp hst
  rcases getElem?_send hlinked hi with ⟨-, rfl⟩ | hi
  · exact hne
  · exact h.sole st (mem_of_getElem? hi)

lemma sends {k} {x : Sender} (hlinked : Linked s.streams (.step k) x.stream) : (s.setSender k x chunks).LogInv run := by
  have hsame : ∀ j, s.scheduler.stream = some j →
      (send (.step k) x.stream chunks s.streams).2[j]? = s.streams[j]? := fun j hj =>
    send_other hlinked h.held.linked (by simp) hj
  exact ⟨h.held.congr hsame, h.sole_send hlinked (by simp), h.fresh, h.balanced.congr hsame rfl⟩

lemma logs {x} (m : Moves s.attemptID s.scheduler x chunks) : (s.setScheduler x chunks).LogInv run := by
  have hlinked : Linked s.streams .scheduler x.stream := by
    rw [m.stream]
    exact h.held.linked
  exact ⟨h.held.move m, h.sole_send hlinked (by simp), fun hnone => h.fresh (m.stream ▸ (send_eq_none hnone).1),
    h.balanced.move m h.held.linked⟩

lemma receive (hinv : s.Inv run) {j : ℕ} {owner c rest writers} (hst : s.streams[j]? = some ⟨owner, c::rest, writers⟩) : {s with
      files := (handleChunk run s.files writers c).1
      streams := s.streams.set j ⟨owner, rest, (handleChunk run s.files writers c).2⟩ : State}.LogInv run := by
  have hsole := h.sole _ (mem_of_getElem? hst)
  -- All other streams are those of steps, and their files are no scheduler logs.
  have hother : s.scheduler.stream ≠ some j → ∀ path, IsLog path → (handleChunk run s.files writers c).1 path = s.files path := by
    intro hne path hlog
    by_contra hchange
    rcases hinv.receive_files hst hchange with ⟨k, x, hx, -, rfl⟩ | ⟨-, hnot⟩
    · exact not_isLog_logFilePath (hinv.kinds x (mem_of_getElem? hx)) hlog
    have howned := (hinv.owned j _ hst).resolve_left hsole
    cases owner with
    | step k => exact hnot k rfl
    | scheduler => exact hne howned
    | resend => exact hsole rfl
  have hnewSole : ∀ st ∈ s.streams.set j ⟨owner, rest, (handleChunk run s.files writers c).2⟩, st.owner ≠ .resend :=
    forall_mem_set h.sole hsole
  by_cases hown : s.scheduler.stream = some j
  · refine ⟨h.held.receive hst hown, hnewSole, fun hnone => ?_, h.balanced.receive h.held hst hown⟩
    rw [hown] at hnone
    cases hnone
  have hsame : ∀ i, s.scheduler.stream = some i →
      (s.streams.set j ⟨owner, rest, (handleChunk run s.files writers c).2⟩)[i]? = s.streams[i]? := by
    intro i hi
    refine getElem?_set_ne ?_
    rintro rfl
    exact hown hi
  refine ⟨h.held.congr hsame, hnewSole, fun hnone path hlog => ?_, h.balanced.congr hsame ?_⟩
  · exact (hother hown path hlog).trans (h.fresh hnone path hlog)
  · exact hother hown _ (isLog_logFilePath hinv.logType)

lemma step (hinv : s.Inv run) (honce : LogOnce s l) (hstep : s.step run l = some t) : t.LogInv run := by
  cases moved_of_step hstep with
  | attempt => exact h.attempt hinv honce _
  | opens | returns => exact {h with}
  | @sends _ k x x' _ hx hrunning hmoves =>
    refine h.sends ?_
    rw [(hmoves (hinv.open_of_running hx hrunning)).stream]
    exact (hinv.steps k x hx).linked
  | logs hmoves => exact h.logs hmoves
  | resend =>
    have hempty : s.scheduler.produced = [] := honce
    have hstreams : (send .resend none (streamSchedulerLog s.attemptID s.scheduler.produced) s.streams).2 = s.streams := by
      simp [hempty, streamSchedulerLog, send]
    rw [hstreams]
    exact {h with}
  | receive hst => exact h.receive hinv hst

end

lemma reach (h : Reach (State.step run) LogOnce State.init s) : s.LogInv run :=
  h.invariant (P := State.LogInv run) (.start run) fun _ _ _ hreach hlog honce hstep =>
    hlog.step (State.Inv.reach hreach) honce hstep

end State.LogInv

/-! ### The files at the end -/

namespace State

/-- The coordinator's file has what a step has written, if the step ends without an error and no other step of the run has
the same file. It has the scheduler log, if that is not sent twice. -/
theorem logs_complete {run : Run} {s : State} (hfinished : s.Finished) :
    (∀ (k : ℕ) (x : Sender), Reach (State.step run) (Succeeds k) init s → s.senders[k]? = some x → s.Unique run k x →
      s.files (logFilePath run (x.id s.attemptID)) = x.produced) ∧ (Reach (State.step run) LogOnce init s →
      s.files (logFilePath run (s.scheduler.id s.attemptID)) = s.scheduler.produced) := by
  refine ⟨fun k x h hx hunique => ?_, fun h => ?_⟩
  · have hinv := Inv.reach h
    have hmem := mem_of_getElem? hx
    have hclosed := closed_of_succeeds h x hx (hinv.ended hfinished.returned x hmem)
    exact (hinv.balanced k x hx hunique).complete (hinv.steps k x hx) hclosed (hfinished.steps x hmem)
  · have hlog := LogInv.reach h
    exact hlog.balanced.complete hlog.held hfinished.closed hfinished.scheduler

def sampleRun : Run := ⟨"deploy", "run-1", "", ""⟩

def sampleSchedule (first second : String) (failed : Bool) : List (Label × ℕ) :=
  [(.log [108], 1), (.attempt "attempt-1", 1), (.openStep first false, 1), (.openStep second false, 1), (.write 0 [97], 1),
    (.write 1 [98], 1), (.finish 0 failed, 1), (.finish 1 false, 1), (.returns, 1), (.closeLog, 1), (.receive 0, 2),
    (.receive 1, 2), (.receive 2, 2)]

def firstSender (s : State) : Sender := (s.senders[0]?).getD s.scheduler

lemma unique_firstSender (s : State) (hlength : s.senders.length = 2)
    (hsecond : ∀ y ∈ s.senders[1]?, logFilePath sampleRun (y.id s.attemptID) ≠
      logFilePath sampleRun (s.firstSender.id s.attemptID)) : s.Unique sampleRun 0 s.firstSender := by
  intro i y hy hne
  have hi := lt_of_getElem? hy
  obtain rfl : i = 1 := by omega
  exact hsecond y hy

def streamedRun : State :=
  follow (step sampleRun) (fun s l => decide (Succeeds 0 s l ∧ LogOnce s l)) init (sampleSchedule "build" "test" false)

theorem logs_complete_streamed : streamedRun.files ["deploy", "run-1", "attempt-1", "build.stdout.log"] = [97] ∧
      streamedRun.files ["deploy", "run-1", "attempt-1", "scheduler.log"] = [108] := by
  have hreach : Reach (step sampleRun) (fun s l => Succeeds 0 s l ∧ LogOnce s l) init streamedRun := reach_checked _ _
  have hfinished : streamedRun.Finished := by decide +kernel
  have hunique := unique_firstSender streamedRun (by decide +kernel) (by decide +kernel)
  obtain ⟨hsteps, hlog⟩ := @logs_complete sampleRun streamedRun hfinished
  have hstep := hsteps 0 streamedRun.firstSender (hreach.mono fun _ _ _ h => h.1) (by decide +kernel) hunique
  have hlog := hlog (hreach.mono fun _ _ _ h => h.2)
  have hpath : logFilePath sampleRun (streamedRun.firstSender.id streamedRun.attemptID) =
      ["deploy", "run-1", "attempt-1", "build.stdout.log"] := by decide +kernel
  have hlogPath : logFilePath sampleRun (streamedRun.scheduler.id streamedRun.attemptID) =
      ["deploy", "run-1", "attempt-1", "scheduler.log"] := by decide +kernel
  have hproduced : streamedRun.firstSender.produced = [97] ∧ streamedRun.scheduler.produced = [108] := by decide +kernel
  rw [hpath, hproduced.1] at hstep
  rw [hlogPath, hproduced.2] at hlog
  exact ⟨hstep, hlog⟩

def sharedRun : State :=
  follow (step sampleRun) (fun s l => decide (Succeeds 0 s l)) init (sampleSchedule "a.b" "a_b" false)

def failedRun : State := play (step sampleRun) init (sampleSchedule "build" "test" true)

def resentRun : State :=
  play (step sampleRun) init
    [(.log [108], 1), (.attempt "attempt-1", 1), (.resend, 1), (.returns, 1), (.closeLog, 1), (.receive 0, 2), (.receive 1, 2)]

/-- A file may have the output of two steps, or nothing of the output of a step that failed, and the scheduler log twice. -/
theorem logs_incomplete :
    (¬ ∀ s, Reach (step sampleRun) (Succeeds 0) init s → s.Finished → ∀ x, s.senders[0]? = some x →
      s.files (logFilePath sampleRun (x.id s.attemptID)) = x.produced) ∧
    (¬ ∀ s, Reach (step sampleRun) always init s → s.Finished → ∀ x, s.senders[0]? = some x → s.Unique sampleRun 0 x →
      s.files (logFilePath sampleRun (x.id s.attemptID)) = x.produced) ∧
    (¬ ∀ s, Reach (step sampleRun) always init s → s.Finished →
      s.files (logFilePath sampleRun (s.scheduler.id s.attemptID)) = s.scheduler.produced) := by
  refine ⟨fun h => ?_, fun h => ?_, fun h => ?_⟩
  · have hfile := h sharedRun (reach_checked _ _) (by decide +kernel) sharedRun.firstSender
      (by decide +kernel)
    exact absurd hfile (by decide +kernel)
  · have hunique := unique_firstSender failedRun (by decide +kernel) (by decide +kernel)
    have hfile := h failedRun (reach_play _ _) (by decide +kernel) failedRun.firstSender (by decide +kernel) hunique
    exact absurd hfile (by decide +kernel)
  · have hfile := h resentRun (reach_play _ _) (by decide +kernel)
    exact absurd hfile (by decide +kernel)

end State
end Ayatsuri.RemoteLogs
