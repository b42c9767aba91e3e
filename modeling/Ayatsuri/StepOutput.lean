import Ayatsuri.BufferedWriter
import Ayatsuri.LogStreamer

/-! The output of a step (`internal/runtime/output.go`, `writer.go`). Each stream goes to the log of the step, which
is a file or a stream to the coordinator, and to the file it is redirected to. Files are written through a buffered
writer and, if the step has secrets, a masking writer below it. -/
namespace Ayatsuri.StepOutput
open Masking LogStreamer List Option BufferedWriter

/-- The default size of `bufio`. -/
def bufferSize : ℕ := 4096

/-- What a buffered writer writes to: a file, or a masking writer over one, with the number of its `Write` calls. -/
inductive Inner
  | file (received : Bytes)
  | masking (w : MaskingWriter) (calls : ℕ)

namespace Inner

/-- One `Write`. A masking writer lists its secrets anew in each call. -/
def write (orders : ℕ → List Bytes) (inner : Inner) (p : Bytes) : Inner :=
  match inner with
  | .file received => .file (received++p)
  | .masking w calls => .masking (w.write (orders calls) p) (calls+1)

def received : Inner → Bytes
  | .file received => received
  | .masking w _ => w.written

end Inner

/-- `safeBufferedWriter`, or the writer of a `LogWriterFactory` with the chunks it has sent. -/
inductive Writer
  | buffered (buffer : Bytes) (inner : Inner)
  | remote (w : LogWriter) (sent : List LogChunk)

namespace Writer
variable (orders : ℕ → List Bytes) (attemptID : String)

def write (p : Bytes) : Writer → Writer
  | .buffered buffer inner =>
    let step := BufferedWriter.write bufferSize buffer p
    .buffered step.2 (step.1.foldl (Inner.write orders) inner)
  | .remote w sent =>
    match w.write attemptID p with
    | none => .remote w sent
    | some (w, chunks) => .remote w (sent++chunks)

/-- What `flushWriters` does: a remote writer has neither `Flush` nor `Sync`. -/
def flush : Writer → Writer
  | .buffered buffer inner => .buffered [] ((BufferedWriter.flush buffer).foldl (Inner.write orders) inner)
  | .remote w sent => .remote w sent

/-- What `closeResources` does: a `safeBufferedWriter` has no `Close`. -/
def close : Writer → Writer
  | .buffered buffer inner => .buffered buffer inner
  | .remote w sent => .remote (w.close attemptID).1 (sent++(w.close attemptID).2)

def received : Writer → Bytes
  | .buffered _ inner => inner.received
  | .remote _ sent => LogStreamer.received sent

end Writer

/-- The writers of an `OutputCoordinator`. -/
inductive Slot
  | stdout | stderr | stdoutRedirect | stderrRedirect
  deriving DecidableEq

inductive Stream
  | stdout | stderr
  deriving DecidableEq

structure Config where
  (stepName attemptID : String)
  (remote merged : Bool)
  redirect : Stream → Bool

structure OutputCoordinator where
  writers : Slot → Option Writer
  closed : Bool

/-- `setupMasker`. -/
def setupMasker (secrets : List Bytes) : Option Masker := if secrets = [] then none else some (newMasker secrets)

variable (masker : Option Masker)

def newInner : Inner :=
  match masker with
  | none => .file []
  | some m => .masking ⟨some m, [], []⟩ 0

namespace Config
variable (cfg : Config)

def logSlot : Stream → Slot
  | .stdout => .stdout
  | .stderr => if cfg.merged then .stdout else .stderr

def redirectSlot : Stream → Slot
  | .stdout => .stdoutRedirect
  | .stderr => .stderrRedirect

/-- The writers that `setupExecutorIO` joins for a stream. -/
def destinations (stream : Stream) : List Slot :=
  cfg.logSlot stream::if cfg.redirect stream then [redirectSlot stream] else []

/-- The writers that `flushWriters` and `closeResources` go through. -/
def slots : List Slot := [.stdout, cfg.logSlot .stderr, .stdoutRedirect, .stderrRedirect]

def newLogWriter (masker : Option Masker) (streamType : StreamType) : Writer :=
  if cfg.remote then .remote {stepName := cfg.stepName, streamType := streamType} [] else .buffered [] (newInner masker)

/-- `setup`. -/
def setup (masker : Option Masker) : OutputCoordinator where
  writers
    | .stdout => some (cfg.newLogWriter masker .stdout)
    | .stderr => if cfg.merged then none else some (cfg.newLogWriter masker .stderr)
    | .stdoutRedirect => if cfg.redirect .stdout then some (.buffered [] (newInner masker)) else none
    | .stderrRedirect => if cfg.redirect .stderr then some (.buffered [] (newInner masker)) else none
  closed := false

end Config

namespace OutputCoordinator

def update (oc : OutputCoordinator) (slot : Slot) (f : Writer → Writer) : OutputCoordinator :=
  {oc with writers := Function.update oc.writers slot ((oc.writers slot).map f)}

variable (cfg : Config) (orders : Slot → ℕ → List Bytes) (oc : OutputCoordinator)

/-- One `Write` to the writer that the executor was given for the stream. -/
def write (stream : Stream) (p : Bytes) : OutputCoordinator :=
  (cfg.destinations stream).foldl (fun oc slot => oc.update slot (Writer.write (orders slot) cfg.attemptID p)) oc

def flushWriters : OutputCoordinator :=
  if oc.closed then oc else cfg.slots.foldl (fun oc slot => oc.update slot (Writer.flush (orders slot))) oc

def closeResources : OutputCoordinator :=
  let flushed := oc.flushWriters cfg orders
  if flushed.closed then flushed
  else {cfg.slots.dedup.foldl (fun oc slot => oc.update slot (Writer.close cfg.attemptID)) flushed with closed := true}

end OutputCoordinator

/-- What happens between `setup` and `closeResources`: a `Write` of the stream, or a flush by the ticker. -/
inductive Event
  | write (p : Bytes)
  | flush
  deriving DecidableEq

@[simp] def Event.data : Event → Bytes
  | .write p => p
  | .flush => []

namespace OutputCoordinator
variable (cfg : Config) (orders : Slot → ℕ → List Bytes) (stream : Stream)

def event (oc : OutputCoordinator) : Event → OutputCoordinator
  | .write p => oc.write cfg orders stream p
  | .flush => oc.flushWriters cfg orders

def run (masker : Option Masker) (events : List Event) : OutputCoordinator :=
  (events.foldl (event cfg orders stream) (cfg.setup masker)).closeResources cfg orders

end OutputCoordinator

variable (order : List Bytes)

def Listed : Prop := ∀ m ∈ masker, order.Perm m.sensitiveVals

def maskText (text : Bytes) : Bytes :=
  match masker with
  | none => text
  | some _ => maskString order text

variable (cfg : Config) (stream : Stream)

/-- However the output is cut, and in whichever orders the secrets are listed, each destination of the stream has
received the masked output. -/
def Faithful (secrets : List Bytes) (text : Bytes) : Prop :=
  ∀ events : List Event, events.flatMap Event.data = text →
    ∀ (orders : Slot → ℕ → List Bytes) (whole : List Bytes), (∀ slot i, Listed (setupMasker secrets) (orders slot i)) →
      Listed (setupMasker secrets) whole → ∀ slot ∈ cfg.destinations stream,
        ((OutputCoordinator.run cfg orders stream (setupMasker secrets) events).writers slot).map Writer.received =
          some (maskText (setupMasker secrets) whole text)

open Writer

/-! ### One writer -/

namespace Writer
variable {orders : ℕ → List Bytes} {attemptID : String}

lemma flush_flush (w : Writer) : (w.flush orders).flush orders = w.flush orders := by
  cases w with
  | buffered buffer inner => rfl
  | remote w sent => rfl

def event (orders : ℕ → List Bytes) (attemptID : String) (w : Writer) : Event → Writer
  | .write p => w.write orders attemptID p
  | .flush => w.flush orders

def finish (orders : ℕ → List Bytes) (attemptID : String) (events : List Event) (w : Writer) : Writer :=
  ((events.foldl (event orders attemptID) w).flush orders).close attemptID

lemma foldl_event_buffered (orders : ℕ → List Bytes) (attemptID : String) (events : List Event) (inner : Inner) :
    ∃ (parts : List Bytes) (buffer : Bytes), events.foldl (event orders attemptID) (.buffered [] inner) =
      .buffered buffer (parts.foldl (Inner.write orders) inner) ∧ parts.flatten++buffer = events.flatMap Event.data := by
  induction events using reverseRecOn with
  | nil => exact ⟨[], [], rfl, rfl⟩
  | append_singleton events e ih =>
    obtain ⟨parts, buffer, hfold, htext⟩ := ih
    rw [foldl_append, hfold, flatMap_append, ← htext]
    cases e with
    | write p =>
      refine ⟨parts++(BufferedWriter.write bufferSize buffer p).1, (BufferedWriter.write bufferSize buffer p).2, ?_, ?_⟩
      · rw [foldl_append]
        rfl
      · rw [flatten_append, append_assoc, write_flatten]
        simp
    | flush =>
      refine ⟨parts++BufferedWriter.flush buffer, [], ?_, ?_⟩
      · rw [foldl_append]
        rfl
      · rw [flatten_append, flush_flatten]
        simp

lemma finish_buffered (orders : ℕ → List Bytes) (attemptID : String) (events : List Event) (inner : Inner) :
    ∃ parts : List Bytes, parts.flatten = events.flatMap Event.data ∧
      (finish orders attemptID events (.buffered [] inner)).received = (parts.foldl (Inner.write orders) inner).received := by
  obtain ⟨parts, buffer, hfold, htext⟩ := foldl_event_buffered orders attemptID events inner
  refine ⟨parts++BufferedWriter.flush buffer, ?_, ?_⟩
  · rw [flatten_append, flush_flatten, htext]
  · rw [finish, hfold, foldl_append]
    rfl

variable {w : LogWriter}

lemma foldl_event_remote (orders : ℕ → List Bytes) (attemptID : String) (events : List Event)
    (hbuffer : w.buffer = []) (hclosed : w.closed = false) :
    ∃ w' sent, events.foldl (event orders attemptID) (.remote w []) = .remote w' sent ∧ w'.closed = false ∧
      LogStreamer.received sent++w'.buffer = events.flatMap Event.data := by
  induction events using reverseRecOn with
  | nil => exact ⟨w, [], rfl, hclosed, by simp [hbuffer, LogStreamer.received]⟩
  | append_singleton events e ih =>
    obtain ⟨w', sent, hfold, hopen, htext⟩ := ih
    rw [foldl_append, hfold, flatMap_append, ← htext]
    cases e with
    | write p =>
      obtain ⟨⟨w'', chunks⟩, hwrite⟩ := LogWriter.exists_write hopen attemptID p
      refine ⟨w'', sent++chunks, ?_, (LogWriter.write_closed hwrite).trans hopen, ?_⟩
      · simp [event, write, hwrite]
      · rw [received_append, append_assoc, LogWriter.write_received hwrite]
        simp
    | flush => exact ⟨w', sent, rfl, hopen, by simp⟩

lemma finish_remote (events : List Event) (hbuffer : w.buffer = []) (hclosed : w.closed = false) :
    (finish orders attemptID events (.remote w [])).received = events.flatMap Event.data := by
  obtain ⟨w', sent, hfold, hopen, htext⟩ := foldl_event_remote orders attemptID events hbuffer hclosed
  rw [finish, hfold, ← htext]
  simp only [flush, close, received]
  rw [received_append, (w'.close_received attemptID hopen).1]

end Writer

namespace Inner
variable {orders : ℕ → List Bytes} {m : Masker}

lemma foldl_file (parts : List Bytes) (received : Bytes) :
    (parts.foldl (write orders) (.file received)).received = received++parts.flatten := by
  induction parts generalizing received with
  | nil => simp [Inner.received]
  | cons p parts ih =>
    rw [foldl_cons, flatten_cons, ← append_assoc]
    exact ih _

lemma foldl_masking (hm : m.Safe) (horders : ∀ i, (orders i).Perm m.sensitiveVals) {whole}
    (hwhole : whole.Perm m.sensitiveVals) (parts : List Bytes) :
    ∃ complete rest, parts.flatten = complete++rest ∧ newline ∉ rest ∧
      (complete = [] ∨ complete.getLast? = some newline) ∧
      (parts.foldl (write orders) (newInner (some m))).received = maskString whole complete := by
  have hinv : ∃ w calls, parts.foldl (write orders) (newInner (some m)) = .masking w calls ∧
      w.Inv m whole parts.flatten ∧ newline ∉ w.buffer := by
    induction parts using reverseRecOn with
    | nil => exact ⟨_, 0, rfl, ⟨rfl, [], rfl, (maskString_nil whole).symm, .inl rfl⟩, by simp⟩
    | append_singleton parts p ih =>
      obtain ⟨w, calls, hfold, hinv, -⟩ := ih
      refine ⟨w.write (orders calls) p, calls+1, ?_, ?_, MaskingWriter.newline_notMem_write hinv.masker p⟩
      · rw [foldl_append, hfold]
        rfl
      rw [flatten_append, flatten_singleton]
      have hcall : ∀ input, maskString (orders calls, p).1 input = maskString whole input :=
        hm.maskString_eq (horders calls) hwhole
      exact hinv.write hm.toLineSafe hwhole hcall
  obtain ⟨w, calls, hfold, hinv, hbuffer⟩ := hinv
  obtain ⟨complete, htext, hwritten, hcomplete⟩ := hinv.lines
  exact ⟨complete, w.buffer, htext, hbuffer, hcomplete, by rw [hfold]; exact hwritten⟩

end Inner

open Config

/-! ### All writers of a step -/

namespace OutputCoordinator
variable {cfg : Config} {orders : Slot → ℕ → List Bytes} {stream : Stream} {oc : OutputCoordinator}

lemma writers_update (oc : OutputCoordinator) (slot slot' : Slot) (f : Writer → Writer) :
    (oc.update slot f).writers slot' = if slot' = slot then (oc.writers slot').map f else oc.writers slot' := by
  unfold update
  split_ifs with heq
  · rw [heq]
    exact Function.update_self ..
  · exact Function.update_of_ne heq ..

variable (f : Slot → Writer → Writer)

lemma writers_foldl_update {l : List Slot}
    (h : l.Nodup ∨ ∀ slot w, f slot (f slot w) = f slot w) (oc : OutputCoordinator) (slot : Slot) :
    (l.foldl (fun oc slot => oc.update slot (f slot)) oc).writers slot =
      if slot ∈ l then (oc.writers slot).map (f slot) else oc.writers slot := by
  induction l generalizing oc with
  | nil => rfl
  | cons first l ih =>
    rw [foldl_cons, ih (h.imp List.Nodup.of_cons id), writers_update]
    by_cases heq : slot = first
    · subst heq
      rw [if_pos rfl, if_pos mem_cons_self]
      split_ifs with hmem
      · rcases h with hnodup | hidem
        · exact absurd hmem (nodup_cons.mp hnodup).1
        · rw [Option.map_map]
          exact congrArg (fun g => (oc.writers slot).map g) (funext fun w => hidem slot w)
      · rfl
    · rw [if_neg heq]
      simp [heq]

lemma closed_foldl_update (l : List Slot) (oc : OutputCoordinator) :
    (l.foldl (fun oc slot => oc.update slot (f slot)) oc).closed = oc.closed := by
  induction l generalizing oc with
  | nil => rfl
  | cons first l ih => exact ih _

lemma nodup_destinations (cfg : Config) (stream : Stream) : (cfg.destinations stream).Nodup := by
  have hne : cfg.logSlot stream ≠ redirectSlot stream := by
    cases stream with
    | stdout => simp [logSlot, redirectSlot]
    | stderr =>
      simp only [logSlot, redirectSlot]
      split_ifs <;> simp
  unfold destinations
  split_ifs
  · simp [hne]
  · simp

variable {slot : Slot}

lemma mem_slots (h : slot ∈ cfg.destinations stream) : slot ∈ cfg.slots := by
  have hlog : cfg.logSlot stream ∈ cfg.slots := by cases stream <;> simp [slots, logSlot]
  have hredirect : redirectSlot stream ∈ cfg.slots := by cases stream <;> simp [slots, redirectSlot]
  rcases mem_cons.mp h with rfl | hrest
  · exact hlog
  split_ifs at hrest
  · obtain rfl := mem_singleton.mp hrest
    exact hredirect
  · cases hrest

lemma writers_flushWriters (hopen : oc.closed = false) (hslot : slot ∈ cfg.slots) :
    (oc.flushWriters cfg orders).writers slot = (oc.writers slot).map (Writer.flush (orders slot)) := by
  rw [flushWriters, if_neg (by simp [hopen]),
    writers_foldl_update (fun slot => flush (orders slot)) (.inr fun slot w => w.flush_flush), if_pos hslot]

lemma closed_flushWriters (hopen : oc.closed = false) : (oc.flushWriters cfg orders).closed = false := by
  rw [flushWriters, if_neg (by simp [hopen]), closed_foldl_update (fun slot => flush (orders slot)), hopen]

lemma event_spec (cfg : Config) (orders : Slot → ℕ → List Bytes) (stream : Stream) (hopen : oc.closed = false) (e : Event) :
    (oc.event cfg orders stream e).closed = false ∧ ∀ slot ∈ cfg.destinations stream,
      (oc.event cfg orders stream e).writers slot =
        (oc.writers slot).map fun w => w.event (orders slot) cfg.attemptID e := by
  cases e with
  | write p =>
    refine ⟨(closed_foldl_update _ _ _).trans hopen, fun slot hslot => ?_⟩
    exact (writers_foldl_update (fun slot => Writer.write (orders slot) cfg.attemptID p)
      (.inl (nodup_destinations cfg stream)) oc slot).trans (if_pos hslot)
  | flush => exact ⟨closed_flushWriters hopen, fun slot hslot => writers_flushWriters hopen (mem_slots hslot)⟩

lemma events_spec (cfg : Config) (orders : Slot → ℕ → List Bytes) (stream : Stream)
    (hopen : oc.closed = false) (events : List Event) :
    (events.foldl (event cfg orders stream) oc).closed = false ∧ ∀ slot ∈ cfg.destinations stream,
      (events.foldl (event cfg orders stream) oc).writers slot =
        (oc.writers slot).map fun w => events.foldl (Writer.event (orders slot) cfg.attemptID) w := by
  induction events generalizing oc with
  | nil => exact ⟨hopen, fun slot _ => by simp⟩
  | cons e events ih =>
    obtain ⟨hopen', hwriters⟩ := event_spec cfg orders stream hopen e
    obtain ⟨hclosed, hrest⟩ := ih hopen'
    refine ⟨hclosed, fun slot hslot => ?_⟩
    rw [foldl_cons, hrest slot hslot, hwriters slot hslot, Option.map_map]
    rfl

lemma writers_run (masker : Option Masker) (events : List Event) (hslot : slot ∈ cfg.destinations stream) :
    (run cfg orders stream masker events).writers slot =
      ((cfg.setup masker).writers slot).map (Writer.finish (orders slot) cfg.attemptID events) := by
  obtain ⟨hopen, hwriters⟩ := events_spec cfg orders stream (show (cfg.setup masker).closed = false from rfl) events
  have hmem : slot ∈ cfg.slots := mem_slots hslot
  dsimp only [run, closeResources]
  rw [if_neg (by simp [closed_flushWriters hopen]), writers_foldl_update (fun _ => close cfg.attemptID)
    (.inl (nodup_dedup _)), if_pos (mem_dedup.mpr hmem), writers_flushWriters hopen hmem, hwriters slot hslot,
    Option.map_map, Option.map_map]
  rfl

end OutputCoordinator

/-! ### The kinds of destinations -/

variable (attemptID : String)

def FileFaithful (masker : Option Masker) (text : Bytes) : Prop :=
  ∀ events : List Event, events.flatMap Event.data = text → ∀ (orders : ℕ → List Bytes) (whole : List Bytes),
    (∀ i, Listed masker (orders i)) → Listed masker whole →
      (Writer.finish orders attemptID events (.buffered [] (newInner masker))).received = maskText masker whole text

def Unmasked (text : Bytes) : Prop := ∀ whole, Listed masker whole → text = maskText masker whole text

lemma Config.setup_logSlot (masker : Option Masker) (stream : Stream) :
    ∃ streamType, (cfg.setup masker).writers (cfg.logSlot stream) = some (cfg.newLogWriter masker streamType) := by
  cases stream with
  | stdout => exact ⟨.stdout, rfl⟩
  | stderr =>
    unfold logSlot
    split_ifs with hmerged
    · exact ⟨.stdout, rfl⟩
    · exact ⟨.stderr, by simp [setup, hmerged]⟩

lemma Config.setup_redirectSlot {cfg : Config} {stream} (masker : Option Masker) (h : cfg.redirect stream) :
    (cfg.setup masker).writers (redirectSlot stream) = some (.buffered [] (newInner masker)) := by
  cases stream <;> simp [setup, redirectSlot, h]

open OutputCoordinator

lemma faithful_iff (secrets : List Bytes) (text : Bytes) : Faithful cfg stream secrets text ↔
      (cfg.remote = false ∨ cfg.redirect stream → FileFaithful cfg.attemptID (setupMasker secrets) text) ∧
        (cfg.remote → Unmasked (setupMasker secrets) text) := by
  obtain ⟨streamType, hlog⟩ := cfg.setup_logSlot (setupMasker secrets) stream
  have hlogMem : cfg.logSlot stream ∈ cfg.destinations stream := mem_cons_self
  constructor
  · intro h
    refine ⟨fun hfile events hevents orders whole horders hwhole => ?_, fun hremote whole hwhole => ?_⟩
    · have hslots := h events hevents (fun _ => orders) whole (fun _ => horders) hwhole
      rcases hfile with hlocal | hredirect
      · have hreceived := hslots _ hlogMem
        rw [writers_run _ _ hlogMem, hlog, newLogWriter, hlocal] at hreceived
        exact some_inj.mp hreceived
      have hmem : redirectSlot stream ∈ cfg.destinations stream := by simp [destinations, hredirect]
      have hreceived := hslots _ hmem
      rw [writers_run _ _ hmem, setup_redirectSlot _ hredirect] at hreceived
      exact some_inj.mp hreceived
    · have hreceived := h [.write text] (by simp) (fun _ _ => whole) whole (fun _ _ => hwhole) hwhole _ hlogMem
      rw [writers_run _ _ hlogMem, hlog, newLogWriter, if_pos hremote] at hreceived
      have htext := some_inj.mp hreceived
      rw [finish_remote _ rfl rfl] at htext
      simpa using htext
  · rintro ⟨hfile, hremote⟩ events hevents orders whole horders hwhole slot hslot
    rw [writers_run _ _ hslot]
    rcases mem_cons.mp hslot with rfl | hrest
    · rw [hlog, newLogWriter]
      split_ifs with hr
      · rw [map_some, map_some, finish_remote _ rfl rfl, hevents, ← hremote hr whole hwhole]
      · exact congrArg some (hfile (.inl (by simpa using hr)) events hevents _ whole (horders _) hwhole)
    split_ifs at hrest with hredirect
    · obtain rfl := mem_singleton.mp hrest
      rw [setup_redirectSlot _ hredirect]
      exact congrArg some (hfile (.inr hredirect) events hevents _ whole (horders _) hwhole)
    · cases hrest

lemma fileFaithful_none (text : Bytes) : FileFaithful attemptID none text := by
  intro events hevents orders whole _ _
  obtain ⟨parts, hparts, hreceived⟩ := finish_buffered orders attemptID events (newInner none)
  rw [hreceived, ← hevents, ← hparts]
  exact Inner.foldl_file parts []

variable {m : Masker}

lemma fileFaithful_iff (hm : m.Safe) (attemptID : String) (text : Bytes) :
    FileFaithful attemptID (some m) text ↔ text = [] ∨ text.getLast? = some newline := by
  have hlisted : Listed (some m) m.sensitiveVals := by simp [Listed]
  constructor
  · intro h
    have hevents : [Event.write text].flatMap Event.data = text := by simp
    have hreceived := h _ hevents (fun _ => m.sensitiveVals) m.sensitiveVals (fun _ => hlisted) hlisted
    obtain ⟨parts, hparts, hinner⟩ :=
      finish_buffered (fun _ => m.sensitiveVals) attemptID [.write text] (newInner (some m))
    obtain ⟨complete, rest, htext, -, hcomplete, hmasked⟩ :=
      Inner.foldl_masking hm (fun _ => List.Perm.refl _) (List.Perm.refl m.sensitiveVals) parts
    rw [hparts, hevents] at htext
    rw [hinner, hmasked, htext] at hreceived
    have hsplit := hm.toLineSafe.maskString_append_of (List.Perm.refl _) hcomplete rest
    have hrest : rest = [] := by
      by_contra hne
      have hnil : maskString m.sensitiveVals rest = [] := by
        have heq : maskString m.sensitiveVals complete = maskString m.sensitiveVals complete++maskString m.sensitiveVals rest :=
          hreceived.trans hsplit
        exact self_eq_append_right.mp heq
      exact maskString_ne_nil (List.Perm.refl _) hne hnil
    rw [htext, hrest, append_nil]
    exact hcomplete
  · intro hends events hevents orders whole horders hwhole
    obtain ⟨parts, hparts, hinner⟩ := finish_buffered orders attemptID events (newInner (some m))
    obtain ⟨complete, rest, htext, hrest, -, hmasked⟩ :=
      Inner.foldl_masking hm (fun i => horders i m rfl) (hwhole m rfl) parts
    rw [hinner, hmasked]
    rw [hparts, hevents] at htext
    have hnil : rest = [] := by
      by_contra hne
      rcases hends with hempty | hlast
      · rw [hempty] at htext
        exact hne (append_eq_nil_iff.mp htext.symm).2
      · rw [htext, getLast?_append_of_ne_nil _ hne, getLast?_eq_some_getLast hne, some.injEq] at hlast
        exact hrest (hlast ▸ getLast_mem hne)
    rw [htext, hnil, append_nil]
    rfl

lemma not_fileFaithful (m : Masker) (attemptID : String) : ¬ FileFaithful attemptID (some m) [0] := by
  intro h
  have hlisted : Listed (some m) m.sensitiveVals := by simp [Listed]
  have hreceived := h [.write [0]] rfl (fun _ => m.sensitiveVals) m.sensitiveVals (fun _ => hlisted) hlisted
  exact maskString_ne_nil (List.Perm.refl _) (cons_ne_nil _ _) hreceived.symm

lemma unmasked_iff {text} (hstars : ∀ v ∈ m.sensitiveVals, star ∉ v) :
    Unmasked (some m) text ↔ ∀ v ∈ m.sensitiveVals, ¬ v <:+: text := by
  constructor
  · intro h
    exact (maskString_eq_self_iff (List.Perm.refl _) hstars text).mp (h m.sensitiveVals (by simp [Listed])).symm
  · intro hnone whole hwhole
    exact ((maskString_eq_self_iff (hwhole m rfl) hstars text).mpr hnone).symm

lemma forall_unmasked_iff : (∀ text, Unmasked (some m) text) ↔ ∀ v ∈ m.sensitiveVals, v = defaultMaskString := by
  constructor
  · intro h
    exact (maskString_eq_id_iff (List.Perm.refl _)).mp fun text => (h text m.sensitiveVals (by simp [Listed])).symm
  · intro hmasks text whole hwhole
    exact ((maskString_eq_id_iff (hwhole m rfl)).mpr hmasks text).symm

/-- The guarantee holds of all outputs of steps without secrets, and otherwise only where it is empty: for streams
that go to the coordinator alone, with secrets that are the mask itself. Of a step with safe secrets it holds for the
outputs that end with a line, as far as files are concerned, and for those without a secret as far as the
coordinator is. -/
theorem step_log_faithful (cfg : Config) (stream : Stream) (secrets : List Bytes) :
    ((∀ text, Faithful cfg stream secrets text) ↔ secrets = [] ∨ cfg.remote ∧ cfg.redirect stream = false ∧
      ∀ v ∈ (newMasker secrets).sensitiveVals, v = defaultMaskString) ∧
    (secrets ≠ [] → (newMasker secrets).Safe → (∀ v ∈ (newMasker secrets).sensitiveVals, star ∉ v) →
      ∀ text, Faithful cfg stream secrets text ↔
        (cfg.remote = false ∨ cfg.redirect stream → text = [] ∨ text.getLast? = some newline) ∧
        (cfg.remote → ∀ v ∈ (newMasker secrets).sensitiveVals, ¬ v <:+: text)) := by
  constructor
  · by_cases hsecrets : secrets = []
    · simp only [hsecrets, true_or, iff_true]
      intro text
      rw [faithful_iff]
      exact ⟨fun _ => fileFaithful_none _ _, fun _ _ _ => rfl⟩
    have hmasker : setupMasker secrets = some (newMasker secrets) := if_neg hsecrets
    simp only [faithful_iff, hmasker, hsecrets, false_or]
    constructor
    · intro h
      have hremote : ¬ (cfg.remote = false ∨ cfg.redirect stream) := fun hfile => not_fileFaithful _ _ ((h [0]).1 hfile)
      simp only [not_or, Bool.not_eq_false, Bool.not_eq_true] at hremote
      exact ⟨hremote.1, hremote.2, forall_unmasked_iff.mp fun text => (h text).2 hremote.1⟩
    · rintro ⟨hremote, hredirect, hmasks⟩ text
      exact ⟨by simp [hremote, hredirect], fun _ => forall_unmasked_iff.mpr hmasks text⟩
  · intro hsecrets hsafe hstars text
    have hmasker : setupMasker secrets = some (newMasker secrets) := if_neg hsecrets
    rw [faithful_iff, hmasker, fileFaithful_iff hsafe, unmasked_iff hstars]

namespace Example

/-- The environment of a step with the secret `abc`. -/
def secrets : List Bytes := [[75, 61, 97, 98, 99]]

def config (remote : Bool) : Config where
  stepName := "step"
  attemptID := "a1"
  remote := remote
  merged := false
  redirect _ := false

lemma sensitiveVals_eq : (newMasker secrets).sensitiveVals = [[97, 98, 99]] := by decide +kernel

lemma safe : (newMasker secrets).Safe := by
  refine ⟨⟨?_, ?_⟩, ?_⟩
  · rw [sensitiveVals_eq]
    decide
  · rw [sensitiveVals_eq]
    decide
  · rw [sensitiveVals_eq]
    simp

end Example

open Example in
theorem step_log_faithful_line :
    Faithful (config false) .stdout secrets [97, 98, 99, newline] ∧ ¬ Faithful (config false) .stdout secrets [97, 98, 99] := by
  have hstars : ∀ v ∈ (newMasker secrets).sensitiveVals, star ∉ v := by
    rw [sensitiveVals_eq]
    decide
  have hiff := (step_log_faithful (config false) .stdout secrets).2 (by decide) safe hstars
  exact ⟨(hiff _).mpr (by decide), fun h => absurd ((hiff _).mp h) (by decide)⟩

open Example in
/-- The last line of a step with secrets is lost if it is not ended, and the coordinator receives the secrets. -/
theorem step_log_unfaithful :
    (¬ ∀ text, Faithful (config false) .stdout secrets text) ∧ ¬ ∀ text, Faithful (config true) .stdout secrets text := by
  constructor
  · intro h
    have hfile := ((faithful_iff _ _ _ _).mp (h [0])).1 (.inl rfl)
    exact not_fileFaithful _ _ hfile
  intro h
  have hmasks := forall_unmasked_iff.mp fun text => ((faithful_iff _ _ _ _).mp (h text)).2 rfl
  rw [sensitiveVals_eq] at hmasks
  exact absurd hmasks (by decide)

end Ayatsuri.StepOutput
