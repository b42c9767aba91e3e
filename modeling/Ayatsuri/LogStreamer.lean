import Ayatsuri.MaskingWriter

/-! The writers of a worker that stream logs to the coordinator (`internal/runtime/remote/log_streamer.go`), where no
transport fails: what is written is kept in a buffer and sent in chunks once there is enough of it, and the rest is
sent with a final marker when the writer is closed. -/
namespace Ayatsuri.LogStreamer
open List
open Masking (Bytes)

def logBufferSize : ℕ := 32*1024

def maxChunkSize : ℕ := 3*1024*1024

inductive StreamType
  | stdout | stderr | scheduler
  deriving DecidableEq

/-- `LogChunk`, without what is the same in all chunks of a run. -/
structure LogChunk where
  stepName : String
  streamType : StreamType
  attemptID : String
  data : Bytes := []
  sequence : ℕ
  isFinal : Bool := false
  deriving DecidableEq

def splitAt (maxSize : ℕ) : ℕ → Bytes → List Bytes
  | 0, _ => []
  | _, [] => []
  | fuel+1, data => data.take maxSize::splitAt maxSize fuel (data.drop maxSize)

def chunkData (data : Bytes) : List Bytes := splitAt maxChunkSize data.length data

/-- `stepLogWriter`, and `schedulerLogWriter` without its local file. -/
structure LogWriter where
  stepName : String
  streamType : StreamType
  buffer : Bytes := []
  sequence : ℕ := 0
  stream : Bool := false
  closed : Bool := false
  deriving DecidableEq

open LogWriter

namespace LogWriter
variable (w : LogWriter) (attemptID : String)

def chunk (sequence : ℕ) (data : Bytes) : LogChunk :=
  {stepName := w.stepName, streamType := w.streamType, attemptID := attemptID, data := data, sequence := sequence}

def pending : List LogChunk := (chunkData w.buffer).mapIdx fun i data => w.chunk attemptID (w.sequence+1+i) data

def flush : LogWriter :=
  if w.buffer.length = 0 then w
  else {w with buffer := [], sequence := w.sequence+(chunkData w.buffer).length, stream := true}

/-- `Write` with the chunks it sends. A closed writer refuses. -/
def write (p : Bytes) : Option (LogWriter × List LogChunk) :=
  if w.closed then none
  else
    let w := {w with buffer := w.buffer++p}
    if logBufferSize ≤ w.buffer.length then some (w.flush, w.pending attemptID) else some (w, [])

def finalChunk : LogChunk :=
  {stepName := w.stepName, streamType := w.streamType, attemptID := attemptID, sequence := w.sequence+1, isFinal := true}

/-- `Close` with the chunks it sends. The final marker is only sent on an open stream. -/
def close : LogWriter × List LogChunk :=
  if w.closed then (w, [])
  else
    let flushed := w.flush
    if flushed.stream then
      ({flushed with closed := true, sequence := flushed.sequence+1},
        w.pending attemptID++[flushed.finalChunk attemptID])
    else ({flushed with closed := true}, w.pending attemptID)

end LogWriter

variable (attemptID : String)

/-- `StreamSchedulerLog`: the whole file on a stream of its own. -/
def streamSchedulerLog (data : Bytes) : List LogChunk :=
  if data.length = 0 then []
  else
    let w : LogWriter := {stepName := "scheduler", streamType := .scheduler, buffer := data}
    w.pending attemptID++[w.flush.finalChunk attemptID]

def received (chunks : List LogChunk) : Bytes := chunks.flatMap LogChunk.data

/-! ### What is sent -/

lemma splitAt_flatten {maxSize : ℕ} (hpos : 0 < maxSize) (fuel : ℕ) (data : Bytes) (h : data.length ≤ fuel) :
    (splitAt maxSize fuel data).flatten = data := by
  induction fuel generalizing data with
  | zero =>
    obtain rfl := length_eq_zero_iff.mp (Nat.le_zero.mp h)
    rfl
  | succ fuel ih =>
    cases data with
    | nil => rfl
    | cons b data =>
      have hrest : ((b::data).drop maxSize).length ≤ fuel := by
        rw [length_drop]
        omega
      rw [splitAt, flatten_cons, ih _ hrest, take_append_drop]
      exact cons_ne_nil b data

lemma chunkData_flatten (data : Bytes) : (chunkData data).flatten = data := splitAt_flatten (by decide) _ _ (le_refl _)

lemma received_append (chunks chunks' : List LogChunk) : received (chunks++chunks') = received chunks++received chunks' :=
  flatMap_append

def Carries (w : LogWriter) (attemptID : String) (c : LogChunk) : Prop :=
  c.stepName = w.stepName ∧ c.streamType = w.streamType ∧ c.attemptID = attemptID ∧ (c.isFinal → c.data = [])

namespace LogWriter
variable (w : LogWriter) (attemptID : String)

lemma received_pending : received (w.pending attemptID) = w.buffer := by
  have hdata : (w.pending attemptID).map LogChunk.data = chunkData w.buffer := by
    refine ext_getElem? fun i => ?_
    simp [pending, getElem?_map, getElem?_mapIdx, Function.comp_def, chunk]
  rw [received, flatMap_def, hdata, chunkData_flatten]

lemma flush_buffer : w.flush.buffer = [] := by
  unfold flush
  split_ifs with hempty
  · exact length_eq_zero_iff.mp hempty
  · rfl

lemma pending_of_nil (h : w.buffer = []) : w.pending attemptID = [] := by simp [pending, h, chunkData, splitAt]

lemma carries_pending (w : LogWriter) (attemptID : String) : ∀ c ∈ w.pending attemptID, Carries w attemptID c := by
  intro c hc
  obtain ⟨i, hi⟩ := mem_iff_getElem?.mp hc
  simp only [pending, getElem?_mapIdx, Option.map_eq_some_iff] at hi
  obtain ⟨data, -, rfl⟩ := hi
  exact ⟨rfl, rfl, rfl, by simp [chunk]⟩

lemma flush_name (w : LogWriter) : w.flush.stepName = w.stepName ∧ w.flush.streamType = w.streamType := by
  unfold flush
  split_ifs <;> exact ⟨rfl, rfl⟩

variable {w w' : LogWriter} {attemptID : String} {p : Bytes} {sent : List LogChunk}

lemma write_carries (h : w.write attemptID p = some (w', sent)) :
    (∀ c ∈ sent, Carries w attemptID c) ∧ w'.stepName = w.stepName ∧ w'.streamType = w.streamType := by
  dsimp only [write] at h
  split_ifs at h
  · cases h
    exact ⟨carries_pending _ attemptID, flush_name _⟩
  · cases h
    exact ⟨by simp, rfl, rfl⟩

lemma close_carries (w : LogWriter) (attemptID : String) : (∀ c ∈ (w.close attemptID).2, Carries w attemptID c) ∧
      (w.close attemptID).1.stepName = w.stepName ∧ (w.close attemptID).1.streamType = w.streamType := by
  dsimp only [close]
  by_cases hclosed : w.closed
  · rw [if_pos hclosed]
    exact ⟨by simp, rfl, rfl⟩
  rw [if_neg hclosed]
  split_ifs
  · refine ⟨forall_mem_append.mpr ⟨w.carries_pending attemptID, forall_mem_singleton.mpr ?_⟩, w.flush_name⟩
    exact ⟨w.flush_name.1, w.flush_name.2, rfl, fun _ => rfl⟩
  · exact ⟨w.carries_pending attemptID, w.flush_name⟩

lemma exists_write (h : w.closed = false) (attemptID : String) (p : Bytes) : ∃ x, w.write attemptID p = some x := by
  dsimp only [write]
  rw [if_neg (by simp [h])]
  split_ifs
  · exact ⟨_, rfl⟩
  · exact ⟨_, rfl⟩

lemma flush_closed (w : LogWriter) : w.flush.closed = w.closed := by
  unfold flush
  split_ifs <;> rfl

lemma write_closed (h : w.write attemptID p = some (w', sent)) : w'.closed = w.closed := by
  dsimp only [write] at h
  split_ifs at h
  · cases h
    exact flush_closed _
  · cases h
    rfl

lemma flush_stream (h : w.stream ∨ w.pending attemptID ≠ []) : w.flush.stream := by
  unfold flush
  split_ifs with hempty
  · exact h.resolve_right fun hne => hne (w.pending_of_nil attemptID (length_eq_zero_iff.mp hempty))
  · rfl

lemma write_stream
    (h : w.write attemptID p = some (w', sent)) (hstream : w.stream ∨ sent ≠ []) : w'.stream := by
  dsimp only [write] at h
  split_ifs at h
  · cases h
    exact flush_stream hstream
  · cases h
    exact hstream.resolve_right fun hne => hne rfl

lemma close_final (h : w.closed = false) (hstream : w.stream ∨ (w.close attemptID).2 ≠ []) :
    ∃ front c, (w.close attemptID).2 = front++[c] ∧ c.isFinal := by
  dsimp only [close] at hstream ⊢
  rw [if_neg (by simp [h])] at hstream ⊢
  split_ifs at hstream ⊢ with hflushed
  · exact ⟨_, _, rfl, rfl⟩
  · exact absurd (flush_stream hstream) hflushed

lemma close_closed (w : LogWriter) (attemptID : String) : (w.close attemptID).1.closed := by
  dsimp only [close]
  split_ifs with hclosed
  · exact hclosed
  · rfl
  · rfl

lemma write_received
    (h : w.write attemptID p = some (w', sent)) : received sent++w'.buffer = w.buffer++p := by
  dsimp only [write] at h
  split_ifs at h
  · cases h
    rw [received_pending, flush_buffer, append_nil]
  · cases h
    rfl

lemma close_received (w : LogWriter) (attemptID : String) (h : w.closed = false) :
    received (w.close attemptID).2 = w.buffer ∧ (w.close attemptID).1.buffer = [] := by
  dsimp only [close]
  rw [if_neg (by simp [h])]
  split_ifs
  · refine ⟨?_, w.flush_buffer⟩
    rw [received_append, received_pending]
    simp [received, finalChunk]
  · exact ⟨w.received_pending attemptID, w.flush_buffer⟩

end LogWriter

lemma streamSchedulerLog_scheduler (data : Bytes) :
    ∀ c ∈ streamSchedulerLog attemptID data, c.streamType = .scheduler := by
  intro c hc
  dsimp only [streamSchedulerLog] at hc
  split_ifs at hc
  · simp at hc
  rcases mem_append.mp hc with hc | hc
  · exact (carries_pending _ attemptID c hc).2.1
  · obtain rfl := mem_singleton.mp hc
    exact (flush_name _).2

end Ayatsuri.LogStreamer
