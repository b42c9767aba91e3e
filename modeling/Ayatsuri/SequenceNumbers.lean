import Ayatsuri.TransitionSystem

/-! The sequence numbers of a session's messages (`internal/agent/session.go`, `internal/agent/loop.go`). `appendMessage`
stores a message with the number it brought and returns the session's next number, which the recorder writes into its own
copy; only user messages are built with the session's number. -/
namespace Ayatsuri.SequenceNumbers
open TransitionSystem List

/-- Where a recorder is, with the index its message has in the session's memory and the number of its own copy. -/
inductive Pc
  | append (carried : ℤ)
  | publish (index : ℕ) (number : ℤ)
  | persist (index : ℕ) (number : ℤ)
  | done
  deriving DecidableEq

/-- `messages` keeps the numbers only, `loops` the counter of each loop the session has had. -/
structure State where
  sequenceID : ℤ
  messages : List ℤ
  loops : List ℤ := []
  recordings : List Pc := []
  (published persisted : List (ℕ × ℤ) := [])
  deriving DecidableEq

inductive Label
  | createLoop
  | loopMessage (k : ℕ)
  | userMessage | userPrompt | uiAction
  | externalMessage (carried : ℤ)
  | advance (i : ℕ)
  deriving DecidableEq

namespace State
variable (s : State)

def record (pc : Pc) : State := {s with recordings := s.recordings++[pc]}

def nextSequenceID : State := {s with sequenceID := s.sequenceID+1}

/-- The message is stored as it came. -/
def appendMessage (carried : ℤ) : State := {s.nextSequenceID with messages := s.messages++[carried]}

/-- What a recorder does next, and where it is then. -/
def advance : Pc → Option (State × Pc)
  | .append carried => some (s.appendMessage carried, .publish s.messages.length (s.sequenceID+1))
  | .publish index number => some ({s with published := s.published++[(index, number)]}, .persist index number)
  | .persist index number => some ({s with persisted := s.persisted++[(index, number)]}, .done)
  | .done => none

def step : Label → Option State
  | .createLoop => some {s with loops := s.loops++[0]}
  | .loopMessage k => do
    let n ← s.loops[k]?
    some (record {s with loops := s.loops.set k (n+1)} (.append (n+1)))
  -- `buildUserMessage` takes the number before it stores.
  | .userMessage => some ((s.appendMessage (s.sequenceID+1)).record (.publish s.messages.length (s.sequenceID+1)))
  | .userPrompt => some (s.record (.append 0))
  | .uiAction => some s.nextSequenceID
  | .externalMessage carried => some (s.record (.append carried))
  | .advance i => do
    let pc ← s.recordings[i]?
    let (t, pc) ← s.advance pc
    some {t with recordings := s.recordings.set i pc}

/-- A message that is stored brings the number it is about to get. -/
def Numbered : Label → Prop
  | .advance i => ∀ carried, s.recordings[i]? = some (.append carried) → carried = s.sequenceID+1
  | _ => True

def Fits : Pc → Prop
  | .publish index number | .persist index number => s.messages[index]? = some number
  | .append _ | .done => True

structure Agree : Prop where
  published : ∀ p ∈ s.published, s.messages[p.1]? = some p.2
  persisted : ∀ p ∈ s.persisted, s.messages[p.1]? = some p.2
  increasing : s.messages.Pairwise (· < ·)

structure Inv : Prop extends s.Agree where
  fits : ∀ pc ∈ s.recordings, s.Fits pc
  bounded : ∀ n ∈ s.messages, n ≤ s.sequenceID

def start (history : List ℤ) (sequenceID : ℤ) : State := {sequenceID, messages := history}

variable {s} {t : State} {pc : Pc}

lemma Inv.record (h : s.Inv) (hpc : s.Fits pc) : (s.record pc).Inv :=
  {h with fits := forall_mem_concat h.fits hpc}

lemma getElem?_appendMessage {carried} : (s.appendMessage carried).messages[s.messages.length]? = some carried :=
  getElem?_concat_length

/-- A stored message stays as it is. -/
lemma getElem?_appendMessage_of_eq {index : ℕ} {number carried} (h : s.messages[index]? = some number) :
    (s.appendMessage carried).messages[index]? = some number := (getElem?_append_left (lt_of_getElem? h)).trans h

lemma Inv.appendMessage (h : s.Inv) : (s.appendMessage (s.sequenceID+1)).Inv where
  published p hp := getElem?_appendMessage_of_eq (h.published p hp)
  persisted p hp := getElem?_appendMessage_of_eq (h.persisted p hp)
  increasing := pairwise_append.mpr ⟨h.increasing, pairwise_singleton _ _, fun n hn k hk => by
    have hle := h.bounded n hn
    rw [mem_singleton.mp hk]
    omega⟩
  fits pc hpc := by
    have hfits := h.fits pc hpc
    cases pc with
    | append | done => trivial
    | publish | persist => exact getElem?_appendMessage_of_eq hfits
  bounded := forall_mem_concat (fun n hn => (h.bounded n hn).trans (Int.le_add_one le_rfl)) le_rfl

lemma Inv.advance {next} (h : s.Inv) (hpc : s.Fits pc)
    (hnumbered : ∀ carried, pc = .append carried → carried = s.sequenceID+1)
    (hmove : s.advance pc = some (t, next)) : t.Inv ∧ t.Fits next ∧ t.recordings = s.recordings := by
  cases pc with
  | append carried =>
    cases hmove
    rw [hnumbered carried rfl]
    exact ⟨h.appendMessage, getElem?_appendMessage, rfl⟩
  | publish index number =>
    cases hmove
    exact ⟨{h with published := forall_mem_concat h.published hpc}, hpc, rfl⟩
  | persist index number =>
    cases hmove
    exact ⟨{h with persisted := forall_mem_concat h.persisted hpc}, trivial, rfl⟩
  | done => cases hmove

lemma Inv.step {l} (h : s.Inv) (hnumbered : s.Numbered l) (hstep : s.step l = some t) : t.Inv := by
  cases l with
  | createLoop =>
    cases hstep
    exact {h with}
  | loopMessage k =>
    obtain ⟨n, -, hrecord⟩ := Option.bind_eq_some_iff.mp hstep
    cases hrecord
    exact Inv.record {h with} trivial
  | userMessage =>
    cases hstep
    exact h.appendMessage.record getElem?_appendMessage
  | userPrompt | externalMessage =>
    cases hstep
    exact h.record trivial
  | uiAction =>
    cases hstep
    exact {h with bounded := fun n hn => (h.bounded n hn).trans (Int.le_add_one le_rfl)}
  | advance i =>
    obtain ⟨pc, hget, hmove⟩ := Option.bind_eq_some_iff.mp hstep
    obtain ⟨⟨u, next⟩, hadvance, hrecord⟩ := Option.bind_eq_some_iff.mp hmove
    cases hrecord
    obtain ⟨hinv, hnext, hrecordings⟩ := h.advance (h.fits pc (mem_of_getElem? hget)) (fun carried hpc =>
      hnumbered carried (hpc ▸ hget)) hadvance
    exact {hinv with fits := forall_mem_set (hrecordings ▸ hinv.fits) hnext}

/-- Whatever is recorded, and however many loops there have been, the copies of a message agree. -/
theorem numbers_agree {history} {sequenceID : ℤ} (hincreasing : history.Pairwise (· < ·))
    (hbounded : ∀ n ∈ history, n ≤ sequenceID) (h : Reach step Numbered (start history sequenceID) s) : s.Agree :=
  (h.preserved (P := Inv) ⟨⟨by simp [start], by simp [start], hincreasing⟩, by simp [start], hbounded⟩
    fun hinv => hinv.step).toAgree

end State

instance (s : State) (l : Label) : Decidable (s.Numbered l) :=
  match l with
  | .advance i =>
    match h : s.recordings[i]? with
    | some (.append carried) => decidable_of_iff (carried = s.sequenceID+1) (by simp [State.Numbered, h])
    | some (.publish _ _) | some (.persist _ _) | some .done | none => isTrue (by simp [State.Numbered, h])
  | .createLoop | .loopMessage _ | .userMessage | .userPrompt | .uiAction | .externalMessage _ => isTrue trivial

/-- A loop answers twice, and a delegate hands over a message that has its number already. -/
def delegated : State :=
  follow State.step (fun s l => decide (s.Numbered l)) (State.start [] 0) [(.createLoop, 1), (.loopMessage 0, 1),
    (.advance 0, 3), (.loopMessage 0, 1), (.advance 1, 3), (.externalMessage 3, 1), (.advance 2, 3)]

theorem delegated_agree : delegated.persisted = [(0, 1), (1, 2), (2, 3)] ∧ delegated.Agree :=
  ⟨by decide, State.numbers_agree (by simp) (by simp) (reach_checked _ _)⟩

/-- The user asks and a loop answers: the answer is stored under the number of the question. -/
def replied : State :=
  play State.step (State.start [] 0) [(.userMessage, 1), (.advance 0, 2), (.createLoop, 1), (.loopMessage 0, 1), (.advance 1, 3)]

theorem replied_not_agree : Reach State.step always (State.start [] 0) replied ∧ ¬ replied.Agree :=
  ⟨reach_play _ _, fun h => absurd h.increasing (by decide)⟩

end Ayatsuri.SequenceNumbers
