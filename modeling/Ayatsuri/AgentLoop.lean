import Ayatsuri.TransitionSystem

/-! The loop of an agent session (`internal/agent/loop.go`): it sends the history to the model, runs the tools the model
asks for and appends their results one by one, while others may queue messages, ask for an interrupt or append to the
history. -/
namespace Ayatsuri.AgentLoop
open TransitionSystem List

inductive Role
  | system | user | assistant | tool
  deriving DecidableEq

structure ToolCall where
  (id name arguments : String)
  deriving DecidableEq

/-- `llm.Message`. -/
structure Message where
  role : Role
  content : String
  toolCallID : String := ""
  toolCalls : List ToolCall := []
  deriving DecidableEq

def Message.calls (m : Message) : List ToolCall := if m.role = .assistant then m.toolCalls else []

def Message.Plain (m : Message) : Prop := m.role ≠ .tool ∧ m.calls = []

instance (m : Message) : Decidable m.Plain := instDecidableAnd

/-- Each message with tool calls is directly followed by one result for each of its calls, and there are no other
results. -/
inductive WellFormed : List Message → Prop
  | nil : WellFormed []
  | plain {m : Message} {rest : List Message} (hm : m.Plain) (hrest : WellFormed rest) : WellFormed (m::rest)
  | calls {m : Message} {results rest : List Message} (hrole : m.role = .assistant) (hcalls : m.toolCalls ≠ [])
    (htool : ∀ r ∈ results, r.role = .tool) (hids : (results.map Message.toolCallID).Perm (m.toolCalls.map ToolCall.id))
    (hrest : WellFormed rest) : WellFormed (m::(results++rest))

/-! ### The loop -/

def maxToolCallDepth : ℕ := 50

/-- Where the goroutine is. `round` is the number of times tool calls have been executed in this turn. -/
inductive Pc
  | idle
  | send (round : ℕ)
  | wait (round : ℕ)
  | answered (round : ℕ) (calls : List ToolCall)
  | execute (round : ℕ) (calls : List ToolCall)
  | executed (round : ℕ) (paused : Bool) (calls : List ToolCall)
  | boundary (round : ℕ)
  | cancelRest (calls : List ToolCall)
  | finish
  deriving DecidableEq

structure State where
  systemPrompt : String
  (history messageQueue : List Message)
  (activeTurn interruptRequested : Bool)
  pc : Pc
  requests : List (List Message)
  deriving DecidableEq

inductive Response
  | failed
  | ok (content : String) (toolCalls : List ToolCall)
  deriving DecidableEq

inductive Label
  | queueUserMessage (content : String)
  | requestInterrupt
  | appendExternalHistory (m : Message)
  | updateRuntime (systemPrompt : String)
  | advance
  | respond (response : Response)
  | toolResult (content : String) (interruptTurn : Bool)
  deriving DecidableEq

def toolResult (call : ToolCall) (content : String) : Message := {role := .tool, content := content, toolCallID := call.id}

def cancelledContent : String := "Tool execution was cancelled."

namespace State
variable (s : State)

/-- `buildMessages`. -/
def buildMessages : List Message :=
  if s.systemPrompt = "" then s.history else {role := .system, content := s.systemPrompt}::s.history

def advance : Option State :=
  match s.pc with
  | .idle =>
    if s.activeTurn = false ∧ s.messageQueue ≠ [] then
      some {s with
        history := s.history++s.messageQueue, messageQueue := [], activeTurn := true, interruptRequested := false
        pc := .send 0}
    else if s.activeTurn then some {s with pc := .send 0}
    else none
  | .send round => some {s with requests := s.requests++[s.buildMessages], pc := .wait round}
  | .wait _ => none
  | .answered round calls =>
    if s.interruptRequested then some {s with pc := .cancelRest calls}
    else if calls = [] then some {s with pc := .finish}
    else if round < maxToolCallDepth then some {s with pc := .execute round calls}
    else some {s with pc := .finish}
  | .execute round calls => if calls = [] then some {s with pc := .boundary (round+1)} else none
  | .executed round paused calls =>
    if paused ∨ s.interruptRequested then some {s with pc := .cancelRest calls}
    else some {s with pc := .execute round calls}
  | .boundary round => if s.interruptRequested then some {s with pc := .finish} else some {s with pc := .send round}
  | .cancelRest [] => some {s with pc := .finish}
  | .cancelRest (call::calls) =>
    some {s with history := s.history++[toolResult call cancelledContent], pc := .cancelRest calls}
  | .finish => some {s with activeTurn := false, pc := .idle}

def step : Label → Option State
  | .queueUserMessage content => some {s with messageQueue := s.messageQueue++[{role := .user, content := content}]}
  | .requestInterrupt => some {s with interruptRequested := true}
  | .appendExternalHistory m => if m.Plain then some {s with history := s.history++[m]} else none
  | .updateRuntime systemPrompt => some {s with systemPrompt := systemPrompt}
  | .advance => s.advance
  | .respond response =>
    match s.pc, response with
    | .wait _, .failed => some {s with pc := .finish}
    | .wait round, .ok content toolCalls =>
      some {s with
        history := s.history++[{role := .assistant, content := content, toolCalls := toolCalls}]
        pc := .answered round toolCalls}
    | _, _ => none
  | .toolResult content interruptTurn =>
    match s.pc with
    | .execute round (call::calls) =>
      some {s with history := s.history++[AgentLoop.toolResult call content], pc := .executed round interruptTurn calls}
    | _ => none

def start (systemPrompt : String) (history : List Message) : State where
  systemPrompt := systemPrompt
  history := history
  messageQueue := []
  activeTurn := false
  interruptRequested := false
  pc := .idle
  requests := []

end State

def Pc.open : Pc → List ToolCall
  | .answered _ calls | .execute _ calls | .executed _ _ calls | .cancelRest calls => calls
  | .idle | .send _ | .wait _ | .boundary _ | .finish => []

/-- Nobody appends to the history while results are missing, and the model asks for no tools when the depth is reached. -/
def State.Undisturbed (s : State) : Label → Prop
  | .appendExternalHistory _ => s.pc.open = []
  | .respond (.ok _ toolCalls) => s.pc = .wait maxToolCallDepth → toolCalls = []
  | _ => True

instance (s : State) (l : Label) : Decidable (s.Undisturbed l) := by
  unfold State.Undisturbed
  split <;> infer_instance

/-! ### Reading a history -/

def scan (missing : List String) : List Message → Option (List String)
  | [] => some missing
  | m::rest =>
    if m.role = .tool then if m.toolCallID ∈ missing then scan (missing.erase m.toolCallID) rest else none
    else if missing = [] then scan (m.calls.map ToolCall.id) rest
    else none

lemma scan_append (missing : List String) (front back : List Message) :
    scan missing (front++back) = (scan missing front).bind fun missing => scan missing back := by
  induction front generalizing missing with
  | nil => rfl
  | cons m front ih =>
    rw [cons_append, scan, scan]
    split_ifs
    · exact ih _
    · rfl
    · exact ih _
    · rfl

variable {missing : List String}

lemma scan_results {results : List Message} (htool : ∀ r ∈ results, r.role = .tool)
    (hids : (results.map Message.toolCallID).Perm missing) : scan missing results = some [] := by
  induction results generalizing missing with
  | nil =>
    rw [map_nil, nil_perm] at hids
    rw [hids]
    rfl
  | cons r results ih =>
    have hmem : r.toolCallID ∈ missing := hids.subset (by simp)
    rw [scan, if_pos (htool r mem_cons_self), if_pos hmem]
    refine ih (fun r hr => htool r (mem_cons_of_mem _ hr)) ?_
    have herase := hids.erase r.toolCallID
    rwa [map_cons, erase_cons_head] at herase

variable {history : List Message}

lemma WellFormed.scan_eq (h : WellFormed history) : scan [] history = some [] := by
  induction h with
  | nil => rfl
  | plain hm hrest ih =>
    rw [scan, if_neg hm.1, if_pos rfl, hm.2]
    exact ih
  | @calls m results rest hrole hcalls htool hids hrest ih =>
    have hnot : m.role ≠ .tool := by simp [hrole]
    rw [scan, if_neg hnot, if_pos rfl, Message.calls, if_pos hrole, scan_append, scan_results htool hids]
    exact ih

lemma exists_results (h : scan missing history = some []) :
    ∃ results rest, history = results++rest ∧ (∀ r ∈ results, r.role = .tool) ∧
      (results.map Message.toolCallID).Perm missing ∧ scan [] rest = some [] := by
  induction history generalizing missing with
  | nil =>
    cases h
    exact ⟨[], [], rfl, by simp, by simp, rfl⟩
  | cons m history ih =>
    by_cases hmissing : missing = []
    · subst hmissing
      exact ⟨[], m::history, rfl, by simp, by simp, h⟩
    rw [scan, if_neg hmissing] at h
    split_ifs at h with htool hmem
    obtain ⟨results, rest, rfl, hresults, hids, hrest⟩ := ih h
    refine ⟨m::results, rest, rfl, ?_, ?_, hrest⟩
    · exact forall_mem_cons.mpr ⟨htool, hresults⟩
    · rw [map_cons]
      exact (hids.cons m.toolCallID).trans (perm_cons_erase hmem).symm

lemma wellFormed_of_scan (h : scan [] history = some []) : WellFormed history := by
  induction hlength : history.length using Nat.strong_induction_on generalizing history with
  | _ length ih =>
    cases history with
    | nil => exact .nil
    | cons m history =>
      rw [scan] at h
      split_ifs at h with htool hmem
      · simp at hmem
      by_cases hcalls : m.calls = []
      · rw [hcalls] at h
        exact .plain ⟨htool, hcalls⟩ (ih _ (by simp [← hlength]) h rfl)
      obtain ⟨results, rest, rfl, hresults, hids, hrest⟩ := exists_results h
      have hrole : m.role = .assistant := by
        by_contra hrole
        exact hcalls (if_neg hrole)
      rw [Message.calls, if_pos hrole] at hcalls hids
      refine .calls hrole hcalls hresults hids (ih _ ?_ hrest rfl)
      simp only [← hlength, length_cons, List.length_append]
      omega

lemma wellFormed_iff_scan (history : List Message) : WellFormed history ↔ scan [] history = some [] :=
  ⟨WellFormed.scan_eq, wellFormed_of_scan⟩

instance (history : List Message) : Decidable (WellFormed history) := decidable_of_iff _ (wellFormed_iff_scan history).symm

/-! ### Every request of a run -/

lemma scan_concat (h : scan [] history = some missing) (m : Message) : scan [] (history++[m]) = scan missing [m] := by
  rw [scan_append, h]
  rfl

lemma scan_plain {messages} (h : ∀ m ∈ messages, m.Plain) : scan [] messages = some [] := by
  refine WellFormed.scan_eq ?_
  induction messages with
  | nil => exact .nil
  | cons m messages ih => exact .plain (h m mem_cons_self) (ih fun m hm => h m (mem_cons_of_mem _ hm))

lemma scan_toolResult {call} {calls : List ToolCall}
    (h : scan [] history = some ((call::calls).map ToolCall.id)) (content : String) :
    scan [] (history++[toolResult call content]) = some (calls.map ToolCall.id) := by
  rw [scan_concat h]
  simp [scan, toolResult]

def Pc.Bounded : Pc → Prop
  | .send round | .wait round | .boundary round => round ≤ maxToolCallDepth
  | .answered round calls => round ≤ maxToolCallDepth ∧ (round = maxToolCallDepth → calls = [])
  | .execute round _ | .executed round _ _ => round < maxToolCallDepth
  | .idle | .cancelRest _ | .finish => True

namespace State

structure Inv (s : State) : Prop where
  history : scan [] s.history = some (s.pc.open.map ToolCall.id)
  queue : ∀ m ∈ s.messageQueue, m.Plain
  bounded : s.pc.Bounded
  requests : ∀ request ∈ s.requests, WellFormed request

variable {s t : State}

lemma Inv.buildMessages (h : s.Inv) (hopen : s.pc.open = []) : WellFormed s.buildMessages := by
  have hhistory : WellFormed s.history := wellFormed_of_scan (by rw [h.history, hopen]; rfl)
  unfold State.buildMessages
  split_ifs
  · exact hhistory
  · exact .plain ⟨by simp, rfl⟩ hhistory

lemma Inv.advance (h : s.Inv) (hstep : s.advance = some t) : t.Inv := by
  have hbuild := h.buildMessages
  obtain ⟨systemPrompt, history, queue, active, interrupt, pc, requests⟩ := s
  obtain ⟨hhistory, hqueue, hbounded, hrequests⟩ := h
  cases pc with
  | idle =>
    simp only [State.advance] at hstep
    split_ifs at hstep
    · cases hstep
      refine ⟨?_, by simp, Nat.zero_le _, hrequests⟩
      rw [scan_append, hhistory]
      exact scan_plain hqueue
    · cases hstep
      exact ⟨hhistory, hqueue, Nat.zero_le _, hrequests⟩
  | send round =>
    cases hstep
    exact ⟨hhistory, hqueue, hbounded, forall_mem_concat hrequests (hbuild rfl)⟩
  | wait => cases hstep
  | answered round calls =>
    simp only [State.advance] at hstep
    split_ifs at hstep with hinterrupt hcalls hround
    · cases hstep
      exact ⟨hhistory, hqueue, trivial, hrequests⟩
    · cases hstep
      subst hcalls
      exact ⟨hhistory, hqueue, trivial, hrequests⟩
    · cases hstep
      exact ⟨hhistory, hqueue, hround, hrequests⟩
    · exact absurd (hbounded.2 (le_antisymm hbounded.1 (not_lt.mp hround))) hcalls
  | execute round calls =>
    obtain ⟨rfl, rfl⟩ := of_guarded hstep
    exact ⟨hhistory, hqueue, hbounded, hrequests⟩
  | executed | boundary =>
    simp only [State.advance] at hstep
    split_ifs at hstep
    · cases hstep
      exact ⟨hhistory, hqueue, trivial, hrequests⟩
    · cases hstep
      exact ⟨hhistory, hqueue, hbounded, hrequests⟩
  | cancelRest calls =>
    cases calls with
    | nil =>
      cases hstep
      exact ⟨hhistory, hqueue, trivial, hrequests⟩
    | cons call calls =>
      cases hstep
      exact ⟨scan_toolResult hhistory cancelledContent, hqueue, trivial, hrequests⟩
  | finish =>
    cases hstep
    exact ⟨hhistory, hqueue, trivial, hrequests⟩

lemma Inv.step {l} (h : s.Inv) (hundisturbed : s.Undisturbed l) (hstep : s.step l = some t) : t.Inv := by
  cases l with
  | queueUserMessage content =>
    cases hstep
    exact {h with queue := forall_mem_concat h.queue ⟨by simp, rfl⟩}
  | requestInterrupt | updateRuntime systemPrompt =>
    cases hstep
    exact {h with}
  | appendExternalHistory m =>
    obtain ⟨hplain, rfl⟩ := of_guarded hstep
    refine {h with history := ?_}
    have hhistory := h.history
    change s.pc.open = [] at hundisturbed
    change scan [] (s.history++[m]) = some (s.pc.open.map ToolCall.id)
    rw [hundisturbed] at hhistory ⊢
    rw [scan_concat hhistory]
    exact scan_plain (by simpa using hplain)
  | advance => exact h.advance hstep
  | respond response =>
    simp only [State.step] at hstep
    split at hstep
    · next round hpc =>
      cases hstep
      have hhistory := h.history
      rw [hpc] at hhistory
      exact ⟨hhistory, h.queue, trivial, h.requests⟩
    · next round content toolCalls hpc =>
      cases hstep
      have hhistory := h.history
      have hbounded := h.bounded
      rw [hpc] at hhistory hbounded
      refine ⟨?_, h.queue, ⟨hbounded, fun hround => ?_⟩, h.requests⟩
      · rw [scan_concat hhistory]
        simp [scan, Message.calls, Pc.open]
      · exact hundisturbed (hround ▸ hpc)
    · cases hstep
  | toolResult content interruptTurn =>
    simp only [State.step] at hstep
    split at hstep
    · next round call calls hpc =>
      cases hstep
      have hhistory := h.history
      have hbounded := h.bounded
      rw [hpc] at hhistory hbounded
      exact ⟨scan_toolResult hhistory content, h.queue, hbounded, h.requests⟩
    · cases hstep

lemma Inv.reach {systemPrompt history} (hwf : WellFormed history)
    (h : Reach State.step Undisturbed (State.start systemPrompt history) s) : s.Inv :=
  h.preserved (P := Inv) ⟨hwf.scan_eq, by simp [State.start], trivial, by simp [State.start]⟩ Inv.step

/-- Every request has its tool results in place, if nobody appends to the history while a result is missing and the model
does not ask for tools after the last round. -/
theorem requests_wellFormed {systemPrompt : String} {history : List Message} (hwf : WellFormed history)
    (h : Reach State.step Undisturbed (State.start systemPrompt history) s) : ∀ request ∈ s.requests, WellFormed request :=
  (Inv.reach hwf h).requests

def sampleCall : ToolCall := ⟨"call-1", "bash", "{}"⟩

def otherCall : ToolCall := ⟨"call-2", "read", "{}"⟩

def interrupted : State :=
  follow State.step (fun s l => decide (s.Undisturbed l)) (State.start "You are an agent." [])
    [(.queueUserMessage "hello", 1), (.advance, 2), (.respond (.ok "" [sampleCall, otherCall]), 1), (.advance, 1),
      (.toolResult "done" false, 1), (.requestInterrupt, 1), (.advance, 4), (.queueUserMessage "go on", 1),
      (.appendExternalHistory {role := .assistant, content := "a run has ended"}, 1), (.advance, 2)]

theorem requests_wellFormed_interrupted :
    interrupted.requests.length = 2 ∧ ∀ request ∈ interrupted.requests, WellFormed request :=
  ⟨by decide +kernel, requests_wellFormed .nil (reach_checked _ _)⟩

def notified : State :=
  play State.step (State.start "" [])
    [(.queueUserMessage "hello", 1), (.advance, 2), (.respond (.ok "" [sampleCall]), 1), (.advance, 1),
      (.appendExternalHistory {role := .assistant, content := "a run has ended"}, 1), (.toolResult "done" false, 1),
      (.advance, 4)]

def isExternal : Label → Bool
  | .appendExternalHistory _ => true
  | .queueUserMessage _ | .requestInterrupt | .updateRuntime _ | .advance | .respond _ | .toolResult _ _ => false

def exhausted : State :=
  follow State.step (fun _ l => decide (isExternal l = false)) (State.start "" [])
    ([(.queueUserMessage "hello", 1), (.advance, 2)] ++
    (List.replicate maxToolCallDepth [(Label.respond (.ok "" [sampleCall]), 1), (.advance, 1), (.toolResult "done" false, 1),
      (.advance, 4)]).flatten ++
    [(.respond (.ok "" [sampleCall]), 1), (.advance, 2), (.queueUserMessage "go on", 1), (.advance, 2)])

/-- A message between the calls and their results, and calls without results. -/
theorem requests_malformed :
    (¬ ∀ s, Reach State.step always (State.start "" []) s → ∀ request ∈ s.requests, WellFormed request) ∧
    (¬ ∀ s, Reach State.step (fun _ l => isExternal l = false) (State.start "" []) s →
      ∀ request ∈ s.requests, WellFormed request) := by
  refine ⟨fun h => ?_, fun h => ?_⟩
  · exact absurd (h notified (reach_play _ _)) (by decide +kernel)
  · exact absurd (h exhausted (reach_checked _ _)) (by decide +kernel)

end State
end Ayatsuri.AgentLoop
