import Ayatsuri.AgentLoop

/-! The repair of a stored history before a loop is started from it (`repairOrphanedToolCalls` in
`internal/agent/session.go`): a call without a result in the block behind its message gets one that says it was cancelled. -/
namespace Ayatsuri.AgentLoop
open List Message

def isTool (m : Message) : Bool := m.role = .tool

/-- The IDs a block of results answers; a result without an ID answers nothing. -/
def answered (block : List Message) : List String := (block.map toolCallID).filter (· ≠ "")

def synthesized (m : Message) (block : List Message) : List Message :=
  (m.toolCalls.filter fun c => c.id ∉ answered block).map fun c => toolResult c cancelledContent

/-- The loop over the history; `skip` counts the results that have been copied with their message. -/
def repairFrom : ℕ → List Message → List Message
  | _, [] => []
  | skip+1, _::rest => repairFrom skip rest
  | 0, m::rest =>
    if m.role ≠ .assistant ∨ m.toolCalls = [] then m::repairFrom 0 rest
    else
      let block := rest.takeWhile isTool
      m::(block++synthesized m block++repairFrom block.length rest)

def repairOrphanedToolCalls (history : List Message) : List Message := repairFrom 0 history

/-- The IDs of calls differ, and each result answers a call made earlier. -/
structure Recorded (history : List Message) : Prop where
  distinct : ((history.flatMap calls).map ToolCall.id).Nodup
  answers : ∀ p ∈ history.zipIdx, isTool p.1 → p.1.toolCallID ∈ ((history.take p.2).flatMap calls).map ToolCall.id

structure Repaired (history : List Message) : Prop where
  wellFormed : WellFormed (repairOrphanedToolCalls history)
  kept : (repairOrphanedToolCalls history).filter (!isTool ·) = history.filter (!isTool ·)
  idempotent : repairOrphanedToolCalls (repairOrphanedToolCalls history) = repairOrphanedToolCalls history

/-- Each result stands in the block behind the message with its call, once: `missing` are the calls of that message that
have no result yet. -/
def Placed (missing : List String) : List Message → Prop
  | [] => True
  | m::rest =>
    if m.role = .tool then m.toolCallID ∈ missing ∧ Placed (missing.erase m.toolCallID) rest
    else Placed (m.calls.map ToolCall.id) rest

/-! ### Blocks of results -/

def Opens (rest : List Message) : Prop := ∀ m ∈ rest.head?, isTool m = false

variable {m : Message} {block rest history : List Message} {missing : List String}

lemma calls_eq_nil : m.calls = [] ↔ m.role ≠ .assistant ∨ m.toolCalls = [] := by
  unfold calls
  split_ifs with hrole <;> simp [hrole]

lemma calls_eq (h : m.calls ≠ []) : m.role = .assistant ∧ m.calls = m.toolCalls := by
  unfold calls at h ⊢
  split_ifs at h ⊢ with hrole
  · exact ⟨hrole, rfl⟩
  · exact absurd rfl h

lemma repairFrom_cons : repairFrom 0 (m::rest) =
    if m.role ≠ .assistant ∨ m.toolCalls = [] then m::repairFrom 0 rest
    else m::(rest.takeWhile isTool++synthesized m (rest.takeWhile isTool)++
      repairFrom (rest.takeWhile isTool).length rest) := rfl

lemma placed_cons : Placed missing (m::rest) =
    if m.role = .tool then m.toolCallID ∈ missing ∧ Placed (missing.erase m.toolCallID) rest
    else Placed (m.calls.map ToolCall.id) rest := rfl

lemma repairFrom_eq (skip : ℕ) : repairFrom skip history = repairFrom 0 (history.drop skip) := by
  induction history generalizing skip with
  | nil => cases skip <;> rfl
  | cons m rest ih =>
    cases skip with
    | zero => rfl
    | succ skip => exact ih skip

lemma repair_cons (h : m.calls = []) : repairFrom 0 (m::rest) = m::repairFrom 0 rest := by
  rw [repairFrom_cons, if_pos (calls_eq_nil.mp h)]

lemma takeWhile_opens (h : Opens rest) : rest.takeWhile isTool = [] := by
  cases rest with
  | nil => rfl
  | cons r rest => simp [h r rfl]

lemma takeWhile_block (htool : ∀ r ∈ block, isTool r) (hrest : Opens rest) : (block++rest).takeWhile isTool = block := by
  rw [takeWhile_append_of_pos htool, takeWhile_opens hrest, append_nil]

lemma repair_block (h : m.calls ≠ []) (htool : ∀ r ∈ block, isTool r) (hrest : Opens rest) :
    repairFrom 0 (m::(block++rest)) = m::(block++synthesized m block++repairFrom 0 rest) := by
  rw [repairFrom_cons, if_neg (mt calls_eq_nil.mpr h), takeWhile_block htool hrest, repairFrom_eq block.length, drop_left]

lemma opens_repair (h : Opens rest) : Opens (repairFrom 0 rest) := by
  cases rest with
  | nil => exact h
  | cons m rest =>
    rw [repairFrom_cons]
    split_ifs <;> exact h

/-- A history is read as messages without calls, and messages with calls and the block behind them. -/
lemma blocks_induction {P : List Message → Prop} (nil : P []) (plain : ∀ m rest, m.calls = [] → P rest → P (m::rest))
    (calls : ∀ m block rest, m.calls ≠ [] → (∀ r ∈ block, isTool r) → Opens rest → P rest → P (m::(block++rest)))
    (history : List Message) : P history := by
  induction hn : history.length using Nat.strong_induction_on generalizing history with
  | _ n ih =>
    cases history with
    | nil => exact nil
    | cons m rest =>
      by_cases hm : m.calls = []
      · exact plain m rest hm (ih rest.length (by simp [← hn]) rest rfl)
      · have hshort : (rest.dropWhile isTool).length ≤ rest.length := (dropWhile_sublist _).length_le
        rw [← takeWhile_append_dropWhile (p := isTool) (l := rest)]
        refine calls m _ _ hm (fun r hr => mem_takeWhile_imp hr) (fun r hr => ?_) (ih _ ?_ _ rfl)
        · have hhead := head?_dropWhile_not isTool rest
          rwa [Option.mem_def.mp hr] at hhead
        · rw [← hn, length_cons]
          omega

lemma isTool_synthesized : ∀ r ∈ synthesized m block, isTool r := by
  intro r hr
  obtain ⟨c, -, rfl⟩ := mem_map.mp hr
  rfl

lemma isTool_block (htool : ∀ r ∈ block, isTool r) : ∀ r ∈ block++synthesized m block, isTool r :=
  forall_mem_append.mpr ⟨htool, isTool_synthesized⟩

lemma mem_answered {id} : id ∈ answered block ↔ id ∈ block.map toolCallID ∧ id ≠ "" := by simp [answered]

lemma ids_synthesized :
    (synthesized m block).map toolCallID = (m.toolCalls.map ToolCall.id).filter (· ∉ answered block) := by
  rw [synthesized, map_map, filter_map]
  rfl

/-- A repaired block is complete, if no call lacks an ID. -/
lemma synthesized_again : synthesized m (block++synthesized m block) = [] ↔ ∀ c ∈ m.toolCalls, c.id ≠ "" := by
  rw [synthesized, map_eq_nil_iff, filter_eq_nil_iff]
  refine forall₂_congr fun c hc => ?_
  have hmem : c.id ∈ m.toolCalls.map ToolCall.id := mem_map_of_mem hc
  rw [decide_eq_true_eq, not_not, mem_answered, map_append, mem_append, ids_synthesized, mem_filter]
  by_cases hanswered : c.id ∈ answered block
  · simp [hanswered, (mem_answered.mp hanswered)]
  · simp [hmem, hanswered]

lemma perm_block_iff (hdistinct : (m.toolCalls.map ToolCall.id).Nodup) (hid : ∀ c ∈ m.toolCalls, c.id ≠ "") :
    ((block++synthesized m block).map toolCallID).Perm (m.toolCalls.map ToolCall.id) ↔
      (block.map toolCallID).Subperm (m.toolCalls.map ToolCall.id) := by
  rw [map_append, ids_synthesized]
  constructor
  · intro h
    exact (sublist_append_left _ _).subperm.trans h.subperm
  · intro hsub
    have hne : ∀ id ∈ m.toolCalls.map ToolCall.id, id ≠ "" := by simpa using hid
    have honce : (block.map toolCallID).Nodup := by
      obtain ⟨ids, hperm, hids⟩ := hsub
      exact hperm.nodup_iff.mp (hids.nodup hdistinct)
    have happend : (block.map toolCallID++(m.toolCalls.map ToolCall.id).filter (· ∉ answered block)).Nodup := by
      refine honce.append (hdistinct.filter _) fun id hid hrest => ?_
      obtain ⟨hcall, hnot⟩ := mem_filter.mp hrest
      exact of_decide_eq_true hnot (mem_answered.mpr ⟨hid, hne id hcall⟩)
    refine (perm_ext_iff_of_nodup happend hdistinct).mpr fun id => ?_
    rw [mem_append, mem_filter]
    constructor
    · rintro (hmem | hmem)
      · exact hsub.subset hmem
      · exact hmem.1
    · intro hcall
      by_cases hanswered : id ∈ answered block
      · exact .inl (mem_answered.mp hanswered).1
      · exact .inr ⟨hcall, decide_eq_true hanswered⟩

/-! ### Whole histories -/

lemma filter_repair (history : List Message) :
    (repairFrom 0 history).filter (!isTool ·) = history.filter (!isTool ·) := by
  induction history using blocks_induction with
  | nil => rfl
  | plain m rest hm ih => rw [repair_cons hm, filter_cons, filter_cons, ih]
  | calls m block rest hm htool hrest ih =>
    have hnone : ∀ {l : List Message}, (∀ r ∈ l, isTool r) → l.filter (!isTool ·) = [] := fun h =>
      filter_eq_nil_iff.mpr fun r hr => by simp [h r hr]
    rw [repair_block hm htool hrest, filter_cons, filter_cons, filter_append (block++_), filter_append block rest,
      hnone (isTool_block htool), hnone htool, ih]

lemma flatMap_block (htool : ∀ r ∈ block, isTool r) :
    (m::(block++rest)).flatMap calls = m.calls++rest.flatMap calls := by
  have hnone : block.flatMap calls = [] := flatMap_eq_nil_iff.mpr fun r hr =>
    calls_eq_nil.mpr (.inl fun hrole => by simpa [isTool, hrole] using htool r hr)
  rw [flatMap_cons, flatMap_append, hnone, nil_append]

lemma repair_repair_iff (history : List Message) : repairFrom 0 (repairFrom 0 history) = repairFrom 0 history ↔
      ∀ c ∈ history.flatMap calls, c.id ≠ "" := by
  induction history using blocks_induction with
  | nil => exact ⟨nofun, fun _ => rfl⟩
  | plain m rest hm ih => rw [repair_cons hm, repair_cons hm, cons_inj_right, ih, flatMap_cons, hm, nil_append]
  | calls m block rest hm htool hrest ih =>
    have hopens : Opens (repairFrom 0 rest) := opens_repair hrest
    rw [repair_block hm htool hrest, repair_block hm (isTool_block htool) hopens, cons_inj_right, append_assoc (block++_),
      append_cancel_left_eq, flatMap_block htool, forall_mem_append, (calls_eq hm).2, ← synthesized_again, ← ih]
    constructor
    · intro heq
      -- A result added by the second pass would stand where the first one left no result.
      have hnone : synthesized m (block++synthesized m block) = [] := by
        have htake := congrArg (takeWhile isTool) heq
        rwa [takeWhile_block isTool_synthesized (opens_repair hopens), takeWhile_opens hopens] at htake
      exact ⟨hnone, by simpa [hnone] using heq⟩
    · rintro ⟨hnone, heq⟩
      rw [hnone, heq, nil_append]

lemma scan_block (htool : ∀ r ∈ block, isTool r) (hrest : Opens rest) :
    scan missing (block++rest) = some [] ↔ (block.map toolCallID).Perm missing ∧ scan [] rest = some [] := by
  induction block generalizing missing with
  | nil =>
    cases rest with
    | nil => simp [scan]
    | cons m rest =>
      have hm : m.role ≠ .tool := of_decide_eq_false (hrest m rfl)
      by_cases hmissing : missing = [] <;> simp [scan, hm, hmissing, eq_comm]
  | cons r block ih =>
    obtain ⟨hr, hblock⟩ := forall_mem_cons.mp htool
    rw [cons_append, scan, if_pos (of_decide_eq_true hr), map_cons, cons_perm_iff_perm_erase]
    by_cases hmem : r.toolCallID ∈ missing <;> simp [hmem, ih hblock]

lemma placed_block (htool : ∀ r ∈ block, isTool r) (hrest : Opens rest) :
    Placed missing (block++rest) ↔ (block.map toolCallID).Subperm missing ∧ Placed [] rest := by
  induction block generalizing missing with
  | nil =>
    cases rest with
    | nil => exact ⟨fun h => ⟨nil_subperm, h⟩, And.right⟩
    | cons m rest =>
      have hm : m.role ≠ .tool := of_decide_eq_false (hrest m rfl)
      simp [placed_cons, hm]
  | cons r block ih =>
    obtain ⟨hr, hblock⟩ := forall_mem_cons.mp htool
    rw [cons_append, placed_cons, if_pos (of_decide_eq_true hr), map_cons, ih hblock, ← and_assoc]
    refine and_congr_left fun _ => ⟨?_, ?_⟩
    · rintro ⟨hmem, hsub⟩
      exact ((subperm_cons _).mpr hsub).trans (perm_cons_erase hmem).symm.subperm
    · intro hsub
      have herase := hsub.erase r.toolCallID
      rw [erase_cons_head] at herase
      exact ⟨hsub.subset mem_cons_self, herase⟩

lemma wellFormed_repair_iff (history : List Message) :
    ((history.flatMap calls).map ToolCall.id).Nodup → (∀ c ∈ history.flatMap calls, c.id ≠ "") →
      (WellFormed (repairFrom 0 history) ↔ Placed [] history) := by
  simp only [wellFormed_iff_scan]
  induction history using blocks_induction with
  | nil => exact fun _ _ => ⟨fun _ => trivial, fun _ => rfl⟩
  | plain m rest hm ih =>
    rw [flatMap_cons, repair_cons hm, hm, nil_append, scan, placed_cons, hm]
    by_cases hrole : m.role = .tool
    · simp [hrole]
    · rw [if_neg hrole, if_neg hrole]
      exact ih
  | calls m block rest hm htool hrest ih =>
    intro hdistinct hid
    have hrole : m.role ≠ .tool := by simp [(calls_eq hm).1]
    rw [flatMap_block htool, (calls_eq hm).2] at hdistinct hid
    rw [map_append] at hdistinct
    obtain ⟨hids, hids'⟩ := forall_mem_append.mp hid
    rw [repair_block hm htool hrest, scan, placed_cons, if_neg hrole, if_neg hrole, if_pos rfl, (calls_eq hm).2,
      scan_block (isTool_block htool) (opens_repair hrest), placed_block htool hrest,
      perm_block_iff hdistinct.of_append_left hids, ih hdistinct.of_append_right hids']

/-- The repair gives what the model accepts, whatever was lost, if no result has moved or is doubled. -/
theorem repaired_iff (h : Recorded history) :
    Repaired history ↔ Placed [] history ∧ ∀ c ∈ history.flatMap calls, c.id ≠ "" := by
  constructor
  · intro hrepaired
    have hid : ∀ c ∈ history.flatMap calls, c.id ≠ "" := (repair_repair_iff history).mp hrepaired.idempotent
    exact ⟨(wellFormed_repair_iff history h.distinct hid).mp hrepaired.wellFormed, hid⟩
  · rintro ⟨hplaced, hid⟩
    exact ⟨(wellFormed_repair_iff history h.distinct hid).mpr hplaced, filter_repair history,
      (repair_repair_iff history).mpr hid⟩

/-- The process stopped while the first of two tools ran, and the user came back. -/
def lost : List Message :=
  [⟨.assistant, "", "", [⟨"a", "bash", ""⟩, ⟨"b", "read", ""⟩]⟩, ⟨.tool, "text", "b", []⟩, ⟨.user, "go on", "", []⟩]

theorem repaired_lost : Recorded lost ∧ Repaired lost := by
  have hrecorded : Recorded lost := ⟨by decide, by decide⟩
  have hplaced : Placed [] lost := (⟨by decide, trivial⟩ : "b" ∈ ["a", "b"] ∧ True)
  exact ⟨hrecorded, (repaired_iff hrecorded).mpr ⟨hplaced, by decide⟩⟩

/-- The user wrote while the tool ran: the call gets a second result. -/
def displaced : List Message := [⟨.assistant, "", "", [⟨"a", "bash", ""⟩]⟩, ⟨.user, "wait", "", []⟩, ⟨.tool, "done", "a", []⟩]

theorem displaced_not_repaired : Recorded displaced ∧ ¬ Repaired displaced :=
  ⟨⟨by decide, by decide⟩, fun h => absurd h.wellFormed.scan_eq (by decide)⟩

end Ayatsuri.AgentLoop
