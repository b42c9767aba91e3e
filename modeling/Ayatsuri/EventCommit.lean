import Ayatsuri.EventStore

/-! The collector commits every event once, if it lists the inbox only while no temporary file is in it and
crashes or fails to append only at the ends of lines. -/
namespace Ayatsuri.EventStore
open TransitionSystem ByteLines List CollectorPc Dir

namespace CollectorPc
variable {B : Type}

@[simp] def todo : CollectorPc B → List String
  | .scan names _ | .quarantine _ names _ => names
  | .discard name names _ => name::names
  | _ => []

@[simp] def quarantining : CollectorPc B → List String
  | .quarantine name _ _ => [name]
  | _ => []

@[simp] def discarding : CollectorPc B → List String
  | .discard name _ _ => [name]
  | _ => []

lemma discarding_subset {pc : CollectorPc B} : pc.discarding ⊆ pc.todo := by cases pc <;> simp

@[simp] def paths : CollectorPc B → List String
  | .scan _ pending | .quarantine _ _ pending | .discard _ _ pending => pending.map fun p => p.path
  | _ => []

@[simp] def writing : CollectorPc B → List (Pending B)
  | .append _ _ group _ => group
  | _ => []

end CollectorPc

open State

namespace State
variable {B : Type} {codec : Codec B} {batchSize : ℕ} {s t : State B} {l : Label} {name : String}

def committed (codec : Codec B) (s : State B) : List Event := s.logs.sorted.flatMap fun log => decodeLines codec log.2

def Collecting (s : State B) (l : Label) : Prop := s.Distinct l ∧ l ≠ .read

def Undisturbed (s : State B) (l : Label) : Prop := s.Collecting l ∧ s.CrashAtLineEnd l ∧ s.ListWithoutTemps l

def CrashesBetweenLines (s : State B) (l : Label) : Prop := s.Collecting l ∧ s.CrashAtLineEnd l

def ListsBetweenCalls (s : State B) (l : Label) : Prop := s.Collecting l ∧ s.ListWithoutTemps l

section
variable [DecidableEq B] (s : State B) (l : Label)

instance : Decidable (s.Collecting l) := instDecidableAnd

instance : Decidable (s.Undisturbed l) := instDecidableAnd

instance : Decidable (s.CrashesBetweenLines l) := instDecidableAnd

instance : Decidable (s.ListsBetweenCalls l) := instDecidableAnd

end

/-! ### The files in the inbox -/

def Known (s : State B) (name : String) : Prop := name ∈ s.names ∧ ∀ x ∈ s.emits, name = x.1.name → x.2 = .ok

lemma Files.known (h : Files codec s) (hname : name ∈ s.inbox.names) : s.Known name := by
  refine ⟨h.mem_names hname, ?_⟩
  intro x hx heq
  obtain ⟨file, hfile, rfl⟩ := mem_map.mp hname
  obtain ⟨y, hy, hown⟩ := h.owned file hfile
  rcases hown with ⟨rest, -, htemp, -⟩ | ⟨hok, hfinal, -⟩
  · exact absurd (heq.symm.trans htemp) (h.name_ne_temp hx hy)
  · rwa [h.eq_of_name hx hy (.inl heq) (.inl hfinal)]

variable {x : Call × EmitPc B} {call : Call}

lemma CallStep.of_mem {i} (h : CallStep s i call t) (hx : x ∈ t.emits) :
    x ∈ s.emits ∨ x.1 = call ∧ ∃ rest, (call, .writing rest) ∈ s.emits := by
  obtain ⟨rest, pc, hget, hset⟩ := h.at_index
  rw [hset] at hx
  rcases mem_or_eq_of_mem_set hx with hx | rfl
  · exact .inl hx
  · exact .inr ⟨rfl, rest, mem_of_getElem? hget⟩

variable {event : Event}

lemma mem_emits_emit {final temp pc} (hemits : t.emits = s.emits++[(⟨event, final, temp⟩, pc)]) (hfinal : final ∉ s.names)
    (hname : name ∈ s.names) (hx : x ∈ t.emits) (heq : name = x.1.name) : x ∈ s.emits := by
  rw [hemits, mem_append, mem_singleton] at hx
  rcases hx with hx | rfl
  · exact hx
  · have hfinal' : name = final := heq
    exact absurd (hfinal' ▸ hname) hfinal

lemma Known.callStep (h : s.Known name) {i} (hstep : CallStep s i call t) :
    ∀ x ∈ t.emits, name = x.1.name → x ∈ s.emits := by
  intro x hx heq
  rcases hstep.of_mem hx with hx | ⟨rfl, rest, hmem⟩
  · exact hx
  · cases h.2 _ hmem heq

lemma names_of_subset (h : t.inbox.entries ⊆ s.inbox.entries) : t.inbox.names ⊆ s.inbox.names := map_subset _ h

/-! ### From the inbox to the logs -/

lemma CollectStep.log_append (h : CollectStep codec batchSize s t) (hour : ℤ) :
    ∃ more, t.log hour = s.log hour++more := by
  cases h with
  | openLog hour' group later hpc =>
    refine ⟨[], ?_⟩
    rw [log_put (s := s) rfl, append_nil]
    split_ifs with heq
    · rw [heq]
    · rfl
  | write hour' rest group later size hpc unwritten =>
    rw [log_put (s := s) rfl]
    split_ifs with heq
    · exact ⟨rest.take size, by rw [heq]⟩
    · exact ⟨[], (append_nil _).symm⟩
  | quarantine name todo pending hpc =>
    have hframe := moveToQuarantine_frame (s := s) name
    refine ⟨[], ?_⟩
    rw [append_nil, log, hframe.2.1]
    rfl
  | _ => exact ⟨[], (append_nil _).symm⟩

-- only opening the log of a group adds to the text its hour is going to have
lemma CollectStep.full_eq (h : CollectStep codec batchSize s t)
    (hopen : ∀ group later, s.collector ≠ .groups (group::later)) : t.full = s.full := by
  funext hour
  cases h with
  | openLog _ _ _ hpc => exact absurd hpc (hopen _ _)
  | write hour' rest group later size hpc unwritten =>
    rw [full, full, hpc, log_put (s := s) rfl]
    simp only [CollectorPc.unwritten]
    split_ifs with heq
    · rw [append_assoc, take_append_drop, heq]
    · rfl
  | quarantine name todo pending hpc =>
    rw [full, full, hpc, log, (moveToQuarantine_frame (s := s) name).2.1]
    rfl
  | sync hour' group later hpc =>
    rw [full, full, hpc]
    simp only [CollectorPc.unwritten, ite_self]
    rfl
  | list hpc | group _ hpc | finish hpc | unreadable _ _ _ hpc | known _ _ _ _ _ hpc | queue _ _ _ _ _ hpc
  | discard _ _ _ hpc | removed _ hpc | remove _ _ _ hpc | keep _ _ _ hpc =>
    rw [full, full, hpc]
    rfl

variable {p : Pending B}

lemma CollectStep.waiting (h : CollectStep codec batchSize s t) (hp : p ∈ s.collector.waiting) :
    p ∈ t.collector.waiting ∨ p ∈ t.collector.opened := by
  cases h with
  | group pending hpc =>
    rw [hpc] at hp
    exact .inl (mem_flatMap_groupByHour.mpr hp)
  | queue name todo pending raw event hpc =>
    rw [hpc] at hp
    exact .inl (mem_append_left _ hp)
  | openLog hour group later hpc =>
    simp only [hpc, waiting, flatMap_cons, mem_append] at hp
    exact hp.symm
  | list hpc | finish hpc | unreadable _ _ _ hpc | known _ _ _ _ _ hpc | quarantine _ _ _ hpc | discard _ _ _ hpc
  | sync _ _ _ hpc | write _ _ _ _ _ hpc | removed _ hpc | remove _ _ _ hpc | keep _ _ _ hpc =>
    rw [hpc] at hp
    exact .inl hp

lemma Logs.encode_mem (h : Logs codec s) (hp : p ∈ s.collector.opened) :
    codec.encode p.event ∈ lines (s.full p.event.hour) := by
  obtain ⟨call, -, hevent, hraw, -⟩ := h.took p (mem_append_right _ hp)
  have hplaced := h.placed p hp
  rwa [hraw, ← hevent] at hplaced

lemma Files.event_eq (h : Files codec s) (hp : s.Took codec p)
    (hx : x ∈ s.emits) (heq : p.path = x.1.name) : p.event = x.1.event := by
  obtain ⟨call, hcall, hevent, -, hpath⟩ := hp
  obtain ⟨y, hy, rfl⟩ := mem_map.mp hcall
  obtain rfl := h.eq_of_name hx hy (.inl heq) hpath
  exact hevent

lemma CallStep.file {i : ℕ} (h : CallStep s i call t) (hfiles : Files codec s) {call' : Call}
    (hok : (call', .ok) ∈ t.emits) : (call', .ok) ∈ s.emits ∧
        (∀ bytes, (call'.name, bytes) ∈ s.inbox.entries → (call'.name, bytes) ∈ t.inbox.entries) ∨
      (call'.name, codec.encode call'.event) ∈ t.inbox.entries := by
  have hother {rest : List B} {pc : EmitPc B} (hget : s.emits[i]? = some (call, .writing rest))
      (hmem : (call', .ok) ∈ s.emits.set i (call, pc)) (hpc : pc ≠ .ok) : (call', .ok) ∈ s.emits := by
    rcases mem_or_eq_of_mem_set hmem with hmem | heq
    · exact hmem
    · cases heq
      exact absurd rfl hpc
  cases h with
  | write rest size hget gone | fail hget gone => exact .inl ⟨hother hget hok (by simp), fun _ hfile => hfile⟩
  | grow rest bytes size hget htemp =>
    have hmem := hother hget hok (by simp)
    refine .inl ⟨hmem, fun bytes' hfile => mem_put.mpr (.inr ⟨hfile, ?_⟩)⟩
    exact hfiles.name_ne_temp hmem (mem_of_getElem? hget)
  | rename bytes hget htemp =>
    rcases mem_or_eq_of_mem_set hok with hmem | heq
    · have hat := mem_of_getElem? hget
      refine .inl ⟨hmem, fun bytes' hfile => mem_put.mpr (.inr ⟨mem_remove.mpr ⟨hfile, ?_⟩, fun hname => ?_⟩)⟩
      · exact hfiles.name_ne_temp hmem hat
      · cases hfiles.eq_of_name hmem hat (.inl rfl) (.inl hname)
    · cases heq
      refine .inr (mem_put.mpr (.inl ?_))
      rw [← hfiles.temp_content hget htemp, append_nil]

/-! ### What a round keeps -/

def Arrived (s : State B) (name : String) : Prop := ∃ x ∈ s.emits, x.2 = .ok ∧ name = x.1.name ∧ name ∈ s.inbox.names

/-- How far a round has come: the files to be read are there, each is read once, and what is discarded is on a line. -/
structure Round (codec : Codec B) (s : State B) : Prop where
  arrived : ∀ name ∈ s.collector.todo, s.Arrived name
  readable : s.collector.quarantining = []
  nodup : (s.collector.todo++s.collector.paths).Nodup
  final : ∀ p ∈ s.collector.waiting++s.collector.opened, ∃ call ∈ s.calls, p.path = call.name
  discarded : ∀ name ∈ s.collector.discarding, ∀ x ∈ s.emits, name = x.1.name →
    codec.encode x.1.event ∈ lines (s.log x.1.event.hour)

structure Arrivals (codec : Codec B) (s : State B) : Prop where
  succeeds : ∀ x ∈ s.emits, x.2 ≠ .failed
  temps : ∀ x ∈ s.emits, ∀ rest, x.2 = .writing rest → x.1.temp ∈ s.inbox.names
  quarantined : s.quarantined = []
  kept : ∀ call, (call, .ok) ∈ s.emits →
    (call.name, codec.encode call.event) ∈ s.inbox.entries ∨ codec.encode call.event ∈ lines (s.log call.event.hour)

structure Once (codec : Codec B) (s : State B) : Prop where
  lines : ∀ hour, (lines (s.full hour)).Nodup
  waiting : s.collector.waiting.Nodup
  ids : ∀ p ∈ s.collector.waiting, ∀ q ∈ s.collector.waiting, p.event.id = q.event.id → p = q
  fresh : ∀ p ∈ s.collector.waiting, p.raw ∉ ByteLines.lines (s.full p.event.hour)
  seen : ∀ call ∈ s.calls, codec.encode call.event ∈ ByteLines.lines (s.full call.event.hour) →
    call.event.id ∈ s.seenIDs ∨ ∃ p ∈ s.collector.writing, p.event = call.event

/-! ### Each event on one line -/

variable {log : ℤ × Text B}

lemma Logs.emitted_of_mem (h : Logs codec s) (hlog : log ∈ s.logs.sorted) {bytes}
    (hbytes : bytes ∈ lines log.2) : ∃ call ∈ s.calls, bytes = codec.encode call.event ∧ call.event.hour = log.1 := by
  apply h.emitted log.1 bytes
  rw [full, log_of_sorted hlog]
  exact lines_subset_append _ _ hbytes

lemma encode_injective (codec : Codec B) {e e'} (h : codec.encode e = codec.encode e') : e = e' := by
  have hdecode := codec.decode_encode e
  rw [h, codec.decode_encode] at hdecode
  exact (Option.some.inj hdecode).symm

variable {p : Pending B}

lemma Took.raw_eq (h : s.Took codec p) : p.raw = codec.encode p.event := by
  obtain ⟨call, -, hevent, hraw, -⟩ := h
  rw [hraw, hevent]

lemma exists_log {hour : ℤ} {bytes} (h : bytes ∈ lines (s.log hour)) : ∃ text, s.logs.get? hour = some text := by
  rw [log] at h
  cases hget : s.logs.get? hour with
  | none => simp [hget] at h
  | some text => exact ⟨text, rfl⟩

variable {pending : List (Pending B)}

lemma nodup_groupByHour (h : pending.Nodup) : ((groupByHour pending).flatMap Prod.snd).Nodup := by
  rw [nodup_flatMap]
  constructor
  · rintro ⟨hour, group⟩ hgroup
    rw [mem_groupByHour hgroup]
    exact h.filter _
  have hnodup : ((pending.map fun p => p.event.hour).dedup.map (id : ℤ → ℤ)).Nodup := by simpa using nodup_dedup _
  have hhours := SortedMerge.pairwise_sortBy hnodup
  simp only [groupByHour]
  rw [pairwise_map]
  refine hhours.imp fun {a b} hab => ?_
  intro p hp hq
  simp only [mem_filter, decide_eq_true_eq] at hp hq
  exact absurd (hp.2.symm.trans hq.2) (ne_of_lt hab)

namespace Once

lemma frame (h : Once codec s) (hcalls : t.calls = s.calls) (hfull : t.full = s.full) (hseen : t.seenIDs = s.seenIDs)
    (hwaiting : t.collector.waiting = s.collector.waiting)
    (hwriting : t.collector.writing = s.collector.writing) : Once codec t := by
  refine ⟨hfull ▸ h.lines, hwaiting ▸ h.waiting, hwaiting ▸ h.ids, ?_, ?_⟩
  · rw [hfull, hwaiting]
    exact h.fresh
  · rw [hfull, hcalls, hseen, hwriting]
    exact h.seen

variable {event : Event}

lemma emit (h : Once codec s) (hlogs : Logs codec s) {final temp}
    (hid : event.id ∉ s.emits.map fun x => x.1.event.id) (hcalls : t.calls = s.calls++[⟨event, final, temp⟩])
    (hfull : t.full = s.full) (hseen : t.seenIDs = s.seenIDs) (hpc : t.collector = s.collector) : Once codec t := by
  refine ⟨hfull ▸ h.lines, hpc ▸ h.waiting, hpc ▸ h.ids, ?_, ?_⟩
  · rw [hfull, hpc]
    exact h.fresh
  rw [hfull, hcalls, hseen, hpc]
  intro call hcall hline
  rcases mem_append.mp hcall with hcall | hnew
  · exact h.seen call hcall hline
  obtain rfl := mem_singleton.mp hnew
  obtain ⟨call', hcall', hencode, -⟩ := hlogs.emitted _ _ hline
  have heq : event = call'.event := encode_injective codec hencode
  rw [ids_eq] at hid
  exact absurd (mem_map.mpr ⟨call', hcall', by rw [heq]⟩) hid

variable {pending : List (Pending B)}

lemma group (h : Once codec s) (hpc : s.collector = .scan [] pending) :
    Once codec {s with collector := .groups (groupByHour pending)} := by
  have hwaiting := h.waiting
  have hids := h.ids
  have hfresh := h.fresh
  rw [hpc] at hwaiting hids hfresh
  have hfull := (CollectStep.group pending hpc : CollectStep codec 0 s _).full_eq (by simp [hpc])
  refine ⟨hfull ▸ h.lines, nodup_groupByHour hwaiting, fun p hp q hq => ?_, fun p hp => ?_, ?_⟩
  · exact hids p (mem_flatMap_groupByHour.mp hp) q (mem_flatMap_groupByHour.mp hq)
  · rw [hfull]
    exact hfresh p (mem_flatMap_groupByHour.mp hp)
  · have hseen := h.seen
    rw [hpc] at hseen
    rw [hfull]
    exact hseen

lemma queue (h : Once codec s) (hfiles : Files codec s) {todo raw} (hpc : s.collector = .scan (name::todo) pending)
    (hfile : s.inbox.get? name = some raw)
    (hdecode : codec.decode raw = some event) (hunseen : event.id ∉ s.seenIDs)
    (hunqueued : event.id ∉ pending.map fun p => p.event.id) :
    Once codec {s with collector := .scan todo (pending++[⟨name, raw, event⟩])} := by
  obtain ⟨hlines, hwaiting, hids, hfresh, hseen⟩ := h
  rw [hpc] at hwaiting hids hfresh hseen
  obtain ⟨call, hcall, hevent, hraw, -⟩ := hfiles.took hfile hdecode
  have hfull := (CollectStep.queue _ _ _ _ _ hpc hfile hdecode hunseen hunqueued :
    CollectStep codec 0 s _).full_eq (by simp [hpc])
  have hold {p : Pending B} (hp : p ∈ pending) : p.event.id ≠ event.id := by
    intro heq
    exact hunqueued (mem_map.mpr ⟨p, hp, heq⟩)
  refine ⟨hfull ▸ hlines, ?_, ?_, ?_, ?_⟩
  · refine nodup_append.mpr ⟨hwaiting, nodup_singleton _, ?_⟩
    rintro p hp _ hnew rfl
    rw [mem_singleton.mp hnew] at hp
    exact hold hp rfl
  · intro p hp q hq heq
    rcases mem_append.mp hp with hp | hp <;> rcases mem_append.mp hq with hq | hq
    · exact hids p hp q hq heq
    · rw [mem_singleton.mp hq] at heq
      exact absurd heq (hold hp)
    · rw [mem_singleton.mp hp] at heq
      exact absurd heq.symm (hold hq)
    · rw [mem_singleton.mp hp, mem_singleton.mp hq]
  · rw [hfull]
    intro p hp
    rcases mem_append.mp hp with hp | hp
    · exact hfresh p hp
    rw [mem_singleton.mp hp]
    intro hline
    change raw = _ at hraw
    change event = _ at hevent
    rw [hraw, hevent] at hline
    rcases hseen call hcall hline with hid | ⟨_, hnone, -⟩
    · exact hunseen (hevent ▸ hid)
    · cases hnone
  · rw [hfull]
    exact hseen

variable {later : List (ℤ × List (Pending B))} (h : Once codec s)
include h

lemma openLog (hlogs : Logs codec s) {hour : ℤ} {group}
    (hpc : s.collector = .groups ((hour, group)::later)) : Once codec {s with
      logs := s.logs.put hour (s.log hour), collector := .append hour (groupText group) group later} := by
  have hwaiting := h.waiting
  have hids := h.ids
  have hfresh := h.fresh
  have hhours := hlogs.hours
  have htook := hlogs.took
  simp only [hpc, CollectorPc.waiting, opened, grouped, flatMap_cons, append_nil,
    forall_mem_cons] at hwaiting hids hfresh hhours htook
  obtain ⟨hgroup, hlater, hdisjoint⟩ := nodup_append.mp hwaiting
  have hraw {p q : Pending B} (hp : p ∈ group++later.flatMap Prod.snd) (hq : q ∈ group++later.flatMap Prod.snd)
      (heq : p.raw = q.raw) : p = q := by
    rw [(htook p hp).raw_eq, (htook q hq).raw_eq] at heq
    exact hids p hp q hq (by rw [encode_injective codec heq])
  set u : State B := {s with
    logs := s.logs.put hour (s.log hour), collector := .append hour (groupText group) group later}
  have hlines (h' : ℤ) : ByteLines.lines (u.full h') =
      ByteLines.lines (s.full h')++if h' = hour then group.map (·.raw) else [] := hlogs.lines_openLog hpc h'
  refine ⟨?_, hlater, ?_, ?_, ?_⟩
  · intro h'
    rw [hlines]
    split_ifs with heq
    · refine nodup_append.mpr ⟨h.lines h', ?_, ?_⟩
      · refine (nodup_map_iff_inj_on hgroup).mpr fun p hp q hq heq => ?_
        exact hraw (mem_append_left _ hp) (mem_append_left _ hq) heq
      rintro bytes hold _ hnew rfl
      obtain ⟨p, hp, rfl⟩ := mem_map.mp hnew
      refine hfresh p (mem_append_left _ hp) ?_
      rwa [hhours.1 p hp, ← heq]
    · simpa using h.lines h'
  · exact fun p hp q hq => hids p (mem_append_right _ hp) q (mem_append_right _ hq)
  · intro p hp hline
    rw [hlines, mem_append] at hline
    rcases hline with hline | hline
    · exact hfresh p (mem_append_right _ hp) hline
    split_ifs at hline
    · obtain ⟨q, hq, heq⟩ := mem_map.mp hline
      obtain rfl := hraw (mem_append_left _ hq) (mem_append_right _ hp) heq
      exact hdisjoint q hq q hp rfl
    · cases hline
  · intro call hcall hline
    rw [hlines, mem_append] at hline
    rcases hline with hline | hline
    · have hseen := h.seen call hcall hline
      rw [hpc] at hseen
      exact .inl (hseen.resolve_right (by simp))
    split_ifs at hline
    · obtain ⟨p, hp, heq⟩ := mem_map.mp hline
      rw [(htook p (mem_append_left _ hp)).raw_eq] at heq
      exact .inr ⟨p, hp, encode_injective codec heq⟩
    · cases hline

lemma sync {hour group} (hpc : s.collector = .append hour [] group later) : Once codec {s with
      seenIDs := group.map (·.event.id)++s.seenIDs, collector := .remove group later} := by
  obtain ⟨hlines, hwaiting, hids, hfresh, hseen⟩ := h
  rw [hpc] at hwaiting hids hfresh hseen
  have hfull := (CollectStep.sync hour group later hpc : CollectStep codec 0 s _).full_eq (by simp [hpc])
  refine ⟨hfull ▸ hlines, hwaiting, hids, hfull ▸ hfresh, ?_⟩
  rw [hfull]
  intro call hcall hline
  rcases hseen call hcall hline with hid | ⟨p, hp, heq⟩
  · exact .inl (mem_append_right _ hid)
  · exact .inl (mem_append_left _ (mem_map.mpr ⟨p, hp, by rw [heq]⟩))

lemma giveUp (hwhole : s.Whole) (items : List (Pending B)) {ids : List String} (hids : ∀ call ∈ s.calls,
      codec.encode call.event ∈ ByteLines.lines (s.log call.event.hour) → call.event.id ∈ ids) :
    Once codec {s with collector := .remove items [], seenIDs := ids} := by
  set u : State B := {s with collector := .remove items [], seenIDs := ids}
  have hfull : u.full = s.log := funext fun _ => append_nil _
  refine ⟨fun hour => ?_, nodup_nil, by simp [u], by simp [u], ?_⟩
  · have hlines := h.lines hour
    rw [full, lines_append (whole_log hwhole hour)] at hlines
    rw [hfull]
    exact (nodup_append.mp hlines).1
  · rw [hfull]
    exact fun call hcall hline => .inl (hids call hcall hline)

lemma crash (hinv : Inv codec s) (hwhole : s.Whole) :
    Once codec {s with collector := .idle, seenIDs := loadSeenIDs codec s.logs} := by
  refine {h.giveUp hwhole [] fun call hcall hline => ?_ with}
  obtain ⟨text, hget⟩ := exists_log hline
  have hfile := get?_eq_some.mp hget
  refine mem_seenIn (fun log hlog bytes hbytes => ?_) (mem_sorted.mpr hfile) ?_
  · rw [tokens_of_whole (hwhole _ (mem_sorted.mp hlog))] at hbytes
    obtain ⟨call, -, heq, -⟩ := hinv.emitted_of_mem hlog hbytes
    exact ⟨call.event, heq⟩
  · rw [tokens_of_whole (hwhole _ hfile), ← log_of_sorted (mem_sorted.mpr hfile)]
    exact hline

lemma fail (hinv : Inv codec s) (hwhole : s.Whole) (hfail : FailStep codec s t) : Once codec t := by
  cases hfail with
  | @give hour rest group items later hpc hitems =>
    refine h.giveUp hwhole items fun call hcall hline => ?_
    rcases h.seen call hcall (lines_subset_append _ _ hline) with hid | ⟨p, hp, heq⟩
    · exact mem_append_right _ hid
    -- the line belongs to the group that was being written, so it stands in the log that was read again
    have hhour : call.event.hour = hour := by
      have hhours := hinv.hours (hour, group) (by simp [hpc]) p (by simpa [hpc] using hp)
      rwa [heq] at hhours
    refine mem_append_left _ (mem_map_of_mem ?_)
    rw [hinv.toLogs.decodeLines_log hwhole, mem_filterMap]
    exact ⟨_, hhour ▸ hline, codec.decode_encode _⟩

lemma collectStep (hinv : Inv codec s) (hstep : CollectStep codec batchSize s t) : Once codec t := by
  have hfull := hstep.full_eq
  cases hstep with
  | group pending hpc => exact h.group hpc
  | queue name todo pending raw event hpc file decoded unseen unqueued =>
    exact h.queue hinv.toFiles hpc file decoded unseen unqueued
  | openLog hour group later hpc => exact h.openLog hinv.toLogs hpc
  | sync hour group later hpc => exact h.sync hpc
  | quarantine name todo pending hpc =>
    have hframe := moveToQuarantine_frame (s := s) name
    refine h.frame ?_ (hfull (by simp [hpc])) hframe.2.2.1 (by rw [hpc]; rfl) (by rw [hpc]; rfl)
    rw [calls, hframe.1]
    rfl
  | write _ _ _ _ _ hpc | list hpc | finish hpc | unreadable _ _ _ hpc | known _ _ _ _ _ hpc | discard _ _ _ hpc
  | removed _ hpc | remove _ _ _ hpc | keep _ _ _ hpc =>
    exact h.frame rfl (hfull (by simp [hpc])) rfl (by rw [hpc]; rfl) (by rw [hpc]; rfl)

lemma step (hinv : Inv codec s) (hl : s.Undisturbed l) (hstep : s.step codec batchSize l = some t) : Once codec t := by
  rcases step_cases hstep with ⟨event, final, temp, rfl, -, -, -, rfl⟩ | ⟨i, call, hcall⟩ |
    ⟨size, rfl, rfl⟩ | ⟨rfl, rfl⟩ | ⟨rfl, hfail⟩ | ⟨rfl, rfl⟩
  · have hcalls : State.calls {s with
        inbox := s.inbox.put temp []
        emits := s.emits++[(⟨event, final, temp⟩, .writing (codec.encode event))]} =
        s.calls++[⟨event, final, temp⟩] := by simp [calls]
    exact h.emit hinv.toLogs hl.1.1 hcalls rfl rfl rfl
  · obtain ⟨hlogs, hpc, hseen, -⟩ := hcall.frame
    refine h.frame hcall.calls_eq ?_ hseen (by rw [hpc]) (by rw [hpc])
    funext h'
    rw [full, full, log, log, hlogs, hpc]
  · exact h.collectStep hinv (State.collectStep codec batchSize s size)
  · exact h.crash hinv hl.2.1
  · exact h.fail hinv hl.2.1 hfail
  · exact absurd rfl hl.1.2

end Once

/-! ### Every call succeeds -/

lemma Arrived.known (h : s.Arrived name) (hfiles : Files codec s) : s.Known name := by
  obtain ⟨x, hx, -, -, hmem⟩ := h
  exact hfiles.known hmem

lemma Arrived.mono (h : s.Arrived name) (hemits : ∀ x ∈ s.emits, x.2 = .ok → x ∈ t.emits)
    (hinbox : name ∈ s.inbox.names → name ∈ t.inbox.names) : t.Arrived name := by
  obtain ⟨x, hx, hok, hname, hmem⟩ := h
  exact ⟨x, hemits x hx hok, hok, hname, hinbox hmem⟩

variable {call : Call}

lemma CallStep.mem_of_ok {i} (h : CallStep s i call t) {x : Call × EmitPc B} (hx : x ∈ s.emits)
    (hok : x.2 = .ok) : x ∈ t.emits := by
  rcases h.mem_emits hx with ⟨rest, rfl⟩ | hmem
  · cases hok
  · exact hmem

lemma CallStep.names {i} (h : CallStep s i call t) (hname : name ∈ s.inbox.names) :
    name ∈ t.inbox.names ∨ name = call.temp ∧ (call, .ok) ∈ t.emits := by
  obtain ⟨file, hfile, rfl⟩ := mem_map.mp hname
  cases h with
  | write rest size hget gone | fail hget gone => exact .inl hname
  | grow rest bytes size hget htemp =>
    by_cases heq : file.1 = call.temp
    · exact .inl (mem_map.mpr ⟨_, mem_put.mpr (.inl rfl), heq.symm⟩)
    · exact .inl (mem_names_of_mem (mem_put.mpr (.inr ⟨hfile, heq⟩)))
  | rename bytes hget htemp =>
    by_cases heq : file.1 = call.temp
    · have hlt := lt_of_getElem? hget
      exact .inr ⟨heq, mem_set hlt _⟩
    by_cases hfinal : file.1 = call.name
    · exact .inl (mem_map.mpr ⟨_, mem_put.mpr (.inl rfl), hfinal.symm⟩)
    · exact .inl (mem_names_of_mem (mem_put.mpr (.inr ⟨mem_remove.mpr ⟨hfile, heq⟩, hfinal⟩)))

lemma Files.decode_arrived (h : Files codec s) (harrived : s.Arrived name) :
    (s.inbox.get? name).bind codec.decode ≠ none := by
  obtain ⟨x, hx, -, rfl, hmem⟩ := harrived
  obtain ⟨file, hfile, hname⟩ := mem_map.mp hmem
  obtain ⟨y, hy, ⟨rest, -, htemp, -⟩ | ⟨-, -, hbytes⟩⟩ := h.owned file hfile
  · exact absurd (hname.symm.trans htemp) (h.name_ne_temp hx hy)
  · rw [← hname, get?_eq_some.mpr hfile, hbytes]
    simp [codec.decode_encode]

lemma mem_names_put {content other} (hname : name ∈ s.inbox.names) : name ∈ (s.inbox.put other content).names := by
  obtain ⟨file, hfile, rfl⟩ := mem_map.mp hname
  by_cases heq : file.1 = other
  · exact mem_map.mpr ⟨_, mem_put.mpr (.inl rfl), heq.symm⟩
  · exact mem_names_of_mem (mem_put.mpr (.inr ⟨hfile, heq⟩))

lemma mem_names_remove {other} (hname : name ∈ s.inbox.names) (hne : name ≠ other) :
    name ∈ (s.inbox.remove other).names := by
  obtain ⟨file, hfile, rfl⟩ := mem_map.mp hname
  exact mem_names_of_mem (mem_remove.mpr ⟨hfile, hne⟩)

namespace Round

lemma frame (h : Round codec s) (hpc : t.collector = s.collector) (hcalls : s.calls ⊆ t.calls)
    (harrived : ∀ name, s.Arrived name → t.Arrived name)
    (hemits : ∀ name, s.Arrived name → ∀ x ∈ t.emits, name = x.1.name → x ∈ s.emits)
    (hlogs : t.logs = s.logs) : Round codec t := by
  refine ⟨?_, hpc ▸ h.readable, hpc ▸ h.nodup, ?_, ?_⟩
  · intro name hname
    exact harrived name (h.arrived name (hpc ▸ hname))
  · intro p hp
    obtain ⟨call, hcall, hpath⟩ := h.final p (hpc ▸ hp)
    exact ⟨call, hcalls hcall, hpath⟩
  intro name hname x hx heq
  rw [hpc] at hname
  have hxs := hemits name (h.arrived name (discarding_subset hname)) x hx heq
  rw [log, hlogs]
  exact h.discarded name hname x hxs heq

lemma past (h : Round codec s) (hcalls : t.calls = s.calls) (htodo : t.collector.todo = [])
    (hquarantining : t.collector.quarantining = []) (hpaths : t.collector.paths = [])
    (hdiscarding : t.collector.discarding = [])
    (hitems : t.collector.waiting++t.collector.opened ⊆ s.collector.waiting++s.collector.opened) : Round codec t := by
  refine ⟨by rw [htodo]; simp, hquarantining, by rw [htodo, hpaths]; simp, ?_, by rw [hdiscarding]; simp⟩
  intro p hp
  rw [hcalls]
  exact h.final p (hitems hp)

lemma list (hfiles : Files codec s) (hl : ∀ x ∈ s.emits, x.1.temp ∉ s.inbox.names) (n : ℕ) :
    Round codec {s with collector := .scan ((s.inbox.sorted.map Prod.fst).take n) []} := by
  refine ⟨?_, rfl, ?_, by simp, by simp⟩
  · intro name hname
    obtain ⟨file, hfile, rfl⟩ := mem_map.mp (mem_of_mem_take hname)
    have hin := mem_sorted.mp hfile
    obtain ⟨x, hx, hown⟩ := hfiles.owned file hin
    rcases hown with ⟨rest, -, htemp, -⟩ | ⟨hok, hname, -⟩
    · exact absurd (htemp ▸ mem_names_of_mem hin) (hl x hx)
    · exact ⟨x, hx, hok, hname, mem_names_of_mem hin⟩
  · simp only [CollectorPc.todo, CollectorPc.paths, map_nil, append_nil]
    refine List.Nodup.sublist (take_sublist _ _) ?_
    exact (sorted_perm.map _).nodup_iff.mpr s.inbox.nodup

variable (h : Round codec s)
include h
variable {todo : List String} {pending : List (Pending B)}

lemma known (hinv : Inv codec s) {raw} {event : Event} (hpc : s.collector = .scan (name::todo) pending)
    (hfile : s.inbox.get? name = some raw) (hdecode : codec.decode raw = some event)
    (hknown : event.id ∈ s.seenIDs ∨ event.id ∈ pending.map fun p => p.event.id) :
    Round codec {s with collector := .discard name todo pending} := by
  obtain ⟨harrived, -, hnodup, hfinal, -⟩ := h
  rw [hpc] at harrived hnodup hfinal
  refine ⟨harrived, rfl, hnodup, hfinal, ?_⟩
  simp only [discarding, mem_singleton, forall_eq]
  intro x hx heq
  have hevent : event = x.1.event := hinv.event_eq (hinv.toFiles.took hfile hdecode) hx heq
  subst hevent
  rcases hknown with hseen | hqueued
  · obtain ⟨call, hcall, hid, hline⟩ := hinv.seen _ hseen
    rwa [hinv.call_eq_of_id (mem_map_of_mem hx) hcall hid.symm]
  -- the event would have been read from the file of the same name
  obtain ⟨p, hp, hid⟩ := mem_map.mp hqueued
  have hin : p ∈ s.collector.waiting++s.collector.opened := by
    rw [hpc]
    exact mem_append_left _ hp
  obtain ⟨call, hcall, hpath⟩ := hfinal p (by rw [hpc] at hin; exact hin)
  obtain ⟨y, hy, rfl⟩ := mem_map.mp hcall
  have hpe : p.event = y.1.event := hinv.event_eq (hinv.toLogs.took p hin) hy hpath
  have hxy : x.1 = y.1 := hinv.call_eq_of_id (mem_map_of_mem hx) (mem_map_of_mem hy) (by rw [← hpe, hid])
  have hname : name = p.path := by rw [heq, hpath, hxy]
  have hnotin := (nodup_append.mp hnodup).2.2
  exact absurd hname (hnotin name mem_cons_self p.path (mem_map_of_mem hp))

lemma queue (raw : List B) (event : Event) (hpc : s.collector = .scan (name::todo) pending) :
    Round codec {s with collector := .scan todo (pending++[⟨name, raw, event⟩])} := by
  obtain ⟨harrived, -, hnodup, hfinal, -⟩ := h
  rw [hpc] at harrived hnodup hfinal
  refine ⟨fun n hn => harrived n (mem_cons_of_mem _ hn), rfl, ?_, ?_, by simp⟩
  · simp only [CollectorPc.todo, CollectorPc.paths, map_append, map_cons, map_nil] at hnodup ⊢
    refine (List.Perm.nodup_iff ?_).mp hnodup
    rw [← append_assoc]
    exact (perm_append_singleton name _).symm
  intro p hp
  simp only [CollectorPc.waiting, opened, append_nil, mem_append, mem_singleton] at hp
  rcases hp with hp | rfl
  · exact hfinal p (mem_append_left _ hp)
  · obtain ⟨x, hx, -, hname, -⟩ := harrived name mem_cons_self
    exact ⟨x.1, mem_map_of_mem hx, hname⟩

lemma discard (hpc : s.collector = .discard name todo pending) :
    Round codec {s with inbox := s.inbox.remove name, collector := .scan todo pending} := by
  obtain ⟨harrived, -, hnodup, hfinal, -⟩ := h
  rw [hpc] at harrived hnodup hfinal
  have hne : ∀ n ∈ todo, n ≠ name := by
    rintro n hn rfl
    exact (nodup_cons.mp hnodup).1 (mem_append_left _ hn)
  refine ⟨fun n hn => ?_, rfl, (nodup_cons.mp hnodup).2, hfinal, by simp⟩
  exact (harrived n (mem_cons_of_mem _ hn)).mono (fun x hx _ => hx) fun hmem => mem_names_remove hmem (hne n hn)

lemma collectStep (hinv : Inv codec s) (hl : s.ListWithoutTemps (.collect 0))
    (hstep : CollectStep codec batchSize s t) : Round codec t := by
  cases hstep with
  | list hpc => exact list hinv.toFiles (hl hpc) batchSize
  | known name todo pending raw event hpc file decoded known => exact h.known hinv hpc file decoded known
  | queue name todo pending raw event hpc file decoded unseen unqueued => exact h.queue raw event hpc
  | discard name todo pending hpc => exact h.discard hpc
  | unreadable name todo pending hpc file => exact absurd file (hinv.decode_arrived (h.arrived name (by simp [hpc])))
  | quarantine name todo pending hpc =>
    have hreadable := h.readable
    simp [hpc] at hreadable
  | group pending hpc =>
    refine h.past rfl rfl rfl rfl rfl fun p hp => ?_
    simp only [CollectorPc.waiting, opened, append_nil, hpc] at hp ⊢
    exact mem_flatMap_groupByHour.mp hp
  | openLog hour group later hpc =>
    refine h.past rfl rfl rfl rfl rfl fun p hp => ?_
    simp only [CollectorPc.waiting, opened, append_nil, hpc, flatMap_cons, mem_append] at hp ⊢
    exact hp.symm
  | finish hpc | sync _ _ _ hpc | write _ _ _ _ _ hpc | removed _ hpc | remove _ _ _ hpc | keep _ _ _ hpc =>
    refine h.past rfl rfl rfl rfl rfl fun p hp => ?_
    simp only [CollectorPc.waiting, opened, hpc, mem_append, mem_cons] at hp ⊢
    tauto

lemma step (hinv : Inv codec s) (hl : s.Undisturbed l) (hstep : s.step codec batchSize l = some t) : Round codec t := by
  rcases step_cases hstep with ⟨event, final, temp, rfl, hfinal, htemp, hne, rfl⟩ | ⟨i, call, hcall⟩ |
    ⟨size, rfl, rfl⟩ | ⟨rfl, rfl⟩ | ⟨rfl, hfail⟩ | ⟨rfl, rfl⟩
  · refine h.frame rfl (by simp [calls]) (fun name harrived => ?_) (fun name harrived x hx heq => ?_) rfl
    · exact harrived.mono (fun x hx _ => mem_append_left _ hx) mem_names_put
    · exact mem_emits_emit rfl hfinal (harrived.known hinv.toFiles).1 hx heq
  · refine h.frame hcall.frame.2.1 (by simp [hcall.calls_eq]) (fun name harrived => ?_)
      (fun name harrived => (harrived.known hinv.toFiles).callStep hcall) hcall.frame.1
    refine harrived.mono (fun x hx hok => hcall.mem_of_ok hx hok) fun hmem => ?_
    obtain ⟨x, hx, -, hname, -⟩ := harrived
    obtain ⟨rest, pc, hget, -⟩ := hcall.at_index
    exact (hcall.names hmem).resolve_right fun hbad =>
      hinv.name_ne_temp hx (mem_of_getElem? hget) (hname.symm.trans hbad.1)
  · exact h.collectStep hinv hl.2.2 (State.collectStep codec batchSize s size)
  · exact h.past rfl rfl rfl rfl rfl (by simp)
  · cases hfail with
    | give hpc hitems =>
      refine h.past rfl rfl rfl rfl rfl fun p hp => mem_append_right _ ?_
      simpa [hpc] using (hitems p (by simpa using hp)).1
  · exact absurd rfl hl.1.2

end Round

namespace Arrivals
variable (h : Arrivals codec s)
include h

lemma emit (hinv : Inv codec s) {event : Event} {final temp : String} {rest : List B}
    (htemp : temp ∉ s.names) : Arrivals codec {s with
      inbox := s.inbox.put temp []
      emits := s.emits++[(⟨event, final, temp⟩, .writing rest)]} := by
  constructor
  · exact forall_mem_concat h.succeeds (by simp)
  · refine forall_mem_concat (fun x hx rest' hpc => mem_names_put (h.temps x hx rest' hpc)) fun _ _ => ?_
    exact mem_map.mpr ⟨_, mem_put.mpr (.inl rfl), rfl⟩
  · exact h.quarantined
  · intro call hok
    have hmem : (call, .ok) ∈ s.emits := by simpa using hok
    refine (h.kept call hmem).imp (fun hin => mem_put.mpr (.inr ⟨hin, ?_⟩)) id
    rintro rfl
    exact htemp (hinv.mem_names (mem_names_of_mem hin))

lemma callStep (hinv : Inv codec s) {i : ℕ} {call} (hstep : CallStep s i call t) : Arrivals codec t := by
  have hpresent {rest : List B} (hget : s.emits[i]? = some (call, .writing rest)) : call.temp ∈ s.inbox.names :=
    h.temps _ (mem_of_getElem? hget) rest rfl
  constructor
  · intro x hx
    cases hstep with
    | write rest size hget gone | fail hget gone => exact absurd (hpresent hget) gone
    | grow rest bytes size hget htemp | rename bytes hget htemp =>
      rcases mem_or_eq_of_mem_set hx with hx | rfl
      · exact h.succeeds x hx
      · simp
  · intro x hx rest hpc
    have hnames : x.1.temp ∈ s.inbox.names := by
      rcases hstep.of_mem hx with hxs | ⟨heq, rest', hmem⟩
      · exact h.temps x hxs rest hpc
      · rw [heq]
        exact h.temps _ hmem rest' rfl
    refine (hstep.names hnames).resolve_right fun ⟨heq, hok⟩ => ?_
    have hsame := (hinv.toFiles.callStep hstep).eq_of_name hx hok (.inr rfl) (.inr heq)
    rw [hsame] at hpc
    cases hpc
  · rw [hstep.frame.2.2.2]
    exact h.quarantined
  · intro call' hok
    rcases hstep.file hinv.toFiles hok with ⟨hmem, hfile⟩ | hin
    · refine (h.kept call' hmem).imp (hfile _) fun hline => ?_
      rwa [log, hstep.frame.1]
    · exact .inl hin

lemma remove (hinv : Inv codec s) (hround : ∃ call ∈ s.calls, name = call.name)
    (hline : ∀ x ∈ s.emits, name = x.1.name → codec.encode x.1.event ∈ lines (s.log x.1.event.hour))
    (hemits : t.emits = s.emits) (hinbox : t.inbox = s.inbox.remove name) (hquarantined : t.quarantined = s.quarantined)
    (hlogs : t.logs = s.logs) : Arrivals codec t := by
  obtain ⟨call, hcall, hname⟩ := hround
  obtain ⟨y, hy, rfl⟩ := mem_map.mp hcall
  constructor
  · exact hemits ▸ h.succeeds
  · intro x hx rest hpc
    rw [hemits] at hx
    rw [hinbox]
    refine mem_names_remove (h.temps x hx rest hpc) fun heq => ?_
    exact hinv.name_ne_temp hy hx (hname.symm.trans heq.symm)
  · exact hquarantined ▸ h.quarantined
  · intro call hok
    rw [hemits] at hok
    rw [hinbox, log, hlogs]
    rcases h.kept call hok with hin | hin
    · by_cases heq : call.name = name
      · exact .inr (hline _ hok heq.symm)
      · exact .inl (mem_remove.mpr ⟨hin, heq⟩)
    · exact .inr hin

lemma frame (hemits : t.emits = s.emits) (hinbox : t.inbox = s.inbox)
    (hquarantined : t.quarantined = s.quarantined) (hlog : ∀ hour, ∃ more, t.log hour = s.log hour++more) :
    Arrivals codec t := by
  refine ⟨hemits ▸ h.succeeds, ?_, hquarantined ▸ h.quarantined, ?_⟩
  · rw [hemits, hinbox]
    exact h.temps
  intro call hok
  rw [hemits] at hok
  rw [hinbox]
  refine (h.kept call hok).imp id fun hline => ?_
  obtain ⟨more, hmore⟩ := hlog call.event.hour
  rw [hmore]
  exact lines_subset_append _ _ hline

lemma collectStep (hinv : Inv codec s) (hround : Round codec s)
    (hstep : CollectStep codec batchSize s t) : Arrivals codec t := by
  have hlog := hstep.log_append
  cases hstep with
  | quarantine name todo pending hpc =>
    have hreadable := hround.readable
    simp [hpc] at hreadable
  | discard name todo pending hpc =>
    obtain ⟨x, hx, -, hname, -⟩ := hround.arrived name (by simp [hpc])
    exact h.remove hinv ⟨x.1, mem_map_of_mem hx, hname⟩
      (hround.discarded name (by simp [hpc])) rfl rfl rfl rfl
  | remove p items later hpc seen =>
    have hp : p ∈ s.collector.opened := by simp [hpc]
    have hin := mem_append_right s.collector.waiting hp
    refine h.remove hinv (hround.final p hin) (fun x hx heq => ?_) rfl rfl rfl rfl
    have hline := hinv.encode_mem hp
    rw [full, hpc, hinv.event_eq (hinv.toLogs.took p hin) hx heq] at hline
    simpa using hline
  | _ => exact h.frame rfl rfl rfl hlog

lemma step (hinv : Inv codec s) (hround : Round codec s) (hl : s.Undisturbed l)
    (hstep : s.step codec batchSize l = some t) : Arrivals codec t := by
  rcases step_cases hstep with ⟨event, final, temp, rfl, -, htemp, -, rfl⟩ | ⟨i, call, hcall⟩ |
    ⟨size, rfl, rfl⟩ | ⟨rfl, rfl⟩ | ⟨rfl, hfail⟩ | ⟨rfl, rfl⟩
  · exact h.emit hinv htemp
  · exact h.callStep hinv hcall
  · exact h.collectStep hinv hround (State.collectStep codec batchSize s size)
  · exact h.frame rfl rfl rfl fun hour => ⟨[], (append_nil _).symm⟩
  · cases hfail
    exact h.frame rfl rfl rfl fun hour => ⟨[], (append_nil _).symm⟩
  · exact absurd rfl hl.1.2

end Arrivals

/-- What holds in a run without readers whose collector lists the inbox without temporary files and crashes at the
ends of lines. -/
structure Commit (codec : Codec B) (s : State B) : Prop where
  inv : Inv codec s
  round : Round codec s
  arrivals : Arrivals codec s
  once : Once codec s

lemma commit_init : Commit codec (init : State B) where
  inv := inv_init
  round := ⟨by simp [init], rfl, nodup_nil,
    by simp [init], by simp [init]⟩
  arrivals := ⟨by simp [init], by simp [init], rfl, by simp [init]⟩
  once := ⟨fun _ => nodup_nil, nodup_nil, by simp [init],
    by simp [init], by simp [init, calls]⟩

lemma Commit.step (h : Commit codec s) (hl : s.Undisturbed l) (hstep : s.step codec batchSize l = some t) :
    Commit codec t :=
  ⟨h.inv.step ⟨hl.1.1, hl.2.1⟩ hstep, h.round.step h.inv hl hstep, h.arrivals.step h.inv h.round hl hstep,
    h.once.step h.inv hl hstep⟩

lemma Commit.reach (h : Commit codec s) (hreach : Reach (State.step codec batchSize) Undisturbed s t) :
    Commit codec t := hreach.preserved h Commit.step

/-! ### Exactly one line -/

lemma map_encode_filterMap {l : List (List B)} (h : ∀ bytes ∈ l, ∃ e, bytes = codec.encode e) :
    (l.filterMap codec.decode).map codec.encode = l := by
  induction l with
  | nil => rfl
  | cons bytes l ih =>
    obtain ⟨e, rfl⟩ := h bytes mem_cons_self
    rw [filterMap_cons_some (codec.decode_encode e), map_cons, ih fun bytes hbytes => h bytes (mem_cons_of_mem _ hbytes)]

lemma Logs.decodeLines_eq (h : Logs codec s) (hwhole : s.Whole) (hlog : log ∈ s.logs.sorted) :
    decodeLines codec log.2 = (lines log.2).filterMap codec.decode := by
  rw [← log_of_sorted hlog]
  exact h.decodeLines_log hwhole log.1

lemma Logs.hour_of_mem (h : Logs codec s) (hwhole : s.Whole) (hlog : log ∈ s.logs.sorted) {e : Event}
    (he : e ∈ decodeLines codec log.2) : e.hour = log.1 := by
  rw [h.decodeLines_eq hwhole hlog, mem_filterMap] at he
  obtain ⟨bytes, hbytes, hdecode⟩ := he
  obtain ⟨call, -, rfl, hhour⟩ := h.emitted_of_mem hlog hbytes
  rw [codec.decode_encode] at hdecode
  cases hdecode
  exact hhour

lemma Commit.nodup_committed (h : Commit codec s) (hwhole : s.Whole) : (s.committed codec).Nodup := by
  rw [committed, nodup_flatMap]
  constructor
  · intro log hlog
    have hnodup := h.once.lines log.1
    rw [full, log_of_sorted hlog, lines_append (hwhole log (mem_sorted.mp hlog))] at hnodup
    have hevents : ∀ bytes ∈ lines log.2, ∃ e, bytes = codec.encode e := by
      intro bytes hbytes
      obtain ⟨call, -, heq, -⟩ := h.inv.emitted_of_mem hlog hbytes
      exact ⟨call.event, heq⟩
    rw [h.inv.decodeLines_eq hwhole hlog]
    apply List.Nodup.of_map codec.encode
    rw [map_encode_filterMap hevents]
    exact (nodup_append.mp hnodup).1
  · refine List.Pairwise.imp_of_mem ?_ pairwise_sorted
    intro a b ha hb hlt e hea heb
    have hhour := (h.inv.hour_of_mem hwhole ha hea).symm.trans (h.inv.hour_of_mem hwhole hb heb)
    exact absurd hhour (ne_of_lt hlt)

lemma Commit.whole (h : Commit codec s) (hidle : s.collector = .idle) : s.Whole := by
  intro log hlog
  have hwhole := h.inv.whole log.1
  rw [full, log_of_sorted (mem_sorted.mpr hlog), hidle] at hwhole
  simpa using hwhole

lemma Commit.count_committed (h : Commit codec s) (hidle : s.collector = .idle)
    (hok : (call, .ok) ∈ s.emits) (hgone : call.name ∉ s.inbox.names) : (s.committed codec).count call.event = 1 := by
  have hwhole := h.whole hidle
  apply count_eq_one_of_mem (h.nodup_committed hwhole)
  rcases h.arrivals.kept call hok with hin | hline
  · exact absurd (mem_names_of_mem hin) hgone
  obtain ⟨text, hget⟩ := exists_log hline
  have hsorted := mem_sorted.mpr (get?_eq_some.mp hget)
  refine mem_flatMap.mpr ⟨_, hsorted, ?_⟩
  rw [h.inv.decodeLines_eq hwhole hsorted, mem_filterMap]
  refine ⟨_, ?_, codec.decode_encode _⟩
  rwa [log_of_sorted hsorted] at hline

/-! ### The collector empties the inbox -/

def CollectorMoves (s : State B) (l : Label) : Prop := s.Undisturbed l ∧ ∃ size, l = .collect size

lemma collectorMoves_of_ne_idle (h : s.collector ≠ .idle) (size : ℕ) : s.CollectorMoves (.collect size) :=
  ⟨⟨⟨trivial, by simp⟩, trivial, fun hidle => absurd hidle h⟩, size, rfl⟩

lemma reach_collect (h : s.collector ≠ .idle) (size : ℕ) :
    Reach (step codec batchSize) CollectorMoves s (s.collect codec batchSize size) :=
  .tail .refl (collectorMoves_of_ne_idle h size) rfl

def Finishes (codec : Codec B) (batchSize : ℕ) (s : State B) : Prop :=
  ∃ t, Reach (step codec batchSize) CollectorMoves s t ∧ t.collector = .idle

lemma Finishes.of_collect (hne : s.collector ≠ .idle) (size : ℕ)
    (h : Finishes codec batchSize (s.collect codec batchSize size)) : Finishes codec batchSize s := by
  obtain ⟨t, hreach, hidle⟩ := h
  exact ⟨t, (reach_collect hne size).trans hreach, hidle⟩

variable {later : List (ℤ × List (Pending B))}

section
variable (hlater : ∀ u : State B, u.collector = .groups later → Finishes codec batchSize u)
include hlater

lemma finishes_remove {items} (hpc : s.collector = .remove items later) : Finishes codec batchSize s := by
  induction items generalizing s with
  | nil => exact .of_collect (by simp [hpc]) 0 (hlater _ (by simp [collect, hpc]))
  | cons p items ih =>
    refine .of_collect (by simp [hpc]) 0 (ih ?_)
    simp only [collect, hpc]
    split_ifs <;> rfl

lemma finishes_append {hour rest group} (hpc : s.collector = .append hour rest group later) : Finishes codec batchSize s := by
  have hsync {u : State B} (hu : u.collector = .append hour [] group later) : Finishes codec batchSize u := by
    have hnext : (u.collect codec batchSize 0).collector = .remove group later := by simp [collect, hu]
    exact .of_collect (by simp [hu]) 0 (finishes_remove hlater hnext)
  cases rest with
  | nil => exact hsync hpc
  | cons b rest => exact .of_collect (by simp [hpc]) (b::rest).length (hsync (by simp [collect, hpc]))

end

lemma finishes_groups {groups : List (ℤ × List (Pending B))} (hpc : s.collector = .groups groups) :
    Finishes codec batchSize s := by
  induction groups generalizing s with
  | nil => exact .of_collect (by simp [hpc]) 0 ⟨_, .refl, by simp [collect, hpc]⟩
  | cons group groups ih =>
    have hnext : (s.collect codec batchSize 0).collector = .append group.1 (groupText group.2) group.2 groups := by
      simp [collect, hpc]
    exact .of_collect (by simp [hpc]) 0 (finishes_append (fun _ hu => ih hu) hnext)

lemma finishes_scan {todo} (hpc : s.collector = .scan todo pending) : Finishes codec batchSize s := by
  induction todo generalizing s pending with
  | nil =>
    have hnext : (s.collect codec batchSize 0).collector = .groups (groupByHour pending) := by simp [collect, hpc]
    exact .of_collect (by simp [hpc]) 0 (finishes_groups hnext)
  | cons name todo ih =>
    have hquarantine {u : State B} (hu : u.collector = .quarantine name todo pending) : Finishes codec batchSize u := by
      have hnext : (u.collect codec batchSize 0).collector = .scan todo pending := by simp [collect, hu]
      exact .of_collect (by simp [hu]) 0 (ih hnext)
    have hdiscard {u : State B} (hu : u.collector = .discard name todo pending) : Finishes codec batchSize u := by
      have hnext : (u.collect codec batchSize 0).collector = .scan todo pending := by simp [collect, hu]
      exact .of_collect (by simp [hu]) 0 (ih hnext)
    refine .of_collect (by simp [hpc]) 0 ?_
    simp only [collect, hpc]
    split
    · exact hquarantine rfl
    split
    · exact hquarantine rfl
    split_ifs
    · exact hdiscard rfl
    · exact hdiscard rfl
    · exact ih rfl

lemma finishes (codec : Codec B) (batchSize : ℕ) (s : State B) : Finishes codec batchSize s := by
  cases hpc : s.collector with
  | idle => exact ⟨s, .refl, hpc⟩
  | scan todo pending => exact finishes_scan hpc
  | quarantine name todo pending | discard name todo pending =>
    have hnext : (s.collect codec batchSize 0).collector = .scan todo pending := by simp [collect, hpc]
    exact .of_collect (by simp [hpc]) 0 (finishes_scan hnext)
  | groups groups => exact finishes_groups hpc
  | append hour rest group groups => exact finishes_append (fun _ => finishes_groups) hpc
  | remove items groups => exact finishes_remove (fun _ => finishes_groups) hpc

def Tracked (name : String) (s : State B) : Prop :=
  name ∈ s.collector.todo ∨ (∃ p ∈ s.collector.waiting++s.collector.opened, p.path = name) ∨ name ∉ s.inbox.names

lemma Commit.seen_of_opened (h : Commit codec s) (hwriting : s.collector.writing = [])
    (hp : p ∈ s.collector.opened) : p.event.id ∈ s.seenIDs := by
  obtain ⟨call, hcall, hevent, -⟩ := h.inv.toLogs.took p (mem_append_right _ hp)
  have hline := h.inv.encode_mem hp
  rw [hevent] at hline ⊢
  rcases h.once.seen call hcall hline with hid | ⟨q, hq, -⟩
  · exact hid
  · rw [hwriting] at hq
    cases hq

lemma Tracked.collectStep (h : s.Tracked name) (hcommit : Commit codec s) (hstep : CollectStep codec batchSize s t) :
    t.Tracked name := by
  have hgone (hn : name ∉ s.inbox.names) : name ∉ t.inbox.names := fun hmem => hn (names_of_subset hstep.frame.2 hmem)
  rcases h with htodo | ⟨p, hp, rfl⟩ | hn
  · cases hstep with
    | unreadable n todo pending hpc file =>
      have harrived := hcommit.round.arrived n (by simp [hpc])
      exact absurd file (hcommit.inv.decode_arrived harrived)
    | quarantine n todo pending hpc =>
      have hreadable := hcommit.round.readable
      simp [hpc] at hreadable
    | known n todo pending raw event hpc =>
      rw [hpc] at htodo
      exact .inl htodo
    | queue n todo pending raw event hpc =>
      rw [hpc] at htodo
      rcases mem_cons.mp htodo with rfl | htodo
      · exact .inr (.inl ⟨⟨name, raw, event⟩, by simp, rfl⟩)
      · exact .inl htodo
    | discard n todo pending hpc =>
      rw [hpc] at htodo
      rcases mem_cons.mp htodo with rfl | htodo
      · exact .inr (.inr notMem_names_remove)
      · exact .inl htodo
    | list hpc | group _ hpc | finish hpc | openLog _ _ _ hpc | sync _ _ _ hpc | write _ _ _ _ _ hpc | removed _ hpc
    | remove _ _ _ hpc | keep _ _ _ hpc => simp [hpc] at htodo
  · rcases mem_append.mp hp with hp | hp
    · exact .inr (.inl ⟨p, mem_append.mpr (hstep.waiting hp), rfl⟩)
    cases hstep with
    | sync hour group later hpc | write hour rest group later size hpc =>
      rw [hpc] at hp
      exact .inr (.inl ⟨p, mem_append_right _ hp, rfl⟩)
    | remove q items later hpc =>
      rw [hpc] at hp
      rcases mem_cons.mp hp with rfl | hp
      · exact .inr (.inr notMem_names_remove)
      · exact .inr (.inl ⟨p, mem_append_right _ hp, rfl⟩)
    | keep q items later hpc unseen =>
      exact absurd (hcommit.seen_of_opened (by simp [hpc])
        (by simp [hpc])) unseen
    | list hpc | group _ hpc | finish hpc | openLog _ _ _ hpc | unreadable _ _ _ hpc | known _ _ _ _ _ hpc
    | queue _ _ _ _ _ hpc | quarantine _ _ _ hpc | discard _ _ _ hpc | removed _ hpc => simp [hpc] at hp
  · exact .inr (.inr (hgone hn))

structure Drains (codec : Codec B) (s : State B) (name : String) (t : State B) : Prop where
  commit : Commit codec t
  emits : t.emits = s.emits
  inbox : t.inbox.entries ⊆ s.inbox.entries
  tracked : t.Tracked name

lemma Drains.step {u} (h : Drains codec s name t) (hl : t.CollectorMoves l)
    (hstep : t.step codec batchSize l = some u) : Drains codec s name u := by
  obtain ⟨size, rfl⟩ := hl.2
  have hcommit := h.commit.step hl.1 hstep
  cases hstep
  have hcollect := collectStep codec batchSize t size
  exact ⟨hcommit, hcollect.frame.1.trans h.emits, fun _ hx => h.inbox (hcollect.frame.2 hx),
    h.tracked.collectStep h.commit hcollect⟩

lemma Files.temp_gone (h : Files codec s) (hok : ∀ x ∈ s.emits, x.2 = .ok) :
    ∀ x ∈ s.emits, x.1.temp ∉ s.inbox.names := by
  intro x hx hmem
  obtain ⟨file, hfile, hname⟩ := mem_map.mp hmem
  obtain ⟨y, hy, hown⟩ := h.owned file hfile
  rcases hown with ⟨rest, hpc, -⟩ | ⟨-, hfinal, -⟩
  · rw [hok y hy] at hpc
    cases hpc
  · exact h.name_ne_temp hy hx (hfinal.symm.trans hname)

section
variable (h : Commit codec s) (hbatch : 0 < batchSize) (hok : ∀ x ∈ s.emits, x.2 = .ok)
include h hbatch hok

lemma Commit.exists_round (hidle : s.collector = .idle) (hne : s.inbox.entries ≠ []) :
    ∃ t, Reach (State.step codec batchSize) CollectorMoves s t ∧ t.collector = .idle ∧ Commit codec t ∧
      t.emits = s.emits ∧ t.inbox.entries.length < s.inbox.entries.length := by
  obtain ⟨file, rest, hsorted⟩ : ∃ file rest, s.inbox.sorted = file::rest := by
    refine exists_cons_of_ne_nil fun hnil => hne ?_
    exact eq_nil_of_length_eq_zero (by rw [← sorted_perm.length_eq, hnil]; rfl)
  have hfile : file ∈ s.inbox.entries := mem_sorted.mp (by rw [hsorted]; exact mem_cons_self)
  have hmoves : s.CollectorMoves (.collect 0) := ⟨⟨⟨trivial, by simp⟩, trivial, fun _ => h.inv.temp_gone hok⟩, 0, rfl⟩
  have hlisted : (s.collect codec batchSize 0).Tracked file.1 := by
    obtain ⟨n, rfl⟩ := Nat.exists_eq_succ_of_ne_zero hbatch.ne'
    refine .inl ?_
    simp [collect, hidle, hsorted]
  have hstart : Drains codec s file.1 (s.collect codec batchSize 0) :=
    have hcollect := collectStep codec batchSize s 0
    ⟨h.step hmoves.1 rfl, hcollect.frame.1, hcollect.frame.2, hlisted⟩
  obtain ⟨t, hreach, hdone⟩ := finishes codec batchSize (s.collect codec batchSize 0)
  have hdrains := hreach.preserved hstart Drains.step
  refine ⟨t, (Reach.tail .refl hmoves rfl).trans hreach, hdone, hdrains.commit, hdrains.emits, ?_⟩
  have hgone : file ∉ t.inbox.entries := by
    rcases hdrains.tracked with htodo | ⟨p, hp, -⟩ | hgone
    · simp [hdone] at htodo
    · simp [hdone] at hp
    · exact fun hmem => hgone (mem_names_of_mem hmem)
  have hnodup : (file::t.inbox.entries).Nodup := nodup_cons.mpr ⟨hgone, List.Nodup.of_map _ t.inbox.nodup⟩
  have hsubset : file::t.inbox.entries ⊆ s.inbox.entries := cons_subset.mpr ⟨hfile, hdrains.inbox⟩
  exact (subperm_of_subset hnodup hsubset).length_le

lemma Commit.exists_drained_of_idle (hidle : s.collector = .idle) :
    ∃ t, Reach (State.step codec batchSize) CollectorMoves s t ∧ t.collector = .idle ∧ t.emits = s.emits ∧
      t.inbox.entries = [] := by
  -- each round leaves fewer files
  induction hn : s.inbox.entries.length using Nat.strong_induction_on generalizing s with
  | _ n ih =>
    by_cases hne : s.inbox.entries = []
    · exact ⟨s, .refl, hidle, rfl, hne⟩
    obtain ⟨u, hreach, hidle', hcommit, hemits, hlt⟩ := h.exists_round hbatch hok hidle hne
    obtain ⟨t, hreach', hdone, hemits', hempty⟩ := ih _ (hn ▸ hlt) hcommit (hemits ▸ hok) hidle' rfl
    exact ⟨t, hreach.trans hreach', hdone, hemits'.trans hemits, hempty⟩

lemma Commit.exists_drained :
    ∃ t, Reach (State.step codec batchSize) CollectorMoves s t ∧ t.collector = .idle ∧ t.emits = s.emits ∧
      t.inbox.entries = [] := by
  obtain ⟨u, hreach, hidle⟩ := finishes codec batchSize s
  have hboth := hreach.invariant (P := fun u => Commit codec u ∧ u.emits = s.emits) ⟨h, rfl⟩ fun v l w _ hv hl hstep => by
    refine ⟨hv.1.step hl.1 hstep, ?_⟩
    obtain ⟨size, rfl⟩ := hl.2
    cases hstep
    exact (collectStep codec batchSize v size).frame.1.trans hv.2
  obtain ⟨t, hreach', hdone, hemits, hempty⟩ := hboth.1.exists_drained_of_idle hbatch (hboth.2 ▸ hok) hidle
  exact ⟨t, hreach.trans hreach', hdone, hemits.trans hboth.2, hempty⟩

end

def CommittedOnce (codec : Codec B) (s : State B) : Prop :=
  (∀ x ∈ s.emits, (s.committed codec).count x.1.event = 1) ∧ s.Whole ∧
    ∀ log ∈ s.logs.entries, ∀ bytes ∈ lines log.2, (codec.decode bytes).isSome

end State

namespace Example

def started : Event := ⟨"started", 0, 0, .dagRun, .dagRunRunning, ""⟩

def call : Call := ⟨started, "00.json", "00.json.tmp.1"⟩

/-- `Emit` returns, and the collector opens the log. -/
def emitted : List (Label × ℕ) :=
  [(.emit started call.name call.temp, 1), (.writeTemp 0 1, 2), (.rename 0, 1), (.collect 0, 4)]

def restarted : State (Event × Bool) :=
  follow (step twoBytes defaultBatchSize) (fun s l => decide (s.Undisturbed l)) init
    (emitted++[(.collect 3, 1), (.crash, 1), (.collect 0, 5)])

def overtaken : State (Event × Bool) :=
  follow (step twoBytes defaultBatchSize) (fun s l => decide (s.CrashesBetweenLines l)) init
    [(.emit started call.name call.temp, 1), (.writeTemp 0 1, 1), (.collect 0, 3), (.writeTemp 0 1, 1), (.rename 0, 1)]

def joined : State (Event × Bool) :=
  follow (step twoBytes defaultBatchSize) (fun s l => decide (s.ListsBetweenCalls l)) init
    (emitted++[(.collect 1, 1), (.crash, 1), (.collect 3, 9)])

end Example

end Ayatsuri.EventStore
