import Ayatsuri.TransitionSystem

/-! The stream of a session's messages (`internal/agent/session.go`, `internal/agent/subpub.go`). A recorder takes a
sequence number under the session's lock and publishes its message later under the lock of `SubPub`, which drops what is
not above the last number a subscriber has got. One subscriber is followed; the others do not touch it. -/
namespace Ayatsuri.SessionStream
open TransitionSystem List Option

def defaultSubscriberBuffer : ℕ := 10

inductive Pc
  | take
  | publish (seqID : ℕ)
  | done (seqID : ℕ)
  deriving DecidableEq

def Pc.number : Pc → Option ℕ
  | .take => none
  | .publish seqID | .done seqID => some seqID

def Pc.pending : Pc → Option ℕ
  | .publish seqID => some seqID
  | .take | .done _ => none

structure Recorder where
  recorded : Bool
  pc : Pc
  deriving DecidableEq

/-- `subscriber` with its snapshot. A message is known by its recorder; a broadcast is no message. -/
structure Subscriber where
  lastSeq : ℕ
  snapshot : List ℕ
  seqID : ℕ
  (ch received : List (Option ℕ))
  closed : Bool
  deriving DecidableEq

structure State where
  sequenceID : ℕ
  messages : List ℕ
  recorders : List Recorder
  subscriber : Option Subscriber
  deriving DecidableEq

inductive Label
  | record (recorded : Bool)
  | take (i : ℕ)
  | publish (i : ℕ)
  | subscribe | broadcast | receive | leave
  deriving DecidableEq

namespace Subscriber
variable (sub : Subscriber)

/-- `send`. A full channel disconnects the subscriber. -/
def send (message : Option ℕ) : Subscriber :=
  if sub.ch.length < defaultSubscriberBuffer then {sub with ch := sub.ch++[message]} else {sub with closed := true}

/-- `Publish`, as far as it concerns the subscriber. -/
def publish (i seqID : ℕ) : Subscriber :=
  if sub.closed then sub
  else if seqID ≤ sub.seqID then sub
  else if (sub.send (some i)).closed then sub.send (some i)
  else {sub.send (some i) with seqID := seqID}

/-- `Broadcast`. -/
def broadcast : Subscriber := if sub.closed then sub else sub.send none

def receive : Option Subscriber :=
  match sub.ch with
  | [] => none
  | message::rest => some {sub with ch := rest, received := sub.received++[message]}

end Subscriber

namespace State
variable (s : State)

def setRecorder (i : ℕ) (x : Recorder) (pc : Pc) : State :=
  {s with recorders := s.recorders.set i {x with pc := pc}}

def publish (s : State) (i seqID : ℕ) : State :=
  {s with subscriber := s.subscriber.map fun sub => sub.publish i seqID}

def step : Label → Option State
  | .record recorded => some {s with recorders := s.recorders++[⟨recorded, .take⟩]}
  | .take i =>
    match s.recorders[i]? with
    | some ⟨recorded, .take⟩ =>
      some ({s with
        messages := if recorded then s.messages++[i] else s.messages
        sequenceID := s.sequenceID+1}.setRecorder i ⟨recorded, .take⟩ (.publish (s.sequenceID+1)))
    | _ => none
  | .publish i =>
    match s.recorders[i]? with
    | some ⟨recorded, .publish seqID⟩ => some ((s.publish i seqID).setRecorder i ⟨recorded, .publish seqID⟩ (.done seqID))
    | _ => none
  | .subscribe =>
    if s.subscriber = none then
      some {s with subscriber := some ⟨s.sequenceID, s.messages, s.sequenceID, [], [], false⟩}
    else none
  | .broadcast => some {s with subscriber := s.subscriber.map Subscriber.broadcast}
  | .receive => (s.subscriber.bind Subscriber.receive).map fun sub => {s with subscriber := some sub}
  | .leave => some {s with subscriber := s.subscriber.map fun sub => {sub with closed := true}}

def start (count sequenceID : ℕ) : State where
  sequenceID := sequenceID
  messages := range count
  recorders := replicate count ⟨true, .done 0⟩
  subscriber := none

def InOrder : Label → Prop
  | .publish i => ∀ x ∈ s.recorders[i]?, ∀ n ∈ x.pc.pending, ∀ y ∈ s.recorders, ∀ m ∈ y.pc.pending, n ≤ m
  | _ => True

instance (s : State) (l : Label) : Decidable (s.InOrder l) := by
  unfold InOrder
  split <;> infer_instance

end State

/-! ### The subscriber -/

namespace Subscriber
variable (sub : Subscriber)

def deliveries (i : ℕ) : ℕ := (sub.received++sub.ch).count (some i)

lemma send_spec {sub : Subscriber} {message} (hopen : (sub.send message).closed = false) :
    sub.send message = {sub with ch := sub.ch++[message]} := by
  unfold send at hopen ⊢
  split_ifs at hopen ⊢
  rfl

lemma send_frame (message : Option ℕ) :
    (sub.send message).lastSeq = sub.lastSeq ∧ (sub.send message).snapshot = sub.snapshot ∧
      (sub.send message).seqID = sub.seqID := by
  unfold send
  split_ifs <;> exact ⟨rfl, rfl, rfl⟩

lemma publish_frame (i seqID : ℕ) :
    (sub.publish i seqID).lastSeq = sub.lastSeq ∧ (sub.publish i seqID).snapshot = sub.snapshot ∧
      ((sub.publish i seqID).seqID = sub.seqID ∨ sub.seqID < seqID ∧ (sub.publish i seqID).seqID = seqID) := by
  obtain ⟨hlast, hsnapshot, hseq⟩ := sub.send_frame (some i)
  unfold publish
  split_ifs with _ hdrop _
  · exact ⟨rfl, rfl, .inl rfl⟩
  · exact ⟨rfl, rfl, .inl rfl⟩
  · exact ⟨hlast, hsnapshot, .inl hseq⟩
  · exact ⟨hlast, hsnapshot, .inr ⟨not_le.mp hdrop, rfl⟩⟩

lemma publish_spec {sub : Subscriber} {i seqID : ℕ} (hopen : (sub.publish i seqID).closed = false) :
    sub.closed = false ∧ (seqID ≤ sub.seqID ∧ sub.publish i seqID = sub ∨
      sub.seqID < seqID ∧ sub.publish i seqID = {sub with ch := sub.ch++[some i], seqID := seqID}) := by
  unfold publish at hopen ⊢
  by_cases hclosed : sub.closed
  · rw [if_pos hclosed, hclosed] at hopen
    cases hopen
  refine ⟨by simpa using hclosed, ?_⟩
  rw [if_neg hclosed] at hopen ⊢
  by_cases hseq : seqID ≤ sub.seqID
  · rw [if_pos hseq]
    exact .inl ⟨hseq, rfl⟩
  rw [if_neg hseq] at hopen ⊢
  by_cases hfull : (sub.send (some i)).closed
  · rw [if_pos hfull, hfull] at hopen
    cases hopen
  · rw [if_neg hfull, send_spec (by simpa using hfull)]
    exact .inr ⟨not_le.mp hseq, rfl⟩

end Subscriber

/-! ### Every state of a session -/

/-- How often a message should have come, by its recorder: once if it is published with a number above the first. -/
def expected (lastSeq : ℕ) : Option Recorder → ℕ
  | some ⟨_, .done n⟩ => if lastSeq < n then 1 else 0
  | some ⟨_, .take⟩ | some ⟨_, .publish _⟩ | none => 0

open Subscriber

namespace State

structure Served (s : State) (sub : Subscriber) : Prop where
  low : sub.lastSeq ≤ sub.seqID
  high : sub.seqID ≤ s.sequenceID
  kept : ∀ i ∈ sub.snapshot, i ∈ s.messages
  snapshot : ∀ (i : ℕ) x, s.recorders[i]? = some x → x.recorded → ∀ n ∈ x.pc.number, i ∈ sub.snapshot ↔ n ≤ sub.lastSeq
  below : sub.closed = false → ∀ x ∈ s.recorders, ∀ n ∈ x.pc.pending, n ≤ sub.lastSeq ∨ sub.seqID < n
  deliveries : sub.closed = false → ∀ i : ℕ, sub.deliveries i = expected sub.lastSeq s.recorders[i]?

structure Inv (s : State) : Prop where
  numbers : ∀ x ∈ s.recorders, ∀ n ∈ x.pc.number, n ≤ s.sequenceID
  distinct : ∀ (i j : ℕ) x y, s.recorders[i]? = some x → s.recorders[j]? = some y → ∀ n ∈ x.pc.pending, n ∈ y.pc.pending → i = j
  messages : ∀ (i : ℕ) x, s.recorders[i]? = some x → x.recorded → x.pc.number ≠ none → i ∈ s.messages
  made : ∀ i ∈ s.messages, ∃ x, s.recorders[i]? = some x ∧ x.pc.number ≠ none
  served : ∀ sub ∈ s.subscriber, s.Served sub

variable {s t : State} {sub : Subscriber}

lemma Inv.start (count sequenceID : ℕ) : (State.start count sequenceID).Inv where
  numbers x hx n hn := by
    obtain ⟨-, rfl⟩ := mem_replicate.mp hx
    cases hn
    exact Nat.zero_le _
  distinct i j x y hx hy n hn := by
    obtain ⟨-, rfl⟩ := mem_replicate.mp (mem_of_getElem? hx)
    cases hn
  messages i x hx _ _ := by
    have hlt := lt_of_getElem? hx
    simpa [State.start] using hlt
  made i hi := by
    refine ⟨⟨true, .done 0⟩, ?_, by simp [Pc.number]⟩
    simp only [State.start, mem_range] at hi
    simp [State.start, hi]
  served := by simp [State.start]

lemma expected_eq_zero {lastSeq : ℕ} {x : Recorder} (h : ∀ n, x.pc = .done n → n ≤ lastSeq) : expected lastSeq (some x) = 0 := by
  obtain ⟨recorded, pc⟩ := x
  cases pc with
  | take => rfl
  | publish n => rfl
  | done n => exact if_neg (not_lt.mpr (h n rfl))

lemma number_of_pending {pc : Pc} {n} (h : n ∈ pc.pending) : n ∈ pc.number := by
  cases pc with
  | take => cases h
  | publish m => exact h
  | done m => cases h

lemma Served.of_sub {sub' : Subscriber} (h : s.Served sub) (hlast : sub'.lastSeq = sub.lastSeq)
    (hsnapshot : sub'.snapshot = sub.snapshot) (hseq : sub'.seqID = sub.seqID)
    (hopen : sub'.closed = false → sub.closed = false ∧ ∀ i, sub'.deliveries i = sub.deliveries i) : s.Served sub' where
  low := by rw [hlast, hseq]; exact h.low
  high := by rw [hseq]; exact h.high
  kept := by rw [hsnapshot]; exact h.kept
  snapshot := by rw [hsnapshot, hlast]; exact h.snapshot
  below hclosed := by rw [hlast, hseq]; exact h.below (hopen hclosed).1
  deliveries hclosed i := by rw [(hopen hclosed).2 i, hlast]; exact h.deliveries (hopen hclosed).1 i

lemma Inv.of_sub {f : Subscriber → Option Subscriber} {subscriber} (h : s.Inv)
    (hsub : ∀ sub' ∈ subscriber, ∃ sub ∈ s.subscriber, sub' ∈ f sub)
    (hf : ∀ sub sub', sub' ∈ f sub → sub'.lastSeq = sub.lastSeq ∧ sub'.snapshot = sub.snapshot ∧ sub'.seqID = sub.seqID ∧
      (sub'.closed = false → sub.closed = false ∧ ∀ i, sub'.deliveries i = sub.deliveries i)) :
    {s with subscriber := subscriber : State}.Inv :=
  {h with
    served := fun sub' hsub' => by
      obtain ⟨sub, hold, hfsub⟩ := hsub sub' hsub'
      obtain ⟨hlast, hsnapshot, hseq, hopen⟩ := hf sub sub' hfsub
      have hserved := (h.served sub hold).of_sub hlast hsnapshot hseq hopen
      exact {hserved with}}

lemma Inv.record (h : s.Inv) (recorded : Bool) : {s with recorders := s.recorders++[⟨recorded, .take⟩] : State}.Inv where
  numbers x hx n hn := by
    rcases mem_append.mp hx with hx | hx
    · exact h.numbers x hx n hn
    · obtain rfl := mem_singleton.mp hx
      cases hn
  distinct i j x y hx hy n hn hm := by
    rcases getElem?_concat_cases hx with hx | ⟨-, rfl⟩
    · rcases getElem?_concat_cases hy with hy | ⟨-, rfl⟩
      · exact h.distinct i j x y hx hy n hn hm
      · cases hm
    · cases hn
  messages i x hx hrecorded hnumber := by
    rcases getElem?_concat_cases hx with hx | ⟨-, rfl⟩
    · exact h.messages i x hx hrecorded hnumber
    · exact absurd rfl hnumber
  made i hi := by
    obtain ⟨x, hx, hnumber⟩ := h.made i hi
    exact ⟨x, (getElem?_append_left (lt_of_getElem? hx)).trans hx, hnumber⟩
  served sub hsub := by
    have hserved := h.served sub hsub
    refine ⟨hserved.low, hserved.high, hserved.kept, fun i x hx hrecorded n hn => ?_, fun hopen x hx n hn => ?_, fun hopen i => ?_⟩
    · rcases getElem?_concat_cases hx with hx | ⟨-, rfl⟩
      · exact hserved.snapshot i x hx hrecorded n hn
      · cases hn
    · exact forall_mem_concat (hserved.below hopen) (by simp [Pc.pending]) x hx n hn
    rw [hserved.deliveries hopen i]
    cases hx : (s.recorders++[⟨recorded, .take⟩])[i]? with
    | none =>
      rw [getElem?_eq_none_iff] at hx
      rw [getElem?_eq_none (by simp at hx; omega)]
    | some x =>
      rcases getElem?_concat_cases hx with hx | ⟨rfl, rfl⟩
      · rw [hx]
      · rw [getElem?_eq_none (le_refl _)]
        rfl

lemma Inv.take {i : ℕ} {recorded} (h : s.Inv) (hi : s.recorders[i]? = some ⟨recorded, .take⟩) : ({s with
      messages := if recorded then s.messages++[i] else s.messages
      sequenceID := s.sequenceID+1}.setRecorder i ⟨recorded, .take⟩ (.publish (s.sequenceID+1))).Inv := by
  have hlt := lt_of_getElem? hi
  have hmessages : ∀ j ∈ s.messages, j ∈ (if recorded then s.messages++[i] else s.messages) := by
    intro j hj
    split_ifs
    · exact mem_append_left _ hj
    · exact hj
  have hnew : i ∉ s.messages := by
    intro hmem
    obtain ⟨x, hx, hnumber⟩ := h.made i hmem
    rw [hi] at hx
    cases hx
    exact hnumber rfl
  -- The new number is above all numbers before.
  have hfresh : ∀ x ∈ s.recorders, s.sequenceID+1 ∉ x.pc.pending := by
    intro x hx hn
    have := h.numbers x hx _ (number_of_pending hn)
    omega
  refine {
    numbers := fun x hx n hn => ?_
    distinct := fun j k x y hx hy n hn hm => ?_
    messages := fun j x hx hrecorded hnumber => ?_
    made := fun j hj => ?_
    served := fun sub hsub => ?_}
  · rcases mem_or_eq_of_mem_set hx with hx | rfl
    · exact (h.numbers x hx n hn).trans (Nat.le_succ _)
    · cases hn
      exact le_refl _
  · rcases getElem?_set_cases hx with ⟨rfl, rfl⟩ | ⟨-, hx⟩
    · rcases getElem?_set_cases hy with ⟨rfl, -⟩ | ⟨-, hy⟩
      · rfl
      · cases hn
        exact absurd hm (hfresh y (mem_of_getElem? hy))
    rcases getElem?_set_cases hy with ⟨rfl, rfl⟩ | ⟨-, hy⟩
    · cases hm
      exact absurd hn (hfresh x (mem_of_getElem? hx))
    · exact h.distinct j k x y hx hy n hn hm
  · rcases getElem?_set_cases hx with ⟨rfl, rfl⟩ | ⟨-, hx⟩
    · change recorded = true at hrecorded
      change j ∈ (if recorded then s.messages++[j] else s.messages)
      rw [if_pos hrecorded]
      simp
    · exact hmessages j (h.messages j x hx hrecorded hnumber)
  · by_cases hij : i = j
    · subst hij
      exact ⟨_, getElem?_set_self hlt, by simp [Pc.number]⟩
    have hold : j ∈ s.messages := by
      change j ∈ (if recorded then s.messages++[i] else s.messages) at hj
      split_ifs at hj
      · exact (mem_append.mp hj).resolve_right (by simpa using Ne.symm hij)
      · exact hj
    obtain ⟨x, hx, hnumber⟩ := h.made j hold
    exact ⟨x, (getElem?_set_ne hij).trans hx, hnumber⟩
  · have hserved := h.served sub hsub
    refine ⟨hserved.low, hserved.high.trans (Nat.le_succ _), fun j hj => hmessages j (hserved.kept j hj),
      fun j x hx hrecorded n hn => ?_, fun hopen x hx n hn => ?_, fun hopen j => ?_⟩
    · rcases getElem?_set_cases hx with ⟨rfl, rfl⟩ | ⟨-, hx⟩
      · cases hn
        have hlast := hserved.low.trans hserved.high
        exact iff_of_false (fun hmem => hnew (hserved.kept j hmem)) (by omega)
      · exact hserved.snapshot j x hx hrecorded n hn
    · rcases mem_or_eq_of_mem_set hx with hx | rfl
      · exact hserved.below hopen x hx n hn
      · cases hn
        exact .inr (Nat.lt_succ_of_le hserved.high)
    · rw [hserved.deliveries hopen j]
      by_cases hij : i = j
      · subst hij
        rw [hi]
        simp [setRecorder, hlt, expected]
      · simp [setRecorder, getElem?_set_ne hij]

lemma Inv.publish {i n : ℕ} {recorded} (h : s.Inv) (hi : s.recorders[i]? = some ⟨recorded, .publish n⟩)
    (horder : ∀ y ∈ s.recorders, ∀ m ∈ y.pc.pending, n ≤ m) :
    ((s.publish i n).setRecorder i ⟨recorded, .publish n⟩ (.done n)).Inv := by
  have hlt := lt_of_getElem? hi
  have hmem := mem_of_getElem? hi
  refine {
    numbers := fun x hx m hm => ?_
    distinct := fun j k x y hx hy m hm hm' => ?_
    messages := fun j x hx hrecorded hnumber => ?_
    made := fun j hj => ?_
    served := fun sub' hsub' => ?_}
  · rcases mem_or_eq_of_mem_set hx with hx | rfl
    · exact h.numbers x hx m hm
    · exact h.numbers _ hmem m hm
  · rcases getElem?_set_cases hx with ⟨rfl, rfl⟩ | ⟨-, hx⟩
    · cases hm
    rcases getElem?_set_cases hy with ⟨rfl, rfl⟩ | ⟨-, hy⟩
    · cases hm'
    · exact h.distinct j k x y hx hy m hm hm'
  · rcases getElem?_set_cases hx with ⟨rfl, rfl⟩ | ⟨-, hx⟩
    · exact h.messages j _ hi hrecorded (by simp [Pc.number])
    · exact h.messages j x hx hrecorded hnumber
  · obtain ⟨x, hx, hnumber⟩ := h.made j hj
    by_cases hij : i = j
    · subst hij
      exact ⟨_, getElem?_set_self hlt, by simp [Pc.number]⟩
    · exact ⟨x, (getElem?_set_ne hij).trans hx, hnumber⟩
  · obtain ⟨sub, hsub, rfl⟩ := map_eq_some_iff.mp hsub'
    have hserved := h.served sub hsub
    obtain ⟨hlast, hsnapshot, hseq⟩ := sub.publish_frame i n
    refine ⟨?_, ?_, ?_, fun j x hx hrecorded m hm => ?_, fun hopen x hx m hm => ?_, fun hopen j => ?_⟩
    · rw [hlast]
      rcases hseq with hseq | ⟨habove, hseq⟩
      · rw [hseq]
        exact hserved.low
      · rw [hseq]
        exact hserved.low.trans habove.le
    · rcases hseq with hseq | ⟨-, hseq⟩
      · rw [hseq]
        exact hserved.high
      · rw [hseq]
        exact h.numbers _ hmem n rfl
    · rw [hsnapshot]
      exact hserved.kept
    · rw [hsnapshot, hlast]
      rcases getElem?_set_cases hx with ⟨rfl, rfl⟩ | ⟨-, hx⟩
      · exact hserved.snapshot j _ hi hrecorded m hm
      · exact hserved.snapshot j x hx hrecorded m hm
    · obtain ⟨k, hk⟩ := mem_iff_getElem?.mp hx
      rcases getElem?_set_cases hk with ⟨-, rfl⟩ | ⟨hki, hk⟩
      · cases hm
      have hold := mem_of_getElem? hk
      obtain ⟨hwasOpen, hdropped | ⟨-, hsent⟩⟩ := publish_spec hopen
      · rw [hdropped.2]
        exact hserved.below hwasOpen x hold m hm
      rw [hsent]
      have hne : n ≠ m := by
        rintro rfl
        exact hki (h.distinct k i x _ hk hi n hm rfl)
      exact .inr (lt_of_le_of_ne (horder x hold m hm) hne)
    · have hother : i ≠ j → ((s.recorders.set i ⟨recorded, .done n⟩)[j]?) = s.recorders[j]? := fun hij =>
        getElem?_set_ne hij
      change _ = expected _ ((s.recorders.set i ⟨recorded, .done n⟩)[j]?)
      obtain ⟨hwasOpen, ⟨hdrop, hsame⟩ | ⟨habove, hsent⟩⟩ := publish_spec hopen
      · rw [hsame, hserved.deliveries hwasOpen j]
        by_cases hij : i = j
        · subst hij
          have hlow : n ≤ sub.lastSeq := (hserved.below hwasOpen _ hmem n rfl).resolve_right (not_lt.mpr hdrop)
          rw [getElem?_set_self hlt, hi, expected_eq_zero (by simp), expected_eq_zero]
          intro m hm
          cases hm
          exact hlow
        · rw [hother hij]
      have hdeliveries := hserved.deliveries hwasOpen j
      rw [hsent]
      by_cases hij : i = j
      · subst hij
        rw [hi, expected_eq_zero (by simp)] at hdeliveries
        rw [getElem?_set_self hlt]
        simp only [expected, if_pos (lt_of_le_of_lt hserved.low habove)]
        simp only [deliveries, ← append_assoc, count_append] at hdeliveries ⊢
        simp [hdeliveries]
      · rw [hother hij, ← hdeliveries]
        simp only [deliveries, ← append_assoc, count_append]
        simp [hij]

lemma Inv.subscribe (h : s.Inv) :
    {s with subscriber := some ⟨s.sequenceID, s.messages, s.sequenceID, [], [], false⟩ : State}.Inv :=
  {h with
    served := fun sub hsub => by
      cases hsub
      refine ⟨le_refl _, le_refl _, fun _ hi => hi, fun i x hx hrecorded n hn => ?_, fun _ x hx n hn => ?_, fun _ i => ?_⟩
      · have hnumber : x.pc.number ≠ none := by
          rw [mem_def.mp hn]
          exact some_ne_none n
        exact iff_of_true (h.messages i x hx hrecorded hnumber) (h.numbers x (mem_of_getElem? hx) n hn)
      · exact .inl (h.numbers x hx n (number_of_pending hn))
      · change 0 = expected s.sequenceID s.recorders[i]?
        cases hx : s.recorders[i]? with
        | none => rfl
        | some x =>
          refine (expected_eq_zero fun n hn => h.numbers x (mem_of_getElem? hx) n ?_).symm
          rw [hn]
          rfl}

lemma Inv.step {l} (h : s.Inv) (horder : s.InOrder l) (hstep : s.step l = some t) : t.Inv := by
  cases l with
  | record recorded =>
    cases hstep
    exact h.record recorded
  | take i =>
    simp only [State.step] at hstep
    split at hstep
    · next recorded hi =>
      cases hstep
      exact h.take hi
    · cases hstep
  | publish i =>
    simp only [State.step] at hstep
    split at hstep
    · next recorded n hi =>
      cases hstep
      exact h.publish hi (horder _ hi n rfl)
    · cases hstep
  | subscribe =>
    obtain ⟨-, rfl⟩ := of_guarded hstep
    exact h.subscribe
  | broadcast =>
    cases hstep
    refine h.of_sub (f := fun sub => some sub.broadcast) (fun sub' hsub' => ?_) fun sub sub' hsub' => ?_
    · obtain ⟨sub, hsub, rfl⟩ := map_eq_some_iff.mp hsub'
      exact ⟨sub, hsub, rfl⟩
    obtain rfl := some_inj.mp hsub'
    unfold Subscriber.broadcast
    by_cases hclosed : sub.closed
    · rw [if_pos hclosed]
      exact ⟨rfl, rfl, rfl, fun hopen => absurd hclosed (by simp [hopen])⟩
    rw [if_neg hclosed]
    obtain ⟨hlast, hsnapshot, hseq⟩ := sub.send_frame none
    refine ⟨hlast, hsnapshot, hseq, fun hopen => ⟨by simpa using hclosed, fun i => ?_⟩⟩
    rw [Subscriber.send_spec hopen]
    simp [Subscriber.deliveries, count_append]
  | receive =>
    obtain ⟨sub', hsub', rfl⟩ := map_eq_some_iff.mp hstep
    refine h.of_sub (f := Subscriber.receive) (fun sub'' hsub'' => ?_) fun sub sub' hsub' => ?_
    · obtain rfl := some_inj.mp hsub''
      exact bind_eq_some_iff.mp hsub'
    cases hch : sub.ch with
    | nil => simp [Subscriber.receive, hch] at hsub'
    | cons message rest =>
      simp only [Subscriber.receive, hch, mem_def, some.injEq] at hsub'
      subst hsub'
      exact ⟨rfl, rfl, rfl, fun hopen => ⟨hopen, fun i => by simp [Subscriber.deliveries, hch]⟩⟩
  | leave =>
    cases hstep
    refine h.of_sub (f := fun sub => some {sub with closed := true}) (fun sub' hsub' => ?_) fun sub sub' hsub' => ?_
    · obtain ⟨sub, hsub, rfl⟩ := map_eq_some_iff.mp hsub'
      exact ⟨sub, hsub, rfl⟩
    · obtain rfl := some_inj.mp hsub'
      exact ⟨rfl, rfl, rfl, fun hopen => absurd hopen (by simp)⟩

lemma Inv.reach {count sequenceID} (h : Reach State.step InOrder (State.start count sequenceID) s) : s.Inv :=
  h.preserved (P := Inv) (.start count sequenceID) Inv.step

/-- If the messages are published in the order of their numbers, a subscriber that is still connected has each one that
was recorded and published either in its snapshot or received, once. -/
theorem recorded_delivered {count sequenceID : ℕ} (h : Reach State.step InOrder (State.start count sequenceID) s)
    (hsub : s.subscriber = some sub) (hopen : sub.closed = false) (i n : ℕ) (hi : s.recorders[i]? = some ⟨true, .done n⟩) :
    i ∈ sub.snapshot ∧ sub.deliveries i = 0 ∨ i ∉ sub.snapshot ∧ sub.deliveries i = 1 := by
  have hserved := (Inv.reach h).served sub hsub
  have hsnapshot := hserved.snapshot i _ hi rfl n rfl
  have hdeliveries := hserved.deliveries hopen i
  rw [hi] at hdeliveries
  by_cases hn : n ≤ sub.lastSeq
  · exact .inl ⟨hsnapshot.mpr hn, hdeliveries.trans (if_neg (not_lt.mpr hn))⟩
  · exact .inr ⟨fun hmem => hn (hsnapshot.mp hmem), hdeliveries.trans (if_pos (not_le.mp hn))⟩

def streamed : State :=
  follow State.step (fun s l => decide (s.InOrder l)) (State.start 2 7)
    [(.record true, 1), (.record true, 1), (.take 2, 1), (.subscribe, 1), (.take 3, 1), (.publish 2, 1), (.publish 3, 1),
      (.receive, 1)]

def streamedSubscriber : Subscriber := ⟨8, [0, 1, 2], 9, [], [some 3], false⟩

theorem recorded_delivered_streamed : 2 ∈ streamedSubscriber.snapshot ∧ streamedSubscriber.deliveries 2 = 0 ∨
      2 ∉ streamedSubscriber.snapshot ∧ streamedSubscriber.deliveries 2 = 1 :=
  recorded_delivered (s := streamed) (reach_checked _ _)
    (by decide +kernel) rfl 2 8 (by decide +kernel)

def overtaken : State :=
  play State.step (State.start 0 0)
    [(.subscribe, 1), (.record true, 1), (.record true, 1), (.take 0, 1), (.take 1, 1), (.publish 1, 1), (.publish 0, 1)]

/-- The first message is neither in the snapshot nor received. -/
theorem recorded_dropped :
    ¬ ∀ s sub, Reach State.step always (State.start 0 0) s → s.subscriber = some sub → sub.closed = false →
      ∀ i n : ℕ, s.recorders[i]? = some ⟨true, .done n⟩ →
        i ∈ sub.snapshot ∧ sub.deliveries i = 0 ∨ i ∉ sub.snapshot ∧ sub.deliveries i = 1 := by
  intro h
  have hmessage := h overtaken ⟨0, [], 2, [some 1], [], false⟩ (reach_play _ _) (by decide +kernel) rfl 0 1 (by decide +kernel)
  exact absurd hmessage (by decide)

end State
end Ayatsuri.SessionStream
