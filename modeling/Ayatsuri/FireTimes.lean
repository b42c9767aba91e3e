import Ayatsuri.TickPlanner

/-! Fire times against what the scheduler computes from them: when a schedule is due, the fire
time before a given one, and the missed times that are replayed. The library answers with the
zero time when it finds nothing within five years, and none of the three checks for it. -/
namespace Ayatsuri.Scheduler
open List Duration

namespace Cron
variable {c : Cron} {t f next p : ℤ}

/-- Five years are all the library looks ahead. -/
def Exact (c : Cron) : Prop := ∀ t, c.next t ≠ 0 → c.next t ≤ t+fiveYears

def FiresSoon (c : Cron) (t : ℤ) : Prop := ∃ f, c.fires f ∧ t < f ∧ f ≤ t+fiveYears

lemma not_fires_zero : ¬ c.fires 0 := by
  intro h
  have hne := c.next_found (-1) 0 h (by decide) (by decide)
  have hafter := c.next_after _ hne
  have hleast := c.next_least _ 0 hne h (by decide)
  omega

lemma Exact.next_ne_zero_iff (h : c.Exact) : c.next t ≠ 0 ↔ c.FiresSoon t :=
  ⟨fun hne => ⟨_, c.next_fires t hne, c.next_after t hne, h t hne⟩,
    fun ⟨f, hfires, hlt, hle⟩ => c.next_found t f hfires hlt hle⟩

lemma next_isLeast (hne : c.next t ≠ 0) : IsLeast {f | c.fires f ∧ t < f} (c.next t) :=
  ⟨⟨c.next_fires t hne, c.next_after t hne⟩, fun f hf => c.next_least t f hne hf.1 hf.2⟩

end Cron

/-! ### Due schedules -/

open Cron

theorem dueAt_iff_fires {s : Schedule} {c : Cron} (hc : s.parsedCron = some c) (hexact : c.Exact) (now : ℤ) :
    (∀ f, s.dueAt now = some f ↔ c.fires f ∧ now - second < f ∧ f ≤ now) ↔ now < 0 ∨ c.FiresSoon (now - second) := by
  have hdue : s.dueAt now = if now < c.next (now - second) then none else some (c.next (now - second)) := by
    simp only [Schedule.dueAt, hc]
  rw [hdue, ← hexact.next_ne_zero_iff]
  constructor
  · intro h
    by_contra hcon
    push Not at hcon
    simp only [hcon.2, if_neg (not_lt.mpr hcon.1)] at h
    exact not_fires_zero ((h 0).mp rfl).1
  intro h f
  by_cases hne : c.next (now - second) = 0
  · rw [hne, if_pos (h.resolve_right (not_not.mpr hne))]
    simp only [reduceCtorEq, false_iff, not_and]
    intro hfires hlt hle
    have hnear : f ≤ now - second+fiveYears := by
      simp only [fiveYears, day, minute, second]
      omega
    exact absurd hne (c.next_found _ f hfires hlt hnear)
  have hafter := c.next_after _ hne
  have hfire := c.next_fires _ hne
  split_ifs with hlate
  · simp only [false_iff, not_and]
    intro hfires hlt hle
    have := c.next_least _ f hne hfires hlt
    omega
  rw [Option.some.injEq]
  constructor
  · rintro rfl
    exact ⟨hfire, hafter, by omega⟩
  rintro ⟨hfires, hlt, hle⟩
  -- both lie in the second up to `now`, and fire times are whole seconds
  obtain ⟨k, hk⟩ := c.fires_whole _ hfire
  obtain ⟨m, hm⟩ := c.fires_whole _ hfires
  simp only [second] at *
  omega

variable (times : List ℤ)

def firstOf (t : ℤ) : ℤ := (times.filter fun f => t < f ∧ f ≤ t+fiveYears).min?.getD 0

lemma firstOf_spec (t : ℤ) : firstOf times t = 0 ∧ (∀ f ∈ times, t < f → t+fiveYears < f) ∨
    firstOf times t ∈ times ∧ t < firstOf times t ∧ firstOf times t ≤ t+fiveYears ∧
      ∀ f ∈ times, t < f → firstOf times t ≤ f := by
  unfold firstOf
  cases hmin : (times.filter fun f => t < f ∧ f ≤ t+fiveYears).min? with
  | none =>
    have hnone := filter_eq_nil_iff.mp (min?_eq_none_iff.mp hmin)
    exact .inl ⟨rfl, fun f hf hlt => by simpa [hlt] using hnone f hf⟩
  | some m =>
    obtain ⟨hmem, hleast⟩ := min?_eq_some_iff.mp hmin
    simp only [mem_filter, decide_eq_true_eq] at hmem hleast
    obtain ⟨hm, hlt, hle⟩ := hmem
    refine .inr ⟨hm, hlt, hle, fun f hf hlt' => ?_⟩
    by_cases hnear : f ≤ t+fiveYears
    · exact hleast f ⟨hf, hlt', hnear⟩
    · exact hle.trans (by omega)

/-- The expression whose fire times are the given ones. -/
def Cron.ofTimes (h : ∀ f ∈ times, 0 < f ∧ second ∣ f) : Cron where
  next := firstOf times
  fires f := f ∈ times
  next_fires t hne := ((firstOf_spec times t).resolve_left (hne ·.1)).1
  next_after t hne := ((firstOf_spec times t).resolve_left (hne ·.1)).2.1
  next_least t f hne := ((firstOf_spec times t).resolve_left (hne ·.1)).2.2.2 f
  next_found t f hf hlt hle := (firstOf_spec times t).elim (fun hnone => absurd (hnone.2 f hf hlt) hle.not_gt)
    fun hfound => (h _ hfound.1).1.ne'
  fires_whole f hf := (h f hf).2

lemma Cron.ofTimes_exact {times : List ℤ} (h : ∀ f ∈ times, 0 < f ∧ second ∣ f) : (Cron.ofTimes times h).Exact :=
  fun t hne => ((firstOf_spec times t).resolve_left (hne ·.1)).2.2.1

/-- The expression `0 0 30 2 *`. -/
def never : Cron := .ofTimes [] (by simp)

theorem dueAt_never : (Schedule.cron (some never) none).dueAt day = some 0 ∧ ∀ f, ¬ never.fires f :=
  ⟨by decide, fun _ => not_mem_nil⟩

def daily : Cron := .ofTimes [day, 2*day, 3*day] (by decide)

theorem dueAt_iff_fires_daily : (∀ f, (Schedule.cron (some daily) none).dueAt day = some f ↔
      daily.fires f ∧ day - second < f ∧ f ≤ day) ↔ day < 0 ∨ daily.FiresSoon (day - second) :=
  dueAt_iff_fires rfl (ofTimes_exact _) day

/-! ### The fire time before -/

section
variable {schedule : Schedule} {c : Cron} {next p : ℤ}

/-- From any fire time on, the walk ends at `next` with the fire time before it. The fuel counts
the seconds left. -/
lemma lastBefore_eq (hnext : c.fires next) (hp : IsGreatest {f | c.fires f ∧ f < next} p) {k : ℕ} {t prev : ℤ}
    (ht : c.fires t) (hle : t ≤ next) (hnear : next ≤ t+fiveYears) (hk : next - t < second*k) :
    c.lastBefore next k t prev = if t < next then p else prev := by
  induction k generalizing t prev with
  | zero => omega
  | succ k ih =>
    unfold lastBefore
    split_ifs with hlt
    · have hne := c.next_found t next hnext hlt hnear
      have hafter := c.next_after t hne
      have hfire := c.next_fires t hne
      have hbound := c.next_least t next hne hnext hlt
      have hfuel : next - c.next t < second*k := by
        obtain ⟨a, ha⟩ := c.fires_whole _ ht
        obtain ⟨b, hb⟩ := c.fires_whole _ hfire
        simp only [second] at *
        push_cast at hk
        omega
      rw [ih hfire hbound (by omega) hfuel]
      split_ifs with hmore
      · rfl
      -- the next fire time is `next`, so `t` is the last one before it
      have htp := hp.2 ⟨ht, hlt⟩
      by_contra hcon
      have := c.next_least t p hne hp.1.1 (lt_of_le_of_ne htp hcon)
      have := hp.1.2
      omega
    · rfl

/-- Before the zero time, the zero time itself may be as far after `next` as `p` is before it. -/
lemma fallback_eq_iff (hexact : c.Exact) (hnext : c.fires next) (hp : c.fires p) (hlt : p < next) :
    next+neg (between (c.next (next+second)) next) = p ↔
      (∃ f, IsLeast {f | c.fires f ∧ next+second < f} f ∧ f ≤ next+second+fiveYears ∧ f - next = next - p) ∨
        ¬ c.FiresSoon (next+second) ∧ -next = next - p ∧ -next < 2 ^ 63 := by
  obtain ⟨a, ha⟩ := c.fires_whole _ hnext
  obtain ⟨b, hb⟩ := c.fires_whole _ hp
  by_cases hne : c.next (next+second) = 0
  · have hsoon : ¬ c.FiresSoon (next+second) := fun h => hexact.next_ne_zero_iff.mpr h hne
    rw [hne]
    constructor
    · intro h
      refine .inr ⟨hsoon, ?_⟩
      simp only [neg, between, second] at *
      split_ifs at h <;> omega
    rintro (⟨f, hleast, hwithin, -⟩ | ⟨-, hback, hrange⟩)
    · exact absurd ⟨f, hleast.1.1, hleast.1.2, hwithin⟩ hsoon
    · simp only [neg, between]
      split_ifs <;> omega
  have hleast := next_isLeast hne
  have hwithin := hexact _ hne
  have hafter := c.next_after _ hne
  have hgap : neg (between (c.next (next+second)) next) = next - c.next (next+second) := by
    simp only [neg, between, fiveYears, day, minute, second] at *
    split_ifs <;> omega
  rw [hgap]
  constructor
  · intro h
    exact .inl ⟨_, hleast, hwithin, by omega⟩
  rintro (⟨f, hf, -, hsame⟩ | ⟨hsoon, -⟩)
  · obtain rfl := hleast.unique hf
    omega
  · exact absurd (hexact.next_ne_zero_iff.mp hne) hsoon

theorem computePrevExecTime_eq_iff (hc : schedule.parsed = some c) (hexact : c.Exact)
    (hnext : c.fires next) (hp : IsGreatest {f | c.fires f ∧ f < next} p) :
    (∀ k, 32*86400+1 ≤ k → c.lastBefore next k (c.next (next - 32*day)) 0 =
      c.lastBefore next (32*86400+1) (c.next (next - 32*day)) 0) ∧
    (computePrevExecTime next schedule = p ↔ next - 32*day < p ∨
      (∃ f, IsLeast {f | c.fires f ∧ next+second < f} f ∧ f ≤ next+second+fiveYears ∧ f - next = next - p) ∨
        ¬ c.FiresSoon (next+second) ∧ -next = next - p ∧ -next < 2 ^ 63) := by
  have hne : c.next (next - 32*day) ≠ 0 := by
    refine c.next_found _ next hnext ?_ ?_ <;> simp only [fiveYears, day, minute, second] <;> omega
  obtain ⟨⟨hfire, hafter⟩, hfirst⟩ := next_isLeast hne
  have hle : c.next (next - 32*day) ≤ next := hfirst ⟨hnext, by simp only [day, minute, second]; omega⟩
  have hwalk : ∀ k : ℕ, 32*86400+1 ≤ k → c.lastBefore next k (c.next (next - 32*day)) 0 =
      if c.next (next - 32*day) < next then p else 0 := by
    intro k hk
    refine lastBefore_eq hnext hp hfire hle ?_ ?_ <;> simp only [fiveYears, day, minute, second] at * <;> omega
  refine ⟨fun k hk => (hwalk k hk).trans (hwalk _ le_rfl).symm, ?_⟩
  have hpne : p ≠ 0 := fun h => not_fires_zero (h ▸ hp.1.1)
  unfold computePrevExecTime
  simp only [hc, hwalk _ le_rfl]
  by_cases hlt : c.next (next - 32*day) < next
  · have hnear : next - 32*day < p := hafter.trans_le (hp.2 ⟨hfire, hlt⟩)
    simp [hlt, hpne, hnear]
  have hfar : ¬ next - 32*day < p := fun h => hlt ((hfirst ⟨hp.1.1, h⟩).trans_lt hp.1.2)
  rw [if_neg hlt, if_pos rfl, fallback_eq_iff hexact hnext hp.1.1 hp.1.2]
  exact (or_iff_right hfar).symm

/-- Fire times ninety days and then ninety-one days apart. -/
def quarterly : Cron := .ofTimes [100*day, 190*day, 281*day] (by decide)

lemma quarterly_greatest : IsGreatest {f | quarterly.fires f ∧ f < 190*day} (100*day) := by
  refine ⟨⟨mem_cons_self, by decide⟩, ?_⟩
  rintro f ⟨hf, hlt⟩
  simp only [quarterly, ofTimes, mem_cons, not_mem_nil, or_false, day, minute, second] at *
  omega

theorem computePrevExecTime_quarterly : computePrevExecTime (190*day) (.cron (some quarterly) none) = 99*day ∧
      IsGreatest {f | quarterly.fires f ∧ f < 190*day} (100*day) := ⟨by decide +kernel, quarterly_greatest⟩

theorem computePrevExecTime_eq_iff_quarterly :
    computePrevExecTime (190*day) (.cron (some quarterly) none) = 100*day ↔ 190*day - 32*day < 100*day ∨
      (∃ f, IsLeast {f | quarterly.fires f ∧ 190*day+second < f} f ∧ f ≤ 190*day+second+fiveYears ∧
        f - 190*day = 190*day - 100*day) ∨
      ¬ quarterly.FiresSoon (190*day+second) ∧ -(190*day) = 190*day - 100*day ∧ -(190*day) < 2 ^ 63 :=
  (computePrevExecTime_eq_iff rfl (ofTimes_exact _) (by simp [ofTimes])
    quarterly_greatest).2

end

/-! ### Missed fire times -/

/-- How many elements exceed `x`. -/
noncomputable def above (S : Set ℤ) (x : ℤ) : ℕ := {y | y ∈ S ∧ x < y}.ncard

section
variable {S T : Set ℤ} {n : ℕ} {x z : ℤ} (hT : T.Finite)
include hT

lemma above_le (h : ∀ y ∈ S, x < y → y ∈ T ∧ z < y) : above S x ≤ above T z :=
  Set.ncard_le_ncard (fun y hy => h y hy.1 hy.2) (hT.subset fun _ hy => hy.1)

/-- Where the last `n` elements of one set are in the other, that one has `n` elements above
whatever the first has `n` elements above. -/
lemma le_above (hS : S.Finite) (hsub : ∀ y ∈ S, above S y < n → y ∈ T) (h : n ≤ above S x) : n ≤ above T x := by
  by_contra hfew
  have hall : ∀ y ∈ S, x < y → y ∈ T := by
    by_contra hcon
    push Not at hcon
    -- all that lies above the greatest exception is in `T`, so the exception is one of the last
    obtain ⟨y, ⟨hy, hlt, hnot⟩, hmax⟩ :=
      Set.exists_max_image {y | y ∈ S ∧ x < y ∧ y ∉ T} id (hS.subset fun _ hy => hy.1) hcon
    have hle : above S y ≤ above T x := above_le hT fun z hz hyz =>
      ⟨by_contra fun hout => (hmax z ⟨hz, hlt.trans hyz, hout⟩).not_gt hyz, hlt.trans hyz⟩
    exact hnot (hsub y hy (by omega))
  exact hfew (h.trans (above_le hT fun y hy hlt => ⟨hall y hy hlt, hlt⟩))

/-- Two sets have the same last `n` elements when the second's are in the first, and what the
first has beyond the second lies below them. -/
lemma last_iff (hS : S.Finite) : (∀ x, x ∈ S ∧ above S x < n ↔ x ∈ T ∧ above T x < n) ↔
    (∀ x ∈ T, above T x < n → x ∈ S) ∧ ∀ x ∈ S, x ∉ T → n ≤ above T x := by
  constructor
  · intro h
    refine ⟨fun x hx hlast => ((h x).mpr ⟨hx, hlast⟩).1, fun x hx hnot => ?_⟩
    refine le_above hT hS (fun y hy hlast => ((h y).mp ⟨hy, hlast⟩).1) ?_
    exact not_lt.mp fun hlast => hnot ((h x).mp ⟨hx, hlast⟩).1
  rintro ⟨hin, hbelow⟩ x
  constructor
  · rintro ⟨hx, hlast⟩
    have hfew : above T x < n := not_le.mp fun h => hlast.not_ge (le_above hS hT hin h)
    exact ⟨by_contra fun hnot => hfew.not_ge (hbelow x hx hnot), hfew⟩
  rintro ⟨hx, hlast⟩
  refine ⟨hin x hx hlast, (above_le hT fun y hy hlt => ⟨by_contra fun hnot => ?_, hlt⟩).trans_lt hlast⟩
  have hmany := hbelow y hy hnot
  have hanti : above T y ≤ above T x := above_le hT fun z hz hyz => ⟨hz, hlt.trans hyz⟩
  omega

end

lemma mem_last_iff {l : List ℤ} (hl : l.Pairwise (· < ·)) {n : ℕ} {x : ℤ} :
    x ∈ l.drop (l.length - n) ↔ x ∈ l ∧ above {y | y ∈ l} x < n := by
  by_cases hx : x ∈ l
  · obtain ⟨a, b, rfl⟩ := append_of_mem hx
    obtain ⟨-, hb, hbefore⟩ := pairwise_append.mp hl
    obtain ⟨hafter, hb⟩ := pairwise_cons.mp hb
    have hset : {y | y ∈ a++x::b ∧ x < y} = (b.toFinset : Set ℤ) := by
      ext y
      simp only [Set.mem_ofPred_eq, mem_append, mem_cons, coe_toFinset]
      grind
    have habove : above {y | y ∈ a++x::b} x = b.length := by
      rw [← toFinset_card_of_nodup (hb.imp ne_of_lt), ← Set.ncard_coe_finset, ← hset]
      rfl
    have hxa : x ∉ a := fun h => lt_irrefl _ (hbefore x h x mem_cons_self)
    have hxb : x ∉ b := fun h => lt_irrefl _ (hafter x h)
    rw [habove, and_iff_right hx, drop_append, mem_append, length_append, length_cons]
    rw [or_iff_right fun h => hxa (mem_of_mem_drop h)]
    cases hk : a.length+(b.length+1) - n - a.length with
    | zero =>
      rw [drop_zero]
      exact iff_of_true mem_cons_self (by omega)
    | succ k => exact iff_of_false (fun h => hxb (mem_of_mem_drop h)) (by omega)
  · simp only [hx, false_and, iff_false]
    exact fun h => hx (mem_of_mem_drop h)

namespace Cron
variable {c : Cron} {t f replayFrom replayTo : ℤ}

/-- A chain of fire times, each the first after the one before and at most five years later. -/
inductive Linked (c : Cron) : ℤ → ℤ → Prop
  | single {t f : ℤ} (first : IsLeast {g | c.fires g ∧ t < g} f) (near : f ≤ t+fiveYears) : Linked c t f
  | cons {t g f : ℤ} (first : IsLeast {g | c.fires g ∧ t < g} g) (near : g ≤ t+fiveYears) (rest : Linked c g f) :
    Linked c t f

lemma Linked.spec (h : c.Linked t f) : c.fires f ∧ t < f := by
  induction h with
  | single first => exact first.1
  | cons first _ _ ih => exact ⟨ih.1, first.1.2.trans ih.2⟩

lemma linked_iff : c.Linked t f ↔ c.FiresSoon t ∧ (f = c.next t ∨ c.Linked (c.next t) f) := by
  constructor
  · have hnext {g : ℤ} (first : IsLeast {g | c.fires g ∧ t < g} g) (near : g ≤ t+fiveYears) :
        c.FiresSoon t ∧ g = c.next t :=
      ⟨⟨g, first.1.1, first.1.2, near⟩, first.unique (next_isLeast (c.next_found t g first.1.1 first.1.2 near))⟩
    rintro (⟨first, near⟩ | ⟨first, near, rest⟩)
    · exact (hnext first near).imp_right .inl
    · obtain ⟨hsoon, rfl⟩ := hnext first near
      exact ⟨hsoon, .inr rest⟩
  · rintro ⟨⟨g, hg, hgt, hnear⟩, h⟩
    have hne := c.next_found t g hg hgt hnear
    have hle := (c.next_least t g hne hg hgt).trans hnear
    rcases h with rfl | h
    · exact .single (next_isLeast hne) hle
    · exact .cons (next_isLeast hne) hle h

/-- The chain breaks off at `t`, or later but before the zero time. There the answer for nothing found is taken
for a time. -/
def Restarts (c : Cron) (t : ℤ) : Prop := ¬ c.FiresSoon t ∨ ∃ u < 0, c.Linked t u ∧ ¬ c.FiresSoon u

lemma restarts_iff (h : c.FiresSoon t) : c.Restarts t ↔ c.next t < 0 ∧ c.Restarts (c.next t) := by
  constructor
  · rintro (hnot | ⟨u, hu, hlinked, hgap⟩)
    · exact absurd h hnot
    rcases (linked_iff.mp hlinked).2 with rfl | hlinked
    · exact ⟨hu, .inl hgap⟩
    · exact ⟨hlinked.spec.2.trans hu, .inr ⟨u, hu, hlinked, hgap⟩⟩
  · rintro ⟨hneg, hgap | ⟨u, hu, hlinked, hgap⟩⟩
    · exact .inr ⟨_, hneg, linked_iff.mpr ⟨h, .inl rfl⟩, hgap⟩
    · exact .inr ⟨u, hu, linked_iff.mpr ⟨h, .inr hlinked⟩, hgap⟩

lemma mem_walk_iff (hexact : c.Exact) {k : ℕ} (hk : (replayTo+1 - t).toNat ≤ k) : f ∈ c.walk replayTo k t ↔
    t ≤ replayTo ∧ f ≤ replayTo ∧ (f = t ∨ c.Linked t f ∨ (t < 0 ∧ c.Restarts t) ∧ (f = 0 ∨ c.Linked 0 f)) := by
  induction k generalizing t with
  | zero =>
    simp only [walk, not_mem_nil, false_iff]
    omega
  | succ k ih =>
    unfold walk
    split_ifs with hend hgrow
    · simp [not_le.mpr hend]
    · rw [mem_cons, ih (by omega), linked_iff (t := t)]
      by_cases hsoon : c.FiresSoon t
      · rw [restarts_iff hsoon]
        have := fun h : c.Linked (c.next t) f => h.spec.2
        have := fun h : c.Linked 0 f => h.spec.2
        grind
      · have hzero : c.next t = 0 := by_contra fun h => hsoon (hexact.next_ne_zero_iff.mp h)
        have := fun h : c.Linked 0 f => h.spec.2
        grind [Restarts]
    · have hsoon : ¬ c.FiresSoon t := fun h => hgrow (c.next_after t (hexact.next_ne_zero_iff.mpr h))
      have hzero : c.next t = 0 := by_contra fun h => hsoon (hexact.next_ne_zero_iff.mp h)
      rw [linked_iff]
      grind

/-- The walk moves on by at least one nanosecond a step, so it ends with the range. -/
lemma walk_eq_walkFrom {k : ℕ} (hk : (replayTo+1 - c.next replayFrom).toNat ≤ k) :
    c.walk replayTo k (c.next replayFrom) = c.walkFrom replayFrom replayTo := by
  suffices h : ∀ (n k : ℕ) (t : ℤ), (replayTo+1 - t).toNat ≤ n → n ≤ k → c.walk replayTo k t = c.walk replayTo n t from
    h _ k _ le_rfl hk
  intro n
  induction n with
  | zero =>
    intro k t hn _
    cases k with
    | zero => rfl
    | succ k => rw [walk, walk, if_pos (by omega)]
  | succ n ih =>
    rintro (_ | k) t hn hk
    · omega
    rw [walk, walk]
    split_ifs with hend hgrow
    · rfl
    · rw [ih k _ (by omega) (by omega)]
    · rfl

/-- Where the library finds nothing, the walk starts over at the zero time. -/
lemma mem_walkFrom_iff (hexact : c.Exact) : f ∈ c.walkFrom replayFrom replayTo ↔
    f ≤ replayTo ∧ (c.Linked replayFrom f ∨ c.Restarts replayFrom ∧ (f = 0 ∨ c.Linked 0 f)) := by
  rw [walkFrom, mem_walk_iff hexact le_rfl, linked_iff (t := replayFrom)]
  have := fun h : c.Linked 0 f => h.spec.2
  by_cases hsoon : c.FiresSoon replayFrom
  · rw [restarts_iff hsoon]
    have := fun h : c.Linked (c.next replayFrom) f => h.spec.2
    grind
  · have hzero : c.next replayFrom = 0 := by_contra fun h => hsoon (hexact.next_ne_zero_iff.mp h)
    grind [Restarts]

end Cron

section
variable {schedules : List Schedule} {replayFrom replayTo : ℤ}

def missed (schedules : List Schedule) (replayFrom replayTo : ℤ) : Set ℤ :=
  {f | ∃ s ∈ schedules, ∃ c, s.parsedCron = some c ∧ c.fires f ∧ replayFrom < f ∧ f ≤ replayTo}

/-- All missed times in order, cut to the last ones. -/
def ReplaysMissed (schedules : List Schedule) (replayFrom replayTo : ℤ) (result : List ℤ) : Prop :=
  result.Pairwise (· < ·) ∧ ∀ f, f ∈ result ↔
    f ∈ missed schedules replayFrom replayTo ∧ above (missed schedules replayFrom replayTo) f < maxMissedRuns

lemma nodup_collectMissed : (collectMissed schedules replayFrom replayTo).Nodup := by
  have hunseen : ∀ (ts result : List ℤ), result.Nodup → (ts.foldl addUnseen result).Nodup := fun ts result h => by
    refine foldlRecOn ts _ h fun result h t _ => ?_
    unfold addUnseen
    split_ifs with hmem
    · exact h
    · exact nodup_append_comm.mp (nodup_cons.mpr ⟨hmem, h⟩)
  refine foldlRecOn schedules _ nodup_nil fun result h s _ => ?_
  cases s.parsed with
  | none => exact h
  | some c => exact hunseen _ _ h

lemma computeMissedIntervals_spec (schedules : List Schedule) (replayFrom replayTo : ℤ) :
    (computeMissedIntervals schedules replayFrom replayTo).Pairwise (· < ·) ∧
    ∀ f, f ∈ computeMissedIntervals schedules replayFrom replayTo ↔ f ∈ collectMissed schedules replayFrom replayTo ∧
    above {g | g ∈ collectMissed schedules replayFrom replayTo} f < maxMissedRuns := by
  have hperm := perm_insertionSort (· ≤ ·) (collectMissed schedules replayFrom replayTo)
  have hl := ((pairwise_insertionSort (· ≤ ·) _).and (hperm.nodup_iff.mpr nodup_collectMissed)).imp
    fun h => lt_of_le_of_ne h.1 h.2
  refine ⟨hl.sublist computeMissedIntervals_sublist, fun f => ?_⟩
  have hlast := mem_last_iff hl (n := maxMissedRuns) (x := f)
  simp only [hperm.mem_iff] at hlast
  rw [← hlast, computeMissedIntervals]
  split_ifs with h
  · rfl
  · rw [Nat.sub_eq_zero_of_le (by omega), drop_zero]

theorem computeMissedIntervals_replays_iff (hexact : ∀ s ∈ schedules, ∀ c, s.parsedCron = some c → c.Exact) :
    (∀ s ∈ schedules, ∀ c, s.parsed = some c → ∀ k, (replayTo+1 - c.next replayFrom).toNat ≤ k →
      c.walk replayTo k (c.next replayFrom) = c.walkFrom replayFrom replayTo) ∧
    (ReplaysMissed schedules replayFrom replayTo (computeMissedIntervals schedules replayFrom replayTo) ↔
    (∀ f ∈ missed schedules replayFrom replayTo, above (missed schedules replayFrom replayTo) f < maxMissedRuns →
    ∃ s ∈ schedules, ∃ c, s.parsed = some c ∧ (c.Linked replayFrom f ∨ c.Restarts replayFrom ∧ c.Linked 0 f)) ∧
    (replayTo < 0 ∨ (∀ s ∈ schedules, ∀ c, s.parsed = some c → ¬ c.Restarts replayFrom) ∨
    maxMissedRuns ≤ above (missed schedules replayFrom replayTo) 0)) := by
  refine ⟨fun _ _ c _ k hk => walk_eq_walkFrom hk, ?_⟩
  have hparsed : ∀ s ∈ schedules, ∀ c, s.parsed = some c → s.parsedCron = some c ∧ c.Exact := fun s hs c hc => by
    have : s.parsedCron = some c := by cases s <;> simp_all [Schedule.parsed, Schedule.parsedCron]
    exact ⟨this, hexact s hs c this⟩
  have hfin : (missed schedules replayFrom replayTo).Finite :=
    (Set.finite_Ioc replayFrom replayTo).subset fun f ⟨_, _, _, _, _, hf⟩ => hf
  obtain ⟨hsorted, hmem⟩ := computeMissedIntervals_spec schedules replayFrom replayTo
  rw [ReplaysMissed, and_iff_right hsorted]
  simp only [hmem]
  refine (last_iff hfin (finite_toSet _)).trans (and_congr ?_ ?_)
  · refine forall₃_congr fun f hf _ => ?_
    obtain ⟨_, _, _, _, hfires, _, hend⟩ := hf
    have hne : f ≠ 0 := fun h => not_fires_zero (h ▸ hfires)
    rw [Set.mem_ofPred_eq, mem_collectMissed]
    refine exists_congr fun s => and_congr_right fun hs => exists_congr fun c => and_congr_right fun hc => ?_
    rw [mem_walkFrom_iff (hparsed s hs c hc).2, and_iff_right hend, or_iff_right hne]
  constructor
  · intro h
    by_contra hcon
    push Not at hcon
    obtain ⟨hend, ⟨s, hs, c, hc, hrestarts⟩, hfew⟩ := hcon
    have hzero := (mem_walkFrom_iff (hparsed s hs c hc).2).mpr ⟨hend, .inr ⟨hrestarts, .inl rfl⟩⟩
    exact hfew.not_ge (h 0 (mem_collectMissed.mpr ⟨s, hs, c, hc, hzero⟩) fun ⟨_, _, _, _, hf, _⟩ => not_fires_zero hf)
  intro h x hx hnot
  obtain ⟨s, hs, c, hc, hwalk⟩ := mem_collectMissed.mp hx
  obtain ⟨hcron, hex⟩ := hparsed s hs c hc
  obtain ⟨hend, hlinked⟩ := (mem_walkFrom_iff hex).mp hwalk
  have hback : c.fires x → x ≤ replayFrom := fun hf => not_lt.mp fun hlt => hnot ⟨s, hs, c, hcron, hf, hlt, hend⟩
  rcases hlinked with hlinked | ⟨hrestarts, hzero⟩
  · exact absurd hlinked.spec.2 (hback hlinked.spec.1).not_gt
  have hpos : 0 ≤ x := hzero.elim (·.ge) (·.spec.2.le)
  have hmany := (h.resolve_left (by omega)).resolve_left fun hall => hall s hs c hc hrestarts
  rcases hzero with rfl | hlinked
  · exact hmany
  -- what is reached again from the zero time lies before all that is missed
  refine hmany.trans (above_le hfin fun y hy _ => ⟨hy, ?_⟩)
  obtain ⟨-, -, -, -, -, hlt, -⟩ := hy
  exact (hback hlinked.spec.1).trans_lt hlt

theorem computeMissedIntervals_never : computeMissedIntervals [.cron (some never) none] day (2*day) = [0] ∧
    ¬ ReplaysMissed [.cron (some never) none] day (2*day) [0] := by
  refine ⟨by decide +kernel, fun h => ?_⟩
  obtain ⟨⟨-, -, c, -, hf, -⟩, -⟩ := (h.2 0).mp mem_cons_self
  exact not_fires_zero hf

theorem computeMissedIntervals_replays_iff_daily : ReplaysMissed [.cron (some daily) none] day (3*day)
    (computeMissedIntervals [.cron (some daily) none] day (3*day)) ↔
    (∀ f ∈ missed [.cron (some daily) none] day (3*day),
    above (missed [.cron (some daily) none] day (3*day)) f < maxMissedRuns →
    ∃ s ∈ [Schedule.cron (some daily) none], ∃ c, s.parsed = some c ∧
    (c.Linked day f ∨ c.Restarts day ∧ c.Linked 0 f)) ∧
    (3*day < 0 ∨ (∀ s ∈ [Schedule.cron (some daily) none], ∀ c, s.parsed = some c → ¬ c.Restarts day) ∨
    maxMissedRuns ≤ above (missed [.cron (some daily) none] day (3*day)) 0) := by
  refine (computeMissedIntervals_replays_iff ?_).2
  intro s hs c hc
  obtain rfl := mem_singleton.mp hs
  cases hc
  exact ofTimes_exact _

end
end Ayatsuri.Scheduler
