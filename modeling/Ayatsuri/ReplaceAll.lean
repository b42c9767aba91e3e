import Mathlib

/-! Replacing every occurrence of a list in another one, from the left and without overlaps, as
`strings.ReplaceAll` does it. -/
namespace Ayatsuri.ReplaceAll
open List
variable {α : Type*} [DecidableEq α]

/-- The replacement after the next `skip` elements, which belong to an occurrence. -/
def replaceFrom (old new : List α) : ℕ → List α → List α
  | _, [] => []
  | skip+1, _::text => replaceFrom old new skip text
  | 0, c::text =>
    if old <+: c::text then new++replaceFrom old new (old.length - 1) text
    else c::replaceFrom old new 0 text

def replaceAll (old new text : List α) : List α := replaceFrom old new 0 text

variable {old new text l r : List α} {c : α}

lemma replaceFrom_eq_drop (skip : ℕ) (text : List α) :
    replaceFrom old new skip text = replaceAll old new (text.drop skip) := by
  induction text generalizing skip with
  | nil => simp [replaceFrom, replaceAll]
  | cons c text ih =>
    cases skip with
    | zero => rfl
    | succ skip => simpa [replaceFrom] using ih skip

@[simp] lemma replaceAll_nil : replaceAll old new [] = [] := rfl

lemma replaceAll_first (h : old ≠ []) (text : List α) :
    replaceAll old new (old++text) = new++replaceAll old new text := by
  obtain ⟨c, rest, rfl⟩ := exists_cons_of_ne_nil h
  have hprefix : c::rest <+: c::(rest++text) := by
    rw [← cons_append]
    exact prefix_append _ _
  rw [cons_append, replaceAll, replaceFrom, if_pos hprefix, replaceFrom_eq_drop]
  simp

lemma replaceAll_cons (h : ¬ old <+: c::text) : replaceAll old new (c::text) = c::replaceAll old new text := by
  rw [replaceAll, replaceFrom, if_neg h]
  rfl

lemma replaceAll_induction {motive : List α → Prop} (hold : old ≠ []) (nil : motive [])
    (occurrence : ∀ text, motive text → motive (old++text))
    (element : ∀ c text, ¬ old <+: c::text → motive text → motive (c::text)) (text : List α) : motive text := by
  induction hn : text.length using Nat.strong_induction_on generalizing text with
  | _ n ih =>
    cases text with
    | nil => exact nil
    | cons c rest =>
      by_cases hprefix : old <+: c::rest
      · obtain ⟨tail, htail⟩ := hprefix
        have hpos : 0 < old.length := length_pos_iff.mpr hold
        have hlen := congrArg length htail
        simp only [length_append] at hlen
        rw [← htail]
        exact occurrence tail (ih tail.length (by omega) tail rfl)
      · exact element c rest hprefix (ih rest.length (by simp at hn; omega) rest rfl)

/-! ### Texts that are put together -/

def Closed (old text : List α) : Prop := ∀ p q, old = p++q → p ≠ [] → q ≠ [] → ¬ p <:+ text

omit [DecidableEq α] in
lemma Closed.of_suffix (h : Closed old text) (hl : l <:+ text) : Closed old l :=
  fun p q hpq hp hq hsuffix => h p q hpq hp hq (hsuffix.trans hl)

section
variable (hold : old ≠ [])
include hold

lemma replaceAll_append (h : Closed old l) (r : List α) :
    replaceAll old new (l++r) = replaceAll old new l++replaceAll old new r := by
  induction l using replaceAll_induction hold with
  | nil => rfl
  | occurrence text ih =>
    rw [append_assoc, replaceAll_first hold, replaceAll_first hold, append_assoc, ih (h.of_suffix (suffix_append _ _))]
  | element c text hnone ih =>
    have hnone' : ¬ old <+: c::(text++r) := by
      intro hprefix
      rw [← cons_append] at hprefix
      rcases le_or_gt old.length (c::text).length with hle | hlt
      · exact hnone ((isPrefix_append_of_length hle).mp hprefix)
      obtain ⟨q, hq⟩ := prefix_of_prefix_length_le (prefix_append _ _) hprefix hlt.le
      refine h (c::text) q hq.symm (by simp) ?_ (suffix_refl _)
      rintro rfl
      simp [← hq] at hlt
    rw [cons_append, replaceAll_cons hnone', replaceAll_cons hnone, cons_append, ih (h.of_suffix (suffix_cons _ _))]

lemma replaceAll_of_disjoint (h : ∀ c ∈ text, c ∉ old) : replaceAll old new text = text := by
  induction text with
  | nil => rfl
  | cons c text ih =>
    have hnone : ¬ old <+: c::text := by
      intro hprefix
      obtain ⟨d, rest, rfl⟩ := exists_cons_of_ne_nil hold
      obtain rfl : d = c := (cons_prefix_cons.mp hprefix).1
      exact h d (by simp) (by simp)
    rw [replaceAll_cons hnone, ih fun d hd => h d (mem_cons_of_mem _ hd)]

lemma replaceAll_eq_self_of_absent (h : ¬ old <:+: text) : replaceAll old new text = text := by
  induction text using replaceAll_induction hold with
  | nil => rfl
  | occurrence text _ => exact absurd (prefix_append _ _).isInfix h
  | element c text hnone ih => rw [replaceAll_cons hnone, ih fun hfactor => h (hfactor.trans (suffix_cons _ _).isInfix)]

lemma replaceAll_self : replaceAll old new old = new := by
  have h : replaceAll old new (old++[]) = new++replaceAll old new [] := replaceAll_first hold []
  simpa using h

lemma replaceAll_ne_nil (hnew : new ≠ []) (htext : text ≠ []) : replaceAll old new text ≠ [] := by
  induction text using replaceAll_induction hold with
  | nil => exact htext
  | occurrence text _ => simp [replaceAll_first hold, hnew]
  | element c text hnone _ => simp [replaceAll_cons hnone]

lemma getLast?_replaceAll (hnew : new ≠ []) (text : List α) :
    (replaceAll old new text).getLast? = text.getLast? ∨ (replaceAll old new text).getLast? = new.getLast? := by
  induction text using replaceAll_induction hold with
  | nil => exact .inl rfl
  | occurrence text ih =>
    rw [replaceAll_first hold]
    rcases eq_or_ne text [] with rfl | htext
    · exact .inr (by simp)
    have hne := replaceAll_ne_nil hold hnew htext
    rw [getLast?_append_of_ne_nil _ hne, getLast?_append_of_ne_nil _ htext]
    exact ih
  | element c text hnone ih =>
    rw [replaceAll_cons hnone]
    rcases eq_or_ne text [] with rfl | htext
    · exact .inl rfl
    have hne := replaceAll_ne_nil hold hnew htext
    rw [← singleton_append, ← singleton_append (l := text), getLast?_append_of_ne_nil _ hne,
      getLast?_append_of_ne_nil _ htext]
    exact ih

lemma getLast?_replaceAll_of_not_mem (hnew : new ≠ []) (hc : c ∉ old)
    (h : text.getLast? = some c) : (replaceAll old new text).getLast? = some c := by
  induction text using replaceAll_induction hold with
  | nil => exact h
  | occurrence text ih =>
    rw [replaceAll_first hold]
    rcases eq_or_ne text [] with rfl | htext
    · rw [append_nil] at h
      exact absurd (mem_of_getLast? h) hc
    rw [getLast?_append_of_ne_nil _ htext] at h
    rw [getLast?_append_of_ne_nil _ (replaceAll_ne_nil hold hnew htext)]
    exact ih h
  | element d text hnone ih =>
    rw [replaceAll_cons hnone]
    rcases eq_or_ne text [] with rfl | htext
    · exact h
    rw [← singleton_append, getLast?_append_of_ne_nil _ htext] at h
    rw [← singleton_append, getLast?_append_of_ne_nil _ (replaceAll_ne_nil hold hnew htext)]
    exact ih h

lemma count_le_count_replaceAll (hc : c ∉ old) (text : List α) : text.count c ≤ (replaceAll old new text).count c := by
  induction text using replaceAll_induction hold with
  | nil => exact le_rfl
  | occurrence text ih =>
    rw [replaceAll_first hold, count_append, count_append, count_eq_zero_of_not_mem hc]
    omega
  | element d text hnone ih =>
    rw [replaceAll_cons hnone, count_cons, count_cons]
    omega

lemma replaceAll_refl (text : List α) : replaceAll old old text = text := by
  induction text using replaceAll_induction hold with
  | nil => rfl
  | occurrence text ih => rw [replaceAll_first hold, ih]
  | element c text hnone ih => rw [replaceAll_cons hnone, ih]

lemma mem_replaceAll_or_count (d : α) (hc : c ∈ text) :
    c ∈ replaceAll old new text ∨ new.count d ≤ (replaceAll old new text).count d := by
  induction text using replaceAll_induction hold with
  | nil => simp at hc
  | occurrence text _ =>
    rw [replaceAll_first hold, count_append]
    exact .inr (Nat.le_add_right _ _)
  | element e text hnone ih =>
    rw [replaceAll_cons hnone]
    rcases mem_cons.mp hc with rfl | hc
    · exact .inl (by simp)
    rcases ih hc with hmem | hcount
    · exact .inl (mem_cons_of_mem _ hmem)
    · exact .inr (hcount.trans (count_le_count_cons))

end

/-! ### Two replacements -/

lemma prefix_of_prefix_replaceAll (hold : old ≠ []) (hnew : new ≠ []) {p}
    (hp : ∀ c ∈ new, c ∉ p) (h : p <+: replaceAll old new text) : p <+: text := by
  induction text using replaceAll_induction hold generalizing p with
  | nil => exact h
  | occurrence text _ =>
    rw [replaceAll_first hold] at h
    obtain ⟨d, rest, rfl⟩ := exists_cons_of_ne_nil hnew
    cases p with
    | nil => exact nil_prefix
    | cons c p =>
      obtain rfl : c = d := (cons_prefix_cons.mp h).1
      exact absurd (by simp) (hp c (by simp))
  | element d text hnone ih =>
    rw [replaceAll_cons hnone] at h
    cases p with
    | nil => exact nil_prefix
    | cons c p =>
      obtain ⟨rfl, htail⟩ := cons_prefix_cons.mp h
      exact cons_prefix_cons.mpr ⟨rfl, ih (fun e he hep => hp e he (mem_cons_of_mem _ hep)) htail⟩

omit [DecidableEq α] in
lemma infix_of_infix_append {u} (hu : u ≠ []) (hnew : ∀ c ∈ new, c ∉ u) (h : u <:+: new++text) : u <:+: text := by
  induction new with
  | nil => exact h
  | cons c new ih =>
    rcases infix_cons_iff.mp h with hprefix | hfactor
    · obtain ⟨d, rest, rfl⟩ := exists_cons_of_ne_nil hu
      obtain rfl : d = c := (cons_prefix_cons.mp hprefix).1
      exact absurd (by simp) (hnew d (by simp))
    · exact ih (fun d hd => hnew d (mem_cons_of_mem _ hd)) hfactor

lemma not_infix_replaceAll {u} (hold : old ≠ []) (hnew : new ≠ []) (hu : u ≠ []) (hp : ∀ c ∈ new, c ∉ u)
    (h : u = old ∨ ¬ u <:+: text) : ¬ u <:+: replaceAll old new text := by
  induction text using replaceAll_induction hold with
  | nil => exact fun hfactor => hu (eq_nil_of_infix_nil hfactor)
  | occurrence text ih =>
    rw [replaceAll_first hold]
    intro hfactor
    refine ih (h.imp_right fun hnone hin => hnone ?_) (infix_of_infix_append hu hp hfactor)
    exact hin.trans (suffix_append _ _).isInfix
  | element c text hnone ih =>
    intro hfactor
    rw [replaceAll_cons hnone] at hfactor
    rcases infix_cons_iff.mp hfactor with hprefix | hfactor
    · rw [← replaceAll_cons hnone] at hprefix
      have hprefix' := prefix_of_prefix_replaceAll hold hnew hp hprefix
      rcases h with rfl | h
      · exact hnone hprefix'
      · exact h hprefix'.isInfix
    · exact ih (h.imp_right fun hnone hin => hnone (hin.trans (suffix_cons _ _).isInfix)) hfactor

lemma replaceAll_append_new (hold : old ≠ []) (h : ∀ c ∈ new, c ∉ old) (text : List α) :
    replaceAll old new (new++text) = new++replaceAll old new text := by
  have hclosed : Closed old new := by
    rintro p q rfl hp - hsuffix
    obtain ⟨c, rest, rfl⟩ := exists_cons_of_ne_nil hp
    exact h c (hsuffix.subset (by simp)) (by simp)
  rw [replaceAll_append hold hclosed, replaceAll_of_disjoint hold h]

lemma replaceAll_across {w : List α} (hold : old ≠ []) (hne : old ≠ w) (hlen : old.length = w.length)
    (h : Closed old w) (text : List α) : replaceAll old new (w++text) = w++replaceAll old new text := by
  have hfactor : ¬ old <:+: w := fun hfactor => hne (hfactor.eq_of_length hlen)
  rw [replaceAll_append hold h, replaceAll_eq_self_of_absent hold hfactor]

lemma replaceAll_comm {v w : List α} (hv : v ≠ []) (hw : w ≠ []) (hnew : new ≠ []) (hne : v ≠ w)
    (hlen : v.length = w.length) (hvw : Closed v w) (hwv : Closed w v) (hnv : ∀ c ∈ new, c ∉ v)
    (hnw : ∀ c ∈ new, c ∉ w) (text : List α) :
    replaceAll w new (replaceAll v new text) = replaceAll v new (replaceAll w new text) := by
  induction hn : text.length using Nat.strong_induction_on generalizing text with
  | _ n ih =>
    have hpos : 0 < v.length := length_pos_iff.mpr hv
    by_cases hpv : v <+: text
    · obtain ⟨rest, rfl⟩ := hpv
      rw [replaceAll_first hv, replaceAll_append_new hw hnw, replaceAll_across hw hne.symm hlen.symm hwv,
        replaceAll_first hv, ih rest.length (by simp at hn; omega) rest rfl]
    by_cases hpw : w <+: text
    · obtain ⟨rest, rfl⟩ := hpw
      rw [replaceAll_first hw, replaceAll_append_new hv hnv, replaceAll_across hv hne hlen hvw,
        replaceAll_first hw, ih rest.length (by simp at hn; omega) rest rfl]
    cases text with
    | nil => rfl
    | cons c text =>
      have hpw' : ¬ w <+: c::replaceAll v new text := by
        rw [← replaceAll_cons hpv]
        exact fun h => hpw (prefix_of_prefix_replaceAll hv hnew hnw h)
      have hpv' : ¬ v <+: c::replaceAll w new text := by
        rw [← replaceAll_cons hpw]
        exact fun h => hpv (prefix_of_prefix_replaceAll hw hnew hnv h)
      rw [replaceAll_cons hpv, replaceAll_cons hpw', replaceAll_cons hpw, replaceAll_cons hpv',
        ih text.length (by simp at hn; omega) text rfl]

end Ayatsuri.ReplaceAll
