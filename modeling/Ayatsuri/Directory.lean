import Ayatsuri.SortedMerge

/-! Directories: files by name, with the operations of a file system on whole files. -/
namespace Ayatsuri
open SortedMerge List Option

structure Dir (κ α : Type*) where
  entries : List (κ × α)
  nodup : (entries.map Prod.fst).Nodup

namespace Dir
variable {κ α : Type*} {d : Dir κ α} {name other : κ} {a b : α} {x : κ × α}

def empty : Dir κ α := ⟨[], by simp⟩

def names (d : Dir κ α) : List κ := d.entries.map Prod.fst

lemma eq_of_mem (h : (name, a) ∈ d.entries) (h' : (name, b) ∈ d.entries) : a = b := by
  have := inj_on_of_nodup_map d.nodup h h' rfl
  simpa using this

lemma mem_names_of_mem (h : x ∈ d.entries) : x.1 ∈ d.names := mem_map_of_mem h

variable [DecidableEq κ]

def get? (d : Dir κ α) (name : κ) : Option α := (d.entries.find? fun x => x.1 = name).map Prod.snd

def remove (d : Dir κ α) (name : κ) : Dir κ α where
  entries := d.entries.filter fun x => x.1 ≠ name
  nodup := d.nodup.sublist (filter_sublist.map _)

def put (d : Dir κ α) (name : κ) (a : α) : Dir κ α where
  entries := (name, a)::(d.remove name).entries
  nodup := by
    simp only [map_cons, nodup_cons]
    refine ⟨?_, (d.remove name).nodup⟩
    simp [remove]

@[simp] lemma entries_remove : (d.remove name).entries = d.entries.filter (·.1 ≠ name) := rfl

lemma mem_remove : x ∈ (d.remove name).entries ↔ x ∈ d.entries ∧ x.1 ≠ name := by simp

lemma mem_put : x ∈ (d.put name a).entries ↔ x = (name, a) ∨ x ∈ d.entries ∧ x.1 ≠ name := by simp [put]

lemma get?_eq_some : d.get? name = some a ↔ (name, a) ∈ d.entries := by
  unfold get?
  constructor
  · intro h
    obtain ⟨x, hfind, rfl⟩ := map_eq_some_iff.mp h
    have hname : x.1 = name := by simpa using find?_some hfind
    have hmem := mem_of_find?_eq_some hfind
    rwa [← hname]
  intro h
  cases hfind : d.entries.find? fun x => x.1 = name with
  | none => simpa using find?_eq_none.mp hfind _ h
  | some x =>
    have hname : x.1 = name := by simpa using find?_some hfind
    have hmem := mem_of_find?_eq_some hfind
    rw [map_some, eq_of_mem h (hname ▸ hmem : (name, x.2) ∈ d.entries)]

lemma get?_eq_none : d.get? name = none ↔ name ∉ d.names := by
  rw [eq_none_iff_forall_ne_some]
  simp [get?_eq_some, names]

lemma entries_put (h : name ∉ d.names) : (d.put name a).entries = (name, a)::d.entries := by
  have hself : d.entries.filter (·.1 ≠ name) = d.entries := by
    apply filter_eq_self.mpr
    intro x hx
    have hne : x.1 ≠ name := by
      rintro rfl
      exact h (mem_names_of_mem hx)
    simpa using hne
  simp only [put, entries_remove, hself]

lemma perm_cons_remove (h : (name, a) ∈ d.entries) : d.entries.Perm ((name, a)::(d.remove name).entries) := by
  apply (perm_ext_iff_of_nodup (List.Nodup.of_map _ d.nodup) (List.Nodup.of_map _ (d.put name a).nodup)).mpr
  intro x
  rw [mem_put]
  constructor
  · intro hx
    by_cases hname : x.1 = name
    · exact .inl (Prod.ext hname (eq_of_mem (hname ▸ hx) h))
    · exact .inr ⟨hx, hname⟩
  · rintro (rfl | ⟨hx, -⟩)
    · exact h
    · exact hx

lemma entries_remove_put : ((d.put name a).remove name).entries = (d.remove name).entries := by
  simp [put, List.filter_filter]

lemma names_put (h : name ∉ d.names) : (d.put name a).names = name::d.names := by
  rw [names, entries_put h, map_cons, names]

lemma names_remove_subset : (d.remove name).names ⊆ d.names := (filter_sublist.map _).subset

lemma notMem_names_remove : name ∉ (d.remove name).names := by simp [names]

lemma get?_remove : (d.remove name).get? other = if other = name then none else d.get? other := by
  ext a
  rw [get?_eq_some, mem_remove]
  by_cases h : other = name <;> simp [h, get?_eq_some]

lemma get?_put : (d.put name a).get? other = if other = name then some a else d.get? other := by
  ext b
  rw [get?_eq_some, mem_put]
  by_cases h : other = name
  · simp [h, eq_comm]
  · simp [h, get?_eq_some]

section
variable {ν : Type*} [LinearOrder ν] {d : Dir ν α} {x : ν × α}

def sorted (d : Dir ν α) : List (ν × α) := sortBy Prod.fst d.entries

@[simp] lemma mem_sorted : x ∈ d.sorted ↔ x ∈ d.entries := mem_sortBy

lemma sorted_perm : d.sorted.Perm d.entries := sortBy_perm _

lemma pairwise_sorted : d.sorted.Pairwise (fun x y => x.1 < y.1) := pairwise_sortBy d.nodup

end
end Dir
end Ayatsuri
