import Mathlib

/-! A low-water mark and the sorted items ahead of it. The mark may follow the items as they
are worked off, or as all but the last are given up; it never has to go back. -/
namespace Ayatsuri.LowWater
open List
variable {α : Type*} [Preorder α] {mark x : α} {items rest : List α}

def Ahead (mark : α) (items : List α) : Prop := (mark::items).Pairwise (· ≤ ·)

@[simp] lemma ahead_nil : Ahead mark [] := pairwise_singleton _ _

@[simp] lemma ahead_cons : Ahead mark (x::items) ↔ mark ≤ x ∧ Ahead mark items ∧ Ahead x items := by
  simp only [Ahead, pairwise_cons, mem_cons, forall_eq_or_imp]
  tauto

lemma last_sublist {β : Type*} (l : List β) : l.getLast?.toList.Sublist l := by
  rcases eq_nil_or_concat' l with rfl | ⟨front, last, rfl⟩
  · exact List.Sublist.refl _
  · simp

namespace Ahead

lemma le (h : Ahead mark items) (hx : x ∈ items) : mark ≤ x := rel_of_pairwise_cons h hx

lemma sorted (h : Ahead mark items) : items.Pairwise (· ≤ ·) := (pairwise_cons.mp h).2

lemma of_sorted (h : items.Pairwise (· ≤ ·)) (hle : ∀ x ∈ items, mark ≤ x) : Ahead mark items :=
  pairwise_cons.mpr ⟨hle, h⟩

lemma sublist (h : Ahead mark items) (hsub : rest.Sublist items) : Ahead mark rest :=
  List.Pairwise.sublist (hsub.cons_cons mark) h

lemma le_of_front {front : List α} {y : α} (h : Ahead mark (front++rest))
    (hlen : front.length ≤ 1) (hx : x ∈ front) (hy : y ∈ front++rest) : x ≤ y := by
  obtain ⟨z, rfl⟩ : ∃ z, front = [z] := by
    match front, hlen, hx with
    | [z], _, _ => exact ⟨z, rfl⟩
  obtain rfl := mem_singleton.mp hx
  rcases mem_cons.mp hy with rfl | hy
  · exact le_rfl
  · exact rel_of_pairwise_cons h.sorted hy

lemma keep_last (h : Ahead mark items) : mark ≤ items.dropLast.getLast?.getD mark ∧
      Ahead (items.dropLast.getLast?.getD mark) items.getLast?.toList := by
  rcases eq_nil_or_concat' items with rfl | ⟨front, last, rfl⟩
  · simp
  rcases eq_nil_or_concat' front with rfl | ⟨before, dropped, rfl⟩
  · simpa using h.le (mem_append_right _ (mem_singleton_self last))
  have hd : mark ≤ dropped := h.le (by simp)
  have hl : dropped ≤ last := (pairwise_append.mp h.sorted).2.2 dropped (by simp) last (by simp)
  simpa using ⟨hd, hl⟩

end Ahead
end Ayatsuri.LowWater
