import Mathlib.Data.List.Basic

/-!
# Lists in chunks

* `flatten_toChunks` : the chunks of a list, one after the other, are the list.
* `length_of_mem_toChunks` : none is empty, or longer than it may be.
-/

namespace Starla.Framework

variable {α : Type*} {n : Nat}

theorem flatten_chunksGo (n : Nat) (xs : List α) (chunk : Array α) (chunks : Array (List α)) :
    (List.toChunks.go n xs chunk chunks).flatten = chunks.toList.flatten ++ chunk.toList ++ xs := by
  induction xs generalizing chunk chunks with
  | nil =>
    show (chunks.push chunk.toList).toList.flatten = _
    simp
  | cons x xs ih =>
    show (if chunk.size == n then List.toChunks.go n xs ((Array.mkEmpty n).push x) (chunks.push chunk.toList)
      else List.toChunks.go n xs (chunk.push x) chunks).flatten = _
    split <;> rw [ih] <;> simp

theorem flatten_toChunks (xs : List α) : (xs.toChunks (n + 1)).flatten = xs := by
  cases xs with
  | nil => rfl
  | cons x xs =>
    apply (flatten_chunksGo (n + 1) xs #[x] #[]).trans
    simp

theorem length_of_mem_chunksGo (xs : List α) (chunk : Array α) (chunks : Array (List α)) (hpos : 0 < chunk.size)
    (hle : chunk.size ≤ n) (hchunks : ∀ l ∈ chunks.toList, 0 < l.length ∧ l.length ≤ n) :
    ∀ l ∈ List.toChunks.go n xs chunk chunks, 0 < l.length ∧ l.length ≤ n := by
  have hpush : ∀ l ∈ (chunks.push chunk.toList).toList, 0 < l.length ∧ l.length ≤ n := by
    rw [Array.toList_push, List.forall_mem_append, List.forall_mem_singleton]
    exact ⟨hchunks, hpos, hle⟩
  induction xs generalizing chunk chunks with
  | nil => exact hpush
  | cons x xs ih =>
    show ∀ l ∈ (if chunk.size == n then List.toChunks.go n xs ((Array.mkEmpty n).push x) (chunks.push chunk.toList)
      else List.toChunks.go n xs (chunk.push x) chunks), 0 < l.length ∧ l.length ≤ n
    split
    · have hone : 0 < ((Array.mkEmpty n).push x).size ∧ ((Array.mkEmpty n).push x).size ≤ n := by
        simp
        omega
      apply ih _ _ hone.1 hone.2 hpush
      rw [Array.toList_push, List.forall_mem_append, List.forall_mem_singleton]
      exact ⟨hpush, hone⟩
    · rename_i hne
      have hmore : 0 < (chunk.push x).size ∧ (chunk.push x).size ≤ n := by
        simp at hne ⊢
        omega
      apply ih _ _ hmore.1 hmore.2 hchunks
      rw [Array.toList_push, List.forall_mem_append, List.forall_mem_singleton]
      exact ⟨hchunks, hmore⟩

theorem length_of_mem_toChunks {xs l : List α} (h : l ∈ xs.toChunks (n + 1)) : 0 < l.length ∧ l.length ≤ n + 1 := by
  cases xs with
  | nil => cases h
  | cons x xs => exact length_of_mem_chunksGo xs #[x] #[] (by simp) (by simp) (by simp) l h

end Starla.Framework
