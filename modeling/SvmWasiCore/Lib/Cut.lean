import Mathlib.Data.List.Basic

/-!
Cutting a list to its first `n` entries, with a mark that tells how long it was.
-/

namespace SvmWasiCore.Lib.Cut

variable {α : Type} {n : ℕ} {mark : ℕ → List α} {l m : List α}

/-- The list itself if it is short enough, and its first `n` entries with a mark otherwise. -/
def cut (n : ℕ) (mark : ℕ → List α) (l : List α) : List α :=
  if l.length ≤ n then l else l.take n ++ mark l.length

lemma cut_short (h : l.length ≤ n) : cut n mark l = l := if_pos h

lemma cut_long (h : n < l.length) : cut n mark l = l.take n ++ mark l.length :=
  if_neg (Nat.not_le.mpr h)

/-- The length of the result shows whether it was cut. -/
lemma length_cut_le_iff (hmark : ∀ k, mark k ≠ []) : (cut n mark l).length ≤ n ↔ l.length ≤ n := by
  rcases Nat.lt_or_ge n l.length with h | h
  · have hpos := List.length_pos_of_ne_nil (hmark l.length)
    rw [cut_long h, List.length_append, List.length_take]
    omega
  · rw [cut_short h]

/-- **What a cut list still tells**: the length of the list and its first entries. The marks need to
be different only for lengths that can occur. -/
theorem cut_eq_cut_iff (hmark : ∀ k, mark k ≠ [])
    (hinj : n < l.length → n < m.length → mark l.length = mark m.length → l.length = m.length) :
    cut n mark l = cut n mark m ↔ l.length = m.length ∧ l.take n = m.take n := by
  refine ⟨fun h => ?_, fun h => ?_⟩
  · have hlong : l.length ≤ n ↔ m.length ≤ n := by
      rw [← length_cut_le_iff hmark, h, length_cut_le_iff hmark]
    rcases Nat.lt_or_ge n l.length with hl | hl
    · have hm : n < m.length := by
        have := mt hlong.mpr (Nat.not_le.mpr hl)
        omega
      rw [cut_long hl, cut_long hm] at h
      have hlen : (l.take n).length = (m.take n).length := by
        rw [List.length_take, List.length_take]
        omega
      obtain ⟨htake, hmarks⟩ := List.append_inj h hlen
      exact ⟨hinj hl hm hmarks, htake⟩
    · rw [cut_short hl, cut_short (hlong.mp hl)] at h
      rw [h]
      exact ⟨rfl, rfl⟩
  · obtain ⟨hlen, htake⟩ := h
    rcases Nat.lt_or_ge n l.length with hl | hl
    · rw [cut_long hl, cut_long (hlen ▸ hl), hlen, htake]
    · have hm : m.length ≤ n := hlen ▸ hl
      rw [List.take_of_length_le hl, List.take_of_length_le hm] at htake
      rw [htake]

end SvmWasiCore.Lib.Cut
