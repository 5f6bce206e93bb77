import Mathlib.Data.List.Forall2

/-!
Collecting the results of fallible calls over a list.
-/

namespace SvmWasiCore.Lib.Collect

variable {α β γ ε : Type}

/-- Calls that all succeed. -/
lemma mapM_ok {f : α → Except ε β} {g : α → β} {l : List α} (h : ∀ a ∈ l, f a = .ok (g a)) :
    l.mapM f = .ok (l.map g) := by
  induction l with
  | nil => rfl
  | cons a l ih =>
    rw [List.mapM_cons, h a List.mem_cons_self, ih fun b hb => h b (List.mem_cons_of_mem _ hb)]
    rfl

/-- A collection succeeds exactly when every call does, result by result. -/
lemma mapM_eq_ok_iff {f : α → Except ε β} {l : List α} {bs : List β} :
    l.mapM f = .ok bs ↔ List.Forall₂ (fun a b => f a = .ok b) l bs := by
  induction l generalizing bs with
  | nil =>
    rw [List.mapM_nil, List.forall₂_nil_left_iff]
    exact ⟨fun h => (Except.ok.inj h).symm, fun h => h ▸ rfl⟩
  | cons a l ih =>
    rw [List.mapM_cons, List.forall₂_cons_left_iff]
    rcases ha : f a with e | b
    · refine ⟨fun h => ?_, fun h => ?_⟩
      · cases h
      · obtain ⟨b, bs', hb, -⟩ := h
        cases hb
    · rcases hl : l.mapM f with e | bs'
      · refine ⟨fun h => ?_, fun h => ?_⟩
        · cases h
        · obtain ⟨b', bs', -, htail, -⟩ := h
          rw [← ih, hl] at htail
          cases htail
      · refine ⟨fun h => ?_, fun h => ?_⟩
        · cases h
          exact ⟨b, bs', rfl, ih.mp hl, rfl⟩
        · obtain ⟨b', bs'', hb, htail, rfl⟩ := h
          cases hb
          rw [← ih, hl] at htail
          cases htail
          rfl

lemma exists_mapM_ok {f : α → Except ε β} {l : List α} (h : ∀ a ∈ l, ∃ b, f a = .ok b) :
    ∃ bs, l.mapM f = .ok bs := by
  induction l with
  | nil => exact ⟨[], rfl⟩
  | cons a l ih =>
    obtain ⟨b, hb⟩ := h a List.mem_cons_self
    obtain ⟨bs, hbs⟩ := ih fun c hc => h c (List.mem_cons_of_mem _ hc)
    refine ⟨b :: bs, ?_⟩
    rw [List.mapM_cons, hb, hbs]
    rfl

lemma forall_of_mapM_ok {f : α → Except ε β} {l : List α} {bs : List β} (h : l.mapM f = .ok bs) :
    ∀ a ∈ l, ∃ b, f a = .ok b := by
  rw [mapM_eq_ok_iff] at h
  induction h with
  | nil => simp
  | @cons a b l bs hab _ ih =>
    intro c hc
    rcases List.mem_cons.mp hc with rfl | hc
    · exact ⟨b, hab⟩
    · exact ih c hc

/-- The result at a position is that of the call at that position. -/
lemma getElem?_of_mapM_ok {f : α → Except ε β} {l : List α} {bs : List β} {i : ℕ} {b : β}
    (h : l.mapM f = .ok bs) (hi : bs[i]? = some b) : ∃ a, l[i]? = some a ∧ f a = .ok b := by
  rw [mapM_eq_ok_iff] at h
  induction h generalizing i with
  | nil => simp at hi
  | @cons a b' l bs hab _ ih =>
    cases i with
    | zero =>
      obtain rfl := Option.some.inj hi
      exact ⟨a, rfl, hab⟩
    | succ i => exact ih hi

/-- A collection fails with the error of one of its calls. -/
lemma exists_of_mapM_error {f : α → Except ε β} {l : List α} {e : ε} (h : l.mapM f = .error e) :
    ∃ a ∈ l, f a = .error e := by
  induction l with
  | nil => cases h
  | cons a l ih =>
    rw [List.mapM_cons] at h
    rcases ha : f a with e' | b
    · rw [ha] at h
      cases h
      exact ⟨a, List.mem_cons_self, ha⟩
    · rcases hl : l.mapM f with e' | bs
      · rw [ha, hl] at h
        cases h
        obtain ⟨c, hc, hfc⟩ := ih hl
        exact ⟨c, List.mem_cons_of_mem _ hc, hfc⟩
      · rw [ha, hl] at h
        cases h

/-- What is gathered from each call's argument is gathered from its result. -/
lemma flatMap_of_mapM_ok {f : α → Except ε β} {p : α → List γ} {q : β → List γ} {l : List α}
    {bs : List β} (h : l.mapM f = .ok bs) (hpq : ∀ a b, f a = .ok b → p a = q b) :
    l.flatMap p = bs.flatMap q := by
  rw [mapM_eq_ok_iff] at h
  induction h with
  | nil => rfl
  | @cons a b l bs hab _ ih => rw [List.flatMap_cons, List.flatMap_cons, hpq a b hab, ih]

/-- Lookups of translated values. -/
lemma mapM_some {f : β → Option γ} {g : α → β} {e : α → γ} {l : List α}
    (h : ∀ a ∈ l, f (g a) = some (e a)) : (l.map g).mapM f = some (l.map e) := by
  induction l with
  | nil => rfl
  | cons a l ih =>
    rw [List.map_cons, List.mapM_cons, h a List.mem_cons_self,
      ih fun b hb => h b (List.mem_cons_of_mem _ hb)]
    rfl

lemma mapM_of_map {f : α → Option β} {l : List α} {bs : List β} (h : l.map f = bs.map some) :
    l.mapM f = some bs := by
  induction l generalizing bs with
  | nil =>
    obtain rfl := List.map_eq_nil_iff.mp h.symm
    rfl
  | cons a l ih =>
    cases bs with
    | nil => simp at h
    | cons b bs =>
      obtain ⟨ha, hl⟩ := List.cons_eq_cons.mp h
      rw [List.mapM_cons, ha, ih hl]
      rfl

end SvmWasiCore.Lib.Collect
