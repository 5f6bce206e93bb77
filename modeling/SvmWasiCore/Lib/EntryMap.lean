import Mathlib.Data.List.Basic
import Mathlib.Data.Finset.Card

/-!
Ordered maps that are filled entry by entry.

A loop that does `map.entry(k).or_default()` and raises some flags of the value leaves behind,
under every key, the flags some turn of the loop raised. The keys under which a flag holds are
listed in order, each once.
-/

namespace SvmWasiCore.Lib.EntryMap

variable {κ β ε : Type} [Ord κ]

/-- `f(map.entry(k).or_default())`. -/
def entry [Inhabited β] (m : Std.TreeMap κ β) (k : κ) (f : β → β) : Std.TreeMap κ β :=
  m.alter k fun o => some (f (o.getD default))

/-- The value under `k` is there and has the property. -/
def Holds (p : β → Prop) (m : Std.TreeMap κ β) (k : κ) : Prop := ∃ b, m[k]? = some b ∧ p b

lemma holds_and {p q : β → Prop} {m : Std.TreeMap κ β} {k : κ} :
    Holds (fun b => p b ∧ q b) m k ↔ Holds p m k ∧ Holds q m k := by
  unfold Holds
  refine ⟨fun h => ?_, fun h => ?_⟩
  · obtain ⟨b, hb, hp, hq⟩ := h
    exact ⟨⟨b, hb, hp⟩, b, hb, hq⟩
  · obtain ⟨⟨b, hb, hp⟩, b', hb', hq⟩ := h
    obtain rfl := Option.some.inj (hb.symm.trans hb')
    exact ⟨b, hb, hp, hq⟩

lemma holds_not {p : β → Prop} {m : Std.TreeMap κ β} {k : κ} :
    Holds (fun b => ¬p b) m k ↔ Holds (fun _ => True) m k ∧ ¬Holds p m k := by
  unfold Holds
  refine ⟨fun h => ?_, fun h => ?_⟩
  · obtain ⟨b, hb, hp⟩ := h
    refine ⟨⟨b, hb, trivial⟩, ?_⟩
    rintro ⟨b', hb', hp'⟩
    obtain rfl := Option.some.inj (hb.symm.trans hb')
    exact hp hp'
  · obtain ⟨⟨b, hb, -⟩, h⟩ := h
    exact ⟨b, hb, fun hp => h ⟨b, hb, hp⟩⟩

/-- The same of flags that are computed. -/
lemma holds_band {f g : β → Bool} {m : Std.TreeMap κ β} {k : κ} :
    Holds (fun b => (f b && g b : Bool)) m k ↔
      Holds (fun b => f b) m k ∧ Holds (fun b => g b) m k := by
  simp only [Bool.and_eq_true]
  exact holds_and

lemma holds_bnot {f : β → Bool} {m : Std.TreeMap κ β} {k : κ} :
    Holds (fun b => (!f b : Bool)) m k ↔
      Holds (fun _ => True) m k ∧ ¬Holds (fun b => f b) m k := by
  simp only [Bool.not_eq_true', ← Bool.not_eq_true]
  exact holds_not

lemma Holds.present {p : β → Prop} {m : Std.TreeMap κ β} {k : κ} (h : Holds p m k) :
    Holds (fun _ => True) m k := by
  obtain ⟨b, hb, -⟩ := h
  exact ⟨b, hb, trivial⟩

/-- The update `f` raises `p` just when `q`; a fresh value has `p` only if it is raised. -/
structure Raises [Inhabited β] (p : β → Prop) (f : β → β) (q : Prop) : Prop where
  update : ∀ b, p (f b) ↔ p b ∨ q
  fresh : p default → q

/-- What a loop raises, from what one turn of it raises. -/
lemma holds_foldl {p : β → Prop} {g : Std.TreeMap κ β → ε → Std.TreeMap κ β} {q : ε → κ → Prop}
    (hg : ∀ m e k, Holds p (g m e) k ↔ Holds p m k ∨ q e k) (l : List ε) (m : Std.TreeMap κ β)
    (k : κ) : Holds p (l.foldl g m) k ↔ Holds p m k ∨ ∃ e ∈ l, q e k := by
  induction l generalizing m with
  | nil => simp
  | cons e l ih =>
    rw [List.foldl_cons, ih, hg]
    simp only [List.mem_cons, exists_eq_or_imp, or_assoc]

variable [Std.TransOrd κ]

lemma not_holds_empty (p : β → Prop) (k : κ) : ¬Holds p (∅ : Std.TreeMap κ β) k := by
  rintro ⟨b, hb, -⟩
  simp at hb

variable [Std.LawfulEqOrd κ]

lemma getElem?_entry [DecidableEq κ] [Inhabited β] (m : Std.TreeMap κ β) (k : κ) (f : β → β)
    (k' : κ) :
    (entry m k f)[k']? = if k = k' then some (f (m[k]?.getD default)) else m[k']? := by
  rw [entry, Std.TreeMap.getElem?_alter]
  simp only [Std.LawfulEqOrd.compare_eq_iff_eq]

lemma holds_entry [Inhabited β] {p : β → Prop} {f : β → β} {q : Prop} (h : Raises p f q)
    (m : Std.TreeMap κ β) (k k' : κ) :
    Holds p (entry m k f) k' ↔ Holds p m k' ∨ k = k' ∧ q := by
  classical
  unfold Holds
  rw [getElem?_entry]
  by_cases hk : k = k'
  · subst hk
    rw [if_pos rfl]
    rcases hm : m[k]? with _ | b
    · have := h.update default
      have := h.fresh
      simp
      tauto
    · simp [h.update]
  · simp [hk]

/-! ### The keys under which a flag holds -/

/-- In the order of the map. -/
def keysWhere (f : β → Bool) (m : Std.TreeMap κ β) : List κ :=
  (m.toList.filter fun e => f e.2).map Prod.fst

lemma mem_keysWhere {f : β → Bool} {m : Std.TreeMap κ β} {k : κ} :
    k ∈ keysWhere f m ↔ Holds (fun b => f b) m k := by
  unfold keysWhere Holds
  simp only [List.mem_map, List.mem_filter, Prod.exists, exists_and_right, exists_eq_right,
    Std.TreeMap.mem_toList_iff_getElem?_eq_some]

lemma keysWhere_nodup (f : β → Bool) (m : Std.TreeMap κ β) : (keysWhere f m).Nodup := by
  unfold keysWhere
  refine List.Pairwise.map _ (R := fun a b => compare a.1 b.1 ≠ .eq) ?_ ?_
  · intro a b hab h
    exact hab (Std.LawfulEqOrd.compare_eq_iff_eq.mpr h)
  · exact (Std.TreeMap.distinct_keys_toList (t := m)).filter _

/-! ### Removing keys -/

lemma holds_erase {p : β → Prop} {m : Std.TreeMap κ β} {a k : κ} :
    Holds p (m.erase a) k ↔ k ≠ a ∧ Holds p m k := by
  unfold Holds
  rw [Std.TreeMap.getElem?_erase]
  by_cases h : a = k
  · simp [h]
  · have hcmp : compare a k ≠ .eq := fun he => h (Std.LawfulEqOrd.compare_eq_iff_eq.mp he)
    simp [hcmp, Ne.symm h]

def eraseAll (m : Std.TreeMap κ β) (ks : List κ) : Std.TreeMap κ β := ks.foldl (·.erase ·) m

lemma holds_eraseAll {p : β → Prop} {m : Std.TreeMap κ β} {ks : List κ} {k : κ} :
    Holds p (eraseAll m ks) k ↔ k ∉ ks ∧ Holds p m k := by
  induction ks generalizing m with
  | nil => simp [eraseAll]
  | cons a ks ih =>
    have hstep : eraseAll m (a :: ks) = eraseAll (m.erase a) ks := rfl
    rw [hstep, ih, holds_erase, List.mem_cons, not_or]
    tauto

end SvmWasiCore.Lib.EntryMap
