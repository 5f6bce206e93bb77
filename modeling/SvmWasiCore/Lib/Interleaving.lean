import SvmWasiCore.Lib.Interaction
import Mathlib.Data.List.Perm.Subperm
import Mathlib.Logic.Function.Basic

/-!
Programs side by side in one world. Each effect is atomic, and between two effects of one program
any effects of the others may come. A run is the list of events with the programs they belong to.
-/

namespace SvmWasiCore.Lib.Interleaving

open Interaction

variable {E : Type} {R : E → Type} {α β σ ι : Type} [DecidableEq ι]

/-- The program can perform these events, and this program is left of it. -/
inductive Reaches : Prog E R α → List (Event E R) → Prog E R α → Prop
  | here (p : Prog E R α) : Reaches p [] p
  | ask {e : E} {next : R e → Prog E R α} {r : R e} {tr : List (Event E R)} {q : Prog E R α}
      (h : Reaches (next r) tr q) : Reaches (.ask e next) (⟨e, r⟩ :: tr) q

/-- The world answers one event after another, and this world is left behind. -/
inductive Answers (w : World E R σ) : σ → List (Event E R) → σ → Prop
  | nil (s : σ) : Answers w s [] s
  | cons {s s' : σ} {e : E} {tr : List (Event E R)} (h : Answers w (w s e).2 tr s') :
      Answers w s (⟨e, (w s e).1⟩ :: tr) s'

/-- What is left of the programs, and of the world, after some of their events. -/
inductive Interleaved (w : World E R σ) :
    (ι → Prog E R α) → σ → List (ι × Event E R) → (ι → Prog E R α) → σ → Prop
  | start (p : ι → Prog E R α) (s : σ) : Interleaved w p s [] p s
  | step {p q : ι → Prog E R α} {s s' : σ} {tr : List (ι × Event E R)} {i : ι} {e : E}
      {next : R e → Prog E R α} (hi : p i = .ask e next)
      (h : Interleaved w (Function.update p i (next (w s e).1)) (w s e).2 tr q s') :
      Interleaved w p s ((i, ⟨e, (w s e).1⟩) :: tr) q s'

variable {w : World E R σ} {p q : ι → Prog E R α} {s s' : σ} {tr : List (ι × Event E R)}

/-! ### One program, and the world -/

/-- The events of one program. -/
def eventsOf (i : ι) (tr : List (ι × Event E R)) : List (Event E R) :=
  (tr.filter fun x => x.1 = i).map (·.2)

lemma reaches_done_iff {p : Prog E R α} {tr : List (Event E R)} {a : α} :
    Reaches p tr (.done a) ↔ Runs p tr a := by
  refine ⟨fun h => ?_, fun h => ?_⟩
  · generalize hq : Prog.done a = q at h
    induction h with
    | here p =>
      subst hq
      exact .done a
    | ask h ih => exact .ask (ih hq)
  · induction h with
    | done a => exact .here _
    | ask h ih => exact .ask ih

/-- A program sees its own events only. -/
lemma Interleaved.reaches (h : Interleaved w p s tr q s') (i : ι) :
    Reaches (p i) (eventsOf i tr) (q i) := by
  induction h with
  | start p s => exact .here _
  | @step p q s s' tr j e next hj h ih =>
    by_cases hij : j = i
    · subst hij
      rw [Function.update_self] at ih
      rw [hj, eventsOf, List.filter_cons_of_pos (by simp), List.map_cons]
      exact .ask ih
    · rw [Function.update_of_ne (Ne.symm hij)] at ih
      rw [eventsOf, List.filter_cons_of_neg (by simpa using hij)]
      exact ih

lemma Interleaved.runs (h : Interleaved w p s tr q s') {i : ι} {a : α} (hi : q i = .done a) :
    Runs (p i) (eventsOf i tr) a := by
  rw [← reaches_done_iff, ← hi]
  exact h.reaches i

/-- The world sees all events, and not whose they are. -/
lemma Interleaved.answers (h : Interleaved w p s tr q s') : Answers w s (tr.map (·.2)) s' := by
  induction h with
  | start p s => exact .nil _
  | step hi h ih => exact .cons ih

/-! ### From each program to all of them -/

/-- The results of events, with the programs they belong to. -/
def labelled (f : Event E R → Option β) (tr : List (ι × Event E R)) : List (ι × β) :=
  tr.filterMap fun x => (f x.2).map fun b => (x.1, b)

omit [DecidableEq ι] in
lemma map_labelled (f : Event E R → Option β) (tr : List (ι × Event E R)) :
    (labelled f tr).map (·.2) = (tr.map (·.2)).filterMap f := by
  simp [labelled, List.filterMap_map, List.map_filterMap, Function.comp_def]

lemma count_labelled [DecidableEq β] (f : Event E R → Option β) (i : ι) (b : β) :
    (labelled f tr).count (i, b) = ((eventsOf i tr).filterMap f).count b := by
  simp only [labelled, eventsOf, List.count, List.countP_filterMap, List.countP_map,
    List.countP_filter]
  refine List.countP_congr fun x _ => ?_
  cases hf : f x.2 <;> simp [hf, Prod.ext_iff, and_comm]

/-- What each program accounts for is accounted for by all together. -/
lemma subperm_of_eventsOf [DecidableEq β] {f g : Event E R → Option β}
    (h : ∀ i, ((eventsOf i tr).filterMap f).Subperm ((eventsOf i tr).filterMap g)) :
    ((tr.map (·.2)).filterMap f).Subperm ((tr.map (·.2)).filterMap g) := by
  have hlabelled : (labelled f tr).Subperm (labelled g tr) := by
    refine List.subperm_ext_iff.mpr fun x _ => ?_
    rw [count_labelled, count_labelled]
    exact (h x.1).count_le x.2
  obtain ⟨l, hperm, hsub⟩ := hlabelled
  rw [← map_labelled, ← map_labelled]
  exact ⟨l.map (·.2), hperm.map _, hsub.map _⟩

lemma perm_of_eventsOf [DecidableEq β] {f g : Event E R → Option β}
    (h : ∀ i, ((eventsOf i tr).filterMap f).Perm ((eventsOf i tr).filterMap g)) :
    ((tr.map (·.2)).filterMap f).Perm ((tr.map (·.2)).filterMap g) :=
  (subperm_of_eventsOf fun i => (h i).subperm).antisymm
    (subperm_of_eventsOf fun i => (h i).symm.subperm)

/-! ### Schedules -/

/-- The run that lets the programs take turns in this order. -/
def schedule (w : World E R σ) :
    List ι → (ι → Prog E R α) → σ → List (ι × Event E R) × (ι → Prog E R α) × σ
  | [], p, s => ([], p, s)
  | i :: turns, p, s =>
    match p i with
    | .done _ => schedule w turns p s
    | .ask e next =>
      let (tr, q, s') := schedule w turns (Function.update p i (next (w s e).1)) (w s e).2
      ((i, ⟨e, (w s e).1⟩) :: tr, q, s')

lemma interleaved_schedule (w : World E R σ) (turns : List ι) (p : ι → Prog E R α) (s : σ) :
    Interleaved w p s (schedule w turns p s).1 (schedule w turns p s).2.1
      (schedule w turns p s).2.2 := by
  induction turns generalizing p s with
  | nil => exact .start p s
  | cons i turns ih =>
    rw [schedule]
    split
    · exact ih p s
    · next e next hi => exact .step hi (ih _ _)

end SvmWasiCore.Lib.Interleaving
