import Mathlib.Data.List.Nodup

/-!
Programs that act on a world outside. Each effect is answered, and what comes next depends on the
answer. A run is the list of effects with the answers they got.
-/

namespace SvmWasiCore.Lib.Interaction

/-- A program: it has ended, or it performs an effect and goes on with the answer. -/
inductive Prog (E : Type) (R : E → Type) (α : Type)
  | done (a : α)
  | ask (e : E) (next : R e → Prog E R α)

/-- An effect and the answer it got. -/
structure Event (E : Type) (R : E → Type) where
  effect : E
  answer : R effect

variable {E : Type} {R : E → Type} {α β ε : Type}

namespace Prog

def bind : Prog E R α → (α → Prog E R β) → Prog E R β
  | .done a, f => f a
  | .ask e next, f => .ask e fun r => (next r).bind f

instance : Monad (Prog E R) where
  pure := .done
  bind := .bind

private lemma bind_done (p : Prog E R α) : p.bind .done = p := by
  induction p with
  | done a => rfl
  | ask e next ih => exact congrArg (Prog.ask e) (funext ih)

private lemma bind_bind {γ : Type} (p : Prog E R α) (f : α → Prog E R β) (g : β → Prog E R γ) :
    (p.bind f).bind g = p.bind fun a => (f a).bind g := by
  induction p with
  | done a => rfl
  | ask e next ih => exact congrArg (Prog.ask e) (funext ih)

instance : LawfulMonad (Prog E R) := LawfulMonad.mk' (Prog E R) bind_done (fun _ _ => rfl) bind_bind

/-- One effect, and nothing else. -/
def perform (e : E) : Prog E R (R e) := .ask e .done

end Prog

/-! ### Runs -/

/-- The program can perform these events and end with this result. -/
inductive Runs : Prog E R α → List (Event E R) → α → Prop
  | done (a : α) : Runs (.done a) [] a
  | ask {e : E} {next : R e → Prog E R α} {r : R e} {tr : List (Event E R)} {a : α}
      (h : Runs (next r) tr a) : Runs (.ask e next) (⟨e, r⟩ :: tr) a

variable {tr : List (Event E R)} {a : α} {b : β}

@[simp] lemma runs_pure_iff {a' : α} :
    Runs (pure a' : Prog E R α) tr a ↔ tr = [] ∧ a = a' := by
  refine ⟨fun h => ?_, fun h => ?_⟩
  · cases h
    exact ⟨rfl, rfl⟩
  · obtain ⟨rfl, rfl⟩ := h
    exact .done a

lemma runs_ask_iff {e : E} {next : R e → Prog E R α} :
    Runs (.ask e next) tr a ↔ ∃ r tr', Runs (next r) tr' a ∧ tr = ⟨e, r⟩ :: tr' := by
  refine ⟨fun h => ?_, fun h => ?_⟩
  · cases h with
    | ask h => exact ⟨_, _, h, rfl⟩
  · obtain ⟨r, tr', h, rfl⟩ := h
    exact .ask h

@[simp] lemma runs_perform_iff {e : E} {r : R e} :
    Runs (Prog.perform e) tr r ↔ tr = [⟨e, r⟩] := by
  rw [Prog.perform, runs_ask_iff]
  refine ⟨fun h => ?_, fun h => ?_⟩
  · obtain ⟨r', tr', h, rfl⟩ := h
    cases h
    rfl
  · exact ⟨r, [], .done r, h⟩

/-- A sequence runs its first part, then what follows from its result. -/
lemma runs_bind_iff {p : Prog E R α} {f : α → Prog E R β} :
    Runs (p >>= f) tr b ↔ ∃ tr₁ a tr₂, Runs p tr₁ a ∧ Runs (f a) tr₂ b ∧ tr = tr₁ ++ tr₂ := by
  change Runs (p.bind f) tr b ↔ _
  induction p generalizing tr with
  | done a =>
    refine ⟨fun h => ⟨[], a, tr, .done a, h, rfl⟩, fun h => ?_⟩
    obtain ⟨tr₁, a', tr₂, hp, hf, rfl⟩ := h
    cases hp
    exact hf
  | ask e next ih =>
    rw [Prog.bind, runs_ask_iff]
    refine ⟨fun h => ?_, fun h => ?_⟩
    · obtain ⟨r, tr', h, rfl⟩ := h
      obtain ⟨tr₁, a, tr₂, hp, hf, rfl⟩ := (ih r).mp h
      exact ⟨_, a, tr₂, .ask hp, hf, rfl⟩
    · obtain ⟨tr₁, a, tr₂, hp, hf, rfl⟩ := h
      obtain ⟨r, tr', h, rfl⟩ := runs_ask_iff.mp hp
      exact ⟨r, tr' ++ tr₂, (ih r).mpr ⟨tr', a, tr₂, h, hf, rfl⟩, rfl⟩

/-! ### What a program does at most -/

/-- Every effect the program can come to perform is allowed. -/
inductive Prog.Only (allowed : E → Prop) : Prog E R α → Prop
  | done (a : α) : Only allowed (.done a)
  | ask {e : E} {next : R e → Prog E R α} (he : allowed e) (h : ∀ r, Only allowed (next r)) :
      Only allowed (.ask e next)

lemma only_bind {allowed : E → Prop} {p : Prog E R α} {f : α → Prog E R β}
    (hp : p.Only allowed) (hf : ∀ a, (f a).Only allowed) : (p >>= f).Only allowed := by
  change (p.bind f).Only allowed
  induction hp with
  | done a => exact hf a
  | ask he h ih => exact .ask he ih

lemma Runs.only {allowed : E → Prop} {p : Prog E R α} (h : Runs p tr a) (hp : p.Only allowed) :
    ∀ ev ∈ tr, allowed ev.effect := by
  induction h with
  | done a => simp
  | ask h ih =>
    cases hp with
    | ask he hnext => exact List.forall_mem_cons.mpr ⟨he, ih (hnext _)⟩

/-! ### Leaving early -/

/-- A program that may stop before its end, with a result of its own. -/
abbrev Script (E : Type) (R : E → Type) (ε : Type) := ExceptT ε (Prog E R)

namespace Script

/-- One effect. -/
def ask (e : E) : Script E R ε (R e) := ExceptT.lift (.perform e)

/-- The script can perform these events, and come to its end or stop before it. -/
def Ends (p : Script E R ε α) (tr : List (Event E R)) (o : Except ε α) : Prop := Runs p.run tr o

variable {p : Script E R ε α} {f : α → Script E R ε β} {o : Except ε α} {e : ε}

@[simp] lemma ends_pure_iff {a : α} :
    (pure a : Script E R ε α).Ends tr o ↔ tr = [] ∧ o = .ok a := runs_pure_iff

lemma ends_throw_iff : (throw e : Script E R ε α).Ends tr o ↔ tr = [] ∧ o = .error e :=
  runs_pure_iff

lemma ends_throw_bind_iff {o : Except ε β} :
    ((throw e : Script E R ε α) >>= f).Ends tr o ↔ tr = [] ∧ o = .error e := runs_pure_iff

lemma ends_ask_iff {eff : E} {o : Except ε (R eff)} :
    (ask eff : Script E R ε (R eff)).Ends tr o ↔ ∃ r, tr = [⟨eff, r⟩] ∧ o = .ok r := by
  change Runs (Prog.perform eff >>= fun r => pure (.ok r)) tr o ↔ _
  rw [runs_bind_iff]
  refine ⟨fun h => ?_, fun h => ?_⟩
  · obtain ⟨tr₁, r, tr₂, hp, hf, rfl⟩ := h
    obtain rfl := runs_perform_iff.mp hp
    obtain ⟨rfl, rfl⟩ := runs_pure_iff.mp hf
    exact ⟨r, rfl, rfl⟩
  · obtain ⟨r, rfl, rfl⟩ := h
    exact ⟨_, r, [], runs_perform_iff.mpr rfl, runs_pure_iff.mpr ⟨rfl, rfl⟩, rfl⟩

/-- A sequence stops where its first part does, or goes on from its result. -/
lemma ends_bind_iff {o : Except ε β} : (p >>= f).Ends tr o ↔
    (∃ e, p.Ends tr (.error e) ∧ o = .error e) ∨
    ∃ tr₁ a tr₂, p.Ends tr₁ (.ok a) ∧ (f a).Ends tr₂ o ∧ tr = tr₁ ++ tr₂ := by
  change Runs (p.run >>= ExceptT.bindCont f) tr o ↔ _
  rw [runs_bind_iff]
  refine ⟨fun h => ?_, fun h => ?_⟩
  · obtain ⟨tr₁, e | a, tr₂, hp, hf, rfl⟩ := h
    · obtain ⟨rfl, rfl⟩ := runs_pure_iff.mp hf
      rw [List.append_nil]
      exact .inl ⟨e, hp, rfl⟩
    · exact .inr ⟨tr₁, a, tr₂, hp, hf, rfl⟩
  · rcases h with ⟨e, hp, rfl⟩ | ⟨tr₁, a, tr₂, hp, hf, rfl⟩
    · exact ⟨tr, .error e, [], hp, runs_pure_iff.mpr ⟨rfl, rfl⟩, (List.append_nil _).symm⟩
    · exact ⟨tr₁, .ok a, tr₂, hp, hf, rfl⟩

lemma ends_ask_bind_iff {eff : E} {f : R eff → Script E R ε β} {o : Except ε β} :
    (ask eff >>= f).Ends tr o ↔ ∃ r tr', tr = ⟨eff, r⟩ :: tr' ∧ (f r).Ends tr' o := by
  rw [ends_bind_iff]
  refine ⟨fun h => ?_, fun h => ?_⟩
  · rcases h with ⟨e, h, -⟩ | ⟨tr₁, r, tr₂, h, hf, rfl⟩
    · obtain ⟨r, -, h⟩ := ends_ask_iff.mp h
      cases h
    · obtain ⟨r', rfl, hr⟩ := ends_ask_iff.mp h
      obtain rfl := Except.ok.inj hr
      exact ⟨r, tr₂, rfl, hf⟩
  · obtain ⟨r, tr', rfl, hf⟩ := h
    exact .inr ⟨[⟨eff, r⟩], r, tr', ends_ask_iff.mpr ⟨r, rfl, rfl⟩, hf, rfl⟩

/-- Every effect the script can come to perform is allowed. -/
def Only (allowed : E → Prop) (p : Script E R ε α) : Prop := p.run.Only allowed

variable {allowed : E → Prop}

lemma only_pure (a : α) : (pure a : Script E R ε α).Only allowed := .done _

lemma only_throw (e : ε) : (throw e : Script E R ε α).Only allowed := .done _

lemma only_ask {eff : E} (h : allowed eff) : (ask eff : Script E R ε (R eff)).Only allowed :=
  .ask h fun _ => .done _

lemma only_bind (hp : p.Only allowed) (hf : ∀ a, (f a).Only allowed) :
    (p >>= f).Only allowed := by
  refine Interaction.only_bind hp fun o => ?_
  cases o with
  | error e => exact .done _
  | ok a => exact hf a

lemma Ends.only (h : p.Ends tr o) (hp : p.Only allowed) : ∀ ev ∈ tr, allowed ev.effect :=
  Runs.only h hp

/-- As long as its effects are answered so, the script stops early for these reasons only. -/
def Stops (answered : Event E R → Prop) (reason : ε → Prop) (p : Script E R ε α) : Prop :=
  ∀ ⦃tr : List (Event E R)⦄ ⦃e : ε⦄, p.Ends tr (.error e) → (∀ ev ∈ tr, answered ev) → reason e

variable {answered : Event E R → Prop} {reason : ε → Prop}

lemma stops_pure (a : α) : (pure a : Script E R ε α).Stops answered reason := by
  intro tr e h
  cases (ends_pure_iff.mp h).2

lemma stops_throw {e : ε} (he : reason e) :
    (throw e : Script E R ε α).Stops answered reason := by
  intro tr e' h
  cases (ends_throw_iff.mp h).2
  exact fun _ => he

/-- What comes second may use what the first has come to, and how it was answered. -/
lemma stops_bind (hp : p.Stops answered reason)
    (hf : ∀ tr a, p.Ends tr (.ok a) → (∀ ev ∈ tr, answered ev) → (f a).Stops answered reason) :
    (p >>= f).Stops answered reason := by
  intro tr e h hanswered
  rcases ends_bind_iff.mp h with ⟨e', h, he⟩ | ⟨tr₁, a, tr₂, h₁, h₂, htr⟩
  · cases he
    exact hp h hanswered
  · rw [htr, List.forall_mem_append] at hanswered
    exact hf tr₁ a h₁ hanswered.1 h₂ hanswered.2

lemma stops_ask_bind {eff : E} {f : R eff → Script E R ε β}
    (hf : ∀ r, answered ⟨eff, r⟩ → (f r).Stops answered reason) :
    (ask eff >>= f).Stops answered reason := by
  intro tr e h hanswered
  obtain ⟨r, tr', htr, h⟩ := ends_ask_bind_iff.mp h
  rw [htr, List.forall_mem_cons] at hanswered
  exact hf r hanswered.1 h hanswered.2

end Script

/-! ### Worlds -/

/-- What the world has of its own, and how it answers. -/
def World (E : Type) (R : E → Type) (σ : Type) := σ → (e : E) → R e × σ

variable {σ : Type}

/-- The run in a world: the result, the events, and the world left behind. -/
def Prog.runIn (w : World E R σ) : Prog E R α → σ → α × List (Event E R) × σ
  | .done a, s => (a, [], s)
  | .ask e next, s =>
    let (r, s) := w s e
    let (a, tr, s) := (next r).runIn w s
    (a, ⟨e, r⟩ :: tr, s)

lemma runs_runIn (w : World E R σ) (p : Prog E R α) (s : σ) :
    Runs p (p.runIn w s).2.1 (p.runIn w s).1 := by
  induction p generalizing s with
  | done a => exact .done a
  | ask e next ih => exact .ask (ih _ _)

/-- A world that answers by a table. -/
def table (f : (e : E) → R e) : World E R Unit := fun _ e => (f e, ())

/-- A run is the run by any table that holds its answers. -/
lemma Runs.runIn_table {p : Prog E R α} (h : Runs p tr a) {f : (e : E) → R e}
    (hf : ∀ ev ∈ tr, f ev.effect = ev.answer) : p.runIn (table f) () = (a, tr, ()) := by
  induction h with
  | done a => rfl
  | @ask e next r tr a h ih =>
    rw [List.forall_mem_cons] at hf
    obtain ⟨hr, htr⟩ := hf
    obtain rfl : f e = r := hr
    simp only [Prog.runIn, ih htr, table]

/-- In the run by a table, every answer is the table's. -/
lemma answer_of_mem_runIn {f : (e : E) → R e} {p : Prog E R α} {ev : Event E R}
    (h : ev ∈ (p.runIn (table f) ()).2.1) : ev.answer = f ev.effect := by
  induction p with
  | done a => cases h
  | ask e next ih =>
    rcases List.mem_cons.mp h with rfl | h
    · rfl
    · exact ih _ h

/-- Events with distinct effects have a table that holds their answers. -/
lemma exists_table [∀ e, Nonempty (R e)] {tr : List (Event E R)}
    (h : (tr.map Event.effect).Nodup) :
    ∃ f : (e : E) → R e, ∀ ev ∈ tr, f ev.effect = ev.answer := by
  classical
  induction tr with
  | nil => exact ⟨fun e => Classical.arbitrary (R e), by simp⟩
  | cons ev tr ih =>
    rw [List.map_cons, List.nodup_cons] at h
    obtain ⟨f, hf⟩ := ih h.2
    refine ⟨Function.update f ev.effect ev.answer, List.forall_mem_cons.mpr ⟨by simp, ?_⟩⟩
    intro ev' hev'
    have hne : ev'.effect ≠ ev.effect := fun heq => h.1 (heq ▸ List.mem_map_of_mem hev')
    rw [Function.update_of_ne hne, hf ev' hev']

end SvmWasiCore.Lib.Interaction
