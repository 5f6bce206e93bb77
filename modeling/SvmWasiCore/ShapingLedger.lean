import SvmWasiCore.ShapingSizes
import Mathlib.Data.List.Chain

/-!
When shaping makes a value smaller.

A cut saves the bytes it leaves out and costs the bytes of its mark. Both are counted here on the
value to be shaped, place by place; a preset is no bigger than the one before when what it cuts
off in addition pays for the marks it adds, up to what is free in the last token.
-/

namespace SvmWasiCore.ShapingLedger

open Json JsonText Shaping ShapingSizes

variable (floatText : UInt64 → String)

/-! ### The ledger -/

section
variable (maxArrayItems : ℕ) (onString : String → ℕ) (onArray : List Value → ℕ)

mutual

/-- The sum over the strings and arrays that are kept, at every depth. -/
def tally : Value → ℕ
  | .string s => onString s
  | .array items => onArray items + tallyItems maxArrayItems items
  | .object members => tallyMembers members
  | .null => 0
  | .bool _ => 0
  | .number _ => 0

def tallyItems (take : ℕ) : List Value → ℕ
  | [] => 0
  | v :: items =>
    match take with
    | 0 => 0
    | take + 1 => tally v + tallyItems take items

def tallyMembers : List (String × Value) → ℕ
  | [] => 0
  | (_, v) :: members => tally v + tallyMembers members

end

end

/-- What cutting leaves out: the characters past the limit, the texts of the items past it with the
commas between them. -/
def cutBytes (maxArrayItems maxStringChars : ℕ) : Value → ℕ :=
  tally maxArrayItems (fun s => escapedSize (s.toList.drop maxStringChars))
    fun items => joined ((items.drop maxArrayItems).map (textSize floatText))

/-- What the suffixes and the markers add; a `u64` counts the omitted items. -/
def markBytes (maxArrayItems maxStringChars : ℕ) : Value → ℕ :=
  tally maxArrayItems
    (fun s => if s.length ≤ maxStringChars then 0 else 17 + digits s.length)
    fun items => if items.length ≤ maxArrayItems then 0
      else 36 + digits ((items.length - maxArrayItems) % UInt64.size)

variable {n c : ℕ} {onString : String → ℕ} {onArray : List Value → ℕ}

lemma tallyItems_eq (take : ℕ) (items : List Value) : tallyItems n onString onArray take items =
    ((items.take take).map (tally n onString onArray)).sum := by
  induction items generalizing take with
  | nil => simp [tallyItems]
  | cons v items ih =>
    cases take with
    | zero => simp [tallyItems]
    | succ take => simp [tallyItems, ih]

lemma tallyMembers_eq (members : List (String × Value)) :
    tallyMembers n onString onArray members =
      (members.map fun m => tally n onString onArray m.2).sum := by
  induction members with
  | nil => rfl
  | cons m members ih =>
    obtain ⟨key, v⟩ := m
    simp [tallyMembers, ih]

/-- Entry by entry what is left and what is cut make up what was there and what is added. -/
lemma sum_balance {α : Type} {left cut was mark : α → ℕ} {l : List α}
    (h : ∀ a ∈ l, left a + cut a = was a + mark a) :
    (l.map left).sum + (l.map cut).sum = (l.map was).sum + (l.map mark).sum := by
  rw [← List.sum_map_add, ← List.sum_map_add]
  exact congrArg List.sum (List.map_congr_left h)

lemma string_balance (s : String) :
    textSize floatText (.string (truncateString s c)) + escapedSize (s.toList.drop c) =
      textSize floatText (.string s) + if s.length ≤ c then 0 else 17 + digits s.length := by
  have hsplit : escapedSize (s.toList.take c) + escapedSize (s.toList.drop c) =
      escapedSize s.toList := by
    rw [← escapedSize_append, List.take_append_drop]
  rw [textSize_string, textSize_string]
  rcases Nat.lt_or_ge c s.length with hlong | hshort
  · rw [truncateString_long hlong, if_neg (Nat.not_le.mpr hlong), String.toList_append,
      String.toList_ofList, escapedSize_append, charsTotal_size]
    omega
  · have hkept : s.toList.take c = s.toList :=
      List.take_of_length_le (by rwa [String.length_toList])
    rw [hkept] at hsplit
    rw [truncateString_short hshort, if_pos hshort]
    omega

/-- Kept items that balance, omitted ones with their commas, and the marker behind the kept. -/
lemma array_balance {items : List Value} {cut mark : Value → ℕ}
    (h : ∀ v ∈ items,
      textSize floatText (shapeJson n c v) + cut v = textSize floatText v + mark v) :
    textSize floatText (shapeJson n c (.array items)) +
        (joined ((items.drop n).map (textSize floatText)) + ((items.take n).map cut).sum) =
      textSize floatText (.array items) +
        ((if items.length ≤ n then 0 else 36 + digits ((items.length - n) % UInt64.size)) +
          ((items.take n).map mark).sum) := by
  have hkept : ((items.take n).map fun v => textSize floatText (shapeJson n c v)).sum +
        ((items.take n).map cut).sum =
      ((items.take n).map (textSize floatText)).sum + ((items.take n).map mark).sum :=
    sum_balance fun v hv => h v (List.mem_of_mem_take hv)
  have hsplit : ((items.take n).map (textSize floatText)).sum +
      ((items.drop n).map (textSize floatText)).sum = (items.map (textSize floatText)).sum := by
    rw [← List.sum_append, ← List.map_append, List.take_append_drop]
  rw [shapeJson_array, textSize_array, textSize_array, List.map_append, List.map_map]
  simp only [joined, List.sum_append, List.length_append, List.length_map, List.length_take,
    List.length_drop, Function.comp_def]
  rcases Nat.lt_or_ge n items.length with hlong | hshort
  · rw [markers_long hlong, if_neg (Nat.not_le.mpr hlong), List.map_singleton, List.sum_singleton,
      List.length_singleton, marker_size]
    omega
  · rw [markers_short hshort, if_pos hshort, List.map_nil, List.sum_nil, List.length_nil]
    have hrest : items.drop n = [] := List.drop_eq_nil_iff.mpr hshort
    rw [hrest, List.map_nil, List.sum_nil] at hsplit ⊢
    omega

lemma object_balance {members : List (String × Value)} {cut mark : Value → ℕ}
    (h : ∀ m ∈ members,
      textSize floatText (shapeJson n c m.2) + cut m.2 = textSize floatText m.2 + mark m.2) :
    textSize floatText (shapeJson n c (.object members)) + (members.map fun m => cut m.2).sum =
      textSize floatText (.object members) + (members.map fun m => mark m.2).sum := by
  have hbalance : ∀ m ∈ members, memberSize floatText (m.1, shapeJson n c m.2) + cut m.2 =
      memberSize floatText m + mark m.2 := by
    intro m hm
    have hvalue := h m hm
    simp only [memberSize]
    omega
  have hsum := sum_balance hbalance
  rw [shapeJson_object, textSize_object, textSize_object, List.map_map]
  simp only [joined, List.length_map, Function.comp_def]
  omega

/-- **The ledger balances.** -/
lemma ledger_balance (v : Value) :
    textSize floatText (shapeJson n c v) + cutBytes floatText n c v =
      textSize floatText v + markBytes n c v := by
  unfold cutBytes markBytes
  induction v with
  | null => simp [tally]
  | bool b => simp [tally]
  | number x => simp [tally]
  | string s =>
    rw [shapeJson_string, tally, tally]
    exact string_balance floatText s
  | array items ih =>
    rw [tally, tally, tallyItems_eq, tallyItems_eq]
    exact array_balance floatText ih
  | object members ih =>
    rw [tally, tally, tallyMembers_eq, tallyMembers_eq]
    exact object_balance floatText ih

/-! ### From one preset to the next -/

/-- What is still free in the last token. -/
def freeBytes (bytes : ℕ) : ℕ := 4 * max ((bytes + 3) / 4) 1 - bytes

/-- The value as it is, then the presets in order. -/
def levels : List (Option (ℕ × ℕ)) := none :: AGGRESSIVENESS_LEVELS.map some

def atLevel (v : Value) : Option (ℕ × ℕ) → Value
  | none => v
  | some (maxItems, maxChars) => shapeJson maxItems maxChars v

def cutAt (v : Value) : Option (ℕ × ℕ) → ℕ
  | none => 0
  | some (maxItems, maxChars) => cutBytes floatText maxItems maxChars v

def markAt (v : Value) : Option (ℕ × ℕ) → ℕ
  | none => 0
  | some (maxItems, maxChars) => markBytes maxItems maxChars v

/-- What `b` cuts off beyond `a`, with what `a` leaves free, is worth the marks `b` adds. -/
def StepPays (v : Value) (a b : Option (ℕ × ℕ)) : Prop :=
  markAt v b + cutAt floatText v a ≤ markAt v a + cutAt floatText v b +
    freeBytes (textSize floatText v + markAt v a - cutAt floatText v a)

instance (v : Value) (a b : Option (ℕ × ℕ)) : Decidable (StepPays floatText v a b) :=
  inferInstanceAs (Decidable (_ ≤ _))

def tokensAt (v : Value) (l : Option (ℕ × ℕ)) : ℕ :=
  estimateTokens (toText floatText (atLevel v l))

lemma level_balance (v : Value) (l : Option (ℕ × ℕ)) :
    textSize floatText (atLevel v l) + cutAt floatText v l =
      textSize floatText v + markAt v l := by
  cases l with
  | none => rfl
  | some l => exact ledger_balance floatText v

/-- No more tokens means no more bytes than fit into those there were. -/
lemma estimateTokens_le_iff {s t : String} : estimateTokens t ≤ estimateTokens s ↔
    t.utf8ByteSize ≤ s.utf8ByteSize + freeBytes s.utf8ByteSize := by
  unfold estimateTokens freeBytes
  omega

lemma stepPays_iff (v : Value) (a b : Option (ℕ × ℕ)) :
    StepPays floatText v a b ↔ tokensAt floatText v b ≤ tokensAt floatText v a := by
  have ha := level_balance floatText v a
  have hb := level_balance floatText v b
  have hsize : textSize floatText v + markAt v a - cutAt floatText v a =
      (toText floatText (atLevel v a)).utf8ByteSize := by
    rw [textSize] at ha
    omega
  rw [tokensAt, tokensAt, estimateTokens_le_iff, StepPays, hsize]
  rw [textSize] at ha hb
  omega

/-! ### A budget -/

/-- Shaping never makes the response bigger. -/
structure NeverBigger (v : Value) : Prop where
  nonincreasing : (levels.map (tokensAt floatText v)).Pairwise (· ≥ ·)
  budget : ∀ budgetTokens,
    estimateTokens (toText floatText (shapeForBudget floatText v budgetTokens)) ≤
      estimateTokens (toText floatText v)
  /-- where no preset fits -/
  fallback : ∀ budgetTokens, (∀ l ∈ AGGRESSIVENESS_LEVELS,
      budgetTokens < estimateTokens (toText floatText (shapeJson l.1 l.2 v))) →
    ∀ l ∈ levels, estimateTokens (toText floatText (shapeForBudget floatText v budgetTokens)) ≤
      tokensAt floatText v l

lemma tryLevels_of_none_fits {v : Value} {budgetTokens : ℕ} {ls : List (ℕ × ℕ)}
    {mostAggressive : Value} (h : ∀ l ∈ ls,
      budgetTokens < estimateTokens (toText floatText (shapeJson l.1 l.2 v))) :
    tryLevels floatText v budgetTokens ls mostAggressive =
      (ls.map fun l => shapeJson l.1 l.2 v).getLastD mostAggressive := by
  induction ls generalizing mostAggressive with
  | nil => rfl
  | cons l ls ih =>
    obtain ⟨maxItems, maxChars⟩ := l
    have hover := h (maxItems, maxChars) List.mem_cons_self
    rw [tryLevels]
    simp only [if_neg (Nat.not_le.mpr hover)]
    rw [ih fun l hl => h l (List.mem_cons_of_mem _ hl), List.map_cons, List.getLastD_cons]

/-- The last level comes after all the others. -/
lemma last_le_of_pairwise {v : Value}
    (h : (levels.map (tokensAt floatText v)).Pairwise (· ≥ ·)) :
    ∀ l ∈ levels, tokensAt floatText v (some (1, 20)) ≤ tokensAt floatText v l := by
  have hsplit : levels = levels.dropLast ++ [some (1, 20)] := rfl
  rw [hsplit, List.map_append, List.pairwise_append] at h
  intro l hl
  rw [hsplit] at hl
  rcases List.mem_append.mp hl with hl | hl
  · exact h.2.2 _ (List.mem_map_of_mem hl) _ List.mem_cons_self
  · rw [List.mem_singleton.mp hl]

/-- **When shaping never makes a response bigger**: at each of the five steps, what is cut off
beyond the step before pays for the marks that are added. -/
theorem neverBigger_iff (floatText : UInt64 → String) (v : Value) :
    NeverBigger floatText v ↔ levels.IsChain (StepPays floatText v) := by
  have hchain : levels.IsChain (StepPays floatText v) ↔
      (levels.map (tokensAt floatText v)).Pairwise (· ≥ ·) := by
    have hpays : StepPays floatText v =
        fun a b => tokensAt floatText v a ≥ tokensAt floatText v b :=
      funext fun a => funext fun b => propext (stepPays_iff floatText v a b)
    rw [hpays, ← List.isChain_iff_pairwise, List.isChain_map]
  rw [hchain]
  refine ⟨fun h => h.nonincreasing, fun h => ?_⟩
  refine ⟨h, fun budgetTokens => ?_, fun budgetTokens hnone => ?_⟩
  · obtain ⟨l, hl, heq⟩ := shapeForBudget_eq floatText v budgetTokens
    rw [levels, List.map_cons, List.pairwise_cons] at h
    rw [heq]
    exact h.1 _ (List.mem_map_of_mem (List.mem_map_of_mem hl))
  · have hlast : shapeForBudget floatText v budgetTokens = atLevel v (some (1, 20)) :=
      tryLevels_of_none_fits floatText hnone
    rw [hlast]
    exact last_le_of_pairwise floatText h

/-- One item more than the mildest preset keeps. -/
def manyZeros : Value := .array (List.replicate 21 (.number (.posInt 0)))

theorem manyZeros_grow : ¬ NeverBigger (fun _ => "0.5") manyZeros := by
  intro h
  have hsteps := h.budget 20
  revert hsteps
  decide +kernel

end SvmWasiCore.ShapingLedger
