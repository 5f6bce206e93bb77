import SvmWasiCore.JsonText

/-!
Shaping: strings and arrays of a JSON value are cut to fit a token budget.

What a cut leaves out is counted, in a suffix of the string or in a marker behind the kept items.
A budget is met by trying five presets, from the mildest on.
-/

namespace SvmWasiCore.Shaping

open Json JsonText

/-- About four bytes a token. -/
def estimateTokens (s : String) : ℕ := max ((s.utf8ByteSize + 3) / 4) 1

/-- The suffix of a cut string. -/
def charsTotal (totalChars : ℕ) : String := "…(" ++ totalChars.repr ++ " chars total)"

def truncateString (s : String) (maxChars : ℕ) : String :=
  let totalChars := s.length
  if totalChars ≤ maxChars then s
  else .ofList (s.toList.take maxChars) ++ charsTotal totalChars

/-- The item behind a cut array; `json!` sorts the members. -/
def marker (omittedItems : ℕ) : Value :=
  .object [("_truncated", .bool true), ("omitted_items", .number (.posInt (.ofNat omittedItems)))]

/-- What is pushed behind the kept items of an array. -/
def markers (len maxArrayItems : ℕ) : List Value :=
  if len > maxArrayItems then [marker (len - maxArrayItems)] else []

section
variable (maxArrayItems maxStringChars : ℕ)

mutual

def shapeJson : Value → Value
  | .string s => .string (truncateString s maxStringChars)
  | .array items => .array (shapeItems maxArrayItems items ++ markers items.length maxArrayItems)
  | .object members => .object (shapeMembers members)
  | .null => .null
  | .bool b => .bool b
  | .number n => .number n

/-- The first `take` items, each shaped. -/
def shapeItems (take : ℕ) : List Value → List Value
  | [] => []
  | v :: items =>
    match take with
    | 0 => []
    | take + 1 => shapeJson v :: shapeItems take items

def shapeMembers : List (String × Value) → List (String × Value)
  | [] => []
  | (key, v) :: members => (key, shapeJson v) :: shapeMembers members

end

end

/-- `(max_array_items, max_string_chars)`, from the mildest preset to the most aggressive. -/
def AGGRESSIVENESS_LEVELS : List (ℕ × ℕ) := [(20, 500), (10, 200), (5, 80), (3, 40), (1, 20)]

variable (floatText : UInt64 → String)

/-- The loop over the presets, with the result of the last one that did not fit. -/
def tryLevels (value : Value) (budgetTokens : ℕ) : List (ℕ × ℕ) → Value → Value
  | [], mostAggressive => mostAggressive
  | (maxItems, maxChars) :: levels, _ =>
    let shaped := shapeJson maxItems maxChars value
    if estimateTokens (toText floatText shaped) ≤ budgetTokens then shaped
    else tryLevels value budgetTokens levels shaped

def shapeForBudget (value : Value) (budgetTokens : ℕ) : Value :=
  tryLevels floatText value budgetTokens AGGRESSIVENESS_LEVELS value

/-- The loop ends with the value shaped at one of the levels, or with what it started from. -/
lemma tryLevels_eq (value : Value) (budgetTokens : ℕ) (levels : List (ℕ × ℕ))
    (mostAggressive : Value) :
    (∃ l ∈ levels, tryLevels floatText value budgetTokens levels mostAggressive =
      shapeJson l.1 l.2 value) ∨
    levels = [] ∧
      tryLevels floatText value budgetTokens levels mostAggressive = mostAggressive := by
  induction levels generalizing mostAggressive with
  | nil => exact .inr ⟨rfl, rfl⟩
  | cons l levels ih =>
    obtain ⟨maxItems, maxChars⟩ := l
    rw [tryLevels]
    split_ifs with hfits
    · exact .inl ⟨_, List.mem_cons_self, rfl⟩
    · rcases ih (shapeJson maxItems maxChars value) with ⟨l, hl, heq⟩ | ⟨rfl, heq⟩
      · exact .inl ⟨l, List.mem_cons_of_mem _ hl, heq⟩
      · exact .inl ⟨_, List.mem_cons_self, heq⟩

lemma shapeForBudget_eq (value : Value) (budgetTokens : ℕ) : ∃ l ∈ AGGRESSIVENESS_LEVELS,
    shapeForBudget floatText value budgetTokens = shapeJson l.1 l.2 value := by
  rcases tryLevels_eq floatText value budgetTokens AGGRESSIVENESS_LEVELS value with h | ⟨h, -⟩
  · exact h
  · cases h

/-! ### Shaping as maps -/

variable {n c : ℕ}

lemma shapeItems_eq (take : ℕ) (items : List Value) :
    shapeItems n c take items = (items.take take).map (shapeJson n c) := by
  induction items generalizing take with
  | nil => simp [shapeItems]
  | cons v items ih =>
    cases take with
    | zero => simp [shapeItems]
    | succ take => simp [shapeItems, ih]

lemma shapeMembers_eq (members : List (String × Value)) :
    shapeMembers n c members = members.map fun m => (m.1, shapeJson n c m.2) := by
  induction members with
  | nil => rfl
  | cons m members ih =>
    obtain ⟨key, v⟩ := m
    simp [shapeMembers, ih]

@[simp] lemma shapeJson_null : shapeJson n c .null = .null := by rw [shapeJson]

@[simp] lemma shapeJson_bool (b : Bool) : shapeJson n c (.bool b) = .bool b := by rw [shapeJson]

@[simp] lemma shapeJson_number (x : Number) : shapeJson n c (.number x) = .number x := by
  rw [shapeJson]

@[simp] lemma shapeJson_string (s : String) :
    shapeJson n c (.string s) = .string (truncateString s c) := by rw [shapeJson]

@[simp] lemma shapeJson_array (items : List Value) : shapeJson n c (.array items) =
    .array ((items.take n).map (shapeJson n c) ++ markers items.length n) := by
  rw [shapeJson, shapeItems_eq]

@[simp] lemma shapeJson_object (members : List (String × Value)) :
    shapeJson n c (.object members) = .object (members.map fun m => (m.1, shapeJson n c m.2)) := by
  rw [shapeJson, shapeMembers_eq]

lemma truncateString_short {s : String} (h : s.length ≤ c) : truncateString s c = s := if_pos h

lemma truncateString_long {s : String} (h : c < s.length) :
    truncateString s c = .ofList (s.toList.take c) ++ charsTotal s.length :=
  if_neg (Nat.not_le.mpr h)

lemma markers_short {len : ℕ} (h : len ≤ n) : markers len n = [] := if_neg (Nat.not_lt.mpr h)

lemma markers_long {len : ℕ} (h : n < len) : markers len n = [marker (len - n)] := if_pos h

end SvmWasiCore.Shaping
