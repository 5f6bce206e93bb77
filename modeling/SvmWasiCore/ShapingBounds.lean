import SvmWasiCore.ShapingSizes

/-!
Shaped values are small.

However long the arrays and strings of a value are, what is left of it is bounded by how deep it
is nested and by its objects, which shaping does not cut.
-/

namespace SvmWasiCore.ShapingBounds

open Json JsonText Shaping ShapingSizes

variable {floatText : UInt64 → String} {T K k n c d : ℕ}

/-- A value nested at most `d` deep: numbers of at most `T` bytes, objects of at most `K` members
whose keys have at most `k` bytes, arrays and strings of any length there is. -/
inductive Within (floatText : UInt64 → String) (T K k : ℕ) : ℕ → Value → Prop
  | null {d : ℕ} : Within floatText T K k d .null
  | bool {d : ℕ} (b : Bool) : Within floatText T K k d (.bool b)
  | number {d : ℕ} {x : Number} (size : (numberText floatText x).utf8ByteSize ≤ T) :
      Within floatText T K k d (.number x)
  | string {d : ℕ} {s : String} (length : s.length < 2 ^ 64) : Within floatText T K k d (.string s)
  | array {d : ℕ} {items : List Value} (length : items.length < 2 ^ 64)
      (within : ∀ v ∈ items, Within floatText T K k d v) :
      Within floatText T K k (d + 1) (.array items)
  | object {d : ℕ} {members : List (String × Value)} (length : members.length ≤ K)
      (keys : ∀ m ∈ members, m.1.utf8ByteSize ≤ k)
      (within : ∀ m ∈ members, Within floatText T K k d m.2) :
      Within floatText T K k (d + 1) (.object members)

/-- What a value without items or members takes at most. -/
def leafBound (T c : ℕ) : ℕ := 5 + T + (39 + 6 * c)

/-- What an array takes whose items take at most `b`; the marker is one more. -/
def arrayBound (n b : ℕ) : ℕ := 2 + (n + 1) * (b + 57)

def objectBound (K k b : ℕ) : ℕ := 2 + K * (b + 6 * k + 4)

/-- What is left of a value nested at most that deep. -/
def bound (T K k n c : ℕ) : ℕ → ℕ
  | 0 => leafBound T c
  | d + 1 => leafBound T c + arrayBound n (bound T K k n c d) + objectBound K k (bound T K k n c d)

lemma leafBound_le_bound : leafBound T c ≤ bound T K k n c d := by
  cases d with
  | zero => exact Nat.le_refl _
  | succ d =>
    rw [bound]
    omega

lemma truncated_size_le {s : String} (h : s.length < 2 ^ 64) :
    textSize floatText (.string (truncateString s c)) ≤ 39 + 6 * c := by
  rw [textSize_string]
  rcases Nat.lt_or_ge c s.length with hlong | hshort
  · have hkept := escapedSize_le (s.toList.take c)
    have hdigits : digits s.length ≤ 20 := digits_le (by decide) (Nat.lt_trans h (by decide))
    rw [List.length_take, String.length_toList] at hkept
    rw [truncateString_long hlong, String.toList_append, String.toList_ofList, escapedSize_append,
      charsTotal_size]
    omega
  · have hkept := escapedSize_le s.toList
    rw [String.length_toList] at hkept
    rw [truncateString_short hshort]
    omega

lemma shapedArray_size_le {items : List Value} {b : ℕ}
    (hitems : ∀ v ∈ items, textSize floatText (shapeJson n c v) ≤ b) :
    textSize floatText (shapeJson n c (.array items)) ≤ arrayBound n b := by
  rw [shapeJson_array, textSize_array, arrayBound]
  have hentry : ∀ v ∈ (items.take n).map (shapeJson n c) ++ markers items.length n,
      textSize floatText v ≤ b + 56 := by
    intro v hv
    rcases List.mem_append.mp hv with hv | hv
    · obtain ⟨w, hw, rfl⟩ := List.mem_map.mp hv
      exact Nat.le_trans (hitems w (List.mem_of_mem_take hw)) (Nat.le_add_right _ _)
    · rcases Nat.lt_or_ge n items.length with hlong | hshort
      · rw [markers_long hlong, List.mem_singleton] at hv
        rw [hv]
        exact Nat.le_trans (marker_size_le floatText _) (Nat.le_add_left _ _)
      · rw [markers_short hshort] at hv
        cases hv
  have hlength : ((items.take n).map (shapeJson n c) ++ markers items.length n).length ≤ n + 1 := by
    have hmarkers : (markers items.length n).length ≤ 1 := by
      unfold markers
      split_ifs <;> simp
    rw [List.length_append, List.length_map, List.length_take]
    omega
  have hmul := Nat.mul_le_mul_right (b + 57) hlength
  have hjoined := Nat.le_trans (joined_map_le hentry) hmul
  omega

lemma shapedObject_size_le {members : List (String × Value)} {b : ℕ} (h : members.length ≤ K)
    (hkeys : ∀ m ∈ members, m.1.utf8ByteSize ≤ k)
    (hmembers : ∀ m ∈ members, textSize floatText (shapeJson n c m.2) ≤ b) :
    textSize floatText (shapeJson n c (.object members)) ≤ objectBound K k b := by
  rw [shapeJson_object, textSize_object, objectBound, List.map_map]
  have hentry : ∀ m ∈ members,
      (memberSize floatText ∘ fun m => (m.1, shapeJson n c m.2)) m ≤ b + 6 * k + 3 := by
    intro m hm
    have hkey := quote_le m.1
    have hk := hkeys m hm
    have hvalue := hmembers m hm
    change (quote m.1).utf8ByteSize + 1 + textSize floatText (shapeJson n c m.2) ≤ _
    omega
  have hmul := Nat.mul_le_mul_right (b + 6 * k + 4) h
  have hjoined := Nat.le_trans (joined_map_le hentry) hmul
  omega

/-- By the nesting of the value. -/
lemma shapeJson_size_le {v : Value} (h : Within floatText T K k d v) :
    textSize floatText (shapeJson n c v) ≤ bound T K k n c d := by
  induction h with
  | null =>
    refine Nat.le_trans ?_ leafBound_le_bound
    have hsize : textSize floatText .null = 4 := by
      rw [textSize, toText]
      decide
    rw [shapeJson_null, hsize, leafBound]
    omega
  | bool b =>
    refine Nat.le_trans ?_ leafBound_le_bound
    have hsize : textSize floatText (.bool b) ≤ 5 := by
      rw [textSize, toText]
      cases b <;> decide
    rw [shapeJson_bool, leafBound]
    omega
  | number size =>
    refine Nat.le_trans ?_ leafBound_le_bound
    rw [shapeJson_number, textSize, toText, leafBound]
    omega
  | string length =>
    refine Nat.le_trans ?_ leafBound_le_bound
    have hsize : textSize floatText (.string (truncateString _ c)) ≤ _ := truncated_size_le length
    rw [shapeJson_string, leafBound]
    omega
  | array _ _ ih =>
    have hsize := shapedArray_size_le ih
    rw [bound]
    omega
  | object length keys _ ih =>
    have hsize := shapedObject_size_le length keys ih
    rw [bound]
    omega

/-- A milder preset leaves more room. -/
lemma bound_mono {n' c' : ℕ} (hn : n ≤ n') (hc : c ≤ c') :
    bound T K k n c d ≤ bound T K k n' c' d := by
  have hleaf : leafBound T c ≤ leafBound T c' := by
    unfold leafBound
    omega
  induction d with
  | zero => exact hleaf
  | succ d ih =>
    have harray : arrayBound n (bound T K k n c d) ≤ arrayBound n' (bound T K k n' c' d) := by
      have hmul := Nat.mul_le_mul (Nat.add_le_add_right hn 1) (Nat.add_le_add_right ih 57)
      unfold arrayBound
      omega
    have hobject : objectBound K k (bound T K k n c d) ≤
        objectBound K k (bound T K k n' c' d) := by
      have hmul := Nat.mul_le_mul_left K
        (Nat.add_le_add_right (Nat.add_le_add_right ih (6 * k)) 4)
      unfold objectBound
      omega
    rw [bound, bound]
    omega

lemma levels_le {l : ℕ × ℕ} (h : l ∈ AGGRESSIVENESS_LEVELS) : l.1 ≤ 20 ∧ l.2 ≤ 500 := by
  revert l
  decide

/-- **Shaped values are small**: the text left of a value is bounded by its depth, its objects and
the limits, and what a budget leaves by the mildest preset, whatever the budget. -/
theorem shaped_size_le (floatText : UInt64 → String) (T K k d : ℕ) (v : Value)
    (h : Within floatText T K k d v) :
    (∀ n c, (toText floatText (shapeJson n c v)).utf8ByteSize ≤ bound T K k n c d) ∧
    ∀ budgetTokens, (toText floatText (shapeForBudget floatText v budgetTokens)).utf8ByteSize ≤
      bound T K k 20 500 d := by
  refine ⟨fun n c => shapeJson_size_le h, fun budgetTokens => ?_⟩
  obtain ⟨l, hl, heq⟩ := shapeForBudget_eq floatText v budgetTokens
  obtain ⟨hn, hc⟩ := levels_le hl
  rw [heq]
  exact Nat.le_trans (shapeJson_size_le h) (bound_mono hn hc)

/-- An array in an object in an array. -/
def nested : Value :=
  .array [.object [("logs", .array [.string "Program log: ok", .null])], .number (.posInt 150)]

lemma nested_within : Within (fun _ => "0.5") 20 1 4 3 nested := by
  have hlogs : Within (fun _ => "0.5") 20 1 4 1 (.array [.string "Program log: ok", .null]) := by
    refine .array (by decide) fun v hv => ?_
    rcases List.mem_pair.mp hv with rfl | rfl
    · exact .string (by decide)
    · exact .null
  have hobject : Within (fun _ => "0.5") 20 1 4 2
      (.object [("logs", .array [.string "Program log: ok", .null])]) := by
    refine .object (by decide) (by decide) fun m hm => ?_
    rw [List.mem_singleton.mp hm]
    exact hlogs
  refine .array (by decide) fun v hv => ?_
  rcases List.mem_pair.mp hv with rfl | rfl
  · exact hobject
  · exact .number (by decide)

theorem shaped_size_le_nested :
    (∀ n c, (toText (fun _ => "0.5") (shapeJson n c nested)).utf8ByteSize ≤ bound 20 1 4 n c 3) ∧
    ∀ budgetTokens, (toText (fun _ => "0.5")
        (shapeForBudget (fun _ => "0.5") nested budgetTokens)).utf8ByteSize ≤
      bound 20 1 4 20 500 3 :=
  shaped_size_le (fun _ => "0.5") 20 1 4 3 nested nested_within

end SvmWasiCore.ShapingBounds
