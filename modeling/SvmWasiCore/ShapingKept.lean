import SvmWasiCore.Shaping
import SvmWasiCore.Lib.Cut
import Mathlib.Data.List.Forall2

/-!
What a shaped value still tells.

Two values shape to the same one exactly when they agree on what is kept, at every depth: the
first items of an array and its length, the first characters of a string and their number. A
marker is known by its place alone, so data that looks like a marker is not taken for one.
-/

namespace SvmWasiCore.ShapingKept

open Json Shaping Lib.Cut

/-- Arrays are as short as an array in memory can be. -/
inductive Sized : Value → Prop
  | null : Sized .null
  | bool (b : Bool) : Sized (.bool b)
  | number (x : Number) : Sized (.number x)
  | string (s : String) : Sized (.string s)
  | array {items : List Value} (length_lt : items.length < UInt64.size)
      (sized : ∀ v ∈ items, Sized v) : Sized (.array items)
  | object {members : List (String × Value)} (sized : ∀ m ∈ members, Sized m.2) :
      Sized (.object members)

lemma Sized.of_array {items : List Value} (h : Sized (.array items)) :
    items.length < UInt64.size ∧ ∀ v ∈ items, Sized v := by
  cases h with
  | array length_lt sized => exact ⟨length_lt, sized⟩

lemma Sized.of_object {members : List (String × Value)} (h : Sized (.object members)) :
    ∀ m ∈ members, Sized m.2 := by
  cases h with
  | object sized => exact sized

/-- The values agree on what shaping keeps of them. -/
inductive Alike (n c : ℕ) : Value → Value → Prop
  | null : Alike n c .null .null
  | bool (b : Bool) : Alike n c (.bool b) (.bool b)
  | number (x : Number) : Alike n c (.number x) (.number x)
  | string {s t : String} (length : s.length = t.length)
      (kept : s.toList.take c = t.toList.take c) : Alike n c (.string s) (.string t)
  | array {xs ys : List Value} (length : xs.length = ys.length)
      (kept : List.Forall₂ (Alike n c) (xs.take n) (ys.take n)) : Alike n c (.array xs) (.array ys)
  | object {ms ns : List (String × Value)} (keys : ms.map Prod.fst = ns.map Prod.fst)
      (kept : List.Forall₂ (Alike n c) (ms.map Prod.snd) (ns.map Prod.snd)) :
      Alike n c (.object ms) (.object ns)

variable {n c : ℕ}

lemma alike_string_iff {s t : String} : Alike n c (.string s) (.string t) ↔
    s.length = t.length ∧ s.toList.take c = t.toList.take c := by
  refine ⟨fun h => ?_, fun h => .string h.1 h.2⟩
  cases h with
  | string length kept => exact ⟨length, kept⟩

lemma alike_array_iff {xs ys : List Value} : Alike n c (.array xs) (.array ys) ↔
    xs.length = ys.length ∧ List.Forall₂ (Alike n c) (xs.take n) (ys.take n) := by
  refine ⟨fun h => ?_, fun h => .array h.1 h.2⟩
  cases h with
  | array length kept => exact ⟨length, kept⟩

lemma alike_object_iff {ms ns : List (String × Value)} : Alike n c (.object ms) (.object ns) ↔
    ms.map Prod.fst = ns.map Prod.fst ∧
      List.Forall₂ (Alike n c) (ms.map Prod.snd) (ns.map Prod.snd) := by
  refine ⟨fun h => ?_, fun h => .object h.1 h.2⟩
  cases h with
  | object keys kept => exact ⟨keys, kept⟩

/-! ### Strings -/

lemma repr_inj {a b : ℕ} (h : a.repr = b.repr) : a = b := by
  have hdigits : Nat.toDigits 10 a = Nat.toDigits 10 b := by
    rw [← Nat.toList_repr, h, Nat.toList_repr]
  rw [← Nat.ofDigitChars_ten_toDigits (n := a), hdigits, Nat.ofDigitChars_ten_toDigits]

lemma charsTotal_inj {a b : ℕ} (h : charsTotal a = charsTotal b) : a = b := by
  have hlist := congrArg String.toList h
  simp only [charsTotal, String.toList_append, List.append_assoc] at hlist
  have hrepr := List.append_cancel_left hlist
  exact repr_inj (String.toList_inj.mp (List.append_cancel_right hrepr))

/-- Truncation cuts the characters. -/
lemma toList_truncateString (s : String) : (truncateString s c).toList =
    cut c (fun totalChars => (charsTotal totalChars).toList) s.toList := by
  rcases Nat.lt_or_ge c s.length with h | h
  · rw [truncateString_long h, cut_long (by rwa [String.length_toList]), String.toList_append,
      String.toList_ofList, String.length_toList]
  · rw [truncateString_short h, cut_short (by rwa [String.length_toList])]

lemma truncateString_eq_iff (s t : String) : truncateString s c = truncateString t c ↔
    s.length = t.length ∧ s.toList.take c = t.toList.take c := by
  have hmark : ∀ k, (charsTotal k).toList ≠ [] := by
    intro k
    simp [charsTotal]
  rw [← String.toList_inj, toList_truncateString, toList_truncateString,
    cut_eq_cut_iff hmark fun _ _ h => charsTotal_inj (String.toList_inj.mp h),
    String.length_toList, String.length_toList]

/-! ### Arrays -/

lemma marker_inj {a b : ℕ} (ha : a < UInt64.size) (hb : b < UInt64.size)
    (h : marker a = marker b) : a = b := by
  have hnumber : UInt64.ofNat a = UInt64.ofNat b := by
    simpa [marker] using h
  have hnat := congrArg UInt64.toNat hnumber
  rwa [UInt64.toNat_ofNat_of_lt' ha, UInt64.toNat_ofNat_of_lt' hb] at hnat

lemma map_shapeJson_eq_iff {xs ys : List Value} :
    xs.map (shapeJson n c) = ys.map (shapeJson n c) ↔
      List.Forall₂ (fun x y => shapeJson n c x = shapeJson n c y) xs ys := by
  rw [← List.forall₂_eq_eq_eq, List.forall₂_map_left_iff, List.forall₂_map_right_iff]

/-- Shaping cuts the items, shaped. -/
lemma shapeJson_array_eq_cut (items : List Value) : shapeJson n c (.array items) =
    .array (cut n (fun len => [marker (len - n)]) (items.map (shapeJson n c))) := by
  rw [shapeJson_array]
  rcases Nat.lt_or_ge n items.length with h | h
  · rw [markers_long h, cut_long (by rwa [List.length_map]), List.map_take, List.length_map]
  · rw [markers_short h, cut_short (by rwa [List.length_map]), List.take_of_length_le h,
      List.append_nil]

lemma shapeJson_array_eq_iff {xs ys : List Value} (hx : xs.length < UInt64.size)
    (hy : ys.length < UInt64.size) :
    shapeJson n c (.array xs) = shapeJson n c (.array ys) ↔ xs.length = ys.length ∧
      List.Forall₂ (fun x y => shapeJson n c x = shapeJson n c y) (xs.take n) (ys.take n) := by
  rw [shapeJson_array_eq_cut, shapeJson_array_eq_cut, Value.array.injEq,
    cut_eq_cut_iff (by simp), List.length_map, List.length_map, ← List.map_take, ← List.map_take,
    map_shapeJson_eq_iff]
  rw [List.length_map, List.length_map]
  intro hnx hny h
  have hsub := marker_inj (by omega) (by omega) (List.singleton_inj.mp h)
  omega

/-! ### Objects -/

lemma pairs_eq_iff {α β : Type} {l m : List (α × β)} :
    l = m ↔ l.map Prod.fst = m.map Prod.fst ∧ l.map Prod.snd = m.map Prod.snd := by
  refine ⟨fun h => ?_, fun h => ?_⟩
  · rw [h]
    exact ⟨rfl, rfl⟩
  · obtain ⟨hfst, hsnd⟩ := h
    rw [← List.zip_unzip l, ← List.zip_unzip m, List.unzip_eq_map, List.unzip_eq_map, hfst, hsnd]

/-- Where two relations agree on the entries of two lists, they agree on the lists. -/
lemma forall₂_congr {α β : Type} {R S : α → β → Prop} {l : List α} {m : List β}
    (h : ∀ a ∈ l, ∀ b ∈ m, R a b ↔ S a b) : List.Forall₂ R l m ↔ List.Forall₂ S l m := by
  induction l generalizing m with
  | nil => rw [List.forall₂_nil_left_iff, List.forall₂_nil_left_iff]
  | cons a l ih =>
    cases m with
    | nil => simp
    | cons b m =>
      rw [List.forall₂_cons, List.forall₂_cons, h a List.mem_cons_self b List.mem_cons_self,
        ih fun a' ha b' hb => h a' (List.mem_cons_of_mem _ ha) b' (List.mem_cons_of_mem _ hb)]

lemma shapeJson_object_eq_iff {ms ns : List (String × Value)} :
    shapeJson n c (.object ms) = shapeJson n c (.object ns) ↔
      ms.map Prod.fst = ns.map Prod.fst ∧ List.Forall₂
        (fun x y => shapeJson n c x = shapeJson n c y) (ms.map Prod.snd) (ns.map Prod.snd) := by
  have hfst (l : List (String × Value)) :
      (l.map fun m => (m.1, shapeJson n c m.2)).map Prod.fst = l.map Prod.fst := by
    rw [List.map_map]
    rfl
  have hsnd (l : List (String × Value)) : (l.map fun m => (m.1, shapeJson n c m.2)).map Prod.snd =
      (l.map Prod.snd).map (shapeJson n c) := by
    rw [List.map_map, List.map_map]
    rfl
  rw [shapeJson_object, shapeJson_object, Value.object.injEq, pairs_eq_iff, hfst, hfst, hsnd, hsnd,
    map_shapeJson_eq_iff]

/-! ### Values -/

/-- **What shaping keeps is what it tells**: two values shape to the same one exactly when they
agree on the kept parts and on the lengths. -/
theorem shapeJson_eq_iff (n c : ℕ) (v w : Value) (hv : Sized v) (hw : Sized w) :
    shapeJson n c v = shapeJson n c w ↔ Alike n c v w := by
  -- by the first value; values of different kinds neither shape to one value nor are alike
  induction v generalizing w with
  | null =>
    cases w with
    | null => exact iff_of_true rfl .null
    | _ => exact iff_of_false (by simp) fun h => by cases h
  | bool b =>
    cases w with
    | bool b' =>
      rw [shapeJson_bool, shapeJson_bool, Value.bool.injEq]
      refine ⟨fun h => h ▸ .bool b, fun h => ?_⟩
      cases h
      rfl
    | _ => exact iff_of_false (by simp) fun h => by cases h
  | number x =>
    cases w with
    | number y =>
      rw [shapeJson_number, shapeJson_number, Value.number.injEq]
      refine ⟨fun h => h ▸ .number x, fun h => ?_⟩
      cases h
      rfl
    | _ => exact iff_of_false (by simp) fun h => by cases h
  | string s =>
    cases w with
    | string t =>
      rw [shapeJson_string, shapeJson_string, Value.string.injEq, truncateString_eq_iff,
        alike_string_iff]
    | _ => exact iff_of_false (by simp) fun h => by cases h
  | array xs ih =>
    cases w with
    | array ys =>
      obtain ⟨hlen, hxs⟩ := hv.of_array
      obtain ⟨hlen', hys⟩ := hw.of_array
      rw [shapeJson_array_eq_iff hlen hlen', alike_array_iff]
      refine and_congr_right fun _ => forall₂_congr fun x hx y hy => ?_
      have hx := List.mem_of_mem_take hx
      exact ih x hx y (hxs x hx) (hys y (List.mem_of_mem_take hy))
    | _ => exact iff_of_false (by simp) fun h => by cases h
  | object ms ih =>
    cases w with
    | object ns =>
      have hms := hv.of_object
      have hns := hw.of_object
      rw [shapeJson_object_eq_iff, alike_object_iff]
      refine and_congr_right fun _ => forall₂_congr fun x hx y hy => ?_
      obtain ⟨m, hm, rfl⟩ := List.mem_map.mp hx
      obtain ⟨m', hm', rfl⟩ := List.mem_map.mp hy
      exact ih m hm m'.2 (hms m hm) (hns m' hm')
    | _ => exact iff_of_false (by simp) fun h => by cases h

/-- Two values that differ only in what is cut off at one item and three characters. -/
def cutLeft : Value := .array [.string "abcdef", .null]
def cutRight : Value := .array [.string "abcxyz", .bool true]

theorem shapeJson_eq_iff_cut :
    shapeJson 1 3 cutLeft = shapeJson 1 3 cutRight ↔ Alike 1 3 cutLeft cutRight := by
  have hleft : Sized cutLeft := .array (by decide) (by simp [Sized.string, Sized.null])
  have hright : Sized cutRight := .array (by decide) (by simp [Sized.string, Sized.bool])
  exact shapeJson_eq_iff 1 3 cutLeft cutRight hleft hright

end SvmWasiCore.ShapingKept
