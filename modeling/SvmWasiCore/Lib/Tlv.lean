import SvmWasiCore.Lib.LittleEndian

/-!
Areas of type-length-value records.

A record is a 16-bit type, a 16-bit length and that many bytes of value; a type of `0` marks the
unused rest of the area. The walk goes from record to record, looking for a type.
-/

namespace SvmWasiCore.Lib.Tlv

open LittleEndian

/-- Where a walk ends. -/
inductive Stop
  /-- at a record of the wanted type: its length field and everything after its header -/
  | record (len : ℕ) (rest : List UInt8)
  /-- at the unused rest of the area -/
  | uninitialized
  /-- at the end of the area, right after a record -/
  | boundary
  /-- inside a header -/
  | truncated
  /-- at another record, whose value runs past the end of the area -/
  | overrun
  deriving DecidableEq

/-- The types of the records a walk passes, and where it ends. -/
structure Walked where
  passed : List UInt16
  stop : Stop
  deriving DecidableEq

/-- Walks over `w` in search of a record of type `ty`. -/
def walk (ty : UInt16) (w : List UInt8) : Walked :=
  if w = [] then ⟨[], .boundary⟩
  else if w.length < 2 then ⟨[], .truncated⟩
  else if u16At w 0 = 0 then ⟨[], .uninitialized⟩
  else if w.length < 4 then ⟨[], .truncated⟩
  else if u16At w 0 = ty then ⟨[], .record (u16At w 2).toNat (w.drop 4)⟩
  else if w.length < 4 + (u16At w 2).toNat then ⟨[], .overrun⟩
  else
    let next := walk ty (w.drop (4 + (u16At w 2).toNat))
    ⟨u16At w 0 :: next.passed, next.stop⟩
termination_by w.length
decreasing_by
  rw [List.length_drop]
  have := List.length_pos_iff.mpr ‹w ≠ []›
  omega

variable {ty : UInt16} {w : List UInt8}

@[simp] lemma walk_nil : walk ty [] = ⟨[], .boundary⟩ := by
  rw [walk, if_pos rfl]

lemma walk_uninitialized (hw : 2 ≤ w.length) (h0 : u16At w 0 = 0) :
    walk ty w = ⟨[], .uninitialized⟩ := by
  have hne : w ≠ [] := by
    rintro rfl
    simp at hw
  rw [walk, if_neg hne, if_neg (by omega), if_pos h0]

lemma walk_record (hty : ty ≠ 0) (hw : 4 ≤ w.length) (ht : u16At w 0 = ty) :
    walk ty w = ⟨[], .record (u16At w 2).toNat (w.drop 4)⟩ := by
  have hne : w ≠ [] := by
    rintro rfl
    simp at hw
  rw [walk, if_neg hne, if_neg (by omega), if_neg (by rwa [ht]), if_neg (by omega), if_pos ht]

lemma walk_overrun (hw : 4 ≤ w.length) (h0 : u16At w 0 ≠ 0) (ht : u16At w 0 ≠ ty)
    (hv : w.length < 4 + (u16At w 2).toNat) : walk ty w = ⟨[], .overrun⟩ := by
  have hne : w ≠ [] := by
    rintro rfl
    simp at hw
  rw [walk, if_neg hne, if_neg (by omega), if_neg h0, if_neg (by omega), if_neg ht, if_pos hv]

/-- A record of another type that lies inside the area is passed. -/
lemma walk_pass (hw : 4 ≤ w.length) (h0 : u16At w 0 ≠ 0) (ht : u16At w 0 ≠ ty)
    (hv : 4 + (u16At w 2).toNat ≤ w.length) :
    walk ty w = ⟨u16At w 0 :: (walk ty (w.drop (4 + (u16At w 2).toNat))).passed,
      (walk ty (w.drop (4 + (u16At w 2).toNat))).stop⟩ := by
  have hne : w ≠ [] := by
    rintro rfl
    simp at hw
  rw [walk, if_neg hne, if_neg (by omega), if_neg h0, if_neg (by omega), if_neg ht,
    if_neg (by omega)]

/-- Fewer than four bytes are no record. -/
lemma walk_short (hw : w.length < 4) (len : ℕ) (rest : List UInt8) :
    (walk ty w).stop ≠ .record len rest := by
  unfold walk
  split_ifs <;> simp

/-- A record found stands somewhere in the area, with its header. -/
lemma exists_of_walk_record {len : ℕ} {rest : List UInt8}
    (h : (walk ty w).stop = .record len rest) :
    ∃ i, i + 4 ≤ w.length ∧ len = (u16At w (i + 2)).toNat ∧ rest = w.drop (i + 4) := by
  fun_induction walk ty w with
  | case1 => cases h
  | case2 => cases h
  | case3 => cases h
  | case4 => cases h
  | case5 w hne h2 h0 h4 ht =>
    cases h
    exact ⟨0, by omega, rfl, rfl⟩
  | case6 => cases h
  | case7 w hne h2 h0 h4 ht hv next ih =>
    obtain ⟨i, hi, hlen, hrest⟩ := ih h
    rw [List.length_drop] at hi
    refine ⟨4 + (u16At w 2).toNat + i, by omega, ?_, ?_⟩
    · rw [hlen, u16At_drop, Nat.add_assoc _ i 2]
    · rw [hrest, List.drop_drop, Nat.add_assoc _ i 4]

/-! ### Written records -/

/-- A record whose length field can say how long its value is. -/
structure Record where
  type : UInt16
  value : List UInt8
  fits : value.length < 2 ^ 16
  deriving DecidableEq

/-- The length field. -/
def Record.length (r : Record) : UInt16 := .ofNat r.value.length

def Record.write (r : Record) : List UInt8 :=
  (toLe 2 r.type.toNat).toList ++ ((toLe 2 r.length.toNat).toList ++ r.value)

namespace Record

variable {r : Record} {records : List Record}

@[simp] lemma length_toNat (r : Record) : r.length.toNat = r.value.length :=
  UInt16.toNat_ofNat_of_lt' r.fits

@[simp] lemma length_write (r : Record) : r.write.length = 4 + r.value.length := by
  simp only [write, List.length_append, List.Vector.toList_length]
  omega

@[simp] lemma u16At_type (r : Record) (w : List UInt8) : u16At (r.write ++ w) 0 = r.type := by
  rw [write, List.append_assoc, u16At_append]

lemma drop_type (r : Record) (w : List UInt8) : (r.write ++ w).drop 2 =
    (toLe 2 r.length.toNat).toList ++ (r.value ++ w) := by
  rw [write, List.append_assoc, List.append_assoc, List.drop_left' (List.Vector.toList_length _)]

@[simp] lemma u16At_length (r : Record) (w : List UInt8) :
    u16At (r.write ++ w) 2 = r.length := by
  have hfield : u16At (r.write ++ w) 2 = u16At ((r.write ++ w).drop 2) 0 := (u16At_drop _ 2 0).symm
  rw [hfield, drop_type, u16At_append]

lemma drop_header (r : Record) (w : List UInt8) : (r.write ++ w).drop 4 = r.value ++ w := by
  have hdrop : (r.write ++ w).drop 4 = ((r.write ++ w).drop 2).drop 2 := by rw [List.drop_drop]
  rw [hdrop, drop_type, List.drop_left' (List.Vector.toList_length _)]

lemma drop_write (r : Record) (w : List UInt8) : (r.write ++ w).drop (4 + r.value.length) = w :=
  List.drop_left' r.length_write

/-- A record that lies inside an area, as it was written. -/
lemma exists_write_eq (h4 : 4 ≤ w.length) (hv : 4 + (u16At w 2).toNat ≤ w.length) :
    ∃ r : Record, r.type = u16At w 0 ∧ r.length = u16At w 2 ∧
      w = r.write ++ w.drop (4 + (u16At w 2).toNat) := by
  have hlen : ((w.drop 4).take (u16At w 2).toNat).length = (u16At w 2).toNat := by
    rw [List.length_take, List.length_drop]
    omega
  have hfits : ((w.drop 4).take (u16At w 2).toNat).length < 2 ^ 16 := by
    rw [hlen]
    exact (u16At w 2).toNat_lt
  let r : Record := ⟨u16At w 0, (w.drop 4).take (u16At w 2).toNat, hfits⟩
  have hlength : r.length = u16At w 2 := by
    rw [← UInt16.toNat_inj, length_toNat]
    exact hlen
  refine ⟨r, rfl, hlength, ?_⟩
  -- the header, the value and what follows it tile the area
  have htype : (toLe 2 r.type.toNat).toList = w.take 2 := by
    rw [toLe_u16At, toList_array w (by omega), List.drop_zero]
  have hfield : (toLe 2 r.length.toNat).toList = (w.drop 2).take 2 := by
    rw [hlength, toLe_u16At, toList_array w (by omega)]
  have hrest : w.drop (4 + (u16At w 2).toNat) = (w.drop 4).drop (u16At w 2).toNat :=
    List.drop_drop.symm
  have h4' : w.drop 4 = (w.drop 2).drop 2 := by rw [List.drop_drop]
  have hvalue : r.value ++ w.drop (4 + (u16At w 2).toNat) = (w.drop 2).drop 2 := by
    rw [hrest, ← h4']
    exact List.take_append_drop _ _
  rw [write, htype, hfield, List.append_assoc, List.append_assoc, hvalue, List.take_append_drop,
    List.take_append_drop]

/-! ### The walk over written records -/

/-- The walk stops at a record of the type it looks for. -/
lemma walk_wanted (h0 : r.type ≠ 0) (ht : r.type = ty) (w : List UInt8) :
    walk ty (r.write ++ w) = ⟨[], .record r.value.length (r.value ++ w)⟩ := by
  have hlen : 4 ≤ (r.write ++ w).length := by
    rw [List.length_append, length_write]
    omega
  rw [walk_record (ht ▸ h0) hlen (by rw [u16At_type, ht]), u16At_length, length_toNat, drop_header]

/-- It passes a record of another type. -/
lemma walk_other (h0 : r.type ≠ 0) (ht : r.type ≠ ty) (w : List UInt8) :
    walk ty (r.write ++ w) = ⟨r.type :: (walk ty w).passed, (walk ty w).stop⟩ := by
  have hlen : (r.write ++ w).length = 4 + r.value.length + w.length := by
    rw [List.length_append, length_write]
  rw [walk_pass (by omega) (by rwa [u16At_type]) (by rwa [u16At_type])
    (by rw [u16At_length, length_toNat]; omega), u16At_type, u16At_length, length_toNat, drop_write]

/-- It passes records of other types, one after another. -/
lemma walk_others (h : ∀ r ∈ records, r.type ≠ 0 ∧ r.type ≠ ty) (w : List UInt8) :
    walk ty (records.flatMap write ++ w) =
      ⟨records.map type ++ (walk ty w).passed, (walk ty w).stop⟩ := by
  induction records with
  | nil => rfl
  | cons r records ih =>
    obtain ⟨⟨h0, ht⟩, h⟩ := List.forall_mem_cons.mp h
    rw [List.flatMap_cons, List.append_assoc, walk_other h0 ht, ih h, List.map_cons,
      List.cons_append]

/-- A whole record that a walk stops at stands behind records of other types. -/
lemma exists_of_walk_stop {len : ℕ} {rest : List UInt8} (h : (walk ty w).stop = .record len rest)
    (hle : len ≤ rest.length) : ∃ (records : List Record) (r : Record) (tail : List UInt8),
      w = records.flatMap write ++ (r.write ++ tail) ∧
        (walk ty w).passed = records.map type ∧ (∀ r ∈ records, r.type ≠ 0 ∧ r.type ≠ ty) ∧
          r.type = ty ∧ len = r.value.length ∧ rest = r.value ++ tail := by
  fun_induction walk ty w with
  | case1 => cases h
  | case2 => cases h
  | case3 => cases h
  | case4 => cases h
  | case5 w hne h2 h0 h4 ht =>
    cases h
    rw [List.length_drop] at hle
    obtain ⟨r, hr, hlen, hw⟩ := exists_write_eq (w := w) (by omega) (by omega)
    refine ⟨[], r, _, hw, rfl, by simp, hr.trans ht, by rw [← hlen, length_toNat], ?_⟩
    have hdrop := drop_header r (w.drop (4 + (u16At w 2).toNat))
    rwa [← hw] at hdrop
  | case6 => cases h
  | case7 w hne h2 h0 h4 ht hv next ih =>
    obtain ⟨r, hr, -, hw⟩ := exists_write_eq (w := w) (by omega) (by omega)
    obtain ⟨records, r', tail, hw', hpassed, hothers, hr', hlen, hrest⟩ := ih h
    refine ⟨r :: records, r', tail, ?_, ?_, ?_, hr', hlen, hrest⟩
    · rw [List.flatMap_cons, List.append_assoc, ← hw']
      exact hw
    · rw [List.map_cons, hr]
      exact congrArg _ hpassed
    · exact List.forall_mem_cons.mpr ⟨⟨by rwa [hr], by rwa [hr]⟩, hothers⟩

end Record

end SvmWasiCore.Lib.Tlv
