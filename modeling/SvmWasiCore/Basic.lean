import SvmWasiCore.ShortVec
import SvmWasiCore.Lib.LittleEndian

/-!
The byte-array types every other part is written in, and what a call can do besides
returning: it can panic, and a panic traps the whole guest instance.
-/

namespace SvmWasiCore

open Lib.ByteCodec ShortVec

/-! ### Panics -/

inductive Panic
  | expect (msg : String)
  | unwrap
  | sliceEnd (stop len : ℕ)
  | indexOutOfBounds (index len : ℕ)
  deriving DecidableEq, Repr

/-- A call that returns or panics. -/
abbrev Exec (α : Type) := Except Panic α

variable {α : Type}

/-- The call does not panic. -/
def Returns (x : Exec α) : Prop := ∃ a, x = .ok a

instance (x : Exec α) : Decidable (Returns x) :=
  match x with
  | .ok a => isTrue ⟨a, rfl⟩
  | .error _ => isFalse fun ⟨_, h⟩ => by cases h

@[simp] lemma returns_ok (a : α) : Returns (.ok a : Exec α) := ⟨a, rfl⟩

@[simp] lemma not_returns_error (e : Panic) : ¬Returns (.error e : Exec α) := by
  rintro ⟨a, h⟩
  cases h

def expect (x : Option α) (msg : String) : Exec α :=
  match x with
  | some a => .ok a
  | none => .error (.expect msg)

/-- A call panics where its first part does, or the rest does. -/
lemma returns_bind_iff {β : Type} {x : Exec α} {f : α → Exec β} {q : Prop}
    (h : ∀ a, Returns (f a) ↔ q) : Returns (x >>= f) ↔ Returns x ∧ q := by
  rcases x with e | a
  · refine ⟨fun h => ?_, fun h => ?_⟩
    · obtain ⟨b, hb⟩ := h
      cases hb
    · obtain ⟨⟨a, ha⟩, -⟩ := h
      cases ha
  · rw [← h a]
    exact (and_iff_right (returns_ok a)).symm

/-- What follows a call does not matter when it never panics. -/
lemma returns_bind_of_returns {β : Type} {x : Exec α} {f : α → Exec β} (h : ∀ a, Returns (f a)) :
    Returns (x >>= f) ↔ Returns x := by
  rw [returns_bind_iff fun a => iff_true_intro (h a), and_true]

@[simp] lemma expect_eq_ok {x : Option α} {msg : String} {a : α} :
    expect x msg = .ok a ↔ x = some a := by
  cases x <;> simp [expect]

lemma returns_expect_iff {x : Option α} {msg : String} : Returns (expect x msg) ↔ x.isSome := by
  cases x <;> simp [expect]

/-- `xs[..n]`. -/
def sliceTo (xs : List α) (n : ℕ) : Exec (List α) :=
  if n ≤ xs.length then .ok (xs.take n) else .error (.sliceEnd n xs.length)

/-- `xs[i] = x`. -/
def setAt (xs : List α) (i : ℕ) (x : α) : Exec (List α) :=
  if i < xs.length then .ok (xs.set i x) else .error (.indexOutOfBounds i xs.length)

/-- `xs.iter().position(|k| k == x)`. -/
def position [BEq α] (xs : List α) (x : α) : Option ℕ := xs.findIdx? (· == x)

lemma position_eq_some_iff [DecidableEq α] {xs : List α} {x : α} {i : ℕ} :
    position xs x = some i ↔ x ∈ xs ∧ xs.idxOf x = i := by
  rw [position, List.findIdx?_eq_some_iff_findIdx_eq]
  refine ⟨fun h => ?_, fun h => ?_⟩
  · obtain ⟨hi, rfl⟩ := h
    exact ⟨List.idxOf_lt_length_iff.mp hi, rfl⟩
  · obtain ⟨hx, rfl⟩ := h
    exact ⟨List.idxOf_lt_length_iff.mpr hx, rfl⟩

lemma position_eq_none_iff [DecidableEq α] {xs : List α} {x : α} :
    position xs x = none ↔ x ∉ xs := by
  rw [position, List.findIdx?_eq_none_iff]
  refine ⟨fun h => ?_, fun hx => ?_⟩
  · intro hx
    simpa using h x hx
  · intro y hy
    rw [beq_eq_false_iff_ne]
    rintro rfl
    exact hx hy

/-! ### Newtypes over byte arrays -/

structure Pubkey where
  bytes : List.Vector UInt8 32
  deriving DecidableEq

/-- A `recent_blockhash` or durable-nonce value. -/
structure Hash where
  bytes : List.Vector UInt8 32
  deriving DecidableEq

structure Signature where
  bytes : List.Vector UInt8 64
  deriving DecidableEq

/-- The all-zero placeholder of an unsigned slot. -/
def Signature.default : Signature := ⟨.replicate 64 0⟩

def Hash.default : Hash := ⟨.replicate 32 0⟩

namespace Pubkey

lemma toList_injective : Function.Injective fun k : Pubkey => k.bytes.toList := by
  rintro ⟨a⟩ ⟨b⟩ h
  exact congrArg Pubkey.mk (List.Vector.eq a b h)

/-- The order of a `BTreeMap` keyed by pubkeys: byte by byte. -/
instance : Ord Pubkey := ⟨fun a b => compare a.bytes.toList b.bytes.toList⟩

lemma compare_eq (a b : Pubkey) : compare a b = compare a.bytes.toList b.bytes.toList := rfl

instance : Std.TransOrd Pubkey where
  eq_swap {a b} := by
    rw [compare_eq, compare_eq]
    exact Std.OrientedCmp.eq_swap
  isLE_trans {a b c} := by
    rw [compare_eq, compare_eq, compare_eq]
    exact Std.TransCmp.isLE_trans

instance : Std.LawfulEqOrd Pubkey where
  compare_self {a} := by
    rw [compare_eq]
    exact Std.ReflCmp.compare_self
  eq_of_compare {a b} h := by
    rw [compare_eq] at h
    exact toList_injective (Std.LawfulEqCmp.eq_of_compare h)

end Pubkey

/-- The key of a test account. -/
def sampleKey (n : ℕ) : Pubkey := ⟨Lib.LittleEndian.toLe 32 n⟩

def pubkeyCodec : Codec DecodeError Pubkey :=
  (byteArray 32).iso ⟨Pubkey.mk, Pubkey.bytes, fun _ => rfl, fun _ => rfl⟩

def hashCodec : Codec DecodeError Hash :=
  (byteArray 32).iso ⟨Hash.mk, Hash.bytes, fun _ => rfl, fun _ => rfl⟩

def signatureCodec : Codec DecodeError Signature :=
  (byteArray 64).iso ⟨Signature.mk, Signature.bytes, fun _ => rfl, fun _ => rfl⟩

@[simp] lemma pubkeyCodec_fits (k : Pubkey) : pubkeyCodec.Fits k := byteArray_fits k.bytes
@[simp] lemma hashCodec_fits (h : Hash) : hashCodec.Fits h := byteArray_fits h.bytes
@[simp] lemma signatureCodec_fits (s : Signature) : signatureCodec.Fits s := byteArray_fits s.bytes

end SvmWasiCore
