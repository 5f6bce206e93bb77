import Mathlib.Data.List.Basic

/-!
JSON values as `serde_json` holds them.
-/

namespace SvmWasiCore.Json

/-- A number keeps the representation it was parsed into. -/
inductive Number
  | posInt (n : UInt64)
  /-- a negative integer -/
  | negInt (n : Int64)
  /-- the bits of a finite double -/
  | float (bits : UInt64)
  deriving DecidableEq

/-- The members of an object stand in key order, each key once. -/
inductive Value
  | null
  | bool (b : Bool)
  | number (n : Number)
  | string (s : String)
  | array (items : List Value)
  | object (members : List (String × Value))

/-- Induction over a value: an array is reached from its items, an object from its members. -/
@[induction_eliminator]
theorem Value.induction {motive : Value → Prop} (null : motive .null) (bool : ∀ b, motive (.bool b))
    (number : ∀ n, motive (.number n)) (string : ∀ s, motive (.string s))
    (array : ∀ items, (∀ v ∈ items, motive v) → motive (.array items))
    (object : ∀ members, (∀ m ∈ members, motive m.2) → motive (.object members))
    (v : Value) : motive v :=
  Value.rec null bool number string array object (by simp)
    (fun _ _ hv hitems => List.forall_mem_cons.mpr ⟨hv, hitems⟩) (by simp)
    (fun _ _ hm hmembers => List.forall_mem_cons.mpr ⟨hm, hmembers⟩) (fun _ _ hv => hv) v

namespace Value

/-- `value.get(key)` with a string: a member of an object. -/
def get (v : Value) (key : String) : Option Value :=
  match v with
  | .object members => members.lookup key
  | _ => none

/-- `value.get(index)` with a number: an item of an array. -/
def getAt (v : Value) (index : ℕ) : Option Value :=
  match v with
  | .array items => items[index]?
  | _ => none

def isNull : Value → Bool
  | .null => true
  | _ => false

def asStr : Value → Option String
  | .string s => some s
  | _ => none

def asArray : Value → Option (List Value)
  | .array items => some items
  | _ => none

def asBool : Value → Option Bool
  | .bool b => some b
  | _ => none

def asU64 : Value → Option UInt64
  | .number (.posInt n) => some n
  | _ => none

def asI64 : Value → Option Int64
  | .number (.posInt n) => if n.toNat ≤ Int64.maxValue.toInt then some (.ofNat n.toNat) else none
  | .number (.negInt n) => some n
  | _ => none

def asF64 : Value → Option Float
  | .number (.posInt n) => some n.toFloat
  | .number (.negInt n) => some n.toFloat
  | .number (.float bits) => some (.ofBits bits)
  | _ => none

@[simp] lemma asArray_eq_some_iff {v : Value} {items : List Value} :
    v.asArray = some items ↔ v = .array items := by
  cases v <;> simp [asArray]

@[simp] lemma isNull_iff {v : Value} : v.isNull ↔ v = .null := by
  cases v <;> simp [isNull]

end Value

end SvmWasiCore.Json
