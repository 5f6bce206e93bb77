import SvmWasiCore.Json
import Mathlib.Algebra.Order.BigOperators.Group.List
import Mathlib.Algebra.Order.Ring.Nat

/-!
The compact text of a JSON value, and how many bytes it takes.

Every number is written in decimal; how a double is printed is left to the printer, a parameter.
-/

namespace SvmWasiCore.JsonText

open Json

/-! ### Strings -/

def hexDigit (n : ℕ) : Char := "0123456789abcdef".toList.getD n '0'

/-- What a character of a string is written as. -/
def escape (c : Char) : String :=
  match c.toNat with
  | 0x08 => "\\b"
  | 0x09 => "\\t"
  | 0x0a => "\\n"
  | 0x0c => "\\f"
  | 0x0d => "\\r"
  | 0x22 => "\\\""
  | 0x5c => "\\\\"
  | n =>
    if n < 0x20 then "\\u00" ++ .singleton (hexDigit (n / 16)) ++ .singleton (hexDigit (n % 16))
    else .singleton c

def escapeAll : List Char → String
  | [] => ""
  | c :: cs => escape c ++ escapeAll cs

def quote (s : String) : String := "\"" ++ escapeAll s.toList ++ "\""

/-! ### Values -/

variable (floatText : UInt64 → String)

def numberText : Number → String
  | .posInt n => n.toNat.repr
  | .negInt n => n.toInt.repr
  | .float bits => floatText bits

/-- A comma stands before every item but the first. -/
def separator (first : Bool) : String := if first then "" else ","

mutual

/-- `value.to_string()` -/
def toText : Value → String
  | .null => "null"
  | .bool b => if b then "true" else "false"
  | .number n => numberText floatText n
  | .string s => quote s
  | .array items => "[" ++ itemsText true items ++ "]"
  | .object members => "\x7b" ++ membersText true members ++ "\x7d"

def itemsText (first : Bool) : List Value → String
  | [] => ""
  | v :: items => separator first ++ toText v ++ itemsText false items

def membersText (first : Bool) : List (String × Value) → String
  | [] => ""
  | (key, v) :: members =>
    separator first ++ quote key ++ ":" ++ toText v ++ membersText false members

end

/-! ### Bytes -/

/-- Texts of these sizes, with commas between them. -/
def joined (sizes : List ℕ) : ℕ := sizes.sum + (sizes.length - 1)

def escapedSize (cs : List Char) : ℕ := (cs.map fun c => (escape c).utf8ByteSize).sum

def textSize (v : Value) : ℕ := (toText floatText v).utf8ByteSize

/-- The key, the colon and the value. -/
def memberSize (m : String × Value) : ℕ := (quote m.1).utf8ByteSize + 1 + textSize floatText m.2

lemma escapeAll_size (cs : List Char) : (escapeAll cs).utf8ByteSize = escapedSize cs := by
  induction cs with
  | nil => rfl
  | cons c cs ih =>
    rw [escapeAll, String.utf8ByteSize_append, ih, escapedSize, escapedSize, List.map_cons,
      List.sum_cons]

lemma quote_size (s : String) : (quote s).utf8ByteSize = 2 + escapedSize s.toList := by
  have hquote : "\"".utf8ByteSize = 1 := by decide
  rw [quote, String.utf8ByteSize_append, String.utf8ByteSize_append, escapeAll_size, hquote]
  omega

lemma separator_size (first : Bool) :
    (separator first).utf8ByteSize = if first then 0 else 1 := by
  cases first <;> decide

/-- Texts with commas between them, and one in front if they are not the first. -/
def commaSeparated (first : Bool) : List String → String
  | [] => ""
  | t :: ts => separator first ++ t ++ commaSeparated false ts

lemma commaSeparated_false_size (ts : List String) :
    (commaSeparated false ts).utf8ByteSize = (ts.map String.utf8ByteSize).sum + ts.length := by
  induction ts with
  | nil => rfl
  | cons t ts ih =>
    rw [commaSeparated, String.utf8ByteSize_append, String.utf8ByteSize_append, ih, separator_size,
      List.map_cons, List.sum_cons, List.length_cons]
    simp only [Bool.false_eq_true, if_false]
    omega

lemma commaSeparated_size (ts : List String) :
    (commaSeparated true ts).utf8ByteSize = joined (ts.map String.utf8ByteSize) := by
  cases ts with
  | nil => rfl
  | cons t ts =>
    rw [commaSeparated, String.utf8ByteSize_append, String.utf8ByteSize_append,
      commaSeparated_false_size, separator_size, joined, List.map_cons, List.sum_cons,
      List.length_cons, List.length_map, if_pos rfl]
    omega

lemma itemsText_eq (first : Bool) (items : List Value) :
    itemsText floatText first items = commaSeparated first (items.map (toText floatText)) := by
  induction items generalizing first with
  | nil => simp [itemsText, commaSeparated]
  | cons v items ih => rw [itemsText, ih, List.map_cons, commaSeparated]

def memberText (m : String × Value) : String := quote m.1 ++ ":" ++ toText floatText m.2

lemma membersText_eq (first : Bool) (members : List (String × Value)) :
    membersText floatText first members =
      commaSeparated first (members.map (memberText floatText)) := by
  induction members generalizing first with
  | nil => simp [membersText, commaSeparated]
  | cons m members ih =>
    obtain ⟨key, v⟩ := m
    rw [membersText, ih, List.map_cons, commaSeparated, memberText]
    simp only [String.append_assoc]

lemma memberText_size (m : String × Value) :
    (memberText floatText m).utf8ByteSize = memberSize floatText m := by
  have hcolon : ":".utf8ByteSize = 1 := by decide
  rw [memberText, String.utf8ByteSize_append, String.utf8ByteSize_append, hcolon]
  rfl

lemma textSize_string (s : String) :
    textSize floatText (.string s) = 2 + escapedSize s.toList := by
  rw [textSize, toText, quote_size]

lemma textSize_array (items : List Value) :
    textSize floatText (.array items) = 2 + joined (items.map (textSize floatText)) := by
  have hopen : "[".utf8ByteSize = 1 := by decide
  have hclose : "]".utf8ByteSize = 1 := by decide
  have hitems : items.map (String.utf8ByteSize ∘ toText floatText) =
      items.map (textSize floatText) := rfl
  rw [textSize, toText, String.utf8ByteSize_append, String.utf8ByteSize_append, itemsText_eq,
    commaSeparated_size, List.map_map, hopen, hclose, hitems]
  omega

lemma textSize_object (members : List (String × Value)) :
    textSize floatText (.object members) = 2 + joined (members.map (memberSize floatText)) := by
  have hopen : "\x7b".utf8ByteSize = 1 := by decide
  have hclose : "\x7d".utf8ByteSize = 1 := by decide
  have hmembers : members.map (String.utf8ByteSize ∘ memberText floatText) =
      members.map (memberSize floatText) :=
    List.map_congr_left fun m _ => memberText_size floatText m
  rw [textSize, toText, String.utf8ByteSize_append, String.utf8ByteSize_append, membersText_eq,
    commaSeparated_size, List.map_map, hopen, hclose, hmembers]
  omega

end SvmWasiCore.JsonText
