import ClusterMetadata.Table
import ClusterMetadata.Decimal.Binary64
import ClusterMetadata.Text.Basic

/-! Values as manifests and metadata documents hold them.

An object is a table of fields: it remembers the order of its keys and is read by key. Integers
have any size and are told apart from binary floating-point numbers. -/
namespace ClusterMetadata.Json

open Decimal (Binary64)

inductive Value where
  | null
  | bool (b : Bool)
  | int (n : Int)
  | float (x : Binary64)
  | string (s : Text)
  | array (items : List Value)
  | object (fields : List (Text × Value))
deriving Inhabited

abbrev Fields := Table Text Value

namespace Value

/-- A value that says nothing: null, false, zero, and the empty string, array and object. -/
def isBlank : Value → Bool
  | null => true
  | bool b => !b
  | int n => n == 0
  | float x => x.isZero
  | string s => s == ""
  | array items => items.isEmpty
  | object fields => fields.isEmpty

def isObject : Value → Bool
  | object _ => true
  | _ => false

/-- The fields of an object; a value of another form has none. -/
def fields? : Value → Option Fields
  | object fields => some fields
  | _ => none

mutual
/-- Equality of two trees, field order included. The first difference decides. -/
def decEq : (a b : Value) → Decidable (a = b)
  | null, b => match b with
    | null => isTrue rfl
    | bool _ | int _ | float _ | string _ | array _ | object _ => isFalse nofun
  | bool x, b => match b with
    | bool y => decidable_of_iff (x = y) (by simp)
    | null | int _ | float _ | string _ | array _ | object _ => isFalse nofun
  | int x, b => match b with
    | int y => decidable_of_iff (x = y) (by simp)
    | null | bool _ | float _ | string _ | array _ | object _ => isFalse nofun
  | float x, b => match b with
    | float y => decidable_of_iff (x = y) (by simp)
    | null | bool _ | int _ | string _ | array _ | object _ => isFalse nofun
  | string x, b => match b with
    | string y => decidable_of_iff (x = y) (by simp)
    | null | bool _ | int _ | float _ | array _ | object _ => isFalse nofun
  | array x, b => match b with
    | array y => have := decEqItems x y; decidable_of_iff (x = y) (by simp)
    | null | bool _ | int _ | float _ | string _ | object _ => isFalse nofun
  | object x, b => match b with
    | object y => have := decEqFields x y; decidable_of_iff (x = y) (by simp)
    | null | bool _ | int _ | float _ | string _ | array _ => isFalse nofun
termination_by structural a => a

def decEqItems : (a b : List Value) → Decidable (a = b)
  | [], b => match b with
    | [] => isTrue rfl
    | _ :: _ => isFalse nofun
  | x :: xs, b => match b with
    | [] => isFalse nofun
    | y :: ys =>
      match decEq x y with
      | isFalse differ => isFalse fun same => differ (List.cons.inj same).1
      | isTrue same =>
        have := decEqItems xs ys
        decidable_of_iff (xs = ys) (by simp [same])
termination_by structural a => a

def decEqFields : (a b : List (Text × Value)) → Decidable (a = b)
  | [], b => match b with
    | [] => isTrue rfl
    | _ :: _ => isFalse nofun
  | (k, x) :: xs, b => match b with
    | [] => isFalse nofun
    | (l, y) :: ys =>
      if key : k = l then
        match decEq x y with
        | isFalse differ => isFalse fun same => differ (Prod.mk.inj (List.cons.inj same).1).2
        | isTrue same =>
          have := decEqFields xs ys
          decidable_of_iff (xs = ys) (by simp [key, same])
      else isFalse fun same => key (Prod.mk.inj (List.cons.inj same).1).1
termination_by structural a => a
end

instance : DecidableEq Value := decEq

end Value

end ClusterMetadata.Json
