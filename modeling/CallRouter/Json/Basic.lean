import CallRouter.Number.Decimal

/-!
JSON values. Numbers without fraction and exponent are integers, all others are binary64 numbers,
and neither kind is ever taken for the other. The entries of a dictionary are kept in the order of
their keys.
-/

namespace CallRouter

inductive Number where
  | int (value : Int)
  | float (value : Binary64)
  deriving DecidableEq, Repr, Inhabited

inductive Json where
  | null
  | bool (value : Bool)
  | number (value : Number)
  | text (value : String)
  | list (items : List Json)
  | dict (entries : List (String × Json))
  deriving Repr, Inhabited

abbrev Dict := List (String × Json)

namespace Json

mutual

def decEq (x y : Json) : Decidable (x = y) :=
  match x, y with
  | .null, .null => isTrue rfl
  | .bool a, .bool b => decidable_of_iff (a = b) (by simp)
  | .number a, .number b => decidable_of_iff (a = b) (by simp)
  | .text a, .text b => decidable_of_iff (a = b) (by simp)
  | .list a, .list b =>
    match decEqItems a b with
    | isTrue same => isTrue (by rw [same])
    | isFalse differ => isFalse (by simpa using differ)
  | .dict a, .dict b =>
    match decEqEntries a b with
    | isTrue same => isTrue (by rw [same])
    | isFalse differ => isFalse (by simpa using differ)
  | .null, .bool _ | .null, .number _ | .null, .text _ | .null, .list _ | .null, .dict _
  | .bool _, .null | .bool _, .number _ | .bool _, .text _ | .bool _, .list _ | .bool _, .dict _
  | .number _, .null | .number _, .bool _ | .number _, .text _ | .number _, .list _
  | .number _, .dict _
  | .text _, .null | .text _, .bool _ | .text _, .number _ | .text _, .list _ | .text _, .dict _
  | .list _, .null | .list _, .bool _ | .list _, .number _ | .list _, .text _ | .list _, .dict _
  | .dict _, .null | .dict _, .bool _ | .dict _, .number _ | .dict _, .text _
  | .dict _, .list _ => isFalse (by simp)

def decEqItems (xs ys : List Json) : Decidable (xs = ys) :=
  match xs, ys with
  | [], [] => isTrue rfl
  | [], _ :: _ | _ :: _, [] => isFalse (by simp)
  | x :: xs, y :: ys =>
    match decEq x y, decEqItems xs ys with
    | isTrue same, isTrue rest => isTrue (by rw [same, rest])
    | isFalse differ, _ => isFalse (by simp [differ])
    | _, isFalse differ => isFalse (by simp [differ])

def decEqEntries (xs ys : List (String × Json)) : Decidable (xs = ys) :=
  match xs, ys with
  | [], [] => isTrue rfl
  | [], _ :: _ | _ :: _, [] => isFalse (by simp)
  | (k, x) :: xs, (l, y) :: ys =>
    match decEq x y, decEqEntries xs ys with
    | isTrue same, isTrue rest =>
      if key : k = l then isTrue (by rw [same, rest, key]) else isFalse (by simp [key])
    | isFalse differ, _ => isFalse (by simp [differ])
    | _, isFalse differ => isFalse (by simp [differ])

end

instance : DecidableEq Json := decEq

def ofNat (n : Nat) : Json := .number (.int n)

def ofInt (n : Int) : Json := .number (.int n)

def nat? : Json → Option Nat
  | .number (.int value) => if 0 ≤ value then some value.toNat else none
  | _ => none

def int64? : Json → Option Int
  | .number (.int value) => if value < 9223372036854775808 then some value else none
  | _ => none

def text? : Json → Option String
  | .text value => some value
  | _ => none

def list? : Json → Option (List Json)
  | .list items => some items
  | _ => none

def dict? : Json → Option Dict
  | .dict entries => some entries
  | _ => none

@[simp] theorem nat?_ofNat (n : Nat) : (ofNat n).nat? = some n := by simp [ofNat, nat?]

end Json

namespace Dict

/-- The order of keys: by code point, a shorter key before its extensions. -/
def keyBefore : List Char → List Char → Bool
  | _, [] => false
  | [], _ :: _ => true
  | a :: as, b :: bs => if a = b then keyBefore as bs else decide (a.toNat < b.toNat)

def inOrder (a b : String) : Bool := !keyBefore b.toList a.toList

def get? (dict : Dict) (key : String) : Option Json := dict.lookup key

/-- Sets the value of a key, keeping the entries in order. -/
def insert (key : String) (value : Json) : Dict → Dict
  | [] => [(key, value)]
  | (k, v) :: rest =>
    if k = key then (key, value) :: rest
    else if keyBefore key.toList k.toList then (key, value) :: (k, v) :: rest
    else (k, v) :: insert key value rest

/-- The entries in order; of entries with one key the last counts. -/
def ofEntries (entries : List (String × Json)) : Dict :=
  entries.foldl (fun dict entry => insert entry.1 entry.2 dict) []

end Dict

end CallRouter
