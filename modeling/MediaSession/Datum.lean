import MediaSession.Binary64.Rounding

namespace MediaSession

/-- A self-describing value, as a JSON or a TOML document holds it. -/
inductive Datum where
  | null
  | flag (value : Bool)
  | integer (value : Int)
  | real (value : Binary64)
  | text (value : String)
  | list (items : List Datum)
  | record (fields : List (String × Datum))
  deriving Inhabited, Repr

/-- The document languages; they differ in what stands for a value without content. -/
inductive Datum.Language where
  | json
  | toml
  deriving DecidableEq

/-- The value stored under `key`, the first one if the key is repeated. -/
def Datum.find? (key : String) : List (String × Datum) → Option Datum
  | [] => none
  | (k, v) :: rest => if k = key then some v else find? key rest

/-- Stores `value` under `key`, in place of an earlier value. -/
def Datum.put (key : String) (value : Datum) : List (String × Datum) → List (String × Datum)
  | [] => [(key, value)]
  | (k, v) :: rest => if k = key then (k, value) :: rest else (k, v) :: put key value rest

def Datum.field? (key : String) : Datum → Option Datum
  | .record fields => find? key fields
  | _ => none

def Datum.text? : Datum → Option String
  | .text value => some value
  | _ => none

def Datum.flag? : Datum → Option Bool
  | .flag value => some value
  | _ => none

/-- A whole number below `bound`; numbers written with a fraction or an exponent do not count. -/
def Datum.below? (bound : Nat) : Datum → Option Nat
  | .integer value => if 0 ≤ value ∧ value < bound then some value.toNat else none
  | _ => none

def Datum.word? : Datum → Option UInt32
  | .integer value =>
    if 0 ≤ value ∧ value < 0x100000000 then some (UInt32.ofNat value.toNat) else none
  | _ => none

def Datum.number? : Datum → Option Binary64
  | .integer value => some (Binary64.ofInt value)
  | .real value => some value
  | _ => none

def Datum.list? (item : Datum → Option α) : Datum → Option (List α)
  | .list items => items.mapM item
  | _ => none

end MediaSession
