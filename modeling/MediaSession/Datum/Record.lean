import MediaSession.Datum

namespace MediaSession

/--
The fields `keys` of a record in that order, each with its value if there is one. A record may also
be written as the list of its field values; a `padded` list may end early.
-/
def Datum.fields (language : Language) (padded : Bool) (keys : List String) :
    Datum → Option (List (Option Datum))
  | .record fields => some (keys.map (find? · fields))
  | .list items =>
    if keys.length < items.length then
      if language = .toml then some ((items.take keys.length).map some) else none
    else if items.length = keys.length ∨ padded then
      some (items.map some ++ List.replicate (keys.length - items.length) none)
    else none
  | _ => none

def Datum.required (read : Datum → Option α) (field : Option Datum) : Option α := field.bind read

def Datum.optional (read : Datum → Option α) : Option Datum → Option (Option α)
  | none => some none
  | some .null => some none
  | some value => (read value).map some

def Datum.orElse (fallback : α) (read : Datum → Option α) : Option Datum → Option α
  | none => some fallback
  | some value => read value

/-- The value without content that may accompany the name of an alternative. -/
def Datum.isUnit : Language → Datum → Bool
  | .json, .null => true
  | .toml, .list [] => true
  | .toml, .record [] => true
  | _, _ => false

/-- One of several named alternatives, written as its name or as a record with its name alone. -/
def Datum.named (language : Language) (all : List α) (name : α → String) : Datum → Option α
  | .text value => all.find? (name · == value)
  | .record [(key, value)] =>
    if value.isUnit language then all.find? (name · == key) else none
  | _ => none

def Datum.present (fields : List (String × Option Datum)) : Datum :=
  .record (fields.filterMap fun field => field.2.map (field.1, ·))

def Datum.ofWord (value : UInt32) : Datum := .integer value.toNat

def Datum.texts (values : List String) : Datum := .list (values.map .text)

theorem Datum.word?_ofWord (value : UInt32) : (ofWord value).word? = some value := by
  have h := value.toNat_lt
  simp [ofWord, word?]
  omega

end MediaSession
