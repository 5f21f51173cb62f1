import AgentParty.Shared.Mentions
import Mathlib.Data.Rat.Defs

/-! JavaScript values as `JSON.parse` makes them and as the patches of a conversation change them.
An object is its fields in the order they were added. -/

namespace AgentParty

open Mentions (Text)

inductive Json
  | undefined
  | null
  | bool (value : Bool)
  | num (value : ℚ)
  | str (text : Text)
  | arr (items : List Json)
  | obj (fields : List (Text × Json))

/-- The code units of an ASCII literal. -/
def lit (text : String) : Text := text.toList.map fun c => c.toNat

/-- A text is in a list if one of its elements has the same units. -/
instance decidableMemTexts (text : Text) (texts : List Text) : Decidable (text ∈ texts) :=
  decidable_of_iff (texts.any fun t => t = text) (by simp)

namespace Json

section Fields

variable {α : Type*}

def getField (key : Text) : List (Text × α) → Option α
  | [] => none
  | (k, value) :: fields => if k = key then some value else getField key fields

def setField (key : Text) (value : α) : List (Text × α) → List (Text × α)
  | [] => [(key, value)]
  | (k, old) :: fields =>
    if k = key then (k, value) :: fields else (k, old) :: setField key value fields

end Fields

/-- `value.key`, which is undefined for a value that has no such field. -/
def get (value : Json) (key : String) : Json :=
  match value with
  | .obj fields => (getField (lit key) fields).getD .undefined
  | _ => .undefined

def str? : Json → Option Text
  | .str text => some text
  | _ => none

def num? : Json → Option ℚ
  | .num value => some value
  | _ => none

def arr? : Json → Option (List Json)
  | .arr items => some items
  | _ => none

/-- `object(value)`. -/
def isObject : Json → Bool
  | .obj _ => true
  | _ => false

/-- `value === "text"`. -/
def isText (value : Json) (text : String) : Bool := value.str? = some (lit text)

end Json

end AgentParty
