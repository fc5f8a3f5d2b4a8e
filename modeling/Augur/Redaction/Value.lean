/-
# Secrets in values

Values lose what stands under a sensitive name at any depth, and every text in
them is redacted as a text. Names, lengths and all other values stay. The walk
over a value calls itself for what is in it, and who walks may not have room for
so many calls at once.

Key definitions: `Redaction.value`, `Redaction.calls`.
-/
import Augur.Json.Basic
import Augur.Redaction.Secret

namespace Augur.Redaction

mutual

/-- A value without its secrets. -/
def value : Json → Json
  | .text s => .text (text s)
  | .list items => .list (values items)
  | .object fields => .object (record fields)
  | v => v

/-- Values without their secrets. -/
def values : List Json → List Json
  | [] => []
  | v :: r => value v :: values r

/-- Fields without their secrets. -/
def record : List (String × Json) → List (String × Json)
  | [] => []
  | (k, v) :: r => (k, if isSensitive k then .text mark else value v) :: record r

end

/-! ### Calls within calls -/

mutual

/-- How many calls are open at once on a walk over a value; a list takes two for each item. -/
def calls : Json → Nat
  | .list items => 2 + callsOfItems items
  | .object fields => 1 + callsOfFields fields
  | _ => 1

/-- The most calls for an item. -/
def callsOfItems : List Json → Nat
  | [] => 0
  | v :: r => max (calls v) (callsOfItems r)

/-- The most calls for a field. -/
def callsOfFields : List (String × Json) → Nat
  | [] => 0
  | (_, v) :: r => max (calls v) (callsOfFields r)

end

end Augur.Redaction
