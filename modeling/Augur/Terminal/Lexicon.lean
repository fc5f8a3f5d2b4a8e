/-
# What a terminal knows

Styles, pictures and handlers stand in texts under their names. What the names
mean is left to the terminal: the normal name under which a style is opened and
closed, the picture that a code stands for, and what a handler is called with.
How a text is drawn in its styles is its matter too.

Key definitions: `Lexicon`, `Lexicon.attributes`.
-/
import Augur.Terminal.Wrap
import Augur.Text.LowerCase

namespace Augur

/-- The names that a terminal knows. -/
class Lexicon where
  /-- The normal name of a style; none for a name that cannot be read. -/
  styleName? : String → Option String
  /-- The picture of a name in small letters. -/
  picture? : String → Option String
  /-- Whether a handler can be called with what stands behind its name. -/
  readsCall : String → Bool
  /-- Whether a style is found, or passed over, where a text is drawn in it. -/
  findsStyle : String → Bool
  /-- Whether the lines of a text in a column of some width are drawn. -/
  drawsCell : Terminal.Overflow → Nat → String → Bool

namespace Lexicon

/-- What a style may do to a text, in the order in which it is named. -/
def attributes : List String := [
  "bold", "dim", "italic", "underline", "blink", "blink2", "reverse", "conceal", "strike",
  "underline2", "frame", "encircle", "overline"]

/-- The short names of attributes. -/
def shortNames : List (String × String) := [
  ("b", "bold"), ("c", "conceal"), ("d", "dim"), ("i", "italic"), ("o", "overline"),
  ("r", "reverse"), ("s", "strike"), ("u", "underline"), ("uu", "underline2")]

/-- The attribute of a name. -/
def attribute? (name : String) : Option String :=
  let long := (shortNames.lookup name).getD name
  if attributes.contains long then some long else none

/-- The words of a text. -/
def words (s : String) : List String :=
  ((Terminal.splitAll Text.isBlank s.toList).filter (!·.isEmpty)).map String.ofList

/-- The attributes that words ask for, each with whether it is wanted; none when some word is no
attribute. -/
def wanted? : List String → Option (List (String × Bool))
  | [] => some []
  | [w] => (attribute? (Text.lower w)).map fun a => [(a, true)]
  | w :: v :: r =>
    if Text.lower w = "not" then do
      let a ← attribute? v
      let l ← wanted? r
      return (a, false) :: l
    else do
      let a ← attribute? (Text.lower w)
      let l ← wanted? (v :: r)
      return (a, true) :: l

/-- A style that is made of attributes under its normal name: each attribute once, as it is asked
for last. Any other style under its own name in small letters. -/
def normalName (s : String) : String :=
  match wanted? (words s) with
  | some (a :: l) =>
    " ".intercalate <| attributes.filterMap fun name =>
      ((a :: l).reverse.lookup name).map fun on => if on then name else "not " ++ name
  | _ => Text.lower (Text.strip s)

/-- Pictures of the weather. -/
def weather : List (String × String) := [
  ("sunny", "☀"), ("cloud", "☁"), ("umbrella", "☂"), ("snowflake", "❄"), ("zap", "⚡"),
  ("rainbow", "🌈"), ("ocean", "🌊"), ("foggy", "🌁")]

/-- Whether a call has no arguments. -/
def isBareCall (s : String) : Bool :=
  let name := (Text.strip s).toList.takeWhile fun c => c.isAlphanum || c == '_' || c == '.'
  ["", "()"].contains (String.ofList ((Text.strip s).toList.drop name.length))

/-- A terminal that knows attributes but no colours, some pictures, and calls without arguments. -/
instance plain : Lexicon where
  styleName? s := some (normalName s)
  picture? name := weather.lookup name
  readsCall := isBareCall
  findsStyle _ := true
  drawsCell _ _ _ := true

end Lexicon

end Augur
