/-
# Where a store is kept

The address of a store names its kind and its place: in memory, for as long as
a command runs, or in a file. It is written `sqlite://` for memory and
`sqlite:///` with the path behind it for a file. No address has a host.

Key definitions: `Store.Place`, `Store.placeOf`.
-/
import Augur.Store.Basic
import Augur.Text.Path
import Augur.Text.Search
import Augur.Text.Word

namespace Augur.Store

/-- Where a store is kept. -/
inductive Place where
  | memory
  | file (path : String)
  deriving DecidableEq, Repr

/-- The place of a path in an address. -/
def placeAt (path : String) : Place :=
  if path.isEmpty || path == ":memory:" then .memory else .file (Text.plainPath path)

/-- Whether a character may stand in the name of a kind of store. -/
def isKindChar (c : Char) : Bool := Text.isWord c || c == '+'

/-- The names of the kinds of store that there are. -/
def kinds : List String := ["sqlite", "sqlite+pysqlite"]

/-- The place that an address names. -/
def placeOf (url : String) : Except StoreFault Place :=
  let cs := url.toList
  let kind := cs.takeWhile isKindChar
  let rest := cs.drop kind.length
  if !Text.startsWith "sqlite".toList cs then .error .notSqlite
  else if !Text.startsWith "://".toList rest then .error .badAddress
  else if !(kinds.contains (String.ofList kind)) then .error .unknownDriver
  else
    match (rest.drop 3).takeWhile (· != '?') with
    | [] => .ok .memory
    | '/' :: path => .ok (placeAt (String.ofList path))
    | _ => .error .badAddress

end Augur.Store
