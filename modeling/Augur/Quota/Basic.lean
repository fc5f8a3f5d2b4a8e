/-
# Quotas

How many requests a caller may make within a window of time. The counters of
the callers are kept in a store of entries that expire. The window of a caller
opens with the first request, or with the first one after the window has
passed, and later requests are counted against it; a request that is denied
changes nothing. When the store fails or holds what is no counter, the request
is allowed and an error is reported.

Key definitions: `Quota`, `Quota.ofFields`, `Counters`, `Quota.decide`,
`Quota.check`.
-/
import Augur.Log.Line
import Augur.Quota.Clock
import Augur.Schema.Number

namespace Augur

/-- A limit on the requests of each caller in a window. -/
structure Quota where
  maxRequests : Nat
  windowSeconds : Nat
  maxRequests_pos : 0 < maxRequests
  windowSeconds_pos : 0 < windowSeconds

/-- Entries that expire; the latest entry of a key counts. -/
structure Counters (τ : Type) where
  entries : List (String × Json.Fields × τ)
  isReachable : Bool

/-- Whether a request may be made, and how many more after it. -/
structure Decision where
  allowed : Bool
  remaining : Int
  deriving DecidableEq, Repr

namespace Counters

variable {τ : Type} [Clock τ]

def empty : Counters τ := ⟨[], true⟩

/-- The entry of a key and when it expires. -/
def find? (key : String) (s : Counters τ) : Option (Json.Fields × τ) :=
  (s.entries.find? fun e => e.1 == key).map (·.2)

/-- The store without the entry of a key. -/
def erase (key : String) (s : Counters τ) : Counters τ :=
  { s with entries := s.entries.filter fun e => e.1 != key }

/-- The value of a key at a time; an entry that has expired is dropped. -/
def get (now : τ) (key : String) (s : Counters τ) : Counters τ × Option Json.Fields :=
  match s.find? key with
  | none => (s, none)
  | some (value, expiry) =>
    if Clock.reached now expiry then (s.erase key, none) else (s, some value)

/-- The store with a value set, to expire at the given time. -/
def put (key : String) (value : Json.Fields) (expiry : τ) (s : Counters τ) : Counters τ :=
  { s.erase key with entries := (key, value, expiry) :: (s.erase key).entries }

end Counters

namespace Quota

/-- A field that must hold a positive integer. -/
def positive (key : String) (fields : Json.Fields) : Schema.Checked { n : Nat // 0 < n } :=
  Schema.required key (fun v => (Schema.integer v).andThen fun n =>
    if h : 0 < n.toNat then .ok ⟨n.toNat, h⟩ else .fault (.above "0")) fields

/-- The quota of a record. -/
def ofFields (fields : Json.Fields) : Schema.Checked Quota :=
  ((positive "max_requests" fields).both (positive "window_seconds" fields)).map fun p =>
    ⟨p.1.1, p.2.1, p.1.2, p.2.2⟩

/-- A quota as a record. -/
def fields (q : Quota) : Json.Fields :=
  [("max_requests", .int q.maxRequests), ("window_seconds", .int q.windowSeconds)]

/-- An integer in an entry. -/
def number? : Json → Option Int
  | .int n => some n
  | .bool b => some (if b then 1 else 0)
  | .double x => x.truncate?
  | .text s => Numeral.readInt? s
  | _ => none

/-- The entry of a counter. -/
def entry (count windowStart : Int) : Json.Fields :=
  [("count", .int count), ("window_start", .int windowStart)]

/-- The key of a caller. -/
def key (caller : String) : String :=
  "ratelimit:ask:" ++ (if caller.isEmpty then "unknown" else caller)

/-- A number of an entry that counts as zero when it is missing. -/
def numberOrZero? (name : String) (data : Json.Fields) : Option Int :=
  number? ((Json.lookup name data).getD (.int 0))

/-- The decision on a request at a time in whole seconds, given the entry of the caller, and the
new entry if there is one; nothing when the entry is no counter. -/
def decide (q : Quota) (seconds : Int) : Option Json.Fields → Option (Decision × Option Json.Fields)
  | none => some (⟨true, q.maxRequests - 1⟩, some (entry 1 seconds))
  | some data => do
    let start ← numberOrZero? "window_start" data
    if (q.windowSeconds : Int) ≤ seconds - start then
      return (⟨true, q.maxRequests - 1⟩, some (entry 1 seconds))
    else
      let count ← numberOrZero? "count" data
      if (q.maxRequests : Int) ≤ count then return (⟨false, 0⟩, none)
      else
        let start ← (Json.lookup "window_start" data).bind number?
        return (⟨true, q.maxRequests - count - 1⟩, some (entry (count + 1) start))

/-- The decision when the counters cannot be used. -/
def onFailure (q : Quota) : Decision × List LogLine :=
  (⟨true, q.maxRequests - 1⟩, [.error "Rate limit check failed; allowing request" []])

variable {τ : Type} [Clock τ]

/-- The decision on a request of a caller at a time, and the counters after it. -/
def checkAt (q : Quota) (now : τ) (seconds : Int) (caller : String) (s : Counters τ) :
    Decision × Counters τ × List LogLine :=
  if !s.isReachable then (q.onFailure.1, s, q.onFailure.2)
  else
    let r := s.get now (key caller)
    match q.decide seconds r.2 with
    | none => (q.onFailure.1, r.1, q.onFailure.2)
    | some (d, none) => (d, r.1, [])
    | some (d, some data) =>
      (d, r.1.put (key caller) data (Clock.later now q.windowSeconds), [])

/-- The decision on a request of a caller at a time, and the counters after it; nothing when the
time has no whole seconds. -/
def check (q : Quota) (now : τ) (caller : String) (s : Counters τ) :
    Option (Decision × Counters τ × List LogLine) :=
  (Clock.seconds? now).map fun seconds => q.checkAt now seconds caller s

end Quota

end Augur
