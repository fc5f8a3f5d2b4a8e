/-
# Values for the journal

What may be written to the journal: JSON values, moments, dates and paths, and
lists and objects of these. The written form has no secrets; moments are told
in UTC. A foreign value has no written form, unless it is hidden under a
sensitive name.

Key definitions: `Loggable`, `Loggable.written`.
-/
import Augur.Calendar.Timestamp
import Augur.Redaction.Value
import Augur.Text.Path

namespace Augur

/-- A value to be written to the journal. -/
inductive Loggable where
  | json (v : Json)
  | moment (t : Timestamp)
  | day (d : Date)
  | path (p : String)
  | foreign
  | list (items : List Loggable)
  | object (fields : List (String × Loggable))
  deriving Inhabited

/-- Why a journal entry is not written. -/
inductive JournalFault where
  /-- The folder cannot be written to. -/
  | unwritable
  | foreignValue
  /-- A moment has no form in UTC. -/
  | timeOutOfRange
  /-- A value is nested too deeply to be walked over. -/
  | tooDeep
  deriving DecidableEq, Repr

namespace Loggable

mutual

/-- The written form of a value. -/
def written : Loggable → Except JournalFault Json
  | json v => .ok (Redaction.value v)
  | moment t =>
    match t.toUtc? with
    | some u => .ok (.text u.utcIso)
    | none => .error .timeOutOfRange
  | day d => .ok (.text d.iso)
  | path p => .ok (.text (Text.plainPath p))
  | foreign => .error .foreignValue
  | list items => (writtenItems items).map .list
  | object fields => (writtenFields fields).map .object

/-- The written forms of items. -/
def writtenItems : List Loggable → Except JournalFault (List Json)
  | [] => .ok []
  | v :: r => do
    let w ← written v
    return w :: (← writtenItems r)

/-- The written forms of fields. -/
def writtenFields : List (String × Loggable) → Except JournalFault (List (String × Json))
  | [] => .ok []
  | (k, v) :: r => do
    let w ← if Redaction.isSensitive k then .ok (.text Redaction.mark) else written v
    return (k, w) :: (← writtenFields r)

end

end Loggable

end Augur
