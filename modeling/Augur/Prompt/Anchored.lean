/-
# Dates in templates

A template names a date by an anchor between double braces. Anchors that the
calendar knows give way to their dates; every other character stays, unknown
names with their braces included.

Key definitions: `Prompt.Part`, `Prompt.parts`, `Prompt.withDates`.
-/
import Augur.Calendar.Anchors

namespace Augur.Prompt

/-- The characters of anchor names. -/
def isNameChar (c : Char) : Bool := ('A' ≤ c && c ≤ 'Z') || c == '_'

/-- The name that a text starts with, between double braces, and what follows it. -/
def name? : List Char → Option (List Char × List Char)
  | '{' :: '{' :: r =>
    let name := r.takeWhile isNameChar
    match r.drop name.length with
    | '}' :: '}' :: rest => if name.isEmpty then none else some (name, rest)
    | _ => none
  | _ => none

/-- A part of a template: a character of its own or a name between double braces. -/
inductive Part where
  | char (c : Char)
  | name (cs : List Char)
  deriving DecidableEq, Repr

/-- The parts of a template, where the next `skip` characters belong to the name before. -/
def partsFrom : Nat → List Char → List Part
  | _, [] => []
  | 0, c :: r =>
    match name? (c :: r) with
    | some (name, _) => .name name :: partsFrom (name.length + 3) r
    | none => .char c :: partsFrom 0 r
  | skip + 1, _ :: r => partsFrom skip r

/-- The parts of a template. -/
def parts (template : String) : List Part := partsFrom 0 template.toList

/-- A part with its date, if it is the name of one. -/
def Part.withDate (dates : List (String × Date)) : Part → List Char
  | char c => [c]
  | name cs =>
    match dates.find? fun d => d.1.toList == cs with
    | some d => d.2.iso.toList
    | none => ['{', '{'] ++ cs ++ ['}', '}']

/-- A template with the dates of the calendar on the day `today`; nothing when one of them is
out of range. -/
def withDates (template : String) (today : Date) : Option String :=
  today.anchors?.map fun dates =>
    String.ofList ((parts template).flatMap (Part.withDate dates))

end Augur.Prompt
