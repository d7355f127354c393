/-!
# Values of TOML documents

A table knows where it comes from, as only some tables can be opened again. Names are unique in a table.
-/
namespace Floppy.Toml

inductive Origin where
  /-- Named by a header. -/
  | header
  /-- On the way to a header's table. -/
  | implied
  /-- On the way to a dotted key. -/
  | dotted
  /-- Written between braces. -/
  | inline
deriving DecidableEq, Repr

inductive Value where
  | string (text : String)
  | integer (value : Int)
  | float (lexeme : String)
  | boolean (value : Bool)
  | datetime (lexeme : String)
  | array (elements : List Value)
  /-- An array that headers add tables to: the last table, and those before it, latest first. -/
  | tables (last : List (String × Value)) (earlier : List (List (String × Value)))
  | table (origin : Origin) (entries : List (String × Value))
deriving Repr

/-- Names and their values, in no particular order. -/
abbrev Entries := List (String × Value)

namespace Entries

def entry? : Entries → String → Option Value
  | [], _ => none
  | (n, v) :: rest, name => if n = name then some v else entry? rest name

def add (entries : Entries) (name : String) (value : Value) : Entries := (name, value) :: entries

def replace (entries : Entries) (name : String) (value : Value) : Entries :=
  entries.map fun e => if e.1 = name then (name, value) else e

/-- Changes the table that a header's path leads to. Missing tables are implied; of an open array the last
table counts. -/
def follow (change : Entries → Option Entries) : List String → Entries → Option Entries
  | [], entries => change entries
  | name :: path, entries =>
    match entries.entry? name with
    | none => (follow change path []).map fun t => entries.add name (.table .implied t)
    | some (.table .inline _) => none
    | some (.table origin t) => (follow change path t).map fun t => entries.replace name (.table origin t)
    | some (.tables last earlier) =>
      (follow change path last).map fun t => entries.replace name (.tables t earlier)
    | some _ => none

/-- Opens the table of a header. It may be implied by now, but not be defined. -/
def openTable (name : String) (entries : Entries) : Option Entries :=
  match entries.entry? name with
  | none => some (entries.add name (.table .header []))
  | some (.table .implied t) => some (entries.replace name (.table .header t))
  | some _ => none

/-- Adds a table to an open array, or begins one. -/
def openElement (name : String) (entries : Entries) : Option Entries :=
  match entries.entry? name with
  | none => some (entries.add name (.tables [] []))
  | some (.tables last earlier) => some (entries.replace name (.tables [] (last :: earlier)))
  | some _ => none

/-- Defines a key with dots in front of it. It can add to a table that other dotted keys began, and to no
other table. -/
def define (name : String) (value : Value) : List String → Entries → Option Entries
  | [], entries => if (entries.entry? name).isSome then none else some (entries.add name value)
  | first :: path, entries =>
    match entries.entry? first with
    | none => (define name value path []).map fun t => entries.add first (.table .dotted t)
    | some (.table .dotted t) =>
      (define name value path t).map fun t => entries.replace first (.table .dotted t)
    | some (.table .implied t) =>
      if path = [] then none
      else (define name value path t).map fun t => entries.replace first (.table .implied t)
    | some (.tables last earlier) =>
      if path = [] then none
      else (define name value path last).map fun t => entries.replace first (.tables t earlier)
    | some _ => none

end Entries
end Floppy.Toml
