/-! # TOML values and tables

What a settings text says, and how its lines build it up. A table remembers how it came about,
because that decides which later lines may add to it. -/

namespace ObjectTracking

/-- How a table came about. -/
inductive TableOrigin where
  /-- Its own header names it, or it is an element of an array of tables. -/
  | header
  /-- A longer header passes through it. -/
  | passed
  /-- A dotted key passes through it. -/
  | dotted
  /-- It is written in braces, complete. -/
  | closed
  deriving DecidableEq, Repr

inductive Toml where
  | string (text : String)
  | integer (value : Int)
  | float (value : Float)
  | boolean (value : Bool)
  /-- A date, a time, or both. No setting takes one, so its value is not kept. -/
  | datetime
  | array (items : List Toml)
  | table (origin : TableOrigin) (entries : List (String × Toml))
  /-- The tables under one repeated header, the latest first. -/
  | tables (latestFirst : List (List (String × Toml)))
  deriving Inhabited

namespace Toml

/-- The entries of a table, in no particular order; no key stands twice. -/
abbrev Entries := List (String × Toml)

namespace Entries

def get? (entries : Entries) (key : String) : Option Toml := entries.lookup key

def put (entries : Entries) (key : String) (value : Toml) : Entries :=
  (key, value) :: entries.filter (·.1 ≠ key)

/-- Changes the table that a path leads to, which is told how that table came about. Tables that are
missing on the way are added; under a repeated header the path goes on in the latest table. A
dotted key does not go into a table with a header of its own, and nothing goes into a table in
braces or through another value. -/
def within (dotted : Bool) (change : TableOrigin → Entries → Option Entries)
    (origin : TableOrigin) : List String → Entries → Option Entries
  | [], entries => change origin entries
  | key :: path, entries => do
    match entries.get? key with
    | none =>
      let origin := if dotted then .dotted else .passed
      return entries.put key (.table origin (← within dotted change origin path []))
    | some (.tables (latest :: earlier)) =>
      let latest ← within dotted change .header path latest
      return entries.put key (.tables (latest :: earlier))
    | some (.table origin inner) =>
      if origin = .closed || dotted && origin = .header then none
      else return entries.put key (.table origin (← within dotted change origin path inner))
    | some _ => none

/-- Adds a line `path.key = value`. The key must be new, and a dotted key may end only in tables
that dotted keys made. -/
def addPair (entries : Entries) (path : List String) (key : String) (value : Toml) :
    Option Entries :=
  within true (fun origin table =>
    if !path.isEmpty && origin ≠ .dotted then none
    else if (table.get? key).isSome then none
    else some (table.put key value)) .header path entries

end Entries

/-! ### Sections -/

/-- Where the lines of a section go. -/
inductive Header where
  /-- The lines before the first header. -/
  | top
  | table (path : List String) (key : String)
  | element (path : List String) (key : String)
  deriving Repr

structure Pair where
  path : List String
  key : String
  value : Toml

/-- A header with the lines up to the next. -/
structure Section where
  header : Header
  pairs : List Pair

def addPairs (pairs : List Pair) (entries : Entries) : Option Entries :=
  pairs.foldlM (fun entries pair => entries.addPair pair.path pair.key pair.value) entries

/-- Adds a section. A header may name a table that longer headers passed through before, but none
that has been named before or that is something else. -/
def addSection (root : Entries) (sec : Section) : Option Entries :=
  match sec.header with
  | .top => addPairs sec.pairs root
  | .table path key =>
    Entries.within false (fun _ parent => do
      let start ← match parent.get? key with
        | none => some []
        | some (.table .passed inner) => some inner
        | some _ => none
      return parent.put key (.table .header (← addPairs sec.pairs start))) .header path root
  | .element path key =>
    Entries.within false (fun _ parent => do
      let earlier ← match parent.get? key with
        | none => some []
        | some (.tables earlier) => some earlier
        | some _ => none
      return parent.put key (.tables ((← addPairs sec.pairs []) :: earlier))) .header path root

def ofSections (sections : List Section) : Option Entries := sections.foldlM addSection []

/-! ### Taking values apart -/

def toNat? (max : Nat) : Toml → Option Nat
  | integer n => if 0 ≤ n ∧ n ≤ max then some n.toNat else none
  | _ => none

def toText? : Toml → Option String
  | string text => some text
  | _ => none

def toBool? : Toml → Option Bool
  | boolean b => some b
  | _ => none

def toList? : Toml → Option (List Toml)
  | array items => some items
  | tables latestFirst => some (latestFirst.reverse.map (table .header))
  | _ => none

/-- The value as one of several names: its text, or the only key of a table, with nothing in it. -/
def toName? : Toml → Option String
  | string text => some text
  | table _ [(name, content)] =>
    match content with
    | table _ [] | array [] => some name
    | _ => none
  | _ => none

/-- The named fields of a record, those that are given. A record is written as a table, in which
other keys are passed over, or as the list of its fields, of which the last may be left out. -/
def fields? (names : List String) : Toml → Option (List (Option Toml))
  | table _ entries => some (names.map fun name => Entries.get? entries name)
  | value => value.toList?.map fun items => names.zipIdx.map fun (_, i) => items[i]?

end Toml

end ObjectTracking
