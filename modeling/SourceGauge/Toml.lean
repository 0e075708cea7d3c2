/-
# SourceGauge.Toml -- TOML values and how a document defines them

A table knows whether a header or a pair named it, or it only came about as part
of a longer name (`implicit`), and whether that name was a dotted key.  A header
may name an implicit table once, unless a dotted key made it; a dotted key may
extend only tables that dotted keys made (`Toml.update?`, `Toml.addPair?`,
`Toml.addTable?`).  Each of these fails when a name is defined twice.
-/

namespace SourceGauge

set_option autoImplicit false

/-- A TOML value.  Floats and points in time keep no value, since nothing reads
them. -/
inductive Toml where
  | string (text : String)
  | integer (value : Int)
  | float
  | boolean (value : Bool)
  | dateTime
  | array (items : List Toml)
  /-- A table in braces, which nothing can extend. -/
  | closed (fields : List (String × Toml))
  | table (implicit dotted : Bool) (fields : List (String × Toml))
  /-- The tables of an array of tables, the last one first. -/
  | tables (reversed : List Toml)

namespace Toml

def root : Toml := table false false []

def lookUp (name : String) (fields : List (String × Toml)) : Option Toml :=
  (fields.find? fun field => field.1 = name).map (·.2)

def set (name : String) (value : Toml) : List (String × Toml) → List (String × Toml)
  | [] => [(name, value)]
  | field :: rest =>
      if field.1 = name then (name, value) :: rest else field :: set name value rest

/-- Change the table at the end of some names, making the tables that are missing
on the way; `dotted` when the names are those of a dotted key. -/
def update? (dotted : Bool) (change : Toml → Option Toml) : List String → Toml → Option Toml
  | [], value => change value
  | name :: names, table implicit wasDotted fields =>
      let inner := match lookUp name fields with
        | none => update? dotted change names (table true dotted [])
        | some (table isImplicit isDotted inner) =>
            if dotted && !isImplicit then none
            else update? dotted change names (table isImplicit isDotted inner)
        | some (tables (last :: others)) =>
            (update? dotted change names last).map fun last => tables (last :: others)
        | some _ => none
      inner.map fun inner => table implicit wasDotted (set name inner fields)
  | _, _ => none

def addField? (viaDotted : Bool) (name : String) (value : Toml) : Toml → Option Toml
  | table implicit dotted fields =>
      if dotted ≠ viaDotted then none
      else
        match lookUp name fields with
        | some _ => none
        | none => some (table implicit dotted (set name value fields))
  | _ => none

def addPair? (key : List String) (value : Toml) (target : Toml) : Option Toml :=
  match key.getLast? with
  | none => none
  | some name => update? true (addField? (1 < key.length) name value) key.dropLast target

/-- Whether a header may still name the field. -/
def mayName : Option Toml → Bool
  | none => true
  | some (table true false _) => true
  | some _ => false

def addTable? (names : List String) (document : Toml) : Option Toml :=
  match names.getLast? with
  | none => none
  | some name =>
      update? false
        (fun parent =>
          match parent with
          | table implicit dotted fields =>
              if mayName (lookUp name fields) then
                match lookUp name fields with
                | some (table _ _ inner) =>
                    some (table implicit dotted (set name (table false false inner) fields))
                | _ => some (table implicit dotted (set name (table false false []) fields))
              else none
          | _ => none)
        names.dropLast document

/-- Add a table to the array of tables at the end of some names. -/
def addElement? (names : List String) (document : Toml) : Option Toml :=
  match names.getLast? with
  | none => none
  | some name =>
      update? false
        (fun parent =>
          match parent with
          | table implicit dotted fields =>
              match lookUp name fields with
              | none => some (table implicit dotted (set name (tables [root]) fields))
              | some (tables elements) =>
                  some (table implicit dotted (set name (tables (root :: elements)) fields))
              | some _ => none
          | _ => none)
        names.dropLast document

/-- Define a pair in the table that the last header named, at the end of `names`. -/
def addPairAt? (names key : List String) (value : Toml) (document : Toml) : Option Toml :=
  update? false (addPair? key value) names document

end Toml

end SourceGauge
