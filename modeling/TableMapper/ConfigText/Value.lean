/-!
# Values of a configuration text

A configuration text assigns values to keys. The tables it builds remember
how they came about, because that decides whether they may be extended: an
inline table is closed, a table with a header of its own cannot get a second
header, and dotted keys only extend tables that dotted keys began.
-/

namespace TableMapper.ConfigText

/-- How a table came about. -/
inductive Origin
  /-- Written in braces. -/
  | inline
  /-- Named on the way to the table of a header. -/
  | implied
  /-- Named on the way to a dotted key. -/
  | dotted
  /-- Opened by its own header. -/
  | header
deriving Repr, DecidableEq

/-- A value. -/
inductive Value
  | text (s : String)
  | integer (n : Int)
  /-- A decimal fraction, as written. -/
  | fraction (digits : String)
  | boolean (b : Bool)
  /-- A date, a time or both, as written. -/
  | moment (s : String)
  | list (items : List Value)
  /-- Tables that repeated headers open, the last one still open. -/
  | tables (items : List (Origin × List (String × Value)))
  | table (origin : Origin) (fields : List (String × Value))
deriving Repr, Inhabited

/-- The fields of a table, in their order. -/
abbrev Fields := List (String × Value)

/-- A field with its value replaced. -/
def Fields.replace (fields : Fields) (key : String) (v : Value) : Fields :=
  fields.map fun f => if f.1 == key then (key, v) else f

/-- **A change to the table at the end of a path**, whose tables on the way
are made when missing. A path goes to the last of several tables. With
`dotted` the path consists of dotted keys, which do not enter a table that
has a header. -/
def changeAt (dotted : Bool) (change : Origin → Fields → Option Fields) :
    List String → Origin → Fields → Option Fields
  | [], origin, fields => change origin fields
  | key :: path, _, fields =>
    match fields.lookup key with
    | none =>
      let origin := if dotted then Origin.dotted else .implied
      (changeAt dotted change path origin []).map fun inner =>
        fields ++ [(key, .table origin inner)]
    | some (.table origin inner) =>
      if origin == .inline || (dotted && origin == .header) then none
      else
        (changeAt dotted change path origin inner).map fun inner =>
          fields.replace key (.table origin inner)
    | some (.tables items) =>
      match items.getLast? with
      | none => none
      | some (origin, inner) =>
        (changeAt dotted change path origin inner).map fun inner =>
          fields.replace key (.tables (items.dropLast ++ [(origin, inner)]))
    | some _ => none

/-- A value for a dotted key. A key may be given once; a table that did not
come from dotted keys takes plain keys only, and the other way round. -/
def assign (path : List String) (key : String) (v : Value) (origin : Origin) (fields : Fields) :
    Option Fields :=
  changeAt true (fun inner fields =>
      if (inner == .dotted) == path.isEmpty then none
      else if (fields.lookup key).isSome then none
      else some (fields ++ [(key, v)]))
    path origin fields

/-- A header opens a new table, or one that was only implied. -/
def openTable (path : List String) (key : String) (origin : Origin) (fields : Fields) :
    Option Fields :=
  changeAt false (fun _ fields =>
      match fields.lookup key with
      | none => some (fields ++ [(key, .table .header [])])
      | some (.table .implied inner) => some (fields.replace key (.table .header inner))
      | some _ => none)
    path origin fields

/-- A repeated header opens one more table. -/
def openFurther (path : List String) (key : String) (origin : Origin) (fields : Fields) :
    Option Fields :=
  changeAt false (fun _ fields =>
      match fields.lookup key with
      | none => some (fields ++ [(key, .tables [(.header, [])])])
      | some (.tables items) => some (fields.replace key (.tables (items ++ [(.header, [])])))
      | some _ => none)
    path origin fields

end TableMapper.ConfigText
