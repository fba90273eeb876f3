import EvmInspect.Json.Basic

/-!
# Tables under construction

A table of TOML is written in pieces, and how it came about decides what may be added to
it later. A table with a header of its own is complete once its lines are over; one made
by dotted keys may only grow by dotted keys; one that so far only stands on the way to
the header of another may still get its own. Values never grow.
-/

namespace EvmInspect.Toml

/-- How a table came about. -/
inductive Origin where
  /-- By a header of its own. -/
  | header
  /-- By a dotted key. -/
  | dotted
  /-- By standing on the way to another header. -/
  | implied
deriving DecidableEq

mutual

/-- What a name stands for. -/
inductive Entry where
  | value (v : Json)
  | table (t : Table)
  /-- A row of tables; those before the last are complete and stand in reverse. -/
  | row (earlier : List Table) (last : Table)

/-- A table under construction. -/
inductive Table where
  | mk (origin : Origin) (entries : List (String × Entry))

end

namespace Table

def empty (origin : Origin) : Table := .mk origin []

def origin : Table → Origin
  | mk origin _ => origin

def entries : Table → List (String × Entry)
  | mk _ entries => entries

end Table

/-- Changes what a name stands for; a name that is new comes last. -/
def alterIn (name : String) (change : Option Entry → Option Entry) :
    List (String × Entry) → Option (List (String × Entry))
  | [] => (change none).map fun e => [(name, e)]
  | (n, e) :: rest =>
    if n = name then (change (some e)).map fun e => (n, e) :: rest
    else (alterIn name change rest).map ((n, e) :: ·)

namespace Table

def alter (name : String) (change : Option Entry → Option Entry) (t : Table) : Option Table :=
  (alterIn name change t.entries).map (Table.mk t.origin)

/-- Changes the table that a path of headers leads to; of a row of tables, the last. -/
def within (change : Table → Option Table) : List String → Table → Option Table
  | [], t => change t
  | name :: path, t => t.alter name fun
    | none => (within change path (empty .implied)).map .table
    | some (.table inner) => (within change path inner).map .table
    | some (.row earlier last) => (within change path last).map (.row earlier)
    | some (.value _) => none

/-- Changes the table that a dotted key leads to. A table with a header of its own is not
entered. -/
def withinDotted (change : Table → Option Table) : List String → Table → Option Table
  | [], t => change t
  | name :: path, t => t.alter name fun
    | none => (withinDotted change path (empty .dotted)).map .table
    | some (.table inner) =>
      if inner.origin = .header then none else (withinDotted change path inner).map .table
    | some (.row earlier last) => (withinDotted change path last).map (.row earlier)
    | some (.value _) => none

/-- Gives a new name a value. -/
def define (name : String) (v : Json) (t : Table) : Option Table :=
  t.alter name fun
    | none => some (.value v)
    | some _ => none

/-- Gives a dotted key a value: the table it leads to has to be one that dotted keys made,
unless the key has no dot. -/
def assign (path : List String) (name : String) (v : Json) : Table → Option Table :=
  withinDotted (fun t => if path.isEmpty || t.origin = .dotted then t.define name v else none) path

/-- Opens the table of a header. -/
def openTable (name : String) : Table → Option Table :=
  alter name fun
    | none => some (.table (empty .header))
    | some (.table (.mk .implied entries)) => some (.table (.mk .header entries))
    | some _ => none

/-- Opens one more table in the row of a header. -/
def openInRow (name : String) : Table → Option Table :=
  alter name fun
    | none => some (.row [] (empty .header))
    | some (.row earlier last) => some (.row (last :: earlier) (empty .header))
    | some _ => none

end Table

mutual

/-- The document that an entry stands for. -/
def Entry.document : Entry → Json
  | .value v => v
  | .table t => t.document
  | .row earlier last => .array ((tableDocuments earlier).reverse ++ [last.document])

def Table.document : Table → Json
  | .mk _ entries => .object (entryDocuments entries)

def tableDocuments : List Table → List Json
  | [] => []
  | t :: rest => t.document :: tableDocuments rest

def entryDocuments : List (String × Entry) → List (String × Json)
  | [] => []
  | (name, e) :: rest => (name, e.document) :: entryDocuments rest

end

end EvmInspect.Toml
