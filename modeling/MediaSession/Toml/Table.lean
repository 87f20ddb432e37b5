import MediaSession.Datum

namespace MediaSession

/--
A table under construction. A table is `implicit` while it is only the way to another one, and
`dotted` if a dotted key has made it; values, in-line tables included, are closed.
-/
inductive Toml.Node where
  | value (datum : Datum)
  | table (implicit dotted : Bool) (entries : List (String × Node))
  | tables (items : List Node)
  deriving Inhabited

def Toml.Node.root : Node := .table false false []

def Toml.Node.find? (key : String) : List (String × Node) → Option Node
  | [] => none
  | (k, node) :: rest => if k = key then some node else find? key rest

def Toml.Node.put (key : String) (node : Node) : List (String × Node) → List (String × Node)
  | [] => [(key, node)]
  | (k, n) :: rest => if k = key then (k, node) :: rest else (k, n) :: put key node rest

/--
Changes the table at the end of a path, and makes the tables on the way that are missing. In a list
of tables the way leads into the last one. A dotted key never leads into a table with a header.
-/
def Toml.Node.change (dotted : Bool) (f : Node → Option Node) : List String → Node → Option Node
  | [], node => f node
  | key :: path, .table implicit ownDotted entries =>
    match find? key entries with
    | none =>
      (change dotted f path (.table true dotted [])).map fun node =>
        .table implicit ownDotted (put key node entries)
    | some (.value _) => none
    | some (.tables items) =>
      match items.getLast? with
      | none => none
      | some last =>
        (change dotted f path last).map fun node =>
          .table implicit ownDotted (put key (.tables (items.dropLast ++ [node])) entries)
    | some (.table childImplicit childDotted childEntries) =>
      if dotted && !childImplicit then none
      else
        (change dotted f path (.table childImplicit childDotted childEntries)).map fun node =>
          .table implicit ownDotted (put key node entries)
  | _ :: _, _ => none

/-- Adds a value under a new key; only dotted keys add to a table that a dotted key has made. -/
def Toml.Node.add (viaDots : Bool) (key : String) (datum : Datum) : Node → Option Node
  | .table implicit dotted entries =>
    if dotted ≠ viaDots then none
    else
      match find? key entries with
      | some _ => none
      | none => some (.table implicit dotted (put key (.value datum) entries))
  | _ => none

def Toml.Node.addAt (path : List String) (key : String) (datum : Datum) : Node → Option Node :=
  change true (add (!path.isEmpty) key datum) path

/-- Opens the table of a header; it may exist as the way to another table, once. -/
def Toml.Node.openTable (key : String) : Node → Option Node
  | .table implicit dotted entries =>
    match find? key entries with
    | none => some (.table implicit dotted (put key .root entries))
    | some (.table true false children) =>
      some (.table implicit dotted (put key (.table false false children) entries))
    | some _ => none
  | _ => none

def Toml.Node.openItem (key : String) : Node → Option Node
  | .table implicit dotted entries =>
    match find? key entries with
    | none => some (.table implicit dotted (put key (.tables [.root]) entries))
    | some (.tables items) =>
      some (.table implicit dotted (put key (.tables (items ++ [.root])) entries))
    | some _ => none
  | _ => none

mutual

def Toml.Node.toDatum : Node → Datum
  | .value datum => datum
  | .table _ _ entries => .record (fieldsOf entries)
  | .tables items => .list (itemsOf items)

def Toml.Node.fieldsOf : List (String × Node) → List (String × Datum)
  | [] => []
  | (key, node) :: rest => (key, node.toDatum) :: fieldsOf rest

def Toml.Node.itemsOf : List Node → List Datum
  | [] => []
  | node :: rest => node.toDatum :: itemsOf rest

end

end MediaSession
