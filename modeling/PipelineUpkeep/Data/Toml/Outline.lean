import PipelineUpkeep.Data.Value
/-!
# Tables of a TOML document

A document adds entries to a tree of tables.  How a table came to be decides what
may still be added to it: a table with a header of its own is closed to a second
header and to dotted keys, a table that only lies on the way of a longer header
may get its own header later, and a table made by dotted keys takes dotted keys
only.  No key is given twice.  Every operation fails instead of overwriting.
-/

namespace PipelineUpkeep.Data.Toml

/-- How a table came to be. -/
inductive Origin where
  /-- By its own header, or as an item of a list of tables. -/
  | header
  /-- As a step on the way of a longer header. -/
  | passed
  /-- As a step of a dotted key. -/
  | dotted
  deriving DecidableEq, Repr

/-- What stands under a key. -/
inductive Node where
  | leaf (value : Value)
  | table (origin : Origin) (entries : List (String × Node))
  /-- A list of tables, of which the last may still grow. -/
  | tables (earlier : List (List (String × Node))) (last : List (String × Node))

/-- The entries of a table. -/
abbrev Entries := List (String × Node)

/-- What stands under a key. -/
def Entries.find? (entries : Entries) (key : String) : Option Node :=
  (List.find? (fun entry => entry.1 == key) entries).map (·.2)

/-- Replace the entry of a key, or add it at the end. -/
def Entries.put : Entries → String → Node → Entries
  | [], key, node => [(key, node)]
  | (other, old) :: rest, key, node =>
      if other = key then (key, node) :: rest else (other, old) :: Entries.put rest key node

/-- Change the table at the end of a path.  A missing step becomes a table of the
origin `made`.  In a list of tables the way goes through the last one.  A value
ends the way, and so does a table with a header if the way is a dotted key. -/
def changeAt (made : Origin) (change : Origin → Entries → Option Entries) :
    List String → Origin → Entries → Option Entries
  | [], origin, entries => change origin entries
  | key :: path, _, entries =>
      match entries.find? key with
      | none =>
          (changeAt made change path made []).map fun inner =>
            entries.put key (.table made inner)
      | some (.leaf _) => none
      | some (.tables earlier last) =>
          (changeAt made change path .header last).map fun inner =>
            entries.put key (.tables earlier inner)
      | some (.table origin inner) =>
          if made = .dotted ∧ origin = .header then none
          else
            (changeAt made change path origin inner).map fun inner =>
              entries.put key (.table origin inner)

/-- A key: the steps on its way, and its last part. -/
structure Key where
  path : List String
  name : String

/-- Add a value under a key of a table.  The last table on the way of a dotted
key must be one that dotted keys made. -/
def addValue? (key : Key) (value : Value) (entries : Entries) : Option Entries :=
  let add (origin : Origin) (entries : Entries) : Option Entries :=
    -- A dotted key must not reach into a table that was made in another way.
    if key.path ≠ [] ∧ origin ≠ .dotted then none
    else
      match entries.find? key.name with
      | some _ => none
      | none => some (entries.put key.name (.leaf value))
  changeAt .dotted add key.path .header entries

/-- Give a table its header. -/
def openTable? (key : Key) (root : Entries) : Option Entries :=
  let openHere (_ : Origin) (entries : Entries) : Option Entries :=
    match entries.find? key.name with
    | none => some (entries.put key.name (.table .header []))
    -- Longer headers have made the table; this is its own.
    | some (.table .passed inner) => some (entries.put key.name (.table .header inner))
    | some _ => none
  changeAt .passed openHere key.path .header root

/-- Begin a further item of a list of tables. -/
def openItem? (key : Key) (root : Entries) : Option Entries :=
  let openHere (_ : Origin) (entries : Entries) : Option Entries :=
    match entries.find? key.name with
    | none => some (entries.put key.name (.tables [] []))
    | some (.tables earlier last) =>
        some (entries.put key.name (.tables (earlier ++ [last]) []))
    | some _ => none
  changeAt .passed openHere key.path .header root

/-- Add a value under a key of the table that the latest header has opened. -/
def addValueAt? (path : List String) (key : Key) (value : Value) (root : Entries) :
    Option Entries :=
  changeAt .passed (fun _ entries => addValue? key value entries) path .header root

mutual

/-- The value of what stands under a key. -/
def Node.toValue : Node → Value
  | .leaf value => value
  | .table _ entries => .table (entriesToValues entries)
  | .tables earlier last =>
      .list (itemsToValues earlier ++ [.table (entriesToValues last)])

/-- The values of the entries of a table. -/
def entriesToValues : List (String × Node) → List (String × Value)
  | [] => []
  | (key, node) :: rest => (key, node.toValue) :: entriesToValues rest

/-- The values of the items of a list of tables. -/
def itemsToValues : List (List (String × Node)) → List Value
  | [] => []
  | entries :: rest => .table (entriesToValues entries) :: itemsToValues rest

end

theorem Entries.find?_put_self (entries : Entries) (key : String) (node : Node) :
    (entries.put key node).find? key = some node := by
  induction entries with
  | nil => simp [Entries.put, Entries.find?]
  | cons entry rest ih =>
      obtain ⟨other, old⟩ := entry
      by_cases hKey : other = key
      · simp [Entries.put, Entries.find?, hKey]
      · simp only [Entries.find?] at ih
        simp [Entries.put, Entries.find?, hKey, ih]

end PipelineUpkeep.Data.Toml
