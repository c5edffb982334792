import NearestWins.Failure
import NearestWins.Toml.Plain
import NearestWins.TreeFile

/-!
# Reading tree files

How a TOML document is fitted to a tree file. The entry of a declaration is fitted field by field in
the order of the names. The entry of a node is fitted in two rounds: first its managed declarations
and its children, while its other fields are only looked at as plain values, then the fields of its
coordinate.
-/

namespace NearestWins

namespace Entry

/-- The fields that have a meaning in every entry. -/
def schema : Schema Entry where
  name := "CoordinateSpec"
  closed := false
  fields :=
    [{ name := "group", required := true,
       read := fun f v e => do pure { e with group := ← v.fitString f } },
     { name := "artifact", required := true,
       read := fun f v e => do pure { e with artifact := ← v.fitString f } },
     { name := "version", read := fun f v e => do pure { e with version := ← v.fitString f } },
     { name := "classifier",
       read := fun f v e => do pure { e with classifier := ← v.fitString f } },
     { name := "extension",
       read := fun f v e => do pure { e with extension := ← v.fitOption (·.fitString f) } },
     { name := "scope", read := fun f v e => do pure { e with scope := ← v.fitString f } },
     { name := "optional",
       read := fun f v e => do pure { e with optional := ← v.fitOption (·.fitBool f) } },
     { name := "exclusions",
       read := fun f v e => do pure { e with exclusions := ← v.fitList f (·.fitString f) } },
     { name := "system_path",
       read := fun f v e => do pure { e with systemPath := ← v.fitOption (·.fitString f) } },
     { name := "properties",
       read := fun f v e => do pure { e with properties := ← v.fitTextMap f } }]

/-- The fields of an entry that have no meaning. -/
def unclaimed (entries : List (String × Value)) : List (String × Value) :=
  entries.filter fun (name, _) => (schema.field? name).isNone

/-- Reads one field of an entry; a field without meaning only has to be plain data. -/
def readField (e : Entry) : String × Value → Fit Entry
  | (name, v) =>
    match schema.field? name with
    | some field => field.read .toml v e
    | none => do
      v.checkSetAside
      pure e

/-- Reads an entry from its fields. -/
def ofFields (entries : List (String × Value)) : Fit Entry := do
  let e ← entries.foldlM readField { group := "", artifact := "" }
  schema.checkPresent entries
  Value.checkPlainEntries true (unclaimed entries)
  pure { e with unknown := (unclaimed entries).map Prod.fst }

/-- Reads an entry. -/
def fit (v : Value) : Fit Entry :=
  match v.entries? with
  | some entries => ofFields entries
  | none => .error (v.mismatch .toml s!"struct {schema.name}")

end Entry

namespace NodeEntry

/-- Whether a field of a node belongs to its coordinate. -/
def isCoordinateField (name : String) : Bool :=
  name ≠ "managed" && name ≠ "children"

mutual

/-- Reads the entry of a node. -/
def fit : Value → Fit NodeEntry
  | .table entries => do
    let (managed, children) ← readBelow entries
    let coordinate ← Entry.ofFields (entries.filter (isCoordinateField ·.1))
    pure ⟨coordinate, managed, children⟩
  | .datetime text => do
    let coordinate ← Entry.ofFields [(Value.datetimeKey, .string text)]
    pure ⟨coordinate, [], []⟩
  | v => .error (v.mismatch .toml "struct NodeSpec")

/-- Reads the managed declarations and the children among the fields of a node. -/
def readBelow : List (String × Value) → Fit (List Entry × List NodeEntry)
  | [] => .ok ([], [])
  | ("children", .array items) :: rest => do
    let children ← fitAll items
    let (managed, _) ← readBelow rest
    pure (managed, children)
  | ("children", v) :: _ => .error (v.mismatch .toml "a sequence")
  | ("managed", v) :: rest => do
    let managed ← v.fitList .toml Entry.fit
    let (_, children) ← readBelow rest
    pure (managed, children)
  | (_, v) :: rest => do
    v.checkSetAside
    readBelow rest

/-- Reads the entries of siblings. -/
def fitAll : List Value → Fit (List NodeEntry)
  | [] => .ok []
  | v :: rest => do
    let first ← fit v
    let others ← fitAll rest
    pure (first :: others)

end

end NodeEntry

namespace TreeFile

/-- The fields of the root. -/
def rootSchema : Schema TreeFile where
  name := "RootSpec"
  closed := true
  fields :=
    [{ name := "managed",
       read := fun f v t => do pure { t with managed := ← v.fitList f Entry.fit } },
     { name := "children",
       read := fun f v t => do pure { t with children := ← v.fitList f NodeEntry.fit } }]

/-- The fields of a tree file. -/
def schema : Schema TreeFile where
  name := "TreeFile"
  closed := true
  fields := [{ name := "root", read := fun f v _ => rootSchema.fit f {} v }]

/-- Reads the text of a tree file. -/
def parse (reader : TomlReader) (text : String) : Except String TreeFile :=
  reader.decode schema {} text

end TreeFile

/-- Reads the tree that a text describes; `file` is the name under which a malformed text is
reported. -/
def Node.parseTree (reader : TomlReader) (policy : ScopeHandler) (file text : String) :
    Except Problem Node :=
  match TreeFile.parse reader text with
  | .error reason => .error (.invalidTree file reason)
  | .ok tree =>
    (tree.toTree policy).mapError fun
      | .invalidTree _ reason => .invalidTree file reason
      | problem => problem

/-- Reads a tree file, given what reading its text gave. -/
def Node.loadTree (reader : TomlReader) (policy : ScopeHandler) (path : String)
    (text : Except ReadFailure String) : Logged (Except Failure Node) :=
  match text with
  | .error failure =>
    pure (.error ((Failure.ofProblem (.unreadable failure)).within
      s!"Failed to read dependency tree from {path}"))
  | .ok text =>
    match Node.parseTree reader policy path text with
    | .error problem => pure (.error (.ofProblem problem))
    | .ok tree => do
      Logged.report (.loadedTree tree.descendants path)
      pure (.ok tree)

end NearestWins
