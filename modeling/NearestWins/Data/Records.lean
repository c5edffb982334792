import NearestWins.Collect.ResolvedNode
import NearestWins.Data.Reader

/-!
# Records of the domain

How artifacts, exclusions and dependencies are read from data and how they are written: as tables
with one entry for each field. Writing leaves out what is empty, the extension excepted; reading
takes what is left out as empty. Resolved nodes are written only.
-/

namespace NearestWins

/-- A field that is written unless it is empty. -/
def textEntry (name text : String) : List (String × Value) :=
  if text.isEmpty then [] else [(name, .string text)]

/-- A field that is written unless it is absent. -/
def optionEntry {α : Type} (name : String) (write : α → Value) : Option α → List (String × Value)
  | none => []
  | some value => [(name, write value)]

/-- Properties as data. -/
def Properties.toValue (properties : Properties) : Value :=
  .table (properties.toList.map fun (name, text) => (name, .string text))

namespace Artifact

/-- An artifact with nothing declared. -/
def blank : Artifact := { groupId := "", artifactId := "" }

/-- The record of an artifact. -/
def schema : Schema Artifact where
  name := "Artifact"
  closed := false
  fields :=
    [{ name := "group_id", required := true,
       read := fun f v a => do pure { a with groupId := ← v.fitString f } },
     { name := "artifact_id", required := true,
       read := fun f v a => do pure { a with artifactId := ← v.fitString f } },
     { name := "classifier",
       read := fun f v a => do pure { a with classifier := ← v.fitString f } },
     { name := "extension", read := fun f v a => do pure { a with extension := ← v.fitString f } },
     { name := "version", read := fun f v a => do pure { a with version := ← v.fitString f } },
     { name := "properties",
       read := fun f v a => do pure { a with properties := ← v.fitTextMap f } }]

/-- Reads an artifact. -/
def fit (format : DataFormat) : Value → Fit Artifact := schema.fit format blank

/-- Writes an artifact. -/
def toValue (a : Artifact) : Value :=
  .table
    ([("group_id", .string a.groupId), ("artifact_id", .string a.artifactId)] ++
      textEntry "classifier" a.classifier ++ [("extension", .string a.extension)] ++
      textEntry "version" a.version ++
      if a.properties.isEmpty then [] else [("properties", a.properties.toValue)])

end Artifact

namespace Exclusion

/-- The record of an exclusion. -/
def schema : Schema Exclusion where
  name := "Exclusion"
  closed := false
  fields :=
    [{ name := "group_id", required := true,
       read := fun f v e => do pure { e with groupId := ← v.fitString f } },
     { name := "artifact_id", required := true,
       read := fun f v e => do pure { e with artifactId := ← v.fitString f } },
     { name := "classifier", required := true,
       read := fun f v e => do pure { e with classifier := ← v.fitString f } },
     { name := "extension", required := true,
       read := fun f v e => do pure { e with extension := ← v.fitString f } }]

/-- Reads an exclusion. -/
def fit (format : DataFormat) : Value → Fit Exclusion :=
  schema.fit format { groupId := "", artifactId := "" }

/-- Writes an exclusion. -/
def toValue (e : Exclusion) : Value :=
  .table
    [("group_id", .string e.groupId), ("artifact_id", .string e.artifactId),
     ("classifier", .string e.classifier), ("extension", .string e.extension)]

end Exclusion

namespace Dependency

/-- The record of a dependency. -/
def schema : Schema Dependency where
  name := "Dependency"
  closed := false
  fields :=
    [{ name := "artifact", required := true,
       read := fun f v d => do pure { d with artifact := ← Artifact.fit f v } },
     { name := "scope", read := fun f v d => do pure { d with scope := ← v.fitString f } },
     { name := "optional",
       read := fun f v d => do pure { d with optional := ← v.fitOption (·.fitBool f) } },
     { name := "exclusions",
       read := fun f v d => do
         let exclusions ← v.fitList f (Exclusion.fit f)
         pure { d with exclusions := .ofList exclusions } }]

/-- Reads a dependency. -/
def fit (format : DataFormat) : Value → Fit Dependency :=
  schema.fit format { artifact := Artifact.blank }

/-- Writes a dependency. -/
def toValue (d : Dependency) : Value :=
  .table
    ([("artifact", d.artifact.toValue)] ++ textEntry "scope" d.scope ++
      optionEntry "optional" .boolean d.optional ++
      if d.exclusions.isEmpty then []
      else [("exclusions", .array (d.exclusions.toList.map Exclusion.toValue))])

end Dependency

/-- Writes which fields are overridden. -/
def ManagedFields.toValue (f : ManagedFields) : Value :=
  .table
    [("version", .boolean f.version), ("scope", .boolean f.scope),
     ("optional", .boolean f.optional), ("properties", .boolean f.properties),
     ("exclusions", .boolean f.exclusions)]

namespace ResolvedNode

mutual

/-- Writes a resolved node. -/
def toValue : ResolvedNode → Value
  | ⟨dependency, version, scope, depth, managed, system, children⟩ =>
    .table
      ([("dependency", dependency.toValue)] ++ optionEntry "premanaged_version" .string version ++
        optionEntry "premanaged_scope" .string scope ++
        [("depth", .integer depth), ("managed", managed.toValue), ("system", .boolean system)] ++
        if children.isEmpty then [] else [("children", .array (toValues children))])

/-- Writes a resolved forest. -/
def toValues : List ResolvedNode → List Value
  | [] => []
  | node :: rest => node.toValue :: toValues rest

end

end ResolvedNode

end NearestWins
