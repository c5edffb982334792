import NearestWins.Proofs.ExclusionText
import NearestWins.TreeFile.Reader

/-!
# Faults of tree files

A tree file that was fitted to its records may still have entries that say nothing: names without meaning, or
exclusions that do not read. `TreeFile.entries` lists the entries of a file at all depths, in the order in which
they are looked at, and `Entry.fault` says what is wrong with one. Main statement: the tree of a file is made
entry by entry, unless one of them has a fault, and then the first fault is the problem.
-/

namespace NearestWins

/-! ## Results that depend on a fault -/

/-- A result, unless there is a fault. -/
def unlessFault {α : Type} (fault : Option Problem) (a : α) : Except Problem α :=
  match fault with
  | none => .ok a
  | some problem => .error problem

section UnlessFault

variable {α β : Type} {fault : Option Problem} {a : α}

/-- One step after the other: the earlier fault counts. -/
theorem unlessFault_bind {later : Option Problem} {b : β} {next : α → Except Problem β}
    (h : next a = unlessFault later b) :
    (unlessFault fault a >>= next) = unlessFault (fault.or later) b := by
  cases fault with
  | none => exact h
  | some problem => rfl

theorem unlessFault_bind_pure (f : α → β) :
    (unlessFault fault a >>= fun a => pure (f a)) = unlessFault fault (f a) := by
  cases fault <;> rfl

end UnlessFault

namespace Entry

/-! ## Entries -/

/-- What is wrong with an entry of a file: names without meaning, or else its first exclusion that does not
read. -/
def fault (file : String) (e : Entry) : Option Problem :=
  if e.unknown = [] then (e.exclusions.find? fun text => ¬ Exclusion.IsText text).map .invalidExclusion
  else
    let names := ", ".intercalate e.unknown
    some (.invalidTree file s!"unknown key(s) {names} in entry {e.group}:{e.artifact}")

/-- The dependency of an entry without a fault. It has the properties that the entry lists, but for the one
of the handler if the entry declares a path. -/
def dependency (handler : ScopeHandler) (e : Entry) : Dependency where
  artifact :=
    { groupId := e.group
      artifactId := e.artifact
      classifier := e.classifier
      extension := e.extension.getD defaultExtension
      version := e.version
      properties := e.systemPath.elim e.properties (e.properties.insert handler.pathProperty) }
  scope := e.scope
  optional := e.optional
  exclusions := .ofList (e.exclusions.filterMap Exclusion.ofText?)

theorem effectiveProperties_eq (handler : ScopeHandler) (e : Entry) :
    e.effectiveProperties handler = (e.dependency handler).artifact.properties := by
  rw [effectiveProperties, dependency]
  cases e.systemPath <;> rfl

theorem parseExclusions_eq (texts : List String) :
    parseExclusions texts = unlessFault
      ((texts.find? fun text => ¬ Exclusion.IsText text).map .invalidExclusion)
      (texts.filterMap Exclusion.ofText?) := by
  induction texts with
  | nil => rfl
  | cons text rest ih =>
    rw [parseExclusions, ih]
    by_cases h : Exclusion.IsText text
    · obtain ⟨first, hfirst, hparse⟩ := Exclusion.parse_of_isText h
      rw [hparse, List.find?_cons_of_neg (by simpa using h), List.filterMap_cons_some hfirst]
      cases rest.find? fun text => ¬ Exclusion.IsText text <;> rfl
    · rw [Exclusion.parse_of_not_isText h, List.find?_cons_of_pos (by simpa using h)]
      rfl

theorem toDependency_eq (handler : ScopeHandler) (e : Entry) :
    e.toDependency handler = unlessFault (e.fault inlineSource) (e.dependency handler) := by
  rw [toDependency, fault]
  by_cases h : e.unknown = []
  · rw [if_pos (List.isEmpty_iff.2 h), if_pos h, parseExclusions_eq, unlessFault_bind_pure,
      effectiveProperties_eq]
    rfl
  · rw [if_neg (mt List.isEmpty_iff.1 h), if_neg h]
    rfl

/-- What is wrong with the first of several entries that has a fault. -/
def firstFault (file : String) (entries : List Entry) : Option Problem :=
  entries.findSome? (fault file)

theorem firstFault_cons (file : String) (e : Entry) (rest : List Entry) :
    firstFault file (e :: rest) = (e.fault file).or (firstFault file rest) := by
  rw [firstFault, List.findSome?_cons]
  cases e.fault file <;> rfl

theorem firstFault_append (file : String) (entries others : List Entry) :
    firstFault file (entries ++ others) = (firstFault file entries).or (firstFault file others) :=
  List.findSome?_append

theorem toDependencies_eq (handler : ScopeHandler) (entries : List Entry) :
    toDependencies handler entries = unlessFault (firstFault inlineSource entries)
      (entries.map (dependency handler)) := by
  induction entries with
  | nil => rfl
  | cons e rest ih =>
    rw [toDependencies, toDependency_eq, ih, firstFault_cons]
    exact unlessFault_bind (unlessFault_bind_pure _)

end Entry

/-! ## Nodes -/

namespace NodeEntry

mutual

/-- The entries of a node and below it, in the order in which they are looked at: its own, its managed
declarations, and then those of each child. -/
def entries : NodeEntry → List Entry
  | ⟨coordinate, managed, children⟩ => coordinate :: managed ++ entriesAll children

/-- The entries of siblings and below them. -/
def entriesAll : List NodeEntry → List Entry
  | [] => []
  | node :: rest => entries node ++ entriesAll rest

end

/-- The node of an entry without faults: the shape is that of the entry. -/
def node (handler : ScopeHandler) : NodeEntry → Node
  | ⟨coordinate, managed, children⟩ =>
    ⟨some (coordinate.dependency handler), managed.map (Entry.dependency handler), children.map (node handler)⟩

mutual

theorem toNode_eq (handler : ScopeHandler) : ∀ entry : NodeEntry,
    entry.toNode handler = unlessFault (Entry.firstFault inlineSource entry.entries) (entry.node handler)
  | ⟨coordinate, managed, children⟩ => by
    rw [toNode, Entry.toDependency_eq, Entry.toDependencies_eq, toNodes_eq handler children, entries, node,
      List.cons_append, Entry.firstFault_cons, Entry.firstFault_append]
    exact unlessFault_bind (unlessFault_bind (unlessFault_bind_pure _))

theorem toNodes_eq (handler : ScopeHandler) : ∀ siblings : List NodeEntry,
    toNodes handler siblings = unlessFault (Entry.firstFault inlineSource (entriesAll siblings))
      (siblings.map (node handler))
  | [] => by rw [toNodes, entriesAll]; rfl
  | entry :: rest => by
    rw [toNodes, toNode_eq handler entry, toNodes_eq handler rest, entriesAll, Entry.firstFault_append]
    exact unlessFault_bind (unlessFault_bind_pure _)

end

end NodeEntry

/-! ## Files -/

/-- The entries of a file at all depths, in the order in which they are looked at. -/
def TreeFile.entries (file : TreeFile) : List Entry :=
  file.managed ++ NodeEntry.entriesAll file.children

/-- The tree of a file without faults. -/
def TreeFile.tree (handler : ScopeHandler) (file : TreeFile) : Node :=
  ⟨none, file.managed.map (Entry.dependency handler), file.children.map (NodeEntry.node handler)⟩

end NearestWins
