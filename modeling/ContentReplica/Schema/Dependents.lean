import ContentReplica.Schema.Compiler

/-!
# Dependencies between content types

A content type depends on the targets of its references. `Dependents.closure` is the set of content
types that a change of one of them can reach in a bounded number of references: the type itself, the
types that read it, the types that read those, and so on. It is searched breadth first
(`Dependents.Search`).

`Dependency.ofReference` lists the structural edges of a reference, where a link table is a node of
its own.
-/

namespace ContentReplica

/-- A set of names. -/
abbrev NameSet := SortedMap String Unit

namespace NameSet

/-- The set with one more name. -/
def add (s : NameSet) (name : String) : NameSet := s.insert name ()

/-- The set of the names in a list, added to a set. -/
def addAll (s : NameSet) (names : List String) : NameSet := names.foldl add s

end NameSet

namespace Dependents

/-- The owners of references that resolve to a node. -/
def readers (references : List Reference) (node : String) : List String :=
  (references.filter fun r => r.target.node? = some node).map Reference.owner

/-- A search under way: the nodes that were met, and those whose readers are still to be met, each with
the number of references on the way to it. -/
structure Search where
  met : NameSet
  queue : List (String × Nat)

namespace Search

/-- A search from a node. -/
def start (node : String) : Search := ⟨NameSet.add .empty node, [(node, 0)]⟩

/-- Meet a node at some depth; it is queued unless it was met before. -/
def meet (depth : Nat) (s : Search) (node : String) : Search :=
  if s.met.contains node then s else ⟨s.met.add node, s.queue ++ [(node, depth)]⟩

/-- Take the first node from the queue, and meet its readers unless the node is as deep as the search
reaches. -/
def step (references : List Reference) (reach : Nat) (s : Search) : Search :=
  match s.queue with
  | [] => s
  | (node, depth) :: queue =>
    if reach ≤ depth then ⟨s.met, queue⟩
    else (NameSet.addAll .empty (readers references node)).keys.foldl (meet (depth + 1))
      ⟨s.met, queue⟩

/-- A number of steps. -/
def run (references : List Reference) (reach : Nat) : Nat → Search → Search
  | 0, s => s
  | steps + 1, s => run references reach steps (s.step references reach)

end Search

/-- A node and every node that reads it through at most the given number of references. A node is queued
once at most, and all nodes but the first own a reference, so as many steps as there are references, and
one more, empty the queue. -/
def closure (references : List Reference) (node : String) (reach : Nat) : NameSet :=
  ((Search.start node).run references reach (references.length + 1)).met

end Dependents

/-- An edge: `source` depends on `target`. -/
structure Dependency where
  source : String
  target : String
  deriving DecidableEq

/-- The edges of a reference: from owner to target, or from the link table to both. -/
def Dependency.ofReference (r : Reference) : List Dependency :=
  match r.target.node? with
  | none => []
  | some target =>
    match r.kind with
    | .oneToOne => [⟨r.owner, target⟩]
    | .manyToMany => [⟨r.storage.text, r.owner⟩, ⟨r.storage.text, target⟩]

namespace Schema

/-- The edges of all references. -/
def dependencies (s : Schema) : List Dependency := s.references.flatMap Dependency.ofReference

/-- The types that read a node directly. -/
def readers (s : Schema) (node : String) : NameSet :=
  NameSet.addAll .empty (Dependents.readers s.references node)

/-- The types that a change of a node reaches within the given number of references. -/
def dependents (s : Schema) (node : String) (depth : Nat) : NameSet :=
  Dependents.closure s.references node depth

end Schema

end ContentReplica
