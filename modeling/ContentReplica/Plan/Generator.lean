import ContentReplica.Schema.Compiler
import ContentReplica.Sql.Statement

/-!
# Generating query plans

`Schema.plan?` is the plan of one content type: links are followed up to a given depth, so a cycle of
references still gives a finite tree. A link at the last level, or without a target table, shows the
identity of its target.
-/

namespace ContentReplica.Schema

/-- How many levels of links are embedded unless a configuration says otherwise. -/
def defaultIncludeDepth : Nat := 3

/-- Whether a field or a node below it is localized. -/
def fieldLocalized (f : PlanField) : Bool :=
  match f.child? with
  | some node => node.hasLocalized
  | none => false

/-- The table that a target reads, if it is resolved. -/
def targetTable? (s : Schema) : LinkTarget → Option TableLayout
  | .contentType id => s.entryTable? id
  | .asset => some assetLayout
  | .unresolved _ => none

/-- The node of a table at a depth, with the given number of levels left below it. -/
def planNode (s : Schema) (ns : Ident) : Nat → Nat → TableLayout → PlanNode
  | remaining, depth, t =>
    let link (target : LinkTarget) : LinkPlan :=
      match remaining with
      | 0 => .stub
      | remaining + 1 =>
        match s.targetTable? target with
        | some table => .expand (planNode s ns remaining (depth + 1) table)
        | none => .stub
    let fields := t.fields.map fun f =>
      let column : PlanColumn := ⟨f.fieldId, f.column, f.localized⟩
      match f.placement with
      | .value type => PlanField.value column type
      | .link target => .link column (link target)
      | .links table target => .links column ⟨ns, table⟩ (link target)
    .mk ⟨t.contentType, t.kind, ⟨ns, t.name⟩, depth⟩
      (t.hasLocalized || fields.any fieldLocalized) fields

/-- The plan of a table. -/
def planOf (s : Schema) (ns : Ident) (depth : Nat) (t : TableLayout) : Plan :=
  ⟨t.contentType, ⟨ns, Naming.function t.name⟩, ⟨ns, localesTable⟩, depth,
    s.planNode ns depth 0 t⟩

/-- The plan of a content type, following links up to a depth. -/
def plan? (s : Schema) (ns : Ident) (depth : Nat) (contentType : String) : Except Error Plan :=
  match s.entryTable? contentType with
  | some t => .ok (s.planOf ns depth t)
  | none => .error (.contentTypeNotFound contentType)

/-- The plans of all compiled content types. -/
def plans (s : Schema) (ns : Ident) (depth : Nat) : List Plan := s.tables.map (s.planOf ns depth)

/-- The statements that create the query functions of all compiled content types. -/
def functionStatements (s : Schema) (ns : Ident) (depth : Nat) : List Statement :=
  (s.plans ns depth).map .createFunction

end ContentReplica.Schema
