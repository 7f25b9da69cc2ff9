import Reporting.Schema
import Reporting.Tree.Basic

/-!
Entities and schemas described by data files.
-/

namespace Reporting

def FieldKind.ofTree? (d : Dialect) (t : Tree) : Option FieldKind :=
  (t.choice? d).bind FieldKind.ofName?

/-- A field: `name`, `kind`, and if given `verbose_name` and, for a relation, `to`. -/
def Field.ofTree? (d : Dialect) (t : Tree) : Option Field := do
  let t ← t.record? d ["name", "verbose_name", "kind", "to"]
  let name ← t.required? "name" Tree.string?
  let verboseName ← t.optional? "verbose_name" Tree.string?
  let kind ← t.required? "kind" (FieldKind.ofTree? d)
  let target ← t.optional? "to" Tree.string?
  some ⟨name, verboseName, kind, target⟩

/-- An entity: `name`, and if given `verbose_name`, `primary_key` and `fields`. -/
def Entity.ofTree? (d : Dialect) (t : Tree) : Option Entity := do
  let t ← t.record? d ["name", "verbose_name", "primary_key", "fields"]
  let name ← t.required? "name" Tree.string?
  let verboseName ← t.optional? "verbose_name" Tree.string?
  let primaryKey ← t.defaulted? "primary_key" "id" Tree.string?
  let fields ← t.defaulted? "fields" [] (Tree.listOf? (Field.ofTree? d))
  some ⟨name, verboseName, primaryKey, fields⟩

/-- A schema: a list of `entities`; a later one replaces an earlier one of its name. -/
def Schema.ofTree? (d : Dialect) (t : Tree) : Option Schema := do
  let t ← t.record? d ["entities"]
  let entities ← t.defaulted? "entities" [] (Tree.listOf? (Entity.ofTree? d))
  some (Schema.ofEntities entities)

end Reporting
