import Reporting.Keyed
import Reporting.Path
import Reporting.Source.Error

/-!
Schemas: the entities of a source, their fields and the relations between them, and the walk along a
path from an entity to a field.
-/

namespace Reporting

/-- What the cells of a field hold. -/
inductive FieldKind where
  | integer
  | decimal
  | text
  | date
  | dateTime
  | boolean
  /-- the primary key of a row of another entity -/
  | relation
deriving DecidableEq, Repr

def FieldKind.name : FieldKind → String
  | integer => "integer"
  | decimal => "decimal"
  | text => "text"
  | date => "date"
  | dateTime => "datetime"
  | boolean => "boolean"
  | relation => "relation"

def FieldKind.ofName? : String → Option FieldKind
  | "integer" => some integer
  | "decimal" => some decimal
  | "text" => some text
  | "date" => some date
  | "datetime" => some dateTime
  | "boolean" => some boolean
  | "relation" => some relation
  | _ => none

/-- A field of an entity. -/
structure Field where
  name : String
  verboseName : Option String
  kind : FieldKind
  /-- the entity whose rows a relation names -/
  target : Option String
deriving DecidableEq, Repr

namespace Field

def isRelation (f : Field) : Bool :=
  f.kind == .relation

/-- The name shown for the field. -/
def label (f : Field) : String :=
  f.verboseName.getD f.name

end Field

/-- An entity with its fields in order. -/
structure Entity where
  name : String
  verboseName : Option String
  primaryKey : String
  fields : List Field
deriving DecidableEq, Repr

namespace Entity

/-- An entity with an integer primary key `id` and no other field. -/
def new (name : String) : Entity :=
  ⟨name, none, "id", [⟨"id", none, .integer, none⟩]⟩

/-- Makes the field the primary key and the first field, in place of the primary key so far. -/
def withPrimaryKey (e : Entity) (field : Field) : Entity :=
  { e with primaryKey := field.name, fields := field :: e.fields.filter fun f => f.name != e.primaryKey }

/-- Adds a field at the end. -/
def withField (e : Entity) (field : Field) : Entity :=
  { e with fields := e.fields ++ [field] }

def withLabel (e : Entity) (label : String) : Entity :=
  { e with verboseName := some label }

/-- The name shown for the entity. -/
def label (e : Entity) : String :=
  e.verboseName.getD e.name

/-- The field of the name; a relation also answers to its name with `_id` after it. -/
def field? (e : Entity) (name : String) : Option Field :=
  match e.fields.find? fun f => f.name == name with
  | some f => some f
  | none =>
    match Path.withoutId? name with
    | some relation => e.fields.find? fun f => f.name == relation && f.isRelation
    | none => none

def fieldNames (e : Entity) : List String :=
  e.fields.map Field.name

end Entity

/-- A relation crossed on the way along a path, and the entity it belongs to. -/
structure Hop where
  entity : String
  relation : Field
deriving DecidableEq, Repr

/-- Where a path leads. -/
structure ResolvedPath where
  /-- the entity that the walk starts from -/
  root : String
  /-- the entity of the field at the end -/
  entity : String
  field : Field
  hops : List Hop
deriving DecidableEq, Repr

namespace ResolvedPath

def isRelation (p : ResolvedPath) : Bool :=
  p.field.isRelation

/-- The entity that the field at the end points to. -/
def target? (p : ResolvedPath) : Option String :=
  p.field.target

def traverses (p : ResolvedPath) : Bool :=
  !p.hops.isEmpty

end ResolvedPath

/-- The entities of a source by name. -/
structure Schema where
  entities : Keyed Entity
deriving DecidableEq

namespace Schema

def empty : Schema := ⟨Keyed.empty⟩

/-- Adds an entity, in place of one of the same name. -/
def add (s : Schema) (e : Entity) : Schema :=
  ⟨s.entities.insert e.name e⟩

/-- The schema of the entities; of equal names the last stays. -/
def ofEntities (entities : List Entity) : Schema :=
  entities.foldl add empty

/-- The entity of the name. -/
def entity (s : Schema) (name : String) : Except SourceError Entity :=
  match s.entities.get? name with
  | some e => .ok e
  | none => .error (.entityNotFound name)

/-- Walks on from an entity along the names that are left; `path` is the whole path for messages. The
walk crosses a relation at each name but the last. -/
def walk (s : Schema) (root path : String) (current : Entity) (hops : List Hop) :
    List String → Except SourceError ResolvedPath
  | [] => .error (.fieldNotFound root path)
  | name :: rest =>
    match current.field? name with
    | none => .error (.fieldNotFound current.name path)
    | some field =>
      if rest.isEmpty then .ok ⟨root, current.name, field, hops⟩
      else
        match field.kind, field.target with
        | .relation, some target =>
          match s.entity target with
          | .ok next => s.walk root path next (hops ++ [⟨current.name, field⟩]) rest
          | .error e => .error e
        | _, _ => .error (.notARelation current.name field.name)

/-- Follows a path from an entity. -/
def resolve (s : Schema) (entity path : String) : Except SourceError ResolvedPath :=
  match s.entity entity with
  | .ok e => s.walk entity path e [] (Path.parts path)
  | .error e => .error e

end Schema
end Reporting
