import Reporting.Proofs.Sql.Tables

/-!
Entities put together step by step. The primary key comes first and the other fields, of different names, are those
added and not made the primary key since (`Entity.Headed.run`). Only a primary key that is given the name of another
field stands beside it (`Entity.key_leads`): the table of such an entity cannot be created.
-/

namespace Reporting

namespace Sql

/-! ## Declarations of columns -/

theorem Piece.textOf_append (front back : List Piece) : Piece.textOf (front ++ back) = Piece.textOf front ++ Piece.textOf back := by
  simp [textOf]

/-- How a column is declared. -/
def columnText (f : Field) : String :=
  quoted f.name ++ " " ++ (Affinity.ofKind f.kind).sqlType

namespace Store
variable {e : Entity} {key f : Field} {others : List Field}

/-- Columns after others, none of which is the primary key. -/
theorem textOf_columnParts (isNew : Bool) {before : List String} (later : before ≠ [])
    (plain : ∀ f ∈ others, f.name ≠ e.primaryKey) :
    Piece.textOf (Part.all (columnParts isNew e before others)) = String.join (others.map fun f => ", " ++ columnText f) := by
  induction others generalizing before with
  | nil => rfl
  | cons f rest ih =>
    obtain ⟨here, plain⟩ := List.forall_mem_cons.1 plain
    have next := @ih (before ++ [f.name]) (by simp) plain
    have comma : before.isEmpty = false := by simpa using later
    unfold columnParts
    dsimp only [Part.all] at next ⊢
    rw [List.flatMap_cons, Piece.textOf_append, next, comma, if_neg here]
    simp [Piece.textOf, Piece.text, columnText, String.append_assoc]

/-- The text that creates the table of an entity with its primary key in front, and only there: each column is declared
once, and the first as the primary key. -/
theorem textOf_createParts (isNew : Bool) (fields : e.fields = key :: others) (named : key.name = e.primaryKey)
    (plain : ∀ f ∈ others, f.name ≠ e.primaryKey) :
    Piece.textOf (Part.all (createParts isNew e)) = "CREATE TABLE IF NOT EXISTS " ++ quoted e.name ++ " (" ++
      columnText key ++ " PRIMARY KEY" ++ String.join (others.map fun f => ", " ++ columnText f) ++ ")" := by
  have rest := textOf_columnParts isNew (List.cons_ne_nil key.name []) plain
  have pieces : Part.all (createParts isNew e) = [.fixed "CREATE TABLE IF NOT EXISTS ", .name e.name, .fixed " (",
      .fixed "", .name key.name, .fixed (" " ++ ((Affinity.ofKind key.kind).sqlType ++ " PRIMARY KEY"))] ++
        Part.all (columnParts isNew e [key.name] others) ++ [.fixed ")"] := by
    rw [createParts, fields, columnParts]
    simp [Part.all, named]
  rw [pieces, Piece.textOf_append, Piece.textOf_append, rest]
  simp [Piece.textOf, Piece.text, columnText, String.append_assoc]

/-- A column with the name of one before it is a fault of a new table. -/
theorem exists_fault_of_mem {before : List String} (same : f.name ∈ before) (member : f ∈ others) :
    ∃ part ∈ columnParts true e before others, part.fault ≠ none := by
  induction others generalizing before with
  | nil => cases member
  | cons first rest ih =>
    unfold columnParts
    rcases List.mem_cons.1 member with rfl | later
    · refine ⟨_, List.mem_cons_self .., ?_⟩
      have again : before.any (sameName f.name) = true := List.any_eq_true.2 ⟨f.name, same, sameName_refl _⟩
      dsimp only
      rw [if_pos rfl]
      unfold columnFault?
      rw [again]
      split <;> simp
    · obtain ⟨part, inside, fault⟩ := ih (List.mem_append_left _ same) later
      exact ⟨part, List.mem_cons_of_mem _ inside, fault⟩

/-- No table is created with two columns of the name of the first. -/
theorem create_eq_error (fields : e.fields = key :: others) (twice : key.name ∈ others.map Field.name) {store : Store}
    (isNew : store.table? e.name = none) : ∃ problem, store.create e = .error problem := by
  obtain ⟨f, member, same⟩ := List.mem_map.1 twice
  obtain ⟨part, inside, fault⟩ := exists_fault_of_mem (e := e) (List.mem_singleton.2 same) member
  cases ran : store.create e with
  | error problem => exact ⟨problem, rfl⟩
  | ok store' =>
    obtain ⟨_, read, _⟩ := Results.bind_eq_ok_iff.1 ran
    rw [isNew] at read
    have readable := (read_eq_ok_iff.1 read).1 part (by
      unfold createParts
      rw [fields]
      unfold columnParts
      simp [inside])
    exact absurd readable.1 fault

end Store
end Sql

namespace Entity

/-! ## Steps -/

/-- What an entity is put together by. -/
inductive Step where
  | primaryKey (field : Field)
  | field (field : Field)
  | label (label : String)

namespace Step

/-- The entity after the step. -/
def apply (e : Entity) : Step → Entity
  | primaryKey f => e.withPrimaryKey f
  | field f => e.withField f
  | label text => e.withLabel text

/-- A field is added under a name that the entity does not have. -/
def isFresh (e : Entity) : Step → Bool
  | field f => !e.fieldNames.contains f.name
  | _ => true

/-- The fields that were added and not made the primary key since, after the step. -/
def keep (kept : List Field) : Step → List Field
  | primaryKey k => kept.filter fun f => f.name != k.name
  | field f => kept ++ [f]
  | label _ => kept

/-- The primary key was given the name of another field that was there, after the step. -/
def doubles (e : Entity) (before : Bool) : Step → Bool
  | primaryKey k => k.name != e.primaryKey && e.fieldNames.contains k.name
  | _ => before

end Step

/-- The entity after the steps. -/
def run (e : Entity) (steps : List Step) : Entity :=
  steps.foldl Step.apply e

/-- Fields are only added under names that the entity does not have by then. -/
def isFresh (e : Entity) : List Step → Bool
  | [] => true
  | s :: rest => s.isFresh e && (s.apply e).isFresh rest

/-- The fields that were added and not made the primary key since, in the order in which they were added. -/
def kept (steps : List Step) : List Field :=
  steps.foldl Step.keep []

/-- The last primary key was given the name of another field that was there. -/
def doubled (e : Entity) (before : Bool) : List Step → Bool
  | [] => before
  | s :: rest => (s.apply e).doubled (s.doubles e before) rest

/-- The primary key comes first. The others have different names, and are those kept but for one that has the name of the
primary key. -/
def Headed (e : Entity) (kept : List Field) (doubled : Bool) : Prop :=
  ∃ key others, e.fields = key :: others ∧ key.name = e.primaryKey ∧ (others.map Field.name).Nodup ∧
    (others.filter fun f => f.name != e.primaryKey) = kept ∧ (e.primaryKey ∈ others.map Field.name ↔ doubled)

namespace Headed
variable {e : Entity} {before : List Field} {double : Bool}

theorem new (name : String) : (Entity.new name).Headed [] false :=
  ⟨_, [], rfl, rfl, List.nodup_nil, rfl, by simp⟩

/-- The key so far goes, together with a field of its name: what is left is what was kept. -/
theorem withPrimaryKey (headed : e.Headed before double) (k : Field) :
    (e.withPrimaryKey k).Headed (Step.keep before (.primaryKey k)) (Step.doubles e double (.primaryKey k)) := by
  obtain ⟨key, others, fields, named, distinct, rfl, _⟩ := headed
  have left : (e.withPrimaryKey k).fields = k :: others.filter fun f => f.name != e.primaryKey := by
    simp [Entity.withPrimaryKey, fields, named]
  refine ⟨k, _, left, rfl, distinct.sublist (List.filter_sublist.map _), rfl, ?_⟩
  simp only [Step.doubles, fieldNames, fields, List.map_cons, named, List.mem_map, List.mem_filter, bne_iff_ne,
    Bool.and_eq_true, List.contains_iff_mem, List.mem_cons]
  constructor
  · rintro ⟨f, ⟨member, differ⟩, same⟩
    change f.name = k.name at same
    exact ⟨same ▸ differ, Or.inr ⟨f, member, same⟩⟩
  · rintro ⟨differ, same | ⟨f, member, same⟩⟩
    · exact absurd same differ
    · exact ⟨f, ⟨member, same ▸ differ⟩, same⟩

theorem withField (headed : e.Headed before double) {f : Field} (fresh : Step.isFresh e (.field f)) :
    (e.withField f).Headed (before ++ [f]) double := by
  obtain ⟨key, others, fields, named, distinct, rfl, twice⟩ := headed
  have absent : f.name ≠ e.primaryKey ∧ f.name ∉ others.map Field.name := by
    simpa [Step.isFresh, fieldNames, fields, named] using fresh
  have added : (e.withField f).fields = key :: (others ++ [f]) := by simp [Entity.withField, fields]
  refine ⟨key, _, added, named, ?_, ?_, ?_⟩
  · rw [List.map_append]
    exact List.concat_eq_append ▸ distinct.concat absent.2
  · simp [Entity.withField, List.filter_append, absent.1]
  · rw [List.map_append, List.mem_append, ← twice]
    simp [Entity.withField, absent.1.symm]

theorem step (headed : e.Headed before double) {s : Step} (fresh : s.isFresh e) :
    (s.apply e).Headed (s.keep before) (s.doubles e double) := by
  cases s with
  | primaryKey k => exact headed.withPrimaryKey k
  | field f => exact headed.withField fresh
  | label text => exact headed

theorem run (headed : e.Headed before double) {steps : List Step} (fresh : e.isFresh steps) :
    (e.run steps).Headed (steps.foldl Step.keep before) (e.doubled double steps) := by
  induction steps generalizing e before double with
  | nil => exact headed
  | cons s rest ih =>
    obtain ⟨here, later⟩ := Bool.and_eq_true_iff.1 fresh
    exact ih (headed.step here) later

end Headed

/-- The primary key of an entity comes first, whatever the steps that it is put together by, and the other fields, of
different names, are those that were added and not made the primary key since, in order. Unless the last primary key was
given the name of another field that was there, no two fields have the same name, and the table of the entity is created
with each column declared once and only the first as the primary key. Otherwise that field stays, so that two fields have
the name of the primary key, and no table is created. -/
theorem key_leads {name : String} {steps : List Step} {e : Entity} (built : (new name).run steps = e)
    (fresh : (new name).isFresh steps) : ∃ key others, e.fields = key :: others ∧ key.name = e.primaryKey ∧
      (others.map Field.name).Nodup ∧ (others.filter fun f => f.name != e.primaryKey) = kept steps ∧
      ((new name).doubled false steps = false → others = kept steps ∧ e.fieldNames.Nodup ∧
        e.fieldNames.count e.primaryKey = 1 ∧ ∀ isNew, Sql.Piece.textOf (Sql.Part.all (Sql.Store.createParts isNew e)) =
          "CREATE TABLE IF NOT EXISTS " ++ Sql.quoted e.name ++ " (" ++ Sql.columnText key ++ " PRIMARY KEY" ++
            String.join ((kept steps).map fun f => ", " ++ Sql.columnText f) ++ ")") ∧
      ((new name).doubled false steps = true → e.fieldNames.count e.primaryKey = 2 ∧
        ∀ store : Sql.Store, store.table? e.name = none → ∃ problem, store.create e = .error problem) := by
  obtain ⟨key, others, fields, named, distinct, others_eq, twice⟩ := (Headed.new name).run fresh
  rw [built] at fields named others_eq twice
  have names : e.fieldNames = e.primaryKey :: others.map Field.name := by rw [fieldNames, fields, List.map_cons, named]
  refine ⟨key, others, fields, named, distinct, others_eq, fun single => ?_, fun double => ?_⟩
  · have absent : e.primaryKey ∉ others.map Field.name := by simp [twice, single]
    have plain : ∀ f ∈ others, f.name ≠ e.primaryKey := fun f member same => absent (same ▸ List.mem_map_of_mem member)
    have all : others = kept steps :=
      (List.filter_eq_self.2 fun f member => bne_iff_ne.2 (plain f member)).symm.trans others_eq
    refine ⟨all, ?_, ?_, fun isNew => ?_⟩
    · rw [names]
      exact List.nodup_cons.2 ⟨absent, distinct⟩
    · rw [names, List.count_cons_self, List.count_eq_zero_of_not_mem absent]
    · rw [Sql.Store.textOf_createParts isNew fields named plain, all]
  · have present : e.primaryKey ∈ others.map Field.name := twice.2 double
    refine ⟨?_, fun store isNew => Sql.Store.create_eq_error fields (named ▸ present) isNew⟩
    rw [names, List.count_cons_self, List.count_eq_one_of_mem distinct present]

/-- Between the fields a new primary key leads, and the one before it goes. A field that becomes the primary key stays
where it was, too, and there is no table. -/
theorem code_stays : ∃ part twice : Entity,
    (new "part").run [.field ⟨"name", none, .text, none⟩, .primaryKey ⟨"code", none, .text, none⟩,
      .field ⟨"size", none, .integer, none⟩] = part ∧
    part.fieldNames = ["code", "name", "size"] ∧ part.fieldNames.count part.primaryKey = 1 ∧
    (new "part").run [.field ⟨"code", none, .text, none⟩, .primaryKey ⟨"code", none, .text, none⟩] = twice ∧
    twice.fieldNames.count "code" = 2 ∧
    ∀ store : Sql.Store, store.table? "part" = none → ∃ problem, store.create twice = .error problem := by
  have freshPart : (new "part").isFresh [.field ⟨"name", none, .text, none⟩, .primaryKey ⟨"code", none, .text, none⟩,
      .field ⟨"size", none, .integer, none⟩] := by decide
  have freshTwice : (new "part").isFresh [.field ⟨"code", none, .text, none⟩, .primaryKey ⟨"code", none, .text, none⟩] := by
    decide
  obtain ⟨_, _, _, _, _, _, single, _⟩ := key_leads rfl freshPart
  obtain ⟨_, _, once, _⟩ := single rfl
  obtain ⟨_, _, _, _, _, _, _, double⟩ := key_leads rfl freshTwice
  obtain ⟨both, refused⟩ := double rfl
  exact ⟨_, _, rfl, rfl, once, rfl, both, refused⟩

end Entity
end Reporting
