import Mathlib.Data.List.Basic
import Mathlib.Logic.Function.Basic
import Reporting.Proofs.Walks
import Reporting.Sql.Database

/-!
Joined rows as views. A view has for each walk over relations the row that it leads to, and rows are joined just if
some view has them (`Along.mem_joinAll`). So what a walk leads to does not depend on the other walks of a statement. Where
each of the walks leads to one row at most, joins extend every row in exactly one way (`Along.joinAll_eq`).
-/

namespace Reporting.Sql

/-! ## Rows that are linked -/

/-- The rows of a table that a cell is equal to by the key. -/
def partners (table : StoredTable) (key : String) (left : Operand) : List StoredRow :=
  table.rows.toList.filter fun row => equalColumns left ⟨table.cell row key, table.affinity key⟩

/-- The cell of an entry of joined rows that has the name. -/
def operandOf (entry : StoredTable × Option StoredRow) (name : String) : Operand :=
  ⟨entry.2.elim .null fun row => entry.1.cell row name, entry.1.affinity name⟩

theorem Joined.operand_eq {joined : Joined} {c : Column} {entry : StoredTable × Option StoredRow}
    (found : joined[c.table]? = some entry) : joined.operand c = operandOf entry c.name := by
  unfold operand
  rw [found]
  rfl

/-- The entry is of a row of the table whose key equals the cell, or of none if there is no such row. -/
inductive Linked (table : StoredTable) (key : String) (left : Operand) : StoredTable × Option StoredRow → Prop where
  | row {row : StoredRow} (member : row ∈ table.rows.toList)
    (equal : equalColumns left ⟨table.cell row key, table.affinity key⟩) : Linked table key left (table, some row)
  | none (alone : ∀ row ∈ table.rows.toList, ¬ equalColumns left ⟨table.cell row key, table.affinity key⟩) :
    Linked table key left (table, none)

theorem exists_linked (table : StoredTable) (key : String) (left : Operand) : ∃ entry, Linked table key left entry := by
  by_cases some_ : ∃ row ∈ table.rows.toList, equalColumns left ⟨table.cell row key, table.affinity key⟩
  · obtain ⟨row, member, equal⟩ := some_
    exact ⟨_, .row member equal⟩
  · exact ⟨_, .none fun row member equal => some_ ⟨row, member, equal⟩⟩

theorem Linked.partners_eq {table : StoredTable} {key : String} {left : Operand} {entry : StoredTable × Option StoredRow}
    (linked : Linked table key left entry) (once : (partners table key left).length ≤ 1) :
    entry.1 = table ∧ partners table key left = entry.2.toList := by
  cases linked with
  | @row row member equal =>
    refine ⟨rfl, ?_⟩
    have among : row ∈ partners table key left := List.mem_filter.2 ⟨member, equal⟩
    obtain ⟨only, split⟩ := List.length_eq_one_iff.1 (Nat.le_antisymm once (List.length_pos_of_mem among))
    rw [split, List.mem_singleton] at among
    rw [split, among]
    rfl
  | none alone => exact ⟨rfl, List.filter_eq_nil_iff.2 alone⟩

namespace BoundJoin
variable {b : BoundJoin} {left : Operand} {joined extended : Joined}

theorem mem_found {row : StoredRow} :
    row ∈ b.found left ↔ row ∈ b.table.rows.toList ∧
      equalColumns left ⟨b.table.cell row b.join.key, b.table.affinity b.join.key⟩ := by
  unfold found
  rw [(List.mergeSort_perm _ _).mem_iff, List.mem_filter]

theorem mem_extend : extended ∈ b.extend joined ↔
    ∃ entry, Linked b.table b.join.key (joined.operand b.join.column) entry ∧ extended = joined ++ [entry] := by
  unfold extend
  split
  · rename_i nobody
    have alone : ∀ row, row ∉ b.found (joined.operand b.join.column) := by simp [nobody]
    rw [List.mem_singleton]
    constructor
    · rintro rfl
      exact ⟨_, .none fun row member equal => alone row (mem_found.2 ⟨member, equal⟩), rfl⟩
    · rintro ⟨entry, linked, rfl⟩
      cases linked with
      | row member equal => exact absurd (mem_found.2 ⟨member, equal⟩) (alone _)
      | none => rfl
  · rename_i some_
    obtain ⟨first, rest, found⟩ := List.exists_cons_of_ne_nil some_
    rw [List.mem_map]
    constructor
    · rintro ⟨row, member, rfl⟩
      obtain ⟨inside, equal⟩ := mem_found.1 member
      exact ⟨_, .row inside equal, rfl⟩
    · rintro ⟨entry, linked, rfl⟩
      cases linked with
      | row member equal => exact ⟨_, mem_found.2 ⟨member, equal⟩, rfl⟩
      | none alone =>
        have member : first ∈ b.found (joined.operand b.join.column) := by rw [found]; exact List.mem_cons_self ..
        obtain ⟨inside, equal⟩ := mem_found.1 member
        exact absurd equal (alone first inside)

end BoundJoin

theorem joinAll_append_singleton (bs : List BoundJoin) (b : BoundJoin) (rows : List Joined) :
    joinAll (bs ++ [b]) rows = (joinAll bs rows).flatMap b.extend := by
  induction bs generalizing rows with
  | nil => rfl
  | cons first rest ih => exact ih (rows.flatMap first.extend)

/-- Tables are joined to each row by itself. -/
theorem joinAll_eq_flatMap (bs : List BoundJoin) (rows : List Joined) :
    joinAll bs rows = rows.flatMap fun row => joinAll bs [row] := by
  induction bs generalizing rows with
  | nil => simp [joinAll]
  | cons b rest ih =>
    simp only [joinAll]
    rw [ih, List.flatMap_assoc]
    refine List.flatMap_congr fun row _ => ?_
    rw [ih ([row].flatMap b.extend), List.flatMap_singleton]

/-- No row is lost where tables are joined. -/
theorem exists_mem_joinAll (bs : List BoundJoin) {rows : List Joined} {start : Joined} (member : start ∈ rows) :
    ∃ more, start ++ more ∈ joinAll bs rows := by
  induction bs generalizing rows start with
  | nil => exact ⟨[], by rwa [List.append_nil]⟩
  | cons b rest ih =>
    obtain ⟨entry, linked⟩ := exists_linked b.table b.join.key (start.operand b.join.column)
    have extended : start ++ [entry] ∈ rows.flatMap b.extend :=
      List.mem_flatMap.2 ⟨start, member, BoundJoin.mem_extend.2 ⟨entry, linked, rfl⟩⟩
    obtain ⟨more, joined⟩ := ih extended
    exact ⟨entry :: more, by rwa [List.append_cons]⟩

/-! ## Views -/

/-- The joins lead along the walks, one each. A join goes on from the end of a walk before, or from the first table. -/
inductive Along (schema : Schema) (root : Entity) : List Join → List (List String) → Prop where
  | none : Along schema root [] []
  | join {joins : List Join} {walks : List (List String)} {place : Nat} {before : List String} {name : String} {e : Entity}
    (along : Along schema root joins walks) (starts : ([] :: walks)[place]? = some before)
    (reached : schema.follow root (before ++ [name]) = some e) (fresh : before ++ [name] ∉ walks) :
    Along schema root (joins ++ [⟨e.name, ⟨place, name⟩, e.primaryKey⟩]) (walks ++ [before ++ [name]])

namespace Along
variable {schema : Schema} {root : Entity} {joins : List Join} {walks : List (List String)}

theorem length_eq (along : Along schema root joins walks) : joins.length = walks.length := by
  induction along with
  | none => rfl
  | join _ _ _ _ ih => simp [ih]

/-- A walk goes on from the end of another. -/
theorem mem_of_mem (along : Along schema root joins walks) {before : List String} {name : String}
    (member : before ++ [name] ∈ walks) : before ∈ [] :: walks := by
  induction along with
  | none => cases member
  | join _ starts _ _ ih =>
    rw [← List.cons_append]
    refine List.mem_append_left _ ?_
    rcases List.mem_append.1 member with earlier | last
    · exact ih earlier
    · obtain ⟨rfl, -⟩ := List.append_inj' (List.mem_singleton.1 last) rfl
      exact List.mem_of_getElem? starts

/-- A walk leads to an entity. -/
theorem follow_of_mem (along : Along schema root joins walks) {walk : List String} (member : walk ∈ [] :: walks) :
    ∃ e, schema.follow root walk = some e := by
  induction along with
  | none =>
    rw [List.mem_singleton.1 member]
    exact ⟨root, rfl⟩
  | join _ _ reached _ ih =>
    rw [← List.cons_append] at member
    rcases List.mem_append.1 member with earlier | last
    · exact ih earlier
    · rw [List.mem_singleton.1 last]
      exact ⟨_, reached⟩

end Along

/-- What each walk from a row leads to. -/
abbrev View := List String → StoredTable × Option StoredRow

/-- The view begins with a row of the entity's table, and each of the walks leads on to a row that is linked. -/
structure View.Follows (db : Database) (root : Entity) (walks : List (List String)) (v : View) : Prop where
  start : ∃ table, db.store.table? root.name = some table ∧ ∃ row ∈ table.rows.toList, v [] = (table, some row)
  step : ∀ before name, before ++ [name] ∈ walks → ∃ e table, db.schema.follow root (before ++ [name]) = some e ∧
    db.store.table? e.name = some table ∧ Linked table e.primaryKey (operandOf (v before) name) (v (before ++ [name]))

namespace View
variable {db : Database} {root : Entity} {walks fewer : List (List String)} {v : View}

theorem Follows.mono (follows : v.Follows db root walks) (inside : fewer ⊆ walks) : v.Follows db root fewer :=
  ⟨follows.start, fun before name member => follows.step before name (inside member)⟩

/-- A view only matters at the walks. -/
theorem Follows.congr (follows : v.Follows db root walks) {w : View} (same : ∀ walk ∈ [] :: walks, w walk = v walk)
    (closed : ∀ before name, before ++ [name] ∈ walks → before ∈ [] :: walks) : w.Follows db root walks := by
  refine ⟨?_, fun before name member => ?_⟩
  · rw [same [] (List.mem_cons_self ..)]
    exact follows.start
  · rw [same before (closed before name member), same _ (List.mem_cons_of_mem _ member)]
    exact follows.step before name member

/-- A view goes on along one more walk. -/
theorem Follows.extend (follows : v.Follows db root walks)
    (closed : ∀ before name, before ++ [name] ∈ walks → before ∈ [] :: walks) {before : List String} {name : String}
    {e : Entity} {table : StoredTable} {entry : StoredTable × Option StoredRow} (starts : before ∈ [] :: walks)
    (fresh : before ++ [name] ∉ walks) (reached : db.schema.follow root (before ++ [name]) = some e)
    (there : db.store.table? e.name = some table)
    (linked : Linked table e.primaryKey (operandOf (v before) name) entry) :
    ∃ w : View, w.Follows db root (walks ++ [before ++ [name]]) ∧ (∀ walk ∈ [] :: walks, w walk = v walk) ∧
      w (before ++ [name]) = entry := by
  let w : View := Function.update v (before ++ [name]) entry
  have apart : ∀ walk ∈ [] :: walks, walk ≠ before ++ [name] := by
    rintro walk member rfl
    rcases List.mem_cons.1 member with none_ | member
    · simp at none_
    · exact fresh member
  have same : ∀ walk ∈ [] :: walks, w walk = v walk := fun walk member => Function.update_of_ne (apart walk member) ..
  have new : w (before ++ [name]) = entry := Function.update_self ..
  have kept := follows.congr same closed
  refine ⟨w, ⟨kept.start, fun before' name' member => ?_⟩, same, new⟩
  rcases List.mem_append.1 member with inside | here
  · exact kept.step before' name' inside
  · have ends : before' ++ [name'] = before ++ [name] := List.mem_singleton.1 here
    obtain ⟨rfl, names⟩ := List.append_inj' ends rfl
    obtain rfl : name' = name := List.singleton_inj.1 names
    refine ⟨e, table, reached, there, ?_⟩
    rw [new, same before' starts]
    exact linked

end View

/-- The rows that are joined to some of the table's are those of the views that begin with one of these. -/
theorem Along.mem_joinAll {db : Database} {root : Entity} {joins : List Join} {walks : List (List String)}
    (along : Along db.schema root joins walks) {table : StoredTable} (first : db.store.table? root.name = some table)
    {starts : List StoredRow} (inside : starts ⊆ table.rows.toList) {bs : List BoundJoin} (joined : bs.map BoundJoin.join = joins)
    (tables : ∀ b ∈ bs, db.store.table? b.join.table = some b.table) (row : Joined) :
    row ∈ joinAll bs (starts.map fun start => [(table, some start)]) ↔
      ∃ v : View, v.Follows db root walks ∧ (∃ start ∈ starts, v [] = (table, some start)) ∧ row = ([] :: walks).map v := by
  -- By the last join: a view along the walks so far goes on along the new one, and there is no other way to extend it.
  induction along generalizing bs row with
  | none =>
    obtain rfl := List.map_eq_nil_iff.1 joined
    rw [joinAll, List.mem_map]
    constructor
    · rintro ⟨start, member, rfl⟩
      exact ⟨fun _ => (table, some start), ⟨⟨table, first, start, inside member, rfl⟩, fun _ _ none_ => by cases none_⟩,
        ⟨start, member, rfl⟩, rfl⟩
    · rintro ⟨v, _, ⟨start, member, here⟩, rfl⟩
      exact ⟨start, member, by rw [List.map_singleton, here]⟩
  | @join joins walks place before name e along begins reached fresh ih =>
    obtain ⟨bs, lasts, rfl, others, one⟩ := List.map_eq_append_iff.1 joined
    obtain ⟨b, rfl, last⟩ := List.map_eq_singleton_iff.1 one
    have there := tables b (by simp)
    rw [last] at there
    have earlier := ih others fun b member => tables b (List.mem_append_left _ member)
    have operand : ∀ v : View, Joined.operand (([] :: walks).map v) b.join.column = operandOf (v before) name := by
      intro v
      rw [last]
      refine Joined.operand_eq ?_
      rw [List.getElem?_map, begins]
      rfl
    rw [joinAll_append_singleton, List.mem_flatMap]
    constructor
    · rintro ⟨shorter, member, extended⟩
      obtain ⟨v, follows, ⟨start, among, here⟩, rfl⟩ := (earlier shorter).1 member
      obtain ⟨entry, linked, rfl⟩ := BoundJoin.mem_extend.1 extended
      rw [operand, last] at linked
      obtain ⟨w, further, same, new⟩ := follows.extend (fun _ _ => along.mem_of_mem) (List.mem_of_getElem? begins) fresh
        reached there linked
      refine ⟨w, further, ⟨start, among, (same [] (List.mem_cons_self ..)).trans here⟩, ?_⟩
      rw [← List.cons_append, List.map_append, List.map_congr_left same, List.map_singleton, new]
    · rintro ⟨v, follows, begun, rfl⟩
      refine ⟨_, (earlier _).2 ⟨v, follows.mono (List.subset_append_left ..), begun, rfl⟩, BoundJoin.mem_extend.2 ?_⟩
      obtain ⟨e', table', reached', found, linked⟩ := follows.step before name (by simp)
      obtain rfl : e = e' := Option.some.inj (reached.symm.trans reached')
      obtain rfl : b.table = table' := Option.some.inj (there.symm.trans found)
      refine ⟨v (before ++ [name]), ?_, ?_⟩
      · rw [operand, last]
        exact linked
      · rw [← List.cons_append, List.map_append, List.map_singleton]

/-! ## Views in which rows have one partner at most -/

/-- Each of the walks leads on to the only row that is linked, or to none if there is none. -/
def View.Sole (db : Database) (root : Entity) (walks : List (List String)) (v : View) : Prop :=
  ∀ before name, before ++ [name] ∈ walks → ∃ e table, db.schema.follow root (before ++ [name]) = some e ∧
    db.store.table? e.name = some table ∧ (v (before ++ [name])).1 = table ∧
    partners table e.primaryKey (operandOf (v before) name) = (v (before ++ [name])).2.toList

/-- Each of the walks leads on to one row at most. -/
def View.Once (db : Database) (root : Entity) (walks : List (List String)) (v : View) : Prop :=
  ∀ before name, before ++ [name] ∈ walks → ∀ e table, db.schema.follow root (before ++ [name]) = some e →
    db.store.table? e.name = some table → (partners table e.primaryKey (operandOf (v before) name)).length ≤ 1

theorem View.Follows.sole {db : Database} {root : Entity} {walks : List (List String)} {v : View}
    (follows : v.Follows db root walks) (once : v.Once db root walks) : v.Sole db root walks := by
  intro before name member
  obtain ⟨e, table, reached, found, linked⟩ := follows.step before name member
  obtain ⟨entry, partner⟩ := linked.partners_eq (once before name member e table reached found)
  exact ⟨e, table, reached, found, entry, partner⟩

theorem BoundJoin.extend_eq {b : BoundJoin} {joined : Joined} {row : Option StoredRow}
    (only : partners b.table b.join.key (joined.operand b.join.column) = row.toList) :
    b.extend joined = [joined ++ [(b.table, row)]] := by
  have found : b.found (joined.operand b.join.column) = row.toList := by
    have perm : (b.found (joined.operand b.join.column)).Perm row.toList := by
      rw [← only]
      exact List.mergeSort_perm ..
    cases row with
    | none => exact List.perm_nil.1 perm
    | some row => exact List.perm_singleton.1 perm
  unfold extend
  rw [found]
  cases row <;> rfl

/-- Where each of the walks leads to one row at most, joins neither lose nor repeat a row. -/
theorem Along.joinAll_eq {db : Database} {root : Entity} {joins : List Join} {walks : List (List String)}
    (along : Along db.schema root joins walks) {bs : List BoundJoin} (joined : bs.map BoundJoin.join = joins)
    (tables : ∀ b ∈ bs, db.store.table? b.join.table = some b.table) {views : List View}
    (sole : ∀ v ∈ views, v.Sole db root walks) :
    joinAll bs (views.map fun v => [v []]) = views.map fun v => ([] :: walks).map v := by
  induction along generalizing bs with
  | none =>
    obtain rfl := List.map_eq_nil_iff.1 joined
    rfl
  | @join joins walks place before name e along starts reached fresh ih =>
    obtain ⟨bs, lasts, rfl, others, one⟩ := List.map_eq_append_iff.1 joined
    obtain ⟨b, rfl, last⟩ := List.map_eq_singleton_iff.1 one
    have there := tables b (by simp)
    rw [last] at there
    rw [joinAll_append_singleton, ih others (fun b member => tables b (List.mem_append_left _ member))
      fun v member before name inside => sole v member before name (List.mem_append_left _ inside)]
    rw [List.flatMap_map, List.map_eq_flatMap]
    refine List.flatMap_congr fun v member => ?_
    obtain ⟨e', table, reached', found, entry, only⟩ := sole v member before name (by simp)
    obtain rfl : e = e' := Option.some.inj (reached.symm.trans reached')
    obtain rfl : b.table = table := Option.some.inj (there.symm.trans found)
    have operand : Joined.operand (([] :: walks).map v) b.join.column = operandOf (v before) name := by
      rw [last]
      refine Joined.operand_eq ?_
      rw [List.getElem?_map, starts]
      rfl
    have partner : partners b.table b.join.key (Joined.operand (([] :: walks).map v) b.join.column) =
        (v (before ++ [name])).2.toList := by
      rw [operand, last]
      exact only
    rw [BoundJoin.extend_eq partner, ← entry]
    simp

end Reporting.Sql
