import Reporting.Proofs.Memory.Index
import Reporting.Proofs.Order

/-!
Related rows in the order of their primary keys. They are the records with the keys asked for, each once, and no record
comes before one with a smaller key, unless three of the keys are out of line (`Memory.relatedRows_ordered`): a missing key
keeps two records apart that are in the wrong order (`Memory.unkeyed_between`). Of many such keys a sort may make any order,
or nothing at all, so that this is about all sorts that keep to what is told of them (`Memory.Sorting`).
-/

namespace Reporting
open Value (OutOfLine)

namespace Memory

/-- No record stands behind one with a larger primary key. -/
def SortedById (primaryKey : String) (records : List Record) : Prop :=
  records.Pairwise fun a b => ¬ (b.cell primaryKey).Before (a.cell primaryKey)

variable {primaryKey : String} {record : Record} {sorted records : List Record}

/-! ## Sorting by primary key -/

/-- No three of the records have primary keys that are out of line. -/
def InLine (primaryKey : String) (records : List Record) : Prop :=
  ∀ a ∈ records, ∀ b ∈ records, ∀ c ∈ records, ¬ OutOfLine (a.cell primaryKey) (b.cell primaryKey) (c.cell primaryKey)

theorem InLine.of_subset (inLine : InLine primaryKey records) (subset : sorted ⊆ records) : InLine primaryKey sorted :=
  fun a ha b hb c hc => inLine a (subset ha) b (subset hb) c (subset hc)

/-- Primary keys of one kind are in line. -/
theorem InLine.of_ranks {kind : FieldKind} (ranked : ∀ row ∈ records, kind.ranks (row.cell primaryKey)) :
    InLine primaryKey records :=
  fun a ha b hb c hc => FieldKind.not_outOfLine (ranked a ha) (ranked b hb) (ranked c hc)

/-- One more record among those before it, the last first. -/
theorem pairwise_insertById (inLine : InLine primaryKey (record :: sorted))
    (ordered : sorted.Pairwise fun a b => ¬ (a.cell primaryKey).Before (b.cell primaryKey)) :
    (insertById primaryKey record sorted).Pairwise fun a b => ¬ (a.cell primaryKey).Before (b.cell primaryKey) := by
  induction sorted with
  | nil => exact List.pairwise_singleton ..
  | cons last before ih =>
    obtain ⟨below, rest⟩ := List.pairwise_cons.1 ordered
    rw [insertById]
    split
    · rename_i less
      have further : InLine primaryKey (record :: before) :=
        inLine.of_subset (List.cons_subset_cons record (List.subset_cons_self last before))
      refine List.pairwise_cons.2 ⟨fun other member => ?_, ih further rest⟩
      rcases List.mem_cons.1 ((insertById_perm ..).mem_iff.1 member) with rfl | member
      · exact Value.Before.asymm less
      · exact below other member
    · rename_i notLess
      refine List.pairwise_cons.2 ⟨fun other member => ?_, ordered⟩
      rcases List.mem_cons.1 member with rfl | member
      · exact notLess
      -- The last one is between the record and those before it.
      · exact fun less => inLine other (by simp [member]) last (by simp) record (by simp)
          ⟨below other member, notLess, less⟩

theorem sortedById_sortById (inLine : InLine primaryKey records) : SortedById primaryKey (sortById primaryKey records) := by
  have step : ∀ sorted : List Record, InLine primaryKey (records ++ sorted) →
      (sorted.Pairwise fun a b => ¬ (a.cell primaryKey).Before (b.cell primaryKey)) →
      (records.foldl (fun sorted record => insertById primaryKey record sorted) sorted).Pairwise
        fun a b => ¬ (a.cell primaryKey).Before (b.cell primaryKey) := by
    clear inLine
    induction records with
    | nil => exact fun sorted _ ordered => ordered
    | cons first rest ih =>
      intro sorted inLine ordered
      refine ih _ (inLine.of_subset fun other member => ?_)
        (pairwise_insertById (inLine.of_subset fun other member => ?_) ordered)
      · rcases List.mem_append.1 member with later | inside
        · simp [later]
        · rcases List.mem_cons.1 ((insertById_perm ..).mem_iff.1 inside) with rfl | inside
          · simp
          · simp [inside]
      · rcases List.mem_cons.1 member with rfl | inside
        · simp
        · simp [inside]
  unfold SortedById sortById
  rw [List.pairwise_reverse]
  exact step [] (by simpa using inLine) List.Pairwise.nil

/-- Where no record has a smaller primary key than the one in front of it, all stay where they are. -/
theorem sortById_of_isChain (chain : records.IsChain fun a b => ¬ (b.cell primaryKey).Before (a.cell primaryKey)) :
    sortById primaryKey records = records := by
  have step : ∀ sorted : List Record,
      (sorted.reverse ++ records).IsChain (fun a b => ¬ (b.cell primaryKey).Before (a.cell primaryKey)) →
      records.foldl (fun sorted record => insertById primaryKey record sorted) sorted = records.reverse ++ sorted := by
    clear chain
    induction records with
    | nil => exact fun sorted _ => rfl
    | cons first rest ih =>
      intro sorted chain
      have stays : insertById primaryKey first sorted = first :: sorted := by
        cases sorted with
        | nil => rfl
        | cons last before =>
          obtain ⟨_, _, next⟩ := List.isChain_append.1 chain
          exact if_neg (next last (by simp) first (by simp))
      rw [List.foldl_cons, stays, ih (first :: sorted) (by simpa using chain)]
      simp
  unfold sortById
  rw [step [] chain]
  simp

/-! ## Sorts by what is told of them -/

/-- The order in which a sort leaves the records is told: of few, that of inserting each in turn; of any number with
primary keys in line, the only one that keeps records in order whose keys do not tell them apart. -/
def Told (primaryKey : String) (records : List Record) : Prop :=
  records.length ≤ 20 ∨ InLine primaryKey records

/-- A sort by primary key, as far as its order is told. Of other records it makes any order, or nothing when it finds the
keys out of line. -/
structure Sorting where
  sort : String → List Record → Option (List Record)
  perm {primaryKey : String} {records sorted : List Record} : sort primaryKey records = some sorted → sorted.Perm records
  told {primaryKey : String} {records : List Record} :
    Told primaryKey records → sort primaryKey records = some (sortById primaryKey records)

namespace Sorting

/-- Inserting each record in turn, however many there are. -/
def insertion : Sorting where
  sort primaryKey records := some (sortById primaryKey records)
  perm sorted := Option.some.inj sorted ▸ sortById_perm ..
  told _ := rfl

/-- What a sort makes of records, if anything. -/
structure Orders (primaryKey : String) (records : List Record) (sorted : Option (List Record)) : Prop where
  ends : Told primaryKey records → sorted.isSome
  perm : ∀ rows, sorted = some rows → rows.Perm records
  /-- no record stands behind one with a larger primary key, or three of the keys are out of line -/
  sorted_or_outOfLine : ∀ rows, sorted = some rows → SortedById primaryKey rows ∨ ∃ a ∈ rows, ∃ b ∈ rows, ∃ c ∈ rows,
    OutOfLine (a.cell primaryKey) (b.cell primaryKey) (c.cell primaryKey)
  /-- keys of one kind are sorted, however many there are -/
  ranked : ∀ kind : FieldKind, (∀ row ∈ records, kind.ranks (row.cell primaryKey)) →
    ∃ rows, sorted = some rows ∧ SortedById primaryKey rows
  /-- three records whose keys are out of line stay as they are -/
  unsorted : ∀ a b c, records = [a, b, c] → OutOfLine (a.cell primaryKey) (b.cell primaryKey) (c.cell primaryKey) →
    sorted = some records ∧ ¬ SortedById primaryKey records

theorem sorted_of_inLine (sorting : Sorting) (inLine : InLine primaryKey records) :
    ∃ rows, sorting.sort primaryKey records = some rows ∧ SortedById primaryKey rows :=
  ⟨_, sorting.told (Or.inr inLine), sortedById_sortById inLine⟩

theorem orders (sorting : Sorting) (primaryKey : String) (records : List Record) :
    Orders primaryKey records (sorting.sort primaryKey records) where
  ends told := by rw [sorting.told told, Option.isSome_some]
  perm rows sorted := sorting.perm sorted
  sorted_or_outOfLine rows sorted := by
    have perm := sorting.perm sorted
    by_cases inLine : InLine primaryKey records
    · obtain ⟨_, sorted', ordered⟩ := sorting.sorted_of_inLine inLine
      obtain rfl := Option.some.inj (sorted.symm.trans sorted')
      exact Or.inl ordered
    · unfold InLine at inLine
      push Not at inLine
      obtain ⟨a, ha, b, hb, c, hc, outOfLine⟩ := inLine
      exact Or.inr ⟨a, perm.mem_iff.2 ha, b, perm.mem_iff.2 hb, c, perm.mem_iff.2 hc, outOfLine⟩
  ranked kind ranked := sorting.sorted_of_inLine (.of_ranks ranked)
  unsorted a b c three outOfLine := by
    obtain ⟨first, second, less⟩ := outOfLine
    have stay : sortById primaryKey records = records := by
      rw [three]
      exact sortById_of_isChain (by simp [first, second])
    refine ⟨?_, fun sorted => ?_⟩
    · rw [sorting.told (Or.inl (by simp [three])), stay]
    · rw [three] at sorted
      exact (List.pairwise_cons.1 sorted).1 c (by simp) less

end Sorting

/-! ## Related rows -/

variable {m : Memory} {entity : String} {e : Entity} {fields : List String} {places : List (String × ResolvedPath)}

/-- The record is asked for by its primary key, if any are named. -/
theorem wants_iff {ids : Option (List Value)} : wants primaryKey ids record = true ↔
    ∀ list, ids = some list → ∃ key, record.get? primaryKey = some key ∧ ∃ id ∈ list, id.key = key.key := by
  unfold wants
  cases ids with
  | none => simp
  | some list => cases record.get? primaryKey <;> simp

theorem relatedRowsBy_eq {f : Type → Type} [Monad f] (sort : String → List Record → f (List Record))
    (known : m.schema.entity entity = .ok e) (resolved : m.resolveFields entity fields = .ok places)
    (ids : Option (List Value)) :
    m.relatedRowsBy sort entity ids fields = .ok (List.map (m.projectRelated e.primaryKey places) <$>
      sort e.primaryKey ((m.tableOf entity).rows.toList.filter (wants e.primaryKey ids))) := by
  unfold relatedRowsBy
  rw [known, resolved]
  rfl

/-- The related rows are of the records with the keys asked for, of all if none are named. By any sort they come to an end,
in an order, as `Sorting.Orders` has it; where the order is told, it is that of `relatedRows`. -/
theorem relatedRows_ordered (sorting : Sorting) (known : m.schema.entity entity = .ok e)
    (resolved : m.resolveFields entity fields = .ok places) (ids : Option (List Value)) :
    let wanted := (m.tableOf entity).rows.toList.filter (wants e.primaryKey ids)
    ∃ sorted : Option (List Record), m.relatedRowsBy sorting.sort entity ids fields =
        .ok (sorted.map (List.map (m.projectRelated e.primaryKey places))) ∧
      (∀ row, wants e.primaryKey ids row = true ↔
        ∀ list, ids = some list → ∃ key, row.get? e.primaryKey = some key ∧ ∃ id ∈ list, id.key = key.key) ∧
      Sorting.Orders e.primaryKey wanted sorted ∧
      (Told e.primaryKey wanted →
        m.relatedRowsBy sorting.sort entity ids fields = (m.relatedRows entity ids fields).map some) := by
  intro wanted
  refine ⟨_, relatedRowsBy_eq sorting.sort known resolved ids, fun row => wants_iff, sorting.orders e.primaryKey wanted, ?_⟩
  intro told
  rw [relatedRowsBy_eq sorting.sort known resolved, sorting.told told, relatedRows_eq_ok_iff.2 ⟨e, places, known, resolved, rfl⟩]
  rfl

/-! ## A client without a key -/

namespace Unkeyed

/-- The second client, one without a primary key, and the first one. -/
def clients : List Record :=
  [Keyed.ofList [("id", .int 2)], Keyed.ofList [("id", .null)], Keyed.ofList [("id", .int 1)]]

def memory : Memory where
  schema := .ofEntities [Entity.new "client"]
  tables := Keyed.ofList [("client", clients.foldl (fun t record => t.insert "id" record) Table.empty)]

end Unkeyed

/-- The client without a key keeps the others in the order in which they were inserted. Of keys that are two texts and a
number between them, no order is right, as each is less than another. -/
theorem unkeyed_between : ∃ rows, Unkeyed.memory.relatedRows "client" none [] = .ok rows ∧
    Unkeyed.memory.relatedRowsBy Sorting.insertion.sort "client" none [] = .ok (some rows) ∧
    rows.map (fun row => row.cell "id") = [.int 2, .null, .int 1] ∧ (Value.int 1).Before (.int 2) ∧
    ¬ SortedById "id" Unkeyed.clients ∧
    (Value.text "10.5").Before (.text "9.5") ∧ (Value.text "9.5").Before (.int 10) ∧ (Value.int 10).Before (.text "10.5") := by
  have known : Unkeyed.memory.schema.entity "client" = .ok (Entity.new "client") := rfl
  have resolved : Unkeyed.memory.resolveFields "client" [] = .ok _ := rfl
  obtain ⟨sorted, answered, _, orders, told⟩ := relatedRows_ordered Sorting.insertion known resolved none
  obtain ⟨rfl, notSorted⟩ := orders.unsorted _ _ _ rfl (by decide)
  have same := answered.symm.trans (told (Or.inl (by decide)))
  obtain ⟨rows, found, shown⟩ := Results.map_eq_ok_iff.1 same.symm
  cases shown
  exact ⟨_, found, answered, rfl, by decide, notSorted, by decide, by decide, by decide⟩

end Memory
end Reporting
