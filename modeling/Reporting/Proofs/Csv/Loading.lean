import Reporting.Proofs.Csv
import Reporting.Proofs.Kinds

/-!
What a load makes of the records delivered to it. Each is either taken, as a record of the entity with what stands under
the header (`Csv.Reads`), or told of with its line and the first cell that cannot be read (`Csv.Breaks`). The table of the
entity grows by those that are taken, and nothing else changes (`Csv.Accounts`).
-/

namespace Reporting.Csv

/-! ## Cells of their kinds -/

theorem holds_of_readCell? {kind : FieldKind} {cell : List Char} {v : Value} (read : readCell? kind cell = some v) :
    kind.holds v := by
  unfold readCell? at read
  cases kind with
  | relation =>
    dsimp only at read
    split at read <;> cases read <;> rfl
  | text =>
    cases read
    rfl
  | _ =>
    obtain ⟨_, _, rfl⟩ := Option.map_eq_some_iff.1 read
    rfl

theorem holds_of_parseCell {cell : String} {kind : FieldKind} {v : Value} (read : parseCell cell kind = .ok v) :
    kind.holds v := by
  unfold parseCell at read
  dsimp only at read
  split at read
  · cases read
    cases kind <;> rfl
  · split at read
    · rename_i found
      cases read
      exact holds_of_readCell? found
    · cases read

/-! ## Records of the entity -/

/-- The record has a cell under the name of each field and no other, and in each a value of its field's kind. -/
structure Conforms (e : Entity) (record : Record) : Prop where
  names : ∀ name, record.contains name ↔ name ∈ e.fieldNames
  kinds : ∀ name v, record.get? name = some v → ∃ f ∈ e.fields, f.name = name ∧ f.kind.holds v

section Conforms
variable {e : Entity} {record : Record}

/-- Before a cell is read, all are missing. -/
theorem conforms_blank (e : Entity) : Conforms e (Keyed.ofList (e.fields.map fun f => (f.name, .null))) where
  names name := by
    unfold Keyed.ofList
    rw [Keyed.contains_insertAll_iff, List.map_map]
    constructor
    · rintro (inside | old)
      · exact inside
      · cases old
    · exact Or.inl
  kinds name v found := by
    rcases Keyed.mem_of_get?_insertAll found with inside | old
    · obtain ⟨f, member, same⟩ := List.mem_map.1 inside
      cases same
      refine ⟨f, member, rfl, ?_⟩
      cases f.kind <;> rfl
    · cases old

theorem Conforms.insert {f : Field} {v : Value} (conforms : Conforms e record) (member : f ∈ e.fields)
    (holds : f.kind.holds v) : Conforms e (Keyed.insert record f.name v) where
  names name := by
    by_cases same : name = f.name
    · subst same
      have inside : f.name ∈ e.fieldNames := List.mem_map_of_mem member
      simp [Keyed.contains, inside]
    · rw [← conforms.names name]
      unfold Keyed.contains
      rw [Keyed.get?_insert_of_ne _ same]
  kinds name w found := by
    rcases Keyed.get?_insert_cases found with ⟨rfl, rfl⟩ | before
    · exact ⟨f, member, rfl, holds⟩
    · exact conforms.kinds name w before

theorem mem_of_columnsOf {header : List String} {place : Nat} {f : Field} (member : (place, f) ∈ columnsOf e header) :
    f ∈ e.fields := by
  obtain ⟨_, _, found⟩ := List.mem_filterMap.1 member
  obtain ⟨_, answers, same⟩ := Option.map_eq_some_iff.1 found
  cases same
  exact Entity.mem_of_field? answers

/-- However the header's columns stand and however many cells there are, a record that is read is whole. -/
theorem conforms_of_coerceRow {header cells : List String} (read : coerceRow e (columnsOf e header) cells = .ok record) :
    Conforms e record := by
  -- The blank record is whole, and every column keeps it so.
  refine Results.of_foldlM (fun p member before after conforms step => ?_) (conforms_blank e) read
  obtain ⟨v, parsed, rfl⟩ := Results.map_eq_ok_iff.1 step
  exact conforms.insert (mem_of_columnsOf member) (holds_of_parseCell parsed)

end Conforms

/-! ## Cells under a header -/

/-- The header names the field at the place. -/
def Heads (e : Entity) (header : List String) (place : Nat) (f : Field) : Prop :=
  ∃ name, header[place]? = some name ∧ e.field? (Text.trim name) = some f

/-- What is read of the cells under the header: a whole record, with what stands in the last place of each field that the
header names, and nothing for the other fields. All that stands in the place of a field can be read. -/
structure Reads (e : Entity) (header cells : List String) (record : Record) : Prop extends Conforms e record where
  readable : ∀ place f, Heads e header place f → ∃ v, parseCell (cells[place]?.getD "") f.kind = .ok v
  headed : ∀ place f v, Heads e header place f → (∀ later g, Heads e header later g → g.name = f.name → later ≤ place) →
    parseCell (cells[place]?.getD "") f.kind = .ok v → record.get? f.name = some v
  unheaded : ∀ f ∈ e.fields, (∀ place g, Heads e header place g → g.name ≠ f.name) → record.get? f.name = some .null

/-- The problem is that of the first cell in the place of a field that cannot be read. -/
def Breaks (e : Entity) (header cells : List String) (problem : SourceError) : Prop :=
  ∃ place f, Heads e header place f ∧ parseCell (cells[place]?.getD "") f.kind = .error problem ∧
    ∀ earlier g, earlier < place → Heads e header earlier g → ∃ v, parseCell (cells[earlier]?.getD "") g.kind = .ok v

section Heads
variable {e : Entity} {header cells : List String} {place : Nat} {f : Field} {record : Record}

theorem mem_columnsOf_iff : (place, f) ∈ columnsOf e header ↔ Heads e header place f := by
  unfold columnsOf Heads
  simp only [List.mem_filterMap, Prod.exists, List.mem_zipIdx_iff_getElem?, Option.map_eq_some_iff, Prod.mk.injEq]
  constructor
  · rintro ⟨name, place', there, f', found, rfl, rfl⟩
    exact ⟨name, there, found⟩
  · rintro ⟨name, there, found⟩
    exact ⟨name, place, there, f, found, rfl, rfl⟩

theorem pairwise_columnsOf (e : Entity) (header : List String) : (columnsOf e header).Pairwise fun p q => p.1 < q.1 := by
  have places : (header.zipIdx.map Prod.snd).Pairwise (· < ·) := by
    rw [List.zipIdx_map_snd]
    exact List.pairwise_lt_range'
  unfold columnsOf
  refine List.Pairwise.filterMap _ (fun a b less p found q found' => ?_) (List.pairwise_map.1 places)
  obtain ⟨_, _, rfl⟩ := Option.map_eq_some_iff.1 found
  obtain ⟨_, _, rfl⟩ := Option.map_eq_some_iff.1 found'
  exact less

/-- The columns before and behind that of a place are those that the header names before and behind it. -/
theorem columnsOf_split {front back : List (Nat × Field)} (split : columnsOf e header = front ++ (place, f) :: back) :
    (∀ p ∈ back, place < p.1 ∧ Heads e header p.1 p.2) ∧ ∀ earlier g, earlier < place → Heads e header earlier g →
      (earlier, g) ∈ front := by
  have ordered := pairwise_columnsOf e header
  rw [split, List.pairwise_append, List.pairwise_cons] at ordered
  obtain ⟨_, ⟨behind, _⟩, _⟩ := ordered
  refine ⟨fun p member => ⟨behind p member, mem_columnsOf_iff.1 ?_⟩, fun earlier g less heads => ?_⟩
  · rw [split]
    simp [member]
  · have member := mem_columnsOf_iff.2 heads
    rw [split, List.mem_append, List.mem_cons] at member
    rcases member with inside | same | inside
    · exact inside
    · cases same
      exact absurd less (Nat.lt_irrefl _)
    · exact absurd less (Nat.lt_asymm (behind _ inside))

theorem reads_of_coerceRow (read : coerceRow e (columnsOf e header) cells = .ok record) : Reads e header cells record where
  toConforms := conforms_of_coerceRow read
  readable place f heads := by
    obtain ⟨start, next, step⟩ := Results.step_of_foldlM read (mem_columnsOf_iff.2 heads)
    obtain ⟨v, parsed, _⟩ := Results.map_eq_ok_iff.1 step
    exact ⟨v, parsed⟩
  headed place f v heads last parsed := by
    obtain ⟨front, back, split⟩ := List.append_of_mem (mem_columnsOf_iff.2 heads)
    obtain ⟨w, parsed', found⟩ := get?_coerceColumns split (fun p member same => by
      obtain ⟨behind, later⟩ := (columnsOf_split split).1 p member
      exact absurd behind (Nat.not_lt.2 (last p.1 p.2 later same))) read
    obtain rfl : v = w := Except.ok.inj (parsed.symm.trans parsed')
    exact found
  unheaded f member away := by
    have blank := conforms_blank e
    obtain ⟨v, there⟩ := Option.isSome_iff_exists.1 ((blank.names f.name).2 (List.mem_map_of_mem member))
    rw [get?_coerceColumns_of_ne (fun p inside => away p.1 p.2 (mem_columnsOf_iff.1 inside)) read, there]
    rcases Keyed.mem_of_get?_insertAll there with inside | old
    · obtain ⟨_, _, same⟩ := List.mem_map.1 inside
      exact congrArg some (Prod.mk.inj same).2.symm
    · cases old

theorem breaks_of_coerceRow {problem : SourceError} (failed : coerceRow e (columnsOf e header) cells = .error problem) :
    Breaks e header cells problem := by
  obtain ⟨front, ⟨place, f⟩, back, start, split, ran, broken⟩ := Results.split_of_foldlM_error failed
  refine ⟨place, f, mem_columnsOf_iff.1 (by rw [split]; simp), Results.eq_error_of_map broken, fun earlier g less heads => ?_⟩
  obtain ⟨before, next, step⟩ := Results.step_of_foldlM ran ((columnsOf_split split).2 earlier g less heads)
  obtain ⟨v, parsed, _⟩ := Results.map_eq_ok_iff.1 step
  exact ⟨v, parsed⟩

end Heads

/-! ## Records delivered -/

section Delivered
variable (e : Entity) (columns : List (Nat × Field))

/-- What becomes of what is delivered: a record of the entity, or what is wrong. -/
def taken : Except String (List String) → Except String Record
  | .error what => .error what
  | .ok cells => (coerceRow e columns cells).mapError SourceError.message

/-- The records taken, in the order of delivery. -/
def good (delivered : List (Except String (List String))) : List Record :=
  delivered.filterMap fun d => (taken e columns d).toOption

/-- What is told of something delivered on the line. -/
def complaint? (line : Nat) (d : Except String (List String)) : Option String :=
  match taken e columns d with
  | .ok _ => none
  | .error what => some ("Line " ++ toString line ++ ": " ++ what)

/-- What is told of the records that are not taken, in the order of delivery; the first stands on the given line. -/
def complaints (line : Nat) (delivered : List (Except String (List String))) : List String :=
  (delivered.zipIdx line).filterMap fun (d, line) => complaint? e columns line d

variable {e columns}

theorem conforms_of_mem_good {header : List String} {delivered : List (Except String (List String))} {record : Record}
    (member : record ∈ good e (columnsOf e header) delivered) : Conforms e record := by
  obtain ⟨d, _, there⟩ := List.mem_filterMap.1 member
  have read := Results.toOption_eq_some_iff.1 there
  cases d with
  | error what => cases read
  | ok cells => exact conforms_of_coerceRow (Results.eq_ok_of_mapError read)

theorem good_cons_ok {d : Except String (List String)} {record : Record} (here : taken e columns d = .ok record)
    (rest : List (Except String (List String))) : good e columns (d :: rest) = record :: good e columns rest := by
  simp [good, here, Except.toOption]

theorem good_cons_error {d : Except String (List String)} {what : String} (here : taken e columns d = .error what)
    (rest : List (Except String (List String))) : good e columns (d :: rest) = good e columns rest := by
  simp [good, here, Except.toOption]

theorem complaints_cons_ok {d : Except String (List String)} {record : Record} (here : taken e columns d = .ok record)
    (line : Nat) (rest : List (Except String (List String))) :
    complaints e columns line (d :: rest) = complaints e columns (line + 1) rest := by
  simp [complaints, complaint?, here]

theorem complaints_cons_error {d : Except String (List String)} {what : String} (here : taken e columns d = .error what)
    (line : Nat) (rest : List (Except String (List String))) : complaints e columns line (d :: rest) =
      ("Line " ++ toString line ++ ": " ++ what) :: complaints e columns (line + 1) rest := by
  simp [complaints, complaint?, here]

/-- Each is taken or told of. -/
theorem length_good_add_complaints (line : Nat) (delivered : List (Except String (List String))) :
    (good e columns delivered).length + (complaints e columns line delivered).length = delivered.length := by
  induction delivered generalizing line with
  | nil => rfl
  | cons d rest ih =>
    have later := ih (line + 1)
    cases here : taken e columns d with
    | ok record =>
      rw [good_cons_ok here, complaints_cons_ok here, List.length_cons, List.length_cons]
      omega
    | error what =>
      rw [good_cons_error here, complaints_cons_error here, List.length_cons, List.length_cons]
      omega

end Delivered

/-! ## Runs -/

section Runs
variable {e : Entity} {columns : List (Nat × Field)} {line : Nat} {m : Memory} {result : LoadResult}

/-- The count with a record refused. -/
def LoadResult.refused (result : LoadResult) (line : Nat) (what : String) : LoadResult :=
  ⟨result.loaded, result.failed + 1, result.errors ++ ["Line " ++ toString line ++ ": " ++ what]⟩

/-- The count with a record taken in. -/
def LoadResult.counted (result : LoadResult) : LoadResult :=
  ⟨result.loaded + 1, result.failed, result.errors⟩

theorem loadRecords_cons_error {d : Except String (List String)} {what : String} (here : taken e columns d = .error what)
    (rest : List (Except String (List String))) : loadRecords e columns line m result (d :: rest) =
      loadRecords e columns (line + 1) m (result.refused line what) rest := by
  cases d with
  | error told =>
    cases here
    rfl
  | ok cells =>
    cases read : coerceRow e columns cells with
    | ok record => simp [taken, read, Except.mapError] at here
    | error problem =>
      obtain rfl : problem.message = what := by simpa [taken, read, Except.mapError] using here
      conv => lhs; unfold loadRecords
      simp only [read]
      rfl

theorem loadRecords_cons_ok {d : Except String (List String)} {record : Record} {next : Memory}
    (here : taken e columns d = .ok record) (inserted : m.insert e.name record = .ok next)
    (rest : List (Except String (List String))) : loadRecords e columns line m result (d :: rest) =
      loadRecords e columns (line + 1) next result.counted rest := by
  cases d with
  | error told => cases here
  | ok cells =>
    have read := Results.eq_ok_of_mapError here
    conv => lhs; unfold loadRecords
    simp only [read, inserted]
    rfl

/-- The load of an entity's records comes to an end: the good ones stand after those of before, and the others are told
of. -/
theorem loadRecords_eq_ok (columns : List (Nat × Field)) (line : Nat) (result : LoadResult)
    (known : m.schema.entity e.name = .ok e) (delivered : List (Except String (List String))) :
    ∃ m', loadRecords e columns line m result delivered = .ok (m',
        ⟨result.loaded + (good e columns delivered).length, result.failed + (complaints e columns line delivered).length,
          result.errors ++ complaints e columns line delivered⟩) ∧
      m'.schema = m.schema ∧
      (m'.tableOf e.name).rows.toList = (m.tableOf e.name).rows.toList ++ good e columns delivered ∧
      ∀ other, other ≠ e.name → m'.tableOf other = m.tableOf other := by
  induction delivered generalizing m line result with
  | nil => exact ⟨m, by simp [loadRecords, good, complaints], rfl, by simp [good], fun _ _ => rfl⟩
  | cons d rest ih =>
    cases here : taken e columns d with
    | error what =>
      obtain ⟨m', loaded, schema, rows, others⟩ := ih (line + 1) (result.refused line what) known
      rw [loadRecords_cons_error here, good_cons_error here, complaints_cons_error here, loaded]
      refine ⟨m', ?_, schema, rows, others⟩
      simp only [LoadResult.refused, List.length_cons, List.append_assoc, List.singleton_append]
      congr 3
      omega
    | ok record =>
      have inserted : ∃ next, m.insert e.name record = .ok next := by
        simp [Memory.insert, known]
      obtain ⟨next, inserted⟩ := inserted
      obtain ⟨e', known', schema, table, others⟩ := Memory.insert_eq_ok inserted
      have rows : (next.tableOf e.name).rows.toList = (m.tableOf e.name).rows.toList ++ [record] := by
        simp [table, Table.insert]
      obtain ⟨m', loaded, schema', rows', others'⟩ := ih (line + 1) result.counted
        (show next.schema.entity e.name = .ok e from schema ▸ known)
      rw [loadRecords_cons_ok here inserted, good_cons_ok here, complaints_cons_ok here, loaded]
      refine ⟨m', ?_, schema'.trans schema, ?_, fun other differ => (others' other differ).trans (others other differ)⟩
      · simp only [LoadResult.counted, List.length_cons]
        congr 3
        omega
      · rw [rows', rows, List.append_assoc, List.singleton_append]

/-- A load that accounts for all that was delivered under the header: it counts each record, tells of those that are not
taken, and adds those that are, each with what stands under the header. -/
structure Accounts (m : Memory) (e : Entity) (header : List String) (delivered : List (Except String (List String)))
    (m' : Memory) (result : LoadResult) : Prop where
  counted : result.loaded + result.failed = delivered.length
  told : result.errors = complaints e (columnsOf e header) 2 delivered
  each : result.errors.length = result.failed
  rows : (m'.tableOf e.name).rows.toList = (m.tableOf e.name).rows.toList ++ good e (columnsOf e header) delivered
  conform : ∀ record ∈ good e (columnsOf e header) delivered, Conforms e record
  read : ∀ cells record, taken e (columnsOf e header) (.ok cells) = .ok record → Reads e header cells record
  refused : ∀ cells what, taken e (columnsOf e header) (.ok cells) = .error what →
    ∃ problem, Breaks e header cells problem ∧ problem.message = what
  others : ∀ other, other ≠ e.name → m'.tableOf other = m.tableOf other
  schema : m'.schema = m.schema

theorem accounts_of_loadRecords (known : m.schema.entity e.name = .ok e) (header : List String)
    (delivered : List (Except String (List String))) : ∃ m' result,
      loadRecords e (columnsOf e header) 2 m .none delivered = .ok (m', result) ∧ Accounts m e header delivered m' result := by
  obtain ⟨m', loaded, schema, rows, others⟩ := loadRecords_eq_ok (columnsOf e header) 2 .none known delivered
  refine ⟨m', _, loaded, ?_⟩
  exact {
    counted := by simp [LoadResult.none, length_good_add_complaints]
    told := by simp [LoadResult.none]
    each := by simp [LoadResult.none]
    rows := rows
    conform := fun _ member => conforms_of_mem_good member
    read := fun _ _ read => reads_of_coerceRow (Results.eq_ok_of_mapError read)
    refused := fun cells what refused => by
      obtain ⟨problem, failed, told⟩ := Results.mapError_eq_error_iff.1 refused
      exact ⟨problem, breaks_of_coerceRow failed, told⟩
    others := others
    schema := schema }

/-- What a text delivers: the names in its first record, and the rest of its records as far as they are text. -/
def Delivers (delimiter : UInt8) (bytes : List UInt8) (header : List String)
    (delivered : List (Except String (List String))) : Prop :=
  match records delimiter bytes with
  | [] => header = [] ∧ delivered = []
  | first :: rest => first.text = .ok header ∧ delivered = rest.map RawRecord.text

namespace Parcels

def parcel : Entity :=
  ⟨"parcel", none, "id", [⟨"id", none, .integer, none⟩, ⟨"client", none, .relation, some "client"⟩,
    ⟨"weight", none, .decimal, none⟩, ⟨"sent", none, .date, none⟩]⟩

def memory : Memory :=
  ⟨.ofEntities [parcel], Keyed.empty⟩

/-- A header with blanks, an alias, a name of no field and one that stands twice. -/
def header : List String :=
  [" weight ", "client_id", "colour", "id", "weight"]

/-- A short record, one with a cell that cannot be read, one that is no text, and a long one. -/
def delivered : List (Except String (List String)) :=
  [.ok ["1.5", "C-1"], .ok ["2.5", "7", "red", "none"], .error "no text", .ok ["3", "7", "red", "4", "", "more"]]

end Parcels

/-- Whatever is delivered under whatever header, the load of an entity accounts for it all; and so does every load of a
file that comes to something. -/
theorem load_accounts {m : Memory} (named : m.schema.Named) :
    (∀ e header delivered, m.schema.entity e.name = .ok e → ∃ m' result,
      loadRecords e (columnsOf e header) 2 m .none delivered = .ok (m', result) ∧ Accounts m e header delivered m' result) ∧
    ∀ delimiter entity file m' result, loadEntity delimiter m entity file = .ok (m', result) →
      ∃ e bytes header delivered, m.schema.entity entity = .ok e ∧ e.name = entity ∧ file = .ok bytes ∧
        Delivers delimiter bytes header delivered ∧ Accounts m e header delivered m' result := by
  refine ⟨fun e header delivered known => accounts_of_loadRecords known header delivered, ?_⟩
  intro delimiter entity file m' result loaded
  obtain ⟨e, known, read⟩ := Results.bind_eq_ok_iff.1 loaded
  obtain rfl : e.name = entity := named entity e known
  split at read
  · cases read
  · rename_i bytes
    unfold loadText at read
    unfold Delivers
    split at read
    · rename_i blank
      obtain ⟨_, _, same, accounts⟩ := accounts_of_loadRecords known [] []
      cases read
      cases same
      exact ⟨e, bytes, [], [], known, rfl, rfl, by simp [blank], accounts⟩
    · rename_i first rest split_
      split at read
      · cases read
      · rename_i names decoded
        obtain ⟨_, _, same, accounts⟩ := accounts_of_loadRecords known names (rest.map RawRecord.text)
        cases same.symm.trans read
        exact ⟨e, bytes, names, _, known, rfl, rfl, by simp [split_, decoded], accounts⟩

namespace Parcels

theorem two_of_four : memory.schema.Named ∧ (∃ m' result,
    loadRecords parcel (columnsOf parcel header) 2 memory .none delivered = .ok (m', result) ∧
      Accounts memory parcel header delivered m' result) ∧
    (good parcel (columnsOf parcel header) delivered).map (fun record => parcel.fieldNames.map record.cell) =
      [[.null, .text "C-1", .null, .null], [.int 4, .int 7, .null, .null]] ∧
    complaints parcel (columnsOf parcel header) 2 delivered =
      ["Line 3: Parse error: Invalid integer value: none", "Line 4: no text"] := by
  have named : memory.schema.Named := Schema.named_ofEntities [parcel]
  exact ⟨named, (load_accounts named).1 parcel header delivered (by decide), rfl, by decide⟩

end Parcels

end Runs

end Reporting.Csv
