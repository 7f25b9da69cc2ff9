import Reporting.Memory
import Reporting.Proofs.Results

/-!
Paths that go on where others end. The names along a path that ends at a relation, followed by those of a path from the
entity it points to, are the names along both with a pair of underscores between (`Path.parts_append`). The walk along
the whole is the one walk after the other (`Schema.resolve_append`), and so is what is found on it from a record
(`Memory.paths_compose`).
-/

namespace Reporting

namespace Path

/-- Pairs are taken from the left, so that one is found where it was put unless an underscore stands before it. -/
theorem splitChars_append {p : List Char} (ends : p.getLast? ≠ some '_') (q part : List Char) :
    splitChars (p ++ '_' :: '_' :: q) part = splitChars p part ++ splitChars q [] := by
  fun_induction splitChars p part with
  | case1 rest part ih =>
    cases rest with
    | nil => exact absurd rfl ends
    | cons c rest =>
      rw [List.cons_append, List.cons_append, splitChars, ih (by simpa using ends)]
      rfl
  | case2 c rest part alone ih =>
    have whole : ∀ more, c = '_' → rest ++ '_' :: '_' :: q ≠ '_' :: more := by
      intro more mark same
      cases rest with
      | nil => exact ends (by rw [mark]; rfl)
      | cons d rest => exact alone rest mark (by rw [(List.cons.inj same).1])
    have later : rest.getLast? ≠ some '_' := by
      cases rest with
      | nil => simp
      | cons d rest => simpa using ends
    rw [List.cons_append, splitChars, ih later]
    exact whole
  | case3 part => rfl

theorem splitChars_ne_nil (s part : List Char) : splitChars s part ≠ [] := by
  fun_induction splitChars s part with
  | case1 => simp
  | case2 c rest part alone ih => exact ih
  | case3 => simp

/-- The names along the one path, then those along the other. -/
theorem parts_append {p : String} (ends : p.toList.getLast? ≠ some '_') (q : String) :
    parts (append p q) = parts p ++ parts q := by
  unfold parts
  rw [toList_append, splitChars_append ends, List.map_append]

-- An underscore at the end of the first path would be taken for one of the pair.
example : parts (append "a_" "b") = ["a", "_b"] := by decide

theorem parts_ne_nil (path : String) : parts path ≠ [] := by
  unfold parts
  simp [splitChars_ne_nil]

end Path

namespace ResolvedPath

/-- The place as it is reached from another entity, over relations that lead to where the walk began. -/
def after (place : ResolvedPath) (root : String) (hops : List Hop) : ResolvedPath :=
  ⟨root, place.entity, place.field, hops ++ place.hops⟩

end ResolvedPath

namespace Schema
variable {s : Schema} {root path : String}

/-- A walk goes the same way whatever is behind it and whatever it is called. -/
theorem toOption_walk (root' path' : String) (e : Entity) (behind hops : List Hop) (names : List String) :
    (s.walk root path e (behind ++ hops) names).toOption =
      ((s.walk root' path' e hops names).toOption).map fun place => place.after root behind := by
  induction names generalizing e hops with
  | nil => rfl
  | cons name rest ih =>
    unfold walk
    cases e.field? name with
    | none => rfl
    | some field =>
      dsimp only
      by_cases last : rest.isEmpty
      · rw [if_pos last, if_pos last]
        rfl
      · rw [if_neg last, if_neg last]
        split
        · rename_i target _ _
          cases s.entity target with
          | error _ => rfl
          | ok next => rw [List.append_assoc, ih]
        · rfl

/-- Where some names lead to a relation, more names lead on from the entity it points to. -/
theorem walk_append {e : Entity} {hops : List Hop} {names more : List String} {place : ResolvedPath} {target : String}
    (walked : s.walk root path e hops names = .ok place) (relation : place.isRelation) (points : place.target? = some target)
    (some_ : more ≠ []) (path' : String) : (s.walk root path' e hops (names ++ more)).toOption =
      (s.entity target).toOption.bind fun next =>
        (s.walk root path' next (place.hops ++ [⟨place.entity, place.field⟩]) more).toOption := by
  induction names generalizing e hops with
  | nil => cases walked
  | cons name rest ih =>
    rw [List.cons_append]
    rw [walk] at walked ⊢
    cases found : e.field? name with
    | none =>
      rw [found] at walked
      cases walked
    | some field =>
      rw [found] at walked
      dsimp only at walked ⊢
      rw [if_neg (by simp [some_])]
      by_cases last : rest.isEmpty
      · rw [if_pos last] at walked
        cases walked
        have kind : field.kind = .relation := eq_of_beq relation
        obtain rfl := List.isEmpty_iff.1 last
        have points' : field.target = some target := points
        simp only [kind, points', List.nil_append]
        cases s.entity target with
        | error _ => rfl
        | ok next => rfl
      · rw [if_neg last] at walked
        split at walked
        · rename_i between kind points'
          cases there : s.entity between with
          | error _ =>
            rw [there] at walked
            cases walked
          | ok next =>
            rw [there] at walked
            exact ih walked
        · cases walked

/-- A path that goes on from a relation leads where its rest leads from the entity that the relation points to. -/
theorem resolve_append {entity p target : String} {place : ResolvedPath} (ends : p.toList.getLast? ≠ some '_')
    (resolved : s.resolve entity p = .ok place) (relation : place.isRelation) (points : place.target? = some target)
    (q : String) : (s.resolve entity (Path.append p q)).toOption = (s.resolve target q).toOption.map fun rest =>
      rest.after entity (place.hops ++ [⟨place.entity, place.field⟩]) := by
  unfold resolve at resolved ⊢
  cases there : s.entity entity with
  | error _ =>
    rw [there] at resolved
    cases resolved
  | ok e =>
    rw [there] at resolved
    dsimp only at resolved ⊢
    rw [Path.parts_append ends, walk_append resolved relation points (Path.parts_ne_nil q)]
    cases s.entity target with
    | error _ => rfl
    | ok next =>
      have same : (s.walk entity (Path.append p q) next (place.hops ++ [⟨place.entity, place.field⟩] ++ [])
          (Path.parts q)).toOption = _ := toOption_walk target q next _ [] _
      rw [List.append_nil] at same
      exact same

end Schema

namespace Memory
variable (m : Memory)

theorem follow?_append (record : Record) (hops more : List Hop) :
    m.follow? record (hops ++ more) = (m.follow? record hops).bind fun last => m.follow? last more := by
  induction hops generalizing record with
  | nil => rfl
  | cons hop rest ih =>
    rw [List.cons_append, follow?, follow?]
    cases m.related? hop.relation (record.cell hop.relation.name) with
    | none => rfl
    | some next => exact ih next

/-- What is found over a relation is what is found from the row that the relation's cell names. -/
theorem cellAt_after (record : Record) (place rest : ResolvedPath) (root : String) :
    m.cellAt record (rest.after root (place.hops ++ [⟨place.entity, place.field⟩])) =
      match m.related? place.field (m.cellAt record place) with
      | some row => m.cellAt row rest
      | none => .null := by
  unfold cellAt ResolvedPath.after
  dsimp only
  rw [List.append_assoc, follow?_append]
  cases m.follow? record place.hops with
  | none => rfl
  | some last =>
    rw [Option.bind_some, List.singleton_append, follow?]
    cases m.related? place.field (last.cell place.field.name) with
    | none => rfl
    | some row => rfl

/-- Paths compose. A path that ends at a relation, and in no underscore, leads on with the names of any path from the
entity that the relation points to: it leads to the same field, over the relations of the one, the relation itself and
the relations of the other, and it leads nowhere if they do not. From a record it finds nothing where the first path
finds no cell or a cell that names no row, and otherwise what the second path finds from that row. -/
theorem paths_compose {s : Schema} {entity p target : String} {place : ResolvedPath}
    (ends : p.toList.getLast? ≠ some '_') (resolved : s.resolve entity p = .ok place) (relation : place.isRelation)
    (points : place.target? = some target) (q : String) :
    (∀ whole, s.resolve entity (Path.append p q) = .ok whole ↔ ∃ rest, s.resolve target q = .ok rest ∧
      whole = ⟨entity, rest.entity, rest.field, place.hops ++ ⟨place.entity, place.field⟩ :: rest.hops⟩) ∧
    ∀ (m : Memory) (record : Record) whole rest, s.resolve entity (Path.append p q) = .ok whole →
      s.resolve target q = .ok rest →
      ((m.cellAt record place).isNull ∨ (m.tableOf target).find? (m.cellAt record place) = none →
        m.cellAt record whole = .null) ∧
      ∀ row, (m.cellAt record place).isNull = false → (m.tableOf target).find? (m.cellAt record place) = some row →
        m.cellAt record whole = m.cellAt row rest := by
  have composed : ∀ whole, s.resolve entity (Path.append p q) = .ok whole ↔
      ∃ rest, s.resolve target q = .ok rest ∧ rest.after entity (place.hops ++ [⟨place.entity, place.field⟩]) = whole := by
    intro whole
    rw [← Results.toOption_eq_some_iff, Schema.resolve_append ends resolved relation points, Option.map_eq_some_iff]
    simp only [Results.toOption_eq_some_iff]
  refine ⟨fun whole => ?_, fun m record whole rest found there => ?_⟩
  · rw [composed]
    refine exists_congr fun rest => and_congr_right fun _ => ?_
    rw [eq_comm, ResolvedPath.after, List.append_assoc, List.singleton_append]
  · have target_ : place.field.target = some target := points
    obtain ⟨rest', there', rfl⟩ := (composed whole).1 found
    obtain rfl : rest' = rest := Except.ok.inj (there'.symm.trans there)
    rw [cellAt_after]
    refine ⟨fun lost => ?_, fun row present named => ?_⟩
    · unfold related?
      rcases lost with missing | unknown
      · rw [if_pos missing]
      · simp only [target_, unknown, ite_self]
    · unfold related?
      simp only [present, target_, named]
      rfl

end Memory

/-! People whose bosses are people, too. -/

namespace Staff

def boss : Field := ⟨"boss", none, .relation, some "person"⟩

def entity : Entity := ((Entity.new "person").withField ⟨"name", none, .text, none⟩).withField boss

def person (id : Int64) (name : String) (boss : Value) : Record :=
  Keyed.ofList [("id", .int id), ("name", .text name), ("boss", boss)]

/-- The boss of the last one is not there. -/
def memory : Memory :=
  ((Memory.empty (.ofEntities [entity])).insertAll "person"
    [person 1 "Ada" .null, person 2 "Ben" (.int 1), person 3 "Cleo" (.int 2), person 4 "Dan" (.int 9)]).1

end Staff

/-- The boss of the boss: there for the third, and not for the fourth. -/
theorem Memory.bossName_composed : ∃ whole, Staff.memory.schema.resolve "person" "boss_id__boss__name" = .ok whole ∧
    whole.hops = [⟨"person", Staff.boss⟩, ⟨"person", Staff.boss⟩] ∧
    Staff.memory.cellAt (Staff.person 3 "Cleo" (.int 2)) whole = .text "Ada" ∧
    Staff.memory.cellAt (Staff.person 4 "Dan" (.int 9)) whole = .null := by
  have first : Staff.memory.schema.resolve "person" "boss_id" = .ok ⟨"person", "person", Staff.boss, []⟩ := rfl
  have second : Staff.memory.schema.resolve "person" "boss__name" =
      .ok ⟨"person", "person", ⟨"name", none, .text, none⟩, [⟨"person", Staff.boss⟩]⟩ := rfl
  obtain ⟨leads, finds⟩ := Memory.paths_compose (by decide) first rfl rfl "boss__name"
  have whole := (leads _).2 ⟨_, second, rfl⟩
  obtain ⟨_, reached⟩ := finds Staff.memory (Staff.person 3 "Cleo" (.int 2)) _ _ whole second
  obtain ⟨lost, _⟩ := finds Staff.memory (Staff.person 4 "Dan" (.int 9)) _ _ whole second
  refine ⟨_, whole, rfl, ?_, lost (Or.inr rfl)⟩
  rw [reached (Staff.person 2 "Ben" (.int 1)) rfl rfl]
  rfl

end Reporting
