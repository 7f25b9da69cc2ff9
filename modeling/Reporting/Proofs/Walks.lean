import Reporting.Proofs.Results
import Reporting.Schema

/-!
Walks over relations. A path is resolved to the relations that it crosses (`Schema.leads_of_resolve`), and their names
alone lead from an entity to the same one (`Schema.Leads.follow_eq`).
-/

namespace Reporting

/-- The relation of the name. -/
def Entity.relation? (e : Entity) (name : String) : Option Field :=
  e.fields.find? fun f => f.name == name && f.isRelation

/-- A field that crosses to another entity is the relation of its name. -/
theorem Entity.relation?_of_field? {e : Entity} {name : String} {f : Field} (found : e.field? name = some f)
    (crosses : f.isRelation) : e.relation? f.name = some f := by
  unfold field? at found
  unfold relation?
  split at found
  · rename_i first here
    cases found
    obtain ⟨same, before, after, split, others⟩ := List.find?_eq_some_iff_append.1 here
    refine List.find?_eq_some_iff_append.2 ⟨by simp [crosses], before, after, split, fun g inside => ?_⟩
    have differ := others g inside
    rw [← beq_iff_eq.1 same] at differ
    rw [Bool.not_and, differ, Bool.true_or]
  · split at found
    · rename_i relation _
      have named : f.name = relation := by
        have passed := List.find?_some found
        simp only [Bool.and_eq_true, beq_iff_eq] at passed
        exact passed.1
      rw [named]
      exact found
    · cases found

theorem Entity.mem_of_field? {e : Entity} {name : String} {f : Field} (found : e.field? name = some f) : f ∈ e.fields := by
  unfold field? at found
  split at found
  · rename_i here
    cases found
    exact List.mem_of_find?_eq_some here
  · split at found
    · exact List.mem_of_find?_eq_some found
    · cases found

namespace Schema

/-- Entities are found under their own names. -/
def Named (s : Schema) : Prop :=
  ∀ name e, s.entity name = .ok e → e.name = name

theorem entity_eq_ok_iff {s : Schema} {name : String} {e : Entity} :
    s.entity name = .ok e ↔ s.entities.get? name = some e := by
  unfold entity
  split <;> simp_all

/-- What is found under a name is the entity of that name in the list. -/
theorem mem_of_entity_ofEntities {entities : List Entity} {name : String} {e : Entity}
    (found : (ofEntities entities).entity name = .ok e) : e ∈ entities ∧ e.name = name := by
  have step : ∀ s : Schema, (entities.foldl add s).entity name = .ok e → (e ∈ entities ∧ e.name = name) ∨ s.entity name = .ok e := by
    clear found
    induction entities with
    | nil => exact fun _ found => Or.inr found
    | cons first rest ih =>
      intro s found
      rcases ih (s.add first) found with ⟨inside, named⟩ | before
      · exact Or.inl ⟨List.mem_cons_of_mem first inside, named⟩
      · rcases Keyed.get?_insert_cases (entity_eq_ok_iff.1 before) with ⟨same, rfl⟩ | earlier
        · exact Or.inl ⟨List.mem_cons_self .., same.symm⟩
        · exact Or.inr (entity_eq_ok_iff.2 earlier)
  refine (step empty found).resolve_right fun none_ => ?_
  cases entity_eq_ok_iff.1 none_

theorem named_ofEntities (entities : List Entity) : (ofEntities entities).Named :=
  fun _ _ found => (mem_of_entity_ofEntities found).2

/-- The entity that the relation of the name leads to. -/
def next? (s : Schema) (e : Entity) (name : String) : Option Entity := do
  let relation ← e.relation? name
  let target ← relation.target
  s.entities.get? target

/-- The entity at the end of a walk over the relations of the names. -/
def follow (s : Schema) (e : Entity) (walk : List String) : Option Entity :=
  walk.foldlM s.next? e

theorem follow_append_singleton (s : Schema) (e : Entity) (walk : List String) (name : String) :
    s.follow e (walk ++ [name]) = (s.follow e walk).bind fun last => s.next? last name := by
  unfold follow
  rw [List.foldlM_append]
  refine bind_congr fun last => ?_
  simp

theorem entity_of_follow {s : Schema} {root last : Entity} (named : s.Named) (known : s.entity root.name = .ok root)
    {walk : List String} (reached : s.follow root walk = some last) : s.entity last.name = .ok last := by
  rcases List.eq_nil_or_concat walk with rfl | ⟨before, name, rfl⟩
  · cases reached
    exact known
  · rw [List.concat_eq_append, follow_append_singleton] at reached
    obtain ⟨e, _, reached⟩ := Option.bind_eq_some_iff.1 reached
    obtain ⟨relation, _, reached⟩ := Option.bind_eq_some_iff.1 reached
    obtain ⟨target, _, reached⟩ := Option.bind_eq_some_iff.1 reached
    have there := entity_eq_ok_iff.2 reached
    rw [named _ _ there]
    exact there

/-- The relations lead from one entity to another. -/
inductive Leads (s : Schema) : Entity → List Hop → Entity → Prop where
  | here (e : Entity) : Leads s e [] e
  | cross {e next last : Entity} {hop : Hop} {hops : List Hop} {target : String}
    (relation : e.relation? hop.relation.name = some hop.relation) (points : hop.relation.target = some target)
    (reached : s.entity target = .ok next) (rest : Leads s next hops last) : Leads s e (hop :: hops) last

theorem Leads.follow_eq {s : Schema} {e last : Entity} {hops : List Hop} (leads : s.Leads e hops last) :
    s.follow e (hops.map fun hop => hop.relation.name) = some last := by
  induction leads with
  | here e => rfl
  | cross relation points reached rest ih =>
    unfold follow next? at ih ⊢
    rw [List.map_cons, List.foldlM_cons, relation]
    simp only [Option.bind_eq_bind, Option.bind_some, points, entity_eq_ok_iff.1 reached]
    exact ih

theorem leads_of_walk {s : Schema} {root path : String} {names : List String} {current : Entity} {hops : List Hop}
    {place : ResolvedPath} (walked : s.walk root path current hops names = .ok place) :
    ∃ more last, place.hops = hops ++ more ∧ s.Leads current more last ∧ place.field ∈ last.fields := by
  induction names generalizing current hops with
  | nil => cases walked
  | cons name rest ih =>
    rw [walk] at walked
    split at walked
    · cases walked
    · rename_i field found
      split at walked
      · cases walked
        exact ⟨[], current, by simp, .here current, Entity.mem_of_field? found⟩
      · split at walked
        · rename_i target kind points
          split at walked
          · rename_i next reached
            obtain ⟨more, last, split, leads, member⟩ := ih walked
            have relation := Entity.relation?_of_field? found (by simp [Field.isRelation, kind])
            refine ⟨⟨current.name, field⟩ :: more, last, ?_, .cross relation points reached leads, member⟩
            rw [split, List.append_assoc, List.singleton_append]
          · cases walked
        · cases walked

/-- A path leads over relations to a field of the entity at their end. -/
theorem leads_of_resolve {s : Schema} {entity path : String} {e : Entity} {place : ResolvedPath}
    (known : s.entity entity = .ok e) (resolved : s.resolve entity path = .ok place) :
    ∃ last, s.Leads e place.hops last ∧ place.field ∈ last.fields := by
  unfold resolve at resolved
  rw [known] at resolved
  obtain ⟨more, last, split, leads, member⟩ := leads_of_walk resolved
  rw [split, List.nil_append]
  exact ⟨last, leads, member⟩

end Schema
end Reporting
