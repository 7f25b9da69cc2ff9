/-!
Results of work that can fail: what it means that a step and the work after it come to something, and that
the same work for each of a list does.
-/

namespace Reporting.Results
variable {ε α β : Type}

theorem bind_eq_ok_iff {x : Except ε α} {f : α → Except ε β} {b : β} :
    (x >>= f) = .ok b ↔ ∃ a, x = .ok a ∧ f a = .ok b := by
  cases x with
  | error e =>
    constructor
    · intro impossible
      cases impossible
    · rintro ⟨a, impossible, _⟩
      cases impossible
  | ok a =>
    constructor
    · intro result
      exact ⟨a, rfl, result⟩
    · rintro ⟨a', same, result⟩
      cases same
      exact result

theorem bind_of_ok {x : Except ε α} {f : α → Except ε β} {a : α} (found : x = .ok a) : (x >>= f) = f a := by
  rw [found]
  rfl

theorem bind_of_error {x : Except ε α} {f : α → Except ε β} {e : ε} (failed : x = .error e) : (x >>= f) = .error e := by
  rw [failed]
  rfl

theorem exists_of_isSome {x : Except ε α} (there : x.toOption.isSome) : ∃ a, x = .ok a := by
  cases x with
  | error e => cases there
  | ok a => exact ⟨a, rfl⟩

theorem toOption_eq_some_iff {x : Except ε α} {a : α} : x.toOption = some a ↔ x = .ok a := by
  cases x <;> simp [Except.toOption]

theorem map_eq_ok_iff {x : Except ε α} {f : α → β} {b : β} : x.map f = .ok b ↔ ∃ a, x = .ok a ∧ f a = b := by
  cases x <;> simp [Except.map]

theorem eq_error_of_map {x : Except ε α} {f : α → β} {e : ε} (failed : x.map f = .error e) : x = .error e := by
  cases x with
  | error e' =>
    cases failed
    rfl
  | ok a => cases failed

theorem eq_ok_of_mapError {φ : Type} {x : Except ε α} {f : ε → φ} {a : α} (h : x.mapError f = .ok a) : x = .ok a := by
  cases x with
  | error e => cases h
  | ok b =>
    cases h
    rfl

theorem mapError_eq_error_iff {φ : Type} {x : Except ε α} {f : ε → φ} {e : φ} :
    x.mapError f = .error e ↔ ∃ e', x = .error e' ∧ f e' = e := by
  cases x with
  | error e' =>
    constructor
    · intro failed
      cases failed
      exact ⟨e', rfl, rfl⟩
    · rintro ⟨_, same, rfl⟩
      cases same
      rfl
  | ok a =>
    constructor
    · intro failed
      cases failed
    · rintro ⟨_, impossible, _⟩
      cases impossible

theorem mapM_cons_eq_ok_iff {f : α → Except ε β} {a : α} {as : List α} {bs : List β} :
    (a :: as).mapM f = .ok bs ↔ ∃ b rest, f a = .ok b ∧ as.mapM f = .ok rest ∧ bs = b :: rest := by
  rw [List.mapM_cons, bind_eq_ok_iff]
  constructor
  · rintro ⟨b, found, ran⟩
    obtain ⟨rest, others, same⟩ := bind_eq_ok_iff.1 ran
    cases same
    exact ⟨b, rest, found, others, rfl⟩
  · rintro ⟨b, rest, found, others, rfl⟩
    exact ⟨b, found, bind_eq_ok_iff.2 ⟨rest, others, rfl⟩⟩

theorem mapM_of_each {f : α → Except ε β} {as : List α} (each : ∀ a ∈ as, ∃ b, f a = .ok b) :
    ∃ bs, as.mapM f = .ok bs ∧ bs.length = as.length := by
  induction as with
  | nil => exact ⟨[], rfl, rfl⟩
  | cons a rest ih =>
    obtain ⟨b, first⟩ := each a (List.mem_cons_self ..)
    obtain ⟨bs, others, length⟩ := ih fun a' member => each a' (List.mem_cons_of_mem a member)
    exact ⟨b :: bs, mapM_cons_eq_ok_iff.2 ⟨b, bs, first, others, rfl⟩, by rw [List.length_cons, List.length_cons, length]⟩

/-- What stands at a place came of what stood there. -/
theorem getElem?_of_mapM {f : α → Except ε β} {as : List α} {bs : List β} (ran : as.mapM f = .ok bs) {i : Nat} {a : α}
    (found : as[i]? = some a) : ∃ b, bs[i]? = some b ∧ f a = .ok b := by
  induction as generalizing bs i with
  | nil => simp at found
  | cons first rest ih =>
    obtain ⟨b, others, head, tail, rfl⟩ := mapM_cons_eq_ok_iff.1 ran
    cases i with
    | zero =>
      cases found
      exact ⟨b, rfl, head⟩
    | succ i => exact ih tail found

/-- What is in the list of results came of something. -/
theorem exists_of_mapM {f : α → Except ε β} {as : List α} {bs : List β} (ran : as.mapM f = .ok bs) {b : β}
    (member : b ∈ bs) : ∃ a ∈ as, f a = .ok b := by
  induction as generalizing bs with
  | nil =>
    cases ran
    cases member
  | cons first rest ih =>
    obtain ⟨b', others, head, tail, rfl⟩ := mapM_cons_eq_ok_iff.1 ran
    rcases List.mem_cons.1 member with rfl | member
    · exact ⟨first, List.mem_cons_self .., head⟩
    · obtain ⟨a, inside, found⟩ := ih tail member
      exact ⟨a, List.mem_cons_of_mem first inside, found⟩

/-- The list has no results because of something in it. -/
theorem exists_of_mapM_error {f : α → Except ε β} {as : List α} {e : ε} (failed : as.mapM f = .error e) :
    ∃ a ∈ as, f a = .error e := by
  induction as with
  | nil => cases failed
  | cons a rest ih =>
    rw [List.mapM_cons] at failed
    cases first : f a with
    | error e' =>
      rw [first] at failed
      cases failed
      exact ⟨a, List.mem_cons_self .., first⟩
    | ok b =>
      cases others : rest.mapM f with
      | error e' =>
        rw [first, others] at failed
        cases failed
        obtain ⟨a', member, here⟩ := ih others
        exact ⟨a', List.mem_cons_of_mem a member, here⟩
      | ok bs =>
        rw [first, others] at failed
        cases failed

/-- What every step keeps is kept by a run that comes to something. -/
theorem of_foldlM {f : β → α → Except ε β} {as : List α} {P : β → Prop}
    (step : ∀ a ∈ as, ∀ before after, P before → f before a = .ok after → P after) {start result : β} (holds : P start)
    (ran : as.foldlM f start = .ok result) : P result := by
  induction as generalizing start with
  | nil =>
    cases ran
    exact holds
  | cons a rest ih =>
    rw [List.foldlM_cons] at ran
    obtain ⟨next, here, ran⟩ := bind_eq_ok_iff.1 ran
    exact ih (fun a' member => step a' (List.mem_cons_of_mem a member)) (step a (List.mem_cons_self ..) _ _ holds here) ran

/-- In a run that comes to something, each step does. -/
theorem step_of_foldlM {f : β → α → Except ε β} {as : List α} {start result : β} (ran : as.foldlM f start = .ok result)
    {a : α} (member : a ∈ as) : ∃ before after, f before a = .ok after := by
  obtain ⟨front, back, rfl⟩ := List.append_of_mem member
  rw [List.foldlM_append] at ran
  obtain ⟨before, _, ran⟩ := bind_eq_ok_iff.1 ran
  rw [List.foldlM_cons] at ran
  obtain ⟨after, here, _⟩ := bind_eq_ok_iff.1 ran
  exact ⟨before, after, here⟩

/-- A run fails at a step that those before it lead to. -/
theorem split_of_foldlM_error {f : β → α → Except ε β} {as : List α} {start : β} {e : ε}
    (failed : as.foldlM f start = .error e) : ∃ front a back before, as = front ++ a :: back ∧
      front.foldlM f start = .ok before ∧ f before a = .error e := by
  induction as generalizing start with
  | nil => cases failed
  | cons a rest ih =>
    cases here : f start a with
    | error e' =>
      rw [List.foldlM_cons, bind_of_error here] at failed
      cases failed
      exact ⟨[], a, rest, start, rfl, rfl, here⟩
    | ok next =>
      rw [List.foldlM_cons, bind_of_ok here] at failed
      obtain ⟨front, a', back, before, rfl, ran, broken⟩ := ih failed
      refine ⟨a :: front, a', back, before, rfl, ?_, broken⟩
      rw [List.foldlM_cons, bind_of_ok here, ran]

/-- Both fail alike, or both come to something and what they come to is related. -/
inductive Both (related : α → β → Prop) : Except ε α → Except ε β → Prop
  | ok {a : α} {b : β} (holds : related a b) : Both related (.ok a) (.ok b)
  | error (e : ε) : Both related (.error e) (.error e)

namespace Both
variable {related : α → β → Prop} {x : Except ε α} {y : Except ε β}

theorem of_ok {a : α} {b : β} (left : x = .ok a) (right : y = .ok b) (holds : related a b) : Both related x y := by
  rw [left, right]
  exact .ok holds

theorem of_error {e : ε} (left : x = .error e) (right : y = .error e) : Both related x y := by
  rw [left, right]
  exact .error e

end Both

end Reporting.Results
