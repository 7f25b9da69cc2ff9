import Mathlib.Data.List.Nodup
import Mathlib.Data.List.Perm.Basic
import Reporting.Keyed

/-!
Lists taken apart by tests. The parts of a list, put together, hold every element as often as there are tests
that it passes (`flatMap_filter_perm`); where each passes exactly one test, they are the list in another order.
-/

namespace Reporting.Parts
variable {α β : Type}

theorem nodup_eraseDups [BEq α] [LawfulBEq α] (l : List α) : l.eraseDups.Nodup := by
  match l with
  | [] => simp
  | a :: rest =>
    rw [List.eraseDups_cons, List.nodup_cons]
    exact ⟨by simp, nodup_eraseDups _⟩
termination_by l.length
decreasing_by
  have := List.length_filter_le (fun b => !b == a) rest
  simp only [List.length_cons]
  omega

theorem eraseDups_sublist [BEq α] (l : List α) : l.eraseDups.Sublist l := by
  match l with
  | [] => simp
  | a :: rest =>
    rw [List.eraseDups_cons]
    exact ((eraseDups_sublist _).trans List.filter_sublist).cons_cons a
termination_by l.length
decreasing_by
  have := List.length_filter_le (fun b => !b == a) rest
  simp only [List.length_cons]
  omega

/-- Different keys come in the order of the first elements that have them. -/
theorem pairwise_eraseDups [BEq β] [LawfulBEq β] {f : α → β} {r : α → α → Prop} (l : List α) (ordered : l.Pairwise r) :
    (l.map f).eraseDups.Pairwise fun x y =>
      ∃ a b, l.find? (fun c => f c == x) = some a ∧ l.find? (fun c => f c == y) = some b ∧ r a b := by
  match l with
  | [] => exact List.Pairwise.nil
  | first :: rest =>
    obtain ⟨below, later⟩ := List.pairwise_cons.1 ordered
    -- The first elements with other keys are those among the elements with other keys.
    have skip : ∀ y, y ≠ f first → (first :: rest).find? (fun c => f c == y) = rest.find? fun c => f c == y :=
      fun y differ => List.find?_cons_of_neg (by simpa using differ.symm)
    have others : (rest.map f).filter (fun y => !y == f first) = (rest.filter fun c => !f c == f first).map f := List.filter_map
    rw [List.map_cons, List.eraseDups_cons, others]
    have apart : ∀ y ∈ ((rest.filter fun c => !f c == f first).map f).eraseDups, y ≠ f first := by
      intro y member
      rw [List.mem_eraseDups, ← others] at member
      simpa using (List.mem_filter.1 member).2
    refine List.pairwise_cons.2 ⟨fun y member => ?_, ?_⟩
    · have differ := apart y member
      rw [List.mem_eraseDups] at member
      obtain ⟨c, inside, rfl⟩ := List.mem_map.1 member
      obtain ⟨b, found⟩ : ∃ b, rest.find? (fun d => f d == f c) = some b :=
        Option.isSome_iff_exists.1 (List.find?_isSome.2 ⟨c, (List.mem_filter.1 inside).1, beq_self_eq_true _⟩)
      refine ⟨first, b, List.find?_cons_of_pos (beq_self_eq_true _), (skip _ differ).trans found, ?_⟩
      exact below b (List.mem_of_find?_eq_some found)
    · refine (pairwise_eraseDups (rest.filter fun c => !f c == f first) (later.filter _)).imp_of_mem fun {x y} hx hy both => ?_
      obtain ⟨a, b, foundA, foundB, related⟩ := both
      have among : ∀ y, y ≠ f first → (rest.filter fun c => !f c == f first).find? (fun c => f c == y) =
          rest.find? fun c => f c == y := by
        intro y differ
        rw [List.find?_filter]
        refine congrArg (rest.find? ·) (funext fun c => ?_)
        by_cases same : f c = y
        · simp [same, differ]
        · simp [same]
      rw [among _ (apart x hx)] at foundA
      rw [among _ (apart y hy)] at foundB
      exact ⟨a, b, (skip _ (apart x hx)).trans foundA, (skip _ (apart y hy)).trans foundB, related⟩
termination_by l.length
decreasing_by
  have := List.length_filter_le (fun c => !f c == f first) rest
  simp only [List.length_cons]
  omega

theorem lookup_filterMap (f : α → Option β) {groups : List (String × α)}
    (distinct : (groups.map Prod.fst).Nodup) (sought : String) :
    (groups.filterMap fun (key, cells) => (f cells).map fun x => (key, x)).lookup sought =
      (groups.lookup sought).bind f := by
  induction groups with
  | nil => rfl
  | cons head rest ih =>
    obtain ⟨key, cells⟩ := head
    rw [List.map_cons, List.nodup_cons] at distinct
    have others := ih distinct.2
    by_cases same : sought = key
    · subst same
      rw [Keyed.lookup_eq_none distinct.1] at others
      cases given : f cells with
      | none => simp [given, others]
      | some x => simp [given]
    · have differ : (sought == key) = false := beq_eq_false_iff_ne.2 same
      cases given : f cells with
      | none => simp [given, others, List.lookup_cons, differ]
      | some x => simp [given, others, List.lookup_cons, differ]

theorem filter_eq_flatMap (p : α → Bool) (l : List α) : l.filter p = l.flatMap fun a => if p a then [a] else [] := by
  induction l with
  | nil => rfl
  | cons a rest ih =>
    rw [List.flatMap_cons, ← ih]
    cases holds : p a with
    | true => simp [holds]
    | false => simp [holds]

/-- Of elements told by their keys, at most one passes a test that only those of one key pass. -/
theorem countP_of_nodup_map {key : α → β} {l : List α} (distinct : (l.map key).Nodup) {p : α → Bool} {k : β}
    (told : ∀ a ∈ l, p a → key a = k) : l.countP p = if l.any p then 1 else 0 := by
  induction l with
  | nil => rfl
  | cons a rest ih =>
    rw [List.map_cons, List.nodup_cons] at distinct
    have others := ih distinct.2 fun b member => told b (List.mem_cons_of_mem a member)
    rw [List.countP_cons, List.any_cons]
    cases passed : p a with
    | false => simp [others]
    | true =>
      have none_ : rest.countP p = 0 := by
        rw [List.countP_eq_zero]
        intro b member again
        have same := (told b (List.mem_cons_of_mem a member) again).trans (told a (List.mem_cons_self ..) passed).symm
        exact distinct.1 (List.mem_map.2 ⟨b, member, same⟩)
      simp [none_]

/-- Every element occurs once for each test that it passes. -/
theorem flatMap_filter_perm (test : β → α → Bool) (bs : List β) (l : List α) :
    (bs.flatMap fun b => l.filter (test b)).Perm
      (l.flatMap fun a => List.replicate (bs.countP fun b => test b a) a) := by
  induction bs with
  | nil =>
    refine List.Perm.of_eq ?_
    rw [List.flatMap_nil, eq_comm, List.flatMap_eq_nil_iff]
    exact fun a _ => rfl
  | cons b rest ih =>
    rw [List.flatMap_cons, filter_eq_flatMap]
    refine ((ih.append_left _).trans (List.flatMap_append_perm l _ _)).trans (.flatMap_left l fun a _ => ?_)
    rw [List.countP_cons]
    cases passed : test b a with
    | true => simp [List.replicate_succ]
    | false => simp

/-- Where every element passes exactly one test, the parts are the list. -/
theorem flatMap_filter_perm_self {test : β → α → Bool} {bs : List β} {l : List α}
    (once : ∀ a ∈ l, (bs.countP fun b => test b a) = 1) : (bs.flatMap fun b => l.filter (test b)).Perm l := by
  refine (flatMap_filter_perm test bs l).trans (List.Perm.of_eq ?_)
  induction l with
  | nil => rfl
  | cons a rest ih =>
    rw [List.flatMap_cons, once a (List.mem_cons_self ..), ih fun b member => once b (List.mem_cons_of_mem a member)]
    rfl

/-- What passes one of two tests, in two parts, where nothing passes both. -/
theorem filter_append_filter_perm {p q : α → Bool} {l : List α} (apart : ∀ a ∈ l, p a → q a = false) :
    (l.filter p ++ l.filter q).Perm (l.filter fun a => p a || q a) := by
  rw [filter_eq_flatMap p, filter_eq_flatMap q, filter_eq_flatMap]
  refine (List.flatMap_append_perm l _ _).trans (.flatMap_left l fun a member => ?_)
  cases first : p a with
  | true => simp [apart a member first]
  | false => simp

/-- What a list holds in another order comes of what the other list holds in another order. -/
theorem exists_of_perm_map {f : α → β} {bs : List β} {as : List α} (perm : bs.Perm (as.map f)) :
    ∃ as' : List α, as'.Perm as ∧ bs = as'.map f := by
  induction bs generalizing as with
  | nil =>
    obtain rfl := List.map_eq_nil_iff.1 (List.nil_perm.1 perm)
    exact ⟨[], .refl _, rfl⟩
  | cons b rest ih =>
    obtain ⟨a, member, rfl⟩ := List.mem_map.1 (perm.mem_iff.1 (List.mem_cons_self ..))
    obtain ⟨before, after, rfl⟩ := List.append_of_mem member
    rw [List.map_append, List.map_cons] at perm
    have others : rest.Perm ((before ++ after).map f) := by
      rw [List.map_append]
      exact (perm.trans List.perm_middle).cons_inv
    obtain ⟨as', perm', rfl⟩ := ih others
    exact ⟨a :: as', (perm'.cons a).trans List.perm_middle.symm, rfl⟩

/-- A list without a second element is that of its last one. -/
theorem eq_toList_getLast? {l : List α} (alone : ∀ a b rest, l ≠ a :: b :: rest) : l = l.getLast?.toList := by
  match l with
  | [] => rfl
  | [a] => rfl
  | a :: b :: rest => exact absurd rfl (alone a b rest)

end Reporting.Parts
