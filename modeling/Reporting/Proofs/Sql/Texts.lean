import Reporting.Sql.Store

/-!
Texts of statements that can be read. A text is read to its end just if no part of it has a fault, no name in it leaves
a quote open, and there are not too many operands (`readParts_eq_ok_iff`).
-/

namespace Reporting.Sql

/-- No name in the piece leaves a quote open. -/
def Piece.isReadable : Piece → Bool
  | name n => (openQuote? n).isNone
  | column c => (openQuote? c.name).isNone
  | _ => true

/-- The part has no fault, and its names can be read. -/
def Part.Readable (part : Part) : Prop :=
  part.fault = none ∧ ∀ p ∈ part.pieces, p.isReadable

variable {text : String} {place operands : Nat}

theorem nameFailure?_eq_none_iff {name : String} : nameFailure? text name place = none ↔ (openQuote? name).isNone := by
  unfold nameFailure?
  rw [Option.map_eq_none_iff, Option.isNone_iff_eq_none]

theorem readPieces_cons_of_unreadable {p : Piece} {rest : List Piece} (unreadable : p.isReadable = false) :
    ∃ e, readPieces text place operands (p :: rest) = .error e := by
  have failure : ∀ {name : String} (at_ : Nat), (openQuote? name).isNone = false →
      ∃ e, nameFailure? text name at_ = some e := by
    intro name at_ open_
    refine Option.ne_none_iff_exists'.1 fun none_ => ?_
    rw [nameFailure?_eq_none_iff.1 none_] at open_
    cases open_
  cases p with
  | fixed s => cases unreadable
  | operand => cases unreadable
  | name n =>
    obtain ⟨e, failed⟩ := failure place unreadable
    exact ⟨e, by simp only [readPieces, failed]⟩
  | column c =>
    obtain ⟨e, failed⟩ := failure (place + (tableAlias c.table).utf8ByteSize + 1) unreadable
    exact ⟨e, by simp only [readPieces, failed]⟩

theorem readPieces_cons_of_readable {p : Piece} {rest : List Piece} (readable : p.isReadable) (other : p ≠ .operand) :
    readPieces text place operands (p :: rest) = readPieces text (place + p.size) operands rest := by
  cases p with
  | fixed s => rfl
  | operand => exact absurd rfl other
  | name n => simp [readPieces, nameFailure?_eq_none_iff.2 readable]
  | column c => simp [readPieces, nameFailure?_eq_none_iff.2 readable]

/-- Pieces are read to their end, with the operands counted, or there is a failure. -/
theorem readPieces_eq_ok_iff {pieces : List Piece} (within : operands ≤ maxOperands) {n : Nat} :
    (∃ after, readPieces text place operands pieces = .ok (after, n)) ↔
      (∀ p ∈ pieces, p.isReadable) ∧ n = operands + pieces.count .operand ∧ n ≤ maxOperands := by
  induction pieces generalizing place operands with
  | nil =>
    constructor
    · rintro ⟨after, read⟩
      cases read
      exact ⟨by simp, by simp, within⟩
    · rintro ⟨_, rfl, _⟩
      exact ⟨place, rfl⟩
  | cons p rest ih =>
    rw [List.forall_mem_cons]
    by_cases isOperand : p = .operand
    · subst isOperand
      rw [List.count_cons_self]
      by_cases room : operands < maxOperands
      · have step : readPieces text place operands (.operand :: rest) =
            readPieces text (place + Piece.operand.size) (operands + 1) rest := by
          simp [readPieces, room]
        rw [step, ih room]
        simp only [Piece.isReadable, true_and, and_congr_right_iff, and_congr_left_iff]
        intros
        omega
      · constructor
        · rintro ⟨after, read⟩
          simp [readPieces, room] at read
        · rintro ⟨_, rfl, few⟩
          omega
    · rw [List.count_cons_of_ne isOperand]
      by_cases readable : p.isReadable
      · rw [readPieces_cons_of_readable readable isOperand, ih within]
        simp [readable]
      · have unreadable : p.isReadable = false := by simpa using readable
        constructor
        · rintro ⟨after, read⟩
          obtain ⟨e, failed⟩ := readPieces_cons_of_unreadable unreadable
          rw [failed] at read
          cases read
        · rintro ⟨⟨holds, _⟩, _⟩
          exact absurd holds readable

theorem readParts_eq_ok_iff_from {parts : List Part} (within : operands ≤ maxOperands) :
    readParts text place operands parts = .ok () ↔
      (∀ part ∈ parts, part.Readable) ∧ operands + (Part.all parts).count .operand ≤ maxOperands := by
  induction parts generalizing place operands with
  | nil => simpa [readParts, Part.all] using within
  | cons part rest ih =>
    have all : Part.all (part :: rest) = part.pieces ++ Part.all rest := rfl
    rw [readParts, all, List.count_append, List.forall_mem_cons]
    cases read : readPieces text place operands part.pieces with
    | error e =>
      have never : ∀ n, ¬((∀ p ∈ part.pieces, p.isReadable) ∧ n = operands + part.pieces.count .operand ∧ n ≤ maxOperands) := by
        intro n able
        obtain ⟨after, reads⟩ : ∃ after, readPieces text place operands part.pieces = .ok (after, n) :=
          (readPieces_eq_ok_iff within).2 able
        rw [read] at reads
        cases reads
      constructor
      · intro impossible
        cases impossible
      · rintro ⟨⟨⟨_, readable⟩, _⟩, few⟩
        exact absurd ⟨readable, rfl, by omega⟩ (never _)
    | ok after =>
      obtain ⟨after, n⟩ := after
      obtain ⟨readable, rfl, few⟩ := (readPieces_eq_ok_iff within).1 ⟨after, read⟩
      dsimp only
      cases fault : part.fault with
      | none =>
        have whole : part.Readable := ⟨fault, readable⟩
        rw [ih few, Nat.add_assoc]
        simp only [whole, true_and]
      | some f =>
        constructor
        · intro impossible
          cases f <;> cases impossible
        · rintro ⟨⟨⟨none_, _⟩, _⟩, _⟩
          rw [fault] at none_
          cases none_

theorem read_eq_ok_iff {parts : List Part} :
    Part.read parts = .ok () ↔ (∀ part ∈ parts, part.Readable) ∧ (Part.all parts).count .operand ≤ maxOperands := by
  unfold Part.read
  rw [readParts_eq_ok_iff_from (Nat.zero_le _), Nat.zero_add]

end Reporting.Sql
