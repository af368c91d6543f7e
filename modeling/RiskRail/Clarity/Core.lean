import Mathlib.Logic.Function.Basic
import Mathlib.Algebra.Ring.Nat
import Mathlib.Order.Basic

/-!
# Clarity values and call outcomes

The part of Clarity the contracts of this repository use: principals, 128-bit
unsigned integers whose arithmetic aborts outside its range, bounded buffers,
data maps, and the outcome of a public call.  A call that answers `(err ..)` or
aborts leaves no trace in contract storage; `Outcome.commit` is that rule.
-/

namespace RiskRail.Clarity

universe u v w

/-- A standard principal or a contract principal. -/
inductive Principal where
  | standard (address : String)
  | contract (issuer name : String)
  deriving DecidableEq, Repr

/-- A Clarity `uint`. -/
@[ext]
structure Uint where
  val : Nat
  val_lt : val < 2 ^ 128
  deriving DecidableEq

namespace Uint

theorem mod_lt (value : Nat) : value % 2 ^ 128 < 2 ^ 128 :=
  Nat.mod_lt value (by decide)

/-- The literal `u..` of a number below 2^128. -/
def literal (value : Nat) : Uint :=
  ⟨value % 2 ^ 128, mod_lt value⟩

instance : LE Uint :=
  ⟨fun left right => left.val ≤ right.val⟩

instance (left right : Uint) : Decidable (left ≤ right) :=
  inferInstanceAs (Decidable (left.val ≤ right.val))

theorem le_def {left right : Uint} : left ≤ right ↔ left.val ≤ right.val :=
  Iff.rfl

/-- Clarity `+`: a sum that does not fit aborts the transaction. -/
def add (left right : Uint) : Option Uint :=
  if fits : left.val + right.val < 2 ^ 128 then
    some ⟨left.val + right.val, fits⟩
  else
    none

/-- Clarity `-`: a difference below zero aborts the transaction. -/
def sub (left right : Uint) : Option Uint :=
  if right.val ≤ left.val then
    some ⟨left.val - right.val, lt_of_le_of_lt (Nat.sub_le _ _) left.val_lt⟩
  else
    none

theorem sub_of_le {left right : Uint} (ordered : right ≤ left) :
    sub left right =
      some ⟨left.val - right.val, lt_of_le_of_lt (Nat.sub_le _ _) left.val_lt⟩ :=
  if_pos ordered

theorem add_eq_some_iff {left right sum : Uint} :
    add left right = some sum ↔ sum.val = left.val + right.val := by
  unfold add
  split
  · rw [Option.some.injEq, Uint.ext_iff]
    exact eq_comm
  · rename_i overflow
    have bound := sum.val_lt
    simp only [reduceCtorEq, false_iff]
    omega

end Uint

/-- A Clarity `(buff n)`: at most `capacity` bytes. -/
structure Buff (capacity : Nat) where
  bytes : List UInt8
  length_le : bytes.length ≤ capacity
  deriving DecidableEq

/-- A Clarity `(string-ascii n)`: at most `capacity` ASCII characters. -/
structure StringAscii (capacity : Nat) where
  chars : List Char
  length_le : chars.length ≤ capacity
  ascii : chars.all (fun char => decide (char.val < 128)) = true
  deriving DecidableEq

/-- A Clarity data map. -/
abbrev DataMap (K : Type u) (V : Type v) := K → Option V

namespace DataMap

variable {K : Type u} {V : Type v} [DecidableEq K]

/-- `map-set`. -/
def set (map : DataMap K V) (key : K) (value : V) : DataMap K V :=
  Function.update map key (some value)

@[simp]
theorem set_self (map : DataMap K V) (key : K) (value : V) :
    map.set key value key = some value := by
  simp [set]

theorem set_of_ne {key other : K} (distinct : other ≠ key) (map : DataMap K V)
    (value : V) : map.set key value other = map other := by
  simp [set, distinct]

/-- `map-delete`. -/
def delete (map : DataMap K V) (key : K) : DataMap K V :=
  Function.update map key none

@[simp]
theorem delete_self (map : DataMap K V) (key : K) : map.delete key key = none := by
  simp [delete]

theorem delete_of_ne {key other : K} (distinct : other ≠ key) (map : DataMap K V) :
    map.delete key other = map other := by
  simp [delete, distinct]

theorem set_apply (map : DataMap K V) (key other : K) (value : V) :
    map.set key value other = if other = key then some value else map other := by
  simp [set, Function.update_apply]

end DataMap

/-- What a contract function reads of the transaction that calls it. -/
structure Env where
  txSender : Principal
  stacksBlockHeight : Uint

/-- The outcome of a public function: `(ok value)` with the storage it leaves,
`(err code)`, or a runtime error that aborts the transaction. -/
inductive Outcome (σ : Type u) (α : Type v) where
  | ok (value : α) (state : σ)
  | err (code : Uint)
  | abort

namespace Outcome

variable {σ : Type u} {α : Type v} {β : Type w}

/-- Storage after the call: only `(ok ..)` commits. -/
def commit (before : σ) : Outcome σ α → σ
  | ok _ after => after
  | err _ => before
  | abort => before

/-- The call answered `(ok ..)`. -/
def succeeded : Outcome σ α → Bool
  | ok _ _ => true
  | err _ => false
  | abort => false

/-- Rename the answer of a successful call. -/
def map (f : α → β) : Outcome σ α → Outcome σ β
  | ok value after => ok (f value) after
  | err code => err code
  | abort => abort

/-- Put the storage a call leaves in its place in a larger one. -/
def lift {τ : Type w} (place : σ → τ) : Outcome σ α → Outcome τ α
  | ok value after => ok value (place after)
  | err code => err code
  | abort => abort

theorem lift_eq_ok_iff {τ : Type w} {place : σ → τ} {outcome : Outcome σ α} {value : α}
    {after : τ} :
    outcome.lift place = ok value after ↔
      ∃ state, outcome = ok value state ∧ place state = after := by
  cases outcome with
  | ok answer state =>
      simp only [lift, ok.injEq]
      constructor
      · rintro ⟨rfl, rfl⟩
        exact ⟨state, ⟨rfl, rfl⟩, rfl⟩
      · rintro ⟨_, ⟨rfl, rfl⟩, rfl⟩
        exact ⟨rfl, rfl⟩
  | err code => simp [lift]
  | abort => simp [lift]

theorem ok_eq_ok_iff {answer value : α} {state after : σ} :
    (ok answer state : Outcome σ α) = ok value after ↔ value = answer ∧ after = state := by
  rw [ok.injEq]
  exact and_congr eq_comm eq_comm

theorem map_eq_ok_iff {f : α → β} {outcome : Outcome σ α} {value : β} {after : σ} :
    outcome.map f = ok value after ↔
      ∃ answer, outcome = ok answer after ∧ f answer = value := by
  cases outcome with
  | ok answer state =>
      simp only [map, ok.injEq]
      constructor
      · rintro ⟨rfl, rfl⟩
        exact ⟨answer, ⟨rfl, rfl⟩, rfl⟩
      · rintro ⟨_, ⟨rfl, rfl⟩, rfl⟩
        exact ⟨rfl, rfl⟩
  | err code => simp [map]
  | abort => simp [map]

/-- Either the call succeeded and committed, or storage is as before. -/
theorem commit_cases (before : σ) (outcome : Outcome σ α) :
    (∃ value, outcome = ok value (outcome.commit before) ∧ outcome.succeeded = true) ∨
      (outcome.commit before = before ∧ outcome.succeeded = false) := by
  cases outcome with
  | ok value after => exact Or.inl ⟨value, rfl, rfl⟩
  | err code => exact Or.inr ⟨rfl, rfl⟩
  | abort => exact Or.inr ⟨rfl, rfl⟩

end Outcome

/-- `(asserts! condition (err code))` in front of the rest of a function body. -/
def asserts {σ : Type u} {α : Type v} (condition : Prop) [Decidable condition]
    (code : Uint) (rest : Outcome σ α) : Outcome σ α :=
  if condition then rest else .err code

theorem asserts_eq_ok_iff {σ : Type u} {α : Type v} {condition : Prop}
    [Decidable condition] {code : Uint} {rest : Outcome σ α} {value : α} {after : σ} :
    asserts condition code rest = .ok value after ↔
      condition ∧ rest = .ok value after := by
  unfold asserts
  split <;> simp_all

theorem asserts_of_not {σ : Type u} {α : Type v} {condition : Prop}
    [Decidable condition] (fails : ¬condition) (code : Uint) (rest : Outcome σ α) :
    asserts condition code rest = .err code :=
  if_neg fails

theorem asserts_of {σ : Type u} {α : Type v} {condition : Prop}
    [Decidable condition] (holds : condition) (code : Uint) (rest : Outcome σ α) :
    asserts condition code rest = rest :=
  if_pos holds

end RiskRail.Clarity
