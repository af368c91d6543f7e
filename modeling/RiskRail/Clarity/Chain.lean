import RiskRail.Clarity.Core
import RiskRail.Transition.Core

/-!
# A contract on a chain

A contract runs one public call at a time against its own storage.  The chain
below keeps the height, the storage and a receipt of every transaction, newest
first, so that what was called, by whom and with what success stays readable.
Block heights of successive transactions never decrease.
-/

namespace RiskRail.Clarity

open RiskRail.Transition

universe u v w

/-- A contract: the meaning of each public call. -/
structure Contract (σ : Type u) (Call : Type v) (Value : Type w) where
  run : Env → Call → σ → Outcome σ Value

/-- A transaction that calls a public function. -/
structure Tx (Call : Type v) where
  sender : Principal
  height : Uint
  call : Call

/-- The environment a transaction gives the function it calls. -/
def Tx.env {Call : Type v} (tx : Tx Call) : Env :=
  ⟨tx.sender, tx.height⟩

/-- A mined transaction and whether its call answered `(ok ..)`. -/
structure Receipt (Call : Type v) where
  tx : Tx Call
  succeeded : Bool

/-- Chain state as far as one contract is concerned. -/
structure Chain (σ : Type u) (Call : Type v) where
  height : Uint
  state : σ
  receipts : List (Receipt Call)

/-- The chain right after the contract's deployment. -/
def Chain.genesis {σ : Type u} {Call : Type v} (height : Uint) (state : σ) :
    Chain σ Call :=
  ⟨height, state, []⟩

namespace Contract

variable {σ : Type u} {Call : Type v} {Value : Type w}

/-- Mine one transaction; its height may not lie before the current one. -/
def next (contract : Contract σ Call Value) : Step (Chain σ Call) (Tx Call) :=
  fun chain tx =>
    if chain.height ≤ tx.height then
      let outcome := contract.run tx.env tx.call chain.state
      some
        { height := tx.height
          state := outcome.commit chain.state
          receipts := ⟨tx, outcome.succeeded⟩ :: chain.receipts }
    else
      none

/-- What mining a transaction does: the call succeeds and its storage is
committed, or storage is left alone. -/
theorem next_cases {contract : Contract σ Call Value} {chain after : Chain σ Call}
    {tx : Tx Call} (step : contract.next chain tx = some after) :
    chain.height ≤ tx.height ∧ after.height = tx.height ∧
      ((∃ value, contract.run tx.env tx.call chain.state = .ok value after.state ∧
          after.receipts = ⟨tx, true⟩ :: chain.receipts) ∨
        (after.state = chain.state ∧
          after.receipts = ⟨tx, false⟩ :: chain.receipts)) := by
  unfold next at step
  split at step
  · rename_i ordered
    cases step
    refine ⟨ordered, rfl, ?_⟩
    rcases (contract.run tx.env tx.call chain.state).commit_cases chain.state with
      ⟨value, ran, success⟩ | ⟨kept, failure⟩
    · exact Or.inl ⟨value, ran, by simp only [success]⟩
    · exact Or.inr ⟨kept, by simp only [failure]⟩
  · contradiction

/-- A transaction whose call succeeds. -/
theorem next_of_ok {contract : Contract σ Call Value} {chain : Chain σ Call} {tx : Tx Call}
    (ordered : chain.height ≤ tx.height) {value : Value} {state : σ}
    (ran : contract.run tx.env tx.call chain.state = .ok value state) :
    contract.next chain tx = some ⟨tx.height, state, ⟨tx, true⟩ :: chain.receipts⟩ := by
  rw [next, if_pos ordered, ran]
  rfl

/-- A call that does not succeed leaves storage alone. -/
theorem next_state_of_not_ok {contract : Contract σ Call Value}
    {chain after : Chain σ Call} {tx : Tx Call}
    (step : contract.next chain tx = some after)
    (rejected : ∀ value state, contract.run tx.env tx.call chain.state ≠ .ok value state) :
    after.state = chain.state := by
  rcases (next_cases step).2.2 with ⟨value, ran, _⟩ | ⟨kept, _⟩
  · exact absurd ran (rejected value after.state)
  · exact kept

end Contract

end RiskRail.Clarity
