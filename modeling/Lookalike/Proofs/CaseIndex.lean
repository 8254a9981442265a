import Lookalike.CaseIndex.Basic
import Lookalike.Proofs.Attempt

/-!
# Asking the index

The questions put to an index are recorded and leave everything else of a scoring call alone, and so
does every part of a call that is made up of questions. Where the answers do not depend on the
questions put before, what such a part ends with does not depend on the state in which it is run.

## Main definitions

* `CaseIndex.Steady`, `CaseIndex.Memoryless`, that answers of an index are functions of the
  questions
* `CaseIndex.Stateless`, that the order of keys makes no difference to what is known about them
  either
* `Scoring.OnlyAsks`, that a part of a call does nothing but ask
* `Scoring.Oblivious`, that a part of a call does not go by what has been asked before
* `Scoring.Consults`, that a part of a call is made up of questions and what follows from their
  answers

## Main statements

* `CaseIndex.result_ask`
* `Scoring.OnlyAsks.bind`, `Scoring.OnlyAsks.outcome`
* `Scoring.Oblivious.bind`, `Scoring.Oblivious.get_bind`
* `Scoring.Consults.onlyAsks`, `Scoring.Consults.outcome_eq`
-/

namespace Lookalike

variable {Item Key : Type} {F : Format} {α β : Type}

/-- A question to the index is answered and recorded. -/
theorem CaseIndex.result_ask {call : IndexCall Item Key}
    {answer : List (IndexCall Item Key) → Except Fault α} (pass : Pass Item Key F) :
    (CaseIndex.ask call answer).result pass =
      (answer pass.calls, { pass with calls := call :: pass.calls }) := by
  unfold Attempt.result CaseIndex.ask
  cases answer pass.calls <;> rfl

/-- An index that finds neighbors, keys and content hashes whatever it has been asked before. -/
structure CaseIndex.Steady {Key Hash : Type} (index : CaseIndex Item Key Hash F) : Prop where
  nearest : ∀ calls calls' vector limit,
    index.nearest calls vector limit = index.nearest calls' vector limit
  key : ∀ calls calls' item, index.key calls item = index.key calls' item
  hash : ∀ calls calls' key, index.hash calls key = index.hash calls' key

/-- An index whose answers are functions of the questions. -/
structure CaseIndex.Memoryless {Key Hash : Type} (index : CaseIndex Item Key Hash F) : Prop
    extends index.Steady where
  vectors : ∀ calls calls' keys, index.vectors calls keys = index.vectors calls' keys

/-- An index whose answers do not depend on the questions put before. What it knows about the
vectors of some keys does not depend on the order in which they are asked for, either. -/
structure CaseIndex.Stateless {Key Hash : Type} [BEq Key] (index : CaseIndex Item Key Hash F) :
    Prop where
  nearest : ∀ calls calls' vector limit,
    index.nearest calls vector limit = index.nearest calls' vector limit
  key : ∀ calls calls' item, index.key calls item = index.key calls' item
  hash : ∀ calls calls' key, index.hash calls key = index.hash calls' key
  vectors : ∀ calls calls' {keys keys' : List Key}, keys.Perm keys' →
    (index.vectors calls keys).map (fun stored key => stored.lookup key) =
      (index.vectors calls' keys').map fun stored key => stored.lookup key

theorem CaseIndex.Stateless.steady {Key Hash : Type} [BEq Key] {index : CaseIndex Item Key Hash F}
    (stateless : index.Stateless) : index.Steady :=
  ⟨stateless.nearest, stateless.key, stateless.hash⟩

namespace Scoring

/-- A part of a scoring call that does nothing but ask the index: whatever it ends with, the result
set and the top list stay as they are. -/
def OnlyAsks (attempt : Scoring Item Key F α) : Prop :=
  ∀ pass, ∃ calls, (attempt.result pass).2 = { pass with calls }

namespace OnlyAsks

variable {attempt : Scoring Item Key F α} {next : α → Scoring Item Key F β}

theorem pure (value : α) : OnlyAsks (Pure.pure value : Scoring Item Key F α) :=
  fun pass => ⟨pass.calls, rfl⟩

theorem throw (fault : Fault) : OnlyAsks (throw fault : Scoring Item Key F α) :=
  fun pass => ⟨pass.calls, rfl⟩

theorem get : OnlyAsks (MonadState.get : Scoring Item Key F (Pass Item Key F)) :=
  fun pass => ⟨pass.calls, rfl⟩

theorem ofExcept (value : Except Fault α) :
    OnlyAsks (Attempt.ofExcept value : Scoring Item Key F α) := fun pass =>
  ⟨pass.calls, by rw [Attempt.result_ofExcept]⟩

theorem ask (call : IndexCall Item Key) (answer : List (IndexCall Item Key) → Except Fault α) :
    OnlyAsks (CaseIndex.ask (F := F) call answer) := fun pass =>
  ⟨call :: pass.calls, by rw [CaseIndex.result_ask]⟩

theorem outcome (asks : OnlyAsks attempt) : OnlyAsks (Attempt.outcome attempt) := fun pass => by
  obtain ⟨calls, same⟩ := asks pass
  exact ⟨calls, by rw [Attempt.result_outcome, same]⟩

/-- What follows on a question is asked in the state that the question has left. -/
theorem bind (asks : OnlyAsks attempt) (asks' : ∀ value, OnlyAsks (next value)) :
    OnlyAsks (attempt >>= next) := fun pass => by
  obtain ⟨calls, same⟩ := asks pass
  cases run : attempt.result pass with
  | mk outcome pass' =>
    rw [run] at same
    obtain rfl : pass' = { pass with calls } := same
    cases outcome with
    | ok value =>
      rw [Attempt.result_bind_ok run]
      exact asks' value _
    | error fault =>
      rw [Attempt.result_bind_error run]
      exact ⟨calls, rfl⟩

end OnlyAsks

/-- A part of a scoring call that does not go by what has been asked before: it ends alike and
leaves the same result set and the same top list, whatever has been asked. -/
def Oblivious (attempt : Scoring Item Key F α) : Prop :=
  ∀ pass calls, ∃ calls', attempt.result { pass with calls } =
    ((attempt.result pass).1, { (attempt.result pass).2 with calls := calls' })

namespace Oblivious

variable {attempt : Scoring Item Key F α} {next : α → Scoring Item Key F β}

theorem pure (value : α) : Oblivious (Pure.pure value : Scoring Item Key F α) :=
  fun _ calls => ⟨calls, rfl⟩

theorem throw (fault : Fault) : Oblivious (throw fault : Scoring Item Key F α) :=
  fun _ calls => ⟨calls, rfl⟩

theorem ofExcept (value : Except Fault α) :
    Oblivious (Attempt.ofExcept value : Scoring Item Key F α) := fun pass calls =>
  ⟨calls, by rw [Attempt.result_ofExcept, Attempt.result_ofExcept]⟩

/-- A question whose answer is one and the same at all times. -/
theorem ask (call : IndexCall Item Key) {answer : List (IndexCall Item Key) → Except Fault α}
    (same : ∀ calls calls', answer calls = answer calls') :
    Oblivious (CaseIndex.ask (F := F) call answer) := fun pass calls =>
  ⟨call :: calls, by rw [CaseIndex.result_ask, CaseIndex.result_ask, same calls pass.calls]⟩

theorem outcome (oblivious : Oblivious attempt) : Oblivious (Attempt.outcome attempt) :=
  fun pass calls => by
    obtain ⟨calls', same⟩ := oblivious pass calls
    exact ⟨calls', by rw [Attempt.result_outcome, Attempt.result_outcome, same]⟩

/-- What a part does to the scores does not go by what has been asked. -/
theorem within (attempt : Attempt (ResultSet Item F) α) :
    Oblivious (attempt.within (·.results) fun results (pass : Pass Item Key F) =>
      { pass with results }) := fun _ calls =>
  ⟨calls, by rw [Attempt.result_within, Attempt.result_within]⟩

/-- A state may be read, as far as what follows does not go by what has been asked. -/
theorem get_bind {next : Pass Item Key F → Scoring Item Key F β}
    (oblivious : ∀ pass, Oblivious (next pass))
    (same : ∀ pass calls, next { pass with calls } = next pass) :
    Oblivious (MonadState.get >>= next) := fun pass calls => by
  rw [Attempt.result_bind_ok (Attempt.result_get _), Attempt.result_bind_ok (Attempt.result_get _),
    same]
  exact oblivious pass pass calls

/-- What follows goes on from the same result set and the same top list. -/
theorem bind (oblivious : Oblivious attempt) (oblivious' : ∀ value, Oblivious (next value)) :
    Oblivious (attempt >>= next) := fun pass calls => by
  obtain ⟨calls₁, same⟩ := oblivious pass calls
  cases run : attempt.result pass with
  | mk outcome passed =>
    rw [run] at same
    cases outcome with
    | ok value =>
      obtain ⟨calls₂, same'⟩ := oblivious' value passed calls₁
      exact ⟨calls₂, by rw [Attempt.result_bind_ok same, Attempt.result_bind_ok run, same']⟩
    | error fault =>
      exact ⟨calls₁, by rw [Attempt.result_bind_error same, Attempt.result_bind_error run]⟩

end Oblivious

/-- A part of a scoring call that asks for neighbors and content hashes and goes by the answers
alone. -/
inductive Consults {Hash : Type} (index : CaseIndex Item Key Hash F) :
    {α : Type} → Scoring Item Key F α → Prop where
  | pure {α : Type} (value : α) : Consults index (Pure.pure value)
  | throw {α : Type} (fault : Fault) :
    Consults index (MonadExcept.throw fault : Scoring Item Key F α)
  | nearest (vector : FeatureVector F) (limit : Int) :
    Consults index (index.askNearest vector limit)
  | hash (key : Key) : Consults index (index.askHash key)
  | outcome {α : Type} {attempt : Scoring Item Key F α} (consults : Consults index attempt) :
    Consults index (Attempt.outcome attempt)
  | bind {α β : Type} {attempt : Scoring Item Key F α} {next : α → Scoring Item Key F β}
    (consults : Consults index attempt) (consults' : ∀ value, Consults index (next value)) :
    Consults index (attempt >>= next)

namespace Consults

variable {Hash : Type} {index : CaseIndex Item Key Hash F} {attempt : Scoring Item Key F α}

theorem onlyAsks (consults : Consults index attempt) : OnlyAsks attempt := by
  induction consults with
  | pure value => exact .pure value
  | throw fault => exact .throw fault
  | nearest vector limit => exact .ask _ _
  | hash key => exact .ask _ _
  | outcome _ ih => exact ih.outcome
  | bind _ _ ih ih' => exact ih.bind ih'

/-- With a steady index what is answered does not depend on what has been asked before, so every
step ends alike in all states. -/
theorem outcome_eq (steady : index.Steady) (consults : Consults index attempt)
    (pass pass' : Pass Item Key F) : (attempt.result pass).1 = (attempt.result pass').1 := by
  induction consults generalizing pass pass' with
  | pure value => rfl
  | throw fault => rfl
  | nearest vector limit =>
    rw [CaseIndex.askNearest, CaseIndex.result_ask, CaseIndex.result_ask]
    exact steady.nearest _ _ vector limit
  | hash key =>
    rw [CaseIndex.askHash, CaseIndex.result_ask, CaseIndex.result_ask]
    exact steady.hash _ _ key
  | outcome _ ih =>
    rw [Attempt.result_outcome, Attempt.result_outcome]
    exact congrArg Except.ok (ih pass pass')
  | @bind _ _ attempt _ _ _ ih ih' =>
    cases run : attempt.result pass with
    | mk outcome passed =>
      cases run' : attempt.result pass' with
      | mk outcome' passed' =>
        obtain rfl : outcome = outcome' := by
          have same := ih pass pass'
          rwa [run, run'] at same
        cases outcome with
        | ok value =>
          rw [Attempt.result_bind_ok run, Attempt.result_bind_ok run']
          exact ih' value passed passed'
        | error fault =>
          rw [Attempt.result_bind_error run, Attempt.result_bind_error run']

end Consults

end Scoring

end Lookalike
