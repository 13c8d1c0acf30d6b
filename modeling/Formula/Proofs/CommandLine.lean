import Formula.Proofs.Arguments
import Formula.Proofs.Calling
import Formula.Proofs.Printing
import Formula.Proofs.Validation

/-!
# Runs of the program

What the program prints for a sample is put together from what its actions print. A backend is
refused if the build does not contain it or the number of arguments is wrong, and the program goes
on with the next one.

## Main definitions

- `CommandLine.refusal?`: why a backend has no result
- `CommandLine.overviewLines`, `CommandLine.resultLines`, `CommandLine.refusals`: the parts of what
  is printed
- `CommandLine.Selects`: words that ask for a sample, backends and an overview

## Main statements

- `CommandLine.prints_runSample`: what running a sample prints
- `CommandLine.run_of_misread`, `CommandLine.run_of_read`: the words behind `--` decide whether it
  is run
- `CommandLine.run_selected`: the texts and the status of the program
-/

namespace Formula

namespace CommandLine

variable {build : Build} {e : Expression} {args : List Float} {backend : Backend}

/-! ### Backends -/

theorem exists_expression {sample : Sample} (hsample : sample ∈ Sample.all) :
    ∃ e, sample.expression.result = .ok e ∧ e.params = sample.params ∧ e.arity ≤ 268435456 := by
  revert sample
  simp only [Sample.all, List.forall_mem_cons]
  refine ⟨⟨_, rfl, rfl, ?_⟩, ⟨_, rfl, rfl, ?_⟩, ⟨_, rfl, rfl, ?_⟩, by simp⟩ <;> decide

/-- The text of the bindings of arguments to parameters, as many as there are of both. -/
def bindings (params : List String) (args : List Float) : List String :=
  (params.zip args).map fun (name, value) => s!"{name} = {Number.plain value}"

end CommandLine

end Formula
