import Formula.Proofs.Generation

/-!
# Calling functions

How many arguments a function takes is recorded three times: in its parameter names, in its program
and in its executor. An engine makes functions of expressions and of programs, for any backend, and
whichever way it makes one the three agree. So a function refuses a wrong number of arguments and
nothing else, even where only its executor counts them.

## Main definitions

- `Engine.Makes`: the engine makes the function, of an expression or of a program

## Main statements

- `Executor.result_ofProgram_cases`: what making an executor comes to
- `Engine.exists_result_compileWith`: a function that is compiled for a backend of the build, and
  what it computes
- `Engine.calls_refused_for_arity_only`: what is known of every function that an engine makes
-/

namespace Formula

open Program

/-! ### Executors -/

namespace Executor

variable {build : Build} {backend : Backend} {p : Program}

theorem result_ofProgram_of_unavailable (h : backend.isAvailable build = false) :
    (ofProgram build backend p).result = .error (.fault (.backendUnavailable backend)) := by
  unfold ofProgram
  rw [h]
  rfl

theorem result_ofProgram_native (h : Backend.native.isAvailable build = true) :
    (ofProgram build .native p).result =
      (StraightLine.ofProgram p).mapError .fault >>= fun code => .ok (.native code) := by
  unfold ofProgram
  rw [if_pos h]
  change ((StraightLine.generate p >>= fun code => pure (native code)) : Attempt Executor).result = _
  rw [Attempt.result_bind, StraightLine.result_generate]
  rfl

variable [Arithmetic]

theorem exists_implements_native (hreach : ∀ instruction ∈ p.instructions, instruction.InReach) :
    ∃ code, StraightLine.ofProgram p = .ok code ∧ (native code).Implements p := by
  obtain ⟨code, hcode, harity, -, hagree⟩ := StraightLine.exists_ofProgram hreach
  refine ⟨code, hcode, harity, fun args => ?_⟩
  have hexecute : ((native code).execute args).result = code.run args :=
    Attempt.result_liftM (code.run args)
  by_cases hlength : args.length = p.arity
  · obtain ⟨value, hrun, hvalue⟩ := hagree args hlength
    rw [hexecute, hrun, hvalue]
  · have hcount : args.length ≠ code.arity := harity ▸ hlength
    rw [hexecute, StraightLine.run_of_length_ne hcount, harity, result_execute_of_length_ne hlength]

/-- For a backend of the build a program within its reach has an executor. -/
theorem exists_implements (havailable : backend.isAvailable build = true)
    (hreach : backend = .native → ∀ instruction ∈ p.instructions, instruction.InReach) :
    ∃ executor, (ofProgram build backend p).result = .ok executor ∧ executor.backend = backend ∧
      executor.Implements p := by
  cases backend with
  | interpreter =>
    exact ⟨.interpreter p, result_ofProgram_interpreter build p, rfl, implements_interpreter p⟩
  | native =>
    obtain ⟨code, hcode, himplements⟩ := exists_implements_native (hreach rfl)
    refine ⟨.native code, ?_, rfl, himplements⟩
    rw [result_ofProgram_native havailable, hcode]
    rfl

/-- There is no executor for a backend that the build does not contain, nor for native code that
would have to load from too far away. Otherwise there is one, and it implements the program. -/
theorem result_ofProgram_cases (build : Build) (backend : Backend) (p : Program) :
    (ofProgram build backend p).result = .error (.fault (.backendUnavailable backend)) ∨
      (∃ message, (ofProgram build backend p).result = .error (.fault (.codegen message))) ∨
      ∃ executor, (ofProgram build backend p).result = .ok executor ∧
        executor.backend = backend ∧ executor.Implements p := by
  by_cases havailable : backend.isAvailable build = true
  · right
    by_cases hreach : ∀ instruction ∈ p.instructions, instruction.InReach
    · exact .inr (exists_implements havailable fun _ => hreach)
    · cases backend with
      | interpreter => exact .inr (exists_implements havailable (by simp))
      | native =>
        have hfar : ∃ instruction ∈ p.instructions, ¬ instruction.InReach := by simpa using hreach
        refine .inl ⟨"parameter offset does not fit in 32 bits", ?_⟩
        rw [result_ofProgram_native havailable, StraightLine.ofProgram_of_not_inReach hfar]
        rfl
  · exact .inl (result_ofProgram_of_unavailable (by simpa using havailable))

end Executor

/-! ### Functions -/

namespace Program

/-- Native code reaches every argument of a function of up to `2 ^ 28` parameters. -/
theorem inReach_of_arity_le {p : Program} (h : p.arity ≤ 268435456) :
    ∀ instruction ∈ p.instructions, instruction.InReach := by
  intro instruction hmem
  cases instruction with
  | loadParameter index =>
    have hindex : index.toNat < p.arity := p.isOver _ hmem
    change index.toNat * 8 ≤ 2147483647
    omega
  | _ => trivial

theorem exists_result_execute [Arithmetic] {p : Program} {args : List Float}
    (h : args.length = p.arity) : ∃ value, (p.execute args).result = .ok value := by
  obtain ⟨value, hvalue⟩ := p.exists_effect_eq_singleton (argument args)
  exact ⟨value, result_execute_of_length_eq h hvalue⟩

end Program

namespace CompiledFunction

variable [Arithmetic] {f : CompiledFunction}

theorem ofArity_of_ne {n : Nat} (h : n ≠ f.arity) :
    f.ofArity n = .error (.arityMismatch f.arity n) := by
  unfold ofArity
  rw [requireArity_of_ne h]
  rfl

/-- The function on vectors of the right length is called as the function itself is. -/
theorem exists_ofArity {n : Nat} (h : n = f.arity) :
    ∃ g, f.ofArity n = .ok g ∧ ∀ args : Vector Float n, g args = f.call args.toList := by
  refine ⟨fun args => f.executor.execute args.toList, ?_, fun args => ?_⟩
  · unfold ofArity
    rw [requireArity_eq_ok_iff.mpr h]
    rfl
  · have hlength : args.toList.length = f.arity := by simpa using h
    exact (call_of_length_eq hlength).symm

end CompiledFunction

/-! ### Making functions -/

namespace Engine

/-- The engine makes the function. -/
inductive Makes (engine : Engine) (f : CompiledFunction) : Prop
  | compile (e : Expression) : (engine.compile e).result = .ok f → Makes engine f
  | compileWith (e : Expression) (backend : Backend) :
    (engine.compileWith e backend).result = .ok f → Makes engine f
  | load (p : Program) (backend : Backend) :
    (engine.load p backend).result = .ok f → Makes engine f

variable {engine : Engine} {names : List String} {p : Program}

variable [Arithmetic] {backend : Backend}

theorem result_link_ne_breach (h : names.length = p.arity) (broken : Breach) :
    (engine.link names p backend).result ≠ .error (.breach broken) := by
  rw [engine.result_link_eq_bind backend h]
  rcases Executor.result_ofProgram_cases engine.build backend p with
    hmissing | ⟨message, hfar⟩ | ⟨executor, hmade, -⟩
  · simp [hmissing]
  · simp [hfar]
  · simp [hmade]

theorem implements_of_link {f : CompiledFunction} (h : names.length = p.arity)
    (hlink : (engine.link names p backend).result = .ok f) : f.executor.Implements f.program := by
  rw [engine.result_link_eq_bind backend h] at hlink
  rcases Executor.result_ofProgram_cases engine.build backend p with
    hmissing | ⟨message, hfar⟩ | ⟨executor, hmade, -, himplements⟩
  · rw [hmissing] at hlink
    cases hlink
  · rw [hfar] at hlink
    cases hlink
  · rw [hmade] at hlink
    cases hlink
    exact himplements

theorem Makes.implements {f : CompiledFunction} (h : engine.Makes f) :
    f.executor.Implements f.program := by
  cases h with
  | compile e hmade => exact implements_of_link rfl (result_compileWith_eq_link engine e _ ▸ hmade)
  | compileWith e backend hmade =>
    exact implements_of_link rfl (result_compileWith_eq_link engine e backend ▸ hmade)
  | load p backend hmade => exact implements_of_link (by simp) hmade

/-- A function that is compiled for a backend of the build evaluates its expression. -/
theorem exists_result_compileWith (engine : Engine) (e : Expression)
    (havailable : backend.isAvailable engine.build = true)
    (hreach : backend = .native → ∀ instruction ∈ e.program.instructions, instruction.InReach) :
    ∃ f, (engine.compileWith e backend).result = .ok f ∧ f.backend = backend ∧
      f.params = e.params ∧ ∀ args : List Float, (f.call args).result = e.evaluate args := by
  obtain ⟨executor, hmade, hbackend, himplements⟩ := Executor.exists_implements havailable hreach
  refine ⟨⟨e.params, e.program, executor, rfl⟩, ?_, hbackend, rfl, fun args => ?_⟩
  · rw [result_compileWith_eq_link, engine.result_link_eq_bind backend rfl, hmade, ok_bind]
  · rw [CompiledFunction.result_call himplements, e.result_execute_program]

/-- An engine breaks no promise in making a function. The function has as many parameter names as
its program and its executor ask for arguments, and its instructions verify once more with the same
greatest depth. A call fails exactly if the number of arguments is wrong, and only for that reason;
the same holds of the function on vectors, which is there for the right length only and cannot fail
any more. -/
theorem calls_refused_for_arity_only (engine : Engine) :
    (∀ e broken, (engine.compile e).result ≠ .error (.breach broken)) ∧
      (∀ e backend broken, (engine.compileWith e backend).result ≠ .error (.breach broken)) ∧
      (∀ p backend broken, (engine.load p backend).result ≠ .error (.breach broken)) ∧
      ∀ f, engine.Makes f →
        (f.params.length = f.program.arity ∧ f.executor.arity = f.program.arity) ∧
        (∃ p, ofInstructions f.program.instructions f.program.arity = .ok p ∧
          p.maxDepth = f.program.maxDepth) ∧
        (∀ args : List Float,
          (args.length ≠ f.arity →
            (f.call args).result = .error (.fault (.arityMismatch f.arity args.length)) ∧
            (f.executor.execute args).result =
              .error (.fault (.arityMismatch f.arity args.length))) ∧
          (args.length = f.arity → ∃ value, (f.call args).result = .ok value)) ∧
        ∀ n,
          (n ≠ f.arity → f.ofArity n = .error (.arityMismatch f.arity n)) ∧
          (n = f.arity → ∃ g, f.ofArity n = .ok g ∧ ∀ args : Vector Float n,
            g args = f.call args.toList ∧ ∃ value, (g args).result = .ok value) := by
  have hcompileWith : ∀ e backend broken,
      (engine.compileWith e backend).result ≠ .error (.breach broken) := by
    intro e backend broken
    rw [result_compileWith_eq_link]
    exact result_link_ne_breach rfl broken
  refine ⟨fun e => hcompileWith e engine.backend, hcompileWith, fun p backend broken => ?_,
    fun f hmakes => ?_⟩
  · exact result_link_ne_breach (by simp) broken
  have himplements := hmakes.implements
  have hanswered : ∀ args : List Float, args.length = f.arity →
      ∃ value, (f.call args).result = .ok value := by
    intro args hlength
    rw [CompiledFunction.result_call himplements]
    exact exists_result_execute (f.named ▸ hlength)
  refine ⟨⟨f.named, himplements.arity_eq⟩, ?_, fun args => ⟨fun hlength => ?_, hanswered args⟩,
    fun n => ⟨CompiledFunction.ofArity_of_ne, fun hn => ?_⟩⟩
  · exact ⟨f.program, ofInstructions_eq_ok_iff.mpr ⟨rfl, rfl⟩, rfl⟩
  · have hcount : args.length ≠ f.program.arity := f.named ▸ hlength
    refine ⟨CompiledFunction.result_call_of_length_ne hlength, ?_⟩
    rw [himplements.result_execute, result_execute_of_length_ne hcount, CompiledFunction.arity,
      f.named]
  · obtain ⟨g, hg, hcall⟩ := CompiledFunction.exists_ofArity hn
    refine ⟨g, hg, fun args => ⟨hcall args, ?_⟩⟩
    rw [hcall args]
    exact hanswered args.toList (by simpa using hn)

/-- Native code for a difference is called with two arguments, refused one, and made a function on
vectors of two. -/
theorem native_difference_calls :
    ∃ e : Expression, e.root = .binary .subtract (.parameter 0) (.parameter 1) ∧
      ∃ f, (Engine.compileWith { build := .native } e .native).result = .ok f ∧
        f.backend = .native ∧ f.executor.arity = 2 ∧
        (f.call [5.0]).result = .error (.fault (.arityMismatch 2 1)) ∧
        (∃ value, (f.call [5.0, 3.0]).result = .ok value) ∧
        f.ofArity 3 = .error (.arityMismatch 2 3) ∧
        ∃ g, f.ofArity 2 = .ok g ∧ ∃ value, (g #v[5.0, 3.0]).result = .ok value := by
  let e : Expression := {
    root := .binary .subtract (.parameter 0) (.parameter 1)
    params := ["x", "y"]
    distinct := by decide
    checked := rfl }
  have harity : e.program.arity ≤ 268435456 := by decide
  have havailable : Backend.native.isAvailable .native = true := rfl
  obtain ⟨f, hmade, hbackend, hparams, -⟩ := exists_result_compileWith { build := .native } e
    havailable fun _ => inReach_of_arity_le harity
  obtain ⟨-, -, -, hmakes⟩ := calls_refused_for_arity_only { build := .native }
  obtain ⟨⟨hnamed, hexecutor⟩, -, hcalls, hvectors⟩ := hmakes f (.compileWith e .native hmade)
  have htwo : f.arity = 2 := by rw [CompiledFunction.arity, hparams]; rfl
  rw [← hnamed] at hexecutor
  rw [htwo] at hcalls hvectors
  obtain ⟨g, hg, hvalue⟩ := (hvectors 2).2 rfl
  exact ⟨e, rfl, f, hmade, hbackend, hexecutor.trans htwo, ((hcalls [5.0]).1 (by decide)).1,
    (hcalls [5.0, 3.0]).2 rfl, (hvectors 3).1 (by decide), g, hg, (hvalue #v[5.0, 3.0]).2⟩

end Engine

end Formula
