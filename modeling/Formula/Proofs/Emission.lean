import Formula.Proofs.Compilation
import Formula.Trace

/-!
# Emission call by call

The handlers of the emitter can be called in any order, whether or not there is a tree of which the
calls are a walk. The emitter checks while it goes on what verification checks of all instructions
at once, so it refuses the same ones. Which of its promises is broken tells how the operand stack
develops.

## Main definitions

- `Call.instruction`: the instruction that a call is for
- `Emitter.dictate`: the program of an emitter whose handlers are called one after the other

## Main statements

- `Emitter.assemble_eq_ok_iff`: which instructions are assembled, and to which program
- `Emitter.dictate_eq_assemble`: calls come to the same as their instructions
- `Emitter.dictate_agrees_with_verification`: the emitter fails where verification does
-/

namespace Formula

open Program

/-- The instruction that the emitter's handler emits. -/
def Call.instruction : Call → Instruction
  | .constant value => .loadConstant value
  | .parameter index _ => .loadParameter index
  | .operator op => .operate op

/-- Makes a call to a walker whose handlers have no results. -/
def Walker.obey {m : Type → Type} (w : Walker m Unit) : Call → m Unit
  | .constant value => w.constant value
  | .parameter index name => w.parameter index name
  | .operator op => w.operator op () ()

namespace Emitter

/-- Makes the calls one after the other, in whatever order they are given, and finishes. -/
def dictate (calls : List Call) (arity : Nat) : Except Breach Program := do
  let ((), emitter) ← (forM calls Walker.emitter.obey).run { arity }
  emitter.finish

variable {emitter : Emitter} {instructions : List Instruction} {arity : Nat}

/-! ### Lists of instructions -/

theorem emit_of_lt {instruction : Instruction} (h : emitter.depth < instruction.pops) :
    emitter.emit instruction = .error .emittedUnderflow :=
  if_pos h

/-- The first instruction that lacks an operand ends the emission, whatever follows it. -/
theorem foldlM_emit_of_not_sustained (h : ¬ Sustained emitter.depth instructions) :
    instructions.foldlM emit emitter = .error .emittedUnderflow := by
  induction instructions generalizing emitter with
  | nil => exact absurd trivial h
  | cons instruction rest ih =>
    rw [List.foldlM_cons]
    by_cases hpops : instruction.pops ≤ emitter.depth
    · have hrest : ¬ Sustained (instruction.depthAfter emitter.depth) rest :=
        fun hsustained => h ⟨hpops, hsustained⟩
      rw [emit_of_le hpops, ok_bind, ih hrest]
    · rw [emit_of_lt (by omega), error_bind]

theorem assemble_of_not_sustained (h : ¬ Sustained 0 instructions) :
    assemble instructions arity = .error .emittedUnderflow := by
  have hfold : instructions.foldlM emit { arity } = _ := foldlM_emit_of_not_sustained h
  rw [assemble, hfold, error_bind]

theorem assemble_of_sustained (h : Sustained 0 instructions) :
    assemble instructions arity = (extend { arity } instructions).finish := by
  have hfold : instructions.foldlM emit { arity } = _ := foldlM_emit h
  rw [assemble, hfold, ok_bind]

theorem assemble_of_finalDepth_ne (h : Sustained 0 instructions)
    (hfinal : finalDepth 0 instructions ≠ 1) :
    assemble instructions arity = .error .unbalancedEmission := by
  rw [assemble_of_sustained h]
  exact if_neg hfinal

/-- If one value is left, emission fails only where verification does. -/
theorem assemble_of_finalDepth_eq (h : Sustained 0 instructions)
    (hfinal : finalDepth 0 instructions = 1) :
    assemble instructions arity =
      (ofInstructions instructions arity).mapError fun _ => .unverifiedEmission := by
  have hemitted : (extend { arity } instructions).instructions.toList = instructions := by
    simp [extend]
  rw [assemble_of_sustained h]
  cases hmade : ofInstructions instructions arity with
  | ok p =>
    obtain ⟨hinstructions, harity⟩ := ofInstructions_eq_ok_iff.mp hmade
    refine finish_eq_ok hfinal (hemitted.trans hinstructions.symm) harity.symm ?_
    -- the emitter has counted from an empty stack on, as verification does
    change max 0 (peak 0 instructions) = p.maxDepth
    rw [p.maxDepth_eq_peak, hinstructions, Nat.zero_max]
  | error fault =>
    have hdepth : (extend { arity } instructions).depth = 1 := hfinal
    rw [finish, if_pos hdepth]
    split
    · next maxDepth hverified =>
      have hverified' : verify instructions arity = .ok maxDepth := hemitted ▸ hverified
      cases hverified'.symm.trans (ofInstructions_eq_error_iff.mp hmade)
    · rfl

theorem assemble_eq_ok_iff {p : Program} :
    assemble instructions arity = .ok p ↔ ofInstructions instructions arity = .ok p := by
  by_cases hbalanced : Sustained 0 instructions ∧ finalDepth 0 instructions = 1
  · obtain ⟨hsustained, hfinal⟩ := hbalanced
    rw [assemble_of_finalDepth_eq hsustained hfinal, mapError_eq_ok_iff]
  · -- the depths of a program do not develop in this way
    have hunmade : ofInstructions instructions arity ≠ .ok p := by
      intro hmade
      obtain ⟨rfl, -⟩ := ofInstructions_eq_ok_iff.mp hmade
      exact hbalanced ⟨p.sustained, p.finalDepth_eq_one⟩
    have hunassembled : assemble instructions arity ≠ .ok p := by
      by_cases hsustained : Sustained 0 instructions
      · have hfinal : finalDepth 0 instructions ≠ 1 := fun hfinal => hbalanced ⟨hsustained, hfinal⟩
        rw [assemble_of_finalDepth_ne hsustained hfinal]
        simp
      · rw [assemble_of_not_sustained hsustained]
        simp
    exact iff_of_false hunassembled hunmade

/-! ### Sequences of calls -/

theorem obey_emitter (call : Call) (emitter : Emitter) :
    (Walker.emitter.obey call).run emitter =
      emitter.emit call.instruction >>= fun emitter => .ok ((), emitter) := by
  cases call with
  | constant value => rfl
  | parameter index name => rfl
  | operator op => cases op <;> rfl

theorem forM_obey_emitter (calls : List Call) (emitter : Emitter) :
    (forM calls Walker.emitter.obey).run emitter =
      (calls.map Call.instruction).foldlM emit emitter >>= fun emitter => .ok ((), emitter) := by
  induction calls generalizing emitter with
  | nil => rfl
  | cons call rest ih =>
    rw [List.forM_cons, StateT.run_bind, obey_emitter, List.map_cons, List.foldlM_cons, bind_assoc,
      bind_assoc]
    refine bind_congr fun emitter => ?_
    rw [ok_bind, ih]

theorem dictate_eq_assemble (calls : List Call) (arity : Nat) :
    dictate calls arity = assemble (calls.map Call.instruction) arity := by
  rw [dictate, forM_obey_emitter, assemble, bind_assoc]
  rfl

/-- Whatever calls are made to an emitter and in whatever order, one of them or the end fails
exactly if their instructions do not verify. If none fails, the emitter gives the program that is
made of the instructions, with the greatest depth that verification finds. -/
theorem dictate_agrees_with_verification (calls : List Call) (arity : Nat) :
    ((∃ broken, dictate calls arity = .error broken) ↔
        ∃ fault, ofInstructions (calls.map Call.instruction) arity = .error fault) ∧
      ∀ p, dictate calls arity = .ok p ↔
        ∃ q, ofInstructions (calls.map Call.instruction) arity = .ok q ∧
          p.instructions = q.instructions ∧ p.arity = q.arity ∧ p.maxDepth = q.maxDepth := by
  rw [dictate_eq_assemble]
  refine ⟨?_, fun p => ?_⟩
  · cases hmade : ofInstructions (calls.map Call.instruction) arity with
    | ok p => simp [assemble_eq_ok_iff.mpr hmade]
    | error fault =>
      cases hassembled : assemble (calls.map Call.instruction) arity with
      | ok p => cases hmade.symm.trans (assemble_eq_ok_iff.mp hassembled)
      | error broken => simp
  · rw [assemble_eq_ok_iff]
    constructor
    · intro hmade
      exact ⟨p, hmade, rfl, rfl, rfl⟩
    · rintro ⟨q, hmade, hinstructions, harity, -⟩
      rw [eq_of_instructions_eq hinstructions harity]
      exact hmade

-- an operator that lacks an operand is not made up for by what follows
example : dictate [.constant 1.0, .operator .add, .constant 2.0] 0 = .error .emittedUnderflow := rfl

end Emitter

end Formula
