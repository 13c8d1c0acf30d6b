import Formula.Trace

/-!
# Replaying the calls of a walk

The calls of a walk are all that its handlers learn of the tree. If they are made again on a stack
of results, each operator finds the results of its own operands on top, so that every handler is
called with what it was called with by the walk.

## Main definitions

- `Walker.answer`: what a call makes of a stack of results
- `Walker.replay`: what a list of calls makes of it

## Main statements

- `Tree.exists_replay_of_trace_ok`, `Tree.exists_replay_of_trace_error`: on top of any stack, the
  calls of a walk do what the walk does, whatever the effects of the handlers
- `Tree.walk_eq_replay`: for handlers with a state, the walk and the replay of its calls agree

## Design notes

The operands of an operator are any trees, so the replay of their calls has to be known on stacks
that are not empty. The statements are therefore about all stacks.
-/

namespace Formula

/-! ### Replay -/

namespace Walker

section Definitions

variable {m : Type → Type} {α : Type} [Monad m]

/-- Makes a call on a stack of results, the top first, and puts its result on top. The results that
the handler of an operator needs are taken off, the right one first; it is no call without them. -/
def answer (w : Walker m α) (stack : List α) : Call → OptionT m (List α)
  | .constant value => return (← w.constant value) :: stack
  | .parameter index name => return (← w.parameter index name) :: stack
  | .operator op =>
    match stack with
    | right :: left :: rest =>
      match op with
      | .add => return (← w.add left right) :: rest
      | .subtract => return (← w.subtract left right) :: rest
      | .multiply => return (← w.multiply left right) :: rest
      | .divide => return (← w.divide left right) :: rest
    | _ => failure

/-- Makes the calls one after the other. -/
def replay (w : Walker m α) (stack : List α) (calls : List Call) : OptionT m (List α) :=
  calls.foldlM w.answer stack

end Definitions

variable {m : Type → Type} {α : Type} [Monad m] [LawfulMonad m] (w : Walker m α)

theorem replay_append (stack : List α) (first second : List Call) :
    w.replay stack (first ++ second) =
      w.replay stack first >>= fun stack => w.replay stack second :=
  List.foldlM_append

theorem run_return_cons (result : m α) (stack : List α) :
    (do return (← result) :: stack : OptionT m (List α)).run =
      (fun a => some (a :: stack)) <$> result := by
  change (result >>= fun a => pure (some a)) >>= _ = _
  rw [bind_assoc, map_eq_pure_bind]
  refine bind_congr fun a => ?_
  rw [pure_bind]
  rfl

theorem replay_singleton (stack : List α) (call : Call) :
    w.replay stack [call] = w.answer stack call := by
  simp [replay]

theorem run_replay_constant (stack : List α) (value : Float) :
    (w.replay stack [.constant value]).run =
      (fun a => some (a :: stack)) <$> w.constant value := by
  rw [replay_singleton]
  exact run_return_cons (w.constant value) stack

theorem run_replay_parameter (stack : List α) (index : UInt32) (name : String) :
    (w.replay stack [.parameter index name]).run =
      (fun a => some (a :: stack)) <$> w.parameter index name := by
  rw [replay_singleton]
  exact run_return_cons (w.parameter index name) stack

theorem run_replay_operator (stack : List α) (op : Operator) (left right : α) :
    (w.replay (right :: left :: stack) [.operator op]).run =
      (fun a => some (a :: stack)) <$> w.operator op left right := by
  rw [replay_singleton]
  cases op <;> exact run_return_cons _ stack

end Walker

namespace Tree

/-! ### The walk of an operator -/

/-- The walk of an operator goes on after each operand that meets no fault. -/
theorem run_walk_binary {m : Type → Type} {α : Type} [Monad m] (w : Walker m α)
    (names : List String) (op : Operator) (left right : Tree) :
    ((binary op left right).walk w names).run =
      ((left.walk w names).run >>= fun
        | .ok l => (right.walk w names).run >>= fun
          | .ok r => Except.ok <$> w.operator op l r
          | .error fault => pure (.error fault)
        | .error fault => pure (.error fault)) := by
  rw [walk_binary, ExceptT.run_bind]
  refine bind_congr fun outcome => ?_
  cases outcome with
  | error fault => rfl
  | ok l =>
    change (right.walk w names >>= fun r => liftM (w.operator op l r)).run = _
    rw [ExceptT.run_bind]
    refine bind_congr fun outcome => ?_
    cases outcome <;> rfl

variable {names : List String} {left right : Tree} {fault : Fault}

theorem value_trace_binary (op : Operator) (left right : Tree) :
    ((binary op left right).trace names).value =
      (left.trace names).value >>= fun _ => (right.trace names).value := by
  unfold trace
  rw [run_walk_binary, Logged.value_bind]
  cases (left.walk Walker.recorder names).run.value with
  | error fault => rfl
  | ok =>
    change Logged.value (_ >>= _) = _
    rw [Logged.value_bind]
    cases (right.walk Walker.recorder names).run.value <;> rfl

theorem entries_trace_binary_of_left_error (op : Operator) (right : Tree)
    (hleft : (left.trace names).value = .error fault) :
    ((binary op left right).trace names).entries = (left.trace names).entries := by
  unfold trace at *
  rw [run_walk_binary, Logged.entries_bind, hleft]
  exact List.append_nil _

theorem entries_trace_binary_of_right_error (op : Operator)
    (hleft : (left.trace names).value = .ok ())
    (hright : (right.trace names).value = .error fault) :
    ((binary op left right).trace names).entries =
      (left.trace names).entries ++ (right.trace names).entries := by
  unfold trace at *
  rw [run_walk_binary, Logged.entries_bind, hleft]
  change _ ++ Logged.entries (_ >>= _) = _
  rw [Logged.entries_bind, hright]
  exact congrArg (_ ++ ·) (List.append_nil _)

theorem entries_trace_binary_of_ok (op : Operator) (hleft : (left.trace names).value = .ok ())
    (hright : (right.trace names).value = .ok ()) :
    ((binary op left right).trace names).entries =
      (left.trace names).entries ++ (right.trace names).entries ++ [.operator op] := by
  unfold trace at *
  rw [run_walk_binary, Logged.entries_bind, hleft]
  change _ ++ Logged.entries (_ >>= _) = _
  rw [Logged.entries_bind, hright, List.append_assoc]
  cases op <;> rfl

theorem value_trace_binary_eq_ok_iff {op : Operator} :
    ((binary op left right).trace names).value = .ok () ↔
      (left.trace names).value = .ok () ∧ (right.trace names).value = .ok () := by
  rw [value_trace_binary]
  cases (left.trace names).value with
  | error fault => exact iff_of_false nofun nofun
  | ok => exact (and_iff_right rfl).symm

theorem value_trace_binary_eq_error_iff {op : Operator} :
    ((binary op left right).trace names).value = .error fault ↔
      (left.trace names).value = .error fault ∨
        (left.trace names).value = .ok () ∧ (right.trace names).value = .error fault := by
  rw [value_trace_binary]
  cases (left.trace names).value with
  | error other => exact ⟨.inl, fun h => h.resolve_right nofun⟩
  | ok => exact ⟨fun h => .inr ⟨rfl, h⟩, fun h => (h.resolve_left nofun).2⟩

/-! ### The walk of a parameter -/

theorem trace_parameter_of_lt {index : UInt32} (h : index.toNat < names.length) :
    (parameter index).trace names = ⟨.ok (), [.parameter index names[index.toNat]]⟩ := by
  rw [trace, walk_parameter_of_lt _ h]
  rfl

theorem trace_parameter_of_le {index : UInt32} (h : names.length ≤ index.toNat) :
    (parameter index).trace names = ⟨.error (.invalidParameterIndex index names.length), []⟩ := by
  rw [trace, walk_parameter_of_le _ h]
  rfl

theorem value_trace_parameter_eq_ok_iff {index : UInt32} :
    ((parameter index).trace names).value = .ok () ↔ index.toNat < names.length := by
  by_cases hindex : index.toNat < names.length
  · simp [trace_parameter_of_lt hindex, hindex]
  · simp [trace_parameter_of_le (Nat.le_of_not_lt hindex), hindex]

theorem value_trace_parameter_eq_error_iff {index : UInt32} :
    ((parameter index).trace names).value = .error fault ↔
      names.length ≤ index.toNat ∧ fault = .invalidParameterIndex index names.length := by
  by_cases hindex : index.toNat < names.length
  · rw [trace_parameter_of_lt hindex]
    exact iff_of_false nofun fun h => Nat.not_le_of_lt hindex h.1
  · have hle := Nat.le_of_not_lt hindex
    simp [trace_parameter_of_le hle, hle, eq_comm]

/-! ### Walks and replays -/

section Replay

variable {m : Type → Type} {α : Type} [Monad m] [LawfulMonad m] (w : Walker m α)

/-- A walk that meets no fault gives the result that the replay of its calls puts on top. -/
theorem exists_replay_of_trace_ok : ∀ {tree : Tree}, (tree.trace names).value = .ok () →
    ∃ result : m α, (tree.walk w names).run = Except.ok <$> result ∧
      ∀ stack, (w.replay stack (tree.trace names).entries).run =
        (fun a => some (a :: stack)) <$> result
  | .constant value, _ =>
    ⟨w.constant value, rfl, fun stack => w.run_replay_constant stack value⟩
  | .parameter index, h => by
    have hindex := value_trace_parameter_eq_ok_iff.mp h
    refine ⟨w.parameter index names[index.toNat], ?_, fun stack => ?_⟩
    · rw [walk_parameter_of_lt w hindex]
      rfl
    · rw [trace_parameter_of_lt hindex]
      exact w.run_replay_parameter stack index names[index.toNat]
  | .binary op left right, h => by
    obtain ⟨hleft, hright⟩ := value_trace_binary_eq_ok_iff.mp h
    obtain ⟨l, hl, hlreplay⟩ := exists_replay_of_trace_ok hleft
    obtain ⟨r, hr, hrreplay⟩ := exists_replay_of_trace_ok hright
    refine ⟨l >>= fun a => r >>= fun b => w.operator op a b, ?_, fun stack => ?_⟩
    · rw [run_walk_binary, hl, hr]
      simp
    · -- the result of the left operand lies below the right operand's while that is computed
      rw [entries_trace_binary_of_ok op hleft hright, w.replay_append, w.replay_append]
      simp [hlreplay, hrreplay, w.run_replay_operator, Option.elimM]
  | .other kind operands, h => by cases h

/-- A walk that meets a fault has the effects of the calls before it, which leave some results. -/
theorem exists_replay_of_trace_error :
    ∀ {tree : Tree}, (tree.trace names).value = .error fault →
      ∃ results : m (List α), (tree.walk w names).run = (fun _ => .error fault) <$> results ∧
        ∀ stack, (w.replay stack (tree.trace names).entries).run =
          (fun top => some (top ++ stack)) <$> results
  | .constant value, h => by cases h
  | .parameter index, h => by
    obtain ⟨hle, rfl⟩ := value_trace_parameter_eq_error_iff.mp h
    refine ⟨pure [], ?_, fun stack => ?_⟩
    · rw [walk_parameter_of_le w hle, map_pure]
      rfl
    · rw [trace_parameter_of_le hle, map_pure]
      rfl
  | .binary op left right, h => by
    rcases value_trace_binary_eq_error_iff.mp h with hleft | ⟨hleft, hright⟩
    · obtain ⟨results, hwalk, hreplay⟩ := exists_replay_of_trace_error hleft
      refine ⟨results, ?_, fun stack => ?_⟩
      · rw [run_walk_binary, hwalk]
        simp
      · rw [entries_trace_binary_of_left_error op right hleft, hreplay]
    · obtain ⟨l, hl, hlreplay⟩ := exists_replay_of_trace_ok w hleft
      obtain ⟨results, hwalk, hreplay⟩ := exists_replay_of_trace_error hright
      -- what is left of the right operand lies on top of the left operand's result
      refine ⟨l >>= fun a => (· ++ [a]) <$> results, ?_, fun stack => ?_⟩
      · rw [run_walk_binary, hl, hwalk]
        simp
      · rw [entries_trace_binary_of_right_error op hleft hright, w.replay_append]
        simp [hlreplay, hreplay, Option.elimM]
  | .other kind operands, h => by
    cases h
    refine ⟨pure [], ?_, fun stack => ?_⟩
    · rw [walk_other, map_pure]
      rfl
    · rw [trace, walk_other, map_pure]
      rfl

end Replay

/-- Handlers that share a state leave it as the replay of the recorded calls on an empty stack
does, after which the stack holds the result of the walk and nothing else. No call of the replay
lacks a result, and the walk meets the fault with which the record ends. -/
theorem walk_eq_replay {σ α : Type} (w : Walker (StateM σ) α) (names : List String) (tree : Tree)
    (state : σ) :
    let trace := tree.trace names
    let (outcome, final) := (tree.walk w names).run.run state
    let (stack, replayed) := (w.replay [] trace.entries).run.run state
    final = replayed ∧ stack.isSome ∧
      (∀ result, outcome = .ok result ↔ trace.value = .ok () ∧ stack = some [result]) ∧
      ∀ fault, outcome = .error fault ↔ trace.value = .error fault := by
  intro trace
  cases htrace : trace.value with
  | ok =>
    obtain ⟨result, hwalk, hreplay⟩ := exists_replay_of_trace_ok w htrace
    rw [hwalk, hreplay]
    refine ⟨rfl, rfl, fun a => ?_, fun fault => ?_⟩
    · change Except.ok _ = Except.ok a ↔ _ ∧ some [_] = some [a]
      simp
    · simp
  | error fault =>
    obtain ⟨results, hwalk, hreplay⟩ := exists_replay_of_trace_error w htrace
    rw [hwalk, hreplay]
    refine ⟨rfl, rfl, fun a => ?_, fun other => ?_⟩
    · change Except.error fault = Except.ok a ↔ _
      simp
    · change Except.error fault = Except.error other ↔ _
      simp

end Tree

end Formula
