import Formula.Proofs.Validation

/-!
# The order of calls

A walk calls the handlers of the nodes of a tree in postorder. It stops in front of the leftmost bad
leaf, when the operators to the left of the leaf are handled and those above it are not. Which calls
are made and how the walk ends is therefore known without the handlers, and the operands of a node
that is not compiled have no part in it.

## Main definitions

- `Walker.watched`: a walker that also notes which of its handlers are called
- `Tree.nodes`: the nodes of a tree in postorder
- `Tree.call?`: the call of a node's handler
- `Tree.SameInReach`: the trees differ only in operands that no walk looks at

## Main statements

- `Tree.run_walk_watched`: what a walker is called with is the same for all walkers
- `Tree.map_some_entries_trace_of_ok`: without a bad leaf the calls are those of all nodes
- `Tree.exists_nodes_eq_append`: otherwise they are those of the nodes before the first bad one
- `Tree.walk_calls_in_postorder`: which calls every walk makes, and how it ends
-/

namespace Formula

/-! ### Watching a walker -/

section Watching

variable {m : Type → Type} {α : Type} [Monad m]

/-- Notes a call and does what is to be done. -/
def noting (call : Call) (action : m α) : StateT (List Call) m α :=
  fun calls => (·, calls ++ [call]) <$> action

theorem run_noting (call : Call) (action : m α) (calls : List Call) :
    (noting call action).run calls = (·, calls ++ [call]) <$> action := rfl

/-- The walker that notes which of its handlers are called, in order, and otherwise does the same. -/
def Walker.watched (w : Walker m α) : Walker (StateT (List Call) m) α where
  constant value := noting (.constant value) (w.constant value)
  parameter index name := noting (.parameter index name) (w.parameter index name)
  binary op left right := noting (.operator op) (w.binary op left right)
  add left right := noting (.operator .add) (w.add left right)
  subtract left right := noting (.operator .subtract) (w.subtract left right)
  multiply left right := noting (.operator .multiply) (w.multiply left right)
  divide left right := noting (.operator .divide) (w.divide left right)

theorem Walker.operator_watched (w : Walker m α) (op : Operator) (left right : α) :
    w.watched.operator op left right = noting (.operator op) (w.operator op left right) := by
  cases op <;> rfl

variable [LawfulMonad m]

theorem run_liftM_noting (call : Call) (action : m α) (calls : List Call) :
    (liftM (noting call action) : ExceptT Fault (StateT (List Call) m) α).run.run calls =
      (fun outcome => (outcome, calls ++ [call])) <$>
        (liftM action : ExceptT Fault m α).run := by
  change (Except.ok <$> noting call action : StateT (List Call) m (Except Fault α)).run calls =
    _ <$> Except.ok <$> action
  rw [StateT.run_map, Functor.map_map]
  exact Functor.map_map _ _ _

theorem run_throw_append_nil (fault : Fault) (calls : List Call) :
    (throw fault : ExceptT Fault (StateT (List Call) m) α).run.run calls =
      (fun outcome => (outcome, calls ++ [])) <$> (throw fault : ExceptT Fault m α).run := by
  change pure (Except.error fault, calls) = _ <$> pure (Except.error fault)
  rw [map_pure, List.append_nil]

end Watching

namespace Tree

section Watched

variable {m : Type → Type} {α : Type} [Monad m] [LawfulMonad m] {names : List String}

/-- The calls that are noted are those of the recorded walk, whatever the handlers do. -/
theorem run_walk_watched (w : Walker m α) : ∀ (tree : Tree) (calls : List Call),
    (tree.walk w.watched names).run.run calls =
      (fun outcome => (outcome, calls ++ (tree.trace names).entries)) <$> (tree.walk w names).run
  | .constant value, calls => run_liftM_noting (.constant value) (w.constant value) calls
  | .parameter index, calls => by
    by_cases hindex : index.toNat < names.length
    · rw [trace_parameter_of_lt hindex, walk_parameter_of_lt _ hindex,
        walk_parameter_of_lt _ hindex]
      exact run_liftM_noting (.parameter index _) (w.parameter index _) calls
    · have hle := Nat.le_of_not_lt hindex
      rw [trace_parameter_of_le hle, walk_parameter_of_le _ hle, walk_parameter_of_le _ hle]
      exact run_throw_append_nil _ calls
  | .binary op left right, calls => by
    have hleft := run_walk_watched w left calls
    have hright := run_walk_watched w right (calls ++ (left.trace names).entries)
    rw [run_walk_binary, run_walk_binary, StateT.run_bind, hleft]
    -- an operand ends the walk for every walker or for none
    cases htrace : (left.trace names).value with
    | error fault =>
      obtain ⟨results, hwalk, -⟩ := exists_replay_of_trace_error w htrace
      rw [hwalk, entries_trace_binary_of_left_error op right htrace]
      simp
    | ok =>
      obtain ⟨l, hl, -⟩ := exists_replay_of_trace_ok w htrace
      rw [hl]
      cases htrace' : (right.trace names).value with
      | error fault =>
        obtain ⟨results, hwalk, -⟩ := exists_replay_of_trace_error w htrace'
        rw [hwalk] at hright
        rw [entries_trace_binary_of_right_error op htrace htrace', hwalk]
        simp [hright]
      | ok =>
        obtain ⟨r, hr, -⟩ := exists_replay_of_trace_ok w htrace'
        rw [hr] at hright
        rw [entries_trace_binary_of_ok op htrace htrace', hr]
        simp [hright, Walker.operator_watched, run_noting]
  | .other kind operands, calls => run_throw_append_nil _ calls

/-- Walkers with a state meet a fault exactly if the recorded walk does. -/
theorem walk_state_eq_error_iff {σ : Type} (w : Walker (StateM σ) α) (tree : Tree) (state : σ)
    (fault : Fault) :
    ((tree.walk w names).run.run state).1 = .error fault ↔
      (tree.trace names).value = .error fault := by
  cases htrace : (tree.trace names).value with
  | error other =>
    obtain ⟨results, hwalk, -⟩ := exists_replay_of_trace_error w htrace
    rw [hwalk]
    change Except.error other = Except.error fault ↔ _
    simp
  | ok =>
    obtain ⟨result, hwalk, -⟩ := exists_replay_of_trace_ok w htrace
    rw [hwalk]
    change Except.ok _ = Except.error fault ↔ _
    simp

end Watched

/-! ### Nodes and their calls -/

/-- The nodes of a tree in postorder. The operands of a node that is not compiled are not among
them. -/
def nodes : Tree → List Tree
  | .binary op left right => left.nodes ++ right.nodes ++ [.binary op left right]
  | leaf => [leaf]

/-- The call of a node's handler, if it has one. -/
def call? (names : List String) : Tree → Option Call
  | .constant value => some (.constant value)
  | .parameter index => names[index.toNat]?.map (.parameter index)
  | .binary op _ _ => some (.operator op)
  | .other _ _ => none

/-- The node is no operator. -/
def isLeaf (tree : Tree) : Bool :=
  tree.binary?.isNone

variable {names : List String} {tree leaf : Tree} {fault : Fault}

theorem leaves_eq_filter : ∀ tree : Tree, tree.leaves = tree.nodes.filter isLeaf
  | .constant value => rfl
  | .parameter index => rfl
  | .binary op left right => by
    have hleft := leaves_eq_filter left
    have hright := leaves_eq_filter right
    simp [leaves, nodes, hleft, hright, isLeaf, binary?]
  | .other kind operands => rfl

theorem isLeaf_of_objection? {count : Nat} (h : leaf.objection? count ≠ none) :
    leaf.isLeaf = true := by
  cases leaf with
  | binary op left right => exact absurd rfl h
  | _ => rfl

theorem objection?_eq_none_of_mem_nodes (h : (tree.trace names).value = .ok ()) :
    ∀ node ∈ tree.nodes, node.objection? names.length = none := by
  intro node hnode
  by_contra hbad
  have hleaf : node ∈ tree.leaves := by
    rw [leaves_eq_filter]
    exact List.mem_filter.mpr ⟨hnode, isLeaf_of_objection? hbad⟩
  exact hbad (value_trace_eq_ok_iff.mp h node hleaf)

/-- A walk that meets no fault calls the handler of every node. -/
theorem map_some_entries_trace_of_ok : ∀ {tree : Tree}, (tree.trace names).value = .ok () →
    (tree.trace names).entries.map some = tree.nodes.map (call? names)
  | .constant value, _ => rfl
  | .parameter index, h => by
    have hindex := value_trace_parameter_eq_ok_iff.mp h
    rw [trace_parameter_of_lt hindex]
    change [some (Call.parameter index names[index.toNat])] =
      [names[index.toNat]?.map (Call.parameter index)]
    rw [List.getElem?_eq_getElem hindex]
    rfl
  | .binary op left right, h => by
    obtain ⟨hleft, hright⟩ := value_trace_binary_eq_ok_iff.mp h
    have ihl := map_some_entries_trace_of_ok hleft
    have ihr := map_some_entries_trace_of_ok hright
    rw [entries_trace_binary_of_ok op hleft hright, nodes]
    simp [ihl, ihr, call?]
  | .other kind operands, h => by cases h

/-- A walk that meets a fault calls the handlers of the nodes before the first bad one. -/
theorem exists_nodes_eq_append : ∀ {tree : Tree}, (tree.trace names).value = .error fault →
    ∃ before leaf after, tree.nodes = before ++ leaf :: after ∧
      (∀ node ∈ before, node.objection? names.length = none) ∧
      leaf.objection? names.length = some fault ∧
      (tree.trace names).entries.map some = before.map (call? names)
  | .constant value, h => by cases h
  | .parameter index, h => by
    obtain ⟨hle, rfl⟩ := value_trace_parameter_eq_error_iff.mp h
    rw [trace_parameter_of_le hle]
    exact ⟨[], _, [], rfl, by simp, if_neg (Nat.not_lt_of_le hle), rfl⟩
  | .binary op left right, h => by
    rcases value_trace_binary_eq_error_iff.mp h with hleft | ⟨hleft, hright⟩
    · obtain ⟨before, leaf, after, hnodes, hbefore, hleaf, hcalls⟩ := exists_nodes_eq_append hleft
      refine ⟨before, leaf, after ++ right.nodes ++ [.binary op left right], ?_, hbefore, hleaf, ?_⟩
      · simp [nodes, hnodes]
      · rw [entries_trace_binary_of_left_error op right hleft, hcalls]
    · obtain ⟨before, leaf, after, hnodes, hbefore, hleaf, hcalls⟩ := exists_nodes_eq_append hright
      -- the nodes of the left operand are all handled, the operator is not
      refine ⟨left.nodes ++ before, leaf, after ++ [.binary op left right], ?_, ?_, hleaf, ?_⟩
      · simp [nodes, hnodes]
      · exact List.forall_mem_append.mpr ⟨objection?_eq_none_of_mem_nodes hleft, hbefore⟩
      · rw [entries_trace_binary_of_right_error op hleft hright, List.map_append,
          map_some_entries_trace_of_ok hleft, hcalls, List.map_append]
  | .other kind operands, h => by
    cases h
    exact ⟨[], _, [], rfl, by simp, rfl, rfl⟩

/-! ### Operands out of reach -/

/-- The trees differ at most in the operands of nodes that are not compiled. -/
inductive SameInReach : Tree → Tree → Prop
  | constant (value : Float) : SameInReach (.constant value) (.constant value)
  | parameter (index : UInt32) : SameInReach (.parameter index) (.parameter index)
  | binary (op : Operator) {left left' right right' : Tree} :
    SameInReach left left' → SameInReach right right' →
      SameInReach (.binary op left right) (.binary op left' right')
  | other (kind : String) (operands operands' : List Tree) :
    SameInReach (.other kind operands) (.other kind operands')

theorem SameInReach.walk_eq {m : Type → Type} {α : Type} [Monad m] {tree' : Tree}
    (h : tree.SameInReach tree') (w : Walker m α) (names : List String) :
    tree'.walk w names = tree.walk w names := by
  induction h with
  | constant value => rfl
  | parameter index => rfl
  | binary op _ _ ihl ihr => rw [walk_binary, walk_binary, ihl, ihr]
  | other kind operands operands' => rfl

/-- Every walk makes the same calls, whatever the handlers do: those of all nodes in postorder if
there is no objection to a leaf, and otherwise those of the nodes in front of the leftmost bad leaf,
with the objection to that leaf as the outcome. So one walk fails as any other does, and nothing
changes if nodes that are not compiled get other operands. -/
theorem walk_calls_in_postorder (names : List String) (tree : Tree) :
    ∃ calls : List Call,
      (∀ (m : Type → Type) [Monad m] [LawfulMonad m] (α : Type) (w : Walker m α),
        (tree.walk w.watched names).run.run [] =
          (fun outcome => (outcome, calls)) <$> (tree.walk w names).run) ∧
      ((∀ leaf ∈ tree.leaves, leaf.objection? names.length = none) →
        calls.map some = tree.nodes.map (call? names) ∧
        ∀ (m : Type → Type) [Monad m] [LawfulMonad m] (α : Type) (w : Walker m α),
          ∃ result : m α, (tree.walk w names).run = Except.ok <$> result) ∧
      ((∃ leaf ∈ tree.leaves, leaf.objection? names.length ≠ none) →
        ∃ before leaf after fault, tree.nodes = before ++ leaf :: after ∧
          tree.leaves = before.filter isLeaf ++ leaf :: after.filter isLeaf ∧
          (∀ node ∈ before, node.objection? names.length = none) ∧
          leaf.objection? names.length = some fault ∧
          calls.map some = before.map (call? names) ∧
          ∀ (m : Type → Type) [Monad m] [LawfulMonad m] (α : Type) (w : Walker m α),
            ∃ effects : m Unit, (tree.walk w names).run = (fun _ => .error fault) <$> effects) ∧
      (∀ (σ τ α β : Type) (w : Walker (StateM σ) α) (w' : Walker (StateM τ) β) (s : σ) (t : τ)
        (fault : Fault), ((tree.walk w names).run.run s).1 = .error fault ↔
          ((tree.walk w' names).run.run t).1 = .error fault) ∧
      ∀ tree', tree.SameInReach tree' → ∀ (m : Type → Type) [Monad m] (α : Type) (w : Walker m α),
        tree'.walk w names = tree.walk w names := by
  refine ⟨(tree.trace names).entries, fun m _ _ α w => run_walk_watched w tree [],
    fun hleaves => ?_, fun hbad => ?_, fun σ τ α β w w' s t fault => ?_,
    fun tree' h m _ α w => h.walk_eq w names⟩
  · have htrace := value_trace_eq_ok_iff.mpr hleaves
    refine ⟨map_some_entries_trace_of_ok htrace, fun m _ _ α w => ?_⟩
    obtain ⟨result, hwalk, -⟩ := exists_replay_of_trace_ok w htrace
    exact ⟨result, hwalk⟩
  · cases htrace : (tree.trace names).value with
    | ok =>
      obtain ⟨leaf, hleaf, hobjection⟩ := hbad
      exact absurd (value_trace_eq_ok_iff.mp htrace leaf hleaf) hobjection
    | error fault =>
      obtain ⟨before, leaf, after, hnodes, hbefore, hobjection, hcalls⟩ :=
        exists_nodes_eq_append htrace
      have hleaf : leaf.isLeaf = true := isLeaf_of_objection? (by rw [hobjection]; simp)
      refine ⟨before, leaf, after, fault, hnodes, ?_, hbefore, hobjection, hcalls,
        fun m _ _ α w => ?_⟩
      · rw [leaves_eq_filter, hnodes, List.filter_append, List.filter_cons_of_pos hleaf]
      · obtain ⟨results, hwalk, -⟩ := exists_replay_of_trace_error w htrace
        refine ⟨(fun _ => ()) <$> results, ?_⟩
        rw [hwalk, Functor.map_map]
  · rw [walk_state_eq_error_iff, walk_state_eq_error_iff]

/-- A product on the left of a bad leaf is handled, the difference above the leaf is not, and the
operand below it makes no difference. A tree without a bad leaf is rendered from all of its nodes. -/
theorem negation_calls_in_postorder :
    let product : Tree := .binary .multiply (.parameter 0) (.parameter 0)
    let bad (operand : Tree) : Tree :=
      .binary .add (.binary .subtract product (.other "negate" [operand])) (.parameter 9)
    (((bad (.parameter 7)).walk Walker.renderer.watched ["x"]).run.run [] : Id _) =
        (.error (.unsupportedNodeKind "negate"),
          [.parameter 0 "x", .parameter 0 "x", .operator .multiply]) ∧
      (bad (.parameter 0)).walk Walker.renderer ["x"] =
        (bad (.parameter 7)).walk Walker.renderer ["x"] ∧
      ∃ text, ((product.walk Walker.renderer.watched ["x"]).run.run [] : Id _) =
        (.ok text, [.parameter 0 "x", .parameter 0 "x", .operator .multiply]) := by
  intro product bad
  obtain ⟨calls, hwatched, -, hbad, -, hsame⟩ :=
    walk_calls_in_postorder ["x"] (bad (.parameter 7))
  obtain ⟨calls', hwatched', hgood, -⟩ := walk_calls_in_postorder ["x"] product
  obtain ⟨before, leaf, after, fault, hnodes, -, hbefore, hleaf, hcalls, hends⟩ :=
    hbad ⟨.other "negate" [.parameter 7], by simp [bad, product, leaves], by simp [objection?]⟩
  obtain ⟨hall, hsucceeds⟩ := hgood (by simp [product, leaves, objection?])
  have hfirst : before = (bad (.parameter 7)).nodes.takeWhile
      fun node => (node.objection? ["x"].length).isNone := by
    rw [hnodes, List.takeWhile_append_of_pos fun node hnode => by rw [hbefore node hnode]; rfl,
      List.takeWhile_cons_of_neg (by rw [hleaf]; simp), List.append_nil]
  obtain rfl : before = [.parameter 0, .parameter 0, product] := hfirst
  have hrest : (bad (.parameter 7)).nodes.drop 3 = leaf :: after := by rw [hnodes]; rfl
  obtain ⟨rfl, -⟩ := List.cons.inj hrest
  obtain rfl := Option.some_inj.mp hleaf
  have hmade : calls = [.parameter 0 "x", .parameter 0 "x", .operator .multiply] :=
    List.map_injective_iff.mpr (fun _ _ => Option.some.inj) hcalls
  have hmade' : calls' = [.parameter 0 "x", .parameter 0 "x", .operator .multiply] :=
    List.map_injective_iff.mpr (fun _ _ => Option.some.inj) hall
  obtain ⟨effects, hrefused⟩ := hends Id String Walker.renderer
  obtain ⟨text, hrendered⟩ := hsucceeds Id String Walker.renderer
  refine ⟨?_, hsame _ (.binary .add (.binary .subtract ?_ (.other ..)) (.parameter 9)) _ _ _, text,
    ?_⟩
  · rw [hwatched Id String, hrefused, hmade]
    rfl
  · exact .binary .multiply (.parameter 0) (.parameter 0)
  · rw [hwatched' Id String, hrendered, hmade']
    rfl

end Tree

end Formula
