import Formula.Event
import Formula.Rendering

/-!
# Expressions

An expression is a tree together with the names of its parameters, in the order of its arguments.

## Main definitions

- `firstRepeat?`: the first name that a list repeats
- `Expression`: a tree that is an expression of the named parameters
- `Expression.ofTree`: makes an expression of a tree, or says why it is none
- `Expression.evaluate`: the value of an expression
- `Expression.render`: its rendering

## Main statements

- `firstRepeat?_eq_none_iff`: a list repeats no name exactly if its names are distinct
- `Expression.ofTree_eq_ok_iff`: which expression is made of which tree and names
-/

namespace Formula

/-- The first of the names that is among `seen` or earlier in the list. -/
def firstRepeatAfter? (seen : List String) : List String → Option String
  | [] => none
  | name :: names => if name ∈ seen then some name else firstRepeatAfter? (name :: seen) names

/-- The name whose second occurrence in the list comes first. -/
def firstRepeat? (names : List String) : Option String :=
  firstRepeatAfter? [] names

theorem firstRepeatAfter?_eq_none_iff {seen names : List String} :
    firstRepeatAfter? seen names = none ↔ names.Nodup ∧ ∀ name ∈ names, name ∉ seen := by
  induction names generalizing seen with
  | nil => simp [firstRepeatAfter?]
  | cons name names ih =>
    by_cases h : name ∈ seen
    · simp [firstRepeatAfter?, h]
    · simp only [firstRepeatAfter?, h, if_false, ih, List.nodup_cons, List.mem_cons]
      grind

theorem firstRepeat?_eq_none_iff {names : List String} :
    firstRepeat? names = none ↔ names.Nodup := by
  simp [firstRepeat?, firstRepeatAfter?_eq_none_iff]

/-- A tree that is an expression of the parameters with the given names. -/
structure Expression where
  root : Tree
  /-- The names of the parameters, in the order of the arguments. -/
  params : List String
  /-- No two parameters have the same name. -/
  distinct : params.Nodup
  /-- Every leaf is a constant or one of the parameters. -/
  checked : root.check params = .ok ()

namespace Expression

/-- The number of parameters, used or not. -/
def arity (e : Expression) : Nat :=
  e.params.length

/-- Makes an expression of a tree. A repeated name is found before the tree is looked at. -/
def ofTree (root : Tree) (params : List String) : Except Fault Expression :=
  match distinct : firstRepeat? params with
  | some name => .error (.duplicateParameter name)
  | none =>
    match checked : root.check params with
    | .error fault => .error fault
    | .ok () => .ok { root, params, distinct := firstRepeat?_eq_none_iff.mp distinct, checked }

/-- An expression is made of its own tree and parameters and of no others. -/
theorem ofTree_eq_ok_iff {root : Tree} {params : List String} {e : Expression} :
    ofTree root params = .ok e ↔ e.root = root ∧ e.params = params := by
  constructor
  · intro h
    unfold ofTree at h
    split at h
    · cases h
    · split at h
      · cases h
      · cases h
        exact ⟨rfl, rfl⟩
  · rintro ⟨rfl, rfl⟩
    have distinct := firstRepeat?_eq_none_iff.mpr e.distinct
    have checked := e.checked
    unfold ofTree
    split
    · simp_all
    · split
      · simp_all
      · rfl

theorem exists_ofTree {root : Tree} {params : List String} (hdistinct : params.Nodup)
    (hcheck : root.check params = .ok ()) : ∃ e, ofTree root params = .ok e :=
  ⟨⟨root, params, hdistinct, hcheck⟩, ofTree_eq_ok_iff.mpr ⟨rfl, rfl⟩⟩

/-- Makes an expression of a tree and reports it. -/
def validate (root : Tree) (params : List String) : Attempt Expression := do
  let e ← liftM (ofTree root params)
  report (.validated e.arity e.root.depth)
  return e

/-- The rendering of the tree. -/
def render (e : Expression) : Except Fault String :=
  e.root.render e.params

section Evaluation

variable [Arithmetic]

/-- Computes the value of a tree for the given arguments. -/
def evaluator (args : List Float) : Walker (Except Breach) Float where
  constant value := return value
  parameter index _ :=
    match args[index.toNat]? with
    | some value => return value
    | none => throw (.missingArgument index)
  binary op left right := return op.apply left right

/-- The value of the expression for one argument per parameter. -/
def evaluate (e : Expression) (args : List Float) : Except Failure Float := do
  requireArity e.arity args.length
  Failure.settle (e.root.walk (evaluator args) e.params).run

end Evaluation

end Expression

end Formula
