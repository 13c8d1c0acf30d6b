import Formula.Expression

/-!
# Builders

A builder gives indices to parameter names as they are first mentioned, so that trees can be built
by name. Nodes other than parameters need no builder.

## Main definitions

- `Builder`: the names declared so far and the table of their indices
- `Builder.parameter`: the leaf of a parameter, which declares new names
- `Builder.declaring`: a builder with names declared beforehand
- `Builder.build`: the expression of a tree over the names declared so far

## Design notes

The names are kept in a list for the expressions that are built and in a table for looking up
indices. That the two agree is not part of the type: it is what the operations have to keep.
-/

namespace Formula

/-- The parameter names declared so far. -/
structure Builder where
  /-- The names in the order of their declaration. -/
  params : List String := []
  /-- The index that each name was given. -/
  indices : List (String × UInt32) := []
  deriving Repr

namespace Builder

/-- The index of a name that is declared. -/
def index? (b : Builder) (name : String) : Option UInt32 :=
  b.indices.lookup name

/-- The index for the next new name, which is its position. An index has 32 bits. -/
def nextIndex (b : Builder) : UInt32 :=
  UInt32.ofNat b.params.length

/-- Adds a new name at the end. -/
def push (b : Builder) (name : String) : Builder where
  params := b.params ++ [name]
  indices := (name, b.nextIndex) :: b.indices

/-- The leaf of the parameter with the given name, which is declared unless it is. -/
def parameter (name : String) : StateM Builder Tree := do
  let b ← get
  match b.index? name with
  | some index => return .parameter index
  | none =>
    set (b.push name)
    return .parameter b.nextIndex

/-- Declares a name that must not be declared yet. -/
def declare (b : Builder) (name : String) : Except Fault Builder :=
  match b.index? name with
  | some _ => .error (.duplicateParameter name)
  | none => .ok ((parameter name).run b).2

/-- The builder with the given names declared in their order. -/
def declaring (names : List String) : Except Fault Builder :=
  names.foldlM declare {}

/-- The expression of a tree over the names declared so far. -/
def build (b : Builder) (root : Tree) : Attempt Expression :=
  Expression.validate root b.params

end Builder

end Formula
