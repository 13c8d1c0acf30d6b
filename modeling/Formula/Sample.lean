import Formula.Builder

/-!
# Sample expressions

A few expressions with arguments to try them on.

## Main definitions

- `Sample`: an expression with its name, its usual notation and default arguments
- `Sample.all`, `Sample.find?`: the samples
- `Sample.expression`: the expression of a sample
-/

namespace Formula

namespace Tree

instance : Add Tree := ⟨binary .add⟩
instance : Sub Tree := ⟨binary .subtract⟩
instance : Mul Tree := ⟨binary .multiply⟩
instance : Div Tree := ⟨binary .divide⟩

end Tree

/-- A named expression. -/
structure Sample where
  name : String
  /-- The expression in its usual notation. -/
  notated : String
  /-- The names of the parameters, in the order of the arguments. -/
  params : List String
  defaultArgs : List Float
  /-- Builds the tree. -/
  tree : StateM Builder Tree

namespace Sample

/-- An expression that uses every operator. -/
def canonical : Sample where
  name := "canonical"
  notated := "a + b - c * d / 2 + e * 3"
  params := ["a", "b", "c", "d", "e"]
  defaultArgs := [1, 2, 3, 4, 5]
  tree := do
    let a ← Builder.parameter "a"
    let b ← Builder.parameter "b"
    let c ← Builder.parameter "c"
    let d ← Builder.parameter "d"
    let e ← Builder.parameter "e"
    return a + b - c * d / .constant 2 + e * .constant 3

/-- A polynomial, whose variable is the last parameter. -/
def quadratic : Sample where
  name := "quadratic"
  notated := "a * x * x + b * x + c"
  params := ["a", "b", "c", "x"]
  defaultArgs := [1, -3, 2, 4]
  tree := do
    let a ← Builder.parameter "a"
    let b ← Builder.parameter "b"
    let c ← Builder.parameter "c"
    let x ← Builder.parameter "x"
    return a * x * x + b * x + c

/-- A quotient, by default one with a divisor of zero. -/
def division : Sample where
  name := "division"
  notated := "a / b"
  params := ["a", "b"]
  defaultArgs := [1, 0]
  tree := do
    let a ← Builder.parameter "a"
    let b ← Builder.parameter "b"
    return a / b

/-- The samples in the order in which they are listed. -/
def all : List Sample :=
  [canonical, quadratic, division]

/-- The sample with the given name. -/
def find? (name : String) : Option Sample :=
  all.find? fun sample => sample.name == name

/-- The expression of a sample. -/
def expression (sample : Sample) : Attempt Expression := do
  let builder ← liftM (Builder.declaring sample.params)
  let (root, builder) := sample.tree.run builder
  builder.build root

end Sample

end Formula
