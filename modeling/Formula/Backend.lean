/-!
# Backends

Two backends execute the same programs and give the same results. The interpreter is always there;
native code is there only in a build that contains it.

## Main definitions

- `Backend`: interpreter or native code
- `Build`: which backends a build of the library contains
- `Backend.isAvailable`: whether a build can produce functions for a backend
-/

namespace Formula

/-- What executes a compiled program. -/
inductive Backend where
  | interpreter
  | native
  deriving DecidableEq, Repr

namespace Backend

/-- The interpreter is the backend of choice where none is named. -/
instance : Inhabited Backend := ⟨.interpreter⟩

/-- The name of the backend in messages and results. -/
def name : Backend → String
  | .interpreter => "interpreter"
  | .native => "native"

/-- Finds the backend with the given name. -/
def ofName? (name : String) : Option Backend :=
  [interpreter, native].find? fun backend => backend.name == name

/-- Every backend is found again by its name. -/
theorem ofName?_name (backend : Backend) : ofName? backend.name = some backend := by
  cases backend <;> decide

theorem name_injective {backend backend' : Backend} (h : backend.name = backend'.name) :
    backend = backend' := by
  have hfound := ofName?_name backend
  rw [h, ofName?_name] at hfound
  exact (Option.some.inj hfound).symm

end Backend

/-- A build of the library: without or with native code. -/
inductive Build where
  | portable
  | native
  deriving DecidableEq, Repr

namespace Build

/-- The backends of a build, the interpreter first. -/
def backends : Build → List Backend
  | .portable => [.interpreter]
  | .native => [.interpreter, .native]

end Build

/-- Whether the build can produce functions for the backend. -/
def Backend.isAvailable (build : Build) (backend : Backend) : Bool :=
  build.backends.contains backend

/-- The interpreter is in every build. -/
theorem Backend.isAvailable_interpreter (build : Build) :
    Backend.interpreter.isAvailable build = true := by
  cases build <;> decide

end Formula
