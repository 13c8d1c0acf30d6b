/-!
# Results with a log

A computation that leaves a list of entries beside its result, in the order in which they were
made.

## Main definitions

- `Logged`: a value together with the entries made on the way to it
- `Logged.record`: makes one entry
-/

namespace Formula

/-- A value of type `α` and the entries of type `ε` made on the way to it. -/
structure Logged (ε α : Type) where
  value : α
  entries : List ε := []
  deriving Repr

namespace Logged

variable {ε α β : Type}

/-- Makes one entry. -/
def record (entry : ε) : Logged ε Unit := ⟨(), [entry]⟩

instance : Monad (Logged ε) where
  pure value := { value }
  bind x f := ⟨(f x.value).value, x.entries ++ (f x.value).entries⟩

@[simp] theorem value_pure (a : α) : (pure a : Logged ε α).value = a := rfl

@[simp] theorem entries_pure (a : α) : (pure a : Logged ε α).entries = [] := rfl

@[simp] theorem value_bind (x : Logged ε α) (f : α → Logged ε β) :
    (x >>= f).value = (f x.value).value := rfl

@[simp] theorem entries_bind (x : Logged ε α) (f : α → Logged ε β) :
    (x >>= f).entries = x.entries ++ (f x.value).entries := rfl

@[simp] theorem entries_record (entry : ε) : (record entry).entries = [entry] := rfl

instance : LawfulMonad (Logged ε) :=
  LawfulMonad.mk' _
    (fun x => by cases x; simp [Functor.map])
    (fun a f => by simp [bind, pure])
    (fun x f g => by simp [bind, List.append_assoc])

end Logged

end Formula
