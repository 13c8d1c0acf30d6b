import Formula.Proofs.Numeral
import Formula.Report

/-!
# Messages tell faults

A fault is told by its message alone. The words that a message opens with begin no message of
another kind, so they tell the kind. Messages of one kind have the same words around what identifies
the fault. A number ends where a character stands that is no digit. A text may hold anything, even
the words of another message, but it stands at the end or has only the last words of its kind behind
it.

The message of a report is that of its fault. In print, a report shows it without the blanks at its
end (`Report.messageLine`), so this is about the message itself.

## Main definitions

- `Fault.opening`: the words in front of what identifies the fault
- `Fault.particulars`: the characters behind them

## Main statements

- `Fault.kind_eq_of_message_eq`: the message tells the kind
- `Fault.eq_of_particulars_eq`: within a kind, the particulars tell the fault
- `Fault.message_distinguishes`: faults that differ in anything have different messages
-/

namespace Formula

open Decimal Number

namespace Fault

/-- The words of the message in front of what identifies the fault. -/
def opening : Fault → String
  | .unsupportedNodeKind .. => "unsupported node kind `"
  | .invalidParameterIndex .. => "parameter index "
  | .duplicateParameter .. => "parameter `"
  | .arityMismatch .. => "expected "
  | .malformedBytecode .. => "malformed bytecode at instruction "
  | .backendUnavailable .. => "the "
  | .codegen .. => "native code generation failed: "

/-- The characters of the message behind its opening. -/
def particulars : Fault → List Char
  | .unsupportedNodeKind kind => kind.toList ++ "`".toList
  | .invalidParameterIndex index count =>
    numeral index.toNat ++
      (" is out of bounds for ".toList ++ (numeral count ++ " declared parameter(s)".toList))
  | .duplicateParameter name => name.toList ++ "` is declared more than once".toList
  | .arityMismatch expected actual =>
    numeral expected ++ (" argument(s), got ".toList ++ numeral actual)
  | .malformedBytecode position reason => numeral position ++ (": ".toList ++ reason.toList)
  | .backendUnavailable backend =>
    backend.name.toList ++ " backend is not available in this build".toList
  | .codegen message => message.toList

theorem toList_message (fault : Fault) :
    fault.message.toList = fault.opening.toList ++ fault.particulars := by
  unfold message
  cases fault <;>
    simp only [opening, particulars, toString, numeral, String.toList_append, List.append_assoc,
      Nat.toList_repr]

variable {fault other : Fault}

/-! ### Kinds -/

theorem opening_eq_of_kind_eq (hkind : fault.kind = other.kind) :
    fault.opening = other.opening := by
  revert hkind
  cases fault <;> cases other <;> simp [opening, kind]

/-- No opening begins the opening of another kind. -/
theorem kind_eq_of_isPrefix_opening (h : fault.opening.toList <+: other.opening.toList) :
    fault.kind = other.kind := by
  revert h
  cases fault <;> cases other <;> simp [opening, kind]

/-- The message tells the kind. -/
theorem kind_eq_of_message_eq (h : fault.message = other.message) : fault.kind = other.kind := by
  have hfault : fault.opening.toList <+: fault.message.toList := by
    rw [toList_message]
    exact List.prefix_append _ _
  have hother : other.opening.toList <+: fault.message.toList := by
    rw [h, toList_message]
    exact List.prefix_append _ _
  rcases List.prefix_or_prefix_of_prefix hfault hother with hprefix | hprefix
  · exact kind_eq_of_isPrefix_opening hprefix
  · exact (kind_eq_of_isPrefix_opening hprefix).symm

theorem particulars_eq_of_message_eq (h : fault.message = other.message) :
    fault.particulars = other.particulars := by
  have hopening : fault.opening = other.opening := opening_eq_of_kind_eq (kind_eq_of_message_eq h)
  have hlist : fault.message.toList = other.message.toList := congrArg String.toList h
  rw [toList_message, toList_message, hopening] at hlist
  exact List.append_cancel_left hlist

/-! ### Particulars -/

/-- Within a kind, the particulars tell the fault. -/
theorem eq_of_particulars_eq (hkind : fault.kind = other.kind)
    (h : fault.particulars = other.particulars) : fault = other := by
  cases fault <;> cases other
  case unsupportedNodeKind.unsupportedNodeKind kind kind' =>
    have hname : kind = kind' := String.toList_injective (List.append_cancel_right h)
    rw [hname]
  case invalidParameterIndex.invalidParameterIndex index count index' count' =>
    obtain ⟨hindex, hrest⟩ := eq_of_numeral_append_eq (by simp) (by simp) h
    obtain ⟨hcount, -⟩ :=
      eq_of_numeral_append_eq (by simp) (by simp) (List.append_cancel_left hrest)
    rw [UInt32.toNat_inj.mp hindex, hcount]
  case duplicateParameter.duplicateParameter name name' =>
    have hname : name = name' := String.toList_injective (List.append_cancel_right h)
    rw [hname]
  case arityMismatch.arityMismatch expected actual expected' actual' =>
    obtain ⟨hexpected, hrest⟩ := eq_of_numeral_append_eq (by simp) (by simp) h
    have hactual : actual = actual' := eq_of_numeral_eq (List.append_cancel_left hrest)
    rw [hexpected, hactual]
  case malformedBytecode.malformedBytecode position reason position' reason' =>
    obtain ⟨hposition, hrest⟩ := eq_of_numeral_append_eq (by simp) (by simp) h
    have hreason : reason = reason' := String.toList_injective (List.append_cancel_left hrest)
    rw [hposition, hreason]
  case backendUnavailable.backendUnavailable backend backend' =>
    have hname : backend.name = backend'.name :=
      String.toList_injective (List.append_cancel_right h)
    rw [Backend.name_injective hname]
  case codegen.codegen text text' =>
    have htext : text = text' := String.toList_injective h
    rw [htext]
  -- faults of two kinds
  all_goals simp [kind] at hkind

/-- Faults of the same message are the same, and faults that differ in their kind or in anything
that identifies them have different messages in their reports. -/
theorem message_distinguishes :
    (∀ fault other : Fault, fault.message = other.message → fault = other) ∧
      ∀ fault other : Fault, fault ≠ other →
        (Report.ofFault fault).message ≠ (Report.ofFault other).message := by
  have hinjective : ∀ fault other : Fault, fault.message = other.message → fault = other :=
    fun _ _ h => eq_of_particulars_eq (kind_eq_of_message_eq h) (particulars_eq_of_message_eq h)
  refine ⟨hinjective, ?_⟩
  intro fault other hne h
  exact hne (hinjective fault other h)

/-- A name is told even if it holds the last words of its message, and a number even if the text
behind it begins with digits. -/
theorem nested_message_distinguishes :
    (∀ fault : Fault,
      fault.message = "parameter `x` is declared more than once` is declared more than once" →
        fault = .duplicateParameter "x` is declared more than once") ∧
      (Report.ofFault (.malformedBytecode 1 "2: stack")).message ≠
        (Report.ofFault (.malformedBytecode 12 "stack")).message := by
  obtain ⟨hinjective, hreports⟩ := message_distinguishes
  constructor
  · intro fault h
    exact hinjective fault (.duplicateParameter "x` is declared more than once") h
  · exact hreports (.malformedBytecode 1 "2: stack") (.malformedBytecode 12 "stack") (by decide)

end Fault

end Formula
