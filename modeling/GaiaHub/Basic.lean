import Mathlib.Data.List.Basic

/-!
# Strings, numbers, errors and the object store

The hub is TypeScript. Its strings are modelled as lists of characters, so that
`s.startsWith(p)` is `List.isPrefixOf`, `===` is equality and `slice` is `take`. The numbers
that the upload pipeline compares come from `parseInt`, which returns `NaN`, an infinity or an
integer, and `JsNumber` has exactly these values with JavaScript's comparison on them.

The backend of a driver is an object store: a map from the top-level directory of a principal
(its address) and a path below it to the stored object. A handler that fails may still have
changed the store (an archival rename happens before the upload), so the handlers return the
store together with their result.
-/

namespace GaiaHub

/-- A JavaScript string, as the list of its characters. -/
abbrev JsString := List Char

def startsWith (s pre : JsString) : Bool := pre.isPrefixOf s

def endsWith (s suf : JsString) : Bool := suf.isSuffixOf s

@[simp] theorem startsWith_iff (s pre : JsString) : startsWith s pre = true ↔ pre <+: s :=
  List.isPrefixOf_iff_prefix

/-- JavaScript truthiness of a string: only the empty string is falsy. -/
def truthy (s : JsString) : Bool := !s.isEmpty

@[simp] theorem truthy_iff (s : JsString) : truthy s = true ↔ s ≠ [] := by
  cases s <;> simp [truthy]

/-- `!!x` for a string or `undefined`, the result of `Array.prototype.find`. -/
def toBoolean : Option JsString → Bool
  | none => false
  | some s => truthy s

@[simp] theorem toBoolean_none : toBoolean none = false := rfl

@[simp] theorem toBoolean_some (s : JsString) : toBoolean (some s) = truthy s := rfl

def decimal (n : Nat) : JsString := Nat.toDigits 10 n

/-- A JavaScript number as `parseInt` returns it: `NaN`, an infinity (a digit string too long
for a double), or an integer. -/
inductive JsNumber where
  | nan
  | posInfinity
  | negInfinity
  | int (n : Int)
  deriving DecidableEq, Repr

namespace JsNumber

def isFinite : JsNumber → Bool
  | int _ => true
  | _ => false

def lt : JsNumber → JsNumber → Bool
  | int a, int b => decide (a < b)
  | negInfinity, int _ | negInfinity, posInfinity | int _, posInfinity => true
  | _, _ => false

@[simp] theorem lt_int_int (a b : Int) : lt (int a) (int b) = decide (a < b) := rfl

@[simp] theorem isFinite_int (a : Int) : isFinite (int a) = true := rfl

end JsNumber

/-- The hub's error classes (`errors.ts`), each with its message. -/
inductive HubError where
  | validationError (message : JsString)
  | notEnoughProofError (message : JsString)
  | payloadTooLargeError (message : JsString)
  | doesNotExist (message : JsString)
  | driverError (message : JsString)
  deriving DecidableEq, Repr

instance instDecidableEqExcept {ε α : Type} [DecidableEq ε] [DecidableEq α] :
    DecidableEq (Except ε α)
  | .ok a, .ok b => decidable_of_iff (a = b) (by simp)
  | .error a, .error b => decidable_of_iff (a = b) (by simp)
  | .ok _, .error _ => isFalse (by simp)
  | .error _, .ok _ => isFalse (by simp)

@[simp] theorem except_ok_bind {ε α β : Type} (a : α) (f : α → Except ε β) :
    (Except.ok a >>= f) = f a := rfl

@[simp] theorem except_error_bind {ε α β : Type} (e : ε) (f : α → Except ε β) :
    (Except.error e >>= f) = .error e := rfl

theorem except_bind_eq_ok {ε α β : Type} {x : Except ε α} {f : α → Except ε β} {b : β} :
    (x >>= f) = .ok b ↔ ∃ a, x = .ok a ∧ f a = .ok b := by
  cases x <;> simp

abbrev Chunk := List UInt8

structure StoredObject where
  data : List UInt8
  contentType : JsString
  deriving DecidableEq, Repr

/-- The backend's objects, by top-level directory (a principal's address) and path. -/
abbrev Store := JsString → JsString → Option StoredObject

namespace Store

def empty : Store := fun _ _ => none

def insert (st : Store) (a p : JsString) (o : StoredObject) : Store :=
  fun a' p' => if a' = a ∧ p' = p then some o else st a' p'

def erase (st : Store) (a p : JsString) : Store :=
  fun a' p' => if a' = a ∧ p' = p then none else st a' p'

@[simp] theorem insert_apply (st : Store) (a p a' p' : JsString) (o : StoredObject) :
    st.insert a p o a' p' = if a' = a ∧ p' = p then some o else st a' p' := rfl

@[simp] theorem erase_apply (st : Store) (a p a' p' : JsString) :
    st.erase a p a' p' = if a' = a ∧ p' = p then none else st a' p' := rfl

end Store

end GaiaHub
