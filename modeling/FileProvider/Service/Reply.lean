import FileProvider.Run
import FileProvider.Service.Error

/-!
# Replies

Every operation of the service answers with a value and a status code. A failed one answers with
the empty value of its kind and the code of its cause.
-/

set_option autoImplicit false

namespace FileProvider

/-- The answer of an operation. -/
structure Reply (α : Type) where
  value : α
  code : StatusCode
deriving DecidableEq, Repr, Inhabited

namespace Reply

variable {α σ : Type}

def success (value : α) : Reply α := ⟨value, StatusCode.success⟩

def isSuccess (r : Reply α) : Bool := r.code = StatusCode.success

/-- The answer for a result, `empty` standing in for the value of a failed one. -/
def ofResult (empty : α) : Except ServiceError α → Reply α
  | .ok value => success value
  | .error e => ⟨empty, e.code⟩

/-- Runs an operation and answers; there is no answer if the depth limit cut the operation off. -/
def ofRun (empty : α) (x : Run σ ServiceError α) (s : σ) : Option (Reply α × σ) :=
  (x.outcome s).map fun (result, s') => (ofResult empty result, s')

def toJson (write : α → Json) (r : Reply α) : Json :=
  .obj [("code", .ofSigned32 r.code), ("value", write r.value)]

def ofJson (read : Json → Json.Read α) (j : Json) : Json.Read (Reply α) :=
  j.record ["value", "code"] false fun fields => do
    let value ← Json.required fields "value" read
    let code ← Json.required fields "code" Json.signed32
    .ok ⟨value, code⟩

end Reply

end FileProvider
