import PccGateway.Text

namespace PccGateway

/-- `Http1Error`: the status a response would carry, the stable code and the message. -/
structure Http1Error where
  status : Nat
  code : String
  message : String
  deriving DecidableEq, Repr

/-- The exceptions that the modelled code raises. `external` stands for one that code outside the
gateway raises: an application handler, a hook, a user iterator. -/
inductive Exn where
  | http1 (error : Http1Error)
  | proxyProtocol (code message : String)
  | unicode
  | value (message : String)
  | bufferLimit (message : String)
  | bufferClosed (message : String)
  | bufferReleased (message : String)
  | transport (message : String)
  | runtime (message : String)
  | lookup (message : String)
  | external
  deriving DecidableEq, Repr

/-- `isinstance(error, ValueError)`. -/
def Exn.isValueError : Exn → Bool
  | .http1 _ | .proxyProtocol _ _ | .unicode | .value _ => true
  | _ => false

/-- `str(error)`. -/
def Exn.message : Exn → String
  | .http1 error => error.message
  | .proxyProtocol _ message | .value message | .bufferLimit message | .bufferClosed message
  | .bufferReleased message | .transport message | .runtime message | .lookup message => message
  | .unicode | .external => ""

/-- `raise Http1Error(status, code, message)`. -/
def raiseHttp1 {α : Type} (status : Nat) (code message : String) : Except Exn α :=
  .error (.http1 ⟨status, code, message⟩)

/-- `raise ProxyProtocolError(code, message)`. -/
def raiseProxy {α : Type} (code message : String) : Except Exn α :=
  .error (.proxyProtocol code message)

theorem bind_eq_ok {ε α β : Type} {x : Except ε α} {f : α → Except ε β} {b : β} :
    (x >>= f) = .ok b ↔ ∃ a, x = .ok a ∧ f a = .ok b := by
  cases x <;> simp [bind, Except.bind]

theorem bind_eq_error {ε α β : Type} {x : Except ε α} {f : α → Except ε β} {error : ε} :
    (x >>= f) = .error error ↔ x = .error error ∨ ∃ a, x = .ok a ∧ f a = .error error := by
  cases x <;> simp [bind, Except.bind]

theorem ite_raiseHttp1_eq_ok {α : Type} {p : Prop} [Decidable p] {status : Nat} {code message : String}
    {x : Except Exn α} {a : α} :
    (if p then raiseHttp1 status code message else x) = .ok a ↔ ¬ p ∧ x = .ok a := by
  split <;> simp_all [raiseHttp1]

theorem ite_raiseProxy_eq_ok {α : Type} {p : Prop} [Decidable p] {code message : String}
    {x : Except Exn α} {a : α} :
    (if p then raiseProxy code message else x) = .ok a ↔ ¬ p ∧ x = .ok a := by
  split <;> simp_all [raiseProxy]

end PccGateway
