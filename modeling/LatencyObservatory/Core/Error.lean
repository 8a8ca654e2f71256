import LatencyObservatory.Core.Text

/-!
# Errors

`Result<T>` is `Except Error T` and `Status` is `Except Error Unit`. An error carries its code, its
fixed message and the context bytes that name the offending value.
-/

namespace LatencyObservatory.Core

inductive ErrorCode where
  | ok
  | invalidArgument
  | outOfRange
  | overflow
  | parseError
  | versionMismatch
  | integrityFailure
  | notFound
  | alreadyExists
  | conflict
  | capacityExceeded
  | unsupported
  | refused
  | ioError
  | cancelled
  | shuttingDown
  | internal
deriving DecidableEq, Repr

structure Error where
  code : ErrorCode
  message : String
  context : Bytes := []
deriving DecidableEq, Repr

/-- `Status`: success carries nothing. -/
abbrev Status := Except Error Unit

/-- `require` of the policy checks: a failed condition is an `InvalidArgument`. -/
def require (condition : Bool) (message : String) : Status :=
  if condition then .ok () else .error ⟨.invalidArgument, message, []⟩

theorem require_ok {condition : Bool} {message : String} {u : Unit}
    (h : require condition message = .ok u) : condition = true := by
  unfold require at h
  split at h
  · assumption
  · cases h

theorem require_eq_ok_iff {condition : Bool} {message : String} :
    require condition message = .ok () ↔ condition = true := by
  constructor
  · exact require_ok
  · intro h
    rw [require, if_pos h]

theorem guard_eq_ok_iff {α : Type} {condition : Prop} [Decidable condition] {e : Error} {next : Except Error α}
    {result : α} : (if condition then .error e else next) = .ok result ↔ ¬ condition ∧ next = .ok result := by
  split_ifs with h
  · simp [h]
  · simp [h]

theorem bind_eq_ok_iff {α β : Type} {first : Except Error α} {next : α → Except Error β} {result : β} :
    (first >>= next) = .ok result ↔ ∃ value, first = .ok value ∧ next value = .ok result := by
  cases first with
  | error e =>
    constructor
    · intro h
      cases h
    · rintro ⟨value, h, -⟩
      cases h
  | ok value =>
    constructor
    · intro h
      exact ⟨value, rfl, h⟩
    · rintro ⟨value', h, hnext⟩
      cases h
      exact hnext

theorem Status.bind_eq_ok_iff {α : Type} {check : Status} {next : Unit → Except Error α} {result : α} :
    (check >>= next) = .ok result ↔ check = .ok () ∧ next () = .ok result := by
  rw [Core.bind_eq_ok_iff]
  constructor
  · rintro ⟨⟨⟩, hcheck, hnext⟩
    exact ⟨hcheck, hnext⟩
  · rintro ⟨hcheck, hnext⟩
    exact ⟨(), hcheck, hnext⟩

end LatencyObservatory.Core
