import Mathlib.Algebra.GroupWithZero.Nat
import SharpEvPicks.Python.Str

/-! Limits of provider identities in UTF-8 bytes, `app/identity.py`. -/
namespace SharpEvPicks

open Python

def sportKeyMaxBytes : Nat := 128
def teamNameMaxBytes : Nat := 256
def eventRefMaxBytes : Nat := 512
def bookmakerMaxBytes : Nat := 512
def marketDetailMaxBytes : Nat := 512
def selectionMaxBytes : Nat := 1024

/-- The `ValueError`s of `require_bounded_identity`, with the field they name. -/
inductive IdentityError where
  | mustBeNonEmpty (field : Str)
  | mustBeAtMost (field : Str) (maximumBytes : Nat)
  deriving DecidableEq

def utf8Length (s : Str) : Nat := (s.map Char.utf8Size).sum

def requireBoundedIdentity (value : Str) (maximumBytes : Nat) (field : Str)
    (allowEmpty : Bool := false) : Except IdentityError Str :=
  if value = [] ∧ ¬ allowEmpty then .error (.mustBeNonEmpty field)
  else if maximumBytes < utf8Length value then .error (.mustBeAtMost field maximumBytes)
  else .ok value

theorem requireBoundedIdentity_ok {value field result : Str} {maximumBytes : Nat}
    {allowEmpty : Bool}
    (h : requireBoundedIdentity value maximumBytes field allowEmpty = .ok result) :
      result = value := by
  unfold requireBoundedIdentity at h
  split at h
  · cases h
  · split at h
    · cases h
    · cases h
      rfl

end SharpEvPicks
