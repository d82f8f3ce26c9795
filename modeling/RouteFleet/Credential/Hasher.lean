/-! # Hashers of passwords

A hasher turns a password into a text from which the proxy can tell whether somebody knows the
password. It may refuse: hashing has a cost, the logarithm of the number of its rounds, which must
lie within bounds.
-/

namespace RouteFleet

/-- Why a password was not hashed. -/
inductive HashError where
  | costNotAllowed (cost : Nat)
deriving DecidableEq, Repr

/-- What is wrong. -/
def HashError.message : HashError → String
  | costNotAllowed cost => "Cost needs to be between 4 and 31, got " ++ toString cost

/-- Turns passwords into hashes. -/
abbrev Hasher := String → Except HashError String

/-- Marks a password instead of hashing it, so that graphs made with it can be foretold. -/
def Hasher.marking : Hasher := fun password => .ok ("$static$" ++ password)

/-- Refuses each password. -/
def Hasher.refusing : Hasher := fun _ => .error (.costNotAllowed 0)

end RouteFleet
