/-!
# Permissions

A file has three bits for its owner, three for its group and three for everybody else; those that
apply to the user of the program say what the program may do with it.  Nothing is refused to root.
-/

namespace SessionGuard

/-- What the user of the program is to a file. -/
inductive UserClass
  | owner
  | group
  | other
  deriving DecidableEq

/-- Where the bits of a class begin. -/
def UserClass.shift : UserClass → Nat
  | owner => 6
  | group => 3
  | other => 0

/-- The permissions of a file, and whose among them are those of the user. -/
structure Mode where
  bits : Nat
  user : UserClass := .owner
  deriving DecidableEq

/-- A number stands for the permissions of a file that the user owns. -/
instance (bits : Nat) : OfNat Mode bits := ⟨⟨bits, .owner⟩⟩

namespace Mode

def isReadable (m : Mode) : Bool := m.bits.testBit (m.user.shift + 2)

def isWritable (m : Mode) : Bool := m.bits.testBit (m.user.shift + 1)

/-- The permissions of a file for its owner only. -/
def ownerOnly : Mode := 0o600

end Mode

end SessionGuard
