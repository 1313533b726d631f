import Eaves.Address.Basic
import Eaves.Failure

/-!
# The address of a state

Where a controller takes its state: at a fixed path below its root address.
-/

namespace Eaves.Address

/-- The path a state is posted to, below the root. -/
def statePath : String := "json/state"

/-- What deliveries call themselves. -/
def agent : String := "glowline"

/-- An address read as an operation that may fail for any cause. -/
def lift {α : Type} : Except AddressFault α → Outcome α :=
  Except.mapError .address

/-- The address a state is posted to, below a root. -/
def state (root : String) : Outcome Address :=
  lift (do (← read root).below statePath.toList)

end Eaves.Address
