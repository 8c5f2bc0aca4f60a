import Mathlib.Data.Rat.Defs
import Tckr.MarketWatch.Contracts.Messages

/-!
# The market data source

What every source reports to the pages, whatever its transport.
-/

namespace Tckr.MarketWatch

/-- The state reported to the pages. -/
inductive ConnectionState
  | connecting (attempt : Nat)
  | connected (since : Nat)
  | reconnecting (attempt : Nat) (nextRetryMs : Rat)
  | closed (code : CloseCode) (reason : String)
  deriving DecidableEq

end Tckr.MarketWatch
