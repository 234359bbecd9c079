/-!
# Gauges

A gauge shows the last value it was set to. It holds a signed 64-bit number, so an unsigned value
from the upper half reads as negative.
-/

namespace ChainWatch.Metrics

/-- The gauges that components set. -/
inductive Gauge where
  | accountNonce
  | blockHeight
deriving DecidableEq

namespace Gauge

def name : Gauge → String
  | accountNonce => "ethlike_account_nonce"
  | blockHeight => "ethlike_chain_block_height"

/-- What the gauge shows. -/
def help : Gauge → String
  | accountNonce => "Next nonce the nonce manager hands out"
  | blockHeight => "Latest block height seen by the block counter"

end Gauge

/-- An unsigned value as a gauge holds it. -/
def reading (n : UInt64) : Int := n.toInt64.toInt

end ChainWatch.Metrics
