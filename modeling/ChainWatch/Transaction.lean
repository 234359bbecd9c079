import ChainWatch.Fee
import ChainWatch.Hex

/-!
# Transactions, receipts and headers

A transaction on its way to the chain is never changed: a replacement is a new transaction with
the same nonce. A receipt says that a transaction was mined; a header is what the program keeps of
a block.
-/

namespace ChainWatch

/-- A broadcast transaction. -/
structure Transaction where
  hash : Hash
  nonce : Word
  gasLimit : Word
  offer : FeeOffer
deriving DecidableEq

/-- What a replacement is asked to carry. -/
structure GasOptions where
  nonce : Word
  gasLimit : Word
  offer : FeeOffer
deriving DecidableEq

/-- Proof that a transaction is in a block. -/
structure Receipt where
  transactionHash : Hash
  blockNumber : Option UInt64
  status : Option UInt64
  gasUsed : Option Word
  effectiveGasPrice : Option Word
deriving DecidableEq

/-- Did the transaction do what it was sent for? Status 1 says so. -/
def Receipt.succeeded (r : Receipt) : Bool := r.status == some 1

/-- What is kept of a block. A block may lack a hash while it is pending, and a base fee on
chains without dynamic fees. -/
structure Header where
  number : UInt64
  hash : Option Hash
  baseFee : Option Word
deriving DecidableEq

end ChainWatch
