import ChainWatch.Transaction

/-!
# Questions to a node

What the program asks of a node, the name under which the node knows the question, and the answers
it can give.
-/

namespace ChainWatch.Node

inductive Question where
  | blockNumber
  | latestBlock
  /-- The next nonce of an account, pending transactions counted. -/
  | pendingNonce (account : Account)
  | receipt (hash : Hash)
  | gasPrice
  | balance (account : Account)
  /-- Broadcasts a signed transaction. -/
  | broadcast (raw : List UInt8)
  /-- Asks to be told of new heads. -/
  | newHeads
deriving DecidableEq

/-- The name of the call. -/
def Question.method : Question → String
  | blockNumber => "eth_blockNumber"
  | latestBlock => "eth_getBlockByNumber"
  | pendingNonce _ => "eth_getTransactionCount"
  | receipt _ => "eth_getTransactionReceipt"
  | gasPrice => "eth_gasPrice"
  | balance _ => "eth_getBalance"
  | broadcast _ => "eth_sendRawTransaction"
  | newHeads => "eth_subscribe"

inductive Answer where
  | number (n : UInt64)
  | header (h : Header)
  | receipt (r : Option Receipt)
  | amount (w : Word)
  | hash (h : Hash)
  | heads (hs : List Header)
deriving DecidableEq

end ChainWatch.Node
