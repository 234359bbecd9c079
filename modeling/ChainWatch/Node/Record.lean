import ChainWatch.Node.Value

/-!
# Blocks and receipts as nodes send them

A block or a receipt is read as a whole: one field of the wrong shape spoils it, also a field
that nobody asks for. Of a block every field may be missing; of a receipt those that tell which
transaction it is about may not.
-/

namespace ChainWatch.Node

open Value Shape

/-- A payment out of the staking system. -/
def withdrawalShape : Shape :=
  fields .required [("index", isNumber64), ("validatorIndex", isNumber64), ("address", isAccount),
    ("amount", isAmount)]

/-- An entry that a transaction left in the log. -/
def logEntryShape : Shape :=
  fields .required [("address", isAccount), ("topics", isListOf isHash), ("data", isBytes)]
    ++ fields .optional [("blockHash", isHash), ("blockNumber", isNumber64),
      ("transactionHash", isHash), ("transactionIndex", isNumber64), ("logIndex", isAmount),
      ("transactionLogIndex", isAmount), ("logType", isText), ("removed", isBool)]

/-- An object of the shape, or the list of its values. -/
def isEither (shape : Shape) (v : Value) : Bool := shape.admits v || shape.admitsInOrder v

def blockShape : Shape :=
  fields .omissible [("parentHash", isHash), ("sha3Uncles", isHash), ("stateRoot", isHash),
      ("transactionsRoot", isHash), ("receiptsRoot", isHash), ("gasUsed", isAmount),
      ("gasLimit", isAmount), ("timestamp", isAmount), ("difficulty", isAmount),
      ("extraData", isBytes), ("uncles", isListOf isHash), ("transactions", isListOf isHash)]
    ++ fields .optional [("hash", isHash), ("miner", isAccount), ("number", isNumber64),
      ("logsBloom", isFixed 256), ("totalDifficulty", isAmount), ("size", isAmount),
      ("mixHash", isHash), ("nonce", isFixed 8), ("baseFeePerGas", isAmount),
      ("blobGasUsed", isAmount), ("excessBlobGas", isAmount), ("withdrawalsRoot", isHash),
      ("withdrawals", isListOf (isEither withdrawalShape)), ("parentBeaconBlockRoot", isHash),
      ("sealFields", isListOf isBytes)]

def receiptShape : Shape :=
  fields .required [("transactionHash", isHash), ("transactionIndex", isNumber64),
      ("from", isAccount), ("cumulativeGasUsed", isAmount),
      ("logs", isListOf (isEither logEntryShape)), ("logsBloom", isFixed 256)]
    ++ fields .optional [("blockHash", isHash), ("blockNumber", isNumber64), ("to", isAccount),
      ("gasUsed", isAmount), ("contractAddress", isAccount), ("status", isNumber64),
      ("root", isHash), ("type", isNumber64), ("effectiveGasPrice", isAmount)]

/-- What is kept of a block; a block without a number counts as block 0. -/
def headerOf? (v : Value) : Option Header :=
  if blockShape.admits v then
    some ⟨(v.get? "number" number64?).getD 0, v.get? "hash" hash?, v.get? "baseFeePerGas" amount?⟩
  else none

/-- What is kept of a receipt. -/
def receiptOf? (v : Value) : Option Receipt :=
  if receiptShape.admits v then
    (v.get? "transactionHash" hash?).map fun hash =>
      ⟨hash, v.get? "blockNumber" number64?, v.get? "status" number64?, v.get? "gasUsed" amount?,
        v.get? "effectiveGasPrice" amount?⟩
  else none

end ChainWatch.Node
