import ChainWatch.Error
import ChainWatch.Node.Question
import ChainWatch.Node.Record

/-!
# Asking a node

Each question becomes a request: the name of the call and its arguments. The reply is a value or
a refusal, unless none comes; `answer` reads it as the question demands. A refusal, a reply that
does not come and a value that cannot be read become errors that name the call. A nonce that passes
64 bits is a fault.
-/

namespace ChainWatch.Node

/-- What a node says to a request. -/
inductive Reply where
  | value (v : Value)
  | refusal (code : Int) (message : String) (data : Option Value)
  /-- Nothing that could be taken for a reply; the connection says why. -/
  | lost (reason : String)

/-- What is sent for a question; there may be no arguments. -/
structure Request where
  method : String
  arguments : Option (List Value)

/-- The arguments of a question. -/
def Question.arguments : Question → Option (List Value)
  | blockNumber | gasPrice => none
  | latestBlock => some [.text "latest", .bool false]
  | pendingNonce account => some [.text account.text, .text "pending"]
  | receipt hash => some [.text hash.text]
  | balance account => some [.text account.text, .text "latest"]
  | broadcast raw => some [.text ("0x" ++ Hex.ofBytes raw)]
  | newHeads => some [.text "newHeads"]

/-- The request that asks a question. -/
def Question.request (q : Question) : Request := ⟨q.method, q.arguments⟩

/-- The text of a refusal. -/
def refusalText (code : Int) (message : String) (data : Option Value) : String :=
  "JSON-RPC error: (code: " ++ toString code ++ ", message: " ++ message ++ ", data: "
    ++ (match data with
      | none => "None"
      | some v => "Some(" ++ v.describe ++ ")") ++ ")"

/-- What is said of a value that cannot be read. -/
def unreadable : String := "custom error: undecodable result"

/-- The value of a reply as a reader takes it. -/
def Reply.read {α : Type} (method : String) (read : Value → Option α) : Reply → Except ChainError α
  | refusal code message data => .error (.rpc method (refusalText code message data))
  | lost reason => .error (.rpc method reason)
  | value v =>
    match read v with
    | some a => .ok a
    | none => .error (.rpc method unreadable)

/-- Nothing, or what the reader takes. -/
def orNull {α : Type} (read : Value → Option α) : Value → Option (Option α)
  | .null => some none
  | v => (read v).map some

/-- A word as a number of 64 bits, if it is one. -/
def narrow (w : Word) : Outcome UInt64 :=
  if w.toNat < UInt64.size then .ok (UInt64.ofNat w.toNat) else .fault .wideNumber

/-- The identifier under which a node keeps a subscription. -/
def Reply.subscription (reply : Reply) : Except ChainError Word :=
  reply.read Question.newHeads.method Value.amount?

/-- The answer to a question, read from the reply to its request. The heads of a subscription come
later. -/
def answer (q : Question) (reply : Reply) : Outcome Answer :=
  match q with
  | .blockNumber => .ofExcept (Answer.number <$> reply.read q.method Value.number64?)
  | .latestBlock =>
    match reply.read q.method (orNull headerOf?) with
    | .ok (some header) => .ok (.header header)
    | .ok none => .error (.rpc q.method "No latest block")
    | .error e => .error e
  | .pendingNonce _ =>
    match reply.read q.method Value.amount? with
    | .ok w =>
      match narrow w with
      | .ok n => .ok (.number n)
      | .error e => .error e
      | .fault f => .fault f
    | .error e => .error e
  | .receipt _ => .ofExcept (Answer.receipt <$> reply.read q.method (orNull receiptOf?))
  | .gasPrice | .balance _ => .ofExcept (Answer.amount <$> reply.read q.method Value.amount?)
  | .broadcast _ => .ofExcept (Answer.hash <$> reply.read q.method Value.hash?)
  | .newHeads => .ofExcept ((fun _ => Answer.heads []) <$> reply.subscription)

end ChainWatch.Node
