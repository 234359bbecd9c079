import ChainWatch.Node.Client
import ChainWatch.Proofs.Node.Quantities

/-!
# What replies are answered with

`Question.Tells` says what a value tells in answer to a question: the number, the amount or the
hash that its digits stand for, and of a block or a receipt those of its fields. Nothing is cut off
there: digits that stand for more than an answer has room for tell no answer.

Every outcome comes from the reply in one of three ways (`ComesFrom`), and
`answers_exact_unless_wide` reads them off. Whatever the reply, the answer is what it tells, or an
error that names the call where it tells nothing, with one exception: a nonce is read as an amount,
and one that passes 64 bits is a fault.
-/

namespace ChainWatch.Node

/-! ## Fields -/

namespace Value

/-- What was kept of a field: nothing where it is missing or null, else what it tells. -/
def TellsField {α : Type} (v : Value) (name : String) (tells : Value → α → Prop) :
    Option α → Prop
  | none => v.field? name = none ∨ v.field? name = some .null
  | some a => ∃ field, v.field? name = some field ∧ tells field a

/-- A test and a reader of one kind of field belong together. -/
structure Reads {α : Type} (test : Value → Bool) (read : Value → Option α)
    (tells : Value → α → Prop) : Prop where
  test_eq : ∀ field, test field = (read field).isSome
  read_iff : ∀ field a, read field = some a ↔ tells field a
  null : read .null = none

theorem reads_number64 : Reads isNumber64 number64? TellsNumber :=
  ⟨fun _ => rfl, number64?_eq_some_iff, rfl⟩

theorem reads_amount : Reads isAmount amount? TellsAmount :=
  ⟨fun _ => rfl, amount?_eq_some_iff, rfl⟩

theorem reads_hash : Reads isHash hash? TellsHash :=
  ⟨fun _ => rfl, hash?_eq_some_iff, rfl⟩

end Value

open Value

theorem Shape.admits_field {shape : Shape} {v : Value} (h : shape.admits v) {rule : FieldRule}
    (hrule : rule ∈ shape) : rule.admits (v.field? rule.name) := by
  cases v with
  | object fields => exact List.all_eq_true.mp h rule hrule
  | _ => cases h

section Fields

variable {α : Type} {test : Value → Bool} {read : Value → Option α} {tells : Value → α → Prop}
variable {shape : Shape} {v : Value}

/-- A field that may be missing is read as what it tells. -/
theorem Value.Reads.optional_iff (h : Reads test read tells) (hv : shape.admits v) (name : String)
    (hrule : ⟨name, .optional, test⟩ ∈ shape) (kept : Option α) :
    v.get? name read = kept ↔ v.TellsField name tells kept := by
  have hadmits : FieldRule.admits ⟨name, .optional, test⟩ (v.field? name) :=
    Shape.admits_field hv hrule
  unfold get?
  cases hfield : v.field? name with
  | none => cases kept <;> simp [TellsField, hfield]
  | some field =>
    rw [hfield] at hadmits
    show read field = kept ↔ _
    cases kept with
    | some a => simp [TellsField, hfield, h.read_iff]
    | none =>
      -- a field that is there and passes the test is read, so only null is not
      have hnull : read field = none ↔ field = .null := by
        constructor
        · intro hnone
          have htest : test field = false := by rw [h.test_eq, hnone, Option.isSome_none]
          have hisNull : field.isNull = true := by simpa [FieldRule.admits, htest] using hadmits
          cases field with
          | null => rfl
          | _ => cases hisNull
        · intro heq
          rw [heq, h.null]
      simp [TellsField, hfield, hnull]

/-- A field that has to be there is read as what it tells. -/
theorem Value.Reads.required_iff (h : Reads test read tells) (name : String) (a : α) :
    v.get? name read = some a ↔ v.TellsField name tells (some a) := by
  unfold get? TellsField
  rw [Option.bind_eq_some_iff]
  simp only [h.read_iff]

end Fields

/-! ## Blocks and receipts -/

/-- What a block tells of its header; a block without a number counts as block 0. -/
structure Value.TellsHeader (v : Value) (h : Header) : Prop where
  block : blockShape.admits v
  number : ∃ height, v.TellsField "number" TellsNumber height ∧ h.number = height.getD 0
  hash : v.TellsField "hash" TellsHash h.hash
  baseFee : v.TellsField "baseFeePerGas" TellsAmount h.baseFee

/-- What a receipt tells. -/
structure Value.TellsReceipt (v : Value) (r : Receipt) : Prop where
  receipt : receiptShape.admits v
  transactionHash : v.TellsField "transactionHash" TellsHash (some r.transactionHash)
  blockNumber : v.TellsField "blockNumber" TellsNumber r.blockNumber
  status : v.TellsField "status" TellsNumber r.status
  gasUsed : v.TellsField "gasUsed" TellsAmount r.gasUsed
  effectiveGasPrice : v.TellsField "effectiveGasPrice" TellsAmount r.effectiveGasPrice

theorem headerOf?_eq_some_iff (v : Value) (h : Header) :
    headerOf? v = some h ↔ v.TellsHeader h := by
  unfold headerOf?
  by_cases hv : blockShape.admits v
  · rw [if_pos hv, Option.some.injEq]
    have hnumber := reads_number64.optional_iff hv "number" (by simp [blockShape, Shape.fields])
    have hhash := reads_hash.optional_iff hv "hash" (by simp [blockShape, Shape.fields])
    have hbaseFee := reads_amount.optional_iff hv "baseFeePerGas"
      (by simp [blockShape, Shape.fields])
    constructor
    · intro heq
      subst heq
      exact ⟨hv, ⟨_, (hnumber _).mp rfl, rfl⟩, (hhash _).mp rfl, (hbaseFee _).mp rfl⟩
    · intro ⟨_, ⟨height, htold, heq⟩, htoldHash, htoldBaseFee⟩
      rw [(hnumber _).mpr htold, (hhash _).mpr htoldHash, (hbaseFee _).mpr htoldBaseFee, ← heq]
  · rw [if_neg hv]
    constructor
    · intro heq
      cases heq
    · intro htold
      exact absurd htold.block hv

theorem receiptOf?_eq_some_iff (v : Value) (r : Receipt) :
    receiptOf? v = some r ↔ v.TellsReceipt r := by
  unfold receiptOf?
  by_cases hv : receiptShape.admits v
  · rw [if_pos hv, Option.map_eq_some_iff]
    have htransaction := reads_hash.required_iff (v := v) "transactionHash"
    have hblockNumber := reads_number64.optional_iff hv "blockNumber"
      (by simp [receiptShape, Shape.fields])
    have hstatus := reads_number64.optional_iff hv "status"
      (by simp [receiptShape, Shape.fields])
    have hgasUsed := reads_amount.optional_iff hv "gasUsed"
      (by simp [receiptShape, Shape.fields])
    have hprice := reads_amount.optional_iff hv "effectiveGasPrice"
      (by simp [receiptShape, Shape.fields])
    constructor
    · intro ⟨hash, hhash, heq⟩
      subst heq
      exact ⟨hv, (htransaction hash).mp hhash, (hblockNumber _).mp rfl, (hstatus _).mp rfl,
        (hgasUsed _).mp rfl, (hprice _).mp rfl⟩
    · intro ⟨_, htoldHash, htoldBlock, htoldStatus, htoldGas, htoldPrice⟩
      obtain ⟨hash, blockNumber, status, gasUsed, effectiveGasPrice⟩ := r
      refine ⟨hash, (htransaction hash).mpr htoldHash, ?_⟩
      rw [(hblockNumber _).mpr htoldBlock, (hstatus _).mpr htoldStatus, (hgasUsed _).mpr htoldGas,
        (hprice _).mpr htoldPrice]
  · rw [if_neg hv]
    constructor
    · intro heq
      cases heq
    · intro htold
      exact absurd htold.receipt hv

/-! ## Readers of replies -/

/-- Nothing if the value is null, else what it tells. -/
def Value.TellsOrNull {α : Type} (v : Value) (tells : Value → α → Prop) : Option α → Prop
  | none => v = .null
  | some a => tells v a

/-- Where the reader refuses null, nothing else is taken for it. -/
theorem orNull_eq_some_iff {α : Type} {read : Value → Option α} {tells : Value → α → Prop}
    (hread : ∀ v a, read v = some a ↔ tells v a) (hnull : read .null = none) (v : Value)
    (kept : Option α) : orNull read v = some kept ↔ v.TellsOrNull tells kept := by
  cases kept with
  | none =>
    show orNull read v = some none ↔ v = .null
    cases v with
    | null => exact iff_of_true rfl rfl
    | _ => simp [orNull]
  | some a =>
    show orNull read v = some (some a) ↔ tells v a
    rw [← hread]
    cases v with
    | null => simp [orNull, hnull]
    | _ => simp [orNull]

/-- A reply is read if it is a value that the reader takes; if not, the error names the call. -/
theorem Reply.read_cases {α : Type} (method : String) (read : Value → Option α) (reply : Reply) :
    (∃ v a, reply = .value v ∧ read v = some a ∧ reply.read method read = .ok a) ∨
      ∃ text, (∀ v, reply = .value v → read v = none) ∧
        reply.read method read = .error (.rpc method text) := by
  cases reply with
  | refusal code message data => exact .inr ⟨_, nofun, rfl⟩
  | lost reason => exact .inr ⟨_, nofun, rfl⟩
  | value v =>
    unfold Reply.read
    cases hread : read v with
    | none =>
      right
      refine ⟨unreadable, ?_, by simp only [hread]⟩
      intro other hother
      cases hother
      exact hread
    | some a => exact .inl ⟨v, a, rfl, hread, by simp only [hread]⟩

/-! ## Answers -/

/-- The value tells this answer. -/
def Question.Tells (q : Question) (v : Value) (a : Answer) : Prop :=
  match q with
  | .blockNumber => ∃ n, v.TellsNumber n ∧ a = .number n
  | .latestBlock => ∃ h, v.TellsHeader h ∧ a = .header h
  | .pendingNonce _ => ∃ n : UInt64, v.quantity? 32 = some n.toNat ∧ a = .number n
  | .receipt _ => ∃ kept, v.TellsOrNull TellsReceipt kept ∧ a = .receipt kept
  | .gasPrice | .balance _ => ∃ w, v.TellsAmount w ∧ a = .amount w
  | .broadcast _ => ∃ h, v.TellsHash h ∧ a = .hash h
  | .newHeads => ∃ id, v.TellsAmount id ∧ a = .heads []

/-- The value tells a nonce that passes 64 bits. -/
def Question.TellsWide (q : Question) (v : Value) : Prop :=
  ∃ account n, q = .pendingNonce account ∧ v.quantity? 32 = some n ∧ 2 ^ 64 ≤ n

theorem Question.TellsWide.not_tells {q : Question} {v : Value} (wide : q.TellsWide v)
    (a : Answer) : ¬ q.Tells v a := by
  obtain ⟨account, n, rfl, hn, hwide⟩ := wide
  intro ⟨m, hm, _⟩
  have hlt : m.toNat < 2 ^ 64 := m.toNat_lt
  rw [hn, Option.some.injEq] at hm
  omega

/-- How an outcome comes from a reply. -/
inductive ComesFrom (q : Question) (reply : Reply) : Outcome Answer → Prop where
  | told {v : Value} {a : Answer} (value : reply = .value v) (tells : ∀ b, q.Tells v b ↔ b = a) :
    ComesFrom q reply (.ok a)
  | untold (text : String)
    (nothing : ∀ v, reply = .value v → (∀ a, ¬ q.Tells v a) ∧ ¬ q.TellsWide v) :
    ComesFrom q reply (.error (.rpc q.request.method text))
  | wide {v : Value} (value : reply = .value v) (wide : q.TellsWide v) :
    ComesFrom q reply (.fault .wideNumber)

/-- The answer is made of what a reader takes, and that is what is told. -/
theorem comesFrom_read {q : Question} {α : Type} {read : Value → Option α}
    {tells : Value → α → Prop} {make : α → Answer} (reply : Reply)
    (hread : ∀ v a, read v = some a ↔ tells v a)
    (htells : ∀ v b, q.Tells v b ↔ ∃ a, tells v a ∧ b = make a) (hfits : ∀ v, ¬ q.TellsWide v) :
    ComesFrom q reply (.ofExcept (make <$> reply.read q.method read)) := by
  rcases reply.read_cases q.method read with ⟨v, a, hv, ha, hresult⟩ | ⟨text, hnone, hresult⟩
  · rw [hresult]
    apply ComesFrom.told hv
    intro b
    rw [htells]
    constructor
    · intro ⟨a', ha', hb⟩
      rw [(hread v a').mpr ha', Option.some.injEq] at ha
      rw [hb, ha]
    · intro hb
      exact ⟨a, (hread v a).mp ha, hb⟩
  · rw [hresult]
    apply ComesFrom.untold text
    intro v hv
    refine ⟨?_, hfits v⟩
    intro b hb
    obtain ⟨a, ha, _⟩ := (htells v b).mp hb
    have hsome := (hread v a).mpr ha
    rw [hnone v hv] at hsome
    cases hsome

theorem comesFrom_latestBlock (reply : Reply) :
    ComesFrom .latestBlock reply (answer .latestBlock reply) := by
  have hfits (v : Value) : ¬ Question.latestBlock.TellsWide v := by
    intro ⟨account, n, hq, _⟩
    cases hq
  have horNull := orNull_eq_some_iff headerOf?_eq_some_iff rfl
  unfold answer
  rcases reply.read_cases Question.latestBlock.method (orNull headerOf?) with
    ⟨v, kept, hv, hkept, hresult⟩ | ⟨text, hnone, hresult⟩
  · simp only [hresult]
    cases kept with
    | none =>
      -- null is no block
      have hnull : v = .null := (horNull v none).mp hkept
      apply ComesFrom.untold "No latest block"
      intro other hother
      cases hv.symm.trans hother
      refine ⟨?_, hfits v⟩
      intro a ⟨h, htold, _⟩
      rw [hnull] at htold
      cases htold.block
    | some h =>
      apply ComesFrom.told hv
      intro b
      constructor
      · intro ⟨h', htold, hb⟩
        rw [(horNull v (some h')).mpr htold, Option.some.injEq, Option.some.injEq] at hkept
        rw [hb, hkept]
      · intro hb
        exact ⟨h, (horNull v (some h)).mp hkept, hb⟩
  · simp only [hresult]
    apply ComesFrom.untold text
    intro v hv
    refine ⟨?_, hfits v⟩
    intro a ⟨h, htold, _⟩
    have hsome := (horNull v (some h)).mpr htold
    rw [hnone v hv] at hsome
    cases hsome

theorem comesFrom_pendingNonce (account : Account) (reply : Reply) :
    ComesFrom (.pendingNonce account) reply (answer (.pendingNonce account) reply) := by
  unfold answer
  rcases reply.read_cases (Question.pendingNonce account).method amount? with
    ⟨v, w, hv, hw, hresult⟩ | ⟨text, hnone, hresult⟩
  · have hquantity : v.quantity? 32 = some w.toNat := (amount?_eq_some_iff v w).mp hw
    simp only [hresult, narrow]
    by_cases hsize : w.toNat < UInt64.size
    · simp only [if_pos hsize]
      apply ComesFrom.told hv
      intro b
      constructor
      · intro ⟨n, hn, hb⟩
        rw [hquantity, Option.some.injEq] at hn
        rw [hb, hn, UInt64.ofNat_toNat]
      · intro hb
        refine ⟨UInt64.ofNat w.toNat, ?_, hb⟩
        rw [hquantity, UInt64.toNat_ofNat_of_lt' hsize]
    · simp only [if_neg hsize]
      exact ComesFrom.wide hv ⟨account, w.toNat, rfl, hquantity, Nat.le_of_not_lt hsize⟩
  · simp only [hresult]
    apply ComesFrom.untold text
    intro v hv
    have hquantity : v.quantity? 32 = none := by
      have hunread := hnone v hv
      rwa [amount?_eq, Option.map_eq_none_iff] at hunread
    constructor
    · intro a ⟨n, hn, _⟩
      rw [hquantity] at hn
      cases hn
    · intro ⟨_, n, _, hn, _⟩
      rw [hquantity] at hn
      cases hn

theorem comesFrom_answer (q : Question) (reply : Reply) : ComesFrom q reply (answer q reply) := by
  cases q with
  | latestBlock => exact comesFrom_latestBlock reply
  | pendingNonce account => exact comesFrom_pendingNonce account reply
  | blockNumber => exact comesFrom_read reply number64?_eq_some_iff (fun _ _ => .rfl) nofun
  | receipt hash =>
    exact comesFrom_read reply (orNull_eq_some_iff receiptOf?_eq_some_iff rfl)
      (fun _ _ => .rfl) nofun
  | gasPrice => exact comesFrom_read reply amount?_eq_some_iff (fun _ _ => .rfl) nofun
  | balance account => exact comesFrom_read reply amount?_eq_some_iff (fun _ _ => .rfl) nofun
  | broadcast raw => exact comesFrom_read reply hash?_eq_some_iff (fun _ _ => .rfl) nofun
  | newHeads => exact comesFrom_read reply amount?_eq_some_iff (fun _ _ => .rfl) nofun

/-- Whatever the reply: the answer is what the value tells, an error names the call, and the only
fault is for a nonce that passes 64 bits. -/
theorem answers_exact_unless_wide (q : Question) (reply : Reply) :
    (∀ a, answer q reply = .ok a ↔ ∃ v, reply = .value v ∧ q.Tells v a) ∧
    (∀ e, answer q reply = .error e → ∃ text, e = .rpc q.request.method text) ∧
    (∀ f, answer q reply = .fault f ↔
      f = .wideNumber ∧ ∃ v, reply = .value v ∧ q.TellsWide v) := by
  have hcomes := comesFrom_answer q reply
  generalize answer q reply = outcome at hcomes
  cases hcomes with
  | told hv htells =>
    refine ⟨?_, nofun, ?_⟩
    · intro b
      rw [Outcome.ok.injEq]
      constructor
      · intro heq
        exact ⟨_, hv, (htells b).mpr heq.symm⟩
      · intro ⟨v, hv', hb⟩
        cases hv.symm.trans hv'
        exact ((htells b).mp hb).symm
    · intro f
      constructor
      · nofun
      · intro ⟨_, v, hv', hwide⟩
        cases hv.symm.trans hv'
        exact absurd ((htells _).mpr rfl) (hwide.not_tells _)
  | untold text hnothing =>
    refine ⟨?_, ?_, ?_⟩
    · intro a
      constructor
      · nofun
      · intro ⟨v, hv, ha⟩
        exact absurd ha ((hnothing v hv).1 a)
    · intro e heq
      exact ⟨text, (Outcome.error.inj heq).symm⟩
    · intro f
      constructor
      · nofun
      · intro ⟨_, v, hv, hwide⟩
        exact absurd hwide (hnothing v hv).2
  | wide hv hwide =>
    refine ⟨?_, nofun, ?_⟩
    · intro a
      constructor
      · nofun
      · intro ⟨v, hv', ha⟩
        cases hv.symm.trans hv'
        exact absurd ha (hwide.not_tells a)
    · intro f
      rw [Outcome.fault.injEq]
      constructor
      · intro heq
        exact ⟨heq.symm, _, hv, hwide⟩
      · intro ⟨heq, _⟩
        exact heq.symm

/-- A nonce of `2 ^ 64` gets neither an answer nor an error. -/
theorem wide_nonce_fault :
    answer (.pendingNonce Account.zero) (.value (.text "0x10000000000000000")) =
      .fault .wideNumber := by
  decide +kernel

end ChainWatch.Node
