import Mathlib.Data.List.Sort

/-!
# Per-account transaction cache

`accountCache` of the txs package: the mempool candidates of one principal, one
per nonce, each with the balance left after it. Balances and nonces are `uint64`
in the source and `UInt64` here, so every addition and subtraction wraps as Go's
does. `NanoTX.Better` is not in the sources; it is the parameter `better`.
The transaction ids the shared `cachedTXs` map is keyed by are `ℕ`.
-/

namespace Spacemesh.Txs

structure NanoTX where
  id : ℕ
  principal : ℕ
  nonce : UInt64
  maxSpending : UInt64
  layer : UInt32
  block : ℕ
  deriving DecidableEq, Repr

structure Candidate where
  best : NanoTX
  postBalance : UInt64
  deriving DecidableEq, Repr

namespace Candidate

def nonce (c : Candidate) : UInt64 := c.best.nonce

def maxSpending (c : Candidate) : UInt64 := c.best.maxSpending

def id (c : Candidate) : ℕ := c.best.id

end Candidate

def maxTXsPerAcct : ℕ := 100

def maxTXsPerNonce : ℕ := 100

/-- `accountCache` without its shared `cachedTXs` map, which is passed along. -/
structure AccountCache where
  addr : ℕ
  txsByNonce : List Candidate
  startNonce : UInt64
  startBalance : UInt64
  moreInDB : Bool
  deriving DecidableEq, Repr

abbrev CachedTXs := ℕ → Option NanoTX

def CachedTXs.insert (m : CachedTXs) (ntx : NanoTX) : CachedTXs := Function.update m ntx.id (some ntx)

def CachedTXs.erase (m : CachedTXs) (id : ℕ) : CachedTXs := Function.update m id none

inductive TxError
  | badNonce
  | insufficientBalance
  | tooManyNonce (len : ℕ)
  | db (msg : String)
  | panic (msg : String)
  deriving DecidableEq, Repr

/-- `blockSeed`. -/
abbrev Seed := List UInt8

section Cache

variable (better : NanoTX → NanoTX → Seed → Bool)

namespace AccountCache

variable (ac : AccountCache)

def nextNonce : UInt64 :=
  match ac.txsByNonce.getLast? with
  | none => ac.startNonce
  | some c => c.nonce + 1

def availBalance : UInt64 :=
  match ac.txsByNonce.getLast? with
  | none => ac.startBalance
  | some c => c.postBalance

/-- The backward scan of `precheck`: the last candidate whose nonce is at most `n`,
with the candidates before and after it. -/
def findPrev (n : UInt64) : List Candidate → Option (List Candidate × Candidate × List Candidate)
  | [] => none
  | c :: cs =>
    match findPrev n cs with
    | some (f, d, r) => some (c :: f, d, r)
    | none => if c.nonce ≤ n then some ([], c, cs) else none

def precheck (ntx : NanoTX) :
    AccountCache × Except TxError (Option (List Candidate × Candidate × List Candidate) × Candidate) :=
  if maxTXsPerAcct ≤ ac.txsByNonce.length then
    ({ ac with moreInDB := true }, .error (.tooManyNonce ac.txsByNonce.length))
  else
    let prev := findPrev ntx.nonce ac.txsByNonce
    let balance := match prev with
      | none => ac.startBalance
      | some (_, c, _) => if c.nonce = ntx.nonce then c.postBalance + c.maxSpending else c.postBalance
    if balance < ntx.maxSpending then (ac, .error .insufficientBalance)
    else (ac, .ok (prev, ⟨ntx, balance - ntx.maxSpending⟩))

end AccountCache

/-- The balance-propagation loop of `accept`: a later candidate stays, with its new
post balance, while the balance covers its spending, and is removed otherwise.
Returns the kept and the removed candidates. -/
def propagate : UInt64 → List Candidate → List Candidate × List Candidate
  | _, [] => ([], [])
  | b, c :: cs =>
    if c.maxSpending ≤ b then
      ({ c with postBalance := b - c.maxSpending } :: (propagate (b - c.maxSpending) cs).1,
        (propagate (b - c.maxSpending) cs).2)
    else ((propagate b cs).1, c :: (propagate b cs).2)

namespace AccountCache

/-- The end of `accept`: `cand` placed between `front` and `rest`, `ntx` cached, and
the new balance propagated through `rest`. -/
def acceptAt (ac : AccountCache) (cached : CachedTXs) (ntx : NanoTX) (front : List Candidate)
    (cand : Candidate) (rest : List Candidate) : AccountCache × CachedTXs :=
  let r := propagate cand.postBalance rest
  ({ ac with txsByNonce := front ++ cand :: r.1, moreInDB := ac.moreInDB || !r.2.isEmpty },
    r.2.foldl (fun m c => m.erase c.id) (cached.insert ntx))

def accept (ac : AccountCache) (cached : CachedTXs) (ntx : NanoTX) (seed : Seed) :
    AccountCache × CachedTXs × Except TxError Unit :=
  match ac.precheck ntx with
  | (ac', .error e) => (ac', cached, .error e)
  | (_, .ok (none, cand)) =>
    let r := ac.acceptAt cached ntx [] cand ac.txsByNonce
    (r.1, r.2, .ok ())
  | (_, .ok (some (front, prev, rest), cand)) =>
    if prev.nonce < ntx.nonce then
      let r := ac.acceptAt cached ntx (front ++ [prev]) cand rest
      (r.1, r.2, .ok ())
    else if !better ntx prev.best seed then (ac, cached, .ok ())
    else
      let r := ac.acceptAt (cached.erase prev.id) ntx front ⟨ntx, cand.postBalance⟩ rest
      (r.1, r.2, .ok ())

def add (ac : AccountCache) (cached : CachedTXs) (tx : NanoTX) :
    AccountCache × CachedTXs × Except TxError Unit :=
  if tx.nonce < ac.startNonce then (ac, cached, .error .badNonce)
  else accept better ac cached { tx with layer := 0, block := 0 } []

end AccountCache

def findBest (ntxs : List NanoTX) (balance : UInt64) (seed : Seed) : Option NanoTX :=
  ntxs.foldl (fun best ntx =>
    if ntx.maxSpending ≤ balance ∧ (best.isNone ∨ (best.map fun b => better ntx b seed) = some true)
    then some ntx else best) none

/-- The loop of `addBatch` over the sorted nonces; `n` counts the nonces added. -/
def addBatchLoop (nonce2TXs : List (UInt64 × List NanoTX)) (seed : Seed) :
    List UInt64 → AccountCache → CachedTXs → UInt64 → ℕ → AccountCache × CachedTXs × ℕ
  | [], ac, cached, _, n => (ac, cached, n)
  | nonce :: rest, ac, cached, balance, n =>
    match findBest better ((nonce2TXs.lookup nonce).getD []) balance seed with
    | none => addBatchLoop nonce2TXs seed rest ac cached balance n
    | some best =>
      let r := ac.accept better cached best seed
      match r.2.2 with
      | .error (.tooManyNonce _) => (r.1, r.2.1, n)
      | .error _ => addBatchLoop nonce2TXs seed rest r.1 r.2.1 balance n
      | .ok () => addBatchLoop nonce2TXs seed rest r.1 r.2.1 r.1.availBalance (n + 1)

namespace AccountCache

def addBatch (ac : AccountCache) (cached : CachedTXs) (nonce2TXs : List (UInt64 × List NanoTX))
    (seed : Seed) : AccountCache × CachedTXs :=
  let sortedNonce := ((nonce2TXs.map Prod.fst).filter (ac.nextNonce ≤ ·)).insertionSort (· ≤ ·)
  let r := addBatchLoop better nonce2TXs seed sortedNonce ac cached ac.availBalance 0
  ({ r.1 with moreInDB := decide (r.2.2 < sortedNonce.length) }, r.2.1)

end AccountCache

/-- `groupTXsByPrincipal` for one principal: its transactions by nonce, at most
`maxTXsPerNonce` of them per nonce, in arrival order. -/
def addToGroup (ntx : NanoTX) : List (UInt64 × List NanoTX) → List (UInt64 × List NanoTX)
  | [] => [(ntx.nonce, [ntx])]
  | (n, l) :: gs =>
    if n = ntx.nonce then (if l.length < maxTXsPerNonce then (n, l ++ [ntx]) :: gs else (n, l) :: gs)
    else (n, l) :: addToGroup ntx gs

def groupByNonce (mtxs : List NanoTX) : List (UInt64 × List NanoTX) :=
  mtxs.foldl (fun gs ntx => addToGroup ntx gs) []

namespace AccountCache

/-- `addPendingFromNonce`: the account's pending transactions as the database
returns them (with their next including layer and block already read), or the
database error. -/
def addPendingFromNonce (ac : AccountCache) (cached : CachedTXs)
    (pending : Except String (List NanoTX)) : AccountCache × CachedTXs × Except TxError Unit :=
  match pending with
  | .error e => (ac, cached, .error (.db e))
  | .ok [] => ({ ac with moreInDB := false }, cached, .ok ())
  | .ok mtxs =>
    match mtxs.filter (·.principal = ac.addr) with
    | [] => (ac, cached, .error (.panic "no txs for account after grouping"))
    | own =>
      let r := ac.addBatch better cached (groupByNonce own) []
      (r.1, r.2, .ok ())

def resetAfterApply (ac : AccountCache) (cached : CachedTXs) (nextNonce newBalance : UInt64)
    (pending : Except String (List NanoTX)) : AccountCache × CachedTXs × Except TxError Unit :=
  addPendingFromNonce better
    { ac with txsByNonce := [], startNonce := nextNonce, startBalance := newBalance }
    (ac.txsByNonce.foldl (fun m c => m.erase c.id) cached) pending

def shouldEvict (ac : AccountCache) : Bool := ac.txsByNonce.isEmpty && !ac.moreInDB

end AccountCache

end Cache

end Spacemesh.Txs
