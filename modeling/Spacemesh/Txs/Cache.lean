import Spacemesh.Txs.AccountCache

/-!
# The conservative transaction cache

`Cache` of the txs package: one `accountCache` per principal with pending
transactions, and the `cachedTXs` map the accounts share. The database and the
applied state are inputs: `stateF` gives an address's nonce and balance, and the
result of a database write is passed in. A candidate holds the `*NanoTX` that
`cachedTXs` holds under its id, so a change through the map (`updateLayer`,
`applyEmptyLayer`) is one of that candidate too: the model keeps a copy in each and
changes both (`Cache.setShared`), the transaction id naming the shared `NanoTX`.
-/

namespace Spacemesh.Txs

/-- The candidate of `tid` with the layer and block of the `NanoTX` it shares. -/
def Candidate.share (tid : ℕ) (ntx : NanoTX) (c : Candidate) : Candidate :=
  if c.id = tid then { c with best := { c.best with layer := ntx.layer, block := ntx.block } } else c

structure Cache where
  pending : ℕ → Option AccountCache
  cachedTXs : CachedTXs

abbrev StateFunc := ℕ → UInt64 × UInt64

section Cache

variable (better : NanoTX → NanoTX → Seed → Bool) (stateF : StateFunc)

namespace Cache

/-- `NewCache`. -/
def new : Cache := ⟨fun _ => none, fun _ => none⟩

def account (c : Cache) (addr : ℕ) : AccountCache :=
  (c.pending addr).getD ⟨addr, [], (stateF addr).1, (stateF addr).2, false⟩

def createAcctIfNotPresent (c : Cache) (addr : ℕ) : Cache :=
  { c with pending := Function.update c.pending addr (some (c.account stateF addr)) }

def store (c : Cache) (addr : ℕ) (ac : AccountCache) (m : CachedTXs) : Cache :=
  ⟨Function.update c.pending addr (some ac), m⟩

def cleanupAccounts (c : Cache) (accounts : List ℕ) : Cache :=
  accounts.foldl (fun c addr =>
    match c.pending addr with
    | some ac => if ac.shouldEvict then { c with pending := Function.update c.pending addr none } else c
    | none => c) c

end Cache

def acceptable : Except TxError Unit → Bool
  | .ok _ => true
  | .error (.tooManyNonce _) => true
  | .error _ => false

namespace Cache

/-- `Cache.Add`; `dbWrite` is what `transactions.Add` returns. -/
def add (c : Cache) (tx : NanoTX) (dbWrite : Except String Unit) : Cache × Except TxError Unit :=
  let c1 := c.createAcctIfNotPresent stateF tx.principal
  let r := (c1.account stateF tx.principal).add better c1.cachedTXs tx
  let c2 := c1.store tx.principal r.1 r.2.1
  (c2.cleanupAccounts [tx.principal],
    if acceptable r.2.2 then dbWrite.mapError TxError.db else r.2.2)

/-- One principal of `BuildFromTXs`: its account gets its transactions as a batch. -/
def buildAccount (rst : List NanoTX) (seed : Seed) (c : Cache) (p : ℕ) : Cache :=
  let c1 := c.createAcctIfNotPresent stateF p
  let r := (c1.account stateF p).addBatch better c1.cachedTXs
    (groupByNonce (rst.filter (·.principal = p))) seed
  c1.store p r.1 r.2

def buildFromTXs (c : Cache) (rst : List NanoTX) (seed : Seed) : Cache :=
  let principals := (rst.map (·.principal)).dedup
  (principals.foldl (buildAccount better stateF rst seed) { c with pending := fun _ => none }).cleanupAccounts
    principals

/-- A change of the `NanoTX` of `tid` through `cachedTXs`: the map's entry becomes `ntx`, and
the candidate that shares it sees its layer and block. -/
def setShared (c : Cache) (tid : ℕ) (ntx : NanoTX) : Cache :=
  ⟨fun addr => (c.pending addr).map fun ac => { ac with txsByNonce := ac.txsByNonce.map (Candidate.share tid ntx) },
    Function.update c.cachedTXs tid (some ntx)⟩

def get (c : Cache) (tid : ℕ) : Option NanoTX := c.cachedTXs tid

def has (c : Cache) (tid : ℕ) : Bool := (c.cachedTXs tid).isSome

/-- `RevertToLayer` after the layers are undone: `buildFromScratch` builds the
cache from the pending transactions the database returns, with no seed. A
database error leaves the cache as it is. -/
def revertToLayer (c : Cache) (rst : Except String (List NanoTX)) : Cache × Except TxError Unit :=
  match rst with
  | .error e => (c, .error (.db e))
  | .ok rst => (c.buildFromTXs better stateF rst [], .ok ())

/-- `applyEmptyLayer`: the cached transactions of layer `lid`, visited in the order `keys` of
Go's iteration over `cachedTXs`, move to the next layer and block that include them, as
`getNextIncluded` returns them. Its first error is returned, the transactions visited before
it already moved. -/
def applyEmptyLayer (lid : UInt32) (nextIncluded : ℕ → Except String (UInt32 × ℕ)) :
    Cache → List ℕ → Cache × Except String Unit
  | c, [] => (c, .ok ())
  | c, tid :: keys =>
    match c.cachedTXs tid with
    | some ntx =>
      if ntx.layer = lid then
        match nextIncluded tid with
        | .error e => (c, .error e)
        | .ok (l, b) => applyEmptyLayer lid nextIncluded (c.setShared tid { ntx with layer := l, block := b }) keys
      else applyEmptyLayer lid nextIncluded c keys
    | none => applyEmptyLayer lid nextIncluded c keys

/-- One `resetAfterApply` of `ApplyLayer`: the account of `addr` (made first if it
is not pending) restarts from the applied state, with the pending transactions
`pendingDB` returns for it. -/
def resetAccount (pendingDB : ℕ → Except String (List NanoTX)) (c : Cache) (addr : ℕ) :
    Cache × Except TxError Unit :=
  let r := (c.account stateF addr).resetAfterApply better c.cachedTXs (stateF addr).1 (stateF addr).2
    (pendingDB addr)
  (c.store addr r.1 r.2.1, r.2.2)

/-- A reset loop of `ApplyLayer`, which returns at the first error. -/
def resetLoop (pendingDB : ℕ → Except String (List NanoTX)) : Cache → List ℕ → Cache × Except TxError Unit
  | c, [] => (c, .ok ())
  | c, addr :: rest =>
    let r := c.resetAccount better stateF pendingDB addr
    match r.2 with
    | .error e => (r.1, .error e)
    | .ok () => resetLoop pendingDB r.1 rest

/-- `ApplyLayer` of a block, once its results are written: `results` and
`ineffective` are the principals of the applied and of the ineffective
transactions, and `pendingKeys` the accounts of `pending` in the order Go's map
iteration gives. The principals with results are reset first; then those with
only ineffective transactions that were pending, and every other account with
`moreInDB`. The accounts touched are cleaned up on every return. -/
def applyLayer (c : Cache) (results ineffective pendingKeys : List ℕ)
    (pendingDB : ℕ → Except String (List NanoTX)) : Cache × Except TxError Unit :=
  let byPrincipal := results.dedup
  let toCleanup := (results ++ ineffective).dedup
  let toReset := ineffective.filter fun p => p ∉ byPrincipal ∧ (c.pending p).isSome
  let r1 := c.resetLoop better stateF pendingDB byPrincipal
  match r1.2 with
  | .error e => (r1.1.cleanupAccounts toCleanup, .error e)
  | .ok () =>
    let more := pendingKeys.filter fun p => p ∉ toCleanup ∧ (r1.1.pending p).map (·.moreInDB) = some true
    let r2 := r1.1.resetLoop better stateF pendingDB (toReset ++ more).dedup
    (r2.1.cleanupAccounts toCleanup, r2.2)

def getProjection (c : Cache) (addr : ℕ) : UInt64 × UInt64 :=
  match c.pending addr with
  | none => stateF addr
  | some ac => (ac.nextNonce, ac.availBalance)

/-- `Cache.updateLayer`: `UpdateLayerMaybe(lid, bid)` on the shared transaction of each id in
turn. The loop returns at the first id that is not cached. `NanoTX.UpdateLayerMaybe` is not in
the sources; it is the parameter `updateLayerMaybe`. -/
def updateLayer (updateLayerMaybe : UInt32 → ℕ → NanoTX → NanoTX) (lid : UInt32) (bid : ℕ) :
    Cache → List ℕ → Cache
  | c, [] => c
  | c, tid :: tids =>
    match c.cachedTXs tid with
    | none => c
    | some ntx => updateLayer updateLayerMaybe lid bid (c.setShared tid (updateLayerMaybe lid bid ntx)) tids

/-- `types.EmptyBlockID`. -/
def emptyBlockID : ℕ := 0

/-- The body of `LinkTXsWithProposal` and `LinkTXsWithBlock`: nothing for no ids, then
the database link `dbLink`, whose error is returned under `context`, then
`updateLayer`. -/
def linkTXs (updateLayerMaybe : UInt32 → ℕ → NanoTX → NanoTX) (context : String) (c : Cache)
    (dbLink : Except String Unit) (lid : UInt32) (bid : ℕ) (tids : List ℕ) : Cache × Except String Unit :=
  if tids = [] then (c, .ok ())
  else match dbLink with
    | .error e => (c, .error (context ++ ": " ++ e))
    | .ok () => (c.updateLayer updateLayerMaybe lid bid tids, .ok ())

/-- `LinkTXsWithProposal`; `dbLink` is what `addToProposal` returns. -/
def linkTXsWithProposal (updateLayerMaybe : UInt32 → ℕ → NanoTX → NanoTX) (c : Cache)
    (dbLink : Except String Unit) (lid : UInt32) (tids : List ℕ) : Cache × Except String Unit :=
  c.linkTXs updateLayerMaybe "linking txs to proposal" dbLink lid emptyBlockID tids

/-- `LinkTXsWithBlock`; `dbLink` is what `addToBlock` returns. -/
def linkTXsWithBlock (updateLayerMaybe : UInt32 → ℕ → NanoTX → NanoTX) (c : Cache)
    (dbLink : Except String Unit) (lid : UInt32) (bid : ℕ) (tids : List ℕ) : Cache × Except String Unit :=
  c.linkTXs updateLayerMaybe "add to block" dbLink lid bid tids

end Cache

def sampleTx : NanoTX := ⟨1, 7, 0, 5, 0, 0⟩

/-- Rebuilding the cache keeps the entries of `cachedTXs`: after `Add` of
`sampleTx` (the database write succeeding) and `BuildFromTXs` of no transactions,
no account is pending, yet `Has` and `Get` still report `sampleTx`. -/
theorem buildFromTXs_keeps_stale_entry (better : NanoTX → NanoTX → Seed → Bool) :
    let c := ((Cache.new.add better (fun _ => (0, 10)) sampleTx (.ok ())).1).buildFromTXs better
      (fun _ => (0, 10)) [] []
    (∀ addr, c.pending addr = none) ∧ c.has sampleTx.id = true ∧ c.get sampleTx.id = some sampleTx := by
  exact ⟨fun _ => rfl, rfl, rfl⟩

/-! ## A failed database write -/

theorem AccountCache.add_of_empty (ac : AccountCache) (cached : CachedTXs) (tx : NanoTX)
    (hempty : ac.txsByNonce = []) (hn : ac.startNonce ≤ tx.nonce) (hb : tx.maxSpending ≤ ac.startBalance) :
    ac.add better cached tx =
      ({ ac with txsByNonce := [⟨{ tx with layer := 0, block := 0 }, ac.startBalance - tx.maxSpending⟩] },
        cached.insert { tx with layer := 0, block := 0 }, .ok ()) := by
  have hpre : ac.precheck { tx with layer := 0, block := 0 } =
      (ac, .ok (none, ⟨{ tx with layer := 0, block := 0 }, ac.startBalance - tx.maxSpending⟩)) := by
    simp [AccountCache.precheck, hempty, AccountCache.findPrev, maxTXsPerAcct, hb]
  simp [AccountCache.add, hn, AccountCache.accept, hpre, AccountCache.acceptAt, hempty, propagate]

/-- `Cache.Add` is not undone when the database write fails: a transaction that an
account with no candidate accepts stays its candidate and stays in `cachedTXs`,
while the call returns the write's error. -/
theorem add_failed_write_keeps_candidate (c : Cache) (tx : NanoTX) (e : String)
    (hempty : (c.account stateF tx.principal).txsByNonce = [])
    (hn : (c.account stateF tx.principal).startNonce ≤ tx.nonce)
    (hb : tx.maxSpending ≤ (c.account stateF tx.principal).startBalance) :
    (c.add better stateF tx (.error e)).2 = .error (.db e) ∧
      ((c.add better stateF tx (.error e)).1.pending tx.principal).map (·.txsByNonce) =
        some [⟨{ tx with layer := 0, block := 0 }, (c.account stateF tx.principal).startBalance - tx.maxSpending⟩] ∧
      (c.add better stateF tx (.error e)).1.cachedTXs tx.id = some { tx with layer := 0, block := 0 } := by
  have hacc : (c.createAcctIfNotPresent stateF tx.principal).account stateF tx.principal =
      c.account stateF tx.principal := by
    simp [Cache.account, Cache.createAcctIfNotPresent]
  simp only [Cache.add, hacc, AccountCache.add_of_empty better _ _ tx hempty hn hb]
  simp [Cache.cleanupAccounts, Cache.store, AccountCache.shouldEvict, acceptable, Except.mapError,
    CachedTXs.insert]

/-- A new cache over an applied state of nonce `0` and balance `10`, any transaction
preferred: `Cache.Add` of `sampleTx` whose database write fails returns the error and
keeps the transaction. -/
theorem add_failed_write_keeps_candidate_sample :
    (Cache.new.add (fun _ _ _ => true) (fun _ => (0, 10)) sampleTx (.error "disk full")).2 = .error (.db "disk full") ∧
      ((Cache.new.add (fun _ _ _ => true) (fun _ => (0, 10)) sampleTx (.error "disk full")).1.pending 7).map (·.txsByNonce) =
        some [⟨{ sampleTx with layer := 0, block := 0 }, 10 - 5⟩] ∧
      (Cache.new.add (fun _ _ _ => true) (fun _ => (0, 10)) sampleTx (.error "disk full")).1.cachedTXs 1 =
        some { sampleTx with layer := 0, block := 0 } :=
  add_failed_write_keeps_candidate (fun _ _ _ => true) (fun _ => (0, 10)) Cache.new sampleTx "disk full" rfl (by decide)
    (by decide)

/-! ## Tagging the transactions of a proposal or a block -/

section UpdateLayer

variable (f : UInt32 → ℕ → NanoTX → NanoTX) (lid : UInt32) (bid : ℕ)

theorem updateLayer_of_not_mem : ∀ (c : Cache) (tids : List ℕ) {id : ℕ}, id ∉ tids →
    (c.updateLayer f lid bid tids).cachedTXs id = c.cachedTXs id
  | _, [], _, _ => rfl
  | c, tid :: tids, id, h => by
    have hne : id ≠ tid := fun he => h (he ▸ List.mem_cons_self _ _)
    simp only [Cache.updateLayer]
    split
    · rfl
    · rw [updateLayer_of_not_mem _ tids fun hm => h (List.mem_cons_of_mem _ hm)]
      exact Function.update_noteq hne _ _

theorem updateLayer_stops_at_uncached : ∀ (c : Cache) (pre post : List ℕ) {tid : ℕ},
    c.cachedTXs tid = none → ∀ id ∉ pre, (c.updateLayer f lid bid (pre ++ tid :: post)).cachedTXs id = c.cachedTXs id
  | c, [], post, tid, htid, id, _ => by simp [Cache.updateLayer, htid]
  | c, p :: pre, post, tid, htid, id, hid => by
    have hne : id ≠ p := fun he => hid (he ▸ List.mem_cons_self _ _)
    simp only [List.cons_append, Cache.updateLayer]
    split
    · rfl
    · rename_i ntx hp
      have hpt : tid ≠ p := fun he => by rw [he, hp] at htid; cases htid
      exact (updateLayer_stops_at_uncached (c.setShared p (f lid bid ntx))
        pre post (by simpa [Cache.setShared, Function.update_noteq hpt] using htid) id
        fun hm => hid (List.mem_cons_of_mem _ hm)).trans (Function.update_noteq hne _ _)

/-- Linking a proposal's or a block's transactions, the database link succeeding:
once an id of the batch is not cached, no cached transaction whose id comes only
after it is tagged with the layer. -/
theorem linkTXs_skips_after_uncached (c : Cache) (pre post : List ℕ) {tid : ℕ} (htid : c.cachedTXs tid = none)
    (id : ℕ) (hid : id ∉ pre) :
    (c.linkTXsWithProposal f (.ok ()) lid (pre ++ tid :: post)).1.cachedTXs id = c.cachedTXs id ∧
      (c.linkTXsWithBlock f (.ok ()) lid bid (pre ++ tid :: post)).1.cachedTXs id = c.cachedTXs id := by
  simp only [Cache.linkTXsWithProposal, Cache.linkTXsWithBlock, Cache.linkTXs, List.append_ne_nil_of_right_ne_nil _
    (List.cons_ne_nil _ _), if_false]
  exact ⟨updateLayer_stops_at_uncached f lid _ c pre post htid id hid,
    updateLayer_stops_at_uncached f lid bid c pre post htid id hid⟩

end UpdateLayer

/-- A cache holding `sampleTx` (id `1`) and no id `2`, and an `UpdateLayerMaybe` that
tags an untagged transaction: linking the batch `[2, 1]` to block `3` of layer `9`
leaves `sampleTx` untagged. -/
theorem linkTXs_skips_after_uncached_sample :
    (Cache.new.add (fun _ _ _ => true) (fun _ => (0, 10)) sampleTx (.ok ())).1.cachedTXs 1 =
        some { sampleTx with layer := 0, block := 0 } ∧
      (fun (lid : UInt32) (bid : ℕ) (ntx : NanoTX) =>
        if ntx.layer = 0 ∨ lid < ntx.layer then { ntx with layer := lid, block := bid } else ntx) 9 3
          { sampleTx with layer := 0, block := 0 } ≠ { sampleTx with layer := 0, block := 0 } ∧
      (((Cache.new.add (fun _ _ _ => true) (fun _ => (0, 10)) sampleTx (.ok ())).1.linkTXsWithProposal
          (fun lid bid ntx => if ntx.layer = 0 ∨ lid < ntx.layer then { ntx with layer := lid, block := bid } else ntx)
          (.ok ()) 9 ([] ++ 2 :: [1])).1.cachedTXs 1 =
        (Cache.new.add (fun _ _ _ => true) (fun _ => (0, 10)) sampleTx (.ok ())).1.cachedTXs 1 ∧
      ((Cache.new.add (fun _ _ _ => true) (fun _ => (0, 10)) sampleTx (.ok ())).1.linkTXsWithBlock
          (fun lid bid ntx => if ntx.layer = 0 ∨ lid < ntx.layer then { ntx with layer := lid, block := bid } else ntx)
          (.ok ()) 9 3 ([] ++ 2 :: [1])).1.cachedTXs 1 =
        (Cache.new.add (fun _ _ _ => true) (fun _ => (0, 10)) sampleTx (.ok ())).1.cachedTXs 1) :=
  ⟨rfl, by decide, linkTXs_skips_after_uncached _ 9 3 _ [] [1] rfl 1 (List.not_mem_nil 1)⟩

end Cache

end Spacemesh.Txs
