import Mathlib.Algebra.Group.Nat.Basic
import Mathlib.Algebra.Order.Ring.Nat
import Mathlib.Data.List.Dedup
import Spacemesh.Txs.Cache

/-!
# The account-cache invariant

Every account state that `Cache.Add`, `BuildFromTXs`, `ApplyLayer` of a block or of an
empty layer, `LinkTXsWithProposal`, `LinkTXsWithBlock` and `RevertToLayer` (which rebuilds)
can reach keeps its candidates in increasing
nonce order from `startNonce`, at most `maxTXsPerAcct` of them, with post
balances that form an exact chain from `startBalance` (`Chain`). So no `uint64`
subtraction of the cache wraps, nor the re-addition `postBalance + maxSpending`
of `precheck` (`accountCache_invariant`).
-/

namespace Spacemesh.Txs

theorem uint64_le_iff {a b : UInt64} : a ≤ b ↔ a.toNat ≤ b.toNat := Iff.rfl

theorem uint64_lt_iff {a b : UInt64} : a < b ↔ a.toNat < b.toNat := Iff.rfl

/-! ## The balance chain -/

/-- The post balances of the candidates follow from `b`: each spending is at most
what is left before it, and the post balance is what is left after it. -/
def Chain : ℕ → List Candidate → Prop
  | _, [] => True
  | b, c :: cs => c.maxSpending.toNat ≤ b ∧ c.postBalance.toNat = b - c.maxSpending.toNat ∧
      Chain c.postBalance.toNat cs

def lastPost (b : ℕ) (l : List Candidate) : ℕ := (l.getLast?.map fun c => c.postBalance.toNat).getD b

@[simp] theorem lastPost_nil (b : ℕ) : lastPost b [] = b := rfl

@[simp] theorem lastPost_cons (b : ℕ) (c : Candidate) (cs : List Candidate) :
    lastPost b (c :: cs) = lastPost c.postBalance.toNat cs := by
  simp [lastPost, List.getLast?_cons]

theorem chain_append {l₁ l₂ : List Candidate} :
    ∀ {b}, Chain b (l₁ ++ l₂) ↔ Chain b l₁ ∧ Chain (lastPost b l₁) l₂ := by
  induction l₁ with
  | nil => simp [Chain]
  | cons c cs ih =>
    intro b
    show (_ ∧ _ ∧ Chain _ (cs ++ l₂)) ↔ _
    rw [ih, lastPost_cons]
    simp only [Chain, and_assoc]

theorem lastPost_le : ∀ {b : ℕ} {l : List Candidate}, Chain b l → lastPost b l ≤ b
  | _, [], _ => le_rfl
  | _, _ :: _, ⟨_, hp, h⟩ => by rw [lastPost_cons]; have := lastPost_le h; omega

theorem chain_prefix_sum : ∀ {b : ℕ} {l : List Candidate}, Chain b l → ∀ i (h : i < l.length),
    l[i].postBalance.toNat + ((l.take (i + 1)).map fun c => c.maxSpending.toNat).sum = b
  | _, [], _, _, h => absurd h (Nat.not_lt_zero _)
  | _, c :: cs, ⟨hle, hp, h⟩, 0, _ => by simp; omega
  | _, c :: cs, ⟨hle, hp, h⟩, i + 1, hi => by
    have := chain_prefix_sum h i (by simpa using hi)
    simp only [List.getElem_cons_succ, List.take_succ_cons, List.map_cons, List.sum_cons]
    omega

theorem chain_lastPost_sum : ∀ {b : ℕ} {l : List Candidate}, Chain b l →
    lastPost b l + (l.map fun c => c.maxSpending.toNat).sum = b
  | _, [], _ => by simp
  | _, c :: cs, ⟨hle, hp, h⟩ => by
    have := chain_lastPost_sum h
    simp only [lastPost_cons, List.map_cons, List.sum_cons]
    omega

theorem chain_readd_le : ∀ {b : ℕ} {l : List Candidate}, Chain b l →
    ∀ c ∈ l, c.postBalance.toNat + c.maxSpending.toNat ≤ b
  | _, [], _, _, h => absurd h (List.not_mem_nil _)
  | _, c :: cs, ⟨hle, hp, h⟩, d, hd => by
    rcases List.mem_cons.1 hd with rfl | hd
    · omega
    · have := chain_readd_le h d hd; omega

/-! ## The shared `NanoTX` -/

section Share

variable (tid : ℕ) (ntx : NanoTX)

@[simp] theorem nonce_share (c : Candidate) : (c.share tid ntx).nonce = c.nonce := by
  unfold Candidate.share; split <;> rfl

@[simp] theorem maxSpending_share (c : Candidate) : (c.share tid ntx).maxSpending = c.maxSpending := by
  unfold Candidate.share; split <;> rfl

@[simp] theorem postBalance_share (c : Candidate) : (c.share tid ntx).postBalance = c.postBalance := by
  unfold Candidate.share; split <;> rfl

theorem chain_map_share : ∀ {b : ℕ} {l : List Candidate}, Chain b l → Chain b (l.map (Candidate.share tid ntx))
  | _, [], _ => trivial
  | _, _ :: _, ⟨hle, hp, h⟩ => ⟨by simpa using hle, by simpa using hp, by simpa using chain_map_share h⟩

end Share

/-! ## The propagation loop -/

@[simp] theorem nonce_setPost (c : Candidate) (p : UInt64) : ({ c with postBalance := p }).nonce = c.nonce := rfl

@[simp] theorem maxSpending_setPost (c : Candidate) (p : UInt64) :
    ({ c with postBalance := p }).maxSpending = c.maxSpending := rfl

theorem propagate_chain : ∀ (b : UInt64) (l : List Candidate), Chain b.toNat (propagate b l).1
  | _, [] => trivial
  | b, c :: cs => by
    unfold propagate
    split_ifs with h
    · exact ⟨uint64_le_iff.1 h, UInt64.toNat_sub_of_le _ _ h, propagate_chain _ cs⟩
    · exact propagate_chain b cs

theorem propagate_sublist : ∀ (b : UInt64) (l : List Candidate),
    ((propagate b l).1.map Candidate.nonce).Sublist (l.map Candidate.nonce)
  | _, [] => List.Sublist.slnil
  | b, c :: cs => by
    unfold propagate
    split_ifs
    · exact (propagate_sublist _ cs).cons₂ _
    · exact (propagate_sublist b cs).cons _

/-! ## The invariant -/

/-- The representation invariant of an account. -/
structure AccountInv (ac : AccountCache) : Prop where
  sorted : (ac.txsByNonce.map Candidate.nonce).Pairwise (· < ·)
  ge_start : ∀ n ∈ ac.txsByNonce.map Candidate.nonce, ac.startNonce ≤ n
  length_le : ac.txsByNonce.length ≤ maxTXsPerAcct
  chain : Chain ac.startBalance.toNat ac.txsByNonce

theorem accountInv_empty (ac : AccountCache) (h : ac.txsByNonce = []) : AccountInv ac :=
  ⟨by simp [h], by simp [h], by simp [h, maxTXsPerAcct], by simp [h, Chain]⟩

theorem availBalance_toNat (ac : AccountCache) :
    ac.availBalance.toNat = lastPost ac.startBalance.toNat ac.txsByNonce := by
  unfold AccountCache.availBalance lastPost
  cases ac.txsByNonce.getLast? <;> rfl

theorem acceptAt_inv {ac : AccountCache} (cached : CachedTXs) (ntx : NanoTX) {front rest : List Candidate}
    {cand : Candidate}
    (hsorted : (front.map Candidate.nonce ++ cand.nonce :: rest.map Candidate.nonce).Pairwise (· < ·))
    (hge : ∀ n ∈ front.map Candidate.nonce ++ cand.nonce :: rest.map Candidate.nonce, ac.startNonce ≤ n)
    (hlen : front.length + 1 + rest.length ≤ maxTXsPerAcct) (hchain : Chain ac.startBalance.toNat front)
    (hms : cand.maxSpending.toNat ≤ lastPost ac.startBalance.toNat front)
    (hpost : cand.postBalance.toNat = lastPost ac.startBalance.toNat front - cand.maxSpending.toNat) :
    AccountInv (ac.acceptAt cached ntx front cand rest).1 := by
  have hsub : (front.map Candidate.nonce ++ cand.nonce :: (propagate cand.postBalance rest).1.map Candidate.nonce).Sublist
      (front.map Candidate.nonce ++ cand.nonce :: rest.map Candidate.nonce) :=
    ((propagate_sublist _ rest).cons₂ _).append_left _
  refine ⟨?_, fun n hn => hge n (hsub.subset ?_), ?_, ?_⟩
  · simpa [AccountCache.acceptAt] using hsorted.sublist hsub
  · simpa [AccountCache.acceptAt] using hn
  · have := (propagate_sublist cand.postBalance rest).length_le
    simp only [List.length_map] at this
    simp only [AccountCache.acceptAt, List.length_append, List.length_cons]
    omega
  · exact chain_append.2 ⟨hchain, hms, hpost, propagate_chain _ _⟩

/-! ## Placing a transaction -/

theorem findPrev_none {n : UInt64} :
    ∀ {l : List Candidate}, AccountCache.findPrev n l = none → ∀ c ∈ l, n < c.nonce
  | [], _ => by simp
  | c :: cs, h => by
    unfold AccountCache.findPrev at h
    split at h
    · cases h
    · rename_i hcs
      split_ifs at h with hc
      intro x hx
      rcases List.mem_cons.1 hx with rfl | hx
      · exact UInt64.not_le.1 hc
      · exact findPrev_none hcs x hx

theorem findPrev_some {n : UInt64} : ∀ {l : List Candidate} {f : List Candidate} {d : Candidate}
    {r : List Candidate}, AccountCache.findPrev n l = some (f, d, r) →
    l = f ++ d :: r ∧ d.nonce ≤ n ∧ ∀ c ∈ r, n < c.nonce
  | [], _, _, _, h => by simp [AccountCache.findPrev] at h
  | c :: cs, f, d, r, h => by
    unfold AccountCache.findPrev at h
    split at h
    · rename_i f' d' r' hcs
      obtain ⟨rfl, h1, h2⟩ := findPrev_some hcs
      simp only [Option.some.injEq, Prod.mk.injEq] at h
      obtain ⟨rfl, rfl, rfl⟩ := h
      exact ⟨rfl, h1, h2⟩
    · rename_i hcs
      split_ifs at h with hc
      simp only [Option.some.injEq, Prod.mk.injEq] at h
      obtain ⟨rfl, rfl, rfl⟩ := h
      exact ⟨rfl, hc, findPrev_none hcs⟩

theorem pairwise_insert_after {A B : List UInt64} {a m : UInt64} (h : (A ++ a :: B).Pairwise (· < ·))
    (ham : a < m) (hmB : ∀ y ∈ B, m < y) : (A ++ a :: m :: B).Pairwise (· < ·) := by
  rw [List.pairwise_append] at h ⊢
  obtain ⟨hA, haB, hcross⟩ := h
  refine ⟨hA, List.pairwise_cons.2 ⟨?_, List.pairwise_cons.2 ⟨hmB, (List.pairwise_cons.1 haB).2⟩⟩, ?_⟩
  · intro y hy
    rcases List.mem_cons.1 hy with rfl | hy
    · exact ham
    · exact (List.pairwise_cons.1 haB).1 y hy
  · intro x hx y hy
    rcases List.mem_cons.1 hy with rfl | hy
    · exact hcross x hx y (List.mem_cons_self _ _)
    rcases List.mem_cons.1 hy with rfl | hy
    · exact UInt64.lt_trans (hcross x hx a (List.mem_cons_self _ _)) ham
    · exact hcross x hx y (List.mem_cons_of_mem _ hy)

@[simp] theorem lastPost_append_singleton (b : ℕ) (l : List Candidate) (d : Candidate) :
    lastPost b (l ++ [d]) = d.postBalance.toNat := by
  simp [lastPost]

variable (better : NanoTX → NanoTX → Seed → Bool)

theorem accept_inv {ac : AccountCache} (cached : CachedTXs) {ntx : NanoTX} (seed : Seed)
    (hinv : AccountInv ac) (hn : ac.startNonce ≤ ntx.nonce) :
    AccountInv (AccountCache.accept better ac cached ntx seed).1 := by
  by_cases hfull : maxTXsPerAcct ≤ ac.txsByNonce.length
  · have hpre : ac.precheck ntx = ({ ac with moreInDB := true }, .error (.tooManyNonce ac.txsByNonce.length)) := by
      simp [AccountCache.precheck, hfull]
    simp only [AccountCache.accept, hpre]
    exact ⟨hinv.sorted, hinv.ge_start, hinv.length_le, hinv.chain⟩
  have hlen : ac.txsByNonce.length + 1 ≤ maxTXsPerAcct := by omega
  have hsb : ac.startBalance.toNat < 2 ^ 64 := ac.startBalance.toNat_lt_size
  rcases hfp : AccountCache.findPrev ntx.nonce ac.txsByNonce with _ | ⟨f, d, r⟩
  · -- no lower nonce: the transaction goes first
    by_cases hbal : ac.startBalance < ntx.maxSpending
    · have hpre : ac.precheck ntx = (ac, .error .insufficientBalance) := by
        simp [AccountCache.precheck, hfull, hfp, hbal]
      simpa only [AccountCache.accept, hpre] using hinv
    have hpre : ac.precheck ntx = (ac, .ok (none, ⟨ntx, ac.startBalance - ntx.maxSpending⟩)) := by
      simp [AccountCache.precheck, hfull, hfp, hbal]
    simp only [AccountCache.accept, hpre]
    have hgt := findPrev_none hfp
    refine acceptAt_inv cached ntx ?_ ?_ (by simp; omega) trivial
      (by simpa [Candidate.maxSpending] using UInt64.not_lt.1 hbal)
      (by simpa [Candidate.maxSpending] using UInt64.toNat_sub_of_le _ _ (UInt64.not_lt.1 hbal))
    · refine List.pairwise_cons.2 ⟨fun y hy => ?_, hinv.sorted⟩
      obtain ⟨c, hc, rfl⟩ := List.mem_map.1 hy
      exact hgt c hc
    · intro m hm
      simp only [List.map_nil, List.nil_append, List.mem_cons] at hm
      rcases hm with rfl | hm
      · exact hn
      · exact hinv.ge_start m hm
  · obtain ⟨hl, hd, hgt⟩ := findPrev_some hfp
    have hchain := hinv.chain
    rw [hl, chain_append] at hchain
    obtain ⟨hcf, hdms, hdpost, -⟩ := hchain
    have hLle : lastPost ac.startBalance.toNat f ≤ ac.startBalance.toNat := lastPost_le hcf
    have hsorted := hinv.sorted
    rw [hl, List.map_append, List.map_cons] at hsorted
    have hge : ∀ m ∈ f.map Candidate.nonce ++ d.nonce :: r.map Candidate.nonce, ac.startNonce ≤ m := by
      have := hinv.ge_start; rwa [hl, List.map_append, List.map_cons] at this
    have hlen' : f.length + 1 + r.length + 1 ≤ maxTXsPerAcct := by
      have := congrArg List.length hl; simp only [List.length_append, List.length_cons] at this; omega
    by_cases hlt : d.nonce < ntx.nonce
    · -- a lower nonce: the transaction goes after it
      have hbalEq : (if d.nonce = ntx.nonce then d.postBalance + d.maxSpending else d.postBalance) =
          d.postBalance := if_neg (UInt64.ne_of_lt hlt)
      by_cases hbal : d.postBalance < ntx.maxSpending
      · have hpre : ac.precheck ntx = (ac, .error .insufficientBalance) := by
          simp [AccountCache.precheck, hfull, hfp, hbalEq, hbal]
        simpa only [AccountCache.accept, hpre] using hinv
      have hpre : ac.precheck ntx =
          (ac, .ok (some (f, d, r), ⟨ntx, d.postBalance - ntx.maxSpending⟩)) := by
        simp [AccountCache.precheck, hfull, hfp, hbalEq, hbal]
      simp only [AccountCache.accept, hpre, if_pos hlt]
      refine acceptAt_inv cached ntx ?_ ?_ (by simp only [List.length_append, List.length_singleton]; omega)
        (chain_append.2 ⟨hcf, hdms, hdpost, trivial⟩)
        (by simpa [Candidate.maxSpending] using UInt64.not_lt.1 hbal)
        (by simpa [Candidate.maxSpending] using UInt64.toNat_sub_of_le _ _ (UInt64.not_lt.1 hbal))
      · simpa using pairwise_insert_after hsorted hlt fun y hy => by
          obtain ⟨c, hc, rfl⟩ := List.mem_map.1 hy; exact hgt c hc
      · intro m hm
        simp only [List.map_append, List.map_cons, List.map_nil, List.append_assoc, List.singleton_append,
          List.mem_append, List.mem_cons] at hm
        rcases hm with hm | rfl | rfl | hm
        · exact hge m (List.mem_append_left _ hm)
        · exact hge _ (List.mem_append_right _ (List.mem_cons_self _ _))
        · exact hn
        · exact hge m (List.mem_append_right _ (List.mem_cons_of_mem _ hm))
    · -- the same nonce: a better transaction replaces the candidate
      have heq : d.nonce = ntx.nonce := UInt64.toNat.inj (by
        have := uint64_le_iff.1 hd; have := uint64_le_iff.1 (UInt64.not_lt.1 hlt); omega)
      have hreadd : (d.postBalance + d.maxSpending).toNat = lastPost ac.startBalance.toNat f := by
        show (d.postBalance.toNat + d.maxSpending.toNat) % 2 ^ 64 = _
        rw [Nat.mod_eq_of_lt (by omega)]
        omega
      have hbalEq : (if d.nonce = ntx.nonce then d.postBalance + d.maxSpending else d.postBalance) =
          d.postBalance + d.maxSpending := if_pos heq
      by_cases hbal : d.postBalance + d.maxSpending < ntx.maxSpending
      · have hpre : ac.precheck ntx = (ac, .error .insufficientBalance) := by
          simp [AccountCache.precheck, hfull, hfp, hbalEq, hbal]
        simpa only [AccountCache.accept, hpre] using hinv
      have hpre : ac.precheck ntx =
          (ac, .ok (some (f, d, r), ⟨ntx, d.postBalance + d.maxSpending - ntx.maxSpending⟩)) := by
        simp [AccountCache.precheck, hfull, hfp, hbalEq, hbal]
      simp only [AccountCache.accept, hpre, if_neg hlt]
      split_ifs
      · exact hinv
      · have hle := UInt64.not_lt.1 hbal
        refine acceptAt_inv (cached.erase d.id) ntx ?_ ?_ (by omega) hcf
          (by rw [← hreadd]; exact hle) ?_
        · rw [heq] at hsorted; exact hsorted
        · rw [heq] at hge; exact hge
        · show (d.postBalance + d.maxSpending - ntx.maxSpending).toNat = _ - ntx.maxSpending.toNat
          rw [UInt64.toNat_sub_of_le _ _ hle, hreadd]

theorem precheck_start (ac : AccountCache) (ntx : NanoTX) :
    (ac.precheck ntx).1.startNonce = ac.startNonce ∧ (ac.precheck ntx).1.startBalance = ac.startBalance := by
  unfold AccountCache.precheck
  dsimp only
  split_ifs <;> exact ⟨rfl, rfl⟩

theorem accept_start (ac : AccountCache) (cached : CachedTXs) (ntx : NanoTX) (seed : Seed) :
    (AccountCache.accept better ac cached ntx seed).1.startNonce = ac.startNonce ∧
      (AccountCache.accept better ac cached ntx seed).1.startBalance = ac.startBalance := by
  have hp := precheck_start ac ntx
  unfold AccountCache.accept
  split
  · rename_i heq; rwa [heq] at hp
  · exact ⟨rfl, rfl⟩
  · split_ifs <;> exact ⟨rfl, rfl⟩

theorem add_inv {ac : AccountCache} (cached : CachedTXs) (tx : NanoTX) (hinv : AccountInv ac) :
    AccountInv (AccountCache.add better ac cached tx).1 := by
  unfold AccountCache.add
  split_ifs with h
  · exact hinv
  · exact accept_inv better cached [] hinv (UInt64.not_lt.1 h)

/-! ## Batches -/

def GroupsOk (gs : List (UInt64 × List NanoTX)) : Prop := ∀ p ∈ gs, ∀ t ∈ p.2, t.nonce = p.1

theorem addToGroup_ok (ntx : NanoTX) : ∀ {gs}, GroupsOk gs → GroupsOk (addToGroup ntx gs)
  | [], _ => by simp [GroupsOk, addToGroup]
  | (n, l) :: gs, h => by
    have hhead := h (n, l) (List.mem_cons_self _ _)
    have htail : GroupsOk gs := fun p hp => h p (List.mem_cons_of_mem _ hp)
    unfold addToGroup
    split_ifs with hn hl
    · intro p hp t ht
      rcases List.mem_cons.1 hp with rfl | hp
      · rcases List.mem_append.1 ht with ht | ht
        · exact hhead t ht
        · rw [List.mem_singleton.1 ht, hn]
      · exact htail p hp t ht
    · exact h
    · intro p hp
      rcases List.mem_cons.1 hp with rfl | hp
      · exact hhead
      · exact addToGroup_ok ntx htail p hp

theorem groupByNonce_ok (txs : List NanoTX) : GroupsOk (groupByNonce txs) := by
  suffices ∀ gs, GroupsOk gs → GroupsOk (txs.foldl (fun gs ntx => addToGroup ntx gs) gs) from
    this [] (by simp [GroupsOk])
  induction txs with
  | nil => exact fun _ h => h
  | cons t ts ih => exact fun gs h => ih _ (addToGroup_ok t h)

theorem lookup_ok {k : UInt64} : ∀ {gs : List (UInt64 × List NanoTX)}, GroupsOk gs →
    ∀ t ∈ (gs.lookup k).getD [], t.nonce = k
  | [], _, t, ht => by simp at ht
  | (k', v) :: gs, h, t, ht => by
    rw [List.lookup_cons] at ht
    split at ht
    · rename_i hk
      rw [beq_iff_eq.1 hk]
      exact h (k', v) (List.mem_cons_self _ _) t (by simpa using ht)
    · exact lookup_ok (fun p hp => h p (List.mem_cons_of_mem _ hp)) t ht

theorem findBest_mem {ntxs : List NanoTX} {balance : UInt64} {seed : Seed} {best : NanoTX}
    (h : findBest better ntxs balance seed = some best) : best ∈ ntxs := by
  suffices ∀ (l : List NanoTX) init, l.foldl (fun best ntx =>
      if ntx.maxSpending ≤ balance ∧ (best.isNone ∨ (best.map fun b => better ntx b seed) = some true)
      then some ntx else best) init = some best → best ∈ l ∨ init = some best from
    (this ntxs none h).resolve_right (by simp)
  intro l
  induction l with
  | nil => exact fun _ h => Or.inr h
  | cons t ts ih =>
    intro init h
    rcases ih _ h with h | h
    · exact Or.inl (List.mem_cons_of_mem _ h)
    · dsimp only at h
      split_ifs at h
      · exact Or.inl (by simp at h; simp [h])
      · exact Or.inr h

theorem addBatchLoop_inv {nonce2TXs : List (UInt64 × List NanoTX)} (hg : GroupsOk nonce2TXs) (seed : Seed) :
    ∀ (ns : List UInt64) (ac : AccountCache) (cached : CachedTXs) (balance : UInt64) (n : ℕ),
      AccountInv ac → (∀ k ∈ ns, ac.startNonce ≤ k) →
      AccountInv (addBatchLoop better nonce2TXs seed ns ac cached balance n).1 ∧
        (addBatchLoop better nonce2TXs seed ns ac cached balance n).1.startNonce = ac.startNonce
  | [], ac, _, _, _, hinv, _ => ⟨hinv, rfl⟩
  | k :: ks, ac, cached, balance, n, hinv, hks => by
    have hks' : ∀ k' ∈ ks, ac.startNonce ≤ k' := fun k' hk' => hks k' (List.mem_cons_of_mem _ hk')
    unfold addBatchLoop
    split
    · exact addBatchLoop_inv hg seed ks ac cached balance n hinv hks'
    · rename_i best hbest
      have hnonce : best.nonce = k := lookup_ok hg best (findBest_mem better hbest)
      have hacc := accept_inv better cached seed hinv (hnonce ▸ hks k (List.mem_cons_self _ _))
      have hstart := (accept_start better ac cached best seed).1
      have hrest : ∀ balance' n', _ := fun balance' n' =>
        have h := addBatchLoop_inv hg seed ks _ (ac.accept better cached best seed).2.1 balance' n' hacc
          (hstart ▸ hks')
        And.intro h.1 (h.2.trans hstart)
      dsimp only
      split
      · exact ⟨hacc, hstart⟩
      · exact hrest _ _
      · exact hrest _ _

theorem addBatch_inv {ac : AccountCache} (cached : CachedTXs) {nonce2TXs : List (UInt64 × List NanoTX)}
    (seed : Seed) (hempty : ac.txsByNonce = []) (hg : GroupsOk nonce2TXs) :
    AccountInv (AccountCache.addBatch better ac cached nonce2TXs seed).1 := by
  have hnext : ac.nextNonce = ac.startNonce := by simp [AccountCache.nextNonce, hempty]
  have hks : ∀ k ∈ ((nonce2TXs.map Prod.fst).filter (ac.nextNonce ≤ ·)).insertionSort (· ≤ ·),
      ac.startNonce ≤ k := fun k hk => by
    rw [(List.perm_insertionSort _ _).mem_iff, List.mem_filter, hnext] at hk
    simpa using hk.2
  have := (addBatchLoop_inv better hg seed _ ac cached ac.availBalance 0 (accountInv_empty ac hempty) hks).1
  exact ⟨this.sorted, this.ge_start, this.length_le, this.chain⟩

theorem resetAfterApply_inv (ac : AccountCache) (cached : CachedTXs) (nextNonce newBalance : UInt64)
    (pending : Except String (List NanoTX)) :
    AccountInv (AccountCache.resetAfterApply better ac cached nextNonce newBalance pending).1 := by
  unfold AccountCache.resetAfterApply AccountCache.addPendingFromNonce
  split
  · exact accountInv_empty _ rfl
  · exact accountInv_empty _ rfl
  · split
    · exact accountInv_empty _ rfl
    · exact addBatch_inv better _ [] rfl (groupByNonce_ok _)

/-! ## The cache -/

/-- Every pending account keeps `AccountInv`. -/
def CacheInv (c : Cache) : Prop := ∀ addr ac, c.pending addr = some ac → AccountInv ac

theorem cacheInv_new : CacheInv Cache.new := fun _ _ h => nomatch h

theorem account_inv {c : Cache} (h : CacheInv c) (stateF : StateFunc) (addr : ℕ) :
    AccountInv (c.account stateF addr) := by
  unfold Cache.account
  cases hp : c.pending addr with
  | none => exact accountInv_empty _ rfl
  | some ac => exact h addr ac hp

theorem account_createAcctIfNotPresent (c : Cache) (stateF : StateFunc) (addr : ℕ) :
    (c.createAcctIfNotPresent stateF addr).account stateF addr = c.account stateF addr := by
  simp [Cache.account, Cache.createAcctIfNotPresent]

theorem store_inv {c : Cache} (h : CacheInv c) {addr : ℕ} {ac : AccountCache} (hac : AccountInv ac)
    (m : CachedTXs) : CacheInv (c.store addr ac m) := by
  intro a ac' ha
  by_cases hA : a = addr
  · subst hA
    simp only [Cache.store, Function.update_same, Option.some.injEq] at ha
    exact ha ▸ hac
  · simp only [Cache.store, Function.update_noteq hA] at ha
    exact h a ac' ha

theorem createAcctIfNotPresent_inv {c : Cache} (h : CacheInv c) (stateF : StateFunc) (addr : ℕ) :
    CacheInv (c.createAcctIfNotPresent stateF addr) :=
  store_inv h (account_inv h stateF addr) c.cachedTXs

theorem cleanupAccounts_inv (l : List ℕ) : ∀ {c : Cache}, CacheInv c → CacheInv (c.cleanupAccounts l) := by
  induction l with
  | nil => exact fun h => h
  | cons a l ih =>
    intro c h
    refine ih (c := match c.pending a with
      | some ac => if ac.shouldEvict then { c with pending := Function.update c.pending a none } else c
      | none => c) ?_
    split
    · split_ifs
      · intro b ac hb
        by_cases hba : b = a
        · subst hba; simp at hb
        · exact h b ac (by simpa [Function.update_noteq hba] using hb)
      · exact h
    · exact h

theorem cache_add_inv (stateF : StateFunc) {c : Cache} (h : CacheInv c) (tx : NanoTX)
    (dbWrite : Except String Unit) : CacheInv (c.add better stateF tx dbWrite).1 :=
  have h1 := createAcctIfNotPresent_inv h stateF tx.principal
  cleanupAccounts_inv _ (store_inv h1 (add_inv better _ tx (account_inv h1 stateF _)) _)

theorem buildAccounts_inv (stateF : StateFunc) (rst : List NanoTX) (seed : Seed) :
    ∀ (ps : List ℕ) {c : Cache}, ps.Nodup → CacheInv c → (∀ p ∈ ps, c.pending p = none) →
      CacheInv (ps.foldl (Cache.buildAccount better stateF rst seed) c)
  | [], _, _, h, _ => h
  | p :: ps, c, hnd, h, hnone => by
    have hfresh : ((c.createAcctIfNotPresent stateF p).account stateF p).txsByNonce = [] := by
      rw [account_createAcctIfNotPresent]
      simp [Cache.account, hnone p (List.mem_cons_self _ _)]
    refine buildAccounts_inv stateF rst seed ps (List.nodup_cons.1 hnd).2
      (store_inv (createAcctIfNotPresent_inv h stateF p) (addBatch_inv better _ seed hfresh (groupByNonce_ok _)) _)
      fun q hq => ?_
    have hqp : q ≠ p := fun e => (List.nodup_cons.1 hnd).1 (e ▸ hq)
    simp [Cache.buildAccount, Cache.store, Cache.createAcctIfNotPresent, Function.update_noteq hqp,
      hnone q (List.mem_cons_of_mem _ hq)]

theorem buildFromTXs_inv (stateF : StateFunc) (c : Cache) (rst : List NanoTX) (seed : Seed) :
    CacheInv (c.buildFromTXs better stateF rst seed) :=
  cleanupAccounts_inv _ (buildAccounts_inv better stateF rst seed _ (List.nodup_dedup _)
    (fun _ _ h => nomatch h) fun _ _ => rfl)

theorem revertToLayer_inv (stateF : StateFunc) (c : Cache) (h : CacheInv c)
    (rst : Except String (List NanoTX)) : CacheInv (c.revertToLayer better stateF rst).1 := by
  unfold Cache.revertToLayer
  split
  · exact h
  · exact buildFromTXs_inv better stateF c _ []

theorem resetLoop_inv (stateF : StateFunc) (pendingDB : ℕ → Except String (List NanoTX)) :
    ∀ (l : List ℕ) {c : Cache}, CacheInv c → CacheInv (c.resetLoop better stateF pendingDB l).1
  | [], _, h => h
  | a :: l, c, h => by
    have h1 : CacheInv (c.resetAccount better stateF pendingDB a).1 :=
      store_inv h (resetAfterApply_inv better _ _ _ _ _) _
    unfold Cache.resetLoop
    dsimp only
    split
    · exact h1
    · exact resetLoop_inv stateF pendingDB l h1

theorem applyLayer_inv (stateF : StateFunc) {c : Cache} (h : CacheInv c) (results ineffective pendingKeys : List ℕ)
    (pendingDB : ℕ → Except String (List NanoTX)) :
    CacheInv (c.applyLayer better stateF results ineffective pendingKeys pendingDB).1 := by
  have h1 := resetLoop_inv better stateF pendingDB results.dedup h
  unfold Cache.applyLayer
  dsimp only
  split
  · exact cleanupAccounts_inv _ h1
  · exact cleanupAccounts_inv _ (resetLoop_inv better stateF pendingDB _ h1)

theorem setShared_inv {c : Cache} (h : CacheInv c) (tid : ℕ) (ntx : NanoTX) : CacheInv (c.setShared tid ntx) := by
  intro addr ac hac
  obtain ⟨ac₀, hac₀, rfl⟩ := Option.map_eq_some'.1 hac
  have hi := h addr ac₀ hac₀
  have hn : (ac₀.txsByNonce.map (Candidate.share tid ntx)).map Candidate.nonce = ac₀.txsByNonce.map Candidate.nonce := by
    simp [Function.comp_def]
  exact ⟨hn ▸ hi.sorted, hn ▸ hi.ge_start, (List.length_map _ _).symm ▸ hi.length_le, chain_map_share tid ntx hi.chain⟩

theorem updateLayer_inv (f : UInt32 → ℕ → NanoTX → NanoTX) (lid : UInt32) (bid : ℕ) :
    ∀ (tids : List ℕ) {c : Cache}, CacheInv c → CacheInv (c.updateLayer f lid bid tids)
  | [], _, h => h
  | tid :: tids, c, h => by
    unfold Cache.updateLayer
    split
    · exact h
    · exact updateLayer_inv f lid bid tids (setShared_inv h _ _)

theorem linkTXs_inv (f : UInt32 → ℕ → NanoTX → NanoTX) (context : String) {c : Cache} (h : CacheInv c)
    (dbLink : Except String Unit) (lid : UInt32) (bid : ℕ) (tids : List ℕ) :
    CacheInv (c.linkTXs f context dbLink lid bid tids).1 := by
  unfold Cache.linkTXs
  split
  · exact h
  · split
    · exact h
    · exact updateLayer_inv f lid bid tids h

theorem applyEmptyLayer_inv (lid : UInt32) (nextIncluded : ℕ → Except String (UInt32 × ℕ)) :
    ∀ (keys : List ℕ) {c : Cache}, CacheInv c → CacheInv (c.applyEmptyLayer lid nextIncluded keys).1
  | [], _, h => h
  | tid :: keys, c, h => by
    unfold Cache.applyEmptyLayer
    split
    · split
      · split
        · exact h
        · exact applyEmptyLayer_inv lid nextIncluded keys (setShared_inv h _ _)
      · exact applyEmptyLayer_inv lid nextIncluded keys h
    · exact applyEmptyLayer_inv lid nextIncluded keys h

/-! ## Runs -/

/-- The operations of `Cache` that change its state, each with the applied state `stateF`
reads when it runs, and the database's answers. -/
inductive CacheOp
  | add (stateF : StateFunc) (tx : NanoTX) (dbWrite : Except String Unit)
  | buildFromTXs (stateF : StateFunc) (rst : List NanoTX) (seed : Seed)
  | applyLayer (stateF : StateFunc) (results ineffective pendingKeys : List ℕ)
      (pendingDB : ℕ → Except String (List NanoTX))
  | applyEmptyLayer (lid : UInt32) (keys : List ℕ) (nextIncluded : ℕ → Except String (UInt32 × ℕ))
  | revertToLayer (stateF : StateFunc) (rst : Except String (List NanoTX))
  | linkTXsWithProposal (updateLayerMaybe : UInt32 → ℕ → NanoTX → NanoTX) (dbLink : Except String Unit)
      (lid : UInt32) (tids : List ℕ)
  | linkTXsWithBlock (updateLayerMaybe : UInt32 → ℕ → NanoTX → NanoTX) (dbLink : Except String Unit)
      (lid : UInt32) (bid : ℕ) (tids : List ℕ)

def CacheOp.apply (c : Cache) : CacheOp → Cache
  | .add stateF tx dbWrite => (c.add better stateF tx dbWrite).1
  | .buildFromTXs stateF rst seed => c.buildFromTXs better stateF rst seed
  | .applyLayer stateF results ineffective pendingKeys pendingDB =>
    (c.applyLayer better stateF results ineffective pendingKeys pendingDB).1
  | .applyEmptyLayer lid keys nextIncluded => (c.applyEmptyLayer lid nextIncluded keys).1
  | .revertToLayer stateF rst => (c.revertToLayer better stateF rst).1
  | .linkTXsWithProposal f dbLink lid tids => (c.linkTXsWithProposal f dbLink lid tids).1
  | .linkTXsWithBlock f dbLink lid bid tids => (c.linkTXsWithBlock f dbLink lid bid tids).1

theorem apply_inv {c : Cache} (h : CacheInv c) : ∀ op : CacheOp, CacheInv (op.apply better c)
  | .add stateF tx dbWrite => cache_add_inv better stateF h tx dbWrite
  | .buildFromTXs stateF rst seed => buildFromTXs_inv better stateF c rst seed
  | .applyLayer stateF results ineffective pendingKeys pendingDB =>
    applyLayer_inv better stateF h results ineffective pendingKeys pendingDB
  | .applyEmptyLayer lid keys nextIncluded => applyEmptyLayer_inv lid nextIncluded keys h
  | .revertToLayer stateF rst => revertToLayer_inv better stateF c h rst
  | .linkTXsWithProposal f dbLink lid tids => linkTXs_inv f _ h dbLink lid _ tids
  | .linkTXsWithBlock f dbLink lid bid tids => linkTXs_inv f _ h dbLink lid bid tids

theorem run_inv : ∀ (ops : List CacheOp) {c : Cache}, CacheInv c → CacheInv (ops.foldl (CacheOp.apply better) c)
  | [], _, h => h
  | op :: ops, _, h => run_inv ops (apply_inv better h op)

/-- After any sequence of the cache's operations from `NewCache`, every pending
account has: nonces increasing strictly from `startNonce`, at most
`maxTXsPerAcct` candidates, each post balance equal to `startBalance` less the
spendings up to and including its candidate, no post balance plus spending above
`startBalance`, and `availBalance` equal to `startBalance` less all spendings. -/
theorem accountCache_invariant (ops : List CacheOp) (addr : ℕ) (ac : AccountCache)
    (hac : (ops.foldl (CacheOp.apply better) Cache.new).pending addr = some ac) :
    (ac.txsByNonce.map Candidate.nonce).Pairwise (· < ·) ∧
    (∀ c ∈ ac.txsByNonce, ac.startNonce ≤ c.nonce) ∧
    ac.txsByNonce.length ≤ maxTXsPerAcct ∧
    (∀ i (h : i < ac.txsByNonce.length), ac.txsByNonce[i].postBalance.toNat +
      ((ac.txsByNonce.take (i + 1)).map fun c => c.maxSpending.toNat).sum = ac.startBalance.toNat) ∧
    (∀ c ∈ ac.txsByNonce, c.postBalance.toNat + c.maxSpending.toNat ≤ ac.startBalance.toNat) ∧
    ac.availBalance.toNat + (ac.txsByNonce.map fun c => c.maxSpending.toNat).sum = ac.startBalance.toNat := by
  have h : AccountInv ac := run_inv better ops cacheInv_new addr ac hac
  refine ⟨h.sorted, fun c hc => h.ge_start _ (List.mem_map_of_mem _ hc), h.length_le,
    chain_prefix_sum h.chain, chain_readd_le h.chain, ?_⟩
  rw [availBalance_toNat]
  exact chain_lastPost_sum h.chain

theorem accountCache_invariant_after_add :
    ([CacheOp.add (fun _ => (0, 10)) sampleTx (.ok ())].foldl (CacheOp.apply fun _ _ _ => true)
        Cache.new).pending 7 = some ⟨7, [⟨sampleTx, 5⟩], 0, 10, false⟩ ∧
    ([⟨sampleTx, 5⟩].map Candidate.nonce).Pairwise (· < ·) ∧
    (∀ c ∈ [(⟨sampleTx, 5⟩ : Candidate)], (0 : UInt64) ≤ c.nonce) ∧
    [(⟨sampleTx, 5⟩ : Candidate)].length ≤ maxTXsPerAcct ∧
    (∀ i (h : i < [(⟨sampleTx, 5⟩ : Candidate)].length), [(⟨sampleTx, 5⟩ : Candidate)][i].postBalance.toNat +
      (([(⟨sampleTx, 5⟩ : Candidate)].take (i + 1)).map fun c => c.maxSpending.toNat).sum = (10 : UInt64).toNat) ∧
    (∀ c ∈ [(⟨sampleTx, 5⟩ : Candidate)], c.postBalance.toNat + c.maxSpending.toNat ≤ (10 : UInt64).toNat) ∧
    (AccountCache.availBalance ⟨7, [⟨sampleTx, 5⟩], 0, 10, false⟩).toNat +
      ([(⟨sampleTx, 5⟩ : Candidate)].map fun c => c.maxSpending.toNat).sum = (10 : UInt64).toNat :=
  ⟨rfl, accountCache_invariant (fun _ _ _ => true) [CacheOp.add (fun _ => (0, 10)) sampleTx (.ok ())] 7
    ⟨7, [⟨sampleTx, 5⟩], 0, 10, false⟩ rfl⟩


/-! ## The projected nonce -/

theorem toNat_add_one (a : UInt64) : (a + 1).toNat = (a.toNat + 1) % 2 ^ 64 := rfl

theorem nonce_le_last {ac : AccountCache} (h : AccountInv ac) {last : Candidate}
    (hl : ac.txsByNonce.getLast? = some last) : ∀ c ∈ ac.txsByNonce, c.nonce ≤ last.nonce := by
  obtain ⟨ys, hys⟩ := List.getLast?_eq_some_iff.1 hl
  have hs := h.sorted
  rw [hys, List.map_append, List.pairwise_append] at hs
  intro c hc
  rw [hys, List.mem_append, List.mem_singleton] at hc
  rcases hc with hc | rfl
  · exact uint64_le_iff.2 (hs.2.2 _ (List.mem_map_of_mem _ hc) _ (List.mem_singleton_self _)).le
  · exact uint64_le_iff.2 le_rfl

theorem nextNonce_past_iff {ac : AccountCache} (h : AccountInv ac) :
    (ac.startNonce ≤ ac.nextNonce ∧ ∀ c ∈ ac.txsByNonce, c.nonce < ac.nextNonce) ↔
      ∀ c ∈ ac.txsByNonce, c.nonce.toNat ≠ 2 ^ 64 - 1 := by
  unfold AccountCache.nextNonce
  rcases hl : ac.txsByNonce.getLast? with _ | last
  · simp [List.getLast?_eq_none_iff.1 hl]
  have hmem := List.mem_of_getLast?_eq_some hl
  have hstart := uint64_le_iff.1 (h.ge_start _ (List.mem_map_of_mem Candidate.nonce hmem))
  have hle : ∀ c ∈ ac.txsByNonce, c.nonce.toNat ≤ last.nonce.toNat := fun c hc => nonce_le_last h hl c hc
  have hsize := last.nonce.toNat_lt_size
  simp only [uint64_le_iff, uint64_lt_iff, toNat_add_one]
  constructor
  · rintro ⟨-, hall⟩ c hc heq
    have := hall c hc
    have := hle c hc
    simp only [UInt64.size] at hsize
    omega
  · intro hall
    have hne := hall last hmem
    simp only [UInt64.size] at hsize
    refine ⟨by omega, fun c hc => ?_⟩
    have := hle c hc
    omega

/-- In every state the cache's operations reach from `NewCache`, the nonce that
`GetProjection` returns for an address with a pending account is at least its
`startNonce` and past every candidate's exactly when no candidate holds the nonce
`2^64 - 1`. -/
theorem projected_nonce_past_pending_iff (stateF : StateFunc) (ops : List CacheOp) (addr : ℕ)
    (ac : AccountCache) (hac : (ops.foldl (CacheOp.apply better) Cache.new).pending addr = some ac) :
    (ac.startNonce ≤ ((ops.foldl (CacheOp.apply better) Cache.new).getProjection stateF addr).1 ∧
      ∀ c ∈ ac.txsByNonce, c.nonce < ((ops.foldl (CacheOp.apply better) Cache.new).getProjection stateF addr).1) ↔
      ∀ c ∈ ac.txsByNonce, c.nonce.toNat ≠ 2 ^ 64 - 1 := by
  simp only [Cache.getProjection, hac]
  exact nextNonce_past_iff (run_inv better ops cacheInv_new addr ac hac)

def maxNonceTx : NanoTX := ⟨1, 7, 18446744073709551615, 5, 0, 0⟩

/-- `Add` of `maxNonceTx` to a new cache of nonce `0` and balance `10`: the account
accepts it, and `GetProjection` gives nonce `0`, below the candidate's. -/
theorem projected_nonce_past_pending_iff_max_nonce :
    ([CacheOp.add (fun _ => (0, 10)) maxNonceTx (.ok ())].foldl (CacheOp.apply fun _ _ _ => true)
        Cache.new).pending 7 = some ⟨7, [⟨maxNonceTx, 5⟩], 0, 10, false⟩ ∧
    ([CacheOp.add (fun _ => (0, 10)) maxNonceTx (.ok ())].foldl (CacheOp.apply fun _ _ _ => true)
        Cache.new).getProjection (fun _ => (0, 10)) 7 = (0, 5) ∧
    ((0 ≤ (([CacheOp.add (fun _ => (0, 10)) maxNonceTx (.ok ())].foldl (CacheOp.apply fun _ _ _ => true)
        Cache.new).getProjection (fun _ => (0, 10)) 7).1 ∧
      ∀ c ∈ [(⟨maxNonceTx, 5⟩ : Candidate)], c.nonce < (([CacheOp.add (fun _ => (0, 10)) maxNonceTx (.ok ())].foldl
        (CacheOp.apply fun _ _ _ => true) Cache.new).getProjection (fun _ => (0, 10)) 7).1) ↔
      ∀ c ∈ [(⟨maxNonceTx, 5⟩ : Candidate)], c.nonce.toNat ≠ 2 ^ 64 - 1) :=
  ⟨rfl, rfl, projected_nonce_past_pending_iff (fun _ _ _ => true) (fun _ => (0, 10))
    [CacheOp.add (fun _ => (0, 10)) maxNonceTx (.ok ())] 7 ⟨7, [⟨maxNonceTx, 5⟩], 0, 10, false⟩ rfl⟩

end Spacemesh.Txs
