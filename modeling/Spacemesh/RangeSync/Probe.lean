import Mathlib.Data.Multiset.Basic
import Mathlib.Data.Rat.Defs
import Spacemesh.RangeSync.Reconciler

/-!
# Probes

`InitiateProbe`, `InitiateBoundedProbe`, `calcSim` and `HandleProbeResponse` of the
range-set reconciler, and `runProbe` / `runBoundedProbe` of its tests. `A` sends the
fingerprint of a range with its sample size; `B` answers in one `Process` with its own
fingerprint and count of the range and a sample of its keys there; `A` reads the answer.
For any two stores and any range, or the whole set, the probe succeeds with `B`'s exact
summary of the range, and a similarity of 1 whenever the two fingerprints agree
(`probe_reports_peer_range`). The similarity, a `float64` ratio in the source, is a
rational here, `0` where Go divides `0` by `0`.

`mergeLoop` is the two-pointer loop of `calcSim` as the source runs it, on positions of
the two sorted samples; it stops within `|local| + |remote|` iterations with `countEqual`,
which on sorted samples is the size of their multiset intersection, so the numerator
of the similarity is at most its denominator (`mergeLoop_counts_common`).
-/

namespace Spacemesh.RangeSync

variable {α : Type} [LinearOrder α]

/-- `fakeConduit.SendProbe`. -/
def sendProbe (x y : Option α) (fp : List α) (sampleSize : ℕ) : SyncMessage α :=
  { type := .probe, x := x, y := y, fingerprint := some fp, count := sampleSize }

def initiateBoundedProbe (cfg : Config) (s : ItemStore α) (x y : Option α) :
    Except Failure (RangeInfo α × List (SyncMessage α)) :=
  match s.getRangeInfo x y (-1) with
  | .error p => .error (.panic p)
  | .ok info => .ok (info, [sendProbe x y info.fingerprint cfg.sampleSize, sendEndRound])

def initiateProbe (cfg : Config) (s : ItemStore α) : Except Failure (RangeInfo α × List (SyncMessage α)) :=
  initiateBoundedProbe cfg s none none

structure ProbeResult (α : Type) where
  fp : Option (List α) := none
  count : ℕ := 0
  sim : ℚ := 0

/-- The merge loop of `calcSim` over two sorted samples: the number of keys they share. -/
def countEqual : List α → List α → ℕ
  | [], _ => 0
  | _ :: _, [] => 0
  | a :: as, b :: bs =>
    if a < b then countEqual as (b :: bs)
    else if a = b then countEqual as bs + 1
    else countEqual (a :: as) bs
termination_by as bs => as.length + bs.length

/-- The two-pointer loop of `calcSim` over the sorted samples, at positions `m` and `n`
with `numEq` keys counted, `Compare` being the order of keys; `none` if it is still
running after `fuel` iterations. -/
def mergeLoop (localSample remoteSample : List α) : ℕ → ℕ → ℕ → ℕ → Option ℕ
  | 0, m, n, numEq => if m < localSample.length ∧ n < remoteSample.length then none else some numEq
  | fuel + 1, m, n, numEq =>
    if h : m < localSample.length ∧ n < remoteSample.length then
      match compare localSample[m] remoteSample[n] with
      | .lt => mergeLoop localSample remoteSample fuel (m + 1) n numEq
      | .eq => mergeLoop localSample remoteSample fuel (m + 1) (n + 1) (numEq + 1)
      | .gt => mergeLoop localSample remoteSample fuel m (n + 1) numEq
    else some numEq

def calcSim (cfg : Config) (info : RangeInfo α) (remoteSample : List α) (fp : Option (List α)) : ℚ :=
  if fp = some info.fingerprint then 1
  else if info.start = [] then 0
  else
    let sampleSize := min info.count cfg.sampleSize
    let localSample := info.start.take sampleSize
    (countEqual (localSample.insertionSort (· ≤ ·)) (remoteSample.insertionSort (· ≤ ·)) : ℚ) /
      (max sampleSize remoteSample.length : ℕ)

/-- The loop of `HandleProbeResponse` over the messages `A` receives, `got` holding the
result once a range message has come. -/
def handleProbeResponse (cfg : Config) (info : RangeInfo α) :
    List (SyncMessage α) → Option (ProbeResult α) → Except String (ProbeResult α)
  | [], _ => .error "no end round marker"
  | msg :: msgs, got =>
    match msg.type with
    | .endRound => .error "non-final round in response to a probe"
    | .done =>
      match got with
      | none => .error "no range info received during probe"
      | some pr => .ok pr
    | .probeResponse =>
      if got.isSome then .error "single range message expected"
      else handleProbeResponse cfg info msgs (some ⟨msg.fingerprint, msg.count, calcSim cfg info msg.keys msg.fingerprint⟩)
    | .emptySet | .emptyRange =>
      if got.isSome then .error "single range message expected"
      else handleProbeResponse cfg info msgs (some { sim := if info.count = 0 then 1 else 0 })
    | t => .error ("probe response: unexpected message type: " ++ t.name)

/-- `runBoundedProbe` of the tests (`runProbe` for nil bounds): `A` opens the probe, `B`
processes it and must be done, and `A` handles `B`'s answer, which is returned with the
result. -/
def runBoundedProbe (cfgA cfgB : Config) (a b : ItemStore α) (x y : Option α) :
    Except Failure (List (SyncMessage α) × ProbeResult α) :=
  match initiateBoundedProbe cfgA a x y with
  | .error e => .error e
  | .ok (info, msgs) =>
    let rb := process cfgB b msgs none
    match rb.result with
    | .error e => .error e
    | .ok false => .error (.error "B is not done after the probe")
    | .ok true =>
      match handleProbeResponse cfgA info rb.sent none with
      | .error e => .error (.error e)
      | .ok pr => .ok (rb.sent, pr)

def probedKeys (s : ItemStore α) : Option α → Option α → List α
  | some x, some y => s.rangeItems x y
  | _, _ => s.keys

/-! ## The range info of a probe -/

theorem ItemStore.rangeItems_head (s : ItemStore α) {m : α} (h : s.keys.head? = some m) :
    s.rangeItems m m = s.keys := by
  obtain ⟨rest, hrest⟩ : ∃ rest, s.keys = m :: rest := by
    cases hk : s.keys with
    | nil => simp [hk] at h
    | cons a rest => simp only [hk, List.head?_cons, Option.some.injEq] at h; exact ⟨rest, by rw [h]⟩
  have hge : ∀ k ∈ s.keys, m ≤ k := by
    have hs := s.sorted
    rw [hrest] at hs ⊢
    intro k hk
    rcases List.mem_cons.1 hk with rfl | hk
    · exact le_rfl
    · exact (List.rel_of_sorted_cons hs k hk).le
  have h1 : s.keys.filter (fun k => decide (m ≤ k)) = s.keys := List.filter_eq_self.2 (by simpa using hge)
  have h2 : s.keys.filter (fun k => decide (k < m)) = [] :=
    List.filter_eq_nil_iff.2 (by simpa using hge)
  simp [ItemStore.rangeItems, ItemStore.cyclicFrom, h1, h2]

theorem getRangeInfo_probe (s : ItemStore α) {x y : Option α} (hxy : x.isSome = y.isSome) :
    ∃ info, s.getRangeInfo x y (-1) = .ok info ∧ info.fingerprint = probedKeys s x y ∧
      info.count = (probedKeys s x y).length := by
  match x, y, hxy with
  | none, none, _ =>
    cases hm : s.keys.head? with
    | none =>
      exact ⟨⟨[], 0, [], none⟩, by simp [ItemStore.getRangeInfo, hm],
        by simp [probedKeys, List.head?_eq_none_iff.1 hm], by simp [probedKeys, List.head?_eq_none_iff.1 hm]⟩
    | some m =>
      exact ⟨s.rangeInfo m m (-1), by simp [ItemStore.getRangeInfo, hm], by simp [probedKeys, s.rangeItems_head hm],
        by simp [probedKeys, s.rangeItems_head hm]⟩
  | some x, some y, _ => exact ⟨_, rfl, by simp [probedKeys], by simp [probedKeys]⟩

/-! ## `B` answers with one range message -/

theorem handleRange_probe (cfg : Config) (s : ItemStore α) {msg : SyncMessage α} (x y : α)
    (ht : msg.type = .probe) (hc : msg.count ≤ maxSampleSize) :
    ∃ m, handleRange cfg s msg x y = ⟨[m], .ok true⟩ ∧ m.type = .probeResponse ∧
      m.fingerprint = some (s.rangeItems x y) ∧ m.count = (s.rangeItems x y).length := by
  simp only [handleRange, ht, not_lt.2 hc, if_false, ItemStore.rangeInfo_fingerprint, ItemStore.rangeInfo_count]
  split_ifs <;> exact ⟨_, rfl, rfl, rfl, rfl⟩

theorem handleMessage_probe (cfg : Config) (s : ItemStore α) {x y : Option α} (hxy : x.isSome = y.isSome)
    (fp : List α) {n : ℕ} (hn : n ≤ maxSampleSize) :
    ∃ m, handleMessage cfg s (sendProbe x y fp n) = ⟨[m], .ok true⟩ ∧ m.type = .probeResponse ∧
      m.fingerprint = some (probedKeys s x y) ∧ m.count = (probedKeys s x y).length := by
  match x, y, hxy with
  | none, none, _ =>
    simp only [handleMessage, sendProbe, or_true, and_self, if_true]
    cases hm : s.keys.head? with
    | none => exact ⟨_, rfl, rfl, by simp [probedKeys, sendProbeResponse, List.head?_eq_none_iff.1 hm], by
        simp [probedKeys, sendProbeResponse, List.head?_eq_none_iff.1 hm]⟩
    | some m =>
      obtain ⟨r, hr, ht, hf, hc⟩ := @handleRange_probe _ _ cfg s (sendProbe none none fp n) m m rfl hn
      exact ⟨r, hr, ht, by rw [hf, s.rangeItems_head hm]; rfl, by rw [hc, s.rangeItems_head hm]; rfl⟩
  | some x, some y, _ =>
    obtain ⟨r, hr, ht, hf, hc⟩ := @handleRange_probe _ _ cfg s (sendProbe (some x) (some y) fp n) x y rfl hn
    exact ⟨r, by simpa [handleMessage, sendProbe] using hr, ht, hf, hc⟩

theorem process_probe (cfg : Config) (s : ItemStore α) {msg m : SyncMessage α} (ht : msg.type = .probe)
    (h : handleMessage cfg s msg = ⟨[m], .ok true⟩) :
    process cfg s [msg, sendEndRound] none = ⟨s, [], [m, sendDone], .ok true⟩ := by
  simp [process, getMessages, ht, sendEndRound, processStep, h]

/-! ## `A` reads the answer -/

theorem handleProbeResponse_single (cfg : Config) (info : RangeInfo α) {m : SyncMessage α}
    (ht : m.type = .probeResponse) :
    handleProbeResponse cfg info [m, sendDone] none =
      .ok ⟨m.fingerprint, m.count, calcSim cfg info m.keys m.fingerprint⟩ := by
  simp [handleProbeResponse, ht, sendDone]

theorem calcSim_of_eq (cfg : Config) {info : RangeInfo α} {remoteSample : List α} {fp : Option (List α)}
    (h : fp = some info.fingerprint) : calcSim cfg info remoteSample fp = 1 := by
  simp [calcSim, h]


/-! ## The merge loop of `calcSim` -/

theorem countEqual_nil_right (as : List α) : countEqual as [] = 0 := by
  cases as <;> simp [countEqual]

theorem countEqual_cons_cons (a b : α) (as bs : List α) :
    countEqual (a :: as) (b :: bs) =
      match compare a b with
      | .lt => countEqual as (b :: bs)
      | .eq => countEqual as bs + 1
      | .gt => countEqual (a :: as) bs := by
  rw [countEqual]
  rcases lt_trichotomy a b with h | rfl | h
  · simp [h, compare_lt_iff_lt.2 h]
  · simp [compare_eq_iff_eq.2 rfl]
  · simp [h.ne', not_lt.2 h.le, compare_gt_iff_gt.2 h]

theorem mergeLoop_eq (ls rs : List α) (fuel : ℕ) : ∀ m n numEq, ls.length - m + (rs.length - n) ≤ fuel →
    mergeLoop ls rs fuel m n numEq = some (numEq + countEqual (ls.drop m) (rs.drop n)) := by
  induction fuel with
  | zero =>
    intro m n numEq hfuel
    rw [mergeLoop, if_neg (by omega), List.drop_of_length_le (by omega : ls.length ≤ m)]
    simp [countEqual]
  | succ fuel ih =>
    intro m n numEq hfuel
    rw [mergeLoop]
    split_ifs with h
    · rw [List.drop_eq_getElem_cons h.1, List.drop_eq_getElem_cons h.2, countEqual_cons_cons]
      cases compare ls[m] rs[n] <;> dsimp only
      · rw [ih (m + 1) n numEq (by omega), ← List.drop_eq_getElem_cons h.2]
      · rw [ih (m + 1) (n + 1) (numEq + 1) (by omega), Nat.add_right_comm numEq 1, Nat.add_assoc]
      · rw [ih m (n + 1) numEq (by omega), ← List.drop_eq_getElem_cons h.1]
    · rcases not_and_or.1 h with hm | hn
      · simp [List.drop_of_length_le (not_lt.1 hm), countEqual]
      · simp [List.drop_of_length_le (not_lt.1 hn), countEqual_nil_right]

theorem not_mem_of_lt_head {a b : α} {bs : List α} (hs : (b :: bs).Sorted (· ≤ ·)) (h : a < b) :
    a ∉ ((b :: bs : List α) : Multiset α) := by
  rw [Multiset.mem_coe, List.mem_cons]
  rintro (rfl | hm)
  · exact lt_irrefl _ h
  · exact not_le.2 h ((List.sorted_cons.1 hs).1 a hm)

theorem countEqual_eq_card_inter {ls rs : List α} (hls : ls.Sorted (· ≤ ·)) (hrs : rs.Sorted (· ≤ ·)) :
    countEqual ls rs = Multiset.card ((ls : Multiset α) ∩ rs) := by
  induction ls, rs using countEqual.induct with
  | case1 bs => simp [countEqual]
  | case2 a as => simp [countEqual]
  | case3 a as b bs h ih =>
    rw [countEqual, if_pos h, ih (List.sorted_cons.1 hls).2 hrs, ← Multiset.cons_coe a as,
      Multiset.cons_inter_of_neg _ (not_mem_of_lt_head hrs h)]
  | case4 as a bs _ ih =>
    rw [countEqual, if_neg (lt_irrefl a), if_pos rfl, ih (List.sorted_cons.1 hls).2 (List.sorted_cons.1 hrs).2,
      ← Multiset.cons_coe a as, ← Multiset.cons_coe a bs, Multiset.cons_inter_of_pos _ (Multiset.mem_cons_self _ _),
      Multiset.erase_cons_head, Multiset.card_cons]
  | case5 a as b bs h h' ih =>
    have hlt : b < a := lt_of_le_of_ne (not_lt.1 h) (Ne.symm h')
    have hskip : ((a :: as : List α) : Multiset α) ∩ (b :: bs : List α) = ((a :: as : List α) : Multiset α) ∩ bs := by
      rw [Multiset.inter_comm, ← Multiset.cons_coe b bs, Multiset.cons_inter_of_neg _ (not_mem_of_lt_head hls hlt),
        Multiset.inter_comm]
    rw [countEqual, if_neg h, if_neg h', ih hls (List.sorted_cons.1 hrs).2, hskip]

theorem countEqual_le_min {ls rs : List α} (hls : ls.Sorted (· ≤ ·)) (hrs : rs.Sorted (· ≤ ·)) :
    countEqual ls rs ≤ min ls.length rs.length := by
  rw [countEqual_eq_card_inter hls hrs, ← Multiset.coe_card ls, ← Multiset.coe_card rs]
  exact le_min (Multiset.card_le_card (Multiset.inter_le_left _ _)) (Multiset.card_le_card (Multiset.inter_le_right _ _))

/-- For sorted samples: the merge loop stops within `|local| + |remote|` iterations, having
counted the size of the multiset intersection of the samples, which is at most the
smaller sample; so in `calcSim`, whose samples are sorted, the count is at most the larger
of the sample size and the remote sample's length, the denominator. -/
theorem mergeLoop_counts_common (ls rs : List α) (hls : ls.Sorted (· ≤ ·)) (hrs : rs.Sorted (· ≤ ·)) :
    mergeLoop ls rs (ls.length + rs.length) 0 0 0 = some (countEqual ls rs) ∧
    countEqual ls rs = Multiset.card ((ls : Multiset α) ∩ rs) ∧
    countEqual ls rs ≤ min ls.length rs.length ∧
    ∀ (cfg : Config) (info : RangeInfo α) (remoteSample : List α),
      countEqual ((info.start.take (min info.count cfg.sampleSize)).insertionSort (· ≤ ·))
        (remoteSample.insertionSort (· ≤ ·)) ≤ max (min info.count cfg.sampleSize) remoteSample.length := by
  refine ⟨by simpa using mergeLoop_eq ls rs _ 0 0 0 le_rfl, countEqual_eq_card_inter hls hrs,
    countEqual_le_min hls hrs, fun cfg info remoteSample => ?_⟩
  have h := countEqual_le_min (List.sorted_insertionSort (· ≤ ·) (info.start.take (min info.count cfg.sampleSize)))
    (List.sorted_insertionSort (· ≤ ·) remoteSample)
  simp only [List.length_insertionSort, List.length_take] at h
  omega

theorem mergeLoop_counts_common_duplicates :
    [1, 2, 2, 3].Sorted (· ≤ ·) ∧ [2, 2, 3, 4].Sorted (· ≤ ·) ∧
    mergeLoop [1, 2, 2, 3] [2, 2, 3, 4] ([1, 2, 2, 3].length + [2, 2, 3, 4].length) 0 0 0 =
      some (countEqual [1, 2, 2, 3] [2, 2, 3, 4]) ∧
    countEqual [1, 2, 2, 3] [2, 2, 3, 4] = Multiset.card (([1, 2, 2, 3] : Multiset ℕ) ∩ [2, 2, 3, 4]) ∧
    countEqual [1, 2, 2, 3] [2, 2, 3, 4] ≤ min [1, 2, 2, 3].length [2, 2, 3, 4].length ∧
    ∀ (cfg : Config) (info : RangeInfo ℕ) (remoteSample : List ℕ),
      countEqual ((info.start.take (min info.count cfg.sampleSize)).insertionSort (· ≤ ·))
        (remoteSample.insertionSort (· ≤ ·)) ≤ max (min info.count cfg.sampleSize) remoteSample.length :=
  ⟨by decide, by decide, mergeLoop_counts_common _ _ (by decide) (by decide)⟩

example : mergeLoop [1, 2, 2, 3] [2, 2, 3, 4] 8 0 0 0 = some 3 := by decide

/-! ## The probe -/

/-- For any two stores, bounds both nil or both set, and a sample size on `A` of at most
`maxSampleSize`: the probe succeeds; `B` sends one probe response, then `Done`, and
nothing more; the result carries `B`'s count and fingerprint of the probed keys, and a
similarity of 1 when `A`'s fingerprint of them is the same. -/
theorem probe_reports_peer_range (cfgA cfgB : Config) (a b : ItemStore α) (x y : Option α)
    (hxy : x.isSome = y.isSome) (hsample : cfgA.sampleSize ≤ maxSampleSize) :
    ∃ m pr, runBoundedProbe cfgA cfgB a b x y = .ok ([m, sendDone], pr) ∧ m.type = .probeResponse ∧
      pr.count = (probedKeys b x y).length ∧ pr.fp = some (probedKeys b x y) ∧
      (probedKeys b x y = probedKeys a x y → pr.sim = 1) := by
  obtain ⟨info, hinfo, hfp, -⟩ := getRangeInfo_probe a hxy
  obtain ⟨m, hm, ht, hmfp, hmc⟩ := handleMessage_probe cfgB b hxy info.fingerprint hsample
  refine ⟨m, ⟨m.fingerprint, m.count, calcSim cfgA info m.keys m.fingerprint⟩, ?_, ht, hmc, hmfp,
    fun heq => calcSim_of_eq cfgA (by rw [hmfp, heq, hfp])⟩
  simp only [runBoundedProbe, initiateBoundedProbe, hinfo, process_probe cfgB b rfl hm,
    handleProbeResponse_single cfgA info ht]

theorem probe_reports_peer_range_sample :
    (some 1 : Option ℕ).isSome = (some 3 : Option ℕ).isSome ∧ ({} : Config).sampleSize ≤ maxSampleSize ∧
    ∃ m pr, runBoundedProbe {} {} ⟨[1, 2], by decide⟩ ⟨[2, 3], by decide⟩ (some 1) (some 3) = .ok ([m, sendDone], pr) ∧
      m.type = .probeResponse ∧ pr.count = (probedKeys ⟨[2, 3], by decide⟩ (some 1) (some 3)).length ∧
      pr.fp = some (probedKeys ⟨[2, 3], by decide⟩ (some 1) (some 3)) ∧
      (probedKeys ⟨[2, 3], by decide⟩ (some 1) (some 3) = probedKeys ⟨[1, 2], by decide⟩ (some 1) (some 3) →
        pr.sim = 1) :=
  ⟨rfl, by decide, probe_reports_peer_range {} {} ⟨[1, 2], by decide⟩ ⟨[2, 3], by decide⟩ (some 1) (some 3) rfl
    (by decide)⟩
end Spacemesh.RangeSync
