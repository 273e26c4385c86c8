import Spacemesh.Eligibility.Oracle
import Spacemesh.GoMap

/-!
# The oracle's active sets

`Oracle.actives` of hare4 and what it calls: the target epoch of a layer, the reset of the
cache when the node turns synced, the `lru` cache of `activesCacheSize` epochs,
`computeActiveSet` (the fallback set of `UpdateActiveSet`, else the set of the epoch's first
block, else the union of the active sets of the first ballots with the epoch's beacon),
`computeActiveWeights` and the total weight; and the readers `ActiveSet`, `minerWeight`,
`totalWeight` and `IsIdentityActiveOnConsensusView`. What the database, the beacons,
`atxsdata` and the sync state give at the time of a call is an `ActivesView`. Go maps are
lists with one entry per key: the identity map keeps the order identities are first met,
and the keys of the ballots' map the order ATXs are first met, where Go's order is random.
Layers and epochs are `ℕ`.

Without a fallback set or a set of the epoch's first block, `computeActiveSet` gives, each
once, the ATXs of the readable active sets of the first ballots with the epoch's beacon
(`computeActiveSet_of_refBallots`). `computeActiveWeights` maps each identity that owns an ATX of the active set to the last
such ATX and its weight, and fails at the first ATX missing from `atxsdata`
(`computeActiveWeights_spec`). While an epoch stays in the cache, every `actives` call for it
answers the set cached first, whatever `UpdateActiveSet` or the database do
(`actives_stable`).
-/

namespace Spacemesh.Eligibility

def activesCacheSize : ℕ := 5

structure AtxInfo where
  node : ℕ
  weight : UInt64
  deriving DecidableEq, Repr

structure IdentityWeight where
  atx : ℕ
  weight : UInt64
  deriving DecidableEq, Repr

structure CachedActiveSet where
  set : List (ℕ × IdentityWeight)
  total : UInt64
  deriving DecidableEq, Repr

structure EpochData where
  beacon : ℕ
  activeSetHash : ℕ
  deriving DecidableEq, Repr

inductive ActivesError
  /-- `errEmptyActiveSet`. -/
  | emptyActiveSet
  /-- An error of `miner.ActiveSetFromEpochFirstBlock` other than `sql.ErrNotFound`. -/
  | db (msg : String)
  /-- `get beacon: %w`. -/
  | beacon (msg : String)
  /-- `first in epoch %d: %w`. -/
  | firstInEpoch (epoch : ℕ) (msg : String)
  /-- `oracle: missing atx in atxsdata %s/%s`. -/
  | missingAtx (epoch atx : ℕ)
  /-- `ErrNotActive`: `oracle: miner is not active in epoch`. -/
  | notActive (id : ℕ)
  deriving DecidableEq, Repr

/-- What a call of `actives` reads besides the oracle: `sync.IsSynced` (`none` with no sync
provider), `ActiveSetFromEpochFirstBlock` (`none` for `sql.ErrNotFound`), the beacons, the
first ballots' epoch data, `activesets.Get` and `atxsdata.Get`. -/
structure ActivesView where
  isSynced : Option Bool
  firstBlockActiveSet : ℕ → Except (Option String) (List ℕ)
  getBeacon : ℕ → Except String ℕ
  allFirstInEpoch : ℕ → Except String (List (Option EpochData))
  activeSetOf : ℕ → Except String (List ℕ)
  atxsdataGet : ℕ → ℕ → Option AtxInfo

structure OracleConfig where
  layersPerEpoch : ℕ
  effectiveGenesis : ℕ
  confidenceParam : ℕ

/-- The state of `Oracle` the active sets use: the cache, most recent first, `fallback` and
`synced`. -/
structure OracleState where
  activesCache : List (ℕ × CachedActiveSet)
  fallback : ℕ → Option (List ℕ)
  synced : Bool

/-! ## The cache -/

section Lru

variable {α : Type}

/-- `lru.Cache.Get`: the value of `k`, which moves to the front. -/
def lruGet (c : List (ℕ × α)) (k : ℕ) : Option α × List (ℕ × α) :=
  match mapGet c k with
  | none => (none, c)
  | some v => (some v, (k, v) :: c.filter (·.1 ≠ k))

/-- `lru.Cache.Add`: `k` with `v` at the front, the oldest entry dropped past `size`. -/
def lruAdd (size : ℕ) (c : List (ℕ × α)) (k : ℕ) (v : α) : List (ℕ × α) :=
  if (mapGet c k).isSome then (k, v) :: c.filter (·.1 ≠ k) else ((k, v) :: c).take size

theorem mapGet_filter_ne (c : List (ℕ × α)) {k e : ℕ} (h : e ≠ k) :
    mapGet (c.filter (·.1 ≠ k)) e = mapGet c e := by
  induction c with
  | nil => rfl
  | cons p c ih =>
    obtain ⟨k', v⟩ := p
    by_cases hk : k' = k
    · subst hk
      rw [List.filter_cons_of_neg (by simp), ih, mapGet_cons, if_neg (Ne.symm h)]
    · rw [List.filter_cons_of_pos (by simpa using hk), mapGet_cons, mapGet_cons, ih]

theorem mapGet_take (c : List (ℕ × α)) (n : ℕ) (e : ℕ) :
    mapGet (c.take n) e = mapGet c e ∨ mapGet (c.take n) e = none := by
  induction c generalizing n with
  | nil => simp
  | cons p c ih =>
    obtain ⟨k', v⟩ := p
    cases n with
    | zero => simp
    | succ n =>
      rw [List.take_succ_cons, mapGet_cons, mapGet_cons]
      split
      · exact .inl rfl
      · exact ih n

theorem mapGet_lruGet (c : List (ℕ × α)) (k e : ℕ) : mapGet (lruGet c k).2 e = mapGet c e := by
  unfold lruGet
  split
  · rfl
  · rename_i v hv
    rw [mapGet_cons]
    split
    · subst_vars; exact hv.symm
    · exact mapGet_filter_ne c (Ne.symm ‹_›)

theorem mapGet_lruAdd_of_ne (size : ℕ) (c : List (ℕ × α)) {k e : ℕ} (v : α) (h : k ≠ e) :
    mapGet (lruAdd size c k v) e = mapGet c e ∨ mapGet (lruAdd size c k v) e = none := by
  unfold lruAdd
  split
  · exact .inl (by rw [mapGet_cons, if_neg h, mapGet_filter_ne c (Ne.symm h)])
  · rcases mapGet_take ((k, v) :: c) size e with h' | h'
    · exact .inl (by rw [h', mapGet_cons, if_neg h])
    · exact .inr h'

end Lru

/-! ## The active set of an epoch -/

/-- `targetLayer.GetEpoch()`, moved back one epoch in the first `ConfidenceParam` layers of
an epoch after the first one past genesis. -/
def OracleConfig.targetEpoch (cfg : OracleConfig) (targetLayer : ℕ) : ℕ :=
  let e := targetLayer / cfg.layersPerEpoch
  if (cfg.effectiveGenesis + 1) / cfg.layersPerEpoch < e ∧
      targetLayer - e * cfg.layersPerEpoch < cfg.confidenceParam then e - 1
  else e

def resetCacheOnSynced (isSynced : Option Bool) (o : OracleState) : OracleState :=
  match isSynced with
  | none => o
  | some now => if !o.synced && now then { o with synced := now, activesCache := [] } else { o with synced := now }

def addKeys (keys ids : List ℕ) : List ℕ := ids.foldl (fun ks id => if id ∈ ks then ks else ks ++ [id]) keys

/-- The ballot loop of `activeSetFromRefBallots`. -/
def refBallotsLoop (view : ActivesView) (beacon : ℕ) : List ℕ → List (Option EpochData) → List ℕ
  | keys, [] => keys
  | keys, none :: ballots => refBallotsLoop view beacon keys ballots
  | keys, some ed :: ballots =>
    if ed.beacon ≠ beacon then refBallotsLoop view beacon keys ballots
    else
      match view.activeSetOf ed.activeSetHash with
      | .error _ => refBallotsLoop view beacon keys ballots
      | .ok actives => refBallotsLoop view beacon (addKeys keys actives) ballots

def activeSetFromRefBallots (view : ActivesView) (epoch : ℕ) : Except ActivesError (List ℕ) :=
  match view.getBeacon epoch with
  | .error e => .error (.beacon e)
  | .ok beacon =>
    match view.allFirstInEpoch epoch with
    | .error e => .error (.firstInEpoch epoch e)
    | .ok ballots => .ok (refBallotsLoop view beacon [] ballots)

def computeActiveSet (view : ActivesView) (fallback : ℕ → Option (List ℕ)) (targetEpoch : ℕ) :
    Except ActivesError (List ℕ) :=
  match fallback targetEpoch with
  | some activeSet => .ok activeSet
  | none =>
    match view.firstBlockActiveSet targetEpoch with
    | .error (some e) => .error (.db e)
    | .error none => activeSetFromRefBallots view targetEpoch
    | .ok [] => activeSetFromRefBallots view targetEpoch
    | .ok activeSet => .ok activeSet

def computeActiveWeights (view : ActivesView) (targetEpoch : ℕ) :
    List ℕ → List (ℕ × IdentityWeight) → Except ActivesError (List (ℕ × IdentityWeight))
  | [], identities => .ok identities
  | id :: ids, identities =>
    match view.atxsdataGet targetEpoch id with
    | none => .error (.missingAtx targetEpoch id)
    | some atx => computeActiveWeights view targetEpoch ids (mapSet identities atx.node ⟨id, atx.weight⟩)

def totalOf (set : List (ℕ × IdentityWeight)) : UInt64 := set.foldl (fun t p => t + p.2.weight) 0

def actives (cfg : OracleConfig) (view : ActivesView) (o : OracleState) (targetLayer : ℕ) :
    OracleState × Except ActivesError CachedActiveSet :=
  if targetLayer ≤ cfg.effectiveGenesis then (o, .error .emptyActiveSet)
  else
    let targetEpoch := cfg.targetEpoch targetLayer
    let o := resetCacheOnSynced view.isSynced o
    match lruGet o.activesCache targetEpoch with
    | (some value, cache) => ({ o with activesCache := cache }, .ok value)
    | (none, _) =>
      match computeActiveSet view o.fallback targetEpoch with
      | .error e => (o, .error e)
      | .ok activeSet =>
        if activeSet = [] then (o, .error .emptyActiveSet)
        else
          match computeActiveWeights view targetEpoch activeSet [] with
          | .error e => (o, .error e)
          | .ok activeWeights =>
            let aset : CachedActiveSet := ⟨activeWeights, totalOf activeWeights⟩
            ({ o with activesCache := lruAdd activesCacheSize o.activesCache targetEpoch aset }, .ok aset)

def updateActiveSet (o : OracleState) (epoch : ℕ) (activeSet : List ℕ) : OracleState :=
  match o.fallback epoch with
  | some _ => o
  | none => { o with fallback := fun e => if e = epoch then some activeSet else o.fallback e }

def minerWeight (cfg : OracleConfig) (view : ActivesView) (o : OracleState) (layer id : ℕ) :
    OracleState × Except ActivesError UInt64 :=
  let r := actives cfg view o layer
  (r.1, match r.2 with
    | .error e => .error e
    | .ok a => match mapGet a.set id with
      | none => .error (.notActive id)
      | some w => .ok w.weight)

def totalWeight (cfg : OracleConfig) (view : ActivesView) (o : OracleState) (layer : ℕ) :
    OracleState × Except ActivesError UInt64 :=
  let r := actives cfg view o layer
  (r.1, r.2.map (·.total))

def isIdentityActiveOnConsensusView (cfg : OracleConfig) (view : ActivesView) (o : OracleState)
    (edID layer : ℕ) : OracleState × Except ActivesError Bool :=
  let r := actives cfg view o layer
  (r.1, r.2.map fun a => (mapGet a.set edID).isSome)

def activeSet (cfg : OracleConfig) (view : ActivesView) (o : OracleState) (targetEpoch : ℕ) :
    OracleState × Except ActivesError (List ℕ) :=
  let r := actives cfg view o (targetEpoch * cfg.layersPerEpoch + cfg.confidenceParam)
  (r.1, r.2.map fun a => a.set.map (·.2.atx))

theorem targetEpoch_activeSet_layer (cfg : OracleConfig) (targetEpoch : ℕ)
    (h : cfg.confidenceParam < cfg.layersPerEpoch) :
    cfg.targetEpoch (targetEpoch * cfg.layersPerEpoch + cfg.confidenceParam) = targetEpoch := by
  have he : (targetEpoch * cfg.layersPerEpoch + cfg.confidenceParam) / cfg.layersPerEpoch = targetEpoch := by
    rw [Nat.add_comm, Nat.add_mul_div_right _ _ (by omega), Nat.div_eq_of_lt h, Nat.zero_add]
  simp only [OracleConfig.targetEpoch, he]
  rw [if_neg (by omega)]

/-! ## The active set from the first ballots -/

def ballotActives (view : ActivesView) (beacon : ℕ) : Option EpochData → List ℕ
  | none => []
  | some ed =>
    if ed.beacon ≠ beacon then []
    else
      match view.activeSetOf ed.activeSetHash with
      | .error _ => []
      | .ok actives => actives

theorem addKeys_append (keys l l' : List ℕ) : addKeys keys (l ++ l') = addKeys (addKeys keys l) l' :=
  List.foldl_append _ _ _ _

theorem addKeys_spec : ∀ (keys ids : List ℕ), keys.Nodup →
    (addKeys keys ids).Nodup ∧ ∀ x, x ∈ addKeys keys ids ↔ x ∈ keys ∨ x ∈ ids
  | keys, [], h => ⟨h, fun x => by simp [addKeys]⟩
  | keys, id :: ids, h => by
    have hstep : addKeys keys (id :: ids) = addKeys (if id ∈ keys then keys else keys ++ [id]) ids := rfl
    by_cases hid : id ∈ keys
    · obtain ⟨hnd, hmem⟩ := addKeys_spec keys ids h
      refine ⟨by rwa [hstep, if_pos hid], fun x => ?_⟩
      rw [hstep, if_pos hid, hmem, List.mem_cons]
      by_cases hx : x = id
      · subst hx; simp [hid]
      · simp [hx]
    · obtain ⟨hnd, hmem⟩ := addKeys_spec (keys ++ [id]) ids
        (List.nodup_append.2 ⟨h, List.nodup_singleton _, List.disjoint_singleton.2 hid⟩)
      refine ⟨by rwa [hstep, if_neg hid], fun x => ?_⟩
      rw [hstep, if_neg hid, hmem, List.mem_append, List.mem_singleton, List.mem_cons, or_assoc]

theorem mem_ballotActives (view : ActivesView) (beacon x : ℕ) (b : Option EpochData) :
    x ∈ ballotActives view beacon b ↔
      ∃ ed, b = some ed ∧ ed.beacon = beacon ∧ ∃ s, view.activeSetOf ed.activeSetHash = .ok s ∧ x ∈ s := by
  cases b with
  | none => simp [ballotActives]
  | some ed =>
    by_cases hb : ed.beacon = beacon
    · cases hs : view.activeSetOf ed.activeSetHash <;> simp [ballotActives, hb, hs]
    · simp [ballotActives, hb]

theorem refBallotsLoop_eq (view : ActivesView) (beacon : ℕ) : ∀ (keys : List ℕ) (ballots : List (Option EpochData)),
    refBallotsLoop view beacon keys ballots = addKeys keys (ballots.flatMap (ballotActives view beacon))
  | _, [] => rfl
  | keys, none :: ballots => refBallotsLoop_eq view beacon keys ballots
  | keys, some ed :: ballots => by
    rw [List.flatMap_cons, addKeys_append]
    by_cases hb : ed.beacon = beacon
    · cases hs : view.activeSetOf ed.activeSetHash <;>
        simp only [refBallotsLoop, ballotActives, hb, hs, ne_eq, not_true_eq_false, if_false] <;>
        exact refBallotsLoop_eq view beacon _ ballots
    · simp only [refBallotsLoop, ballotActives, hb, ne_eq, not_false_eq_true, if_true]
      exact refBallotsLoop_eq view beacon keys ballots

/-- With no fallback set and no set of the epoch's first block (not found, or empty),
`computeActiveSet` gives, each once, the ATXs of the active sets of the epoch's first ballots
that carry epoch data with the epoch's beacon and whose set can be read. -/
theorem computeActiveSet_of_refBallots (view : ActivesView) (fallback : ℕ → Option (List ℕ))
    (targetEpoch beacon : ℕ) (ballots : List (Option EpochData)) (hf : fallback targetEpoch = none)
    (hblock : view.firstBlockActiveSet targetEpoch = .error none ∨ view.firstBlockActiveSet targetEpoch = .ok [])
    (hbeacon : view.getBeacon targetEpoch = .ok beacon) (hballots : view.allFirstInEpoch targetEpoch = .ok ballots) :
    ∃ activeSet, computeActiveSet view fallback targetEpoch = .ok activeSet ∧ activeSet.Nodup ∧
      ∀ x, x ∈ activeSet ↔
        ∃ ed, some ed ∈ ballots ∧ ed.beacon = beacon ∧ ∃ s, view.activeSetOf ed.activeSetHash = .ok s ∧ x ∈ s := by
  have href : computeActiveSet view fallback targetEpoch = .ok (refBallotsLoop view beacon [] ballots) := by
    rcases hblock with h | h <;> simp [computeActiveSet, hf, h, activeSetFromRefBallots, hbeacon, hballots]
  obtain ⟨hnd, hmem⟩ := addKeys_spec [] (ballots.flatMap (ballotActives view beacon)) List.nodup_nil
  refine ⟨_, href, refBallotsLoop_eq view beacon [] ballots ▸ hnd, fun x => ?_⟩
  simp only [refBallotsLoop_eq, hmem, List.not_mem_nil, false_or, List.mem_flatMap, mem_ballotActives]
  constructor
  · rintro ⟨_, hb, ed, rfl, hrest⟩
    exact ⟨ed, hb, hrest⟩
  · rintro ⟨ed, hb, hrest⟩
    exact ⟨_, hb, ed, rfl, hrest⟩

theorem computeActiveSet_of_refBallots_two_ballots :
    computeActiveSet ⟨some true, fun _ => .error none, fun _ => .ok 3,
        fun _ => .ok [some ⟨3, 10⟩, none, some ⟨4, 11⟩, some ⟨3, 12⟩],
        fun h => .ok (if h = 10 then [1, 2] else if h = 12 then [2, 5] else [9]), fun _ _ => none⟩
      (fun _ => none) 2 = .ok [1, 2, 5] ∧
    ∃ activeSet, computeActiveSet ⟨some true, fun _ => .error none, fun _ => .ok 3,
        fun _ => .ok [some ⟨3, 10⟩, none, some ⟨4, 11⟩, some ⟨3, 12⟩],
        fun h => .ok (if h = 10 then [1, 2] else if h = 12 then [2, 5] else [9]), fun _ _ => none⟩
      (fun _ => none) 2 = .ok activeSet ∧ activeSet.Nodup ∧
      ∀ x, x ∈ activeSet ↔ ∃ ed : EpochData, some ed ∈ [some ⟨3, 10⟩, none, some ⟨4, 11⟩, some ⟨3, 12⟩] ∧
        ed.beacon = 3 ∧ ∃ s, (Except.ok (if ed.activeSetHash = 10 then [1, 2] else if ed.activeSetHash = 12 then [2, 5]
          else [9]) : Except String (List ℕ)) = .ok s ∧ x ∈ s :=
  ⟨rfl, computeActiveSet_of_refBallots _ _ 2 3 _ rfl (.inl rfl) rfl rfl⟩

/-! ## The weights -/

def lastOwned (view : ActivesView) (targetEpoch n : ℕ) : List ℕ → Option IdentityWeight
  | [] => none
  | id :: ids =>
    (lastOwned view targetEpoch n ids).or
      (match view.atxsdataGet targetEpoch id with
        | some a => if a.node = n then some ⟨id, a.weight⟩ else none
        | none => none)

theorem computeActiveWeights_ok (view : ActivesView) (targetEpoch : ℕ) : ∀ (ids : List ℕ)
    (identities : List (ℕ × IdentityWeight)), (∀ id ∈ ids, (view.atxsdataGet targetEpoch id).isSome) →
    (identities.map (·.1)).Nodup →
    ∃ w, computeActiveWeights view targetEpoch ids identities = .ok w ∧ (w.map (·.1)).Nodup ∧
      ∀ n, mapGet w n = (lastOwned view targetEpoch n ids).or (mapGet identities n)
  | [], identities, _, hnd => ⟨identities, rfl, hnd, fun n => by simp [lastOwned]⟩
  | id :: ids, identities, hall, hnd => by
    obtain ⟨a, ha⟩ := Option.isSome_iff_exists.1 (hall id (List.mem_cons_self _ _))
    obtain ⟨w, hw, hwnd, hfind⟩ := computeActiveWeights_ok view targetEpoch ids
      (mapSet identities a.node ⟨id, a.weight⟩) (fun x hx => hall x (List.mem_cons_of_mem _ hx))
      (nodup_keys_mapSet _ _ _ hnd)
    refine ⟨w, by simp [computeActiveWeights, ha, hw], hwnd, fun n => ?_⟩
    rw [hfind, mapGet_mapSet, lastOwned, ha, Option.or_assoc]
    by_cases hn : a.node = n <;> simp [hn]

theorem computeActiveWeights_missing (view : ActivesView) (targetEpoch : ℕ) {id : ℕ} (post : List ℕ)
    (hid : view.atxsdataGet targetEpoch id = none) : ∀ (pre : List ℕ) (identities : List (ℕ × IdentityWeight)),
    (∀ x ∈ pre, (view.atxsdataGet targetEpoch x).isSome) →
    computeActiveWeights view targetEpoch (pre ++ id :: post) identities = .error (.missingAtx targetEpoch id)
  | [], identities, _ => by simp [computeActiveWeights, hid]
  | x :: pre, identities, hpre => by
    obtain ⟨a, ha⟩ := Option.isSome_iff_exists.1 (hpre x (List.mem_cons_self _ _))
    simp only [List.cons_append, computeActiveWeights, ha]
    exact computeActiveWeights_missing view targetEpoch post hid pre _ fun y hy => hpre y (List.mem_cons_of_mem _ hy)

/-- `computeActiveWeights` fails, naming it, at the first ATX of the active set that
`atxsdata` does not hold; when it holds them all, the result has one entry per identity,
exactly for the identities that own an ATX of the set, each with the last such ATX and its
weight. -/
theorem computeActiveWeights_spec (view : ActivesView) (targetEpoch : ℕ) (activeSet : List ℕ) :
    (∀ pre id post, activeSet = pre ++ id :: post → (∀ x ∈ pre, (view.atxsdataGet targetEpoch x).isSome) →
      view.atxsdataGet targetEpoch id = none →
      computeActiveWeights view targetEpoch activeSet [] = .error (.missingAtx targetEpoch id)) ∧
    ((∀ id ∈ activeSet, (view.atxsdataGet targetEpoch id).isSome) →
      ∃ w, computeActiveWeights view targetEpoch activeSet [] = .ok w ∧ (w.map (·.1)).Nodup ∧
        ∀ n, mapGet w n = lastOwned view targetEpoch n activeSet) := by
  refine ⟨fun pre id post h hpre hid => h ▸ computeActiveWeights_missing view targetEpoch post hid pre [] hpre,
    fun hall => ?_⟩
  obtain ⟨w, hw, hnd, hfind⟩ := computeActiveWeights_ok view targetEpoch activeSet [] hall List.nodup_nil
  exact ⟨w, hw, hnd, fun n => by simpa using hfind n⟩

example : computeActiveWeights ⟨none, fun _ => .error none, fun _ => .ok 0, fun _ => .ok [], fun _ => .ok [],
    fun _ id => some ⟨5, UInt64.ofNat (id + 6)⟩⟩ 0 [1, 2] [] = .ok [(5, ⟨2, 8⟩)] := rfl

/-! ## Runs of the oracle -/

/-- The calls that reach the active sets: `actives` under the view of its time (through
`ActiveSet`, `minerWeight`, `totalWeight` and `IsIdentityActiveOnConsensusView`), and
`UpdateActiveSet`. -/
inductive OracleOp
  | actives (view : ActivesView) (targetLayer : ℕ)
  | updateActiveSet (epoch : ℕ) (activeSet : List ℕ)

def OracleOp.apply (cfg : OracleConfig) (o : OracleState) : OracleOp → OracleState
  | .actives view targetLayer => (Eligibility.actives cfg view o targetLayer).1
  | .updateActiveSet epoch activeSet => Eligibility.updateActiveSet o epoch activeSet

def OracleOp.resyncs (o : OracleState) : OracleOp → Prop
  | .actives view _ => o.synced = false ∧ view.isSynced = some true
  | .updateActiveSet _ _ => False

def runOracle (cfg : OracleConfig) : OracleState → List OracleOp → OracleState
  | o, [] => o
  | o, op :: ops => runOracle cfg (op.apply cfg o) ops

def activesAnswers (cfg : OracleConfig) : OracleState → List OracleOp → List (ℕ × Except ActivesError CachedActiveSet)
  | _, [] => []
  | o, .actives view targetLayer :: ops =>
    (targetLayer, (actives cfg view o targetLayer).2) :: activesAnswers cfg (actives cfg view o targetLayer).1 ops
  | o, .updateActiveSet epoch activeSet :: ops => activesAnswers cfg (updateActiveSet o epoch activeSet) ops

def KeepsEpoch (cfg : OracleConfig) (e : ℕ) : OracleState → List OracleOp → Prop
  | _, [] => True
  | o, op :: ops =>
    ¬ op.resyncs o ∧ (mapGet (op.apply cfg o).activesCache e).isSome ∧ KeepsEpoch cfg e (op.apply cfg o) ops

theorem resetCacheOnSynced_activesCache (view : ActivesView) (o : OracleState)
    (h : ¬ (o.synced = false ∧ view.isSynced = some true)) :
    (resetCacheOnSynced view.isSynced o).activesCache = o.activesCache := by
  unfold resetCacheOnSynced
  split
  · rfl
  · rename_i now hnow
    rw [if_neg fun hc => h ?_]
    rw [Bool.and_eq_true, Bool.not_eq_true'] at hc
    exact ⟨hc.1, hc.2 ▸ hnow⟩

theorem lruGet_of_mapGet {α : Type} {c : List (ℕ × α)} {k : ℕ} {v : α} (h : mapGet c k = some v) :
    lruGet c k = (some v, (k, v) :: c.filter (·.1 ≠ k)) := by
  simp [lruGet, h]

theorem mapGet_actives (cfg : OracleConfig) (view : ActivesView) (o : OracleState) (targetLayer e : ℕ)
    {S : CachedActiveSet} (hS : mapGet o.activesCache e = some S)
    (hr : ¬ (o.synced = false ∧ view.isSynced = some true)) :
    mapGet (actives cfg view o targetLayer).1.activesCache e = some S ∨
      mapGet (actives cfg view o targetLayer).1.activesCache e = none := by
  have hc := resetCacheOnSynced_activesCache view o hr
  unfold actives
  split
  · exact .inl hS
  dsimp only
  split
  · rename_i v cache hget
    have h := mapGet_lruGet (resetCacheOnSynced view.isSynced o).activesCache (cfg.targetEpoch targetLayer) e
    rw [hget, hc, hS] at h
    exact .inl h
  · rename_i cache hget
    have hmiss : mapGet o.activesCache (cfg.targetEpoch targetLayer) = none := by
      rw [← hc]; unfold lruGet at hget
      split at hget
      · assumption
      · cases hget
    split
    · exact .inl (hc ▸ hS)
    split
    · exact .inl (hc ▸ hS)
    split
    · exact .inl (hc ▸ hS)
    have hne : cfg.targetEpoch targetLayer ≠ e := fun h => by rw [h, hS] at hmiss; cases hmiss
    simpa only [hc, hS] using mapGet_lruAdd_of_ne activesCacheSize
      (resetCacheOnSynced view.isSynced o).activesCache _ hne

theorem actives_of_cached (cfg : OracleConfig) (view : ActivesView) (o : OracleState) {targetLayer : ℕ}
    {S : CachedActiveSet} (hl : cfg.effectiveGenesis < targetLayer)
    (hS : mapGet o.activesCache (cfg.targetEpoch targetLayer) = some S)
    (hr : ¬ (o.synced = false ∧ view.isSynced = some true)) :
    (actives cfg view o targetLayer).2 = .ok S := by
  have hc := resetCacheOnSynced_activesCache view o hr
  rw [← hc] at hS
  simp only [actives, if_neg (Nat.not_le.2 hl), lruGet_of_mapGet hS]

/-- While an epoch stays in the oracle's cache and the node does not turn synced again,
every `actives` call for a layer past genesis whose target epoch it is answers the set that
was cached, whatever `UpdateActiveSet` and the database do meanwhile, and the cache still
holds that set at the end. -/
theorem actives_stable (cfg : OracleConfig) (e : ℕ) (S : CachedActiveSet) :
    ∀ (ops : List OracleOp) (o : OracleState), mapGet o.activesCache e = some S → KeepsEpoch cfg e o ops →
      mapGet (runOracle cfg o ops).activesCache e = some S ∧
      ∀ targetLayer r, (targetLayer, r) ∈ activesAnswers cfg o ops → cfg.effectiveGenesis < targetLayer →
        cfg.targetEpoch targetLayer = e → r = .ok S
  | [], o, hS, _ => ⟨hS, fun _ _ h => nomatch h⟩
  | .actives view targetLayer :: ops, o, hS, ⟨hr, hsome, hkeep⟩ => by
    have hS' : mapGet (actives cfg view o targetLayer).1.activesCache e = some S := by
      rcases mapGet_actives cfg view o targetLayer e hS hr with h | h
      · exact h
      · simp [OracleOp.apply, h] at hsome
    obtain ⟨hend, hans⟩ := actives_stable cfg e S ops _ hS' hkeep
    refine ⟨hend, fun l r hmem hl he => ?_⟩
    rcases List.mem_cons.1 hmem with h | h
    · cases h
      exact actives_of_cached cfg view o hl (he ▸ hS) hr
    · exact hans l r h hl he
  | .updateActiveSet epoch activeSet :: ops, o, hS, ⟨_, _, hkeep⟩ => by
    have hS' : mapGet (updateActiveSet o epoch activeSet).activesCache e = some S := by
      unfold updateActiveSet; split <;> exact hS
    exact actives_stable cfg e S ops _ hS' hkeep

theorem actives_stable_across_update :
    mapGet [(1, (⟨[(3, ⟨4, 9⟩)], 9⟩ : CachedActiveSet))] 1 = some ⟨[(3, ⟨4, 9⟩)], 9⟩ ∧
    KeepsEpoch ⟨10, 5, 2⟩ 1 ⟨[(1, ⟨[(3, ⟨4, 9⟩)], 9⟩)], fun _ => none, true⟩
      [.actives ⟨some true, fun _ => .error none, fun _ => .ok 0, fun _ => .ok [], fun _ => .ok [], fun _ _ => none⟩ 15,
        .updateActiveSet 1 [5],
        .actives ⟨some true, fun _ => .error none, fun _ => .ok 0, fun _ => .ok [], fun _ => .ok [], fun _ _ => none⟩ 21] ∧
    mapGet (runOracle ⟨10, 5, 2⟩ ⟨[(1, ⟨[(3, ⟨4, 9⟩)], 9⟩)], fun _ => none, true⟩
      [.actives ⟨some true, fun _ => .error none, fun _ => .ok 0, fun _ => .ok [], fun _ => .ok [], fun _ _ => none⟩ 15,
        .updateActiveSet 1 [5],
        .actives ⟨some true, fun _ => .error none, fun _ => .ok 0, fun _ => .ok [], fun _ => .ok [], fun _ _ => none⟩ 21]).activesCache
      1 = some ⟨[(3, ⟨4, 9⟩)], 9⟩ ∧
    ∀ targetLayer r, (targetLayer, r) ∈ activesAnswers ⟨10, 5, 2⟩ ⟨[(1, ⟨[(3, ⟨4, 9⟩)], 9⟩)], fun _ => none, true⟩
      [.actives ⟨some true, fun _ => .error none, fun _ => .ok 0, fun _ => .ok [], fun _ => .ok [], fun _ _ => none⟩ 15,
        .updateActiveSet 1 [5],
        .actives ⟨some true, fun _ => .error none, fun _ => .ok 0, fun _ => .ok [], fun _ => .ok [], fun _ _ => none⟩ 21] →
      (OracleConfig.effectiveGenesis ⟨10, 5, 2⟩) < targetLayer → OracleConfig.targetEpoch ⟨10, 5, 2⟩ targetLayer = 1 →
      r = .ok ⟨[(3, ⟨4, 9⟩)], 9⟩ :=
  have hkeep : KeepsEpoch ⟨10, 5, 2⟩ 1 ⟨[(1, ⟨[(3, ⟨4, 9⟩)], 9⟩)], fun _ => none, true⟩
      [.actives ⟨some true, fun _ => .error none, fun _ => .ok 0, fun _ => .ok [], fun _ => .ok [], fun _ _ => none⟩ 15,
        .updateActiveSet 1 [5],
        .actives ⟨some true, fun _ => .error none, fun _ => .ok 0, fun _ => .ok [], fun _ => .ok [], fun _ _ => none⟩ 21] :=
    ⟨fun h => absurd h.1 (by decide), rfl, id, rfl, fun h => absurd h.1 (by decide), rfl, trivial⟩
  ⟨rfl, hkeep, actives_stable ⟨10, 5, 2⟩ 1 ⟨[(3, ⟨4, 9⟩)], 9⟩ _ _ rfl hkeep⟩

end Spacemesh.Eligibility
