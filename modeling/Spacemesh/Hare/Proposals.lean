import Mathlib.Data.List.Basic

/-!
# The proposals hare votes for

`Hare.selectProposals`. The signer loop keeps the lowest of the signers' own ATXs of the
target epoch, and returns nothing at a lookup error other than `sql.ErrNotFound`; the
candidate loop keeps, in order, the proposals that neither a malicious smesher nor a
malicious proposal made, whose ATX no other candidate uses, whose ATX base height is below
that lowest height and whose beacon is the session's, and returns nothing at a candidate
whose ATX is not loaded. The database and `atxsdata` lookups, already at the publish and the
target epoch, are parameters; heights are compared only, so they are `ℕ`.

The lowest height is a stand-in for all of them: the result is exactly the candidates that
pass the checks against every signer's own ATX, unless one of the three early returns
applies (`selectProposals_eq`).
-/

namespace Spacemesh.Hare

structure AtxData where
  baseHeight : ℕ
  height : ℕ
  deriving DecidableEq, Repr

structure Proposal where
  id : ℕ
  atxID : ℕ
  smesherID : ℕ
  malicious : Bool
  beacon : ℕ
  deriving DecidableEq, Repr

inductive LookupError
  | notFound
  | other (msg : String)
  deriving DecidableEq, Repr

section Select

variable (getIDByNodeID : ℕ → Except LookupError ℕ) (atxsdataGet : ℕ → Option AtxData)
  (isMalicious : ℕ → Bool)

/-- The update of the signer loop: `min == nil || (own != nil && own.Height < min.Height)`. -/
def lowerAtx (min own : Option AtxData) : Option AtxData :=
  match min, own with
  | none, _ => own
  | some m, some o => if o.height < m.height then own else min
  | some _, none => min

/-- The signer loop: the lowest own ATX, or `none` at a lookup error other than
`ErrNotFound`. -/
def minOwnAtx : Option AtxData → List ℕ → Option (Option AtxData)
  | min, [] => some min
  | min, signer :: signers =>
    match getIDByNodeID signer with
    | .error .notFound => minOwnAtx min signers
    | .error (.other _) => none
    | .ok atxid => minOwnAtx (lowerAtx min (atxsdataGet atxid)) signers

/-- The candidate loop against the lowest own ATX `min`, over `ps`, a part of `candidates`;
`none` at a candidate whose ATX is not loaded. -/
def voteLoop (min : AtxData) (beacon : ℕ) (candidates : List Proposal) : List Proposal → Option (List ℕ)
  | [] => some []
  | p :: ps =>
    if isMalicious p.smesherID || p.malicious then voteLoop min beacon candidates ps
    else if 1 < candidates.countP (fun q => q.atxID = p.atxID) then voteLoop min beacon candidates ps
    else
      match atxsdataGet p.atxID with
      | none => none
      | some header =>
        if min.height ≤ header.baseHeight then voteLoop min beacon candidates ps
        else if p.beacon = beacon then (voteLoop min beacon candidates ps).map (p.id :: ·)
        else voteLoop min beacon candidates ps

def selectProposals (signers : List ℕ) (beacon : ℕ) (candidates : List Proposal) : List ℕ :=
  match minOwnAtx getIDByNodeID atxsdataGet none signers with
  | none => []
  | some none => []
  | some (some min) => (voteLoop atxsdataGet isMalicious min beacon candidates candidates).getD []

/-! ## What the loops compute -/

def lookupFails (signer : ℕ) : Bool :=
  match getIDByNodeID signer with
  | .error (.other _) => true
  | _ => false

def ownAtxs (signers : List ℕ) : List AtxData :=
  signers.filterMap fun s =>
    match getIDByNodeID s with
    | .ok atxid => atxsdataGet atxid
    | .error _ => none

def passesChecks (candidates : List Proposal) (p : Proposal) : Bool :=
  !(isMalicious p.smesherID || p.malicious) && decide (candidates.countP (fun q => q.atxID = p.atxID) ≤ 1)

def votable (below : ℕ → Bool) (beacon : ℕ) (p : Proposal) : Bool :=
  (match atxsdataGet p.atxID with | some h => below h.baseHeight | none => false) && p.beacon == beacon

theorem lowerAtx_none (min : Option AtxData) : lowerAtx min none = min := by
  cases min <;> rfl

theorem voteLoop_cons (min : AtxData) (beacon : ℕ) (candidates : List Proposal) (p : Proposal)
    (ps : List Proposal) :
    voteLoop atxsdataGet isMalicious min beacon candidates (p :: ps) =
      if passesChecks isMalicious candidates p && (atxsdataGet p.atxID).isNone then none
      else if passesChecks isMalicious candidates p && votable atxsdataGet (fun b => decide (b < min.height)) beacon p
        then (voteLoop atxsdataGet isMalicious min beacon candidates ps).map (p.id :: ·)
      else voteLoop atxsdataGet isMalicious min beacon candidates ps := by
  rw [voteLoop]
  by_cases hm : (isMalicious p.smesherID || p.malicious) = true
  · simp [hm, passesChecks]
  by_cases hc : 1 < candidates.countP (fun q => q.atxID = p.atxID)
  · have hc' : ¬ candidates.countP (fun q => q.atxID = p.atxID) ≤ 1 := by omega
    simp [hm, hc, hc', passesChecks]
  have hpass : passesChecks isMalicious candidates p = true := by
    simp only [passesChecks, Bool.and_eq_true, Bool.not_eq_true', decide_eq_true_eq]
    exact ⟨by simpa using hm, by omega⟩
  simp only [hm, hc, if_false, hpass, Bool.true_and, votable]
  cases atxsdataGet p.atxID with
  | none => rfl
  | some h =>
    by_cases hb : min.height ≤ h.baseHeight
    · simp [hb, Nat.not_lt.2 hb]
    · by_cases hbeacon : p.beacon = beacon <;> simp [hb, hbeacon, Nat.lt_of_not_le hb]

theorem voteLoop_eq (min : AtxData) (beacon : ℕ) (candidates : List Proposal) :
    ∀ ps, voteLoop atxsdataGet isMalicious min beacon candidates ps =
      if ps.any (fun p => passesChecks isMalicious candidates p && (atxsdataGet p.atxID).isNone) then none
      else some ((ps.filter fun p => passesChecks isMalicious candidates p &&
        votable atxsdataGet (fun b => decide (b < min.height)) beacon p).map (·.id))
  | [] => rfl
  | p :: ps => by
    rw [voteLoop_cons, voteLoop_eq min beacon candidates ps, List.any_cons, List.filter_cons]
    cases passesChecks isMalicious candidates p && (atxsdataGet p.atxID).isNone <;>
      cases passesChecks isMalicious candidates p && votable atxsdataGet (fun b => decide (b < min.height)) beacon p <;>
      cases ps.any (fun p => passesChecks isMalicious candidates p && (atxsdataGet p.atxID).isNone) <;> rfl

theorem minOwnAtx_eq : ∀ (signers : List ℕ) (min : Option AtxData),
    minOwnAtx getIDByNodeID atxsdataGet min signers =
      if signers.any (lookupFails getIDByNodeID) then none
      else some ((ownAtxs getIDByNodeID atxsdataGet signers).foldl (fun m o => lowerAtx m (some o)) min)
  | [], _ => rfl
  | s :: ss, min => by
    unfold minOwnAtx
    simp only [List.any_cons, ownAtxs, List.filterMap_cons, lookupFails]
    cases getIDByNodeID s with
    | error e =>
      cases e with
      | notFound => simpa [ownAtxs, lookupFails] using minOwnAtx_eq ss min
      | other _ => simp
    | ok atxid =>
      cases ha : atxsdataGet atxid with
      | none => simpa [ownAtxs, lookupFails, ha, lowerAtx_none] using minOwnAtx_eq ss min
      | some o => simpa [ownAtxs, lookupFails, ha] using minOwnAtx_eq ss (lowerAtx min (some o))

/-! ## The lowest own ATX -/

theorem lowerAtx_some (m0 : Option AtxData) (o : AtxData) :
    ∃ m', lowerAtx m0 (some o) = some m' ∧ (m0 = some m' ∨ m' = o) ∧ m'.height ≤ o.height ∧
      ∀ a, m0 = some a → m'.height ≤ a.height := by
  cases m0 with
  | none => exact ⟨o, rfl, .inr rfl, le_rfl, fun _ h => nomatch h⟩
  | some a =>
    by_cases h : o.height < a.height
    · exact ⟨o, if_pos h, .inr rfl, le_rfl, fun _ h' => by cases h'; omega⟩
    · exact ⟨a, if_neg h, .inl rfl, by omega, fun _ h' => by cases h'; exact le_rfl⟩

theorem foldLower_eq_none : ∀ (l : List AtxData) (m0 : Option AtxData),
    l.foldl (fun m o => lowerAtx m (some o)) m0 = none ↔ m0 = none ∧ l = []
  | [], m0 => by simp
  | o :: l, m0 => by
    obtain ⟨m', hm', -⟩ := lowerAtx_some m0 o
    rw [List.foldl_cons, hm', foldLower_eq_none l]
    simp

theorem foldLower_lowest : ∀ (l : List AtxData) (m0 : Option AtxData) (m : AtxData),
    l.foldl (fun m o => lowerAtx m (some o)) m0 = some m →
      (m0 = some m ∨ m ∈ l) ∧ (∀ o ∈ l, m.height ≤ o.height) ∧ ∀ a, m0 = some a → m.height ≤ a.height
  | [], m0, m, h => by simp only [List.foldl_nil] at h; subst h; simp
  | o :: l, m0, m, h => by
    obtain ⟨m', hm', hmem', hlo, hle0⟩ := lowerAtx_some m0 o
    rw [List.foldl_cons, hm'] at h
    obtain ⟨hmem, hl, hm0⟩ := foldLower_lowest l (some m') m h
    have hmm' := hm0 m' rfl
    refine ⟨?_, ?_, fun a ha => hmm'.trans (hle0 a ha)⟩
    · rcases hmem with h1 | h1
      · cases h1
        rcases hmem' with h2 | rfl
        · exact .inl h2
        · exact .inr (List.mem_cons_self _ _)
      · exact .inr (List.mem_cons_of_mem _ h1)
    · intro o' ho'
      rcases List.mem_cons.1 ho' with rfl | ho'
      · exact hmm'.trans hlo
      · exact hl o' ho'

theorem lt_lowest_iff {l : List AtxData} {m : AtxData}
    (h : l.foldl (fun m o => lowerAtx m (some o)) none = some m) (b : ℕ) :
    b < m.height ↔ ∀ o ∈ l, b < o.height := by
  obtain ⟨hmem, hle, -⟩ := foldLower_lowest l none m h
  have hm : m ∈ l := hmem.resolve_left (by simp)
  exact ⟨fun hb o ho => Nat.lt_of_lt_of_le hb (hle o ho), fun hall => hall m hm⟩

/-- `selectProposals` returns nothing when a signer's ATX lookup fails with an error other
than `ErrNotFound`, when no signer has an own ATX loaded, or when a candidate that passes
the malice and ATX-uniqueness checks has no ATX loaded. Otherwise it returns, in order, the
ids of exactly the candidates that pass those checks, whose ATX base height is below the
height of every signer's own loaded ATX, and whose beacon is the session's. -/
theorem selectProposals_eq (signers : List ℕ) (beacon : ℕ) (candidates : List Proposal) :
    selectProposals getIDByNodeID atxsdataGet isMalicious signers beacon candidates =
      if signers.any (lookupFails getIDByNodeID) || (ownAtxs getIDByNodeID atxsdataGet signers).isEmpty ||
          candidates.any (fun p => passesChecks isMalicious candidates p && (atxsdataGet p.atxID).isNone) then []
      else
        (candidates.filter fun p => passesChecks isMalicious candidates p &&
          votable atxsdataGet (fun b => (ownAtxs getIDByNodeID atxsdataGet signers).all (b < ·.height)) beacon p).map
          (·.id) := by
  unfold selectProposals
  rw [minOwnAtx_eq]
  cases hf : signers.any (lookupFails getIDByNodeID)
  case true => rfl
  simp only [Bool.false_eq_true, if_false, Bool.false_or]
  cases hlow : (ownAtxs getIDByNodeID atxsdataGet signers).foldl (fun m o => lowerAtx m (some o)) none with
  | none => simp [((foldLower_eq_none _ none).1 hlow).2]
  | some m =>
    have hne : (ownAtxs getIDByNodeID atxsdataGet signers).isEmpty = false := by
      cases h : ownAtxs getIDByNodeID atxsdataGet signers
      · rw [h] at hlow; cases hlow
      · rfl
    have hbelow : (fun b => decide (b < m.height)) =
        fun b => (ownAtxs getIDByNodeID atxsdataGet signers).all (b < ·.height) := by
      funext b
      rw [Bool.eq_iff_iff, decide_eq_true_iff, List.all_eq_true, lt_lowest_iff hlow b]
      simp only [decide_eq_true_eq]
    simp only [hne, Bool.false_or, voteLoop_eq, hbelow]
    cases candidates.any (fun p => passesChecks isMalicious candidates p && (atxsdataGet p.atxID).isNone) <;> rfl

end Select

end Spacemesh.Hare
