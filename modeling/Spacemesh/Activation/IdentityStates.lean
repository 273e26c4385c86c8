import Mathlib.Data.List.Basic

/-!
# The identity state storage

`IdentityStateStorage` of the activation package: a map from node ids to
`types.IdentityState`, changed only by `Set`, which accepts an identity it does not know
only at `WaitForATXSyncing` and a known one only along `validStateSwitch` (setting the
state an identity already has is accepted and changes nothing).

One call moves an identity's state at most one edge of that table (`moves_set`). Over any
run of calls, for any identities and in any order, every state an identity holds has
been reached along the PoET cycle: the states of `lifecyclePath` appear, in order, in
its history (`lifecyclePath_sublist_history`). `Get` answers `ErrIdentityStateUnknown`
exactly for the identities no call has set to `WaitForATXSyncing`
(`get_runSets_eq_unknown`).
-/

namespace Spacemesh.Activation

/-- `types.IdentityState`: the states the storage names. -/
inductive IdentityState
  | waitForATXSyncing
  | postProving
  | waitForPoetRoundStart
  | waitForPoetRoundEnd
  | fetchingProofs
  deriving DecidableEq, Repr

open IdentityState

def validStateSwitch : IdentityState → Option (List IdentityState)
  | waitForATXSyncing => some [waitForPoetRoundStart]
  | postProving => some [waitForPoetRoundStart]
  | waitForPoetRoundStart => some [waitForPoetRoundEnd, waitForATXSyncing]
  | waitForPoetRoundEnd => some [fetchingProofs, waitForPoetRoundStart]
  | fetchingProofs => some [postProving, waitForPoetRoundStart]

/-- `ErrInvalidIdentityStateSwitch` and `types.ErrIdentityStateUnknown`. -/
inductive IdentityStateError
  | invalidIdentityStateSwitch
  | identityStateUnknown
  deriving DecidableEq, Repr

structure IdentityStateStorage (NodeID : Type) where
  states : NodeID → Option IdentityState

section Storage

variable {NodeID : Type} [DecidableEq NodeID]

def newIdentityStateStorage : IdentityStateStorage NodeID := ⟨fun _ => none⟩

def IdentityStateStorage.put (s : IdentityStateStorage NodeID) (id : NodeID) (st : IdentityState) :
    IdentityStateStorage NodeID :=
  ⟨fun id' => if id' = id then some st else s.states id'⟩

@[simp] theorem put_states_self (s : IdentityStateStorage NodeID) (id : NodeID) (st : IdentityState) :
    (s.put id st).states id = some st := by
  simp [IdentityStateStorage.put]

@[simp] theorem put_states_of_ne (s : IdentityStateStorage NodeID) {id id' : NodeID} (st : IdentityState)
    (h : id' ≠ id) : (s.put id st).states id' = s.states id' := by
  simp [IdentityStateStorage.put, h]

def set (s : IdentityStateStorage NodeID) (id : NodeID) (newState : IdentityState) :
    Option IdentityStateError × IdentityStateStorage NodeID :=
  match s.states id with
  | none =>
    if newState = waitForATXSyncing then (none, s.put id newState)
    else (some .invalidIdentityStateSwitch, s)
  | some currentState =>
    if currentState = newState then (none, s)
    else
      match validStateSwitch currentState with
      | some validNextStates =>
        if newState ∈ validNextStates then (none, s.put id newState)
        else (some .invalidIdentityStateSwitch, s)
      | none => (some .invalidIdentityStateSwitch, s)

def get (s : IdentityStateStorage NodeID) (id : NodeID) : Except IdentityStateError IdentityState :=
  match s.states id with
  | none => .error .identityStateUnknown
  | some state => .ok state

def all (s : IdentityStateStorage NodeID) : NodeID → Option IdentityState := s.states

/-- What one call may do to the state of an identity: keep it, give an unknown identity
`WaitForATXSyncing`, or take one switch of `validStateSwitch`. -/
inductive Moves : Option IdentityState → Option IdentityState → Prop
  | stay (o : Option IdentityState) : Moves o o
  | enter : Moves none (some waitForATXSyncing)
  | switch {a b : IdentityState} : b ∈ (validStateSwitch a).getD [] → Moves (some a) (some b)

theorem Moves.eq_none {o o' : Option IdentityState} (h : Moves o o') (h' : o' = none) : o = none := by
  cases h <;> first | exact h' | cases h'

theorem Moves.eq_enter {b : IdentityState} (h : Moves none (some b)) : b = waitForATXSyncing := by
  cases h; rfl

theorem set_spec (s : IdentityStateStorage NodeID) (id : NodeID) (newState : IdentityState) :
    set s id newState = (some .invalidIdentityStateSwitch, s) ∨ set s id newState = (none, s) ∨
      (set s id newState = (none, s.put id newState) ∧ Moves (s.states id) (some newState)) := by
  unfold set
  cases h : s.states id with
  | none =>
    by_cases hn : newState = waitForATXSyncing
    · subst hn; exact .inr (.inr ⟨if_pos rfl, .enter⟩)
    · exact .inl (if_neg hn)
  | some currentState =>
    by_cases he : currentState = newState
    · exact .inr (.inl (if_pos he))
    · simp only [if_neg he]
      cases hv : validStateSwitch currentState with
      | none => exact .inl rfl
      | some l =>
        by_cases hm : newState ∈ l
        · exact .inr (.inr ⟨if_pos hm, .switch (by simp [hv, hm])⟩)
        · exact .inl (if_neg hm)

theorem set_snd_of_error {s : IdentityStateStorage NodeID} {id : NodeID} {newState : IdentityState}
    {e : IdentityStateError} (h : (set s id newState).1 = some e) : (set s id newState).2 = s := by
  rcases set_spec s id newState with h' | h' | ⟨h', -⟩ <;> rw [h'] at h ⊢
  cases h

theorem set_new {s : IdentityStateStorage NodeID} {id : NodeID} (h : s.states id = none) :
    set s id waitForATXSyncing = (none, s.put id waitForATXSyncing) := by
  simp [set, h]

theorem moves_set (s : IdentityStateStorage NodeID) (id id' : NodeID) (st : IdentityState) :
    Moves (s.states id) ((set s id' st).2.states id) := by
  rcases set_spec s id' st with h | h | ⟨h, hm⟩ <;> rw [h]
  · exact .stay _
  · exact .stay _
  · by_cases hid : id = id'
    · subst hid; simpa using hm
    · rw [put_states_of_ne _ _ hid]; exact .stay _

def runSets : IdentityStateStorage NodeID → List (NodeID × IdentityState) → IdentityStateStorage NodeID
  | s, [] => s
  | s, (id, st) :: calls => runSets (set s id st).2 calls

def history (id : NodeID) : IdentityStateStorage NodeID → List (NodeID × IdentityState) → List IdentityState
  | _, [] => []
  | s, (id', st) :: calls => ((set s id' st).2.states id).toList ++ history id (set s id' st).2 calls

/-! ## The PoET cycle -/

/-- The states an identity passes through, in order, on the way to a state: `PostProving`
only after a PoET round has started and ended and its proofs were fetched. -/
def lifecyclePath : IdentityState → List IdentityState
  | waitForATXSyncing => [waitForATXSyncing]
  | waitForPoetRoundStart => [waitForATXSyncing, waitForPoetRoundStart]
  | waitForPoetRoundEnd => [waitForATXSyncing, waitForPoetRoundStart, waitForPoetRoundEnd]
  | fetchingProofs => [waitForATXSyncing, waitForPoetRoundStart, waitForPoetRoundEnd, fetchingProofs]
  | postProving =>
    [waitForATXSyncing, waitForPoetRoundStart, waitForPoetRoundEnd, fetchingProofs, postProving]

theorem lifecyclePath_eq (b : IdentityState) : lifecyclePath b = (lifecyclePath b).dropLast ++ [b] := by
  cases b <;> rfl

theorem lifecyclePath_switch {a b : IdentityState} (h : b ∈ (validStateSwitch a).getD []) :
    List.Sublist (lifecyclePath b).dropLast (lifecyclePath a) := by
  revert h
  cases a <;> cases b <;> decide

def PathIn (h : List IdentityState) (o : Option IdentityState) : Prop :=
  ∀ c ∈ o, List.Sublist (lifecyclePath c) h

theorem pathIn_moves {h : List IdentityState} {o o' : Option IdentityState} (hm : Moves o o')
    (hp : PathIn h o) : PathIn (h ++ o'.toList) o' := by
  cases hm with
  | stay o => exact fun c hc => (hp c hc).trans (List.sublist_append_left _ _)
  | enter =>
    rintro c ⟨⟩
    exact List.sublist_append_right _ _
  | @switch a b hab =>
    rintro _ ⟨⟩
    rw [lifecyclePath_eq]
    exact ((lifecyclePath_switch hab).trans (hp a rfl)).append (List.Sublist.refl _)

theorem pathIn_runSets (id : NodeID) (calls : List (NodeID × IdentityState)) :
    ∀ (s : IdentityStateStorage NodeID) (h : List IdentityState), PathIn h (s.states id) →
      PathIn (h ++ history id s calls) ((runSets s calls).states id) := by
  induction calls with
  | nil => simp [runSets, history]
  | cons call calls ih =>
    intro s h hp
    obtain ⟨id', st⟩ := call
    have := ih _ _ (pathIn_moves (moves_set s id id' st) hp)
    simpa only [runSets, history, List.append_assoc] using this

/-- Whatever calls a run makes, for any identities and in any order, an identity holds a
state only after it held every state of the PoET cycle before it, in that order. -/
theorem lifecyclePath_sublist_history (calls : List (NodeID × IdentityState)) (id : NodeID)
    (c : IdentityState) (hc : (runSets newIdentityStateStorage calls).states id = some c) :
    List.Sublist (lifecyclePath c) (history id newIdentityStateStorage calls) := by
  have := pathIn_runSets id calls newIdentityStateStorage [] (fun _ h => nomatch h)
  exact this c hc

theorem lifecyclePath_sublist_history_postProving :
    (runSets newIdentityStateStorage
        [(0, waitForATXSyncing), (0, waitForPoetRoundStart), (0, waitForPoetRoundEnd),
          (0, fetchingProofs), (0, postProving)]).states 0 = some postProving ∧
      List.Sublist (lifecyclePath postProving) (history 0 newIdentityStateStorage
        [(0, waitForATXSyncing), (0, waitForPoetRoundStart), (0, waitForPoetRoundEnd),
          (0, fetchingProofs), (0, postProving)]) :=
  ⟨rfl, lifecyclePath_sublist_history _ 0 postProving rfl⟩

/-! ## Unknown identities -/

theorem set_states_eq_none (s : IdentityStateStorage NodeID) (id id' : NodeID) (st : IdentityState) :
    (set s id' st).2.states id = none ↔ s.states id = none ∧ (id', st) ≠ (id, waitForATXSyncing) := by
  constructor
  · intro h
    have h0 := (moves_set s id id' st).eq_none h
    refine ⟨h0, ?_⟩
    rintro ⟨⟩
    simp [set_new h0] at h
  · rintro ⟨h0, hne⟩
    rcases set_spec s id' st with h | h | ⟨h, hm⟩ <;> rw [h]
    · exact h0
    · exact h0
    · by_cases hid : id = id'
      · subst hid
        rw [h0] at hm
        exact absurd (by rw [hm.eq_enter]) hne
      · rw [put_states_of_ne _ _ hid, h0]

theorem runSets_states_eq_none (id : NodeID) (calls : List (NodeID × IdentityState)) :
    ∀ s : IdentityStateStorage NodeID,
      (runSets s calls).states id = none ↔ s.states id = none ∧ (id, waitForATXSyncing) ∉ calls := by
  induction calls with
  | nil => simp [runSets]
  | cons call calls ih =>
    intro s
    obtain ⟨id', st⟩ := call
    rw [runSets, ih, set_states_eq_none, List.mem_cons, ne_comm]
    simp only [not_or, and_assoc]

/-- After any run of calls from the empty storage, `Get` answers `ErrIdentityStateUnknown`
for an identity exactly when no call set it to `WaitForATXSyncing`. -/
theorem get_runSets_eq_unknown (calls : List (NodeID × IdentityState)) (id : NodeID) :
    get (runSets newIdentityStateStorage calls) id = .error .identityStateUnknown ↔
      (id, waitForATXSyncing) ∉ calls := by
  rw [← (runSets_states_eq_none id calls newIdentityStateStorage).trans (and_iff_right rfl), get]
  split <;> simp [*]

end Storage

end Spacemesh.Activation
