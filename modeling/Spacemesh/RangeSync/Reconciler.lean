import Spacemesh.RangeSync.Store

/-!
# The range-set reconciler

`RangeSetReconciler` of hashsync: the handler of one sync message, the opening
of a (bounded) sync, and `Process`, one round of the exchange. Messages go
through a `Conduit`; the one modelled is the tests' `fakeConduit`, which queues
every message for the peer and never fails. A panic of the Go code is
`Failure.panic`, a returned error `Failure.error`.

A round of `Process` that fails sends neither `EndRound` nor `Done`
(`process_error_sends_no_marker`), and one that does not end in `Done` adds every
key of its item batches (`process_keeps_items`). A round ending in `Done` after
other messages is rejected before its item batches are added
(`process_drops_items_before_done`).
-/

namespace Spacemesh.RangeSync

variable {α : Type} [LinearOrder α]

inductive MessageType
  | done | endRound | emptySet | emptyRange | fingerprint | rangeContents | itemBatch | probe
  | probeResponse
  deriving DecidableEq, Repr

/-- `MessageType.String`, read from the `messageTypes` table. -/
def MessageType.name : MessageType → String
  | .done => "done"
  | .endRound => "endRound"
  | .emptySet => "emptySet"
  | .emptyRange => "emptyRange"
  | .fingerprint => "fingerprint"
  | .rangeContents => "rangeContents"
  | .itemBatch => "itemBatch"
  | .probe => "probe"
  | .probeResponse => "probeResponse"

/-- `rangeMessage`, the `SyncMessage` of the test conduit; `fingerprint = none`
is a nil fingerprint. -/
structure SyncMessage (α : Type) where
  type : MessageType
  x : Option α := none
  y : Option α := none
  fingerprint : Option (List α) := none
  count : ℕ := 0
  keys : List α := []
  deriving DecidableEq

def maxSampleSize : ℕ := 1000

/-- The options of a `RangeSetReconciler`. `NewRangeSetReconciler` panics unless
`maxSendRange > 0`; `SendItems` only advances for a positive chunk size. -/
structure Config where
  maxSendRange : ℕ := 16
  itemChunkSize : ℕ := 16
  sampleSize : ℕ := 200
  maxSendRange_pos : 0 < maxSendRange := by decide
  itemChunkSize_pos : 0 < itemChunkSize := by decide

inductive Failure
  | error (msg : String)
  | panic (msg : String)
  deriving DecidableEq, Repr

/-! ## The test conduit -/

def sendFingerprint (x y : α) (fp : List α) (count : ℕ) : SyncMessage α :=
  { type := .fingerprint, x := some x, y := some y, fingerprint := some fp, count := count }

def sendEmptySet : SyncMessage α := { type := .emptySet }

def sendEmptyRange (x y : α) : SyncMessage α := { type := .emptyRange, x := some x, y := some y }

def sendRangeContents (x y : α) (count : ℕ) : SyncMessage α :=
  { type := .rangeContents, x := some x, y := some y, count := count }

def sendEndRound : SyncMessage α := { type := .endRound }

def sendDone : SyncMessage α := { type := .done }

def sendProbeResponse (x y : Option α) (fp : List α) (count sampleSize : ℕ) (it : List α) :
    SyncMessage α :=
  { type := .probeResponse, x := x, y := y, fingerprint := some fp, count := count,
    keys := it.take sampleSize }

/-- The loop of `fakeConduit.SendItems`: at most `n` batches of `chunk` keys. -/
def itemBatches (chunk : ℕ) : ℕ → List α → List (List α)
  | 0, _ => []
  | _, [] => []
  | n + 1, ks => ks.take chunk :: itemBatches chunk n (ks.drop chunk)

/-- `fakeConduit.SendItems(count, chunk, it)`: `count` keys read from `it`, one
item-batch message per chunk. -/
def sendItems (count chunk : ℕ) (it : List α) : List (SyncMessage α) :=
  (itemBatches chunk count (it.take count)).map fun ks => { type := .itemBatch, keys := ks }

/-! ## Handling a message -/

def processSubrange (s : ItemStore α) (x y : α) : SyncMessage α :=
  let info := s.rangeInfo x y (-1)
  if info.count = 0 then sendEmptyRange x y else sendFingerprint x y info.fingerprint info.count

structure Handled (α : Type) where
  sent : List (SyncMessage α)
  result : Except Failure Bool

/-- The `switch` of `handleMessage` on the range `[x, y)`. -/
def handleRange (cfg : Config) (s : ItemStore α) (msg : SyncMessage α) (x y : α) : Handled α :=
  let info := s.rangeInfo x y (-1)
  match msg.type with
  | .emptyRange | .rangeContents | .emptySet =>
    if info.count ≠ 0 then ⟨sendItems info.count cfg.itemChunkSize info.start, .ok false⟩
    else ⟨[], .ok true⟩
  | .probe =>
    if maxSampleSize < msg.count then
      ⟨[], .error (.error ("bad minhash sample size " ++ toString msg.count ++ " (max 1000)"))⟩
    else if msg.fingerprint = some info.fingerprint then
      ⟨[sendProbeResponse (some x) (some y) info.fingerprint info.count 0 []], .ok true⟩
    else
      ⟨[sendProbeResponse (some x) (some y) info.fingerprint info.count (min msg.count info.count)
        info.start], .ok true⟩
  | .fingerprint =>
    if msg.fingerprint = some info.fingerprint then ⟨[], .ok true⟩
    else if info.count ≤ cfg.maxSendRange then
      if info.count ≠ 0 then
        ⟨sendRangeContents x y info.count :: sendItems info.count cfg.itemChunkSize info.start,
          .ok false⟩
      else ⟨[sendEmptyRange x y], .ok false⟩
    else
      match (s.rangeInfo x y ((info.count + 1) / 2 : ℕ)).endKey with
      | none => ⟨[], .error (.panic "BUG: can't split range with count > 1")⟩
      | some middle => ⟨[processSubrange s x middle, processSubrange s middle y], .ok false⟩
  | t => ⟨[], .error (.error ("unexpected message type " ++ t.name))⟩

def handleMessage (cfg : Config) (s : ItemStore α) (msg : SyncMessage α) : Handled α :=
  if msg.type = .emptySet ∨ (msg.type = .probe ∧ msg.x = none ∧ msg.y = none) then
    match s.keys.head? with
    | none =>
      if msg.type = .probe then ⟨[sendProbeResponse msg.x msg.y [] 0 0 []], .ok true⟩
      else ⟨[], .ok true⟩
    | some m => handleRange cfg s msg m m
  else
    match msg.x, msg.y with
    | some x, some y => handleRange cfg s msg x y
    | _, _ => ⟨[], .error (.error "bad X or Y")⟩

/-! ## Opening a sync -/

def initiateBounded (cfg : Config) (s : ItemStore α) (x y : Option α) :
    Except Failure (List (SyncMessage α)) :=
  match x with
  | none => .ok [sendEmptySet, sendEndRound]
  | some x' =>
    match s.getRangeInfo (some x') y (-1) with
    | .error p => .error (.panic p)
    | .ok info =>
      if info.count = 0 then .error (.panic "empty full min-min range")
      else if info.count < cfg.maxSendRange then
        .ok (sendRangeContents x' (y.getD x') info.count ::
          sendItems info.count cfg.itemChunkSize info.start ++ [sendEndRound])
      else .ok [sendFingerprint x' (y.getD x') info.fingerprint info.count, sendEndRound]

def initiate (cfg : Config) (s : ItemStore α) : Except Failure (List (SyncMessage α)) :=
  initiateBounded cfg s s.keys.head? s.keys.head?

/-! ## One round -/

def getMessages : List (SyncMessage α) → Option String → List (SyncMessage α) × Bool × Option String
  | [], failure => ([], false, some (failure.getD "no end round marker"))
  | m :: ms, failure =>
    match m.type with
    | .endRound => ([], false, none)
    | .done => ([], true, none)
    | _ => ((m :: (getMessages ms failure).1), (getMessages ms failure).2)

/-- The variables of `Process`'s loop. -/
structure ProcessState (α : Type) [LinearOrder α] where
  store : ItemStore α
  added : List α
  sent : List (SyncMessage α)
  done : Bool
  err : Option String
  panic : Option String

/-- One pass of `Process`'s loop: an item batch goes to the store; after an error
the other messages are skipped; a panic stops everything. -/
def processStep (cfg : Config) (st : ProcessState α) (msg : SyncMessage α) : ProcessState α :=
  if st.panic.isSome then st
  else if msg.type = .itemBatch then
    { st with store := st.store.addAll msg.keys, added := st.added ++ msg.keys }
  else if st.err.isSome then st
  else
    let h := handleMessage cfg st.store msg
    match h.result with
    | .ok d => { st with sent := st.sent ++ h.sent, done := st.done && d }
    | .error (.error e) => { st with sent := st.sent ++ h.sent, done := false, err := some e }
    | .error (.panic p) => { st with sent := st.sent ++ h.sent, panic := some p }

structure Processed (α : Type) [LinearOrder α] where
  store : ItemStore α
  added : List α
  sent : List (SyncMessage α)
  result : Except Failure Bool

def process (cfg : Config) (s : ItemStore α) (inbox : List (SyncMessage α))
    (failure : Option String) : Processed α :=
  let r := getMessages inbox failure
  if r.2.1 then
    if r.1 ≠ [] then ⟨s, [], [], .error (.error "non-item messages with 'done' marker")⟩
    else ⟨s, [], [], .ok true⟩
  else
    let st := r.1.foldl (processStep cfg) ⟨s, [], [], true, r.2.2, none⟩
    match st.panic, st.err with
    | some p, _ => ⟨st.store, st.added, st.sent, .error (.panic p)⟩
    | none, some e => ⟨st.store, st.added, st.sent, .error (.error e)⟩
    | none, none =>
      ⟨st.store, st.added, st.sent ++ [if st.done then sendDone else sendEndRound], .ok st.done⟩


/-! ## What a round keeps -/

def SyncMessage.inRound (m : SyncMessage α) : Prop := m.type ≠ .endRound ∧ m.type ≠ .done

omit [LinearOrder α] in
theorem inRound_of_mem_singleton {m' : SyncMessage α} (h : m'.inRound) : ∀ m ∈ [m'], m.inRound :=
  fun _ hm => List.mem_singleton.1 hm ▸ h

omit [LinearOrder α] in
theorem inRound_sendItems (n chunk : ℕ) (it : List α) : ∀ m ∈ sendItems n chunk it, m.inRound := fun _ hm => by
  obtain ⟨_, -, rfl⟩ := List.mem_map.1 hm
  exact ⟨nofun, nofun⟩

theorem inRound_processSubrange (s : ItemStore α) (x y : α) : (processSubrange s x y).inRound := by
  unfold processSubrange; dsimp only; split_ifs <;> exact ⟨nofun, nofun⟩

theorem handleRange_answers (cfg : Config) (s : ItemStore α) (msg : SyncMessage α) (x y : α) :
    (∀ p, (handleRange cfg s msg x y).result ≠ .error (.panic p)) ∧
      ∀ m ∈ (handleRange cfg s msg x y).sent, m.inRound := by
  have hnil : ∀ m ∈ ([] : List (SyncMessage α)), m.inRound := fun _ h => absurd h (List.not_mem_nil _)
  unfold handleRange
  cases msg.type <;> dsimp only
  case emptySet | emptyRange | rangeContents =>
    split_ifs
    · exact ⟨fun _ => nofun, inRound_sendItems _ _ _⟩
    · exact ⟨fun _ => nofun, hnil⟩
  case probe =>
    split
    · exact ⟨fun _ => nofun, hnil⟩
    split <;> exact ⟨fun _ => nofun, inRound_of_mem_singleton ⟨nofun, nofun⟩⟩
  case fingerprint =>
    split
    · exact ⟨fun _ => nofun, hnil⟩
    split
    · split
      · exact ⟨fun _ => nofun, fun m hm => (List.mem_cons.1 hm).elim (fun h => h ▸ ⟨nofun, nofun⟩)
          (inRound_sendItems _ _ _ m)⟩
      · exact ⟨fun _ => nofun, inRound_of_mem_singleton ⟨nofun, nofun⟩⟩
    · rename_i hle
      have := cfg.maxSendRange_pos
      rcases hmid : (s.rangeInfo x y (((s.rangeInfo x y (-1)).count + 1) / 2 : ℕ)).endKey with _ | middle
      · rw [ItemStore.rangeInfo_count, ItemStore.rangeInfo_endKey s (by rw [ItemStore.rangeInfo_count] at hle; omega)]
          at hmid
        exact absurd hmid (Option.some_ne_none _)
      · exact ⟨fun _ => nofun, by
          simp only [List.mem_cons, List.mem_singleton, List.not_mem_nil, or_false]
          rintro _ (rfl | rfl) <;> exact inRound_processSubrange s _ _⟩
  all_goals exact ⟨fun _ => nofun, hnil⟩

theorem handleMessage_answers (cfg : Config) (s : ItemStore α) (msg : SyncMessage α) :
    (∀ p, (handleMessage cfg s msg).result ≠ .error (.panic p)) ∧
      ∀ m ∈ (handleMessage cfg s msg).sent, m.inRound := by
  have hnil : ∀ m ∈ ([] : List (SyncMessage α)), m.inRound := fun _ h => absurd h (List.not_mem_nil _)
  unfold handleMessage
  by_cases hwhole : msg.type = .emptySet ∨ (msg.type = .probe ∧ msg.x = none ∧ msg.y = none)
  · rw [if_pos hwhole]
    cases s.keys.head? with
    | none =>
      dsimp only
      split_ifs
      · exact ⟨fun _ => nofun, inRound_of_mem_singleton ⟨nofun, nofun⟩⟩
      · exact ⟨fun _ => nofun, hnil⟩
    | some k => exact handleRange_answers cfg s msg k k
  · rw [if_neg hwhole]
    cases msg.x <;> cases msg.y <;> dsimp only
    case neg.some.some x y => exact handleRange_answers cfg s msg x y
    all_goals exact ⟨fun _ => nofun, hnil⟩

theorem processStep_keeps (cfg : Config) {st : ProcessState α} (hp : st.panic = none) (msg : SyncMessage α) :
    (processStep cfg st msg).panic = none ∧
      (∀ k ∈ st.store.keys, k ∈ (processStep cfg st msg).store.keys) ∧
      (msg.type = .itemBatch → ∀ k ∈ msg.keys, k ∈ (processStep cfg st msg).store.keys) ∧
      ∀ m ∈ (processStep cfg st msg).sent, m ∈ st.sent ∨ m.inRound := by
  have hsent : ∀ m ∈ st.sent ++ (handleMessage cfg st.store msg).sent, m ∈ st.sent ∨ m.inRound := fun m hm =>
    (List.mem_append.1 hm).imp id ((handleMessage_answers cfg st.store msg).2 m)
  unfold processStep
  simp only [hp, Option.isSome_none, Bool.false_eq_true, if_false]
  split_ifs with ht
  · simp only [ItemStore.mem_addAll]
    exact ⟨by simp [hp], fun k hk => Or.inl hk, fun _ k hk => Or.inr hk, fun m hm => Or.inl hm⟩
  · exact ⟨by simp [hp], fun k hk => hk, fun h => absurd h ht, fun m hm => Or.inl hm⟩
  · split
    · exact ⟨rfl, fun k hk => hk, fun h => absurd h ht, hsent⟩
    · exact ⟨rfl, fun k hk => hk, fun h => absurd h ht, hsent⟩
    · exact absurd ‹_› ((handleMessage_answers cfg st.store msg).1 _)

theorem foldl_processStep_keeps (cfg : Config) : ∀ (msgs : List (SyncMessage α)) {st : ProcessState α},
    st.panic = none →
      (msgs.foldl (processStep cfg) st).panic = none ∧
      (∀ k ∈ st.store.keys, k ∈ (msgs.foldl (processStep cfg) st).store.keys) ∧
      (∀ m ∈ msgs, m.type = .itemBatch → ∀ k ∈ m.keys, k ∈ (msgs.foldl (processStep cfg) st).store.keys) ∧
      ∀ m ∈ (msgs.foldl (processStep cfg) st).sent, m ∈ st.sent ∨ m.inRound
  | [], _, hp => ⟨hp, fun _ h => h, by simp, fun _ h => Or.inl h⟩
  | msg :: msgs, st, hp => by
    obtain ⟨hp1, hk1, hb1, hs1⟩ := processStep_keeps cfg hp msg
    obtain ⟨hp2, hk2, hb2, hs2⟩ := foldl_processStep_keeps cfg msgs hp1
    refine ⟨hp2, fun k hk => hk2 k (hk1 k hk), fun m hm hmt k hk => ?_, fun m hm => ?_⟩
    · rcases List.mem_cons.1 hm with rfl | hm
      · exact hk2 k (hb1 hmt k hk)
      · exact hb2 m hm hmt k hk
    · rcases hs2 m hm with h | h
      · exact hs1 m h
      · exact Or.inr h

theorem process_keeps_items (cfg : Config) (s : ItemStore α) (inbox : List (SyncMessage α))
    (failure : Option String) (hnd : (getMessages inbox failure).2.1 = false) :
    ∀ m ∈ (getMessages inbox failure).1, m.type = .itemBatch →
      ∀ k ∈ m.keys, k ∈ (process cfg s inbox failure).store.keys := by
  intro m hm hmt k hk
  have h := (@foldl_processStep_keeps _ _ cfg (getMessages inbox failure).1
    ⟨s, [], [], true, (getMessages inbox failure).2.2, none⟩ rfl).2.2.1 m hm hmt k hk
  unfold process
  dsimp only
  simp only [hnd, Bool.false_eq_true, if_false]
  split <;> exact h

theorem process_error_sends_no_marker (cfg : Config) (s : ItemStore α) (inbox : List (SyncMessage α))
    (failure : Option String) {e : Failure} (he : (process cfg s inbox failure).result = .error e) :
    ∀ m ∈ (process cfg s inbox failure).sent, m.inRound := by
  have h := (@foldl_processStep_keeps _ _ cfg (getMessages inbox failure).1
    ⟨s, [], [], true, (getMessages inbox failure).2.2, none⟩ rfl).2.2.2
  intro m hm
  unfold process at he hm
  dsimp only at he hm
  split_ifs at he hm
  · simp at hm
  all_goals
    generalize (getMessages inbox failure).1.foldl (processStep cfg) _ = st at he hm h
    rcases hp : st.panic with _ | p <;> rcases hq : st.err with _ | q <;> simp only [hp, hq] at he hm
    · simp at he
    all_goals simpa using h m hm

/-- A round that ends in `Done` after an item batch: `Process` rejects it, as it does any
message before `Done`, and returns without adding the batch's keys. -/
theorem process_drops_items_before_done (cfg : Config) (s : ItemStore α) (ks : List α) (failure : Option String) :
    process cfg s [{ type := .itemBatch, keys := ks }, sendDone] failure =
      ⟨s, [], [], .error (.error "non-item messages with 'done' marker")⟩ := rfl
end Spacemesh.RangeSync
