import Spacemesh.GoMap
import Spacemesh.Hare.Session

/-!
# The sessions of a hare node

`Hare.Register`, `Start`, `onLayer`, `Handler` and `Running` of hare3, and the end of a
session's `run` goroutine. `Start`'s loop waits for layer after layer from the enabled one,
and returns before the disabled layer or when the context ends. For each layer, `onLayer`
registers a session by its layer if the node is synced and has a beacon for the layer's
epoch, and starts the session's `run` goroutine, which deletes the entry when it returns.
`Handler` looks up the session of the message's layer under `h.mu` and releases the lock
before it gives the message to the session's protocol, so a call of `Handler` is two steps:
the lookup, and the rest from the signature check on (`NodeOp.deliver`). These goroutines
interleave: a run of the node is a list of their steps (`NodeOp`) in any order, and a
session's `run` may return between the two steps of a `Handler`.

Layers are `uint32`s, here `ℕ`. The additions of `Start` wrap; its loop stays below the
disabled layer, so its increment does not. A signer is its node id, so the signer map takes
node ids to node ids. `codec.Decode`, `Message.Validate`, the signature check, the oracle's
grade and the protocol's `OnInput` are not in the source: what they answer comes with the
message (`Delivery`). `newProtocol` is a parameter, and a session keeps the protocol it
made; what the protocol does in `run` and `OnInput` is not read here. `IsSynced` and
`beacons.Get` answer in the loop's step. After the lookup `Handler` reads and writes only the
malicious identities, and only marks them, so the rest of it is one step. Logs, metrics and
the tracer are left out.

What every run keeps:
- The map holds exactly the sessions of the live `run` goroutines, one a layer. Each is for a
  layer the loop has passed, and each has a beacon (`registry_inv`).
- The layers put in hare's charge rise strictly, so no layer gets two sessions
  (`inCharge_layers_increase`); while the node is synced with beacons, none is skipped
  (`inCharge_every_layer`).
- Once a layer's session has returned, the layer never gets another, and `Handler` refuses
  its messages (`sessionReturn_ends_layer`).
- A message reaches a protocol only after every check of `Handler`, and only the protocol
  of the session that the map held for the message's layer when `Handler` looked it up: a
  live session then, whose `run` may have returned since (`handler_delivers_to_live_session`).
- A live session's `run` publishes only for signers of the map when `onLayer` made the
  session: a signer can't join mid session (`session_publishes_registered`).
-/

namespace Spacemesh.Hare

structure CommitteeUpgrade where
  layer : UInt32
  size : UInt16

structure CommitteeConfig where
  committee : UInt16
  committeeUpgrade : Option CommitteeUpgrade

def CommitteeConfig.committeeFor (cc : CommitteeConfig) (layer : ℕ) : UInt16 :=
  match cc.committeeUpgrade with
  | some u => if u.layer.toNat ≤ layer then u.size else cc.committee
  | none => cc.committee

def defaultConfig : Config :=
  ⟨false, 0, 4294967295, 4, ⟨25000000000, by decide, by decide⟩, ⟨12000000000, by decide, by decide⟩⟩

def defaultCommittee : CommitteeConfig := ⟨800, none⟩

/-- `types.EmptyBeacon`. -/
def emptyBeacon : ℕ := 0

def grade0 : ℕ := 0

structure Message where
  layer : ℕ
  sender : ℕ
  deriving DecidableEq, Repr

structure Input where
  message : Message
  malicious : Bool
  atxgrade : ℕ
  deriving DecidableEq, Repr

/-- What the calls of `Handler` outside the source answer for one message: `codec.Decode`,
`Message.Validate` (`none` for nil), the signature check, `oracle.validate`, and the
session's `OnInput`: whether to gossip, and the smesher of an equivocation it found. -/
structure Delivery where
  decoded : Except String Message
  validation : Option String
  signatureOk : Bool
  grade : ℕ
  gossip : Bool
  equivocator : Option ℕ

inductive HandlerError
  /-- `%w: decoding error %s`, of `pubsub.ErrValidationReject`. -/
  | decoding (err : String)
  /-- `%w: validation %s`, of `pubsub.ErrValidationReject`. -/
  | validation (err : String)
  /-- `layer %d is not registered`. -/
  | notRegistered (layer : ℕ)
  /-- `%w: invalid signature`, of `pubsub.ErrValidationReject`. -/
  | invalidSignature
  /-- `zero grade`. -/
  | zeroGrade
  /-- `dropped by graded gossip`. -/
  | droppedByGradedGossip
  deriving DecidableEq, Repr

/-- What the node's goroutines do to the components around them: `proposals.OnLayer`,
`patrol.SetHareInCharge` and `CompleteHare`, `OnInput` of a session's protocol, an identity
marked malicious, and the error `Handler` returns (`none` for nil). -/
inductive NodeEvent (P : Type)
  | proposalsOnLayer (layer : ℕ)
  | setHareInCharge (layer : ℕ)
  | completeHare (layer : ℕ)
  | onInput (session : Session P) (input : Input)
  | setMalicious (id : ℕ)
  | handled (err : Option HandlerError)
  deriving DecidableEq, Repr

inductive NodeOp
  | register (sig : ℕ)
  /-- `AwaitLayer` wins the `select` of `Start`'s loop, and `IsSynced` and `beacons.Get`
  answer. -/
  | awaitLayer (synced : Bool) (beacon : Except String ℕ)
  /-- `ctx.Done()` wins it. -/
  | ctxDone
  /-- The `run` goroutine of a layer's session returns, with an error or not. -/
  | sessionReturn (layer : ℕ) (failed : Bool)
  /-- `Handler` of a message, to `h.mu.Unlock()` after the lookup and the check of
  `registered`. -/
  | handle (d : Delivery)
  /-- The `i`-th call of `Handler` that found its session goes on from the signature check. -/
  | deliver (i : ℕ)

def NodeOp.isLoopStep : NodeOp → Bool
  | .awaitLayer _ _ => true
  | _ => false

/-- `Hare`, the state its goroutines share: the signers by node id, the sessions by
layer (the source keeps their protocols), the malicious identities of `atxsdata`, the layer
`Start`'s loop waits for and whether the loop still runs, the sessions whose `run`
goroutines have not returned, and the calls of `Handler` between the lookup and `OnInput`,
each with the message and the session it found. -/
structure Node (P : Type) where
  signers : List (ℕ × ℕ)
  sessions : List (ℕ × Session P)
  malicious : ℕ → Bool
  next : ℕ
  looping : Bool
  goroutines : List (Session P)
  handlers : List (Delivery × Message × Session P)

namespace Node

variable {P : Type} (cfg : Config) (cc : CommitteeConfig) (newProtocol : UInt16 → P)

/-- The first layer of `Start`'s loop, `max(current, EnableLayer, GetEffectiveGenesis()+1)`
with `current = CurrentLayer() + 1`, both sums of `uint32`s. -/
def enabledLayer (currentLayer effectiveGenesis : ℕ) : ℕ :=
  max (max ((currentLayer + 1) % 4294967296) cfg.enableLayer.toNat) ((effectiveGenesis + 1) % 4294967296)

/-- The layer `Start`'s loop returns at: `DisableLayer` if set, else `math.MaxUint32`. -/
def disabledLayer : ℕ := if 0 < cfg.disableLayer.toNat then cfg.disableLayer.toNat else 4294967295

/-- `New` and `Start`: no signer, no session, and the loop waiting for the enabled layer. -/
def start (currentLayer effectiveGenesis : ℕ) (malicious : ℕ → Bool) : Node P :=
  ⟨[], [], malicious, enabledLayer cfg currentLayer effectiveGenesis, true, [], []⟩

def running (h : Node P) : ℕ := h.sessions.length

def register (h : Node P) (sig : ℕ) : Node P := { h with signers := mapSet h.signers sig sig }

/-- The session `onLayer` makes: the signers registered now, and the protocol `newProtocol`
makes with the threshold `CommitteeFor(layer)/2 + 1`. -/
def newSession (h : Node P) (layer beacon : ℕ) : Session P :=
  ⟨layer, beacon, h.signers.map (·.2), newProtocol (cc.committeeFor layer / 2 + 1)⟩

def onLayer (h : Node P) (layer : ℕ) (synced : Bool) (beacon : Except String ℕ) : Node P × List (NodeEvent P) :=
  if synced then
    match beacon with
    | .ok b =>
      if b = emptyBeacon then (h, [.proposalsOnLayer layer])
      else
        let s := h.newSession cc newProtocol layer b
        ({ h with sessions := mapSet h.sessions layer s, goroutines := h.goroutines ++ [s] },
          [.proposalsOnLayer layer, .setHareInCharge layer])
    | .error _ => (h, [.proposalsOnLayer layer])
  else (h, [.proposalsOnLayer layer])

/-- A `select` of `Start`'s loop that `AwaitLayer` wins: `onLayer` of the loop's layer, the
loop then waiting for the next one; nothing once the loop has returned. -/
def awaitLayer (h : Node P) (synced : Bool) (beacon : Except String ℕ) : Node P × List (NodeEvent P) :=
  if h.looping ∧ h.next < disabledLayer cfg then
    let r := h.onLayer cc newProtocol h.next synced beacon
    ({ r.1 with next := h.next + 1 }, r.2)
  else (h, [])

/-- The `run` goroutine of a layer's session returns: `CompleteHare` if it failed, and the
layer's entry deleted. -/
def sessionReturn (h : Node P) (layer : ℕ) (failed : Bool) : Node P × List (NodeEvent P) :=
  if h.goroutines.any (·.lid = layer) then
    ({ h with sessions := mapDelete h.sessions layer, goroutines := h.goroutines.eraseP (·.lid = layer) },
      if failed then [.completeHare layer] else [])
  else (h, [])

/-- What `Handler` does with an equivocation `OnInput` found: the smesher marked malicious,
in the database and in `atxsdata`, unless the message's sender already was. -/
def onEquivocation (h : Node P) (malicious : Bool) : Option ℕ → Node P × List (NodeEvent P)
  | some id =>
    if malicious then (h, []) else ({ h with malicious := Function.update h.malicious id true }, [.setMalicious id])
  | none => (h, [])

/-- `Handler` to the check of `registered`: the error it returns there, or the call waiting
with the session it found. -/
def handler (h : Node P) (d : Delivery) : Node P × Option HandlerError :=
  match d.decoded with
  | .error e => (h, some (.decoding e))
  | .ok msg =>
    match d.validation with
    | some e => (h, some (.validation e))
    | none =>
      match mapGet h.sessions msg.layer with
      | none => (h, some (.notRegistered msg.layer))
      | some s => ({ h with handlers := h.handlers ++ [(d, msg, s)] }, none)

/-- The rest of `Handler`, for a message whose session `s` it found: the state, the events,
and the error (`none` for nil). -/
def deliver (h : Node P) (d : Delivery) (msg : Message) (s : Session P) :
    Node P × List (NodeEvent P) × Option HandlerError :=
  if d.signatureOk then
    let malicious := h.malicious msg.sender
    if d.grade = grade0 then (h, [], some .zeroGrade)
    else
      let r := h.onEquivocation malicious d.equivocator
      (r.1, .onInput s ⟨msg, malicious, d.grade⟩ :: r.2, if d.gossip then none else some .droppedByGradedGossip)
  else (h, [], some .invalidSignature)

def apply (h : Node P) : NodeOp → Node P × List (NodeEvent P)
  | .register sig => (h.register sig, [])
  | .awaitLayer synced beacon => h.awaitLayer cfg cc newProtocol synced beacon
  | .ctxDone => ({ h with looping := false }, [])
  | .sessionReturn layer failed => h.sessionReturn layer failed
  | .handle d =>
    match h.handler d with
    | (h', some e) => (h', [.handled (some e)])
    | (h', none) => (h', [])
  | .deliver i =>
    match h.handlers[i]? with
    | some (d, msg, s) =>
      let r := { h with handlers := h.handlers.eraseIdx i }.deliver d msg s
      (r.1, r.2.1 ++ [.handled r.2.2])
    | none => (h, [])

/-- A run of the node: its goroutines' steps in the order they interleave. -/
def runNode (h : Node P) : List NodeOp → Node P × List (NodeEvent P)
  | [] => (h, [])
  | op :: ops =>
    let r := h.apply cfg cc newProtocol op
    let r' := runNode r.1 ops
    (r'.1, r.2 ++ r'.2)

def inChargeLayers (evs : List (NodeEvent P)) : List ℕ :=
  evs.filterMap fun
    | .setHareInCharge l => some l
    | _ => none

/-! ## What one step does -/

section Step

variable {cfg cc newProtocol}

theorem runNode_append (h : Node P) (ops₁ ops₂ : List NodeOp) :
    (runNode cfg cc newProtocol h (ops₁ ++ ops₂)).1 = (runNode cfg cc newProtocol (runNode cfg cc newProtocol h ops₁).1 ops₂).1 := by
  induction ops₁ generalizing h with
  | nil => rfl
  | cons op ops ih => exact ih _

theorem onLayer_cases (h : Node P) (layer : ℕ) (synced : Bool) (beacon : Except String ℕ) :
    h.onLayer cc newProtocol layer synced beacon = (h, [.proposalsOnLayer layer]) ∨
      ∃ b, synced = true ∧ beacon = .ok b ∧ b ≠ emptyBeacon ∧ h.onLayer cc newProtocol layer synced beacon =
        ({ h with sessions := mapSet h.sessions layer (h.newSession cc newProtocol layer b),
                  goroutines := h.goroutines ++ [h.newSession cc newProtocol layer b] },
          [.proposalsOnLayer layer, .setHareInCharge layer]) := by
  unfold onLayer
  split
  · rename_i hsynced
    split
    · split
      · exact .inl rfl
      · exact .inr ⟨_, hsynced, rfl, ‹_›, rfl⟩
    · exact .inl rfl
  · exact .inl rfl

theorem handler_cases (h : Node P) (d : Delivery) :
    (∃ e, h.handler d = (h, some e)) ∨
      ∃ msg s, d.decoded = .ok msg ∧ d.validation = none ∧ mapGet h.sessions msg.layer = some s ∧
        h.handler d = ({ h with handlers := h.handlers ++ [(d, msg, s)] }, none) := by
  unfold handler
  split
  · exact .inl ⟨_, rfl⟩
  · rename_i msg hmsg
    split
    · exact .inl ⟨_, rfl⟩
    · rename_i hval
      split
      · exact .inl ⟨_, rfl⟩
      · exact .inr ⟨msg, _, hmsg, hval, ‹_›, rfl⟩

theorem onEquivocation_fst (h : Node P) (malicious : Bool) (eq : Option ℕ) :
    ∃ m, (h.onEquivocation malicious eq).1 = { h with malicious := m } := by
  unfold onEquivocation
  split
  · split
    · exact ⟨h.malicious, rfl⟩
    · exact ⟨_, rfl⟩
  · exact ⟨h.malicious, rfl⟩

theorem onEquivocation_snd (h : Node P) (malicious : Bool) (eq : Option ℕ) :
    (h.onEquivocation malicious eq).2 = [] ∨ ∃ id, (h.onEquivocation malicious eq).2 = [.setMalicious id] := by
  unfold onEquivocation
  split
  · split
    · exact .inl rfl
    · exact .inr ⟨_, rfl⟩
  · exact .inl rfl

theorem deliver_cases (h : Node P) (d : Delivery) (msg : Message) (s : Session P) :
    (h.deliver d msg s).1 = h ∧ (h.deliver d msg s).2.1 = [] ∨
      d.signatureOk = true ∧ d.grade ≠ grade0 ∧
        (h.deliver d msg s).1 = (h.onEquivocation (h.malicious msg.sender) d.equivocator).1 ∧
        (h.deliver d msg s).2.1 = .onInput s ⟨msg, h.malicious msg.sender, d.grade⟩ ::
          (h.onEquivocation (h.malicious msg.sender) d.equivocator).2 := by
  unfold deliver
  split
  · split
    · exact .inl ⟨rfl, rfl⟩
    · exact .inr ⟨‹_›, ‹_›, rfl, rfl⟩
  · exact .inl ⟨rfl, rfl⟩

theorem apply_handle_fst (h : Node P) (d : Delivery) :
    ∃ hs, (h.apply cfg cc newProtocol (.handle d)).1 = { h with handlers := hs } := by
  rcases handler_cases h d with ⟨e, he⟩ | ⟨msg, s, -, -, -, he⟩ <;> simp only [apply, he]
  · exact ⟨h.handlers, rfl⟩
  · exact ⟨_, rfl⟩

theorem apply_deliver_fst (h : Node P) (i : ℕ) :
    ∃ m, (h.apply cfg cc newProtocol (.deliver i)).1 = { h with malicious := m, handlers := h.handlers.eraseIdx i } := by
  simp only [apply]
  split
  · rename_i d msg s _
    rcases deliver_cases { h with handlers := h.handlers.eraseIdx i } d msg s with ⟨he, -⟩ | ⟨-, -, he, -⟩ <;> rw [he]
    · exact ⟨h.malicious, rfl⟩
    · exact onEquivocation_fst _ _ _
  · rename_i hi
    rw [List.eraseIdx_of_length_le (List.getElem?_eq_none_iff.1 hi)]
    exact ⟨h.malicious, rfl⟩

theorem apply_goroutines (h : Node P) (op : NodeOp) :
    (∀ s ∈ (h.apply cfg cc newProtocol op).1.goroutines, s ∈ h.goroutines ∨
      ∃ b, op = .awaitLayer true (.ok b) ∧ s = h.newSession cc newProtocol h.next b) ∧
      h.next ≤ (h.apply cfg cc newProtocol op).1.next := by
  cases op with
  | register sig => exact ⟨fun s hs => .inl hs, le_rfl⟩
  | awaitLayer synced beacon =>
    simp only [apply]; unfold awaitLayer
    split
    · rcases @onLayer_cases _ cc newProtocol h h.next synced beacon with hl | ⟨b, rfl, rfl, -, hl⟩ <;> simp only [hl]
      · exact ⟨fun s hs => .inl hs, Nat.le_succ _⟩
      · refine ⟨fun s hs => ?_, Nat.le_succ _⟩
        simp only [List.mem_append, List.mem_singleton] at hs
        exact hs.imp_right fun hs => ⟨b, rfl, hs⟩
    · exact ⟨fun s hs => .inl hs, le_rfl⟩
  | ctxDone => exact ⟨fun s hs => .inl hs, le_rfl⟩
  | sessionReturn layer failed =>
    simp only [apply]; unfold sessionReturn
    split
    · exact ⟨fun s hs => .inl (List.mem_of_mem_eraseP hs), le_rfl⟩
    · exact ⟨fun s hs => .inl hs, le_rfl⟩
  | handle d =>
    obtain ⟨hs, he⟩ := apply_handle_fst h d
    rw [he]; exact ⟨fun s hs => .inl hs, le_rfl⟩
  | deliver i =>
    obtain ⟨m, he⟩ := apply_deliver_fst h i
    rw [he]; exact ⟨fun s hs => .inl hs, le_rfl⟩

theorem apply_handlers (h : Node P) (op : NodeOp) :
    ∀ x ∈ (h.apply cfg cc newProtocol op).1.handlers, x ∈ h.handlers ∨
      op = .handle x.1 ∧ x.1.decoded = .ok x.2.1 ∧ x.1.validation = none ∧ mapGet h.sessions x.2.1.layer = some x.2.2 := by
  intro x hx
  cases op with
  | register sig => exact .inl hx
  | awaitLayer synced beacon =>
    simp only [apply] at hx; unfold awaitLayer at hx
    split at hx
    · rcases @onLayer_cases _ cc newProtocol h h.next synced beacon with hl | ⟨b, -, -, -, hl⟩ <;> simp only [hl] at hx
      all_goals exact .inl hx
    · exact .inl hx
  | ctxDone => exact .inl hx
  | sessionReturn layer failed =>
    simp only [apply] at hx; unfold sessionReturn at hx
    split at hx <;> exact .inl hx
  | handle d =>
    rcases handler_cases h d with ⟨e, he⟩ | ⟨msg, s, hd, hv, hs, he⟩ <;> simp only [apply, he] at hx
    · exact .inl hx
    · rcases List.mem_append.1 hx with hx | hx
      · exact .inl hx
      · rw [List.mem_singleton.1 hx]
        exact .inr ⟨rfl, hd, hv, hs⟩
  | deliver i =>
    obtain ⟨m, he⟩ := apply_deliver_fst h i
    rw [he] at hx
    exact .inl (List.mem_of_mem_eraseIdx hx)

theorem apply_onInput {h : Node P} {op : NodeOp} {s : Session P} {inp : Input}
    (hin : .onInput s inp ∈ (h.apply cfg cc newProtocol op).2) :
    ∃ i d, op = .deliver i ∧ (d, inp.message, s) ∈ h.handlers ∧ d.signatureOk = true ∧ d.grade ≠ grade0 ∧
      inp.atxgrade = d.grade ∧ inp.malicious = h.malicious inp.message.sender := by
  cases op with
  | register sig => cases hin
  | awaitLayer synced beacon =>
    simp only [apply] at hin; unfold awaitLayer at hin
    split at hin
    · rcases @onLayer_cases _ cc newProtocol h h.next synced beacon with hl | ⟨b, -, -, -, hl⟩ <;>
        simp [hl] at hin
    · cases hin
  | ctxDone => cases hin
  | sessionReturn layer failed =>
    simp only [apply] at hin; unfold sessionReturn at hin
    split at hin
    · split at hin <;> simp at hin
    · cases hin
  | handle d =>
    rcases handler_cases h d with ⟨e, he⟩ | ⟨msg, s, -, -, -, he⟩ <;> simp [apply, he] at hin
  | deliver i =>
    simp only [apply] at hin
    split at hin
    · rename_i d msg s' hget
      rcases deliver_cases { h with handlers := h.handlers.eraseIdx i } d msg s' with ⟨-, he⟩ | ⟨hsig, hg, -, he⟩ <;>
        rw [he] at hin
      · simp at hin
      · rcases onEquivocation_snd { h with handlers := h.handlers.eraseIdx i } (h.malicious msg.sender) d.equivocator
          with hq | ⟨id, hq⟩ <;> rw [hq] at hin <;> simp at hin <;> obtain ⟨rfl, rfl⟩ := hin <;>
          exact ⟨i, d, rfl, List.getElem?_mem hget, hsig, hg, rfl, rfl⟩
    · cases hin

theorem apply_inCharge (h : Node P) (op : NodeOp) :
    inChargeLayers (h.apply cfg cc newProtocol op).2 = [] ∨
      inChargeLayers (h.apply cfg cc newProtocol op).2 = [h.next] ∧ h.next < disabledLayer cfg ∧
        (h.apply cfg cc newProtocol op).1.next = h.next + 1 := by
  cases op with
  | register sig => exact .inl rfl
  | awaitLayer synced beacon =>
    simp only [apply]; unfold awaitLayer
    split
    · rename_i hloop
      rcases @onLayer_cases _ cc newProtocol h h.next synced beacon with hl | ⟨b, -, -, -, hl⟩ <;> simp only [hl]
      · exact .inl rfl
      · exact .inr ⟨rfl, hloop.2, by trivial⟩
    · exact .inl rfl
  | ctxDone => exact .inl rfl
  | sessionReturn layer failed =>
    simp only [apply]; unfold sessionReturn
    split
    · split <;> exact .inl rfl
    · exact .inl rfl
  | handle d =>
    rcases handler_cases h d with ⟨e, he⟩ | ⟨msg, s, -, -, -, he⟩ <;> simp only [apply, he] <;> exact .inl rfl
  | deliver i =>
    simp only [apply]
    split
    · rename_i d msg s _
      rcases deliver_cases { h with handlers := h.handlers.eraseIdx i } d msg s with ⟨-, he⟩ | ⟨-, -, -, he⟩ <;> rw [he]
      · exact .inl rfl
      · rcases onEquivocation_snd { h with handlers := h.handlers.eraseIdx i } (h.malicious msg.sender) d.equivocator
          with hq | ⟨id, hq⟩ <;> rw [hq] <;> exact .inl rfl
    · exact .inl rfl

/-! ## Where a run's state comes from -/

theorem mem_runNode_of_step {α : Type} (f : Node P → List α) (New : Node P → NodeOp → α → Prop)
    (hstep : ∀ h op, ∀ x ∈ f (h.apply cfg cc newProtocol op).1, x ∈ f h ∨ New h op x) :
    ∀ (ops : List NodeOp) (h : Node P), ∀ x ∈ f (runNode cfg cc newProtocol h ops).1,
      x ∈ f h ∨ ∃ ops₁ op ops₂, ops = ops₁ ++ op :: ops₂ ∧ New (runNode cfg cc newProtocol h ops₁).1 op x
  | [], _, _, hx => .inl hx
  | op :: ops, h, x, hx =>
    (mem_runNode_of_step f New hstep ops _ x hx).elim
      (fun hx => (hstep h op x hx).imp_right fun hn => ⟨[], op, ops, rfl, hn⟩)
      fun ⟨ops₁, op', ops₂, he, hn⟩ => .inr ⟨op :: ops₁, op', ops₂, he ▸ rfl, hn⟩

theorem mem_runNode_events : ∀ (ops : List NodeOp) (h : Node P), ∀ ev ∈ (runNode cfg cc newProtocol h ops).2,
    ∃ ops₁ op ops₂, ops = ops₁ ++ op :: ops₂ ∧ ev ∈ ((runNode cfg cc newProtocol h ops₁).1.apply cfg cc newProtocol op).2
  | [], _, _, hev => absurd hev (List.not_mem_nil _)
  | op :: ops, _, ev, hev =>
    (List.mem_append.1 hev).elim (fun hev => ⟨[], op, ops, rfl, hev⟩) fun hev =>
      let ⟨ops₁, op', ops₂, he, hev⟩ := mem_runNode_events ops _ ev hev
      ⟨op :: ops₁, op', ops₂, he ▸ rfl, hev⟩

end Step

/-! ## The registry invariant -/

/-- What every state of a run keeps, `enabled` being the loop's first layer. The map holds,
under its layer, the session of each live `run` goroutine, one a layer, in the order they
started. Each such layer lies from `enabled` to before the loop's layer, and its session has
a beacon, the committee's threshold and signers that were registered. The signer map holds
each signer under its own node id. -/
structure Inv (enabled : ℕ) (h : Node P) : Prop where
  sessions : h.sessions = h.goroutines.map fun s => (s.lid, s)
  nodup : (h.goroutines.map (·.lid)).Nodup
  layers : ∀ s ∈ h.goroutines, enabled ≤ s.lid ∧ s.lid < h.next
  beacon : ∀ s ∈ h.goroutines, s.beacon ≠ emptyBeacon
  proto : ∀ s ∈ h.goroutines, s.proto = newProtocol (cc.committeeFor s.lid / 2 + 1)
  signers : ∀ s ∈ h.goroutines, ∀ sig ∈ s.signers, sig ∈ h.signers.map (·.2)
  signerKeys : ∀ p ∈ h.signers, p.2 = p.1
  first : enabled ≤ h.next

section Inv

variable {cfg cc newProtocol} {e : ℕ} {h : Node P}

theorem inv_start (cur gen : ℕ) (mal : ℕ → Bool) : Inv cc newProtocol (enabledLayer cfg cur gen) (start cfg cur gen mal) :=
  ⟨rfl, List.nodup_nil, fun _ h => absurd h (List.not_mem_nil _), fun _ h => absurd h (List.not_mem_nil _),
    fun _ h => absurd h (List.not_mem_nil _), fun _ h => absurd h (List.not_mem_nil _),
    fun _ h => absurd h (List.not_mem_nil _), le_rfl⟩

theorem Inv.congr (hi : Inv cc newProtocol e h) {h' : Node P} (hsig : h'.signers = h.signers) (hs : h'.sessions = h.sessions)
    (hg : h'.goroutines = h.goroutines) (hn : h'.next = h.next) : Inv cc newProtocol e h' := by
  obtain ⟨h₁, h₂, h₃, h₄, h₅, h₆, h₇, h₈⟩ := hi
  exact ⟨hs ▸ hg ▸ h₁, hg ▸ h₂, hg ▸ hn ▸ h₃, hg ▸ h₄, hg ▸ h₅, hg ▸ hsig ▸ h₆, hsig ▸ h₇, hn ▸ h₈⟩

theorem Inv.mapGet_sessions (hi : Inv cc newProtocol e h) {l : ℕ} {s : Session P} (hs : mapGet h.sessions l = some s) :
    s ∈ h.goroutines ∧ s.lid = l := by
  have hm := mem_of_mapGet hs
  rw [hi.sessions, List.mem_map] at hm
  obtain ⟨g, hg, hgs⟩ := hm
  cases hgs
  exact ⟨hg, rfl⟩

theorem Inv.mapGet_sessions_eq_none (hi : Inv cc newProtocol e h) (l : ℕ) :
    mapGet h.sessions l = none ↔ ∀ s ∈ h.goroutines, s.lid ≠ l := by
  rw [mapGet_eq_none_iff, hi.sessions, List.map_map]
  simp only [Function.comp_def, List.mem_map, not_exists, not_and]

theorem Inv.register (hi : Inv cc newProtocol e h) (sig : ℕ) : Inv cc newProtocol e (h.register sig) := by
  have hkeys : ∀ p ∈ mapSet h.signers sig sig, p.2 = p.1 := fun p hp =>
    (mem_mapSet hp).elim (fun hp => hp ▸ rfl) (hi.signerKeys p)
  refine ⟨hi.sessions, hi.nodup, hi.layers, hi.beacon, hi.proto, fun s hs x hx => ?_, hkeys, hi.first⟩
  have hx := hi.signers s hs x hx
  rw [List.map_congr_left hi.signerKeys] at hx
  show x ∈ (mapSet h.signers sig sig).map (·.2)
  rw [List.map_congr_left hkeys, mem_keys_mapSet]
  exact .inl hx

theorem Inv.next_succ (hi : Inv cc newProtocol e h) : Inv cc newProtocol e { h with next := h.next + 1 } :=
  { hi with
    layers := fun s hs => (hi.layers s hs).imp_right fun hl => Nat.lt_succ_of_lt hl
    first := Nat.le_succ_of_le hi.first }

theorem Inv.addSession (hi : Inv cc newProtocol e h) {b : ℕ} (hb : b ≠ emptyBeacon) :
    Inv cc newProtocol e
      { h with
        sessions := mapSet h.sessions h.next (h.newSession cc newProtocol h.next b)
        goroutines := h.goroutines ++ [h.newSession cc newProtocol h.next b]
        next := h.next + 1 } := by
  have hfresh : h.next ∉ h.goroutines.map (·.lid) := by
    simp only [List.mem_map, not_exists, not_and]
    exact fun s hs hl => absurd (hi.layers s hs).2 (hl ▸ lt_irrefl _)
  have hkeys : h.next ∉ h.sessions.map (·.1) := by
    rwa [hi.sessions, List.map_map]
  refine ⟨?_, ?_, ?_, ?_, ?_, ?_, hi.signerKeys, Nat.le_succ_of_le hi.first⟩
  · show mapSet h.sessions h.next _ = _
    rw [mapSet_of_not_mem _ _ _ hkeys, hi.sessions, List.map_append, List.map_singleton]
    rfl
  · rw [List.map_append, List.nodup_append]
    exact ⟨hi.nodup, List.nodup_singleton _, List.disjoint_singleton.2 hfresh⟩
  all_goals simp only [List.forall_mem_append, List.forall_mem_singleton]
  · exact ⟨fun s hs => (hi.layers s hs).imp_right Nat.lt_succ_of_lt, hi.first, Nat.lt_succ_self _⟩
  · exact ⟨hi.beacon, hb⟩
  · exact ⟨hi.proto, rfl⟩
  · exact ⟨hi.signers, fun _ hx => hx⟩

theorem filter_lid_ne {gs : List (Session P)} (hnd : (gs.map (·.lid)).Nodup) (layer : ℕ) :
    gs.filter (fun s => s.lid ≠ layer) = gs.eraseP (·.lid = layer) := by
  induction gs with
  | nil => rfl
  | cons g gs ih =>
    rw [List.map_cons, List.nodup_cons] at hnd
    by_cases hg : g.lid = layer
    · rw [List.filter_cons_of_neg (by simpa using hg), List.eraseP_cons_of_pos (by simpa using hg), List.filter_eq_self]
      intro s hs
      simpa using fun hl => hnd.1 (by rw [hg, ← hl]; exact List.mem_map_of_mem _ hs)
    · rw [List.filter_cons_of_pos (by simpa using hg), List.eraseP_cons_of_neg (by simpa using hg), ih hnd.2]

theorem mapDelete_sessions {gs : List (Session P)} (hnd : (gs.map (·.lid)).Nodup) (layer : ℕ) :
    mapDelete (gs.map fun s => (s.lid, s)) layer = (gs.eraseP (·.lid = layer)).map fun s => (s.lid, s) := by
  rw [mapDelete, List.filter_map, ← filter_lid_ne hnd]
  rfl

theorem lid_ne_of_mem_eraseP {gs : List (Session P)} (hnd : (gs.map (·.lid)).Nodup) {layer : ℕ} :
    ∀ s ∈ gs.eraseP (·.lid = layer), s.lid ≠ layer := by
  rw [← filter_lid_ne hnd]
  exact fun s hs => of_decide_eq_true (List.mem_filter.1 hs).2

theorem Inv.sessionReturn (hi : Inv cc newProtocol e h) (layer : ℕ) (failed : Bool) : Inv cc newProtocol e (h.sessionReturn layer failed).1 := by
  unfold Node.sessionReturn
  split
  · have hsub := (List.eraseP_sublist h.goroutines (p := (·.lid = layer)))
    refine ⟨?_, hi.nodup.sublist (hsub.map _), fun s hs => hi.layers s (hsub.subset hs),
      fun s hs => hi.beacon s (hsub.subset hs), fun s hs => hi.proto s (hsub.subset hs),
      fun s hs => hi.signers s (hsub.subset hs), hi.signerKeys, hi.first⟩
    show mapDelete h.sessions layer = _
    rw [hi.sessions, mapDelete_sessions hi.nodup]
  · exact hi

theorem Inv.apply (hi : Inv cc newProtocol e h) (op : NodeOp) : Inv cc newProtocol e (h.apply cfg cc newProtocol op).1 := by
  cases op with
  | register sig => exact hi.register sig
  | awaitLayer synced beacon =>
    simp only [Node.apply]; unfold awaitLayer
    split
    · rcases @onLayer_cases _ cc newProtocol h h.next synced beacon with hl | ⟨b, -, -, hb, hl⟩ <;> simp only [hl]
      · exact hi.next_succ
      · exact hi.addSession hb
    · exact hi
  | ctxDone => exact hi.congr rfl rfl rfl rfl
  | sessionReturn layer failed => exact hi.sessionReturn layer failed
  | handle d =>
    obtain ⟨hs, he⟩ := apply_handle_fst h d
    rw [he]; exact hi.congr rfl rfl rfl rfl
  | deliver i =>
    obtain ⟨m, he⟩ := apply_deliver_fst h i
    rw [he]; exact hi.congr rfl rfl rfl rfl

theorem runNode_inv (Q : Node P → Prop) (hP : ∀ h op, Inv cc newProtocol e h → Q h → Q (h.apply cfg cc newProtocol op).1) :
    ∀ (ops : List NodeOp) (h : Node P), Inv cc newProtocol e h → Q h →
      Inv cc newProtocol e (runNode cfg cc newProtocol h ops).1 ∧ Q (runNode cfg cc newProtocol h ops).1
  | [], _, hi, hp => ⟨hi, hp⟩
  | op :: ops, h, hi, hp => runNode_inv Q hP ops _ (hi.apply op) (hP h op hi hp)

theorem inv_runNode_start (cur gen : ℕ) (mal : ℕ → Bool) (ops : List NodeOp) :
    Inv cc newProtocol (enabledLayer cfg cur gen) (runNode cfg cc newProtocol (start cfg cur gen mal) ops).1 :=
  (runNode_inv (fun _ => True) (fun _ _ _ _ => trivial) ops _ (inv_start cur gen mal) trivial).1

end Inv

/-- In every run of a node from `Start`, whatever the order of its goroutines' steps, the map
of sessions holds, under its layer, the session of each `run` goroutine that has not
returned, and no other: one goroutine a layer, each for a layer from the loop's first to
before the loop's current one, with a beacon that is not empty, the threshold
`CommitteeFor(layer)/2 + 1`, and only signers registered. So `Running` counts the live `run`
goroutines. -/
theorem registry_inv (cur gen : ℕ) (mal : ℕ → Bool) (ops : List NodeOp) :
    Inv cc newProtocol (enabledLayer cfg cur gen) (runNode cfg cc newProtocol (start cfg cur gen mal) ops).1 ∧
      (runNode cfg cc newProtocol (start cfg cur gen mal) ops).1.running =
        (runNode cfg cc newProtocol (start cfg cur gen mal) ops).1.goroutines.length := by
  have hi := @inv_runNode_start _ cfg cc newProtocol cur gen mal ops
  refine ⟨hi, ?_⟩
  rw [running, hi.sessions, List.length_map]

/-! ## No layer gets two sessions -/

section Layers

variable {cfg cc newProtocol}

theorem inChargeLayers_append (evs evs' : List (NodeEvent P)) :
    inChargeLayers (evs ++ evs') = inChargeLayers evs ++ inChargeLayers evs' :=
  List.filterMap_append _ _ _

theorem next_le_runNode : ∀ (ops : List NodeOp) (h : Node P), h.next ≤ (runNode cfg cc newProtocol h ops).1.next
  | [], _ => le_rfl
  | op :: ops, h => (apply_goroutines h op).2.trans (next_le_runNode ops _)

theorem runNode_inChargeLayers : ∀ (ops : List NodeOp) (h : Node P),
    (inChargeLayers (runNode cfg cc newProtocol h ops).2).Pairwise (· < ·) ∧
      ∀ l ∈ inChargeLayers (runNode cfg cc newProtocol h ops).2, h.next ≤ l ∧ l < disabledLayer cfg ∧
        l < (runNode cfg cc newProtocol h ops).1.next
  | [], _ => ⟨List.Pairwise.nil, fun _ hl => absurd hl (List.not_mem_nil _)⟩
  | op :: ops, h => by
    obtain ⟨ih₁, ih₂⟩ := runNode_inChargeLayers ops (h.apply cfg cc newProtocol op).1
    have hle := (@apply_goroutines _ cfg cc newProtocol h op).2
    simp only [runNode, inChargeLayers_append]
    rcases @apply_inCharge _ cfg cc newProtocol h op with hl | ⟨hl, hdis, hnext⟩ <;> rw [hl]
    · exact ⟨ih₁, fun l hl => (ih₂ l hl).imp_left hle.trans⟩
    · have hfinal := @next_le_runNode _ cfg cc newProtocol ops (h.apply cfg cc newProtocol op).1
      refine ⟨List.pairwise_cons.2 ⟨fun l hl => ?_, ih₁⟩, fun l hl => ?_⟩
      · exact Nat.lt_of_lt_of_le (hnext ▸ Nat.lt_succ_self _) (ih₂ l hl).1
      · rcases List.mem_cons.1 hl with rfl | hl
        · exact ⟨le_rfl, hdis, Nat.lt_of_lt_of_le (hnext ▸ Nat.lt_succ_self _) hfinal⟩
        · exact (ih₂ l hl).imp_left hle.trans

theorem apply_of_not_loopStep (h : Node P) (op : NodeOp) (hop : op.isLoopStep = false) (hctx : op ≠ .ctxDone) :
    inChargeLayers (h.apply cfg cc newProtocol op).2 = [] ∧ (h.apply cfg cc newProtocol op).1.next = h.next ∧
      (h.apply cfg cc newProtocol op).1.looping = h.looping := by
  have hloop : (h.apply cfg cc newProtocol op).1.next = h.next ∧ (h.apply cfg cc newProtocol op).1.looping = h.looping := by
    cases op with
    | register sig => exact ⟨rfl, rfl⟩
    | awaitLayer => cases hop
    | ctxDone => exact absurd rfl hctx
    | sessionReturn layer failed =>
      simp only [apply]; unfold sessionReturn
      split <;> exact ⟨rfl, rfl⟩
    | handle d =>
      obtain ⟨hs, he⟩ := apply_handle_fst h d
      rw [he]; exact ⟨rfl, rfl⟩
    | deliver i =>
      obtain ⟨m, he⟩ := apply_deliver_fst h i
      rw [he]; exact ⟨rfl, rfl⟩
  refine ⟨?_, hloop⟩
  rcases @apply_inCharge _ cfg cc newProtocol h op with hl | ⟨-, -, hn⟩
  · exact hl
  · omega

theorem apply_awaitLayer_ready (h : Node P) (hl : h.looping = true) {b : ℕ} (hb : b ≠ emptyBeacon) :
    (h.apply cfg cc newProtocol (.awaitLayer true (.ok b))).1.looping = true ∧
      if h.next < disabledLayer cfg then
        inChargeLayers (h.apply cfg cc newProtocol (.awaitLayer true (.ok b))).2 = [h.next] ∧
          (h.apply cfg cc newProtocol (.awaitLayer true (.ok b))).1.next = h.next + 1
      else inChargeLayers (h.apply cfg cc newProtocol (.awaitLayer true (.ok b))).2 = [] ∧
          (h.apply cfg cc newProtocol (.awaitLayer true (.ok b))).1.next = h.next := by
  simp only [apply, awaitLayer, onLayer, hl, true_and, if_true, hb, if_false]
  split
  · exact ⟨rfl, rfl, rfl⟩
  · exact ⟨hl, rfl, rfl⟩

theorem runNode_inChargeLayers_ready : ∀ (ops : List NodeOp) (h : Node P), h.looping = true → .ctxDone ∉ ops →
    (∀ synced beacon, .awaitLayer synced beacon ∈ ops → synced = true ∧ ∃ b, beacon = .ok b ∧ b ≠ emptyBeacon) →
    inChargeLayers (runNode cfg cc newProtocol h ops).2 =
      List.range' h.next (min (ops.countP NodeOp.isLoopStep) (disabledLayer cfg - h.next))
  | [], _, _, _, _ => by simp [runNode, inChargeLayers]
  | op :: ops, h, hl, hctx, hready => by
    have hctx' : .ctxDone ∉ ops := fun hm => hctx (List.mem_cons_of_mem _ hm)
    have hready' := fun synced beacon hm => hready synced beacon (List.mem_cons_of_mem op hm)
    have ih := runNode_inChargeLayers_ready ops (h.apply cfg cc newProtocol op).1
    simp only [runNode, inChargeLayers_append, List.countP_cons]
    cases hop : op.isLoopStep
    · obtain ⟨h₁, h₂, h₃⟩ := apply_of_not_loopStep h op hop fun he => hctx (he ▸ List.mem_cons_self _ _)
      rw [h₁, ih (h₃.trans hl) hctx' hready', h₂]
      simp
    · obtain ⟨synced, beacon, rfl⟩ : ∃ synced beacon, op = .awaitLayer synced beacon := by
        cases op <;> first | exact ⟨_, _, rfl⟩ | cases hop
      obtain ⟨rfl, b, rfl, hb⟩ := hready synced beacon (List.mem_cons_self _ _)
      obtain ⟨hl', hstep⟩ := @apply_awaitLayer_ready _ cfg cc newProtocol h hl b hb
      rw [ih hl' hctx' hready']
      split at hstep
      · rw [hstep.1, hstep.2, if_pos rfl, show min (ops.countP NodeOp.isLoopStep + 1) (disabledLayer cfg - h.next) =
          min (ops.countP NodeOp.isLoopStep) (disabledLayer cfg - (h.next + 1)) + 1 by omega, List.range'_succ]
        rfl
      · rw [hstep.1, hstep.2, show disabledLayer cfg - h.next = 0 by omega]
        simp

end Layers

/-- In every run of a node from `Start`, the layers that hare takes charge of, one for each
session `onLayer` registers, rise strictly from the loop's first layer and stay below the
disabled layer: no layer gets two sessions, whatever the order of the goroutines' steps. -/
theorem inCharge_layers_increase (cur gen : ℕ) (mal : ℕ → Bool) (ops : List NodeOp) :
    (inChargeLayers (runNode cfg cc newProtocol (start cfg cur gen mal) ops).2).Pairwise (· < ·) ∧
      ∀ l ∈ inChargeLayers (runNode cfg cc newProtocol (start cfg cur gen mal) ops).2,
        enabledLayer cfg cur gen ≤ l ∧ l < disabledLayer cfg := by
  obtain ⟨h₁, h₂⟩ := @runNode_inChargeLayers _ cfg cc newProtocol ops (start cfg cur gen mal)
  exact ⟨h₁, fun l hl => ⟨(h₂ l hl).1, (h₂ l hl).2.1⟩⟩

/-- In every run of a node from `Start` in which the context does not end and every step of
the loop finds the node synced, with a beacon for the layer's epoch, hare takes charge of every
layer in turn, whatever the other goroutines do in between: of the consecutive layers from the
loop's first, one for each step of the loop, up to the disabled layer. No layer is skipped. -/
theorem inCharge_every_layer (cur gen : ℕ) (mal : ℕ → Bool) (ops : List NodeOp) (hctx : .ctxDone ∉ ops)
    (hready : ∀ synced beacon, .awaitLayer synced beacon ∈ ops → synced = true ∧ ∃ b, beacon = .ok b ∧ b ≠ emptyBeacon) :
    inChargeLayers (runNode cfg cc newProtocol (start cfg cur gen mal) ops).2 =
      List.range' (enabledLayer cfg cur gen) (min (ops.countP NodeOp.isLoopStep) (disabledLayer cfg - enabledLayer cfg cur gen)) :=
  runNode_inChargeLayers_ready ops _ rfl hctx hready

theorem inCharge_every_layer_two_steps :
    NodeOp.ctxDone ∉ [.awaitLayer true (.ok 7), .register 1, .awaitLayer true (.ok 7)] ∧
    (∀ (synced : Bool) (beacon : Except String ℕ), NodeOp.awaitLayer synced beacon ∈
      [.awaitLayer true (.ok 7), .register 1, .awaitLayer true (.ok 7)] →
        synced = true ∧ ∃ b, beacon = .ok b ∧ b ≠ emptyBeacon) ∧
    inChargeLayers (runNode defaultConfig defaultCommittee (id : UInt16 → UInt16) (start defaultConfig 4 0 fun _ => false)
        [.awaitLayer true (.ok 7), .register 1, .awaitLayer true (.ok 7)]).2 =
      List.range' (enabledLayer defaultConfig 4 0)
        (min ([NodeOp.awaitLayer true (.ok 7), .register 1, .awaitLayer true (.ok 7)].countP NodeOp.isLoopStep)
          (disabledLayer defaultConfig - enabledLayer defaultConfig 4 0)) :=
  have hctx : NodeOp.ctxDone ∉ [.awaitLayer true (.ok 7), .register 1, .awaitLayer true (.ok 7)] := by simp
  have hready : ∀ (synced : Bool) (beacon : Except String ℕ), NodeOp.awaitLayer synced beacon ∈
      [.awaitLayer true (.ok 7), .register 1, .awaitLayer true (.ok 7)] →
        synced = true ∧ ∃ b, beacon = .ok b ∧ b ≠ emptyBeacon := by
    intro synced beacon hm
    simp only [List.mem_cons, NodeOp.awaitLayer.injEq, List.mem_nil_iff, or_false] at hm
    rcases hm with ⟨rfl, rfl⟩ | hm | ⟨rfl, rfl⟩
    · exact ⟨rfl, 7, rfl, by decide⟩
    · cases hm
    · exact ⟨rfl, 7, rfl, by decide⟩
  ⟨hctx, hready, inCharge_every_layer defaultConfig defaultCommittee id 4 0 _ _ hctx hready⟩

/-! ## A returned session's layer stays closed -/

section Closed

variable {cfg cc newProtocol}

def Closed (layer : ℕ) (h : Node P) : Prop := (∀ s ∈ h.goroutines, s.lid ≠ layer) ∧ layer < h.next

theorem closed_apply {layer : ℕ} {h : Node P} (hc : Closed layer h) (op : NodeOp) :
    Closed layer (h.apply cfg cc newProtocol op).1 := by
  obtain ⟨hg, hn⟩ := @apply_goroutines _ cfg cc newProtocol h op
  refine ⟨fun s hs hl => ?_, Nat.lt_of_lt_of_le hc.2 hn⟩
  rcases hg s hs with hs | ⟨b, -, rfl⟩
  · exact hc.1 s hs hl
  · exact absurd hc.2 (hl ▸ lt_irrefl _)

end Closed


/-- Once the `run` goroutine of a layer's live session has returned, whatever the node's
goroutines do next, the layer has no live session again, and `Handler` refuses every message
of it that decodes and validates as not registered, changing nothing. -/
theorem sessionReturn_ends_layer (cfg : Config) (cc : CommitteeConfig) (newProtocol : UInt16 → P) (cur gen : ℕ) (mal : ℕ → Bool)
    (ops₁ ops₂ : List NodeOp) (layer : ℕ) (failed : Bool)
    (hlive : ∃ s ∈ (runNode cfg cc newProtocol (start cfg cur gen mal) ops₁).1.goroutines, s.lid = layer) :
    let h := (runNode cfg cc newProtocol (start cfg cur gen mal) (ops₁ ++ .sessionReturn layer failed :: ops₂)).1
    (∀ s ∈ h.goroutines, s.lid ≠ layer) ∧ ∀ (d : Delivery) (msg : Message), d.decoded = .ok msg →
      d.validation = none → msg.layer = layer → h.handler d = (h, some (.notRegistered layer)) := by
  intro h
  obtain ⟨s, hs, rfl⟩ := hlive
  have hi₁ := @inv_runNode_start _ cfg cc newProtocol cur gen mal ops₁
  set h₁ := (runNode cfg cc newProtocol (start cfg cur gen mal) ops₁).1
  have hany : h₁.goroutines.any (·.lid = s.lid) = true := List.any_eq_true.2 ⟨s, hs, by simp⟩
  have hc : Closed s.lid (h₁.apply cfg cc newProtocol (.sessionReturn s.lid failed)).1 := by
    simp only [Node.apply, Node.sessionReturn, hany, if_true]
    exact ⟨lid_ne_of_mem_eraseP hi₁.nodup, (hi₁.layers s hs).2⟩
  obtain ⟨hi, hch⟩ := @runNode_inv _ cfg cc newProtocol _ (Closed s.lid) (fun h op _ hc => closed_apply hc op) ops₂ _
    (hi₁.apply (.sessionReturn s.lid failed)) hc
  have hh : h = (runNode cfg cc newProtocol (h₁.apply cfg cc newProtocol (.sessionReturn s.lid failed)).1 ops₂).1 := runNode_append _ _ _
  rw [← hh] at hi hch
  refine ⟨hch.1, fun d msg hd hv hl => ?_⟩
  have hnone := (hi.mapGet_sessions_eq_none s.lid).2 hch.1
  simp only [Node.handler, hd, hv, hl, hnone]

theorem sessionReturn_ends_layer_five :
    (∃ s ∈ (runNode defaultConfig defaultCommittee (id : UInt16 → UInt16) (start defaultConfig 4 0 fun _ => false)
        [.register 1, .awaitLayer true (.ok 7)]).1.goroutines, s.lid = 5) ∧
    let h := (runNode defaultConfig defaultCommittee (id : UInt16 → UInt16) (start defaultConfig 4 0 fun _ => false)
      ([.register 1, .awaitLayer true (.ok 7)] ++ .sessionReturn 5 false :: [.awaitLayer true (.ok 7)])).1
    (∀ s ∈ h.goroutines, s.lid ≠ 5) ∧ ∀ (d : Delivery) (msg : Message), d.decoded = .ok msg →
      d.validation = none → msg.layer = 5 → h.handler d = (h, some (.notRegistered 5)) :=
  ⟨by decide, sessionReturn_ends_layer defaultConfig defaultCommittee id 4 0 _ [.register 1, .awaitLayer true (.ok 7)]
    [.awaitLayer true (.ok 7)] 5 false (by decide)⟩

/-- In every run of a node from `Start`, a message that `Handler` gives to a protocol has
decoded, validated, carried a valid signature and a grade above `grade0`; its input has that
grade and says whether the sender was malicious when the call went on after its lookup. The
protocol is the one the map held for the message's layer at the call's lookup, an earlier step
of the run: that of a session live then, which the loop registered with a beacon for a layer
it had passed. Its `run` may have returned since. -/
theorem handler_delivers_to_live_session (cfg : Config) (cc : CommitteeConfig) (newProtocol : UInt16 → P)
    (cur gen : ℕ) (mal : ℕ → Bool) (ops : List NodeOp) (s : Session P) (inp : Input)
    (hin : .onInput s inp ∈ (runNode cfg cc newProtocol (start cfg cur gen mal) ops).2) :
    ∃ ops₁ d ops₂ i ops₃, ops = ops₁ ++ .handle d :: ops₂ ++ .deliver i :: ops₃ ∧
      d.decoded = .ok inp.message ∧ d.validation = none ∧ d.signatureOk = true ∧ d.grade ≠ grade0 ∧
      inp.atxgrade = d.grade ∧
      inp.malicious = (runNode cfg cc newProtocol (start cfg cur gen mal) (ops₁ ++ .handle d :: ops₂)).1.malicious
        inp.message.sender ∧
      let h := (runNode cfg cc newProtocol (start cfg cur gen mal) ops₁).1
      mapGet h.sessions inp.message.layer = some s ∧ s ∈ h.goroutines ∧ s.lid = inp.message.layer ∧
        s.beacon ≠ emptyBeacon ∧ enabledLayer cfg cur gen ≤ s.lid ∧ s.lid < h.next := by
  obtain ⟨pre, op, ops₃, rfl, hev⟩ := mem_runNode_events ops _ _ hin
  obtain ⟨i, d, rfl, hmem, hsig, hg, hgrade, hmal⟩ := apply_onInput hev
  obtain ⟨ops₁, op, ops₂, rfl, rfl, hd, hv, hs⟩ :=
    (mem_runNode_of_step Node.handlers _ apply_handlers pre _ _ hmem).resolve_left (List.not_mem_nil _)
  have hi := @inv_runNode_start _ cfg cc newProtocol cur gen mal ops₁
  obtain ⟨hsg, hsl⟩ := hi.mapGet_sessions hs
  exact ⟨ops₁, d, ops₂, i, ops₃, rfl, hd, hv, hsig, hg, hgrade, hmal, hs, hsg, hsl, hi.beacon s hsg,
    (hi.layers s hsg).1, (hi.layers s hsg).2⟩

theorem handler_delivers_to_live_session_after_return :
    let ops : List NodeOp := [.register 1, .awaitLayer true (.ok 7),
      .handle ⟨.ok ⟨5, 1⟩, none, true, 2, true, none⟩, .sessionReturn 5 false, .deliver 0]
    let node := runNode defaultConfig defaultCommittee (id : UInt16 → UInt16) (start defaultConfig 4 0 fun _ => false)
    let s : Session UInt16 := ⟨5, 7, [1], 401⟩
    let inp : Input := ⟨⟨5, 1⟩, false, 2⟩
    (node ops).1.goroutines = [] ∧ .onInput s inp ∈ (node ops).2 ∧
    ∃ ops₁ d ops₂ i ops₃, ops = ops₁ ++ .handle d :: ops₂ ++ .deliver i :: ops₃ ∧
      d.decoded = .ok inp.message ∧ d.validation = none ∧ d.signatureOk = true ∧ d.grade ≠ grade0 ∧
      inp.atxgrade = d.grade ∧ inp.malicious = (node (ops₁ ++ .handle d :: ops₂)).1.malicious inp.message.sender ∧
      let h := (node ops₁).1
      mapGet h.sessions inp.message.layer = some s ∧ s ∈ h.goroutines ∧ s.lid = inp.message.layer ∧
        s.beacon ≠ emptyBeacon ∧ enabledLayer defaultConfig 4 0 ≤ s.lid ∧ s.lid < h.next :=
  ⟨by decide, by decide, handler_delivers_to_live_session defaultConfig defaultCommittee id 4 0 _ _ _ _ (by decide)⟩

/-- "Signer can't join mid session": in every run of a node, the `run` goroutine of a live
session publishes only for the session's layer, one the loop has passed, and only for signers
of the snapshot `onLayer` took of the signer map at the loop's step that made the session, each
with the eligibility the oracle gave it in the round of the message, the preround or a message
round. So a signer registered after the session started never publishes in it. -/
theorem session_publishes_registered (cfg : Config) (cc : CommitteeConfig) (newProtocol : UInt16 → P)
    {M V : Type} (pr : Protocol P M) (active : ℕ → ℕ → ℕ → IterRound → Option V) (limit : UInt8)
    (cur gen : ℕ) (mal : ℕ → Bool) (ops : List NodeOp) (s : Session P)
    (hs : s ∈ (runNode cfg cc newProtocol (start cfg cur gen mal) ops).1.goroutines)
    (initial : List ℕ) (fuel : ℕ) (sched : List Bool) (l : ℕ) (ir : IterRound) (sender : ℕ) (v : V) (m : M)
    (he : Event.publish l ir sender v m ∈ (run pr active s limit initial fuel sched).1) :
    ∃ ops₁ b ops₂, ops = ops₁ ++ .awaitLayer true (.ok b) :: ops₂ ∧
      (let h₁ := (runNode cfg cc newProtocol (start cfg cur gen mal) ops₁).1
       s = h₁.newSession cc newProtocol h₁.next b ∧ sender ∈ h₁.signers.map (·.2)) ∧
      l = s.lid ∧ enabledLayer cfg cur gen ≤ l ∧ l < (runNode cfg cc newProtocol (start cfg cur gen mal) ops).1.next ∧
      (ir = ⟨0, 0⟩ ∨ pr.isMessageRound ir = true) ∧ active sender s.beacon s.lid ir = some v := by
  have hl := (@inv_runNode_start _ cfg cc newProtocol cur gen mal ops).layers s hs
  have hok : PublishOk pr active s (.publish l ir sender v m) := by
    rcases mem_run pr active s limit he with ⟨out, sched', he⟩ | ⟨fuel', proto, result, sched', he⟩
    · exact preround_publishOk pr active s out sched' _ he
    · exact roundLoop_publishOk pr active s limit fuel' proto result sched' _ he
  obtain ⟨rfl, hsig, hround, hv⟩ := hok
  obtain ⟨ops₁, op, ops₂, hops, b, rfl, rfl⟩ :=
    (mem_runNode_of_step Node.goroutines _ (fun h op => (apply_goroutines h op).1) ops _ s hs).resolve_left
      (List.not_mem_nil _)
  exact ⟨ops₁, b, ops₂, hops, ⟨rfl, hsig⟩, rfl, hl.1, hl.2, hround, hv⟩

theorem session_publishes_registered_preround :
    let ops : List NodeOp := [.register 1, .awaitLayer true (.ok 7), .register 2]
    let node := runNode defaultConfig defaultCommittee (fun _ => (0 : ℕ)) (start defaultConfig 4 0 fun _ => false)
    let s : Session ℕ := ⟨5, 7, [1], 0⟩
    s ∈ (node ops).1.goroutines ∧
    Event.publish 5 ⟨0, 0⟩ 1 0 0 ∈ (run countingProtocol signerOneActive s 3 [] 10 (List.replicate 12 false)).1 ∧
    ∃ ops₁ b ops₂, ops = ops₁ ++ .awaitLayer true (.ok b) :: ops₂ ∧
      (let h₁ := (node ops₁).1
       s = h₁.newSession defaultCommittee (fun _ => (0 : ℕ)) h₁.next b ∧ 1 ∈ h₁.signers.map (·.2)) ∧
      5 = s.lid ∧ enabledLayer defaultConfig 4 0 ≤ 5 ∧ 5 < (node ops).1.next ∧
      ((⟨0, 0⟩ : IterRound) = ⟨0, 0⟩ ∨ countingProtocol.isMessageRound ⟨0, 0⟩ = true) ∧
      signerOneActive 1 s.beacon s.lid ⟨0, 0⟩ = some 0 :=
  have hs : (⟨5, 7, [1], 0⟩ : Session ℕ) ∈ (runNode defaultConfig defaultCommittee (fun _ => (0 : ℕ))
      (start defaultConfig 4 0 fun _ => false) [.register 1, .awaitLayer true (.ok 7), .register 2]).1.goroutines := by
    decide
  have he : Event.publish 5 ⟨0, 0⟩ 1 0 0 ∈
      (run countingProtocol signerOneActive ⟨5, 7, [1], 0⟩ 3 [] 10 (List.replicate 12 false)).1 := by decide
  ⟨hs, he, session_publishes_registered defaultConfig defaultCommittee _ countingProtocol signerOneActive 3 4 0 _ _ _ hs
    [] 10 _ 5 ⟨0, 0⟩ 1 0 0 he⟩

end Node

end Spacemesh.Hare
