import Spacemesh.Hare.Config

/-!
# The hare session driver

`Hare.run` and `Hare.onOutput` of hare3: a session of a layer asks the oracle for the
signers' eligibilities in the preround, waits for the preround delay and gives the protocol
its initial proposals if a signer is eligible, and then, round after round, asks for the
eligibilities of the round the protocol is in (none in a round without messages), waits for
the round's end and sends what the protocol's `Next` outputs: the message, signed and
published once for each eligible signer, then the weak coin and the consensus result, each
send racing the end of the context. It returns at the protocol's termination, an error if no
output had a result, and an error at the iteration limit.

The protocol (`newProtocol`, `Next`, `OnInitial`, `IsMessageRound`) and the oracle's
`active` are not in the source: they are parameters. The initial proposals are the value
`selectProposals` has when the preround ends. Every `select` of `run` and `onOutput` is a
choice of the schedule, `true` where `ctx.Done()` wins; a run that uses up its schedule, or
its rounds, is still waiting.

A signer publishes only in the preround or a message round, only a message the oracle made
it eligible for in the round the output belongs to, and always for the session's layer
(`run_publishes_eligible`). Unless the context ends, a run that returns no error has sent a
consensus result for its layer (`run_ok_sends_result`).
-/

namespace Spacemesh.Hare

/-- What `protocol.Next` returns that the driver reads. -/
structure Output (M : Type) where
  message : Option M
  coin : Option Bool
  result : Option (List ℕ)
  terminated : Bool

/-- The protocol of a session, with the state `P` and the messages `M`: its position, `Next`,
`OnInitial` and `IsMessageRound`. -/
structure Protocol (P M : Type) where
  iterRound : P → IterRound
  next : P → P × Output M
  onInitial : P → List ℕ → P
  isMessageRound : IterRound → Bool

structure Session (P : Type) where
  lid : ℕ
  beacon : ℕ
  signers : List ℕ
  proto : P
  deriving DecidableEq, Repr

/-- What the driver sends: a message published in a round (`onOutput`'s `ir`) for a signer
with its eligibility, a `WeakCoinOutput` and a `ConsensusOutput`. -/
inductive Event (M V : Type)
  | publish (layer : ℕ) (round : IterRound) (sender : ℕ) (eligibility : V) (msg : M)
  | coin (layer : ℕ) (coin : Bool)
  | result (layer : ℕ) (proposals : List ℕ)
  deriving DecidableEq, Repr

inductive RunError
  /-- `ctx.Err()`. -/
  | ctxErr
  /-- `terminated without result`. -/
  | terminatedWithoutResult
  /-- `hare failed to reach consensus in %d iterations`. -/
  | iterationsLimit (limit : UInt8)
  deriving DecidableEq, Repr

inductive Outcome
  | returned (err : Option RunError)
  | waiting
  deriving DecidableEq, Repr

inductive Flow
  | cont (sched : List Bool)
  | ended (o : Outcome)

variable {P M V : Type}

/-- The messages `onOutput` publishes: one for each signer with an eligibility. -/
def publishAll (lid : ℕ) (ir : IterRound) (signers : List ℕ) (vrfs : List (Option V)) : Option M → List (Event M V)
  | none => []
  | some m => (signers.zip vrfs).filterMap fun (s, vrf) => vrf.map fun v => .publish lid ir s v m

/-- The sends of `onOutput`, each racing `ctx.Done()`. -/
def sendLoop : List (Event M V) → List Bool → List (Event M V) × Flow
  | [], sched => ([], .cont sched)
  | _ :: _, [] => ([], .ended .waiting)
  | _ :: _, true :: _ => ([], .ended (.returned (some .ctxErr)))
  | e :: es, false :: sched => let r := sendLoop es sched; (e :: r.1, r.2)

def onOutput (lid : ℕ) (ir : IterRound) (signers : List ℕ) (vrfs : List (Option V)) (out : Output M)
    (sched : List Bool) : List (Event M V) × Flow :=
  let r := sendLoop ((out.coin.map (Event.coin lid)).toList ++ (out.result.map (Event.result lid)).toList) sched
  (publishAll lid ir signers vrfs out.message ++ r.1, r.2)

section Run

variable (pr : Protocol P M) (active : ℕ → ℕ → ℕ → IterRound → Option V) (s : Session P) (limit : UInt8)

/-- The eligibilities of the signers in a round: none in a round without messages. -/
def roundVrfs (current : IterRound) : List (Option V) :=
  s.signers.map fun sig => if pr.isMessageRound current then active sig s.beacon s.lid current else none

/-- A round after its wait: `Next`, `onOutput` of its output with the round's eligibilities,
and the checks of termination and of the iteration limit. It gives the events, and how the
run ends or the protocol, `result` and schedule it goes on with. -/
def roundStep (proto : P) (result : Bool) (sched : List Bool) :
    List (Event M V) × (Outcome ⊕ (P × Bool × List Bool)) :=
  let current := pr.iterRound proto
  let (proto, out) := pr.next proto
  let result := result || out.result.isSome
  let r := onOutput s.lid current s.signers (roundVrfs pr active s current) out sched
  (r.1, match r.2 with
    | .ended o => .inl o
    | .cont sched =>
      if out.terminated then .inl (.returned (if result then none else some .terminatedWithoutResult))
      else if current.iter = limit then .inl (.returned (some (.iterationsLimit limit)))
      else .inr (proto, result, sched))

/-- The loop of `run` for at most `fuel` more rounds, `result` whether an output of the loop
had a result. -/
def roundLoop : ℕ → P → Bool → List Bool → List (Event M V) × Outcome
  | 0, _, _, _ => ([], .waiting)
  | fuel + 1, proto, result, sched =>
    match sched with
    | [] => ([], .waiting)
    | true :: _ => ([], .returned none)
    | false :: sched =>
      let r := roundStep pr active s limit proto result sched
      match r.2 with
      | .inl o => (r.1, o)
      | .inr (proto, result, sched) =>
        let r' := roundLoop fuel proto result sched
        (r.1 ++ r'.1, r'.2)

/-- `run`, with the initial proposals `initial`, for at most `fuel` rounds after the preround. -/
def run (initial : List ℕ) (fuel : ℕ) (sched : List Bool) : List (Event M V) × Outcome :=
  let current : IterRound := ⟨0, 0⟩
  let vrfs := s.signers.map fun sig => active sig s.beacon s.lid current
  let start : Flow × P :=
    if vrfs.any Option.isSome then
      match sched with
      | [] => (.ended .waiting, s.proto)
      | true :: _ => (.ended (.returned (some .ctxErr)), s.proto)
      | false :: sched => (.cont sched, pr.onInitial s.proto initial)
    else (.cont sched, s.proto)
  match start with
  | (.ended o, _) => ([], o)
  | (.cont sched, proto) =>
    let (proto, out) := pr.next proto
    let r := onOutput s.lid current s.signers vrfs out sched
    match r.2 with
    | .ended o => (r.1, o)
    | .cont sched =>
      let r' := roundLoop pr active s limit fuel proto false sched
      (r.1 ++ r'.1, r'.2)

/-! ## What a run sends -/

/-- A message of the session's layer published in the preround or a message round, for a
signer with the eligibility the oracle gave it in that round: nothing is published in a round
without messages. -/
def PublishOk : Event M V → Prop
  | .publish l ir sender v _ => l = s.lid ∧ sender ∈ s.signers ∧
      (ir = ⟨0, 0⟩ ∨ pr.isMessageRound ir = true) ∧ active sender s.beacon s.lid ir = some v
  | _ => True

end Run

theorem mem_publishAll {lid : ℕ} {ir : IterRound} {signers : List ℕ} {vrfs : List (Option V)} {msg : Option M}
    {e : Event M V} (h : e ∈ publishAll lid ir signers vrfs msg) :
    ∃ sender v m, e = .publish lid ir sender v m ∧ (sender, some v) ∈ signers.zip vrfs := by
  cases msg with
  | none => cases h
  | some m =>
    obtain ⟨⟨sender, vrf⟩, hmem, he⟩ := List.mem_filterMap.1 h
    cases vrf with
    | none => cases he
    | some v => cases he; exact ⟨sender, v, m, rfl, hmem⟩

theorem mem_zip_map {l : List ℕ} {f : ℕ → Option V} {sender : ℕ} {v : Option V} (h : (sender, v) ∈ l.zip (l.map f)) :
    sender ∈ l ∧ f sender = v := by
  induction l with
  | nil => cases h
  | cons a l ih =>
    rcases List.mem_cons.1 h with h | h
    · cases h; exact ⟨List.mem_cons_self _ _, rfl⟩
    · exact (ih h).imp_left (List.mem_cons_of_mem _)

theorem sendLoop_sub : ∀ (es : List (Event M V)) (sched : List Bool), (sendLoop es sched).1.Sublist es
  | [], _ => List.Sublist.slnil
  | _ :: _, [] => List.nil_sublist _
  | _ :: _, true :: _ => List.nil_sublist _
  | e :: es, false :: sched => (sendLoop_sub es sched).cons₂ e

theorem sendLoop_on : ∀ {es : List (Event M V)} {sched sched' : List Bool}, (sendLoop es sched).2 = .cont sched' →
    (sendLoop es sched).1 = es
  | [], _, _, _ => rfl
  | _ :: _, [], _, h => nomatch h
  | _ :: _, true :: _, _, h => nomatch h
  | e :: _, false :: _, _, h => congrArg (e :: ·) (sendLoop_on h)

theorem sendLoop_ended : ∀ {es : List (Event M V)} {sched : List Bool}, (sendLoop es sched).2 ≠ .ended (.returned none)
  | [], _, h => nomatch h
  | _ :: _, [], h => nomatch h
  | _ :: _, true :: _, h => nomatch h
  | _ :: es, false :: _, h => @sendLoop_ended es _ h

theorem sendLoop_suffix : ∀ {es : List (Event M V)} {sched sched' : List Bool}, (sendLoop es sched).2 = .cont sched' →
    List.IsSuffix sched' sched
  | [], _, _, h => by cases h; exact List.suffix_refl _
  | _ :: _, [], _, h => nomatch h
  | _ :: _, true :: _, _, h => nomatch h
  | _ :: es, false :: sched, _, h => (@sendLoop_suffix es _ _ h).trans (List.suffix_cons false sched)

theorem onOutput_result {lid : ℕ} {ir : IterRound} {signers : List ℕ} {vrfs : List (Option V)} {out : Output M}
    {sched sched' : List Bool} (h : (onOutput lid ir signers vrfs out sched).2 = .cont sched') {ps : List ℕ}
    (hps : out.result = some ps) : Event.result lid ps ∈ (onOutput lid ir signers vrfs out sched).1 := by
  unfold onOutput at h ⊢
  dsimp only at h ⊢
  rw [sendLoop_on h, hps]
  simp

theorem onOutput_publish {lid : ℕ} {ir : IterRound} {signers : List ℕ} {vrfs : List (Option V)} {out : Output M}
    {sched : List Bool} {l : ℕ} {ir' : IterRound} {sender : ℕ} {v : V} {m : M}
    (h : Event.publish l ir' sender v m ∈ (onOutput lid ir signers vrfs out sched).1) :
    l = lid ∧ ir' = ir ∧ (sender, some v) ∈ signers.zip vrfs := by
  rcases List.mem_append.1 h with h | h
  · obtain ⟨_, _, _, he, hz⟩ := mem_publishAll h
    cases he; exact ⟨rfl, rfl, hz⟩
  · have := (sendLoop_sub _ sched).subset h
    cases hc : out.coin <;> cases hr : out.result <;> simp [hc, hr] at this

section Run

variable (pr : Protocol P M) (active : ℕ → ℕ → ℕ → IterRound → Option V) (s : Session P) (limit : UInt8)

theorem roundStep_publishOk (proto : P) (result : Bool) (sched : List Bool) :
    ∀ e ∈ (roundStep pr active s limit proto result sched).1, PublishOk pr active s e := by
  intro e he
  cases e with
  | publish l ir sender v m =>
    obtain ⟨rfl, rfl, hz⟩ := onOutput_publish he
    obtain ⟨hs, hv⟩ := mem_zip_map hz
    split_ifs at hv with hmsg
    exact ⟨rfl, hs, .inr hmsg, hv⟩
  | coin => trivial
  | result => trivial

theorem roundLoop_publishOk : ∀ (fuel : ℕ) (proto : P) (result : Bool) (sched : List Bool),
    ∀ e ∈ (roundLoop pr active s limit fuel proto result sched).1, PublishOk pr active s e
  | 0, _, _, _ => fun _ h => nomatch h
  | fuel + 1, proto, result, [] => fun _ h => nomatch h
  | fuel + 1, proto, result, true :: _ => fun _ h => nomatch h
  | fuel + 1, proto, result, false :: sched => by
    intro e he
    dsimp only [roundLoop] at he
    split at he
    · exact roundStep_publishOk pr active s limit proto result sched e he
    · simp only [List.mem_append] at he
      rcases he with he | he
      · exact roundStep_publishOk pr active s limit proto result sched e he
      · exact roundLoop_publishOk fuel _ _ _ e he

theorem roundStep_result (proto : P) (result : Bool) (sched : List Bool) :
    ((roundStep pr active s limit proto result sched).2 = .inl (.returned none) →
      result = true ∨ ∃ ps, Event.result s.lid ps ∈ (roundStep pr active s limit proto result sched).1) ∧
    ∀ proto' result' sched', (roundStep pr active s limit proto result sched).2 = .inr (proto', result', sched') →
      List.IsSuffix sched' sched ∧
        (result' = true → result = true ∨ ∃ ps, Event.result s.lid ps ∈ (roundStep pr active s limit proto result sched).1) := by
  unfold roundStep
  rcases hn : pr.next proto with ⟨proto₁, out⟩
  dsimp only
  have hsent : ∀ sched', (onOutput s.lid (pr.iterRound proto) s.signers (roundVrfs pr active s (pr.iterRound proto)) out
      sched).2 = .cont sched' → (result || out.result.isSome) = true → result = true ∨ ∃ ps, Event.result s.lid ps ∈
        (onOutput s.lid (pr.iterRound proto) s.signers (roundVrfs pr active s (pr.iterRound proto)) out sched).1 := by
    intro sched' ho hr
    rcases Bool.or_eq_true _ _ ▸ hr with hr | hr
    · exact .inl hr
    · obtain ⟨ps, hps⟩ := Option.isSome_iff_exists.1 hr
      exact .inr ⟨ps, onOutput_result ho hps⟩
  cases ho : (onOutput s.lid (pr.iterRound proto) s.signers (roundVrfs pr active s (pr.iterRound proto)) out sched).2 with
  | ended o =>
    refine ⟨fun h => ?_, fun _ _ _ h => nomatch h⟩
    cases h
    exact absurd ho sendLoop_ended
  | cont sched' =>
    dsimp only
    split_ifs with hterm hres hlim
    · exact ⟨fun _ => hsent sched' ho hres, by simp⟩
    · exact ⟨by simp, by simp⟩
    · exact ⟨by simp, by simp⟩
    · refine ⟨by simp, fun _ _ _ h => ?_⟩
      cases h
      exact ⟨sendLoop_suffix ho, hsent sched' ho⟩

theorem roundLoop_ok_result : ∀ (fuel : ℕ) (proto : P) (result : Bool) (sched : List Bool),
    (∀ c ∈ sched, c = false) → (roundLoop pr active s limit fuel proto result sched).2 = .returned none →
    result = true ∨ ∃ ps, Event.result s.lid ps ∈ (roundLoop pr active s limit fuel proto result sched).1
  | 0, _, _, _, _, h => nomatch h
  | fuel + 1, proto, result, [], _, h => nomatch h
  | fuel + 1, proto, result, true :: _, hsched, _ => nomatch hsched true (List.mem_cons_self _ _)
  | fuel + 1, proto, result, false :: sched, hsched, h => by
    obtain ⟨hend, hgo⟩ := roundStep_result pr active s limit proto result sched
    dsimp only [roundLoop] at h ⊢
    rcases ho : (roundStep pr active s limit proto result sched).2 with o | ⟨proto', result', sched'⟩
    · simp only [ho] at h ⊢
      cases h
      exact hend ho
    · simp only [ho] at h ⊢
      obtain ⟨hsuf, hres⟩ := hgo _ _ _ ho
      rcases roundLoop_ok_result fuel proto' result' sched'
          (fun c hc => hsched c (List.mem_cons_of_mem _ (hsuf.subset hc))) h with hr | ⟨ps, hps⟩
      · exact (hres hr).imp_right fun ⟨ps, hps⟩ => ⟨ps, List.mem_append_left _ hps⟩
      · exact .inr ⟨ps, List.mem_append_right _ hps⟩

theorem preround_publishOk (out : Output M) (sched : List Bool) :
    ∀ e ∈ (onOutput s.lid ⟨0, 0⟩ s.signers (s.signers.map fun sig => active sig s.beacon s.lid ⟨0, 0⟩) out sched).1,
      PublishOk pr active s e := by
  intro e he
  cases e with
  | publish l ir sender v m =>
    obtain ⟨rfl, rfl, hz⟩ := onOutput_publish he
    obtain ⟨hs, hv⟩ := mem_zip_map hz
    exact ⟨rfl, hs, .inl rfl, hv⟩
  | coin => trivial
  | result => trivial

theorem mem_run {initial : List ℕ} {fuel : ℕ} {sched : List Bool} {e : Event M V}
    (he : e ∈ (run pr active s limit initial fuel sched).1) :
    (∃ out sched', e ∈ (onOutput s.lid ⟨0, 0⟩ s.signers (s.signers.map fun sig => active sig s.beacon s.lid ⟨0, 0⟩)
        out sched').1) ∨
      ∃ fuel' proto result sched', e ∈ (roundLoop pr active s limit fuel' proto result sched').1 := by
  unfold run at he
  dsimp only at he
  split at he
  · cases he
  · split at he
    · exact .inl ⟨_, _, he⟩
    · simp only [List.mem_append] at he
      rcases he with he | he
      · exact .inl ⟨_, _, he⟩
      · exact .inr ⟨_, _, _, _, he⟩

/-- Every message `run` publishes is for the session's layer, by one of its signers, with the
eligibility the oracle gave that signer in the preround or in a message round of the protocol:
the round the protocol was in when `Next` gave the output it belongs to. -/
theorem run_publishes_eligible (initial : List ℕ) (fuel : ℕ) (sched : List Bool) :
    ∀ e ∈ (run pr active s limit initial fuel sched).1, PublishOk pr active s e := by
  intro e he
  rcases mem_run pr active s limit he with ⟨out, sched', he⟩ | ⟨fuel', proto, result, sched', he⟩
  · exact preround_publishOk pr active s out sched' e he
  · exact roundLoop_publishOk pr active s limit fuel' proto result sched' e he

def countingProtocol : Protocol ℕ ℕ where
  iterRound p := ⟨UInt8.ofNat (p / 3), p % 3⟩
  next p := (p + 1, ⟨some p, none, if p = 4 then some [7] else none, p = 5⟩)
  onInitial p _ := p
  isMessageRound ir := ir.round ≠ 2

def signerOneActive (sig _ _ : ℕ) (ir : IterRound) : Option ℕ := if sig = 1 then some ir.round else none

theorem run_publishes_eligible_preround :
    Event.publish 9 ⟨0, 0⟩ 1 0 0 ∈
      (run countingProtocol signerOneActive ⟨9, 0, [1, 2], 0⟩ 3 [] 10 (List.replicate 12 false)).1 ∧
    PublishOk countingProtocol signerOneActive ⟨9, 0, [1, 2], 0⟩ (Event.publish 9 ⟨0, 0⟩ 1 0 0) :=
  have h : Event.publish 9 ⟨0, 0⟩ 1 0 0 ∈
      (run countingProtocol signerOneActive ⟨9, 0, [1, 2], 0⟩ 3 [] 10 (List.replicate 12 false)).1 := by decide
  ⟨h, run_publishes_eligible countingProtocol signerOneActive ⟨9, 0, [1, 2], 0⟩ 3 [] 10 _ _ h⟩

/-- With no end of the context in its schedule, `run` returns no error only after it sent a
consensus result for its layer. -/
theorem run_ok_sends_result (initial : List ℕ) (fuel : ℕ) (sched : List Bool) (hsched : ∀ c ∈ sched, c = false)
    (hok : (run pr active s limit initial fuel sched).2 = .returned none) :
    ∃ ps, Event.result s.lid ps ∈ (run pr active s limit initial fuel sched).1 := by
  unfold run at hok ⊢
  dsimp only at hok ⊢
  split at hok
  · rename_i o _ hstart
    cases hok
    split_ifs at hstart
    · split at hstart
      · cases hstart
      · exact absurd (hsched true (List.mem_cons_self _ _)) (by decide)
      · cases hstart
    · cases hstart
  · rename_i sched₁ proto hstart
    have hsuf : List.IsSuffix sched₁ sched := by
      split_ifs at hstart
      · split at hstart
        · cases hstart
        · cases hstart
        · cases hstart; exact List.suffix_cons _ _
      · cases hstart; exact List.suffix_refl _
    split at hok
    · rename_i o ho
      cases hok
      exact absurd ho sendLoop_ended
    · rename_i sched₂ ho
      simp only [ho]
      have hall : ∀ c ∈ sched₂, c = false := fun c hc =>
        hsched c (hsuf.subset ((sendLoop_suffix ho).subset hc))
      rcases roundLoop_ok_result pr active s limit fuel _ false sched₂ hall hok with h | ⟨ps, hps⟩
      · cases h
      · exact ⟨ps, List.mem_append_right _ hps⟩

theorem run_ok_sends_result_counting :
    (∀ c ∈ List.replicate 12 false, c = false) ∧
    (run countingProtocol signerOneActive ⟨9, 0, [1, 2], 0⟩ 3 [] 10 (List.replicate 12 false)).2 = .returned none ∧
    ∃ ps, Event.result 9 ps ∈ (run countingProtocol signerOneActive ⟨9, 0, [1, 2], 0⟩ 3 [] 10 (List.replicate 12 false)).1 :=
  have h1 : ∀ c ∈ List.replicate 12 false, c = false := fun _ hc => List.eq_of_mem_replicate hc
  have h2 : (run countingProtocol signerOneActive ⟨9, 0, [1, 2], 0⟩ 3 [] 10 (List.replicate 12 false)).2 =
      .returned none := by decide
  ⟨h1, h2, run_ok_sends_result countingProtocol signerOneActive ⟨9, 0, [1, 2], 0⟩ 3 [] 10 _ h1 h2⟩

end Run

end Spacemesh.Hare
