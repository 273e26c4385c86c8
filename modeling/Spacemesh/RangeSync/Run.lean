import Spacemesh.RangeSync.Reconciler

/-!
# The test driver

`runSync`, `runBoundedSync` and `doRunSync` of the hashsync tests: `A` opens the
sync, then `B` and `A` call `Process` in turn on each other's messages until both
are done. The driver fails the test on any error, when a party that received
`Done` is not done, when a party answers a `Done`, and after `maxRounds` rounds.
-/

namespace Spacemesh.RangeSync

variable {α : Type} [LinearOrder α]

structure Party (α : Type) [LinearOrder α] where
  store : ItemStore α
  added : List α

def Party.absorb (p : Party α) (r : Processed α) : Party α := ⟨r.store, p.added ++ r.added⟩

structure RunResult (α : Type) [LinearOrder α] where
  outcome : Except Failure ℕ
  a : Party α
  b : Party α

/-- The loop of `doRunSync` at round `i`, with `fuel = maxRounds - i` rounds left;
`msgs` are `A`'s last messages and `aDone` what its last `Process` returned. -/
def doRunSyncFrom (cfgA cfgB : Config) :
    ℕ → ℕ → Party α → Party α → List (SyncMessage α) → Bool → RunResult α
  | 0, _, a, b, _, _ => ⟨.error (.error "too many rounds"), a, b⟩
  | fuel + 1, i, a, b, msgs, aDone =>
    let rb := process cfgB b.store msgs none
    let b' := b.absorb rb
    match rb.result with
    | .error e => ⟨.error e, a, b'⟩
    | .ok bDone =>
      if aDone && !bDone then ⟨.error (.error "A is done but B after that is not"), a, b'⟩
      else if aDone && bDone then
        if rb.sent = [] then ⟨.ok (i + 1), a, b'⟩
        else ⟨.error (.error "got messages from B in response to done msg from A"), a, b'⟩
      else
        let ra := process cfgA a.store rb.sent none
        let a' := a.absorb ra
        match ra.result with
        | .error e => ⟨.error e, a', b'⟩
        | .ok aDone' =>
          if bDone && !aDone' then ⟨.error (.error "B is done but A after that is not"), a', b'⟩
          else if aDone' && bDone then
            if ra.sent = [] then ⟨.ok (i + 1), a', b'⟩
            else ⟨.error (.error "got messages from A in response to done msg from B"), a', b'⟩
          else doRunSyncFrom cfgA cfgB fuel (i + 1) a' b' ra.sent aDone'

def doRunSync (cfgA cfgB : Config) (maxRounds : ℕ) (a b : Party α) (msgs : List (SyncMessage α)) :
    RunResult α :=
  doRunSyncFrom cfgA cfgB maxRounds 0 a b msgs false

def runFrom (cfgA cfgB : Config) (a b : ItemStore α) (maxRounds : ℕ)
    (opening : Except Failure (List (SyncMessage α))) : RunResult α :=
  match opening with
  | .error e => ⟨.error e, ⟨a, []⟩, ⟨b, []⟩⟩
  | .ok msgs => doRunSync cfgA cfgB maxRounds ⟨a, []⟩ ⟨b, []⟩ msgs

def runSync (cfgA cfgB : Config) (a b : ItemStore α) (maxRounds : ℕ) : RunResult α :=
  runFrom cfgA cfgB a b maxRounds (initiate cfgA a)

def runBoundedSync (cfgA cfgB : Config) (a b : ItemStore α) (x y : α) (maxRounds : ℕ) :
    RunResult α :=
  runFrom cfgA cfgB a b maxRounds (initiateBounded cfgA a (some x) (some y))

theorem initiateBounded_panics_of_empty (cfg : Config) (s : ItemStore α) {x y : α}
    (h : s.rangeItems x y = []) :
    initiateBounded cfg s (some x) (some y) = .error (.panic "empty full min-min range") := by
  simp [initiateBounded, ItemStore.getRangeInfo, ItemStore.rangeInfo, h]

/-- A bounded run in which `A` holds nothing in `[1, 3)` and `B` holds `2` ends in
that panic, whatever the options and the round limit. -/
theorem runBoundedSync_empty_side_panics (cfgA cfgB : Config) (maxRounds : ℕ) :
    (runBoundedSync cfgA cfgB (⟨[], List.sorted_nil⟩ : ItemStore ℕ) ⟨[2], List.sorted_singleton 2⟩
      1 3 maxRounds).outcome = .error (.panic "empty full min-min range") := rfl

end Spacemesh.RangeSync
