import Spacemesh.GoMap
import Spacemesh.Activation.IdentityStates

/-!
# The PoET services of the smeshing identities

`SmeshingIdentitiesService.PoetServices` of the v2alpha1 API: for the signers the identity
states put at `WaitForPoetRoundEnd` it reads the PoET registrations from the database, and
reports for each identity with a registration one entry per PoET service: a failed, residual
or successful registration, by the registration's round id and whether the service is
configured, and a missed one for each configured service it has no registration with. The
identity states are given by node id, the database query is the parameter
`poetRegistrations`, and a timestamp is a `ℕ`.

The database is asked for exactly those signers; its error is returned as
`codes.Internal`; otherwise each identity with a registration comes once, with one entry for
each address it registered with or that is configured, that of the last registration there
or else a missed registration (`poetServices_spec`).
-/

namespace Spacemesh.Api

open Activation (IdentityState)

def poetsMismatchWarning : String := "poet is not configured, reconfiguration required"

/-- `PoetServicesResponse_Identity_PoetInfo_RegistrationStatus`. -/
inductive RegistrationStatus
  | statusSuccessReg
  | statusFailedReg
  | statusResidualReg
  | statusNoReg
  deriving DecidableEq, Repr

structure PoetRegistration where
  nodeId : ℕ
  address : String
  roundID : String
  roundEnd : ℕ
  deriving DecidableEq, Repr

/-- `PoetServicesResponse_Identity_PoetInfo`; `poetRoundEnd` is `none` where it is not set. -/
structure PoetInfo where
  url : String
  poetRoundEnd : Option ℕ
  registrationStatus : RegistrationStatus
  warning : String
  deriving DecidableEq, Repr

/-- `PoetServicesResponse_Identity`, with the node id for `SmesherIdHex`. -/
structure Identity where
  smesherId : ℕ
  poetInfos : List PoetInfo
  deriving DecidableEq, Repr

/-- The error of `PoetServices`: `status.Error(codes.Internal, err.Error())`. -/
inductive PoetServicesError
  | internal (msg : String)
  deriving DecidableEq, Repr

/-- `SmeshingIdentitiesService`: the identity states, by node id, its signers, the configured
PoET services and `nipost.PoetRegistrations` on its database. -/
structure SmeshingIdentitiesService where
  identityStates : List (ℕ × IdentityState)
  signers : List ℕ
  configuredPoetServices : List String
  poetRegistrations : List ℕ → Except String (List PoetRegistration)

namespace SmeshingIdentitiesService

def nodeIdsToRequest (s : SmeshingIdentitiesService) : List ℕ :=
  s.identityStates.filterMap fun (id, state) =>
    if state ≠ .waitForPoetRoundEnd then none else if id ∉ s.signers then none else some id

def regInfo (s : SmeshingIdentitiesService) (reg : PoetRegistration) : PoetInfo :=
  if reg.roundID = "" then ⟨reg.address, some reg.roundEnd, .statusFailedReg, ""⟩
  else if reg.address ∉ s.configuredPoetServices then
    ⟨reg.address, some reg.roundEnd, .statusResidualReg, poetsMismatchWarning⟩
  else ⟨reg.address, some reg.roundEnd, .statusSuccessReg, ""⟩

def addRegistration (s : SmeshingIdentitiesService) (identities : List (ℕ × List (String × PoetInfo)))
    (reg : PoetRegistration) : List (ℕ × List (String × PoetInfo)) :=
  mapSet identities reg.nodeId (mapSet ((mapGet identities reg.nodeId).getD []) reg.address (s.regInfo reg))

def missedInfo (poetAddr : String) : PoetInfo := ⟨poetAddr, none, .statusNoReg, ""⟩

def addMissedStep (poets : List (String × PoetInfo)) (poetAddr : String) : List (String × PoetInfo) :=
  if (mapGet poets poetAddr).isSome then poets else mapSet poets poetAddr (missedInfo poetAddr)

def addMissed (s : SmeshingIdentitiesService) (poets : List (String × PoetInfo)) : List (String × PoetInfo) :=
  s.configuredPoetServices.foldl addMissedStep poets

def poetServices (s : SmeshingIdentitiesService) : Except PoetServicesError (List Identity) :=
  match s.poetRegistrations s.nodeIdsToRequest with
  | .error e => .error (.internal e)
  | .ok regs =>
    .ok ((regs.foldl s.addRegistration []).map fun (id, poets) => ⟨id, (s.addMissed poets).map (·.2)⟩)

/-! ## The response -/

def lastReg (id : ℕ) (url : String) : List PoetRegistration → Option PoetRegistration
  | [] => none
  | reg :: regs => (lastReg id url regs).or (if reg.nodeId = id ∧ reg.address = url then some reg else none)

def WellKeyed (poets : List (String × PoetInfo)) : Prop := (poets.map (·.1)).Nodup ∧ ∀ p ∈ poets, p.2.url = p.1

theorem mem_nodeIdsToRequest (s : SmeshingIdentitiesService) (id : ℕ) :
    id ∈ s.nodeIdsToRequest ↔ (id, .waitForPoetRoundEnd) ∈ s.identityStates ∧ id ∈ s.signers := by
  simp only [nodeIdsToRequest, List.mem_filterMap]
  constructor
  · rintro ⟨⟨id', st⟩, hmem, h⟩
    split_ifs at h with hst hsig
    cases h
    obtain rfl : st = .waitForPoetRoundEnd := not_not.1 hst
    exact ⟨hmem, hsig⟩
  · rintro ⟨hmem, hsig⟩
    exact ⟨_, hmem, by simp [hsig]⟩

theorem wellKeyed_mapSet {poets : List (String × PoetInfo)} (h : WellKeyed poets) (k : String) {v : PoetInfo}
    (hv : v.url = k) : WellKeyed (mapSet poets k v) :=
  ⟨nodup_keys_mapSet _ _ _ h.1, fun p hp => (mem_mapSet hp).elim (fun h => h ▸ hv) (h.2 p)⟩

theorem find_url_eq_mapGet {poets : List (String × PoetInfo)} (h : ∀ p ∈ poets, p.2.url = p.1) (url : String) :
    (poets.map (·.2)).find? (·.url = url) = mapGet poets url := by
  induction poets with
  | nil => rfl
  | cons p poets ih =>
    obtain ⟨k, v⟩ := p
    have hv : v.url = k := h _ (List.mem_cons_self _ _)
    rw [List.map_cons, List.find?_cons, mapGet_cons, ih fun q hq => h q (List.mem_cons_of_mem _ hq), hv]
    by_cases hk : k = url <;> simp [hk]

theorem urls_eq_keys {poets : List (String × PoetInfo)} (h : ∀ p ∈ poets, p.2.url = p.1) :
    (poets.map (·.2)).map (·.url) = poets.map (·.1) := by
  rw [List.map_map]
  exact List.map_congr_left fun p hp => h p hp

theorem addMissed_spec (cs : List String) : ∀ (poets : List (String × PoetInfo)), WellKeyed poets →
    WellKeyed (cs.foldl addMissedStep poets) ∧
      ∀ url, mapGet (cs.foldl addMissedStep poets) url =
        (mapGet poets url).or (if url ∈ cs then some (missedInfo url) else none) := by
  induction cs with
  | nil => exact fun poets h => ⟨h, fun url => by simp⟩
  | cons c cs ih =>
    intro poets h
    have hstep : WellKeyed (addMissedStep poets c) := by
      unfold addMissedStep; split
      · exact h
      · exact wellKeyed_mapSet h c rfl
    obtain ⟨hwk, hget⟩ := ih _ hstep
    refine ⟨hwk, fun url => ?_⟩
    rw [List.foldl_cons, hget]
    unfold addMissedStep
    by_cases hc : c = url
    · subst hc
      cases hp : mapGet poets c <;> simp [hp]
    · split <;> simp [hc, Ne.symm hc]

theorem addRegistration_inv (s : SmeshingIdentitiesService) {identities : List (ℕ × List (String × PoetInfo))}
    (hnd : (identities.map (·.1)).Nodup) (hwk : ∀ p ∈ identities, WellKeyed p.2) (reg : PoetRegistration) :
    ((s.addRegistration identities reg).map (·.1)).Nodup ∧ ∀ p ∈ s.addRegistration identities reg, WellKeyed p.2 := by
  refine ⟨nodup_keys_mapSet _ _ _ hnd, fun p hp => ?_⟩
  rcases mem_mapSet hp with rfl | hp
  · have hbase : WellKeyed ((mapGet identities reg.nodeId).getD []) := by
      cases hg : mapGet identities reg.nodeId with
      | none => exact ⟨List.nodup_nil, fun _ h => nomatch h⟩
      | some poets => exact hwk _ (mem_of_mapGet hg)
    exact wellKeyed_mapSet hbase _ (by unfold regInfo; split_ifs <;> rfl)
  · exact hwk p hp

theorem addRegistration_get (s : SmeshingIdentitiesService) (identities : List (ℕ × List (String × PoetInfo)))
    (reg : PoetRegistration) (id : ℕ) (url : String) :
    mapGet ((mapGet (s.addRegistration identities reg) id).getD []) url =
      if reg.nodeId = id ∧ reg.address = url then some (s.regInfo reg)
      else mapGet ((mapGet identities id).getD []) url := by
  unfold addRegistration
  rw [mapGet_mapSet]
  by_cases hid : reg.nodeId = id
  · subst hid
    by_cases hurl : reg.address = url <;> simp [hurl]
  · simp [hid]

theorem addRegistrations_spec (s : SmeshingIdentitiesService) : ∀ (regs : List PoetRegistration)
    (identities : List (ℕ × List (String × PoetInfo))), (identities.map (·.1)).Nodup →
    (∀ p ∈ identities, WellKeyed p.2) →
    ((regs.foldl s.addRegistration identities).map (·.1)).Nodup ∧
    (∀ p ∈ regs.foldl s.addRegistration identities, WellKeyed p.2) ∧
    (∀ id, id ∈ (regs.foldl s.addRegistration identities).map (·.1) ↔
      id ∈ identities.map (·.1) ∨ ∃ reg ∈ regs, reg.nodeId = id) ∧
    ∀ id url, mapGet ((mapGet (regs.foldl s.addRegistration identities) id).getD []) url =
      ((lastReg id url regs).map s.regInfo).or (mapGet ((mapGet identities id).getD []) url)
  | [], identities, hnd, hwk => ⟨hnd, hwk, fun id => by simp, fun id url => by simp [lastReg]⟩
  | reg :: regs, identities, hnd, hwk => by
    obtain ⟨hnd', hwk'⟩ := s.addRegistration_inv hnd hwk reg
    obtain ⟨hnd'', hwk'', hmem, hget⟩ := addRegistrations_spec s regs _ hnd' hwk'
    refine ⟨hnd'', hwk'', fun id => ?_, fun id url => ?_⟩
    · rw [List.foldl_cons, hmem, addRegistration, mem_keys_mapSet]
      simp only [List.mem_cons, exists_eq_or_imp, or_assoc, @eq_comm _ id]
    · rw [List.foldl_cons, hget, addRegistration_get, lastReg, Option.map_or', Option.or_assoc]
      split <;> simp [*]

/-- `PoetServices` asks the database for exactly the signers at `WaitForPoetRoundEnd` and
returns its error as `codes.Internal`. Otherwise each node with a registration comes once,
and its poet infos hold one entry per url: for an address it registered with, the info of
its last registration there (failed for an empty round id, residual with the mismatch
warning for a service not configured, successful otherwise); for a configured service it
has no registration with, a missed registration; for no other url. -/
theorem poetServices_spec (s : SmeshingIdentitiesService) :
    (∀ id, id ∈ s.nodeIdsToRequest ↔ (id, .waitForPoetRoundEnd) ∈ s.identityStates ∧ id ∈ s.signers) ∧
    (∀ e, s.poetRegistrations s.nodeIdsToRequest = .error e → s.poetServices = .error (.internal e)) ∧
    ∀ regs, s.poetRegistrations s.nodeIdsToRequest = .ok regs → ∃ ids, s.poetServices = .ok ids ∧
      (ids.map (·.smesherId)).Nodup ∧ (∀ id, id ∈ ids.map (·.smesherId) ↔ ∃ reg ∈ regs, reg.nodeId = id) ∧
      ∀ i ∈ ids, (i.poetInfos.map (·.url)).Nodup ∧ ∀ url, i.poetInfos.find? (·.url = url) =
        ((lastReg i.smesherId url regs).map s.regInfo).or
          (if url ∈ s.configuredPoetServices then some (missedInfo url) else none) := by
  refine ⟨s.mem_nodeIdsToRequest, fun e he => by simp [poetServices, he], fun regs hregs => ?_⟩
  obtain ⟨hnd, hwk, hmem, hget⟩ := s.addRegistrations_spec regs [] List.nodup_nil fun _ h => nomatch h
  have hids : ((regs.foldl s.addRegistration []).map fun (p : ℕ × List (String × PoetInfo)) =>
      (⟨p.1, (s.addMissed p.2).map (·.2)⟩ : Identity)).map (·.smesherId) =
      (regs.foldl s.addRegistration []).map (·.1) := by
    rw [List.map_map]; rfl
  refine ⟨_, by simp only [poetServices, hregs], hids ▸ hnd, fun id => by simpa [hids] using hmem id, ?_⟩
  intro i hi
  obtain ⟨⟨id, poets⟩, hp, rfl⟩ := List.mem_map.1 hi
  obtain ⟨hwkm, hgetm⟩ := addMissed_spec s.configuredPoetServices poets (hwk _ hp)
  dsimp only [addMissed]
  refine ⟨by rw [urls_eq_keys hwkm.2]; exact hwkm.1, fun url => ?_⟩
  have hreg := hget id url
  rw [mapGet_of_mem hnd hp, Option.getD_some, mapGet_nil, Option.getD_none, mapGet_nil, Option.or_none] at hreg
  rw [find_url_eq_mapGet hwkm.2, hgetm, hreg]

example : poetServices ⟨[(1, .waitForPoetRoundEnd), (2, .waitForPoetRoundEnd), (3, .fetchingProofs)], [1, 3],
      ["a", "b"], fun ids => .ok (if ids = [1] then [⟨1, "a", "r1", 5⟩, ⟨1, "c", "r2", 6⟩] else [])⟩ =
    .ok [⟨1, [⟨"a", some 5, .statusSuccessReg, ""⟩, ⟨"c", some 6, .statusResidualReg, poetsMismatchWarning⟩,
      ⟨"b", none, .statusNoReg, ""⟩]⟩] := rfl

end SmeshingIdentitiesService

end Spacemesh.Api
