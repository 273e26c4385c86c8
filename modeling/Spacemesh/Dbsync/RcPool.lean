import Mathlib.Algebra.Group.Nat.Basic
import Mathlib.Data.List.Nodup

/-!
# The reference-counted pool

`rcPool` of dbsync: a slice of entries, each a `uint32` reference count and a
content. A free entry has `freeBit` set in its count, whose low 31 bits link it to
the next free entry; `freeList` is the 1-based index of the first free entry, 0
for none. Counts are `ℕ` below `2^32`, incremented modulo `2^32`; indices are
`uint32` values. A Go panic, the runtime's for an index out of range included, is
an `Except.error`.

Over any run of `add`, `ref` and `release` in which `ref` and `release` name live
entries and no count or length reaches `2^31`, no call fails, and the pool refines a ghost list that
holds, for each live entry, the count the calls give it and its content
(`Refines`): the free list is a duplicate-free chain through exactly the free
entries, and `add` returns an entry that is not live
(`rcPool_free_list_invariant`).
-/

namespace Spacemesh.Dbsync

def freeBit : ℕ := 2 ^ 31

def freeListMask : ℕ := freeBit - 1

structure PoolEntry (T : Type) where
  refCount : ℕ
  content : T

/-- `rcPool`, without its mutex. -/
structure RcPool (T : Type) where
  entries : List (PoolEntry T)
  freeList : ℕ

section Pool

variable {T : Type}

namespace RcPool

def empty : RcPool T := ⟨[], 0⟩

def add [Inhabited T] (rc : RcPool T) (item : T) : Except String (RcPool T × ℕ) :=
  if rc.freeList ≠ 0 then
    match rc.entries[rc.freeList - 1]? with
    | none => .error "runtime error: index out of range"
    | some e => .ok (⟨rc.entries.set (rc.freeList - 1) ⟨1, item⟩, e.refCount &&& freeListMask⟩, rc.freeList - 1)
  else
    let idx := rc.entries.length % 2 ^ 32
    let es := rc.entries ++ [⟨1, default⟩]
    match es[idx]? with
    | none => .error "runtime error: index out of range"
    | some e => .ok (⟨es.set idx { e with content := item }, rc.freeList⟩, idx)

def release (rc : RcPool T) (idx : ℕ) : Except String (RcPool T) :=
  match rc.entries[idx]? with
  | none => .error "runtime error: index out of range"
  | some e =>
    if e.refCount = 0 then .error "BUG: negative rcPool[T, I] entry refcount"
    else if e.refCount - 1 = 0 then
      .ok ⟨rc.entries.set idx { e with refCount := rc.freeList ||| freeBit }, (idx + 1) % 2 ^ 32⟩
    else .ok ⟨rc.entries.set idx { e with refCount := e.refCount - 1 }, rc.freeList⟩

def ref (rc : RcPool T) (idx : ℕ) : Except String (RcPool T) :=
  match rc.entries[idx]? with
  | none => .error "runtime error: index out of range"
  | some e => .ok ⟨rc.entries.set idx { e with refCount := (e.refCount + 1) % 2 ^ 32 }, rc.freeList⟩

def item (rc : RcPool T) (idx : ℕ) : Except String T :=
  match rc.entries[idx]? with
  | none => .error "runtime error: index out of range"
  | some e => if e.refCount &&& freeBit ≠ 0 then .error "BUG: referencing a free nodePool entry" else .ok e.content

end RcPool

/-! ## The free list -/

def Linked (es : List (PoolEntry T)) : ℕ → List ℕ → Prop
  | link, [] => link = 0
  | link, i :: l => link = i + 1 ∧ ∃ e, es[i]? = some e ∧ Linked es (e.refCount &&& freeListMask) l

theorem linked_set {es : List (PoolEntry T)} {i : ℕ} {x : PoolEntry T} :
    ∀ {link l}, i ∉ l → (Linked (es.set i x) link l ↔ Linked es link l)
  | _, [], _ => Iff.rfl
  | _, j :: l, h => by
    have hij : i ≠ j := fun hij => h (hij ▸ List.mem_cons_self _ _)
    simp only [Linked, List.getElem?_set_ne hij]
    exact and_congr_right fun _ => exists_congr fun e => and_congr_right fun _ =>
      linked_set fun hi => h (List.mem_cons_of_mem _ hi)

theorem linked_le_length {es : List (PoolEntry T)} : ∀ {link l}, Linked es link l → link ≤ es.length
  | _, [], h => by simp only [Linked] at h; omega
  | _, i :: l, ⟨h, e, he, _⟩ => by
    have := (List.getElem?_eq_some_iff.1 he).1
    omega

/-! ## The bits of a count -/

theorem or_freeBit_and_mask {x : ℕ} (h : x < 2 ^ 31) : (x ||| freeBit) &&& freeListMask = x := by
  unfold freeListMask freeBit
  rw [Nat.and_pow_two_sub_one_eq_mod]
  apply Nat.eq_of_testBit_eq
  intro i
  simp only [Nat.testBit_mod_two_pow, Nat.testBit_or, Nat.testBit_two_pow]
  by_cases hi : i < 31
  · simp [hi, show 31 ≠ i by omega]
  · simp [hi, Nat.testBit_lt_two_pow (lt_of_lt_of_le h (Nat.pow_le_pow_right (by decide) (show 31 ≤ i by omega)))]

theorem or_freeBit_and_freeBit (x : ℕ) : (x ||| freeBit) &&& freeBit ≠ 0 := fun h => by
  have := congrArg (Nat.testBit · 31) h
  simp only [freeBit, Nat.testBit_and, Nat.testBit_or, Nat.testBit_two_pow_self, Bool.or_true, Bool.and_self,
    Nat.zero_testBit, Bool.true_eq_false] at this

theorem and_freeBit_of_lt {x : ℕ} (h : x < 2 ^ 31) : x &&& freeBit = 0 := by
  apply Nat.eq_of_testBit_eq
  intro i
  simp only [freeBit, Nat.testBit_and, Nat.testBit_two_pow, Nat.zero_testBit]
  by_cases hi : 31 = i
  · subst hi; simp [Nat.testBit_lt_two_pow h]
  · simp [hi]

theorem getElem?_concat_of_ge {α : Type} {l : List α} {a : α} {j : ℕ} (h : l.length ≤ j) :
    (l ++ [a])[j]? = if j = l.length then some a else none := by
  rw [List.getElem?_append_right h]
  split_ifs with hj
  · simp [hj]
  · exact List.getElem?_eq_none (by simp; omega)

/-! ## The ghost view -/

/-- For each entry, its count and content while it is live, `none` while free. -/
abbrev Ghost (T : Type) := List (Option (ℕ × T))

namespace Ghost

def live (g : Ghost T) (i : ℕ) : Prop := ∃ c x, g[i]? = some (some (c, x))

def add (g : Ghost T) (idx : ℕ) (item : T) : Ghost T :=
  if idx < g.length then g.set idx (some (1, item)) else g ++ [some (1, item)]

def ref (g : Ghost T) (i : ℕ) : Ghost T :=
  match g[i]? with
  | some (some (c, x)) => g.set i (some (c + 1, x))
  | _ => g

def release (g : Ghost T) (i : ℕ) : Ghost T :=
  match g[i]? with
  | some (some (c, x)) => g.set i (if c = 1 then none else some (c - 1, x))
  | _ => g

end Ghost

/-- The pool holds what the ghost says: the live entries with their counts and
contents, below `2^31`; the free entries flagged; and a duplicate-free free list
through exactly the free entries. -/
structure Refines (rc : RcPool T) (g : Ghost T) : Prop where
  length_eq : rc.entries.length = g.length
  length_lt : g.length < 2 ^ 31
  live : ∀ (i c : ℕ) (x : T), g[i]? = some (some (c, x)) → rc.entries[i]? = some (PoolEntry.mk c x) ∧ 0 < c ∧ c < 2 ^ 31
  free : ∀ i : ℕ, g[i]? = some none → ∃ e, rc.entries[i]? = some e ∧ e.refCount &&& freeBit ≠ 0
  chain : ∃ l : List ℕ, Linked rc.entries rc.freeList l ∧ l.Nodup ∧ ∀ i : ℕ, i ∈ l ↔ g[i]? = some none

theorem refines_empty : Refines (RcPool.empty : RcPool T) [] :=
  ⟨rfl, by simp, by simp, by simp, ⟨[], rfl, List.nodup_nil, by simp⟩⟩

theorem Refines.mem_chain_iff {rc : RcPool T} {g : Ghost T} (hr : Refines rc g) {l : List ℕ}
    (hl : ∀ i, i ∈ l ↔ g[i]? = some none) {i : ℕ} {e : PoolEntry T} (he : rc.entries[i]? = some e) :
    i ∈ l ↔ e.refCount &&& freeBit ≠ 0 := by
  have hi : i < g.length := hr.length_eq ▸ (List.getElem?_eq_some_iff.1 he).1
  rw [hl]
  match hg : g[i]? with
  | none => exact absurd hi (not_lt.2 (List.getElem?_eq_none_iff.1 hg))
  | some none =>
    obtain ⟨e', he', hf⟩ := hr.free i hg
    simp only [he, Option.some.injEq] at he'
    exact ⟨fun _ => he' ▸ hf, fun _ => rfl⟩
  | some (some (c, x)) =>
    obtain ⟨he', -, hc⟩ := hr.live i c x hg
    simp only [he, Option.some.injEq] at he'
    subst he'
    simp [and_freeBit_of_lt hc]

/-! ## Each call keeps the refinement -/

theorem refines_set_live {rc : RcPool T} {g : Ghost T} (hr : Refines rc g) {i c c' : ℕ}
    {y : T} (hg : g[i]? = some (some (c, y))) (hc' : 0 < c' ∧ c' < 2 ^ 31) :
    Refines ⟨rc.entries.set i ⟨c', y⟩, rc.freeList⟩ (g.set i (some (c', y))) := by
  have hi : i < g.length := (List.getElem?_eq_some_iff.1 hg).1
  obtain ⟨l, hlink, hnd, hl⟩ := hr.chain
  have hil : i ∉ l := by rw [hl, hg]; simp
  refine ⟨by simp [hr.length_eq], by simpa using hr.length_lt, fun j c x hj => ?_, fun j hj => ?_,
    ⟨l, (linked_set hil).2 hlink, hnd, fun j => ?_⟩⟩
  · by_cases hij : i = j
    · subst hij
      simp only [List.getElem?_set_self hi, Option.some.injEq, Prod.mk.injEq] at hj
      obtain ⟨rfl, rfl⟩ := hj
      exact ⟨List.getElem?_set_self (hr.length_eq ▸ hi), hc'⟩
    · rw [List.getElem?_set_ne hij] at hj ⊢
      exact hr.live j c x hj
  · by_cases hij : i = j
    · subst hij; simp [List.getElem?_set_self hi] at hj
    · rw [List.getElem?_set_ne hij] at hj ⊢
      exact hr.free j hj
  · by_cases hij : i = j
    · subst hij; simp [List.getElem?_set_self hi, hil]
    · rw [List.getElem?_set_ne hij, hl]

theorem ref_spec {rc : RcPool T} {g : Ghost T} (hr : Refines rc g) {i c : ℕ} {x : T}
    (hg : g[i]? = some (some (c, x))) (hc : c + 1 < 2 ^ 31) :
    ∃ rc', rc.ref i = .ok rc' ∧ Refines rc' (g.ref i) := by
  obtain ⟨he, -, -⟩ := hr.live i c x hg
  refine ⟨_, by simp only [RcPool.ref, he]; rfl, ?_⟩
  rw [show (c + 1) % 2 ^ 32 = c + 1 by omega]
  simpa only [Ghost.ref, hg] using refines_set_live hr hg ⟨by omega, hc⟩

theorem refines_free {rc : RcPool T} {g : Ghost T} (hr : Refines rc g) {i : ℕ} {x : T}
    (hg : g[i]? = some (some (1, x))) :
    Refines ⟨rc.entries.set i ⟨rc.freeList ||| freeBit, x⟩, (i + 1) % 2 ^ 32⟩ (g.set i none) := by
  have hi : i < g.length := (List.getElem?_eq_some_iff.1 hg).1
  obtain ⟨l, hlink, hnd, hl⟩ := hr.chain
  have hil : i ∉ l := by rw [hl, hg]; simp
  have hfl : rc.freeList < 2 ^ 31 := by
    have := linked_le_length hlink; have := hr.length_eq; have := hr.length_lt; omega
  refine ⟨by simp [hr.length_eq], by simpa using hr.length_lt, fun j c y hj => ?_, fun j hj => ?_,
    ⟨i :: l, ?_, List.nodup_cons.2 ⟨hil, hnd⟩, fun j => ?_⟩⟩
  · by_cases hij : i = j
    · subst hij; simp [List.getElem?_set_self hi] at hj
    · rw [List.getElem?_set_ne hij] at hj ⊢
      exact hr.live j c y hj
  · by_cases hij : i = j
    · subst hij
      exact ⟨_, List.getElem?_set_self (hr.length_eq ▸ hi), or_freeBit_and_freeBit _⟩
    · rw [List.getElem?_set_ne hij] at hj ⊢
      exact hr.free j hj
  · refine ⟨show (i + 1) % 2 ^ 32 = i + 1 by have := hr.length_lt; omega, _,
      List.getElem?_set_self (hr.length_eq ▸ hi), ?_⟩
    rw [or_freeBit_and_mask hfl]
    exact (linked_set hil).2 hlink
  · by_cases hij : i = j
    · subst hij; simp [List.getElem?_set_self hi]
    · rw [List.getElem?_set_ne hij, List.mem_cons, hl]
      exact ⟨fun h => h.resolve_left (Ne.symm hij), Or.inr⟩

theorem release_spec {rc : RcPool T} {g : Ghost T} (hr : Refines rc g) {i c : ℕ} {x : T}
    (hg : g[i]? = some (some (c, x))) :
    ∃ rc', rc.release i = .ok rc' ∧ Refines rc' (g.release i) := by
  obtain ⟨he, hc0, hc⟩ := hr.live i c x hg
  by_cases h1 : c = 1
  · subst h1
    refine ⟨_, by simp [RcPool.release, he] ; rfl, ?_⟩
    simpa only [Ghost.release, hg, if_pos rfl] using refines_free hr hg
  · refine ⟨_, by simp [RcPool.release, he, show c ≠ 0 by omega, show c - 1 ≠ 0 by omega] ; rfl, ?_⟩
    simpa only [Ghost.release, hg, if_neg h1] using refines_set_live hr hg ⟨by omega, by omega⟩

theorem release_free_entry {rc : RcPool T} {g : Ghost T} (hr : Refines rc g) {i : ℕ}
    (hg : g[i]? = some none) :
    ∃ e, rc.entries[i]? = some e ∧ e.refCount &&& freeBit ≠ 0 ∧
      rc.release i = .ok ⟨rc.entries.set i { e with refCount := e.refCount - 1 }, rc.freeList⟩ := by
  obtain ⟨e, he, hf⟩ := hr.free i hg
  have h0 : e.refCount ≠ 0 := fun h => hf (by rw [h]; rfl)
  have h1 : e.refCount - 1 ≠ 0 := fun h => hf (by rw [show e.refCount = 1 by omega]; rfl)
  exact ⟨e, he, hf, by simp [RcPool.release, he, h0, h1]⟩

theorem add_reuse_spec [Inhabited T] {rc : RcPool T} {g : Ghost T} (hr : Refines rc g) {i : ℕ} {l : List ℕ}
    (hlink : Linked rc.entries rc.freeList (i :: l)) (hnd : (i :: l).Nodup)
    (hl : ∀ j, j ∈ i :: l ↔ g[j]? = some none) (item : T) :
    ∃ rc', rc.add item = .ok (rc', i) ∧ Refines rc' (g.add i item) := by
  obtain ⟨hfl, e, he, hlink'⟩ := hlink
  have hgi : g[i]? = some none := (hl i).1 (List.mem_cons_self _ _)
  have hi : i < g.length := (List.getElem?_eq_some_iff.1 hgi).1
  have hil : i ∉ l := (List.nodup_cons.1 hnd).1
  refine ⟨_, by simp [RcPool.add, hfl, he] ; rfl, ?_⟩
  simp only [Ghost.add, if_pos hi]
  refine ⟨by simp [hr.length_eq], by simpa using hr.length_lt, fun j c y hj => ?_, fun j hj => ?_,
    ⟨l, (linked_set hil).2 hlink', (List.nodup_cons.1 hnd).2, fun j => ?_⟩⟩
  · by_cases hij : i = j
    · subst hij
      simp only [List.getElem?_set_self hi, Option.some.injEq, Prod.mk.injEq] at hj
      obtain ⟨rfl, rfl⟩ := hj
      exact ⟨List.getElem?_set_self (hr.length_eq ▸ hi), by decide, by decide⟩
    · rw [List.getElem?_set_ne hij] at hj ⊢
      exact hr.live j c y hj
  · by_cases hij : i = j
    · subst hij; simp [List.getElem?_set_self hi] at hj
    · rw [List.getElem?_set_ne hij] at hj ⊢
      exact hr.free j hj
  · by_cases hij : i = j
    · subst hij; simp [List.getElem?_set_self hi, hil]
    · rw [List.getElem?_set_ne hij, ← hl, List.mem_cons]
      exact ⟨Or.inr, fun h => h.resolve_left (Ne.symm hij)⟩

theorem add_of_freeList_zero [Inhabited T] {rc : RcPool T} (hfl : rc.freeList = 0) (hlen : rc.entries.length < 2 ^ 32)
    (item : T) : rc.add item = .ok (⟨rc.entries ++ [⟨1, item⟩], 0⟩, rc.entries.length) := by
  have hset : (rc.entries ++ [PoolEntry.mk 1 default]).set rc.entries.length ⟨1, item⟩ =
      rc.entries ++ [⟨1, item⟩] := by
    simp
  simp only [RcPool.add, hfl, ne_eq, not_true_eq_false, if_false, Nat.mod_eq_of_lt hlen,
    List.getElem?_concat_length]
  rw [hset]

theorem add_append_spec {rc : RcPool T} {g : Ghost T} (hr : Refines rc g)
    (hl : ∀ j, j ∈ ([] : List ℕ) ↔ g[j]? = some none) (hlen : g.length + 1 < 2 ^ 31) (item : T) :
    Refines ⟨rc.entries ++ [⟨1, item⟩], 0⟩ (g.add g.length item) := by
  have hnone : ∀ j, g[j]? ≠ some none := fun j hj => List.not_mem_nil j ((hl j).2 hj)
  simp only [Ghost.add, lt_irrefl, if_false]
  refine ⟨by simp [hr.length_eq], by simpa using hlen, fun j c y hj => ?_, fun j hj => ?_,
    ⟨[], rfl, List.nodup_nil, fun j => ⟨fun h => absurd h (List.not_mem_nil j), fun hj => ?_⟩⟩⟩
  · rcases Nat.lt_or_ge j g.length with hj' | hj'
    · rw [List.getElem?_append_left hj'] at hj
      rw [List.getElem?_append_left (hr.length_eq ▸ hj')]
      exact hr.live j c y hj
    · rw [getElem?_concat_of_ge hj'] at hj
      split_ifs at hj with hjl
      simp only [Option.some.injEq, Prod.mk.injEq] at hj
      obtain ⟨rfl, rfl⟩ := hj
      rw [getElem?_concat_of_ge (hr.length_eq ▸ hj'), if_pos (hr.length_eq ▸ hjl)]
      exact ⟨rfl, by decide, by decide⟩
  all_goals
    rcases Nat.lt_or_ge j g.length with hj' | hj'
    · exact absurd (by rwa [List.getElem?_append_left hj'] at hj) (hnone j)
    · rw [getElem?_concat_of_ge hj'] at hj
      split_ifs at hj
      cases hj

theorem add_fresh [Inhabited T] {rc : RcPool T} {g : Ghost T} (hr : Refines rc g) (item : T) :
    ∃ rc' idx, rc.add item = .ok (rc', idx) ∧ ¬ g.live idx ∧ (rc.freeList ≠ 0 → idx = rc.freeList - 1) := by
  obtain ⟨l, hlink, hnd, hl⟩ := hr.chain
  match l, hlink, hnd, hl with
  | i :: l, hlink, hnd, hl =>
    obtain ⟨rc', hadd, -⟩ := add_reuse_spec hr hlink hnd hl item
    refine ⟨rc', i, hadd, fun ⟨c, x, h⟩ => ?_, fun _ => by rw [hlink.1]; rfl⟩
    rw [(hl i).1 (List.mem_cons_self _ _)] at h
    cases h
  | [], hlink, _, _ =>
    have hlen : rc.entries.length < 2 ^ 32 := by have := hr.length_eq; have := hr.length_lt; omega
    refine ⟨_, _, add_of_freeList_zero hlink hlen item, fun ⟨c, x, h⟩ => ?_, fun h => absurd hlink h⟩
    simp [hr.length_eq] at h

/-! ## Runs -/

inductive PoolOp (T : Type)
  | add (item : T)
  | ref (idx : ℕ)
  | release (idx : ℕ)

def PoolOp.valid (g : Ghost T) : PoolOp T → Bool
  | .add _ => g.any Option.isNone || decide (g.length + 1 < 2 ^ 31)
  | .ref i => match g[i]? with
    | some (some (c, _)) => decide (c + 1 < 2 ^ 31)
    | _ => false
  | .release i => match g[i]? with
    | some (some _) => true
    | _ => false

def step [Inhabited T] (st : RcPool T × Ghost T) : PoolOp T → Except String (RcPool T × Ghost T)
  | .add item => (st.1.add item).map fun r => (r.1, st.2.add r.2 item)
  | .ref i => (st.1.ref i).map fun rc => (rc, st.2.ref i)
  | .release i => (st.1.release i).map fun rc => (rc, st.2.release i)

def runOps [Inhabited T] (st : RcPool T × Ghost T) : List (PoolOp T) → Except String (RcPool T × Ghost T)
  | [] => .ok st
  | op :: ops => match step st op with
    | .ok st' => runOps st' ops
    | .error e => .error e

/-- Every call the run makes is valid where it is made; a run stops at a call that fails. -/
def validRun [Inhabited T] (st : RcPool T × Ghost T) : List (PoolOp T) → Bool
  | [] => true
  | op :: ops => op.valid st.2 && match step st op with
    | .ok st' => validRun st' ops
    | .error _ => true

theorem add_spec [Inhabited T] {rc : RcPool T} {g : Ghost T} (hr : Refines rc g)
    (hv : g.any Option.isNone ∨ g.length + 1 < 2 ^ 31) (item : T) :
    ∃ rc' idx, rc.add item = .ok (rc', idx) ∧ Refines rc' (g.add idx item) := by
  obtain ⟨l, hlink, hnd, hl⟩ := hr.chain
  match l, hlink, hnd, hl with
  | i :: l, hlink, hnd, hl =>
    obtain ⟨rc', hadd, hr'⟩ := add_reuse_spec hr hlink hnd hl item
    exact ⟨rc', i, hadd, hr'⟩
  | [], hlink, _, hl =>
    have hlen : g.length + 1 < 2 ^ 31 := hv.resolve_left fun h => by
      obtain ⟨o, ho, hn⟩ := List.any_eq_true.1 h
      obtain ⟨j, hj⟩ := List.mem_iff_getElem?.1 ho
      rw [Option.isNone_iff_eq_none.1 hn] at hj
      exact List.not_mem_nil j ((hl j).2 hj)
    have hlen' : rc.entries.length < 2 ^ 32 := by have := hr.length_eq; omega
    refine ⟨_, _, add_of_freeList_zero hlink hlen' item, ?_⟩
    rw [hr.length_eq]
    exact add_append_spec hr hl hlen item

theorem step_spec [Inhabited T] {st : RcPool T × Ghost T} (hr : Refines st.1 st.2) {op : PoolOp T}
    (hv : op.valid st.2 = true) : ∃ st', step st op = .ok st' ∧ Refines st'.1 st'.2 := by
  cases op with
  | add item =>
    obtain ⟨rc', idx, hadd, hr'⟩ := add_spec hr (by simpa [PoolOp.valid] using hv) item
    exact ⟨_, by simp [step, hadd]; rfl, hr'⟩
  | ref i =>
    simp only [PoolOp.valid] at hv
    split at hv
    · rename_i c x hg
      obtain ⟨rc', href, hr'⟩ := ref_spec hr hg (by simpa using hv)
      exact ⟨_, by simp [step, href]; rfl, hr'⟩
    · cases hv
  | release i =>
    simp only [PoolOp.valid] at hv
    split at hv
    · rename_i p hg
      obtain ⟨rc', hrel, hr'⟩ := release_spec hr hg
      exact ⟨_, by simp [step, hrel]; rfl, hr'⟩
    · cases hv

theorem run_spec [Inhabited T] : ∀ {st : RcPool T × Ghost T} {ops : List (PoolOp T)}, Refines st.1 st.2 →
    validRun st ops = true → ∃ st', runOps st ops = .ok st' ∧ Refines st'.1 st'.2
  | st, [], hr, _ => ⟨st, rfl, hr⟩
  | st, op :: ops, hr, hv => by
    simp only [validRun, Bool.and_eq_true] at hv
    obtain ⟨st', hstep, hr'⟩ := step_spec hr hv.1
    rw [hstep] at hv
    simpa only [runOps, hstep] using run_spec hr' hv.2

/-- What holds after a valid run: the pool refines the ghost of the run (each live
entry's count is one plus its `ref`s minus its `release`s since its `add`, and its
content is the added item); the free list is a duplicate-free chain through exactly
the entries with `freeBit` set; and `add` returns an entry that is not live, the
free-list head when there is one. -/
def PoolSound [Inhabited T] (st : RcPool T × Ghost T) : Prop :=
  Refines st.1 st.2 ∧
  (∃ l, Linked st.1.entries st.1.freeList l ∧ l.Nodup ∧
    ∀ i e, st.1.entries[i]? = some e → (i ∈ l ↔ e.refCount &&& freeBit ≠ 0)) ∧
  ∀ item, ∃ rc' idx, st.1.add item = .ok (rc', idx) ∧ ¬ st.2.live idx ∧
    (st.1.freeList ≠ 0 → idx = st.1.freeList - 1)

/-- A valid run from the empty pool makes no call that fails, and leaves a pool that refines
the ghost of the run, whose free list threads exactly the free entries, and whose `add`
reuses the free list's head. -/
theorem rcPool_free_list_invariant [Inhabited T] (ops : List (PoolOp T))
    (h : validRun (RcPool.empty, []) ops = true) :
    ∃ st, runOps (RcPool.empty, []) ops = .ok st ∧ PoolSound st := by
  obtain ⟨st, hrun, hr⟩ := run_spec refines_empty h
  obtain ⟨l, hlink, hnd, hl⟩ := hr.chain
  exact ⟨st, hrun, hr, ⟨l, hlink, hnd, fun i e he => hr.mem_chain_iff hl he⟩, fun item => add_fresh hr item⟩

theorem rcPool_free_list_invariant_sample :
    validRun (RcPool.empty, []) [PoolOp.add (5 : ℕ), .add 6, .release 0, .add 7, .ref 0] = true ∧
    ∃ st, runOps (RcPool.empty, []) [PoolOp.add (5 : ℕ), .add 6, .release 0, .add 7, .ref 0] = .ok st ∧
      PoolSound st :=
  ⟨rfl, rcPool_free_list_invariant _ rfl⟩

/-- In every state a valid run reaches, `release` of an entry that is already free
neither panics nor leaves the entry alone: it decrements the count that links the
entry into the free list. -/
theorem release_free_entry_decrements_link [Inhabited T] (ops : List (PoolOp T)) (st : RcPool T × Ghost T)
    (hv : validRun (RcPool.empty, []) ops = true) (hrun : runOps (RcPool.empty, []) ops = .ok st) (i : ℕ)
    (hfree : st.2[i]? = some none) :
    ∃ e, st.1.entries[i]? = some e ∧ e.refCount &&& freeBit ≠ 0 ∧
      st.1.release i = .ok ⟨st.1.entries.set i { e with refCount := e.refCount - 1 }, st.1.freeList⟩ := by
  obtain ⟨st', hrun', hr⟩ := run_spec refines_empty hv
  obtain rfl : st = st' := Except.ok.inj (hrun.symm.trans hrun')
  exact release_free_entry hr hfree

/-- One entry added and released: a second `release` of it turns the count
`2^31` (free, end of list) into `2^31 - 1`, a live count, while `freeList` still
points at the entry. -/
theorem release_free_entry_decrements_link_twice :
    validRun (RcPool.empty, []) [PoolOp.add (5 : ℕ), .release 0] = true ∧
    runOps (RcPool.empty, []) [PoolOp.add (5 : ℕ), .release 0] = .ok (⟨[⟨2 ^ 31, 5⟩], 1⟩, [none]) ∧
    ∃ e, ([⟨2 ^ 31, 5⟩] : List (PoolEntry ℕ))[0]? = some e ∧ e.refCount &&& freeBit ≠ 0 ∧
      (⟨[⟨2 ^ 31, 5⟩], 1⟩ : RcPool ℕ).release 0 = .ok ⟨[⟨2 ^ 31, 5⟩].set 0 { e with refCount := e.refCount - 1 }, 1⟩ :=
  ⟨rfl, rfl, release_free_entry_decrements_link [PoolOp.add (5 : ℕ), .release 0] (⟨[⟨2 ^ 31, 5⟩], 1⟩, [none])
    rfl (by rfl) 0 rfl⟩

end Pool

end Spacemesh.Dbsync
