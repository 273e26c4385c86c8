import Mathlib.Data.List.Sort
import Mathlib.Data.Prod.Lex

/-!
# Sorted-set item stores

The `ItemStore` the hashsync reconciler runs against, as its tests' `dumbStore`
implements it: the keys in increasing order, `Add` inserting a key at its place.
`GetRangeInfo` reads a range `[x, y)` on the key circle: the keys from `x` up to
`y`, wrapping past the largest key when `y ≤ x`, and the whole set when `x = y`.
Its fingerprint is the list of the range's keys, so two ranges have equal
fingerprints exactly when they hold the same keys.
-/

namespace Spacemesh.RangeSync

variable {α : Type} [LinearOrder α]

/-- `dumbStore.Add` on the sorted key slice: insert before the first key that is
not smaller, unless that key is the one inserted. -/
def insertKey (k : α) : List α → List α
  | [] => [k]
  | x :: xs => if k ≤ x then (if k = x then x :: xs else k :: x :: xs) else x :: insertKey k xs

theorem mem_insertKey {k a : α} {l : List α} : a ∈ insertKey k l ↔ a = k ∨ a ∈ l := by
  induction l with
  | nil => simp [insertKey]
  | cons x xs ih =>
    unfold insertKey
    split_ifs with hle heq
    · subst heq; simp
    · simp
    · simp only [List.mem_cons, ih]; exact or_left_comm

theorem sorted_insertKey (k : α) {l : List α} (hl : l.Sorted (· < ·)) :
    (insertKey k l).Sorted (· < ·) := by
  induction l with
  | nil => simp [insertKey]
  | cons x xs ih =>
    rw [List.sorted_cons] at hl
    unfold insertKey
    split_ifs with hle heq
    · exact List.sorted_cons.2 hl
    · exact List.sorted_cons.2 ⟨fun b hb => (List.mem_cons.1 hb).elim
        (fun h => h ▸ lt_of_le_of_ne hle heq) (fun h => (lt_of_le_of_ne hle heq).trans (hl.1 b h)),
        List.sorted_cons.2 hl⟩
    · refine List.sorted_cons.2 ⟨fun b hb => ?_, ih hl.2⟩
      rcases mem_insertKey.1 hb with rfl | hb
      · exact lt_of_not_le hle
      · exact hl.1 b hb

/-- `dumbStore`: its keys, strictly increasing. -/
structure ItemStore (α : Type) [LinearOrder α] where
  keys : List α
  sorted : keys.Sorted (· < ·)

namespace ItemStore

def add (s : ItemStore α) (k : α) : ItemStore α := ⟨insertKey k s.keys, sorted_insertKey k s.sorted⟩

def addAll (s : ItemStore α) (ks : List α) : ItemStore α := ks.foldl add s

@[simp] theorem mem_add {s : ItemStore α} {k a : α} : a ∈ (s.add k).keys ↔ a = k ∨ a ∈ s.keys :=
  mem_insertKey

@[simp] theorem mem_addAll {ks : List α} {s : ItemStore α} {a : α} :
    a ∈ (s.addAll ks).keys ↔ a ∈ s.keys ∨ a ∈ ks := by
  induction ks generalizing s with
  | nil => simp [addAll]
  | cons k ks ih =>
    simp only [addAll, List.foldl_cons] at ih ⊢
    rw [ih, mem_add, List.mem_cons, @or_comm (a = k) (a ∈ s.keys), or_assoc]

theorem nodup (s : ItemStore α) : s.keys.Nodup := s.sorted.nodup

end ItemStore

def inRange (x y k : α) : Bool := if x < y then decide (x ≤ k ∧ k < y) else decide (x ≤ k ∨ k < y)

theorem inRange_iff {x y k : α} :
    inRange x y k = true ↔ if x < y then x ≤ k ∧ k < y else x ≤ k ∨ k < y := by
  unfold inRange; split_ifs <;> simp

@[simp] theorem inRange_self_left (x k : α) : inRange x x k = true := by
  simp only [inRange_iff, lt_irrefl, if_false]; exact le_or_lt x k

@[simp] theorem inRange_left (x y : α) : inRange x y x = true := by
  rw [inRange_iff]; split_ifs with h
  · exact ⟨le_rfl, h⟩
  · exact Or.inl le_rfl

def ckey (x k : α) : Bool ×ₗ α := toLex (decide (k < x), k)

theorem ckey_lt_ckey {x a b : α} :
    ckey x a < ckey x b ↔ (x ≤ a ∧ b < x) ∨ ((a < x ↔ b < x) ∧ a < b) := by
  unfold ckey
  rw [Prod.Lex.lt_iff]
  by_cases ha : a < x <;> by_cases hb : b < x <;> simp [ha, hb, ← not_lt, Bool.lt_iff]

theorem inRange_iff_ckey {x y k : α} : inRange x y k = true ↔ x = y ∨ ckey x k < ckey x y := by
  rw [inRange_iff, ckey_lt_ckey]
  rcases lt_trichotomy x y with hxy | rfl | hxy
  · simp only [hxy, if_true, hxy.ne, false_or, not_lt.2 hxy.le, and_false, iff_false]
    rw [not_lt]
  · simp [le_or_lt]
  · simp only [not_lt.2 hxy.le, if_false, hxy.ne', false_or, hxy, iff_true, true_and]
    by_cases hk : k < x
    · simp [hk, not_le.2 hk]
    · simp [not_lt.1 hk]

theorem ckey_self_le (x k : α) : ckey x x ≤ ckey x k := by
  rcases lt_or_le k x with hk | hk
  · exact (ckey_lt_ckey.2 (Or.inl ⟨le_rfl, hk⟩)).le
  · rcases hk.lt_or_eq with hk | rfl
    · exact (ckey_lt_ckey.2 (Or.inr ⟨iff_of_false (lt_irrefl x) (not_lt.2 hk.le), hk⟩)).le
    · exact le_rfl

theorem inRange_split {x y m : α} (hm : inRange x y m = true) (hmx : m ≠ x) (k : α) :
    (inRange x y k = true ↔ inRange x m k = true ∨ inRange m y k = true) ∧
      ¬(inRange x m k = true ∧ inRange m y k = true) := by
  simp only [inRange_iff] at hm ⊢
  rcases lt_trichotomy x y with hxy | rfl | hxy
  · simp only [hxy, if_true] at hm
    have hxm : x < m := lt_of_le_of_ne hm.1 hmx.symm
    simp only [hxy, hxm, hm.2, if_true]
    constructor
    · constructor
      · rintro ⟨h1, h2⟩; exact (lt_or_le k m).imp (fun h => ⟨h1, h⟩) (fun h => ⟨h, h2⟩)
      · rintro (⟨h1, h2⟩ | ⟨h1, h2⟩)
        · exact ⟨h1, h2.trans hm.2⟩
        · exact ⟨hxm.le.trans h1, h2⟩
    · rintro ⟨⟨-, h1⟩, h2, -⟩; exact absurd h1 (not_lt.2 h2)
  · rcases lt_or_gt_of_ne hmx with hmx' | hmx'
    · simp only [lt_irrefl, if_false, not_lt.2 hmx'.le, hmx']
      refine ⟨⟨fun _ => ?_, fun _ => le_or_lt x k⟩, ?_⟩
      · rcases lt_or_le k m with h | h
        · exact Or.inl (Or.inr h)
        · rcases lt_or_le k x with h' | h'
          · exact Or.inr ⟨h, h'⟩
          · exact Or.inl (Or.inl h')
      · rintro ⟨h1 | h1, h2, h3⟩
        · exact absurd h1 (not_le.2 h3)
        · exact absurd h1 (not_lt.2 h2)
    · simp only [lt_irrefl, if_false, not_lt.2 hmx'.le, hmx']
      refine ⟨⟨fun _ => ?_, fun _ => le_or_lt x k⟩, ?_⟩
      · rcases lt_or_le k m with h | h
        · rcases le_or_lt x k with h' | h'
          · exact Or.inl ⟨h', h⟩
          · exact Or.inr (Or.inr h')
        · exact Or.inr (Or.inl h)
      · rintro ⟨⟨h0, h1⟩, h2 | h2⟩
        · exact absurd h1 (not_lt.2 h2)
        · exact absurd h2 (not_lt.2 h0)
  · simp only [not_lt.2 hxy.le, if_false] at hm
    simp only [not_lt.2 hxy.le, if_false]
    rcases lt_or_gt_of_ne hmx with hmx' | hmx'
    · have hmy : m < y := hm.resolve_left (not_le.2 hmx')
      simp only [not_lt.2 hmx'.le, if_false, hmy, if_true]
      refine ⟨⟨fun h => ?_, fun h => ?_⟩, ?_⟩
      · rcases h with h | h
        · exact Or.inl (Or.inl h)
        · exact (lt_or_le k m).imp Or.inr (fun h' => ⟨h', h⟩)
      · rcases h with (h | h) | ⟨-, h⟩
        · exact Or.inl h
        · exact Or.inr (h.trans hmy)
        · exact Or.inr h
      · rintro ⟨h1 | h1, h2, h3⟩
        · exact absurd ((h3.trans hxy).trans_le h1) (lt_irrefl _)
        · exact absurd h1 (not_lt.2 h2)
    · have hym : ¬ m < y := fun h => absurd (h.trans hxy) (not_lt.2 hmx'.le)
      simp only [hmx', if_true, hym, if_false]
      refine ⟨⟨fun h => ?_, fun h => ?_⟩, ?_⟩
      · rcases h with h | h
        · exact (lt_or_le k m).imp (fun h' => ⟨h, h'⟩) Or.inl
        · exact Or.inr (Or.inr h)
      · rcases h with ⟨h, -⟩ | h | h
        · exact Or.inl h
        · exact Or.inl (hmx'.le.trans h)
        · exact Or.inr h
      · rintro ⟨⟨h0, h1⟩, h2 | h2⟩
        · exact absurd h1 (not_lt.2 h2)
        · exact absurd ((h2.trans hxy).trans_le h0) (lt_irrefl _)

theorem filter_lt_getElem {γ β : Type} [LinearOrder β] {f : γ → β} {l : List γ}
    (hl : l.Sorted (fun a b => f a < f b)) {c : ℕ} (hc : c < l.length) :
    l.filter (fun a => decide (f a < f l[c])) = l.take c := by
  induction l generalizing c with
  | nil => simp at hc
  | cons a l ih =>
    rw [List.sorted_cons] at hl
    cases c with
    | zero =>
      simp only [List.getElem_cons_zero, List.take_zero, List.filter_cons, lt_irrefl,
        decide_False, Bool.false_eq_true, if_false, List.filter_eq_nil_iff, decide_eq_true_eq]
      exact fun b hb => not_lt.2 (hl.1 b hb).le
    | succ c =>
      simp only [List.getElem_cons_succ, List.take_succ_cons, List.filter_cons,
        hl.1 _ (List.getElem_mem _), decide_True, if_true]
      exact congrArg _ (ih hl.2 (by simpa using hc))

theorem filter_lt_eq_take {γ β : Type} [LinearOrder β] {f : γ → β} {l : List γ}
    (hl : l.Sorted (fun a b => f a < f b)) (t : β) :
    l.filter (fun a => decide (f a < t)) = l.take (l.filter (fun a => decide (f a < t))).length := by
  induction l with
  | nil => rfl
  | cons a l ih =>
    rw [List.sorted_cons] at hl
    by_cases ha : f a < t
    · simp only [List.filter_cons, ha, decide_True, if_true, List.length_cons, List.take_succ_cons]
      exact congrArg _ (ih hl.2)
    · have hnil : l.filter (fun a => decide (f a < t)) = [] :=
        List.filter_eq_nil_iff.2 fun b hb => by
          simpa using fun h => ha ((hl.1 b hb).trans h)
      simp [ha, hnil]

/-- What `GetRangeInfo` reports: the fingerprint and count of the range, the keys
the `Start` iterator walks (it cycles through the store), and the key at `End`. -/
structure RangeInfo (α : Type) where
  fingerprint : List α
  count : ℕ
  start : List α
  endKey : Option α

namespace ItemStore

variable (s t : ItemStore α) {x y k : α}

def cyclicFrom (x : α) : List α :=
  s.keys.filter (fun k => decide (x ≤ k)) ++ s.keys.filter (fun k => decide (k < x))

def rangeItems (x y : α) : List α := (s.cyclicFrom x).filter (inRange x y)

/-- `dumbStore.GetRangeInfo(preceding, x, y, count)` for non-nil bounds; the
`preceding` hint does not change the result. For `count ≥ 0` the range is cut
after its first `count` keys, and `End` is the key that follows them. -/
def rangeInfo (x y : α) (count : ℤ) : RangeInfo α :=
  let items := if 0 ≤ count then (s.rangeItems x y).take count.toNat else s.rangeItems x y
  { fingerprint := items, count := items.length, start := s.cyclicFrom x,
    endKey := (s.cyclicFrom x)[items.length % (s.cyclicFrom x).length]? }

/-- `dumbStore.GetRangeInfo`: both bounds nil read the whole set from its minimum
(an empty store reports an empty fingerprint), one nil bound panics. -/
def getRangeInfo (x y : Option α) (count : ℤ) : Except String (RangeInfo α) :=
  match x, y with
  | none, none =>
    match s.keys.head? with
    | none => .ok ⟨[], 0, [], none⟩
    | some m => .ok (s.rangeInfo m m count)
  | some x, some y => .ok (s.rangeInfo x y count)
  | _, _ => .error "BUG: bad X or Y"

@[simp] theorem mem_cyclicFrom : k ∈ s.cyclicFrom x ↔ k ∈ s.keys := by
  simp only [cyclicFrom, List.mem_append, List.mem_filter, decide_eq_true_eq, ← and_or_left]
  simp [le_or_lt]

theorem cyclicFrom_perm (x : α) : (s.cyclicFrom x).Perm s.keys := by
  have h : s.keys.filter (fun k => decide (k < x)) = s.keys.filter (fun k => !decide (x ≤ k)) :=
    List.filter_congr fun k _ => by simp only [← decide_not, not_le]
  rw [cyclicFrom, h]
  exact List.filter_append_perm _ _

theorem cyclicFrom_sorted (x : α) : (s.cyclicFrom x).Sorted (fun a b => ckey x a < ckey x b) := by
  have hs := s.sorted
  refine List.pairwise_append.2 ⟨?_, ?_, ?_⟩
  · refine List.Pairwise.imp_of_mem (fun {a b} ha hb hab => ?_) (hs.filter _)
    simp only [List.mem_filter, decide_eq_true_eq] at ha hb
    exact ckey_lt_ckey.2 (Or.inr ⟨iff_of_false (not_lt.2 ha.2) (not_lt.2 hb.2), hab⟩)
  · refine List.Pairwise.imp_of_mem (fun {a b} ha hb hab => ?_) (hs.filter _)
    simp only [List.mem_filter, decide_eq_true_eq] at ha hb
    exact ckey_lt_ckey.2 (Or.inr ⟨iff_of_true ha.2 hb.2, hab⟩)
  · intro a ha b hb
    simp only [List.mem_filter, decide_eq_true_eq] at ha hb
    exact ckey_lt_ckey.2 (Or.inl ⟨ha.2, hb.2⟩)

@[simp] theorem mem_rangeItems : k ∈ s.rangeItems x y ↔ k ∈ s.keys ∧ inRange x y k = true := by
  simp [rangeItems]

theorem rangeItems_sorted (x y : α) :
    (s.rangeItems x y).Sorted (fun a b => ckey x a < ckey x b) :=
  (s.cyclicFrom_sorted x).filter _

theorem rangeItems_nodup (x y : α) : (s.rangeItems x y).Nodup :=
  ((s.cyclicFrom_perm x).nodup_iff.2 s.nodup).filter _

theorem length_rangeItems (x y : α) : (s.rangeItems x y).length = s.keys.countP (inRange x y) := by
  rw [rangeItems, ← List.countP_eq_length_filter]
  exact (s.cyclicFrom_perm x).countP_eq _

theorem rangeItems_eq_take (x y : α) :
    s.rangeItems x y = (s.cyclicFrom x).take (s.rangeItems x y).length := by
  by_cases hxy : x = y
  · subst hxy
    have h : s.rangeItems x x = s.cyclicFrom x := List.filter_eq_self.2 fun k _ => inRange_self_left x k
    rw [h, List.take_length]
  · have h : s.rangeItems x y = (s.cyclicFrom x).filter (fun a => decide (ckey x a < ckey x y)) :=
      List.filter_congr fun k _ => Bool.eq_iff_iff.2 (by simp [inRange_iff_ckey, hxy])
    rw [h]
    exact filter_lt_eq_take (s.cyclicFrom_sorted x) _

theorem rangeItems_congr (h : ∀ k, inRange x y k = true → (k ∈ s.keys ↔ k ∈ t.keys)) :
    s.rangeItems x y = t.rangeItems x y := by
  haveI : IsAntisymm α (fun a b => ckey x a < ckey x b) := ⟨fun _ _ h1 h2 => absurd (h1.trans h2) (lt_irrefl _)⟩
  refine List.eq_of_perm_of_sorted ?_ (s.rangeItems_sorted x y) (t.rangeItems_sorted x y)
  refine (List.perm_ext_iff_of_nodup (s.rangeItems_nodup x y) (t.rangeItems_nodup x y)).2 fun k => ?_
  simp only [mem_rangeItems]
  exact ⟨fun hk => ⟨(h k hk.2).1 hk.1, hk.2⟩, fun hk => ⟨(h k hk.2).2 hk.1, hk.2⟩⟩


theorem rangeItems_getElem {c : ℕ} (hc : 0 < c) (hcn : c < (s.rangeItems x y).length) :
    (s.rangeItems x y)[c] ≠ x ∧ (s.rangeItems x (s.rangeItems x y)[c]).length = c := by
  have hcc : c < (s.cyclicFrom x).length := hcn.trans_le (List.filter_sublist _).length_le
  have hm : (s.rangeItems x y)[c] = (s.cyclicFrom x)[c] := by
    rw [List.getElem_of_eq (s.rangeItems_eq_take x y)]; simp
  have hmx : (s.cyclicFrom x)[c] ≠ x := by
    intro he
    have hlt := List.pairwise_iff_getElem.1 (s.cyclicFrom_sorted x) 0 c (by omega) hcc hc
    rw [he] at hlt
    exact absurd (hlt.trans_le (ckey_self_le x _)) (lt_irrefl _)
  rw [hm]
  refine ⟨hmx, ?_⟩
  have h : s.rangeItems x (s.cyclicFrom x)[c] =
      (s.cyclicFrom x).filter (fun a => decide (ckey x a < ckey x (s.cyclicFrom x)[c])) :=
    List.filter_congr fun k _ => Bool.eq_iff_iff.2 (by simp [inRange_iff_ckey, hmx.symm])
  rw [h, filter_lt_getElem (s.cyclicFrom_sorted x) hcc]
  simp [hcc.le]

theorem rangeInfo_endKey {c : ℕ} (hcn : c < (s.rangeItems x y).length) :
    (s.rangeInfo x y c).endKey = some (s.rangeItems x y)[c] := by
  have hcc : c < (s.cyclicFrom x).length := hcn.trans_le (List.filter_sublist _).length_le
  have htake : ((s.rangeItems x y).take c).length = c := by simp [hcn.le]
  simp only [rangeInfo]
  rw [if_pos (by omega), Int.toNat_ofNat, htake, Nat.mod_eq_of_lt hcc, List.getElem?_eq_getElem hcc,
    List.getElem_of_eq (s.rangeItems_eq_take x y)]
  simp

@[simp] theorem rangeInfo_fingerprint : (s.rangeInfo x y (-1)).fingerprint = s.rangeItems x y := by
  simp [rangeInfo]

@[simp] theorem rangeInfo_count : (s.rangeInfo x y (-1)).count = (s.rangeItems x y).length := by
  simp [rangeInfo]

@[simp] theorem rangeInfo_start : (s.rangeInfo x y (-1)).start = s.cyclicFrom x := rfl

theorem length_rangeItems_split {m : α} (hm : inRange x y m = true) (hmx : m ≠ x) :
    (s.rangeItems x y).length = (s.rangeItems x m).length + (s.rangeItems m y).length := by
  simp only [length_rangeItems]
  induction s.keys with
  | nil => rfl
  | cons a l ih =>
    have h := inRange_split hm hmx a
    simp only [List.countP_cons, ih]
    by_cases h1 : inRange x m a = true <;> by_cases h2 : inRange m y a = true <;> simp_all <;> omega

theorem addAll_append (s : ItemStore α) (l₁ l₂ : List α) :
    s.addAll (l₁ ++ l₂) = (s.addAll l₁).addAll l₂ :=
  List.foldl_append _ _ _ _

theorem eq_of_mem_iff {t : ItemStore α} (h : ∀ k, k ∈ s.keys ↔ k ∈ t.keys) : s = t := by
  have hk := List.eq_of_perm_of_sorted ((List.perm_ext_iff_of_nodup s.nodup t.nodup).2 h) s.sorted t.sorted
  cases s; cases t; cases hk; rfl

end ItemStore

end Spacemesh.RangeSync
