import Spacemesh.Dbsync.FPTree

/-!
# The shape of the fingerprint tree

What `fpTree.addHash` builds. The tree of a list of ids `hs` (`treeNode hs 0`) has at
prefix `(l, b)` the node of the ids whose first `l` bits are `b` (`under hs l b`): empty,
a leaf with the one id's bucket and fingerprint, or a count node with the number of ids
and the XOR of their fingerprints (`nodeOf`), where the prefix is visible, that is where
each of its proper ancestors has two ids or more; elsewhere the node is empty.

Adding `h` walks down `h`'s prefixes. Partway, at length `k` (`Midway`), the heap
already holds the tree of `hs ++ [h]` outside the subtree of `h`'s prefix of length `k`,
and inside it still the tree of `hs` with visibility counted from that prefix. A pass
at an empty node, at a leaf (pushed down one level to its own child), or at a count
node keeps this one level further, or ends it (`addHashLoop_holds`). So every run of
fewer than `2^31` additions from an empty tree returns, and its heap holds the tree of
the added ids, whose count nodes are the sums of their children (`addHash_tree_shape`).
-/

namespace Spacemesh.Dbsync

theorem leafWord_eq (h : Hash32) : hashBits h cachedBits ||| nodeFlagLeaf = 2 ^ 31 * 1 + hashBits h cachedBits :=
  or_two_pow_of_lt (lt_of_lt_of_le (hashBits_lt h (by decide)) (by decide))

theorem and_leafWord_eq_zero (h : Hash32) {k : ℕ} (hk : k < cachedBits) :
    (hashBits h cachedBits ||| nodeFlagLeaf) &&& 2 ^ (cachedBits - 1 - k) = 0 ↔ (load64 h).testBit (63 - k) = false := by
  simp only [cachedBits] at hk
  rw [Nat.and_two_pow, leafWord_eq, Nat.testBit_mul_pow_two_add _ (hashBits_lt h (by decide) |>.trans_le (by decide)),
    if_pos (by simp only [cachedBits]; omega), hashBits, Nat.testBit_shiftRight]
  rw [show 64 - cachedBits + (cachedBits - 1 - k) = 63 - k by simp only [cachedBits]; omega]
  cases (load64 h).testBit (63 - k) <;> simp

/-! ## The tree the added ids determine -/

def under (hs : List Hash32) (l b : ℕ) : List Hash32 := hs.filter fun h => hashBits h l = b

def InSubtree (k r l b : ℕ) : Prop := k ≤ l ∧ b >>> (l - k) = r

def VisibleFrom (hs : List Hash32) (k l b : ℕ) : Prop :=
  ∀ j, k ≤ j → j < l → 2 ≤ (under hs j (b >>> (l - j))).length

instance (hs : List Hash32) (k l b : ℕ) : Decidable (VisibleFrom hs k l b) :=
  Nat.decidableLoHi k l _

def xorAll (hs : List Hash32) : ℕ := hs.foldr (fun h a => fpOf h ^^^ a) 0

def nodeOf : List Hash32 → Node
  | [] => ⟨0, 0⟩
  | [h] => ⟨fpOf h, hashBits h cachedBits ||| nodeFlagLeaf⟩
  | h₁ :: h₂ :: t => ⟨xorAll (h₁ :: h₂ :: t), t.length + 2⟩

/-- The node of prefix `(l, b)` in the tree of `hs`, visibility counted from length `k`. -/
def treeNode (hs : List Hash32) (k l b : ℕ) : Node :=
  if VisibleFrom hs k l b then nodeOf (under hs l b) else ⟨0, 0⟩

section Tree

variable (hs : List Hash32)

theorem treeNode_self (k r : ℕ) : treeNode hs k k r = nodeOf (under hs k r) :=
  if_pos fun _ h1 h2 => absurd h2 (by omega)

theorem treeNode_of_nil {k l b : ℕ} (h : under hs l b = []) : treeNode hs k l b = ⟨0, 0⟩ := by
  unfold treeNode; split_ifs <;> simp [h, nodeOf]

theorem treeNode_of_thin {k l b j : ℕ} (hkj : k ≤ j) (hjl : j < l) (h : (under hs j (b >>> (l - j))).length < 2) :
    treeNode hs k l b = ⟨0, 0⟩ :=
  if_neg fun hv => absurd (hv j hkj hjl) (by omega)

theorem visibleFrom_split {i m l b : ℕ} (him : i ≤ m) (hml : m ≤ l) :
    VisibleFrom hs i l b ↔ VisibleFrom hs i m (b >>> (l - m)) ∧ VisibleFrom hs m l b := by
  have hanc : ∀ j, j ≤ m → b >>> (l - m) >>> (m - j) = b >>> (l - j) := fun j hj => by
    rw [← Nat.shiftRight_add]; congr 1; omega
  constructor
  · intro hv
    exact ⟨fun j h1 h2 => hanc j h2.le ▸ hv j h1 (by omega), fun j h1 h2 => hv j (by omega) h2⟩
  · rintro ⟨h1, h2⟩ j hij hjl
    by_cases hjm : j < m
    · exact hanc j hjm.le ▸ h1 j hij hjm
    · exact h2 j (by omega) hjl

theorem treeNode_below_visible {i m l b : ℕ} (him : i ≤ m) (hml : m < l)
    (hv : VisibleFrom hs i m (b >>> (l - m))) (h2 : 2 ≤ (under hs m (b >>> (l - m))).length) :
    treeNode hs i l b = treeNode hs (m + 1) l b := by
  have : VisibleFrom hs i l b ↔ VisibleFrom hs (m + 1) l b := by
    rw [visibleFrom_split hs him hml.le]
    refine ⟨fun ⟨_, h⟩ j hj hjl => h j (by omega) hjl, fun h => ⟨hv, fun j hj hjl => ?_⟩⟩
    rcases Nat.eq_or_lt_of_le hj with rfl | hj
    · exact h2
    · exact h j hj hjl
  unfold treeNode; simp only [this]

theorem under_eq_filter {j l : ℕ} (b : ℕ) (hjl : j ≤ l) (hl : l ≤ 64) :
    under hs l b = (under hs j (b >>> (l - j))).filter fun g => hashBits g l = b := by
  rw [under, under, List.filter_filter]
  refine List.filter_congr fun g _ => ?_
  by_cases hg : hashBits g l = b
  · simp [hg, ← hashBits_shiftRight g hjl hl]
  · simp [hg]

theorem under_sublist {j l : ℕ} (b : ℕ) (hjl : j ≤ l) (hl : l ≤ 64) :
    (under hs l b).Sublist (under hs j (b >>> (l - j))) :=
  under_eq_filter hs b hjl hl ▸ List.filter_sublist _

theorem under_append_of_ne {h : Hash32} {l b : ℕ} (hne : hashBits h l ≠ b) :
    under (hs ++ [h]) l b = under hs l b := by
  simp [under, List.filter_append, hne]

theorem under_append_self (h : Hash32) (l : ℕ) :
    under (hs ++ [h]) l (hashBits h l) = under hs l (hashBits h l) ++ [h] := by
  simp [under, List.filter_append]

theorem treeNode_append_off_path {h : Hash32} {m l b : ℕ} (hml : m ≤ l) (hl : l ≤ 64)
    (hoff : b >>> (l - m) ≠ hashBits h m) : treeNode (hs ++ [h]) m l b = treeNode hs m l b := by
  have hne : ∀ j, m ≤ j → j ≤ l → hashBits h j ≠ b >>> (l - j) := fun j h1 h2 he => hoff <| by
    rw [← hashBits_shiftRight h h1 (by omega), he, ← Nat.shiftRight_add]; congr 1; omega
  have hv : VisibleFrom (hs ++ [h]) m l b ↔ VisibleFrom hs m l b := by
    refine forall_congr' fun j => imp_congr_right fun h1 => imp_congr_right fun h2 => ?_
    rw [under_append_of_ne hs (hne j h1 h2.le)]
  have hu : under (hs ++ [h]) l b = under hs l b := under_append_of_ne hs (by simpa using hne l hml le_rfl)
  unfold treeNode; simp only [hv, hu]

theorem xorAll_append_single (h : Hash32) : ∀ hs : List Hash32, xorAll (hs ++ [h]) = xorAll hs ^^^ fpOf h
  | [] => by simp [xorAll]
  | g :: hs => by
    show fpOf g ^^^ xorAll (hs ++ [h]) = (fpOf g ^^^ xorAll hs) ^^^ fpOf h
    rw [xorAll_append_single h hs, Nat.xor_assoc]

theorem empty_nodeOf_single (g : Hash32) : (nodeOf [g]).empty = false := by
  simp [nodeOf, Node.empty, leafWord_eq]

theorem leaf_nodeOf_single (g : Hash32) : (nodeOf [g]).leaf = true := by
  have hb : hashBits g cachedBits < 2 ^ 31 := (hashBits_lt g (by decide : cachedBits ≤ 64)).trans_le (by decide)
  rw [nodeOf, Node.leaf, leafWord_eq, nodeFlagLeaf, Nat.and_two_pow, Nat.testBit_mul_pow_two_add _ hb]
  simp

theorem empty_nodeOf_pair (g g' : Hash32) (t : List Hash32) : (nodeOf (g :: g' :: t)).empty = false := by
  simp [nodeOf, Node.empty]

theorem leaf_nodeOf_pair (g g' : Hash32) (t : List Hash32) (ht : t.length + 2 < 2 ^ 31) :
    (nodeOf (g :: g' :: t)).leaf = false := by
  rw [nodeOf, Node.leaf, nodeFlagLeaf, Nat.and_two_pow, Nat.testBit_lt_two_pow ht]
  rfl

theorem nodeOf_nil_append (h : Hash32) :
    (⟨(nodeOf []).fp ^^^ fpOf h, load64 h >>> (64 - cachedBits) ||| nodeFlagLeaf⟩ : Node) = nodeOf ([] ++ [h]) := by
  simp [nodeOf, hashBits]

theorem nodeOf_single_append (g h : Hash32) : (⟨(nodeOf [g]).fp ^^^ fpOf h, 2⟩ : Node) = nodeOf ([g] ++ [h]) := by
  simp [nodeOf, xorAll]

theorem nodeOf_pair_append (g g' : Hash32) (t : List Hash32) (h : Hash32) (ht : t.length + 3 < 2 ^ 32) :
    (⟨(nodeOf (g :: g' :: t)).fp ^^^ fpOf h, ((nodeOf (g :: g' :: t)).c + 1) % 2 ^ 32⟩ : Node) =
      nodeOf (g :: g' :: t ++ [h]) := by
  simp only [nodeOf, List.cons_append, List.length_append, List.length_singleton]
  rw [← List.cons_append, ← List.cons_append, xorAll_append_single, Nat.mod_eq_of_lt ht]

end Tree

/-! ## The loop of `addHash` -/

theorem set_nodes (ft : FPTree) (i j : ℕ) (n : Node) :
    (ft.set i n).nodes j = if j = i then n else ft.nodes j := by
  simp [FPTree.set, Function.update_apply]

instance (k r l b : ℕ) : Decidable (InSubtree k r l b) := inferInstanceAs (Decidable (_ ∧ _))

def Holds (hs : List Hash32) (ft : FPTree) : Prop :=
  ∀ l ≤ cachedBits, ∀ b < 2 ^ l, ft.nodes (heapIndex l b) = treeNode hs 0 l b

structure Midway (hs : List Hash32) (h : Hash32) (k : ℕ) (ft : FPTree) : Prop where
  nodes : ∀ l ≤ cachedBits, ∀ b < 2 ^ l, ft.nodes (heapIndex l b) =
    if InSubtree k (hashBits h k) l b then treeNode hs k l b else treeNode (hs ++ [h]) 0 l b
  path : ∀ j < k, 2 ≤ (under (hs ++ [h]) j (hashBits h j)).length

section Loop

variable {hs : List Hash32} {h : Hash32}

theorem InSubtree.of_succ {k l b : ℕ} (hk : k < 64) (hs' : InSubtree (k + 1) (hashBits h (k + 1)) l b) :
    InSubtree k (hashBits h k) l b := by
  refine ⟨by have := hs'.1; omega, ?_⟩
  rw [show l - k = l - (k + 1) + 1 by have := hs'.1; omega, Nat.shiftRight_add, hs'.2,
    hashBits_succ_shiftRight h hk]

theorem midway_zero {ft : FPTree} (hh : Holds hs ft) : Midway hs h 0 ft where
  nodes l hl b hb := by
    rw [hh l hl b hb, if_pos ⟨Nat.zero_le l, by rw [hashBits_zero, Nat.shiftRight_eq_div_pow, Nat.sub_zero,
      Nat.div_eq_of_lt hb]⟩]
  path _ h := absurd h (Nat.not_lt_zero _)

variable {k : ℕ} {ft : FPTree}

theorem Midway.visible_path (hm : Midway hs h k ft) (hk : k ≤ cachedBits) :
    VisibleFrom (hs ++ [h]) 0 k (hashBits h k) := fun j _ hj => by
  rw [hashBits_shiftRight h hj.le (by simp only [cachedBits] at hk; omega)]
  exact hm.path j hj

theorem Midway.treeNode_path (hm : Midway hs h k ft) (hk : k ≤ cachedBits) :
    treeNode (hs ++ [h]) 0 k (hashBits h k) = nodeOf (under hs k (hashBits h k) ++ [h]) := by
  rw [treeNode, if_pos (hm.visible_path hk), under_append_self]

theorem Midway.node_path (hm : Midway hs h k ft) (hk : k ≤ cachedBits) :
    ft.nodes (heapIndex k (hashBits h k)) = nodeOf (under hs k (hashBits h k)) := by
  rw [hm.nodes k hk _ (hashBits_lt h (by simp only [cachedBits] at hk; omega)),
    if_pos ⟨le_rfl, by simp⟩, treeNode_self]

theorem holds_of_midway (hm : Midway hs h k ft) (hk : k ≤ cachedBits)
    (hbelow : ∀ l ≤ cachedBits, ∀ b < 2 ^ l, InSubtree k (hashBits h k) l b → k < l →
      treeNode hs k l b = treeNode (hs ++ [h]) 0 l b) :
    Holds (hs ++ [h]) (ft.set (heapIndex k (hashBits h k)) (nodeOf (under hs k (hashBits h k) ++ [h]))) := by
  intro l hl b hb
  rw [set_nodes]
  split_ifs with heq
  · obtain ⟨rfl, rfl⟩ := heapIndex_inj hb (hashBits_lt h (by simp only [cachedBits] at hk; omega)) heq
    exact (hm.treeNode_path hk).symm
  · rw [hm.nodes l hl b hb]
    split_ifs with hin
    · refine hbelow l hl b hb hin (lt_of_le_of_ne hin.1 fun hkl => heq ?_)
      subst hkl
      rw [← hin.2, Nat.sub_self, Nat.shiftRight_zero]
    · rfl

theorem midway_succ {ft' : FPTree} (hm : Midway hs h k ft) (hk : k < cachedBits)
    (hS : under hs k (hashBits h k) ≠ [])
    (hroot : ft'.nodes (heapIndex k (hashBits h k)) = nodeOf (under hs k (hashBits h k) ++ [h]))
    (hout : ∀ l ≤ cachedBits, ∀ b < 2 ^ l, ¬ InSubtree k (hashBits h k) l b →
      ft'.nodes (heapIndex l b) = ft.nodes (heapIndex l b))
    (hin : ∀ l ≤ cachedBits, ∀ b < 2 ^ l, InSubtree k (hashBits h k) l b → k < l →
      ft'.nodes (heapIndex l b) = if InSubtree (k + 1) (hashBits h (k + 1)) l b then treeNode hs (k + 1) l b
        else treeNode (hs ++ [h]) 0 l b) :
    Midway hs h (k + 1) ft' where
  nodes l hl b hb := by
    have hk64 : k < 64 := by simp only [cachedBits] at hk; omega
    by_cases hsub : InSubtree k (hashBits h k) l b
    · rcases Nat.eq_or_lt_of_le hsub.1 with rfl | hkl
      · obtain rfl : b = hashBits h k := by simpa using hsub.2
        rw [hroot, if_neg fun h' => absurd h'.1 (by omega), hm.treeNode_path hk.le]
      · exact hin l hl b hb hsub hkl
    · rw [hout l hl b hb hsub, hm.nodes l hl b hb, if_neg hsub, if_neg fun h' => hsub (h'.of_succ hk64)]
  path j hj := by
    rcases Nat.lt_succ_iff_lt_or_eq.1 hj with hj | rfl
    · exact hm.path j hj
    · rw [under_append_self, List.length_append]
      have := List.length_pos.2 hS
      simp only [List.length_singleton]; omega

theorem Midway.treeNode_off_path (hm : Midway hs h k ft) (hk : k < cachedBits) {l b : ℕ} (hl : l ≤ cachedBits)
    (hsub : InSubtree k (hashBits h k) l b) (hkl : k < l) (hoff : ¬ InSubtree (k + 1) (hashBits h (k + 1)) l b)
    (h2 : 2 ≤ (under hs k (hashBits h k)).length) :
    treeNode hs k l b = treeNode (hs ++ [h]) 0 l b := by
  have hl64 : l ≤ 64 := by simp only [cachedBits] at hl; omega
  rw [treeNode_below_visible hs le_rfl hkl (fun _ h1 h2 => absurd h2 (by omega)) (hsub.2 ▸ h2),
    treeNode_below_visible (hs ++ [h]) (Nat.zero_le k) hkl (hsub.2 ▸ hm.visible_path hk.le) ?_,
    treeNode_append_off_path hs hkl hl64 fun he => hoff ⟨hkl, he⟩]
  rw [hsub.2, under_append_self, List.length_append]; omega

theorem midway_succ_of_count (hm : Midway hs h k ft) (hk : k < cachedBits)
    (h2 : 2 ≤ (under hs k (hashBits h k)).length) :
    Midway hs h (k + 1) (ft.set (heapIndex k (hashBits h k)) (nodeOf (under hs k (hashBits h k) ++ [h]))) := by
  have hhk := hashBits_lt h (by simp only [cachedBits] at hk; omega : k ≤ 64)
  have hne : ∀ l b, b < 2 ^ l → ¬ (l = k ∧ b = hashBits h k) → heapIndex l b ≠ heapIndex k (hashBits h k) :=
    fun l b hb hn he => hn (heapIndex_inj hb hhk he)
  refine midway_succ hm hk (List.ne_nil_of_length_pos (by omega)) (by rw [set_nodes, if_pos rfl])
    (fun l _ b hb hsub => ?_) (fun l hl b hb hsub hkl => ?_)
  · rw [set_nodes, if_neg (hne l b hb fun ⟨h1, h2⟩ => hsub ⟨h1.ge, by rw [h1, h2]; simp⟩)]
  · rw [set_nodes, if_neg (hne l b hb fun ⟨h1, _⟩ => by omega), hm.nodes l hl b hb, if_pos hsub]
    split_ifs with hon
    · exact treeNode_below_visible hs le_rfl hkl (fun _ h1 h2 => absurd h2 (by omega)) (hsub.2 ▸ h2)
    · exact hm.treeNode_off_path hk hl hsub hkl hon h2

theorem midway_succ_of_leaf {g : Hash32} (hm : Midway hs h k ft) (hk : k < cachedBits)
    (hg : under hs k (hashBits h k) = [g]) :
    Midway hs h (k + 1) ((ft.set (heapIndex (k + 1) (hashBits g (k + 1))) (nodeOf [g])).set
      (heapIndex k (hashBits h k)) (nodeOf [g, h])) := by
  have hk64 : k < 64 := by simp only [cachedBits] at hk; omega
  have hhk := hashBits_lt h hk64.le
  have hgk : hashBits g k = hashBits h k := by
    simpa [under] using (List.mem_filter.1 (hg ▸ List.mem_singleton_self g : g ∈ under hs k (hashBits h k))).2
  have hsubg : InSubtree k (hashBits h k) (k + 1) (hashBits g (k + 1)) :=
    ⟨Nat.le_add_right k 1, by rw [Nat.add_sub_cancel_left, hashBits_succ_shiftRight g hk64, hgk]⟩
  -- below `h`'s prefix of length `k`, the ids of `hs` are `g` alone
  have hunder : ∀ l b, l ≤ cachedBits → InSubtree k (hashBits h k) l b →
      under hs l b = if hashBits g l = b then [g] else [] := fun l b hl hsub => by
    rw [under_eq_filter hs b hsub.1 (by simp only [cachedBits] at hl; omega), hsub.2, hg]
    by_cases hgb : hashBits g l = b <;> simp [hgb]
  have hg1 : under hs (k + 1) (hashBits g (k + 1)) = [g] := by rw [hunder _ _ (by omega) hsubg, if_pos rfl]
  have hup : hashBits g (k + 1) >>> 1 = hashBits h k := by simpa using hsubg.2
  refine midway_succ hm hk (by simp [hg]) (by rw [set_nodes, if_pos rfl, hg]; rfl)
    (fun l _ b hb hsub => ?_) (fun l hl b hb hsub hkl => ?_)
  · have hne : ∀ l' b', InSubtree k (hashBits h k) l' b' → b' < 2 ^ l' → heapIndex l b ≠ heapIndex l' b' :=
      fun l' b' h' hb' he => by obtain ⟨rfl, rfl⟩ := heapIndex_inj hb hb' he; exact hsub h'
    rw [set_nodes, if_neg (hne _ _ ⟨le_rfl, by simp⟩ hhk), set_nodes,
      if_neg (hne _ _ hsubg (hashBits_lt g (by omega)))]
  · rw [set_nodes, if_neg fun he => absurd (heapIndex_inj hb hhk he).1 (by omega), set_nodes]
    have hl64 : l ≤ 64 := by simp only [cachedBits] at hl; omega
    by_cases hpush : heapIndex l b = heapIndex (k + 1) (hashBits g (k + 1))
    · -- the pushed leaf
      obtain ⟨rfl, rfl⟩ := heapIndex_inj hb (hashBits_lt g (by omega)) hpush
      rw [if_pos rfl]
      split_ifs with hon
      · rw [treeNode_self, hg1]
      · rw [treeNode_below_visible (hs ++ [h]) (Nat.zero_le k) (Nat.lt_add_one k) ?_ ?_, treeNode_self,
          under_append_of_ne hs fun he => hon ⟨le_rfl, by simp [he]⟩, hg1]
        · simpa [hup] using hm.visible_path hk.le
        · simp [hup, under_append_self, hg]
    -- any other node below: empty before, and empty after
    rw [if_neg hpush, hm.nodes l hl b hb, if_pos hsub, treeNode_of_thin hs le_rfl hkl (by rw [hsub.2, hg]; simp)]
    by_cases hbg : hashBits g l = b
    · -- below the pushed leaf, whose prefix has the one id `g`
      have hfar : k + 1 < l := lt_of_le_of_ne hkl fun he => hpush (by subst he; rw [hbg])
      have hanc : b >>> (l - (k + 1)) = hashBits g (k + 1) := by rw [← hbg, hashBits_shiftRight g hkl hl64]
      split_ifs with hon
      · exact (treeNode_of_thin hs le_rfl hfar (by rw [hanc, hg1]; simp)).symm
      · exact (treeNode_of_thin (hs ++ [h]) (Nat.zero_le _) hfar (by
          rw [hanc, under_append_of_ne hs fun he => hon ⟨hkl, by rw [hanc, he]⟩, hg1]; simp)).symm
    · -- no id below
      have hnil : under hs l b = [] := by rw [hunder l b hl hsub, if_neg hbg]
      split_ifs with hon
      · exact (treeNode_of_nil hs hnil).symm
      · refine (treeNode_of_nil (hs ++ [h]) ?_).symm
        rw [under_append_of_ne hs fun he => hon ⟨hkl, by rw [← he, hashBits_shiftRight h hkl hl64]⟩, hnil]

theorem child_prefixOf (h : Hash32) {k : ℕ} (hk : k < cachedBits) {c : Prop} [Decidable c]
    (hc : c ↔ (load64 h).testBit (63 - k) = false) {r : ℕ} (hr : r = hashBits h k) {β : Type}
    (f : Prefix → Except String β) :
    (if c then (prefixOf k r).left >>= f else (prefixOf k r).right >>= f) = f (prefixOf (k + 1) (hashBits h (k + 1))) := by
  have hk64 : k < 64 := by simp only [cachedBits] at hk; omega
  subst hr
  rw [hashBits_succ h hk64]
  by_cases hb : (load64 h).testBit (63 - k) = false
  · rw [if_pos (hc.2 hb), left_prefixOf hk (hashBits_lt h hk64.le), hb]; rfl
  · rw [if_neg (mt hc.1 hb), right_prefixOf hk (hashBits_lt h hk64.le)]
    simp only [Bool.not_eq_false] at hb
    rw [hb]; rfl

theorem addHashLoop_succ {fuel i v : ℕ} {p : Prefix} (hi : p.cacheIndex = some i) :
    FPTree.addHashLoop h (fuel + 1) p v ft =
      if (ft.nodes i).empty then
        .ok (ft.set i ⟨(ft.nodes i).fp ^^^ fpOf h, load64 h >>> (64 - cachedBits) ||| nodeFlagLeaf⟩)
      else
        let next := fun ft' =>
          if cachedBits < p.len then .error "BUG: prefix too long"
          else if p.len = cachedBits then .ok ft'
          else if v &&& 2 ^ 63 = 0 then p.left >>= fun p' => FPTree.addHashLoop h fuel p' ((v <<< 1) % 2 ^ 64) ft'
          else p.right >>= fun p' => FPTree.addHashLoop h fuel p' ((v <<< 1) % 2 ^ 64) ft'
        if (ft.nodes i).leaf then (ft.pushDown (ft.nodes i) p).map (·.set i ⟨(ft.nodes i).fp ^^^ fpOf h, 2⟩) >>= next
        else .ok (ft.set i ⟨(ft.nodes i).fp ^^^ fpOf h, ((ft.nodes i).c + 1) % 2 ^ 32⟩) >>= next := by
  rw [FPTree.addHashLoop, hi]

theorem addHashLoop_continue {fuel : ℕ} (hk : k ≤ cachedBits) (ft' : FPTree) :
    (if cachedBits < (prefixOf k (hashBits h k)).len then (.error "BUG: prefix too long" : Except String FPTree)
      else if (prefixOf k (hashBits h k)).len = cachedBits then .ok ft'
      else if load64 h * 2 ^ k % 2 ^ 64 &&& 2 ^ 63 = 0 then (prefixOf k (hashBits h k)).left >>= fun p' =>
        FPTree.addHashLoop h fuel p' (((load64 h * 2 ^ k % 2 ^ 64) <<< 1) % 2 ^ 64) ft'
      else (prefixOf k (hashBits h k)).right >>= fun p' =>
        FPTree.addHashLoop h fuel p' (((load64 h * 2 ^ k % 2 ^ 64) <<< 1) % 2 ^ 64) ft') =
      if k = cachedBits then .ok ft'
      else FPTree.addHashLoop h fuel (prefixOf (k + 1) (hashBits h (k + 1))) (load64 h * 2 ^ (k + 1) % 2 ^ 64) ft' := by
  have hk64 : k < 2 ^ prefixLenBits := by simp only [cachedBits, prefixLenBits] at hk ⊢; omega
  rw [len_prefixOf _ hk64, if_neg (Nat.not_lt.2 hk)]
  by_cases h24 : k = cachedBits
  · rw [if_pos h24, if_pos h24]
  · rw [if_neg h24, if_neg h24, child_prefixOf h (lt_of_le_of_ne hk h24) (and_bit63_eq_zero _ (by simp only [cachedBits] at hk; omega)) rfl]
    simp only [Nat.shiftLeft_eq, Nat.mod_mul_mod, Nat.pow_succ, Nat.mul_assoc]

theorem Midway.pushDown_leaf {g : Hash32} (hm : Midway hs h k ft) (hk : k < cachedBits)
    (hg : under hs k (hashBits h k) = [g]) :
    ft.pushDown (nodeOf [g]) (prefixOf k (hashBits h k)) =
      .ok (ft.set (heapIndex (k + 1) (hashBits g (k + 1))) (nodeOf [g])) := by
  have hk64 : k < 64 := by simp only [cachedBits] at hk; omega
  have hgk : hashBits h k = hashBits g k := (by
    simpa [under] using (List.mem_filter.1 (hg ▸ List.mem_singleton_self g : g ∈ under hs k (hashBits h k))).2 :
      hashBits g k = hashBits h k).symm
  have hg1 := hashBits_lt g (by omega : k + 1 ≤ 64)
  have hempty : ft.nodes (heapIndex (k + 1) (hashBits g (k + 1))) = ⟨0, 0⟩ := by
    rw [hm.nodes _ (show k + 1 ≤ cachedBits from hk) _ hg1, if_pos ⟨Nat.le_add_right k 1, by
      rw [Nat.add_sub_cancel_left, hashBits_succ_shiftRight g hk64, hgk]⟩,
      treeNode_of_thin hs le_rfl (Nat.lt_add_one k) (by
        rw [Nat.add_sub_cancel_left, hashBits_succ_shiftRight g hk64, ← hgk, hg]; simp)]
  rw [FPTree.pushDown, len_prefixOf _ (by simp only [prefixLenBits]; omega), if_neg (Nat.not_le.2 hk)]
  dsimp only
  rw [child_prefixOf g hk (show (nodeOf [g]).c &&& 2 ^ (cachedBits - 1 - k) = 0 ↔ _ from and_leafWord_eq_zero g hk) hgk]
  simp only [bind, Except.bind, cacheIndex_prefixOf (Nat.succ_le_of_lt hk) hg1, hempty]
  rfl

theorem addHashLoop_holds (hlen : hs.length + 1 < 2 ^ 31) :
    ∀ fuel k ft, k ≤ cachedBits → cachedBits < fuel + k → Midway hs h k ft →
      ∃ ft', FPTree.addHashLoop h fuel (prefixOf k (hashBits h k)) (load64 h * 2 ^ k % 2 ^ 64) ft = .ok ft' ∧
        Holds (hs ++ [h]) ft'
  | 0, k, _, hk, hfuel, _ => absurd hfuel (by omega)
  | fuel + 1, k, ft, hk, hfuel, hm => by
    have hk64 : k < 64 := by simp only [cachedBits] at hk; omega
    have hlenS : (under hs k (hashBits h k)).length ≤ hs.length := List.length_filter_le _ _
    rw [addHashLoop_succ (cacheIndex_prefixOf hk (hashBits_lt h hk64.le)), hm.node_path hk]
    simp only [addHashLoop_continue hk]
    -- the walk goes on from a node set on the path, or stops at length 24
    have hnext : ∀ ft', Midway hs h (k + 1) ft' → Midway hs h k ft → ¬ k = cachedBits → ∃ ft'',
        FPTree.addHashLoop h fuel (prefixOf (k + 1) (hashBits h (k + 1))) (load64 h * 2 ^ (k + 1) % 2 ^ 64) ft' = .ok ft'' ∧
          Holds (hs ++ [h]) ft'' := fun ft' hm' _ h24 =>
      addHashLoop_holds hlen fuel (k + 1) ft' (by omega) (by omega) hm'
    have hlast : ∀ ft', ft' = ft.set (heapIndex k (hashBits h k)) (nodeOf (under hs k (hashBits h k) ++ [h])) →
        k = cachedBits → Holds (hs ++ [h]) ft' := fun ft' hft h24 => by
      subst hft h24; exact holds_of_midway hm le_rfl fun l hl _ _ _ hkl => absurd hl (by omega)
    rcases hS : under hs k (hashBits h k) with _ | ⟨g, _ | ⟨g', t⟩⟩
    · -- no id below: `h` becomes a leaf here
      refine ⟨_, if_pos rfl, ?_⟩
      have hholds := holds_of_midway hm hk fun l hl b hb hsub hkl => by
        have hl64 : l ≤ 64 := by simp only [cachedBits] at hl; omega
        rw [treeNode_of_nil hs (List.sublist_nil.1 (hS ▸ hsub.2 ▸ under_sublist hs b hsub.1 hl64)),
          treeNode_of_thin (hs ++ [h]) (Nat.zero_le k) hkl (by rw [hsub.2, under_append_self, hS]; simp)]
      rwa [hS, ← nodeOf_nil_append] at hholds
    · -- a leaf `g`: pushed down, and the node counts two
      rw [if_neg (by rw [empty_nodeOf_single]; decide), if_pos (leaf_nodeOf_single g), nodeOf_single_append]
      by_cases h24 : k = cachedBits
      · subst h24
        rw [FPTree.pushDown, if_pos (by rw [len_prefixOf _ (by decide)])]
        exact ⟨_, by simp only [Except.map, bind, Except.bind, if_pos]; rfl, hlast _ (by rw [hS]) rfl⟩
      · rw [hm.pushDown_leaf (lt_of_le_of_ne hk h24) hS]
        simp only [Except.map, bind, Except.bind, if_neg h24]
        exact hnext _ (midway_succ_of_leaf hm (lt_of_le_of_ne hk h24) hS) hm h24
    · -- a count node: incremented
      have ht : t.length + 2 < 2 ^ 31 := by simp only [hS, List.length_cons] at hlenS; omega
      rw [if_neg (by rw [empty_nodeOf_pair]; decide), if_neg (by rw [leaf_nodeOf_pair g g' t ht]; decide),
        nodeOf_pair_append g g' t h (by omega)]
      simp only [bind, Except.bind]
      by_cases h24 : k = cachedBits
      · exact ⟨_, if_pos h24, hlast _ (by rw [hS]) h24⟩
      · rw [if_neg h24]
        exact hnext _ (hS ▸ midway_succ_of_count hm (lt_of_le_of_ne hk h24) (by rw [hS]; simp)) hm h24

end Loop

/-! ## Runs of `addHash` -/

theorem holds_new : Holds [] FPTree.new := fun _ _ _ _ => (treeNode_of_nil [] rfl).symm

theorem addHash_holds {hs : List Hash32} {ft : FPTree} (hh : Holds hs ft) (hlen : hs.length + 1 < 2 ^ 31)
    (h : Hash32) : ∃ ft', ft.addHash h = .ok ft' ∧ Holds (hs ++ [h]) ft' := by
  have hrun := @addHashLoop_holds hs h hlen (cachedBits + 1) 0 ft (Nat.zero_le _) (by omega) (@midway_zero hs h ft hh)
  rwa [hashBits_zero, Nat.pow_zero, Nat.mul_one, Nat.mod_eq_of_lt (load64_lt h)] at hrun

theorem foldlM_addHash_holds : ∀ (hs pre : List Hash32) (ft : FPTree), Holds pre ft →
    pre.length + hs.length < 2 ^ 31 → ∃ ft', hs.foldlM FPTree.addHash ft = .ok ft' ∧ Holds (pre ++ hs) ft'
  | [], pre, ft, hh, _ => ⟨ft, rfl, by simpa using hh⟩
  | h :: hs, pre, ft, hh, hlen => by
    obtain ⟨ft₁, h₁, hh₁⟩ := addHash_holds hh (by simp only [List.length_cons] at hlen; omega) h
    obtain ⟨ft₂, h₂, hh₂⟩ := foldlM_addHash_holds hs (pre ++ [h]) ft₁ hh₁ (by simp at hlen ⊢; omega)
    exact ⟨ft₂, by rw [List.foldlM_cons, h₁]; exact h₂, by simpa using hh₂⟩

/-! ## Count nodes are the sums of their children -/

section Sums

variable (hs : List Hash32)

theorem count_nodeOf : ∀ {T : List Hash32}, T.length < 2 ^ 31 → (nodeOf T).count = T.length
  | [], _ => rfl
  | [g], _ => by rw [Node.count, if_pos (leaf_nodeOf_single g)]; rfl
  | g :: g' :: t, ht => by rw [Node.count, if_neg (by rw [leaf_nodeOf_pair g g' t ht]; decide)]; rfl

theorem fp_nodeOf : ∀ T : List Hash32, (nodeOf T).fp = xorAll T
  | [] => rfl
  | [_] => (Nat.xor_zero _).symm
  | _ :: _ :: _ => rfl

theorem under_children (l b : ℕ) (hl : l < 64) : ∀ hs : List Hash32,
    (under hs l b).length = (under hs (l + 1) (2 * b)).length + (under hs (l + 1) (2 * b + 1)).length ∧
    xorAll (under hs l b) = xorAll (under hs (l + 1) (2 * b)) ^^^ xorAll (under hs (l + 1) (2 * b + 1))
  | [] => ⟨rfl, by simp [under, xorAll]⟩
  | g :: hs => by
    obtain ⟨ih₁, ih₂⟩ := under_children l b hl hs
    have hsucc := hashBits_succ g hl
    have hbit := Bool.toNat_le ((load64 g).testBit (63 - l))
    simp only [under, List.filter_cons, decide_eq_true_eq] at ih₁ ih₂ ⊢
    by_cases hg : hashBits g l = b
    · by_cases h0 : hashBits g (l + 1) = 2 * b
      · rw [if_pos hg, if_pos h0, if_neg (by omega)]
        simp only [List.length_cons, xorAll, List.foldr_cons] at ih₂ ⊢
        exact ⟨by omega, by rw [ih₂, Nat.xor_assoc]⟩
      · rw [if_pos hg, if_neg h0, if_pos (by omega)]
        simp only [List.length_cons, xorAll, List.foldr_cons] at ih₂ ⊢
        exact ⟨by omega, by rw [ih₂, ← Nat.xor_assoc, Nat.xor_comm (fpOf g), Nat.xor_assoc]⟩
    · rw [if_neg hg, if_neg (by omega), if_neg (by omega)]
      exact ⟨ih₁, ih₂⟩

theorem treeNode_count_children {l b : ℕ} (hl : l < cachedBits) (hlen : hs.length < 2 ^ 31)
    (hne : (treeNode hs 0 l b).empty = false) (hnl : (treeNode hs 0 l b).leaf = false) :
    (treeNode hs 0 l b).c = (treeNode hs 0 (l + 1) (2 * b)).count + (treeNode hs 0 (l + 1) (2 * b + 1)).count ∧
    (treeNode hs 0 l b).fp = (treeNode hs 0 (l + 1) (2 * b)).fp ^^^ (treeNode hs 0 (l + 1) (2 * b + 1)).fp := by
  have hl64 : l < 64 := by simp only [cachedBits] at hl; omega
  have hv : VisibleFrom hs 0 l b := by
    by_contra hv; rw [treeNode, if_neg hv] at hne; exact absurd hne (by decide)
  rw [treeNode, if_pos hv] at hne hnl ⊢
  have h2 : 2 ≤ (under hs l b).length := by
    rcases hS : under hs l b with _ | ⟨g, _ | ⟨g', t⟩⟩
    · rw [hS] at hne; exact absurd hne (by decide)
    · rw [hS, leaf_nodeOf_single] at hnl; exact absurd hnl (by decide)
    · simp
  have hchild : ∀ c, c >>> 1 = b → treeNode hs 0 (l + 1) c = nodeOf (under hs (l + 1) c) := fun c hc => by
    rw [treeNode_below_visible hs (Nat.zero_le l) (Nat.lt_add_one l) (by simpa [hc] using hv) (by simpa [hc] using h2),
      treeNode_self]
  have hlt : ∀ c, (under hs (l + 1) c).length < 2 ^ 31 := fun c =>
    lt_of_le_of_lt (List.length_filter_le _ _) hlen
  obtain ⟨hc, hx⟩ := under_children l b hl64 hs
  rw [hchild (2 * b) (by rw [Nat.shiftRight_eq_div_pow]; omega), hchild (2 * b + 1) (by rw [Nat.shiftRight_eq_div_pow]; omega),
    count_nodeOf (hlt _), count_nodeOf (hlt _), fp_nodeOf, fp_nodeOf, fp_nodeOf, ← hc, ← hx]
  rcases hS : under hs l b with _ | ⟨g, _ | ⟨g', t⟩⟩
  · simp [hS] at h2
  · simp [hS] at h2
  · exact ⟨rfl, rfl⟩

end Sums

/-- The heap of a run of `addHash`, as the tree of the added ids describes it: at every
prefix of at most 24 bits, at its `cacheIndex`, the node of the tree; and every count
node's count and fingerprint are those of its two children. -/
structure TreeShape (hs : List Hash32) (ft : FPTree) : Prop where
  nodes : ∀ l ≤ cachedBits, ∀ b < 2 ^ l,
    (prefixOf l b).cacheIndex = some (heapIndex l b) ∧ ft.nodes (heapIndex l b) = treeNode hs 0 l b
  sums : ∀ l < cachedBits, ∀ b < 2 ^ l, (ft.nodes (heapIndex l b)).empty = false →
    (ft.nodes (heapIndex l b)).leaf = false →
    (ft.nodes (heapIndex l b)).c =
        (ft.nodes (heapIndex (l + 1) (2 * b))).count + (ft.nodes (heapIndex (l + 1) (2 * b + 1))).count ∧
      (ft.nodes (heapIndex l b)).fp =
        (ft.nodes (heapIndex (l + 1) (2 * b))).fp ^^^ (ft.nodes (heapIndex (l + 1) (2 * b + 1))).fp

/-- Every run of fewer than `2^31` `addHash` calls on an empty tree, repeated ids
included, returns without a panic, and its heap has the shape of the tree of the added
ids. -/
theorem addHash_tree_shape (hs : List Hash32) (hlen : hs.length < 2 ^ 31) :
    ∃ ft, hs.foldlM FPTree.addHash FPTree.new = .ok ft ∧ TreeShape hs ft := by
  obtain ⟨ft, hrun, hh⟩ := foldlM_addHash_holds hs [] FPTree.new holds_new (by simpa using hlen)
  rw [List.nil_append] at hh
  refine ⟨ft, hrun, fun l hl b hb => ⟨cacheIndex_prefixOf hl hb, hh l hl b hb⟩, fun l hl b hb hne hnl => ?_⟩
  have h2b : 2 * b + 1 < 2 ^ (l + 1) := by rw [Nat.pow_succ]; omega
  rw [hh l hl.le b hb] at hne hnl ⊢
  rw [hh (l + 1) hl _ (by omega), hh (l + 1) hl _ h2b]
  exact treeNode_count_children hs hl hlen hne hnl

example : treeNode [0, 0] 0 cachedBits 0 = ⟨0, 2⟩ := by decide

theorem addHash_tree_shape_twice :
    ([0, 0] : List Hash32).length < 2 ^ 31 ∧
      ∃ ft, ([0, 0] : List Hash32).foldlM FPTree.addHash FPTree.new = .ok ft ∧ TreeShape [0, 0] ft :=
  ⟨by decide, addHash_tree_shape [0, 0] (by decide)⟩

end Spacemesh.Dbsync
