import Mathlib.Algebra.BigOperators.Group.List
import Mathlib.Algebra.Order.Ring.Nat
import Mathlib.Data.List.Pairwise
import Spacemesh.RangeSync.Segments

/-!
# Convergence of the reconciler

Runs of `runSync` and `runBoundedSync` between two sorted-set stores whose keys together
are `U`. Between rounds, the messages in flight are segments with disjoint ranges
(`RoundInv`): in the range of each, nothing has moved yet and `U` holds the keys of both
stores, or the sender already holds all of `U` there and the receiver is sent the rest.
Every other key of the tracked region `Z` is settled: both stores hold it exactly when `U`
does. A round keeps this (`roundInv_reply`) and lowers the weight of the segments in flight
(`Seg.weight`): a fingerprint weighs four times the keys of `U` in its range, less one, and
a split shares those keys between two halves that each hold some. So a full sync ends with
both stores equal to `A ∪ B` (`runSync_converges`), and no key is ever added twice to a
party (`reconcile_adds_each_key_once`).
-/

namespace Spacemesh.RangeSync

variable {α : Type} [LinearOrder α]

def Covers (r : α → Bool) (U s t : ItemStore α) : Prop :=
  ∀ k, r k = true → (k ∈ U.keys ↔ k ∈ s.keys ∨ k ∈ t.keys)

def Fresh (r : α → Bool) (l : List α) : Prop := ∀ k ∈ l, r k = false

def Untouched (r : α → Bool) (U s t : ItemStore α) (sa ta : List α) : Prop :=
  Covers r U s t ∧ Fresh r sa ∧ Fresh r ta

def SegOk (U s t : ItemStore α) (sa ta : List α) : Seg α → Prop
  | .fp x y ks => ks = s.rangeItems x y ∧ ks ≠ [] ∧ Untouched (inRange x y) U s t sa ta
  | .empty x y => s.rangeItems x y = [] ∧ Untouched (inRange x y) U s t sa ta
  | .contents x y ks => ks = s.rangeItems x y ∧ Untouched (inRange x y) U s t sa ta
  | .items x y ks => ks.Nodup ∧ (∀ k ∈ ks, inRange x y k = true) ∧ Agree (inRange x y) U s ∧
      (∀ k, inRange x y k = true → (k ∈ U.keys ↔ k ∈ t.keys ∨ k ∈ ks)) ∧ Fresh (inRange x y) ta
  | .emptySet => s.keys = [] ∧ Untouched (fun _ => true) U s t sa ta

def Seg.weight (U : ItemStore α) : Seg α → ℕ
  | .fp x y _ => 4 * (U.rangeItems x y).length - 1
  | .empty _ _ | .contents _ _ _ | .emptySet => 2
  | .items _ _ _ => 1

/-! ## Moving a segment's facts to other stores -/

omit [LinearOrder α] in
theorem Fresh.transfer {r : α → Bool} {l l' : List α} (h : Fresh r l)
    (hl : ∀ k ∈ l', r k = true → k ∈ l) : Fresh r l' :=
  fun k hk => Bool.eq_false_iff.2 fun hr => absurd (h k (hl k hk hr)) (by simp [hr])

omit [LinearOrder α] in
theorem Fresh.mono {r r' : α → Bool} {l : List α} (h : Fresh r l) (hr : ∀ k, r' k = true → r k = true) :
    Fresh r' l :=
  fun k hk => Bool.eq_false_iff.2 fun h' => absurd (hr k h') (by simp [h k hk])

theorem Untouched.transfer {r : α → Bool} {U s t s' t' : ItemStore α} {sa ta sa' ta' : List α}
    (h : Untouched r U s t sa ta) (hs : Agree r s s') (ht : Agree r t t')
    (hsa : ∀ k ∈ sa', r k = true → k ∈ sa) (hta : ∀ k ∈ ta', r k = true → k ∈ ta) :
    Untouched r U s' t' sa' ta' :=
  ⟨fun k hk => by rw [h.1 k hk, hs k hk, ht k hk], h.2.1.transfer hsa, h.2.2.transfer hta⟩

theorem Untouched.symm {r : α → Bool} {U s t : ItemStore α} {sa ta : List α}
    (h : Untouched r U s t sa ta) : Untouched r U t s ta sa :=
  ⟨fun k hk => (h.1 k hk).trans or_comm, h.2.2, h.2.1⟩

theorem Untouched.mono {r r' : α → Bool} {U s t : ItemStore α} {sa ta : List α}
    (h : Untouched r U s t sa ta) (hr : ∀ k, r' k = true → r k = true) : Untouched r' U s t sa ta :=
  ⟨fun k hk => h.1 k (hr k hk), h.2.1.mono hr, h.2.2.mono hr⟩

theorem SegOk.transfer {U s t s' t' : ItemStore α} {sa ta sa' ta' : List α} {g : Seg α}
    (h : SegOk U s t sa ta g) (hs : Agree g.range s s') (ht : Agree g.range t t')
    (hsa : ∀ k ∈ sa', g.range k = true → k ∈ sa) (hta : ∀ k ∈ ta', g.range k = true → k ∈ ta) :
    SegOk U s' t' sa' ta' g := by
  cases g with
  | fp x y ks =>
    obtain ⟨rfl, hne, hu⟩ := h
    exact ⟨ItemStore.rangeItems_congr s s' hs, hne, hu.transfer hs ht hsa hta⟩
  | empty x y =>
    obtain ⟨he, hu⟩ := h
    exact ⟨by rwa [← ItemStore.rangeItems_congr s s' hs], hu.transfer hs ht hsa hta⟩
  | contents x y ks =>
    obtain ⟨rfl, hu⟩ := h
    exact ⟨ItemStore.rangeItems_congr s s' hs, hu.transfer hs ht hsa hta⟩
  | items x y ks =>
    obtain ⟨hnd, hin, hU, hcov, hta'⟩ := h
    exact ⟨hnd, hin, fun k hk => (hU k hk).trans (hs k hk), fun k hk => by rw [hcov k hk, ht k hk],
      hta'.transfer hta⟩
  | emptySet =>
    obtain ⟨he, hu⟩ := h
    refine ⟨List.eq_nil_iff_forall_not_mem.2 fun k hk => ?_, hu.transfer hs ht hsa hta⟩
    simpa [he] using (hs k rfl).2 hk

theorem SegOk.keys {U s t : ItemStore α} {sa ta : List α} {g : Seg α} (h : SegOk U s t sa ta g) :
    g.keys.Nodup ∧ (∀ k ∈ g.keys, g.range k = true) ∧ ∀ k ∈ g.keys, k ∉ ta := by
  have hfresh : ∀ {r : α → Bool} {l : List α}, Fresh r ta → (∀ k ∈ l, r k = true) → ∀ k ∈ l, k ∉ ta :=
    fun hf hl k hk hkt => absurd (hf k hkt) (by simp [hl k hk])
  cases g with
  | contents x y ks =>
    obtain ⟨rfl, hu⟩ := h
    have hin : ∀ k ∈ s.rangeItems x y, inRange x y k = true := fun k hk => ((s.mem_rangeItems).1 hk).2
    exact ⟨s.rangeItems_nodup x y, hin, hfresh hu.2.2 hin⟩
  | items x y ks => exact ⟨h.1, h.2.1, hfresh h.2.2.2.2 h.2.1⟩
  | fp | empty | emptySet => simp [Seg.keys]

/-! ## Answering one segment -/

structure ReplyOk (U s t' : ItemStore α) (sa ta' : List α) (g : Seg α) (resp : List (Seg α)) :
    Prop where
  segOk : ∀ r ∈ resp, SegOk U t' s ta' sa r
  disjoint : resp.Pairwise Seg.Disjoint
  within : ∀ r ∈ resp, ∀ k, r.range k = true → g.range k = true
  settled : ∀ k, g.range k = true → (∀ r ∈ resp, r.range k = false) →
    (k ∈ s.keys ↔ k ∈ U.keys) ∧ (k ∈ t'.keys ↔ k ∈ U.keys)
  weight_lt : (resp.map (Seg.weight U)).sum < g.weight U

theorem ReplyOk.nil {U s t' : ItemStore α} {sa ta' : List α} {g : Seg α}
    (h : ∀ k, g.range k = true → (k ∈ s.keys ↔ k ∈ U.keys) ∧ (k ∈ t'.keys ↔ k ∈ U.keys))
    (hw : 0 < g.weight U) : ReplyOk U s t' sa ta' g [] :=
  ⟨by simp, List.Pairwise.nil, by simp, fun k hk _ => h k hk, hw⟩

theorem ReplyOk.single {U s t' : ItemStore α} {sa ta' : List α} {g r : Seg α}
    (h : SegOk U t' s ta' sa r) (hr : ∀ k, r.range k = true ↔ g.range k = true)
    (hw : r.weight U < g.weight U) : ReplyOk U s t' sa ta' g [r] :=
  ⟨by simpa using h, List.pairwise_singleton _ _, by simpa using fun k => (hr k).1,
    fun k hk hn => absurd ((hr k).2 hk) (by simp [hn r (List.mem_singleton_self r)]), by simpa using hw⟩

theorem length_rangeItems_pos {s : ItemStore α} {x y k : α} (hk : k ∈ s.keys) (hr : inRange x y k = true) :
    0 < (s.rangeItems x y).length :=
  List.length_pos_of_mem ((s.mem_rangeItems).2 ⟨hk, hr⟩)

@[simp] theorem Seg.range_subrange (t : ItemStore α) (x y : α) : (Seg.subrange t x y).range = inRange x y := by
  unfold Seg.subrange; split <;> rfl

theorem segOk_subrange {U s t : ItemStore α} {sa ta : List α} {a b : α} (h : Untouched (inRange a b) U t s ta sa) :
    SegOk U t s ta sa (Seg.subrange t a b) := by
  unfold Seg.subrange
  split_ifs with h0
  · exact ⟨List.length_eq_zero.1 h0, h⟩
  · exact ⟨rfl, fun he => h0 (by rw [he]; rfl), h⟩

theorem weight_subrange_le (U t : ItemStore α) {a b : α} (hU : 0 < (U.rangeItems a b).length) :
    (Seg.subrange t a b).weight U ≤ 4 * (U.rangeItems a b).length - 1 := by
  unfold Seg.subrange
  split_ifs <;> simp only [Seg.weight] <;> omega

theorem replyOk_fp (cfg : Config) {U s t : ItemStore α} {sa ta : List α} {x y : α} {ks : List α}
    (h : SegOk U s t sa ta (.fp x y ks)) : ReplyOk U s t sa ta (.fp x y ks) ((Seg.fp x y ks).reply cfg t) := by
  obtain ⟨rfl, hne, hu⟩ := h
  have hU : 0 < (U.rangeItems x y).length := by
    obtain ⟨k, hk⟩ := List.exists_mem_of_ne_nil _ hne
    obtain ⟨hks, hkr⟩ := (s.mem_rangeItems).1 hk
    exact length_rangeItems_pos ((hu.1 k hkr).2 (Or.inl hks)) hkr
  simp only [Seg.reply]
  split_ifs with heq hsmall hpos
  · refine ReplyOk.nil (fun k hk => ?_) (by simp only [Seg.weight]; omega)
    have hst : inRange x y k = true → (k ∈ s.keys ↔ k ∈ t.keys) := by
      simpa using congrArg (k ∈ ·) heq
    rw [hu.1 k hk, ← hst hk, or_self]
    exact ⟨Iff.rfl, Iff.rfl⟩
  · exact ReplyOk.single ⟨rfl, hu.symm⟩ (fun _ => Iff.rfl) (by simp only [Seg.weight]; omega)
  · exact ReplyOk.single ⟨List.length_eq_zero.1 (by omega), hu.symm⟩ (fun _ => Iff.rfl)
      (by simp only [Seg.weight]; omega)
  · have hc : ((t.rangeItems x y).length + 1) / 2 < (t.rangeItems x y).length := by
      have := cfg.maxSendRange_pos; omega
    obtain ⟨m, hm⟩ : ∃ m, (t.rangeItems x y)[((t.rangeItems x y).length + 1) / 2]? = some m :=
      ⟨_, List.getElem?_eq_getElem hc⟩
    obtain ⟨hmt, hmr, hmx, hlen⟩ := split_key (by omega) hm
    rw [hm]
    have hsplit := inRange_split hmr hmx
    have hsub : ∀ k, inRange x m k = true ∨ inRange m y k = true → inRange x y k = true :=
      fun k hk => (hsplit k).1.2 hk
    have hu1 : 0 < (U.rangeItems x m).length := by
      obtain ⟨k, hk⟩ := List.exists_mem_of_length_pos (by omega : 0 < (t.rangeItems x m).length)
      obtain ⟨hkt, hkr⟩ := (t.mem_rangeItems).1 hk
      exact length_rangeItems_pos ((hu.1 k (hsub k (Or.inl hkr))).2 (Or.inr hkt)) hkr
    have hu2 : 0 < (U.rangeItems m y).length :=
      length_rangeItems_pos ((hu.1 m hmr).2 (Or.inr hmt)) (inRange_left m y)
    refine ⟨fun r hr => ?_, List.pairwise_pair.2 fun k hk => ?_, fun r hr k hk => ?_, fun k hk hn => ?_, ?_⟩
    · simp only [List.mem_cons, List.mem_singleton, List.not_mem_nil, or_false] at hr
      rcases hr with rfl | rfl
      · exact segOk_subrange (hu.symm.mono fun k hk => hsub k (Or.inl hk))
      · exact segOk_subrange (hu.symm.mono fun k hk => hsub k (Or.inr hk))
    · simp only [Seg.range_subrange] at hk ⊢
      exact Bool.eq_false_iff.2 fun hk' => (hsplit k).2 ⟨hk, hk'⟩
    · simp only [List.mem_cons, List.mem_singleton, List.not_mem_nil, or_false] at hr
      rcases hr with rfl | rfl <;> simp only [Seg.range_subrange] at hk
      · exact hsub k (Or.inl hk)
      · exact hsub k (Or.inr hk)
    · have h1 := hn _ (List.mem_cons_self _ _)
      have h2 := hn _ (List.mem_cons_of_mem _ (List.mem_singleton_self _))
      simp only [Seg.range_subrange] at h1 h2
      rcases (hsplit k).1.1 hk with h | h <;> simp [h] at h1 h2
    · have hsum := U.length_rangeItems_split hmr hmx
      have hw1 := weight_subrange_le U t hu1
      have hw2 := weight_subrange_le U t hu2
      have hg : (Seg.fp x y (s.rangeItems x y)).weight U = 4 * (U.rangeItems x y).length - 1 := rfl
      simp only [List.map_cons, List.map_nil, List.sum_cons, List.sum_nil, hg]
      omega

theorem replyOk_empty (cfg : Config) {U s t : ItemStore α} {sa ta : List α} {x y : α}
    (h : SegOk U s t sa ta (.empty x y)) : ReplyOk U s t sa ta (.empty x y) ((Seg.empty x y).reply cfg t) := by
  obtain ⟨hs, hu⟩ := h
  have hns : ∀ k, inRange x y k = true → k ∉ s.keys := fun k hk hks => by
    simpa [hs] using (s.mem_rangeItems).2 ⟨hks, hk⟩
  simp only [Seg.reply]
  split_ifs with hpos
  · refine ReplyOk.single ⟨t.rangeItems_nodup x y, fun k hk => ((t.mem_rangeItems).1 hk).2,
      fun k hk => ?_, fun k hk => ?_, hu.2.1⟩ (fun _ => Iff.rfl) (by simp [Seg.weight])
    · rw [hu.1 k hk]; simp [hns k hk]
    · rw [hu.1 k hk, t.mem_rangeItems]; simp [hns k hk, hk]
  · refine ReplyOk.nil (fun k hk => ?_) (by simp [Seg.weight])
    have hnt : k ∉ t.keys := fun hkt => hpos (length_rangeItems_pos hkt hk).ne'
    rw [hu.1 k hk]; simp [hns k hk, hnt]

theorem replyOk_contents (cfg : Config) {U s t : ItemStore α} {sa ta : List α} {x y : α} {ks : List α}
    (h : SegOk U s t sa ta (.contents x y ks)) :
    ReplyOk U s (t.addAll ks) sa (ta ++ ks) (.contents x y ks) ((Seg.contents x y ks).reply cfg t) := by
  obtain ⟨rfl, hu⟩ := h
  have hadd : ∀ k, inRange x y k = true → (k ∈ (t.addAll (s.rangeItems x y)).keys ↔ k ∈ U.keys) :=
    fun k hk => by rw [hu.1 k hk, ItemStore.mem_addAll, s.mem_rangeItems]; simp [hk, or_comm]
  simp only [Seg.reply]
  split_ifs with hpos
  · refine ReplyOk.single ⟨t.rangeItems_nodup x y, fun k hk => ((t.mem_rangeItems).1 hk).2,
      fun k hk => (hadd k hk).symm, fun k hk => ?_, hu.2.1⟩ (fun _ => Iff.rfl) (by simp [Seg.weight])
    rw [hu.1 k hk, t.mem_rangeItems]; simp [hk]
  · refine ReplyOk.nil (fun k hk => ⟨?_, hadd k hk⟩) (by simp [Seg.weight])
    have hnt : k ∉ t.keys := fun hkt => hpos (length_rangeItems_pos hkt hk).ne'
    rw [hu.1 k hk]; simp [hnt]

theorem replyOk_items (cfg : Config) {U s t : ItemStore α} {sa ta : List α} {x y : α} {ks : List α}
    (h : SegOk U s t sa ta (.items x y ks)) :
    ReplyOk U s (t.addAll ks) sa (ta ++ ks) (.items x y ks) ((Seg.items x y ks).reply cfg t) :=
  ReplyOk.nil (fun k hk => ⟨(h.2.2.1 k hk).symm, by rw [h.2.2.2.1 k hk, ItemStore.mem_addAll]⟩)
    (by simp [Seg.weight])

theorem replyOk_emptySet (cfg : Config) {U s t : ItemStore α} {sa ta : List α}
    (h : SegOk U s t sa ta .emptySet) : ReplyOk U s t sa ta .emptySet (Seg.emptySet.reply cfg t) := by
  obtain ⟨hs, hu⟩ := h
  have hU : ∀ k, k ∈ U.keys ↔ k ∈ t.keys := fun k => by rw [hu.1 k rfl, hs]; simp
  simp only [Seg.reply]
  cases hm : t.keys.head? with
  | none =>
    refine ReplyOk.nil (fun k _ => ?_) (by simp [Seg.weight])
    rw [hU, hs, List.head?_eq_none_iff.1 hm]; simp
  | some m =>
    have hmt : m ∈ t.keys := List.mem_of_mem_head? hm
    dsimp only
    rw [if_pos (length_rangeItems_pos hmt (inRange_self_left m m)).ne']
    refine ReplyOk.single ⟨t.rangeItems_nodup m m, fun k _ => inRange_self_left m k,
      fun k _ => hU k, fun k _ => ?_, hu.2.1.mono fun _ _ => rfl⟩ (fun k => by simp [Seg.range])
      (by simp [Seg.weight])
    rw [hU, t.mem_rangeItems, hs]; simp

theorem reply_spec (cfg : Config) {U s t : ItemStore α} {sa ta : List α} {g : Seg α}
    (h : SegOk U s t sa ta g) : ReplyOk U s (t.addAll g.keys) sa (ta ++ g.keys) g (g.reply cfg t) := by
  cases g with
  | fp => show ReplyOk U s t sa (ta ++ []) _ _; rw [List.append_nil]; exact replyOk_fp cfg h
  | empty => show ReplyOk U s t sa (ta ++ []) _ _; rw [List.append_nil]; exact replyOk_empty cfg h
  | contents => exact replyOk_contents cfg h
  | items => exact replyOk_items cfg h
  | emptySet => show ReplyOk U s t sa (ta ++ []) _ _; rw [List.append_nil]; exact replyOk_emptySet cfg h

/-! ## A round -/

/-- A run just before the party `T` reads the segments `segs` that `S` sent: each segment is
in flight, their ranges are disjoint, the keys of `Z` outside them are settled, and no key
has been added twice to a party. -/
structure RoundInv (U : ItemStore α) (Z : α → Prop) (S T : Party α) (segs : List (Seg α)) : Prop where
  segOk : ∀ g ∈ segs, SegOk U S.store T.store S.added T.added g
  disjoint : segs.Pairwise Seg.Disjoint
  settled : ∀ k, Z k → (∀ g ∈ segs, g.range k = false) →
    (k ∈ S.store.keys ↔ k ∈ U.keys) ∧ (k ∈ T.store.keys ↔ k ∈ U.keys)
  nodupS : S.added.Nodup
  nodupT : T.added.Nodup

theorem Seg.Disjoint.symm {g h : Seg α} (hd : g.Disjoint h) : h.Disjoint g :=
  fun k hk => Bool.eq_false_iff.2 fun hk' => by simp [hd k hk'] at hk

theorem eq_of_range {segs : List (Seg α)} (hd : segs.Pairwise Seg.Disjoint) {g g' : Seg α}
    (hg : g ∈ segs) (hg' : g' ∈ segs) {k : α} (hk : g.range k = true) (hk' : g'.range k = true) :
    g = g' := by
  by_contra hne
  simpa [hk'] using hd.forall (fun _ _ => Seg.Disjoint.symm) hg hg' hne k hk

section Keys

variable {segs : List (Seg α)} (hd : segs.Pairwise Seg.Disjoint)
  (hk : ∀ g ∈ segs, ∀ k ∈ g.keys, g.range k = true)
include hd hk

theorem mem_flatMap_keys {g : Seg α} (hg : g ∈ segs) {k : α} (hr : g.range k = true) :
    k ∈ segs.flatMap Seg.keys ↔ k ∈ g.keys := by
  rw [List.mem_flatMap]
  exact ⟨fun ⟨g', hg', hkg'⟩ => eq_of_range hd hg' hg (hk g' hg' k hkg') hr ▸ hkg', fun h => ⟨g, hg, h⟩⟩

omit hd in
theorem not_mem_flatMap_keys {k : α} (hr : ∀ g ∈ segs, g.range k = false) : k ∉ segs.flatMap Seg.keys := by
  rw [List.mem_flatMap]
  exact fun ⟨g, hg, hkg⟩ => absurd (hk g hg k hkg) (by simp [hr g hg])

end Keys

theorem sum_flatMap_add_length_le {β γ : Type} (f : β → List γ) (w : γ → ℕ) (v : β → ℕ) :
    ∀ l : List β, (∀ b ∈ l, ((f b).map w).sum < v b) →
      ((l.flatMap f).map w).sum + l.length ≤ (l.map v).sum
  | [], _ => le_rfl
  | b :: l, h => by
    have hb := h b (List.mem_cons_self _ _)
    have ih := sum_flatMap_add_length_le f w v l fun b' hb' => h b' (List.mem_cons_of_mem _ hb')
    simp only [List.flatMap_cons, List.map_append, List.sum_append, List.length_cons, List.map_cons,
      List.sum_cons]
    omega

theorem roundInv_reply (cfg : Config) {U : ItemStore α} {Z : α → Prop} {S T : Party α}
    {segs : List (Seg α)} (h : RoundInv U Z S T segs) :
    RoundInv U Z ⟨T.store.addAll (segs.flatMap Seg.keys), T.added ++ segs.flatMap Seg.keys⟩ S
        (segs.flatMap (Seg.reply cfg T.store)) ∧
      ((segs.flatMap (Seg.reply cfg T.store)).map (Seg.weight U)).sum + segs.length ≤
        (segs.map (Seg.weight U)).sum := by
  have hkeys := fun g hg => (h.segOk g hg).keys
  have hin : ∀ g ∈ segs, ∀ k ∈ g.keys, g.range k = true := fun g hg => (hkeys g hg).2.1
  have hR := fun g hg => reply_spec cfg (h.segOk g hg)
  have hagree : ∀ g ∈ segs, Agree g.range (T.store.addAll g.keys) (T.store.addAll (segs.flatMap Seg.keys)) :=
    fun g hg k hk => by
      rw [ItemStore.mem_addAll, ItemStore.mem_addAll, mem_flatMap_keys h.disjoint hin hg hk]
  refine ⟨⟨fun r hr => ?_, ?_, fun k hZ hn => ?_, ?_, h.nodupS⟩,
    sum_flatMap_add_length_le _ _ _ segs fun g hg => (hR g hg).weight_lt⟩
  · obtain ⟨g, hg, hrg⟩ := List.mem_flatMap.1 hr
    have hw := (hR g hg).within r hrg
    refine ((hR g hg).segOk r hrg).transfer ((hagree g hg).mono hw) (fun _ _ => Iff.rfl)
      (fun k hk hr' => ?_) (fun k hk _ => hk)
    rw [List.mem_append, mem_flatMap_keys h.disjoint hin hg (hw k hr')] at hk
    exact List.mem_append.2 hk
  · refine List.pairwise_flatMap.2 ⟨fun g hg => (hR g hg).disjoint,
      h.disjoint.imp_of_mem fun hg hg' hd r hr r' hr' k hk => Bool.eq_false_iff.2 fun hk' => ?_⟩
    have := hd k ((hR _ hg).within r hr k hk)
    simp [(hR _ hg').within r' hr' k hk'] at this
  · by_cases hk : ∃ g ∈ segs, g.range k = true
    · obtain ⟨g, hg, hk⟩ := hk
      obtain ⟨h1, h2⟩ := (hR g hg).settled k hk fun r hr => hn r (List.mem_flatMap.2 ⟨g, hg, hr⟩)
      exact ⟨(hagree g hg k hk).symm.trans h2, h1⟩
    · have hout : ∀ g ∈ segs, g.range k = false := fun g hg => by simpa using fun h' => hk ⟨g, hg, h'⟩
      obtain ⟨h1, h2⟩ := h.settled k hZ hout
      refine ⟨?_, h1⟩
      rw [ItemStore.mem_addAll, or_iff_left (not_mem_flatMap_keys hin hout)]
      exact h2
  · refine List.nodup_append.2 ⟨h.nodupT, List.nodup_flatMap.2 ⟨fun g hg => (hkeys g hg).1,
      h.disjoint.imp_of_mem fun hg hg' hd k hk hk' => ?_⟩, fun k hk hk' => ?_⟩
    · have := hd k (hin _ hg k hk)
      simp [hin _ hg' k hk'] at this
    · obtain ⟨g, hg, hkg⟩ := List.mem_flatMap.1 hk'
      exact (hkeys g hg).2.2 k hkg hk

/-! ## A run -/

def Sent (chunk : ℕ) (segs : List (Seg α)) (msgs : List (SyncMessage α)) (aDone : Bool) : Prop :=
  (aDone = false ∧ segs ≠ [] ∧ msgs = (segs.map (Seg.msgs chunk)).flatten ++ [sendEndRound]) ∨
    (aDone = true ∧ segs = [] ∧ msgs = [sendDone])

omit [LinearOrder α] in
theorem sent_reply (chunk : ℕ) (resp : List (Seg α)) :
    Sent chunk resp ((resp.map (Seg.msgs chunk)).flatten ++
      [if resp.isEmpty then sendDone else sendEndRound]) resp.isEmpty := by
  cases resp with
  | nil => exact Or.inr ⟨rfl, rfl, rfl⟩
  | cons r rs => exact Or.inl ⟨rfl, List.cons_ne_nil _ _, rfl⟩

def NoReAdd (r : RunResult α) : Prop := r.a.added.Nodup ∧ r.b.added.Nodup

/-- The run ended with both parties done and neither answering the other's `Done`, and the
keys of `Z` are settled. -/
def Converged (U : ItemStore α) (Z : α → Prop) (r : RunResult α) : Prop :=
  (∃ n, r.outcome = .ok n) ∧
    ∀ k, Z k → (k ∈ r.a.store.keys ↔ k ∈ U.keys) ∧ (k ∈ r.b.store.keys ↔ k ∈ U.keys)

theorem doRunSyncFrom_spec (cfgA cfgB : Config) {U : ItemStore α} {Z : α → Prop} :
    ∀ (fuel i : ℕ) (a b : Party α) (segs : List (Seg α)) (msgs : List (SyncMessage α)) (aDone : Bool),
      RoundInv U Z a b segs → Sent cfgA.itemChunkSize segs msgs aDone →
      NoReAdd (doRunSyncFrom cfgA cfgB fuel i a b msgs aDone) ∧
        ((segs.map (Seg.weight U)).sum < fuel → Converged U Z (doRunSyncFrom cfgA cfgB fuel i a b msgs aDone))
  | 0, _, _, _, _, _, _, h, _ => ⟨⟨h.nodupS, h.nodupT⟩, fun hlt => absurd hlt (Nat.not_lt_zero _)⟩
  | fuel + 1, i, a, b, segs, msgs, aDone, h, hs => by
    rcases hs with ⟨rfl, hne, rfl⟩ | ⟨rfl, rfl, rfl⟩
    · obtain ⟨hB, hwB⟩ := roundInv_reply cfgB h
      simp only [doRunSyncFrom, process_segs cfgB cfgA.itemChunkSize_pos b.store segs
        (fun g hg => (h.segOk g hg).keys.2.1) h.disjoint, Party.absorb, Bool.false_and, Bool.false_eq_true,
        if_false]
      cases hE : (segs.flatMap (Seg.reply cfgB b.store)).isEmpty
      · obtain ⟨hA, hwA⟩ := roundInv_reply cfgA hB
        simp only [hE, if_false, process_segs cfgA cfgB.itemChunkSize_pos a.store _
          (fun g hg => (hB.segOk g hg).keys.2.1) hB.disjoint, Bool.and_false, Bool.false_eq_true, if_false,
          Bool.not_false, Bool.false_and]
        have hB0 : (segs.flatMap (Seg.reply cfgB b.store)) ≠ [] := by simpa using hE
        have ih := doRunSyncFrom_spec cfgA cfgB fuel (i + 1) _ _ _ _ _ hA (sent_reply _ _)
        exact ⟨ih.1, fun hlt => ih.2 (by
          have := List.length_pos.2 hB0; have := List.length_pos.2 hne; omega)⟩
      · have hB0 := List.isEmpty_iff.1 hE
        rw [hB0] at hB
        simp only [hB0, List.map_nil, List.flatten_nil, List.nil_append, List.isEmpty_nil, if_true,
          process_done, Bool.false_and, Bool.and_self, Bool.false_eq_true, if_false, List.append_nil]
        exact ⟨⟨hB.nodupT, hB.nodupS⟩, fun _ => ⟨⟨_, rfl⟩, fun k hZ =>
          (hB.settled k hZ (by simp)).symm⟩⟩
    · simp only [doRunSyncFrom, process_done, Party.absorb, List.append_nil, Bool.not_true,
        Bool.and_false, Bool.and_self, Bool.false_eq_true, if_false, if_true]
      exact ⟨⟨h.nodupS, h.nodupT⟩, fun _ => ⟨⟨_, rfl⟩, fun k hZ => h.settled k hZ (by simp)⟩⟩

/-! ## Opening a sync -/

/-- The segment `InitiateBounded` sends for `[x, y)`: its contents when they are fewer than
`maxSendRange`, and its fingerprint otherwise. -/
def openSeg (cfg : Config) (s : ItemStore α) (x y : α) : Seg α :=
  if (s.rangeItems x y).length < cfg.maxSendRange then .contents x y (s.rangeItems x y)
  else .fp x y (s.rangeItems x y)

/-- The segment `Initiate` sends: the empty set, or the whole set read from its minimum. -/
def initSeg (cfg : Config) (s : ItemStore α) : Seg α :=
  match s.keys.head? with
  | none => .emptySet
  | some m => openSeg cfg s m m

theorem initiateBounded_eq (cfg : Config) (s : ItemStore α) (x y : α) :
    initiateBounded cfg s (some x) (some y) =
      if (s.rangeItems x y).length = 0 then .error (.panic "empty full min-min range")
      else .ok ((openSeg cfg s x y).msgs cfg.itemChunkSize ++ [sendEndRound]) := by
  simp only [initiateBounded, ItemStore.getRangeInfo, ItemStore.rangeInfo_count, ItemStore.rangeInfo_start,
    ItemStore.rangeInfo_fingerprint, openSeg, Option.getD_some]
  split_ifs <;> simp [Seg.msgs, sendItems_cyclicFrom]

theorem initiate_eq (cfg : Config) (s : ItemStore α) :
    initiate cfg s = .ok ((initSeg cfg s).msgs cfg.itemChunkSize ++ [sendEndRound]) := by
  unfold initiate initSeg
  cases hm : s.keys.head? with
  | none => rfl
  | some m =>
    rw [initiateBounded_eq, if_neg (length_rangeItems_pos (List.mem_of_mem_head? hm) (inRange_self_left m m)).ne']

theorem segOk_openSeg (cfg : Config) {U a b : ItemStore α} (hU : ∀ k, k ∈ U.keys ↔ k ∈ a.keys ∨ k ∈ b.keys)
    {x y : α} (hne : a.rangeItems x y ≠ []) : SegOk U a b [] [] (openSeg cfg a x y) := by
  have hu : Untouched (inRange x y) U a b [] [] := ⟨fun k _ => hU k, by simp [Fresh], by simp [Fresh]⟩
  unfold openSeg
  split_ifs
  · exact ⟨rfl, hu⟩
  · exact ⟨rfl, hne, hu⟩

theorem segOk_initSeg (cfg : Config) {U a b : ItemStore α} (hU : ∀ k, k ∈ U.keys ↔ k ∈ a.keys ∨ k ∈ b.keys) :
    SegOk U a b [] [] (initSeg cfg a) := by
  unfold initSeg
  cases hm : a.keys.head? with
  | none => exact ⟨List.head?_eq_none_iff.1 hm, fun k _ => hU k, by simp [Fresh], by simp [Fresh]⟩
  | some m =>
    exact segOk_openSeg cfg hU
      (List.ne_nil_of_mem ((a.mem_rangeItems).2 ⟨List.mem_of_mem_head? hm, inRange_self_left m m⟩))

theorem range_initSeg (cfg : Config) (s : ItemStore α) (k : α) : (initSeg cfg s).range k = true := by
  unfold initSeg openSeg
  split
  · rfl
  · split_ifs <;> exact inRange_self_left _ k

theorem roundInv_start {U : ItemStore α} {Z : α → Prop} {a b : ItemStore α} {g : Seg α}
    (hg : SegOk U a b [] [] g) (hZ : ∀ k, Z k → g.range k = true) : RoundInv U Z ⟨a, []⟩ ⟨b, []⟩ [g] :=
  ⟨by simpa using hg, List.pairwise_singleton _ _,
    fun k hk hn => absurd (hZ k hk) (by simp [hn g (List.mem_singleton_self g)]), List.nodup_nil,
    List.nodup_nil⟩

theorem runSync_eq (cfgA cfgB : Config) (a b : ItemStore α) (maxRounds : ℕ) :
    runSync cfgA cfgB a b maxRounds = doRunSyncFrom cfgA cfgB maxRounds 0 ⟨a, []⟩ ⟨b, []⟩
      (([initSeg cfgA a].map (Seg.msgs cfgA.itemChunkSize)).flatten ++ [sendEndRound]) false := by
  simp [runSync, runFrom, initiate_eq, doRunSync]

/-! ## Convergence and no re-add -/

/-- A full sync between any two stores ends after finitely many rounds with no error and no
panic, both parties done and neither answering the other's `Done`, and both stores holding
exactly the keys of `A ∪ B`. -/
theorem runSync_converges (cfgA cfgB : Config) (a b : ItemStore α) :
    ∃ N, ∀ extra, (∃ n, (runSync cfgA cfgB a b (N + extra)).outcome = .ok n) ∧
      ∀ k, (k ∈ (runSync cfgA cfgB a b (N + extra)).a.store.keys ↔ k ∈ a.keys ∨ k ∈ b.keys) ∧
        (k ∈ (runSync cfgA cfgB a b (N + extra)).b.store.keys ↔ k ∈ a.keys ∨ k ∈ b.keys) := by
  have hU : ∀ k, k ∈ (a.addAll b.keys).keys ↔ k ∈ a.keys ∨ k ∈ b.keys := fun k => ItemStore.mem_addAll
  have hinv : RoundInv (a.addAll b.keys) (fun _ => True) ⟨a, []⟩ ⟨b, []⟩ [initSeg cfgA a] :=
    roundInv_start (segOk_initSeg cfgA hU) fun k _ => range_initSeg cfgA a k
  refine ⟨(initSeg cfgA a).weight (a.addAll b.keys) + 1, fun extra => ?_⟩
  obtain ⟨hok, hkeys⟩ := (doRunSyncFrom_spec cfgA cfgB ((initSeg cfgA a).weight (a.addAll b.keys) + 1 + extra)
    0 _ _ _ _ _ hinv (Or.inl ⟨rfl, List.cons_ne_nil _ _, rfl⟩)).2 (by simp; omega)
  rw [runSync_eq]
  exact ⟨hok, fun k => by simpa only [hU] using hkeys k trivial⟩

/-- In every run, full or bounded, whatever the sets, the bounds and the round limit, no key
is added twice to either party's store. -/
theorem reconcile_adds_each_key_once (cfgA cfgB : Config) (a b : ItemStore α) (x y : α) (maxRounds : ℕ) :
    ((runSync cfgA cfgB a b maxRounds).a.added.Nodup ∧ (runSync cfgA cfgB a b maxRounds).b.added.Nodup) ∧
      ((runBoundedSync cfgA cfgB a b x y maxRounds).a.added.Nodup ∧
        (runBoundedSync cfgA cfgB a b x y maxRounds).b.added.Nodup) := by
  have hU : ∀ k, k ∈ (a.addAll b.keys).keys ↔ k ∈ a.keys ∨ k ∈ b.keys := fun k => ItemStore.mem_addAll
  refine ⟨?_, ?_⟩
  · have hinv : RoundInv (a.addAll b.keys) (fun _ => False) ⟨a, []⟩ ⟨b, []⟩ [initSeg cfgA a] :=
      roundInv_start (segOk_initSeg cfgA hU) fun _ h => h.elim
    rw [runSync_eq]
    exact (doRunSyncFrom_spec cfgA cfgB _ 0 _ _ _ _ _ hinv (Or.inl ⟨rfl, List.cons_ne_nil _ _, rfl⟩)).1
  · unfold runBoundedSync
    rw [initiateBounded_eq]
    split_ifs with h0
    · exact ⟨List.nodup_nil, List.nodup_nil⟩
    · have hinv : RoundInv (a.addAll b.keys) (fun _ => False) ⟨a, []⟩ ⟨b, []⟩ [openSeg cfgA a x y] :=
        roundInv_start (segOk_openSeg cfgA hU fun he => h0 (by rw [he]; rfl)) fun _ h => h.elim
      have := (doRunSyncFrom_spec cfgA cfgB maxRounds 0 _ _ _
        ((openSeg cfgA a x y).msgs cfgA.itemChunkSize ++ [sendEndRound]) _ hinv
        (Or.inl ⟨rfl, List.cons_ne_nil _ _, by simp⟩)).1
      simpa [runFrom, doRunSync] using this

end Spacemesh.RangeSync
