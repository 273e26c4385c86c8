import Spacemesh.RangeSync.Run

/-!
# Rounds as segments

A round of the exchange read range by range. A segment is what one party sends about one
range of keys: its fingerprint, an empty range, the range's contents with its keys, its
keys alone in reply, or the empty set. `Seg.reply` is what the receiver's `handleMessage`
sends back for a segment, read off its store in that range only (`reply_congr`).
`process_segs` says that `Process` on a round of segments with disjoint ranges adds their
keys and answers each of them from the store the round started with.
-/

namespace Spacemesh.RangeSync

variable {α : Type} [LinearOrder α]

def Agree (r : α → Bool) (s t : ItemStore α) : Prop := ∀ k, r k = true → (k ∈ s.keys ↔ k ∈ t.keys)

/-- What one party sends the other about one range in a round. -/
inductive Seg (α : Type)
  /-- `SendFingerprint` of the sender's keys `ks` of `[x, y)`. -/
  | fp (x y : α) (ks : List α)
  /-- `SendEmptyRange`: the sender holds no key of `[x, y)`. -/
  | empty (x y : α)
  /-- `SendRangeContents` and `SendItems` of the sender's keys `ks` of `[x, y)`. -/
  | contents (x y : α) (ks : List α)
  /-- `SendItems` alone, of the keys `ks` of `[x, y)`. -/
  | items (x y : α) (ks : List α)
  /-- `SendEmptySet`: the sender has no key at all. -/
  | emptySet

namespace Seg

def range : Seg α → α → Bool
  | .fp x y _ | .empty x y | .contents x y _ | .items x y _ => inRange x y
  | .emptySet => fun _ => true

def keys : Seg α → List α
  | .contents _ _ ks | .items _ _ ks => ks
  | _ => []

def msgs (chunk : ℕ) : Seg α → List (SyncMessage α)
  | .fp x y ks => [sendFingerprint x y ks ks.length]
  | .empty x y => [sendEmptyRange x y]
  | .contents x y ks => sendRangeContents x y ks.length :: sendItems ks.length chunk ks
  | .items _ _ ks => sendItems ks.length chunk ks
  | .emptySet => [sendEmptySet]

def Disjoint (g h : Seg α) : Prop := ∀ k, g.range k = true → h.range k = false

/-- `processSubrange`: an empty range, or the fingerprint of the keys of `t` there. -/
def subrange (t : ItemStore α) (x y : α) : Seg α :=
  if (t.rangeItems x y).length = 0 then .empty x y else .fp x y (t.rangeItems x y)

/-- The segments the receiver with store `t` sends back for a segment: `handleMessage` of its
first message, read by range. A fingerprint that differs is answered with the range's
contents when they are few, and else split at the receiver's middle key. -/
def reply (cfg : Config) (t : ItemStore α) : Seg α → List (Seg α)
  | .fp x y ks =>
    let l := t.rangeItems x y
    if ks = l then []
    else if l.length ≤ cfg.maxSendRange then
      if l.length ≠ 0 then [.contents x y l] else [.empty x y]
    else
      match l[(l.length + 1) / 2]? with
      | none => []
      | some m => [subrange t x m, subrange t m y]
  | .empty x y | .contents x y _ =>
    if (t.rangeItems x y).length ≠ 0 then [.items x y (t.rangeItems x y)] else []
  | .items _ _ _ => []
  | .emptySet =>
    match t.keys.head? with
    | none => []
    | some m => if (t.rangeItems m m).length ≠ 0 then [.items m m (t.rangeItems m m)] else []

end Seg

/-! ## Replies read the receiver's store in the range only -/

theorem split_key {s : ItemStore α} {x y m : α} {c : ℕ} (hc : 0 < c) (h : (s.rangeItems x y)[c]? = some m) :
    m ∈ s.keys ∧ inRange x y m = true ∧ m ≠ x ∧ (s.rangeItems x m).length = c := by
  obtain ⟨hcn, rfl⟩ := List.getElem?_eq_some_iff.1 h
  exact ⟨((s.mem_rangeItems).1 (List.getElem_mem _)).1, ((s.mem_rangeItems).1 (List.getElem_mem _)).2,
    s.rangeItems_getElem hc hcn⟩

theorem Agree.mono {r r' : α → Bool} {s t : ItemStore α} (h : Agree r s t)
    (hr : ∀ k, r' k = true → r k = true) : Agree r' s t :=
  fun k hk => h k (hr k hk)

theorem agree_addAll {r : α → Bool} (s : ItemStore α) {ks : List α} (hks : ∀ k ∈ ks, r k = false) :
    Agree r (s.addAll ks) s := fun k hk => by
  rw [ItemStore.mem_addAll]
  exact ⟨fun h => h.resolve_right fun h' => by simp [hks k h'] at hk, Or.inl⟩

theorem subrange_congr {t t' : ItemStore α} {x y m : α} (h : Agree (inRange x y) t t')
    (hm : inRange x y m = true) (hmx : m ≠ x) :
    Seg.subrange t x m = Seg.subrange t' x m ∧ Seg.subrange t m y = Seg.subrange t' m y := by
  have h1 : t.rangeItems x m = t'.rangeItems x m :=
    ItemStore.rangeItems_congr t t' (h.mono fun k hk => ((inRange_split hm hmx k).1.2 (Or.inl hk)))
  have h2 : t.rangeItems m y = t'.rangeItems m y :=
    ItemStore.rangeItems_congr t t' (h.mono fun k hk => ((inRange_split hm hmx k).1.2 (Or.inr hk)))
  simp only [Seg.subrange, h1, h2, and_self]

theorem reply_congr (cfg : Config) {t t' : ItemStore α} {g : Seg α} (h : Agree g.range t t') :
    g.reply cfg t = g.reply cfg t' := by
  cases g with
  | fp x y ks =>
    have hl : t.rangeItems x y = t'.rangeItems x y := ItemStore.rangeItems_congr t t' h
    simp only [Seg.reply, hl]
    split_ifs with h1 h2
    · rfl
    · rfl
    · rfl
    · split
      · rfl
      · rename_i m hm
        have hc : 0 < ((t'.rangeItems x y).length + 1) / 2 := by have := cfg.maxSendRange_pos; omega
        obtain ⟨-, hmr, hmx, -⟩ := split_key hc hm
        obtain ⟨e1, e2⟩ := subrange_congr h hmr hmx
        rw [e1, e2]
  | empty x y | contents x y _ =>
    simp only [Seg.reply, ItemStore.rangeItems_congr t t' h]
  | items => rfl
  | emptySet => rw [ItemStore.eq_of_mem_iff t fun k => h k rfl]

/-! ## The messages of a segment -/

omit [LinearOrder α] in
theorem flatten_itemBatches {chunk : ℕ} (hchunk : 0 < chunk) :
    ∀ (n : ℕ) (ks : List α), ks.length ≤ n * chunk → (itemBatches chunk n ks).flatten = ks
  | 0, [], _ => rfl
  | 0, _ :: _, h => by simp at h
  | _ + 1, [], _ => rfl
  | n + 1, k :: ks, h => by
    have hdrop : ((k :: ks).drop chunk).length ≤ n * chunk := by
      rw [List.length_drop]; rw [Nat.succ_mul] at h; omega
    simp only [itemBatches, List.flatten_cons, flatten_itemBatches hchunk n _ hdrop, List.take_append_drop]

theorem processStep_itemBatch (cfg : Config) {st : ProcessState α} (hp : st.panic = none) (ks : List α) :
    processStep cfg st { type := .itemBatch, keys := ks } =
      { st with store := st.store.addAll ks, added := st.added ++ ks } := by
  simp [processStep, hp]

theorem foldl_sendItems (cfg : Config) {chunk : ℕ} (hchunk : 0 < chunk) (ks : List α)
    (st : ProcessState α) (hp : st.panic = none) :
    (sendItems ks.length chunk ks).foldl (processStep cfg) st =
      { st with store := st.store.addAll ks, added := st.added ++ ks } := by
  suffices h : ∀ (bs : List (List α)) (st : ProcessState α), st.panic = none →
      (bs.map fun b => ({ type := .itemBatch, keys := b } : SyncMessage α)).foldl (processStep cfg) st =
        { st with store := st.store.addAll bs.flatten, added := st.added ++ bs.flatten } by
    rw [sendItems, List.take_length, h _ st hp,
      flatten_itemBatches hchunk _ _ (Nat.le_mul_of_pos_right _ hchunk)]
  intro bs
  induction bs with
  | nil => intro st _; simp only [List.map_nil, List.foldl_nil, List.flatten_nil, List.append_nil]; rfl
  | cons b bs ih =>
    intro st hp
    rw [List.map_cons, List.foldl_cons, processStep_itemBatch cfg hp,
      ih { st with store := st.store.addAll b, added := st.added ++ b } hp]
    simp [ItemStore.addAll_append]

theorem sendItems_cyclicFrom (s : ItemStore α) (x y : α) (chunk : ℕ) :
    sendItems (s.rangeItems x y).length chunk (s.cyclicFrom x) =
      sendItems (s.rangeItems x y).length chunk (s.rangeItems x y) := by
  rw [sendItems, sendItems, List.take_length, ← s.rangeItems_eq_take]

/-! ## Handling the first message of a segment -/

theorem handleMessage_of_bounds (cfg : Config) (s : ItemStore α) {msg : SyncMessage α} {x y : α}
    (ht : msg.type ≠ .emptySet ∧ msg.type ≠ .probe) (hx : msg.x = some x) (hy : msg.y = some y) :
    handleMessage cfg s msg = handleRange cfg s msg x y := by
  simp [handleMessage, ht, hx, hy]

theorem handleRange_of_sendItems (cfg : Config) (s : ItemStore α) {msg : SyncMessage α} (x y : α)
    (ht : msg.type = .emptyRange ∨ msg.type = .rangeContents ∨ msg.type = .emptySet) :
    handleRange cfg s msg x y =
      if (s.rangeItems x y).length ≠ 0 then
        ⟨sendItems (s.rangeItems x y).length cfg.itemChunkSize (s.rangeItems x y), .ok false⟩
      else ⟨[], .ok true⟩ := by
  rcases ht with ht | ht | ht <;>
    simp only [handleRange, ht, ItemStore.rangeInfo_count, ItemStore.rangeInfo_start, sendItems_cyclicFrom]

theorem processSubrange_eq (s : ItemStore α) (x y : α) (chunk : ℕ) :
    [processSubrange s x y] = (Seg.subrange s x y).msgs chunk := by
  unfold processSubrange Seg.subrange
  split <;> simp_all [Seg.msgs]

theorem handleMessage_fp (cfg : Config) (s : ItemStore α) (x y : α) (ks : List α) :
    handleMessage cfg s (sendFingerprint x y ks ks.length) =
      ⟨(((Seg.fp x y ks).reply cfg s).map (Seg.msgs cfg.itemChunkSize)).flatten,
        .ok ((Seg.fp x y ks).reply cfg s).isEmpty⟩ := by
  rw [handleMessage_of_bounds cfg s (by simp [sendFingerprint]) rfl rfl]
  simp only [handleRange, sendFingerprint, ItemStore.rangeInfo_fingerprint, ItemStore.rangeInfo_count, ItemStore.rangeInfo_start,
    Seg.reply, Option.some.injEq]
  split_ifs with h1 h2 h3
  · rfl
  · simp [Seg.msgs, sendItems_cyclicFrom]
  · simp [Seg.msgs]
  · have hc : ((s.rangeItems x y).length + 1) / 2 < (s.rangeItems x y).length := by
      have := cfg.maxSendRange_pos; omega
    rw [ItemStore.rangeInfo_endKey s hc, List.getElem?_eq_getElem hc]
    simp [← processSubrange_eq]

theorem handleMessage_emptyRange (cfg : Config) (s : ItemStore α) {msg : SyncMessage α} {x y : α}
    (ht : msg.type = .emptyRange ∨ msg.type = .rangeContents) (hx : msg.x = some x) (hy : msg.y = some y) :
    handleMessage cfg s msg =
      ⟨(((Seg.empty x y).reply cfg s).map (Seg.msgs cfg.itemChunkSize)).flatten,
        .ok ((Seg.empty x y).reply cfg s).isEmpty⟩ := by
  have ht' : msg.type ≠ .emptySet ∧ msg.type ≠ .probe := by rcases ht with h | h <;> simp [h]
  rw [handleMessage_of_bounds cfg s ht' hx hy, handleRange_of_sendItems cfg s x y (ht.imp_right Or.inl)]
  simp only [Seg.reply]
  split_ifs <;> simp [Seg.msgs]

theorem handleMessage_emptySet (cfg : Config) (s : ItemStore α) :
    handleMessage cfg s sendEmptySet =
      ⟨((Seg.emptySet.reply cfg s).map (Seg.msgs cfg.itemChunkSize)).flatten,
        .ok (Seg.emptySet.reply cfg s).isEmpty⟩ := by
  simp only [handleMessage, sendEmptySet, true_or, if_true, Seg.reply]
  cases s.keys.head? with
  | none => simp
  | some m =>
    dsimp only
    rw [handleRange_of_sendItems cfg s _ _ (Or.inr (Or.inr rfl))]
    split_ifs <;> simp [Seg.msgs]

/-! ## Processing a round -/

theorem isEmpty_append_eq {β : Type} (a b : List β) : (a ++ b).isEmpty = (a.isEmpty && b.isEmpty) := by
  cases a <;> rfl

theorem processStep_handled (cfg : Config) {st : ProcessState α} (hp : st.panic = none)
    (he : st.err = none) {msg : SyncMessage α} (ht : msg.type ≠ .itemBatch) {out : List (SyncMessage α)}
    {d : Bool} (h : handleMessage cfg st.store msg = ⟨out, .ok d⟩) :
    processStep cfg st msg = { st with sent := st.sent ++ out, done := st.done && d } := by
  simp [processStep, hp, he, ht, h]

theorem foldl_msgs (cfg : Config) {chunk : ℕ} (hchunk : 0 < chunk) (g : Seg α) {st : ProcessState α}
    (hp : st.panic = none) (he : st.err = none) :
    (g.msgs chunk).foldl (processStep cfg) st =
      { st with
        store := st.store.addAll g.keys
        added := st.added ++ g.keys
        sent := st.sent ++ ((g.reply cfg st.store).map (Seg.msgs cfg.itemChunkSize)).flatten
        done := st.done && (g.reply cfg st.store).isEmpty } := by
  cases g with
  | fp x y ks =>
    rw [Seg.msgs, List.foldl_cons, List.foldl_nil,
      processStep_handled cfg hp he (by simp [sendFingerprint]) (handleMessage_fp cfg st.store x y ks)]
    simp [Seg.keys]
    rfl
  | empty x y =>
    rw [Seg.msgs, List.foldl_cons, List.foldl_nil, processStep_handled cfg hp he (by simp [sendEmptyRange])
      (handleMessage_emptyRange cfg st.store (Or.inl rfl) rfl rfl)]
    simp [Seg.keys]
    rfl
  | contents x y ks =>
    rw [Seg.msgs, List.foldl_cons, processStep_handled cfg hp he (by simp [sendRangeContents])
      (handleMessage_emptyRange cfg st.store (Or.inr rfl) rfl rfl),
      foldl_sendItems cfg hchunk ks _ ?_]
    · rfl
    · exact hp
  | items x y ks =>
    rw [Seg.msgs, foldl_sendItems cfg hchunk ks st hp]
    simp [Seg.reply, Seg.keys]
  | emptySet =>
    rw [Seg.msgs, List.foldl_cons, List.foldl_nil, processStep_handled cfg hp he (by simp [sendEmptySet])
      (handleMessage_emptySet cfg st.store)]
    simp [Seg.keys]
    rfl

theorem foldl_segs (cfg : Config) {chunk : ℕ} (hchunk : 0 < chunk) :
    ∀ (segs : List (Seg α)) (st : ProcessState α), st.panic = none → st.err = none →
      (∀ g ∈ segs, ∀ k ∈ g.keys, g.range k = true) → segs.Pairwise Seg.Disjoint →
      (segs.map (Seg.msgs chunk)).flatten.foldl (processStep cfg) st =
        { st with
          store := st.store.addAll (segs.flatMap Seg.keys)
          added := st.added ++ segs.flatMap Seg.keys
          sent := st.sent ++ ((segs.flatMap (Seg.reply cfg st.store)).map (Seg.msgs cfg.itemChunkSize)).flatten
          done := st.done && (segs.flatMap (Seg.reply cfg st.store)).isEmpty }
  | [], st, _, _, _, _ => by simp only [List.map_nil, List.flatten_nil, List.foldl_nil, List.flatMap_nil,
      List.append_nil, List.isEmpty_nil, Bool.and_true]; rfl
  | g :: gs, st, hp, he, hk, hd => by
    have hr : gs.flatMap (Seg.reply cfg (st.store.addAll g.keys)) = gs.flatMap (Seg.reply cfg st.store) :=
      List.flatMap_congr fun h hh => reply_congr cfg (agree_addAll st.store fun k hkg =>
        (List.pairwise_cons.1 hd).1 h hh k (hk g (List.mem_cons_self _ _) k hkg))
    rw [List.map_cons, List.flatten_cons, List.foldl_append, foldl_msgs cfg hchunk g hp he,
      foldl_segs cfg hchunk gs _ ?_ ?_ (fun h hh => hk h (List.mem_cons_of_mem _ hh)) (List.pairwise_cons.1 hd).2]
    · simp only [hr, List.flatMap_cons, ItemStore.addAll_append, List.append_assoc, List.map_append,
        List.flatten_append, isEmpty_append_eq, Bool.and_assoc]
    · exact hp
    · exact he

omit [LinearOrder α] in
theorem getMessages_endRound :
    ∀ (ms : List (SyncMessage α)), (∀ m ∈ ms, m.type ≠ .endRound ∧ m.type ≠ .done) →
      getMessages (ms ++ [sendEndRound]) none = (ms, false, none)
  | [], _ => rfl
  | m :: ms, h => by
    have hm := h m (List.mem_cons_self _ _)
    have ih := getMessages_endRound ms fun m' hm' => h m' (List.mem_cons_of_mem _ hm')
    rw [List.cons_append, getMessages]
    split
    · exact absurd ‹_› hm.1
    · exact absurd ‹_› hm.2
    · rw [ih]

omit [LinearOrder α] in
theorem type_of_mem_msgs {chunk : ℕ} {g : Seg α} {m : SyncMessage α} (hm : m ∈ g.msgs chunk) :
    m.type ≠ .endRound ∧ m.type ≠ .done := by
  have hitems : ∀ {n : ℕ} {ks : List α}, m ∈ sendItems n chunk ks → m.type = .itemBatch := by
    intro n ks h
    obtain ⟨b, -, rfl⟩ := List.mem_map.1 h
    rfl
  cases g <;> simp only [Seg.msgs, List.mem_cons, List.mem_singleton, List.not_mem_nil, or_false] at hm
  all_goals first
    | (rcases hm with rfl | hm; · simp [sendRangeContents]); simp [hitems hm]
    | simp [hitems hm]
    | subst hm; simp [sendFingerprint, sendEmptyRange, sendEmptySet]

theorem process_segs (cfg : Config) {chunk : ℕ} (hchunk : 0 < chunk) (s : ItemStore α)
    (segs : List (Seg α)) (hk : ∀ g ∈ segs, ∀ k ∈ g.keys, g.range k = true)
    (hd : segs.Pairwise Seg.Disjoint) :
    process cfg s ((segs.map (Seg.msgs chunk)).flatten ++ [sendEndRound]) none =
      ⟨s.addAll (segs.flatMap Seg.keys), segs.flatMap Seg.keys,
        ((segs.flatMap (Seg.reply cfg s)).map (Seg.msgs cfg.itemChunkSize)).flatten ++
          [if (segs.flatMap (Seg.reply cfg s)).isEmpty then sendDone else sendEndRound],
        .ok (segs.flatMap (Seg.reply cfg s)).isEmpty⟩ := by
  have hmsgs : ∀ m ∈ (segs.map (Seg.msgs chunk)).flatten, m.type ≠ .endRound ∧ m.type ≠ .done := by
    intro m hm
    obtain ⟨l, hl, hml⟩ := List.mem_flatten.1 hm
    obtain ⟨g, -, rfl⟩ := List.mem_map.1 hl
    exact type_of_mem_msgs hml
  simp only [process, getMessages_endRound _ hmsgs, Bool.false_eq_true, if_false,
    foldl_segs cfg hchunk segs ⟨s, [], [], true, none, none⟩ rfl rfl hk hd, Bool.true_and]
  simp

theorem process_done (cfg : Config) (s : ItemStore α) : process cfg s [sendDone] none = ⟨s, [], [], .ok true⟩ :=
  rfl

end Spacemesh.RangeSync
