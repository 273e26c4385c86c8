import Spacemesh.Dbsync.Prefix

/-!
# The in-memory fingerprint tree

`fpTree` and `inMemFPTree` of the dbsync tests: a heap of `2^25` nodes indexed
by `prefix.cacheIndex`, one per prefix of at most 24 bits, and a table of
`2^24` buckets holding the ids by their first 24 bits. A node is empty
(`c = 0`), a leaf (`c` has bit 31 set and holds the leaf's 24-bit bucket), or a
count node. A fingerprint is the XOR of the first 12 bytes of the ids, which is
`h / 2^160` of the big-endian value. A Go panic, including the runtime's for a
negative shift or an index out of range, is an `Except.error`.
-/

namespace Spacemesh.Dbsync

def nodeFlagLeaf : ℕ := 2 ^ 31

structure Node where
  fp : ℕ
  c : ℕ
  deriving DecidableEq, Repr

namespace Node

def empty (n : Node) : Bool := n.c = 0

def leaf (n : Node) : Bool := n.c &&& nodeFlagLeaf ≠ 0

def count (n : Node) : ℕ := if n.leaf then 1 else n.c

end Node

def fpOf (h : Hash32) : ℕ := h.val / 2 ^ 160

/-- `fpTree`: the node heap, every node empty at first. -/
structure FPTree where
  nodes : ℕ → Node

namespace FPTree

def new : FPTree := ⟨fun _ => ⟨0, 0⟩⟩

def set (ft : FPTree) (i : ℕ) (n : Node) : FPTree := ⟨Function.update ft.nodes i n⟩

def pushDown (ft : FPTree) (node : Node) (p : Prefix) : Except String FPTree :=
  if cachedBits ≤ p.len then .ok ft
  else do
    let q ← if node.c &&& 2 ^ (cachedBits - 1 - p.len) = 0 then p.left else p.right
    match q.cacheIndex with
    | none => .error "BUG: no idx for pushDownPrefix"
    | some i => if (ft.nodes i).empty then .ok (ft.set i node) else .error "BUG: non-empty push down node"

/-- The loop of `fpTree.addHash`. -/
def addHashLoop (h : Hash32) : ℕ → Prefix → ℕ → FPTree → Except String FPTree
  | 0, _, _, _ => .error "BUG: prefix too long"
  | fuel + 1, p, v, ft =>
    match p.cacheIndex with
    | none => .error "BUG: no cache idx"
    | some i =>
      let node := ft.nodes i
      if node.empty then .ok (ft.set i ⟨node.fp ^^^ fpOf h, load64 h >>> (64 - cachedBits) ||| nodeFlagLeaf⟩)
      else do
        let ft' ← if node.leaf then (ft.pushDown node p).map (·.set i ⟨node.fp ^^^ fpOf h, 2⟩)
          else .ok (ft.set i ⟨node.fp ^^^ fpOf h, (node.c + 1) % 2 ^ 32⟩)
        if cachedBits < p.len then .error "BUG: prefix too long"
        else if p.len = cachedBits then .ok ft'
        else do
          let p' ← if v &&& 2 ^ 63 = 0 then p.left else p.right
          addHashLoop h fuel p' ((v <<< 1) % 2 ^ 64) ft'

def addHash (ft : FPTree) (h : Hash32) : Except String FPTree :=
  addHashLoop h (cachedBits + 1) 0 (load64 h) ft

end FPTree

structure AggResult where
  tails : List ℕ
  fp : ℕ
  count : ℕ
  itype : Ordering
  deriving DecidableEq, Repr

def AggResult.update (r : AggResult) (n : Node) : AggResult :=
  { r with fp := r.fp ^^^ n.fp, count := (r.count + n.c) % 2 ^ 32 }

/-- The bucket of a prefix of at least 24 bits, `p.bits() << (24 - p.len())`; a
longer prefix makes the shift count negative, and Go panics. -/
def tailOf (p : Prefix) : Except String ℕ :=
  if p.len = cachedBits then .ok p.bits else .error "runtime error: negative shift amount"

namespace FPTree

def aggregateLeft (ft : FPTree) (v : ℕ) : ℕ → Prefix → AggResult → Except String AggResult
  | 0, _, _ => .error "BUG: prefix too long"
  | fuel + 1, p, r =>
    if cachedBits ≤ p.len then (tailOf p).map fun t => { r with tails := r.tails ++ [t] }
    else do
      let q ← p.right
      match q.cacheIndex with
      | none => .error "BUG: no idx"
      | some i =>
        let node := ft.nodes i
        if node.leaf then .ok { r with tails := r.tails ++ [node.c &&& (nodeFlagLeaf - 1)] }
        else if v &&& 2 ^ (63 - p.len) = 0 then do
          let l ← p.left
          aggregateLeft ft v fuel l (r.update node)
        else aggregateLeft ft v fuel q r

def aggregateRight (ft : FPTree) (v : ℕ) : ℕ → Prefix → AggResult → Except String AggResult
  | 0, _, _ => .error "BUG: prefix too long"
  | fuel + 1, p, r =>
    if cachedBits ≤ p.len then (tailOf p).map fun t => { r with tails := r.tails ++ [t] }
    else do
      let q ← p.left
      match q.cacheIndex with
      | none => .error "BUG: no idx"
      | some i =>
        let node := ft.nodes i
        if node.leaf then .ok { r with tails := r.tails ++ [node.c &&& (nodeFlagLeaf - 1)] }
        else if v &&& 2 ^ (63 - p.len) = 0 then aggregateRight ft v fuel q r
        else do
          let rt ← p.right
          aggregateRight ft v fuel rt (r.update node)

def aggregateInterval (ft : FPTree) (x y : Hash32) : Except String AggResult :=
  let r : AggResult := ⟨[], 0, 0, compare x y⟩
  match compare x y with
  | .eq => .ok (r.update (ft.nodes 0))
  | .lt => do
    let p := commonPrefix x y
    let l ← p.left
    let r ← ft.aggregateLeft (load64 x) (cachedBits + 1) l r
    let rt ← p.right
    ft.aggregateRight (load64 y) (cachedBits + 1) rt r
  | .gt => do
    let p1 ← preFirst1 y
    let r ← ft.aggregateRight (load64 y) (cachedBits + 1) p1 r
    let p0 ← preFirst0 x
    ft.aggregateLeft (load64 x) (cachedBits + 1) p0 r

end FPTree

def idWithinInterval (id x y : Hash32) : Ordering → Bool
  | .eq => true
  | .lt => x ≤ id ∧ id < y
  | .gt => id < y ∨ x ≤ id

structure FPResult where
  fp : ℕ
  count : ℕ
  deriving DecidableEq, Repr

/-- `inMemFPTree`: the tree and the ids of each 24-bit bucket, in order. -/
structure InMemFPTree where
  tree : FPTree
  ids : ℕ → List Hash32

/-- The insertion of `inMemFPTree.addHash`: before the first id greater than `h`. -/
def insertId (h : Hash32) : List Hash32 → List Hash32
  | [] => [h]
  | c :: cs => if h < c then h :: c :: cs else c :: insertId h cs

namespace InMemFPTree

def new : InMemFPTree := ⟨FPTree.new, fun _ => []⟩

def addHash (mft : InMemFPTree) (h : Hash32) : Except String InMemFPTree :=
  (mft.tree.addHash h).map fun t =>
    let idx := load64 h >>> (64 - cachedBits)
    ⟨t, Function.update mft.ids idx (insertId h (mft.ids idx))⟩

def addTail (mft : InMemFPTree) (x y : Hash32) (r : AggResult) (t : ℕ) : Except String AggResult :=
  if t < 2 ^ cachedBits then
    .ok ((mft.ids t).foldl (fun r id =>
      if idWithinInterval id x y r.itype then { r with fp := r.fp ^^^ fpOf id, count := (r.count + 1) % 2 ^ 32 }
      else r) r)
  else .error "runtime error: index out of range"

def aggregateInterval (mft : InMemFPTree) (x y : Hash32) : Except String FPResult := do
  let r ← mft.tree.aggregateInterval x y
  let r ← r.tails.foldlM (mft.addTail x y) r
  .ok ⟨r.fp, r.count⟩

def addHashes (mft : InMemFPTree) (hs : List Hash32) : Except String InMemFPTree :=
  hs.foldlM addHash mft

end InMemFPTree

/-- The reference of `testInMemFPTreeManyItems`: the fingerprint and the number
of the ids in the cyclic interval `[x, y)`, the whole set for `x = y`. -/
def referenceFP (hs : List Hash32) (x y : Hash32) : FPResult :=
  let inside := hs.filter fun h => idWithinInterval h x y (compare x y)
  ⟨inside.foldl (fun fp h => fp ^^^ fpOf h) 0, inside.length⟩

/-- With the one id `0` in the tree, the root is a leaf, and the whole-set query
adds its count word, the leaf flag, where the reference counts one id; a query
`[0, 1)` of two ids that agree on their first 8 bytes takes a 58-bit common
prefix, whose `left` panics. -/
theorem inMemFPTree_single_id_diverges :
    ((InMemFPTree.new.addHashes [0]).bind fun t => t.aggregateInterval 0 0) = .ok ⟨0, 2 ^ 31⟩ ∧
    referenceFP [0] 0 0 = ⟨0, 1⟩ ∧
    ((InMemFPTree.new.addHashes [0]).bind fun t => t.aggregateInterval 0 1) =
      .error "BUG: max prefix len reached" := by
  refine ⟨rfl, rfl, rfl⟩

end Spacemesh.Dbsync
