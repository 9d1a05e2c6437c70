import BlazingSql.Properties.PartitionCounts

/-!
# output cache の中身

`ClusterStep` の output cache は、受理した batch を `cache` に受理した順にためる。
Merge kernel はこの cache を入力にする。ここでは cache に入るものを多重集合で数え、
どの実行でも何も失われず、何も二度入らないことを示す。

* `contribution` — action の列を node `p` で実行したとき、node `n` の cache に入るもの
* `ClusterState.toCome` — node `n` の cache にこれから入るもの：`n` へ向かう data message と、
  各 node の実行中の task の残りの action と、まだ始まっていない task
* `Contents` — cache の中身とこれから入るものを合わせると、最初の状態でこれから入るものになる。
  task が始まったときに読む `set_empty_part_for_non_master_node` で action が変わらなければ、
  どの一歩でも保たれる（`Contents.step`）
* `cache_eq_of_released` — 全部の node が `wait_for_count` を抜けたとき、node の cache は
  最初の状態でこれから入るものに等しい

task が始まる時刻は決まっていないので、flag で action が変わる形（group のない形）では、
どの task が空の table を入れるかが実行で変わる。その形はここでは扱わない。
-/

namespace BlazingSql

open ClusterState

/-! ## cache に入るもの -/

/-- action の列 `acts` を node `p` で実行したとき、node `n` の cache に入るもの。
`p = n` なら自分の cache が受理するもの、それと `n` に送るもの。 -/
def contribution (dropEmpty : Bool) (acts : List DistributeAction) (p n : Nat) :
    Multiset BlazingTable :=
  (if p = n then (localDeposits dropEmpty acts : Multiset BlazingTable) else 0) +
    (messagesTo n acts : Multiset BlazingTable)

section Contribution

variable (d : Bool) (rest : List DistributeAction) (p n : Nat)

@[simp] theorem contribution_nil : contribution d [] p n = 0 := by
  simp [contribution, localDeposits, messagesTo]

@[simp] theorem contribution_addToCache (t : BlazingTable) (allowEmpty : Bool) :
    contribution d (.addToCache t allowEmpty :: rest) p n =
      (if p = n ∧ accepts d t allowEmpty = true then {t} else 0) + contribution d rest p n := by
  unfold contribution
  by_cases hp : p = n <;> cases ha : accepts d t allowEmpty <;>
    simp [localDeposits, messagesTo, hp, ha, ← Multiset.coe_add, ← Multiset.cons_coe]

@[simp] theorem contribution_incrementNodeCount (q : Nat) :
    contribution d (.incrementNodeCount q :: rest) p n = contribution d rest p n := by
  simp [contribution, localDeposits, messagesTo]

@[simp] theorem contribution_transmit (t : BlazingTable) (q : Nat) :
    contribution d (.transmit t q :: rest) p n =
      (if q = n then {t} else 0) + contribution d rest p n := by
  unfold contribution
  by_cases hq : q = n <;> simp [localDeposits, messagesTo, hq, ← Multiset.coe_add, add_left_comm]

@[simp] theorem contribution_setEmptyPart :
    contribution d (.setEmptyPart :: rest) p n = contribution d rest p n := by
  simp [contribution, localDeposits, messagesTo]

theorem contribution_append (a b : List DistributeAction) :
    contribution d (a ++ b) p n = contribution d a p n + contribution d b p n := by
  unfold contribution
  split <;> simp [← Multiset.coe_add, add_assoc, add_left_comm]

theorem contribution_flatten (L : List (List DistributeAction)) :
    contribution d L.flatten p n = (L.map fun a => contribution d a p n).sum := by
  induction L with
  | nil => simp
  | cons a L ih => rw [List.flatten_cons, contribution_append, ih, List.map_cons, List.sum_cons]

end Contribution

/-! ## これから入るもの -/

/-- data message のうち、node `n` へ向かうものの中身。 -/
def payloadsTo (D : List DataMessage) (n : Nat) : Multiset BlazingTable :=
  ((D.filter fun m => m.target = n).map DataMessage.payload : List BlazingTable)

@[simp] theorem payloadsTo_nil (n : Nat) : payloadsTo [] n = 0 := rfl

theorem payloadsTo_append (D D' : List DataMessage) (n : Nat) :
    payloadsTo (D ++ D') n = payloadsTo D n + payloadsTo D' n := by
  simp [payloadsTo]

theorem payloadsTo_cons (m : DataMessage) (D : List DataMessage) (n : Nat) :
    payloadsTo (m :: D) n = (if m.target = n then {m.payload} else 0) + payloadsTo D n := by
  unfold payloadsTo
  by_cases h : m.target = n <;> simp [h, List.filter_cons]

/-- node `p` の実行中の task の残りの action と、まだ始まっていない task が、node `n` の
cache に入れるもの。まだ始まっていない task は flag を `false` と読むとする。 -/
def DistNode.toCome (d : DistributeSetup) (x : DistNode) (p n : Nat) : Multiset BlazingTable :=
  (x.running.map fun acts => contribution (d.dropEmpty p) acts p n).sum +
    (x.waiting.map fun b => contribution (d.dropEmpty p) (d.taskActions p false b) p n).sum

/-- node `n` の cache にこれから入るもの。 -/
def ClusterState.toCome (d : DistributeSetup) (s : ClusterState) (n : Nat) :
    Multiset BlazingTable :=
  payloadsTo s.dataInFlight n + ∑ p ∈ Finset.range d.totalNodes, (s.nodes p).toCome d p n

/-- 一つの node の状態を置き換えると、和の中のその node の項だけが置き換わる。 -/
theorem sum_toCome_update (d : DistributeSetup) (nodes : Nat → DistNode) {q : Nat}
    (hq : q < d.totalNodes) (x : DistNode) (n : Nat) :
    ∑ p ∈ Finset.range d.totalNodes, (Function.update nodes q x p).toCome d p n +
        (nodes q).toCome d q n =
      ∑ p ∈ Finset.range d.totalNodes, (nodes p).toCome d p n + x.toCome d q n := by
  have hmem := Finset.mem_range.mpr hq
  have hrest : ∀ p ∈ (Finset.range d.totalNodes).erase q,
      (Function.update nodes q x p).toCome d p n = (nodes p).toCome d p n :=
    fun p hp => by rw [Function.update_noteq (Finset.ne_of_mem_erase hp)]
  rw [← Finset.add_sum_erase _ (fun p => (Function.update nodes q x p).toCome d p n) hmem,
    ← Finset.add_sum_erase _ (fun p => (nodes p).toCome d p n) hmem, Finset.sum_congr rfl hrest,
    Function.update_same]
  abel

/-! ## 保存則 -/

variable {d : DistributeSetup} {batches : Nat → List BlazingTable} {s s' : ClusterState}

/-- node `n` の cache の中身と `n` にこれから入るものを合わせると、最初の状態で `n` に
これから入るものになる。 -/
def ContentsAt (d : DistributeSetup) (batches : Nat → List BlazingTable) (s : ClusterState)
    (n : Nat) : Prop :=
  ((s.nodes n).cache : Multiset BlazingTable) + s.toCome d n =
    (ClusterState.init batches).toCome d n

/-- どの node でも `ContentsAt` が成り立つこと。 -/
def Contents (d : DistributeSetup) (batches : Nat → List BlazingTable) (s : ClusterState) :
    Prop :=
  ∀ n, ContentsAt d batches s n

theorem contents_init : Contents d batches (ClusterState.init batches) :=
  fun _ => zero_add _

section Node

variable {n : Nat}

/--
node `q` を `x` に、network を `D` にする一歩。どの node `n` についても、`n` の cache と
`n` へ向かう data message と `q` がこれから入れるものの和が変わらなければ、保存則は保たれる。
`q` が node の番号の外なら、`q` の task は変わらないこと。
-/
theorem ContentsAt.update (hc : ContentsAt d batches s n) {q : Nat} {x : DistNode}
    {D : List DataMessage}
    (hq : q < d.totalNodes ∨ x.running = (s.nodes q).running ∧ x.waiting = (s.nodes q).waiting)
    (hnodes : s'.nodes = Function.update s.nodes q x) (hD : s'.dataInFlight = D)
    (hbal : ((if n = q then x.cache else (s.nodes n).cache : List BlazingTable) :
        Multiset BlazingTable) + payloadsTo D n + x.toCome d q n =
      ((s.nodes n).cache : Multiset BlazingTable) + payloadsTo s.dataInFlight n +
        (s.nodes q).toCome d q n) :
    ContentsAt d batches s' n := by
  unfold ContentsAt at hc ⊢
  have hcache : (s'.nodes n).cache = if n = q then x.cache else (s.nodes n).cache := by
    rw [hnodes, Function.update_apply]
    split <;> rfl
  -- 和の中の `q` の項を置き換える
  have hsum : ∑ p ∈ Finset.range d.totalNodes, (s'.nodes p).toCome d p n +
      (s.nodes q).toCome d q n =
      ∑ p ∈ Finset.range d.totalNodes, (s.nodes p).toCome d p n + x.toCome d q n := by
    rw [hnodes]
    rcases hq with hq | ⟨hr, hw⟩
    · exact sum_toCome_update d s.nodes hq x n
    · have hx : x.toCome d q n = (s.nodes q).toCome d q n := by
        simp only [DistNode.toCome, hr, hw]
      have hterm : ∀ p, (Function.update s.nodes q x p).toCome d p n = (s.nodes p).toCome d p n := by
        intro p
        rw [Function.update_apply]
        split
        · subst p
          exact hx
        · rfl
      simp only [hterm, hx]
  refine add_right_cancel (b := (s.nodes q).toCome d q n) ?_
  calc ((s'.nodes n).cache : Multiset BlazingTable) + s'.toCome d n + (s.nodes q).toCome d q n
      = ((if n = q then x.cache else (s.nodes n).cache : List BlazingTable) :
          Multiset BlazingTable) + payloadsTo D n + x.toCome d q n +
          ∑ p ∈ Finset.range d.totalNodes, (s.nodes p).toCome d p n := by
        rw [ClusterState.toCome, hD, hcache, add_assoc, add_assoc, hsum]
        abel
    _ = ((s.nodes n).cache : Multiset BlazingTable) + s.toCome d n +
          (s.nodes q).toCome d q n := by
        rw [hbal, ClusterState.toCome]
        abel
    _ = (ClusterState.init batches).toCome d n + (s.nodes q).toCome d q n := by
        rw [hc]

/-- cache を変えない node `q` の一歩。`q` がこれから入れるものと network の釣り合いだけを見ればよい。 -/
theorem ContentsAt.setTask (hc : ContentsAt d batches s n) {q : Nat} {x : DistNode}
    {D : List DataMessage}
    (hq : q < d.totalNodes ∨ x.running = (s.nodes q).running ∧ x.waiting = (s.nodes q).waiting)
    (hnodes : s'.nodes = Function.update s.nodes q x) (hD : s'.dataInFlight = D)
    (hx : x.cache = (s.nodes q).cache)
    (hbal : payloadsTo D n + x.toCome d q n =
      payloadsTo s.dataInFlight n + (s.nodes q).toCome d q n) :
    ContentsAt d batches s' n :=
  hc.update hq hnodes hD <| by
    have hcache : (if n = q then x.cache else (s.nodes n).cache) = (s.nodes n).cache := by
      split
      · subst n
        exact hx
      · rfl
    rw [hcache, add_assoc, add_assoc, hbal]

/-- **どの一歩も node `n` の保存則を保つ。** task が始まるときに読む flag で、`n` に入るものが
変わらないとする。 -/
theorem ContentsAt.step
    (hflag : ∀ p b, contribution (d.dropEmpty p) (d.taskActions p true b) p n =
      contribution (d.dropEmpty p) (d.taskActions p false b) p n)
    (hc : ContentsAt d batches s n) (hstep : ClusterStep d s s') : ContentsAt d batches s' n := by
  cases hstep with
  | @startTask q pre post b hp h =>
    refine hc.setTask (.inl hp) rfl rfl rfl ?_
    have hb : contribution (d.dropEmpty q) (d.taskActions q (s.nodes q).emptyPartSet b) q n =
        contribution (d.dropEmpty q) (d.taskActions q false b) q n := by
      cases (s.nodes q).emptyPartSet
      · rfl
      · exact hflag q b
    simp only [DistNode.toCome, h, hb, setNode_dataInFlight, List.map_append, List.map_cons,
      List.map_nil, List.sum_append, List.sum_cons, List.sum_nil, add_zero]
    abel
  | @addAccepted q pre post t allowEmpty rest hp h ha =>
    refine hc.update (.inl hp) rfl rfl ?_
    simp only [DistNode.toCome, h, setNode_dataInFlight, List.map_append, List.map_cons,
      List.sum_append, List.sum_cons, contribution_addToCache, contribution_incrementNodeCount, ha,
      and_true]
    by_cases hnq : n = q
    · subst n
      simp only [if_true, ← Multiset.coe_add, Multiset.coe_singleton]
      abel
    · simp only [if_neg hnq, if_neg (Ne.symm hnq), zero_add]
  | @addRejected q pre post t allowEmpty rest hp h ha =>
    refine hc.setTask (.inl hp) rfl rfl rfl ?_
    simp [DistNode.toCome, h, ha]
  | @increment q r pre post rest hp h =>
    refine hc.setTask (.inl hp) rfl rfl rfl ?_
    simp [DistNode.toCome, h]
  | @transmit q r pre post t rest hp h =>
    refine hc.setTask (.inl hp) rfl rfl rfl ?_
    simp only [DistNode.toCome, h, List.map_append, List.map_cons, List.sum_append, List.sum_cons,
      contribution_transmit, payloadsTo_append, payloadsTo_cons, payloadsTo_nil, add_zero]
    abel
  | @setEmptyPart q pre post rest hp h =>
    refine hc.setTask (.inl hp) rfl rfl rfl ?_
    simp [DistNode.toCome, h]
  | @finishTask q pre post hp h =>
    refine hc.setTask (.inl hp) rfl rfl rfl ?_
    simp [DistNode.toCome, h]
  | @deliverData pre post m h =>
    refine hc.update (D := pre ++ post) (.inr ⟨by rfl, by rfl⟩) rfl rfl ?_
    simp only [h, payloadsTo_append, payloadsTo_cons, DistNode.toCome]
    by_cases hn : n = m.target
    · subst n
      simp only [if_true, ← Multiset.coe_add, Multiset.coe_singleton]
      abel
    · simp only [if_neg hn, if_neg (Ne.symm hn), zero_add]
  | sendCounts hp => exact hc.setTask (.inl hp) rfl rfl rfl rfl
  | deliverCount h => exact hc.setTask (.inr ⟨by rfl, by rfl⟩) rfl rfl rfl rfl
  | getTotal hp => exact hc.setTask (.inl hp) rfl rfl rfl rfl
  | release hp => exact hc.setTask (.inl hp) rfl rfl rfl rfl

theorem ClusterReachable.contentsAt
    (hflag : ∀ p b, contribution (d.dropEmpty p) (d.taskActions p true b) p n =
      contribution (d.dropEmpty p) (d.taskActions p false b) p n)
    (hs : ClusterReachable d batches s) : ContentsAt d batches s n := by
  induction hs with
  | refl => exact contents_init n
  | tail _ hstep ih => exact ih.step hflag hstep

end Node

theorem ClusterReachable.contents (hflag : ∀ p b, d.taskActions p true b = d.taskActions p false b)
    (hs : ClusterReachable d batches s) : Contents d batches s :=
  fun _ => hs.contentsAt fun p b => by rw [hflag p b]

/-! ## 全部の node が `wait_for_count` を抜けたとき -/

/-- `wait_for_count(total)` を抜けた node の output cache は、合計以上を受理している。
抜ける一歩がそれを確かめ、受理した数は減らない。 -/
theorem ClusterStep.released_le (hstep : ClusterStep d s s') {n T : Nat}
    (h : (s.nodes n).phase = .released T → T ≤ (s.nodes n).accepted)
    (hT : (s'.nodes n).phase = .released T) : T ≤ (s'.nodes n).accepted := by
  refine le_trans ?_ (hstep.accepted_le n)
  cases hstep <;> simp only [setNode_nodes] at hT <;> split at hT <;> subst_vars <;> simp_all

theorem ClusterReachable.released_le (hs : ClusterReachable d batches s) {n T : Nat}
    (hT : (s.nodes n).phase = .released T) : T ≤ (s.nodes n).accepted := by
  induction hs with
  | refl => simp [ClusterState.init, DistNode.init] at hT
  | tail _ hstep ih => exact hstep.released_le ih hT

/-- `wait_for_count` を抜けた node へ向かう data message は、network に残っていない。 -/
theorem payloadsTo_eq_zero_of_released (hs : ClusterReachable d batches s) {n T : Nat}
    (hT : (s.nodes n).phase = .released T) : payloadsTo s.dataInFlight n = 0 := by
  have htot := total_eq_accepted_add_inflight hs.balance hs.settled
    (show (s.nodes n).phase.totalCount = some T by simp [hT, DistPhase.totalCount])
  have hnone : s.inflightTo n = 0 := by
    have := hs.released_le hT
    omega
  simp only [inflightTo, List.countP_eq_zero, decide_eq_true_eq] at hnone
  simpa [payloadsTo] using hnone

/--
**全部の node が `wait_for_count` を抜けたとき、node `n` の cache の中身は、最初の状態で
`n` にこれから入るものに等しい。**

task は全部終わり、`n` へ向かう data message も残っていないので、保存則の右辺の全部が
cache に入っている。`emptyPartSet` の読みは `n` に入るものを変えないとする。
-/
theorem cache_eq_of_released_at {n : Nat}
    (hflag : ∀ p b, contribution (d.dropEmpty p) (d.taskActions p true b) p n =
      contribution (d.dropEmpty p) (d.taskActions p false b) p n)
    (hs : ClusterReachable d batches s)
    (hdone : ∀ p < d.totalNodes, ∃ T, (s.nodes p).phase = .released T)
    (hn : n < d.totalNodes) :
    ((s.nodes n).cache : Multiset BlazingTable) = (ClusterState.init batches).toCome d n := by
  have hidle : ∀ p ∈ Finset.range d.totalNodes, (s.nodes p).toCome d p n = 0 := by
    intro p hp
    obtain ⟨T, hT⟩ := hdone p (Finset.mem_range.mp hp)
    obtain ⟨hw, hr⟩ := hs.settled.idle p (by simp [hT])
    simp [DistNode.toCome, hw, hr]
  obtain ⟨T, hT⟩ := hdone n hn
  have := hs.contentsAt hflag
  rwa [ContentsAt, ClusterState.toCome, payloadsTo_eq_zero_of_released hs hT,
    Finset.sum_eq_zero hidle, add_zero, add_zero] at this

theorem cache_eq_of_released (hflag : ∀ p b, d.taskActions p true b = d.taskActions p false b)
    (hs : ClusterReachable d batches s)
    (hdone : ∀ p < d.totalNodes, ∃ T, (s.nodes p).phase = .released T) {n : Nat}
    (hn : n < d.totalNodes) :
    ((s.nodes n).cache : Multiset BlazingTable) = (ClusterState.init batches).toCome d n :=
  cache_eq_of_released_at (fun p b => by rw [hflag p b]) hs hdone hn

end BlazingSql
