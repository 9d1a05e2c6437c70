import BlazingSql.Properties.ClusterRefinement
import BlazingSql.Properties.ScalarAggregation
import BlazingSql.Properties.ScalarCluster

/-!
# group のない aggregation のクラスタと法則

`BlazingSql/Properties/ScalarAggregation.lean` は、node ごとに Distribute の action を順に
実行し、Merge の入力を並べ替えとして外から与えて法則を示した。ここでは同じことを
クラスタの遷移系で示す。task がどの順に始まって重なり、action がほかの遷移とどう交互に起こり、
data message がどの順に届いても、全部の node が `wait_for_count` を抜けたときの cache を
入力にした Merge の出力は法則を満たす。

master でない node の cache に入る空の table の数は、task の重なり方で変わる
（`BlazingSql/Properties/ScalarCluster.lean`）。それでも master の cache の中身は変わらず、
master でない node の cache は、batch があれば空でない。

* `contribution_taskActions_master` — 印をどう読んでも、task が master に入れるものは同じ
* `cache_perm_master` — 全部の node が `wait_for_count` を抜けたとき、master の cache は
  全部の batch の部分結果の並べ替え
* `EmptyPartOk` — master でない node の印と cache と実行中の task の関係。
  どの一歩でも保たれる（`EmptyPartInv.step`）
* `cache_ne_nil_of_released` — batch のある master でない node の cache は、
  `wait_for_count` を抜けたとき空でない
* `scalarLaw_of_released` — したがって、その cache を入力にした Merge の出力は法則を満たす
-/

namespace BlazingSql

open ClusterState

variable {d : DistributeSetup}

/-! ## master の cache -/

/-- **group のない形では、task が master の cache に入れるものは、印をどう読んでも同じ。**
master の task は batch を自分の cache に入れ、master でない node の task は batch を master に
送る。空の table は自分の cache に入れる。 -/
theorem contribution_taskActions_master (hG : d.expr.groupColumnIndices.length = 0) (p : Nat)
    (flag : Bool) (b : BlazingTable) :
    contribution (d.dropEmpty p) (d.taskActions p flag b) p d.masterNode =
      if p = d.masterNode then (if accepts (d.dropEmpty p) b false then {b} else 0) else {b} := by
  rw [taskActions_scalar hG]
  by_cases hp : p = d.masterNode <;> cases flag <;> simp [hp, sendMessage]

theorem sum_map_singleton_coe {α : Type} (l : List α) :
    (l.map fun a => ({a} : Multiset α)).sum = (l : Multiset α) := by
  induction l with
  | nil => rfl
  | cons a l ih => rw [List.map_cons, List.sum_cons, ih, Multiset.singleton_add, Multiset.cons_coe]

section Master

variable {hash : Row → Nat} {dropEmpty : Bool} {e : GroupByExpression} {c : ClusterInput}
  {s : ClusterState}

/-- **全部の node が `wait_for_count` を抜けたとき、master の cache は、全部の batch の
部分結果の並べ替え。** 部分結果は一行なので、空の table を捨てる cache でも受理される。
node `p` の Distribute には、部分結果がどの順で渡ってもよい。 -/
theorem cache_perm_master {batches : Nat → List BlazingTable} (hG : e.groupColumnIndices.length = 0)
    (hb : ∀ p, (batches p).Perm ((c.batchesOf p).map (scalarPartial e)))
    (hs : ClusterReachable (c.distributeSetup hash e dropEmpty) batches s)
    (hdone : ∀ p < c.totalNodes, ∃ T, (s.nodes p).phase = .released T) :
    (s.nodes c.masterNode).cache.Perm (c.batches.flatten.map (scalarPartial e)) := by
  set d := c.distributeSetup hash e dropEmpty
  have hflag := fun p b => (contribution_taskActions_master (d := d) hG p true b).trans
    (contribution_taskActions_master hG p false b).symm
  have hone : ∀ p, ∀ b ∈ batches p,
      contribution (d.dropEmpty p) (d.taskActions p false b) p d.masterNode = {b} := by
    intro p b hb'
    obtain ⟨b, -, rfl⟩ := List.mem_map.mp ((hb p).subset hb')
    rw [contribution_taskActions_master hG]
    split_ifs <;> simp_all [accepts, BlazingTable.numRows]
  apply Multiset.coe_eq_coe.mp
  refine (cache_eq_of_released_at hflag hs hdone c.master_lt).trans ?_
  rw [batches_eq_map_batchesOf c, List.map_flatten, List.map_map, coe_flatten_map_range]
  simp only [ClusterState.toCome, ClusterState.init, DistNode.toCome, DistNode.init, payloadsTo_nil,
    List.map_nil, List.sum_nil, add_zero, zero_add]
  refine Finset.sum_congr rfl fun p _ => ?_
  rw [List.map_congr_left (hone p), sum_map_singleton_coe]
  exact Multiset.coe_eq_coe.mpr (hb p)

end Master

/-! ## master でない node の空の table -/

/-- master でない node の印と cache と実行中の task の関係。`bs` はその node の batch。 -/
structure EmptyPartOk (bs : List BlazingTable) (x : DistNode) : Prop where
  /-- 印が立っていれば、cache は空でない -/
  set : x.emptyPartSet = true → x.cache ≠ []
  /-- cache が空なら、`setEmptyPart` を残す task の先頭は、空の table を入れる `addToCache` -/
  pending : x.cache = [] → ∀ acts ∈ x.running, .setEmptyPart ∈ acts →
    ∃ t rest, acts = .addToCache t true :: rest
  /-- task が始まっていれば、印が立っているか、`setEmptyPart` を残す task がある -/
  started : x.waiting = bs ∨ x.emptyPartSet = true ∨ ∃ acts ∈ x.running, .setEmptyPart ∈ acts

section Node

variable {bs : List BlazingTable} {x y : DistNode}

theorem emptyPartOk_init (bs : List BlazingTable) : EmptyPartOk bs (DistNode.init bs) :=
  ⟨nofun, fun _ _ h => by simp [DistNode.init] at h, .inl rfl⟩

/-- task が終わっても、どの task も始まっていなければ、batch のない node でない限り
cache は空でない。 -/
theorem EmptyPartOk.cache_ne_nil (h : EmptyPartOk bs x) (hw : x.waiting = [])
    (hr : x.running = []) (hbs : bs ≠ []) : x.cache ≠ [] := by
  rcases h.started with h' | h' | ⟨_, h', -⟩
  · exact absurd (hw ▸ h').symm hbs
  · exact h.set h'
  · simp [hr] at h'

/-- 印も task も batch も変えず、cache が空にならない一歩。 -/
theorem EmptyPartOk.frame (h : EmptyPartOk bs y) (hr : x.running = y.running)
    (hw : x.waiting = y.waiting) (hf : x.emptyPartSet = y.emptyPartSet)
    (hc : x.cache = [] → y.cache = []) : EmptyPartOk bs x :=
  ⟨fun h' => mt hc (h.set (hf ▸ h')), fun h' => hr ▸ h.pending (hc h'), hw ▸ hf ▸ hr ▸ h.started⟩

/-- 実行中の task の先頭の action `c` を `new` に置き換える一歩。`c` も `new` も
`setEmptyPart` でなく、cache が空のままなら `c` は空の table を入れる `addToCache` でない。 -/
theorem EmptyPartOk.replace (h : EmptyPartOk bs y) {pre post : List (List DistributeAction)}
    {c : DistributeAction} {rest : List DistributeAction} (new : List DistributeAction)
    (hy : y.running = pre ++ (c :: rest) :: post) (hx : x.running = pre ++ (new ++ rest) :: post)
    (hw : x.waiting = y.waiting) (hf : x.emptyPartSet = y.emptyPartSet)
    (hc : x.cache = [] → y.cache = []) (hcs : c ≠ .setEmptyPart) (hnew : .setEmptyPart ∉ new)
    (hadd : x.cache = [] → ∀ t, c ≠ .addToCache t true) : EmptyPartOk bs x := by
  -- 置き換えた task に `setEmptyPart` が残っていれば、元の task の残りにもある
  have hrest : ∀ acts, .setEmptyPart ∈ acts → acts ∈ x.running →
      acts ∈ y.running ∨ (acts = new ++ rest ∧ .setEmptyPart ∈ c :: rest) := by
    intro acts hs ha
    rw [hx, List.mem_append, List.mem_cons] at ha
    rw [hy, List.mem_append, List.mem_cons]
    rcases ha with ha | rfl | ha
    · exact .inl (.inl ha)
    · exact .inr ⟨rfl, List.mem_cons_of_mem c ((List.mem_append.mp hs).resolve_left hnew)⟩
    · exact .inl (.inr (.inr ha))
  refine ⟨fun h' => mt hc (h.set (hf ▸ h')), fun h0 acts ha hs => ?_, ?_⟩
  · rcases hrest acts hs ha with ha | ⟨-, hs⟩
    · exact h.pending (hc h0) acts ha hs
    · obtain ⟨t, _, ht⟩ := h.pending (hc h0) (c :: rest) (by simp [hy]) hs
      exact absurd (List.cons.inj ht).1 (hadd h0 t)
  · rcases h.started with h' | h' | ⟨acts, ha, hs⟩
    · exact .inl (hw ▸ h')
    · exact .inr (.inl (hf ▸ h'))
    · refine .inr (.inr ?_)
      rw [hy, List.mem_append, List.mem_cons] at ha
      rcases ha with ha | rfl | ha
      · exact ⟨acts, by simp [hx, ha], hs⟩
      · exact ⟨new ++ rest, by simp [hx],
          List.mem_append_right _ ((List.mem_cons.mp hs).resolve_left hcs.symm)⟩
      · exact ⟨acts, by simp [hx, ha], hs⟩

/-- master でない node `q` で task が始まる一歩。印を false と読んだ task は、空の table を
入れてから印を立てる。 -/
theorem EmptyPartOk.start (h : EmptyPartOk bs y) (hG : d.expr.groupColumnIndices.length = 0)
    {q : Nat} (hq : q ≠ d.masterNode) {pre post : List BlazingTable} {b : BlazingTable} :
    EmptyPartOk bs { y with waiting := pre ++ post
                            running := y.running ++ [d.taskActions q y.emptyPartSet b] } := by
  have hA := taskActions_scalar hG q y.emptyPartSet b
  rw [if_neg hq] at hA
  refine ⟨h.set, fun h0 acts ha hs => ?_, ?_⟩
  · rcases List.mem_append.mp ha with ha | ha
    · exact h.pending h0 acts ha hs
    · rw [List.mem_singleton.mp ha, hA] at hs ⊢
      revert hs
      cases y.emptyPartSet <;> simp [sendMessage]
  · rw [hA]
    cases y.emptyPartSet
    · exact .inr (.inr ⟨_, List.mem_append_right _ (List.mem_singleton_self _), by simp⟩)
    · exact .inr (.inl rfl)

end Node

/-- master でない node のどれでも `EmptyPartOk` が成り立つこと。 -/
def EmptyPartInv (d : DistributeSetup) (batches : Nat → List BlazingTable) (s : ClusterState) :
    Prop :=
  ∀ q, q ≠ d.masterNode → EmptyPartOk (batches q) (s.nodes q)

section Preserve

variable {batches : Nat → List BlazingTable} {s s' : ClusterState}

theorem EmptyPartInv.setNode (hinv : EmptyPartInv d batches s) {p : Nat} {x : DistNode}
    (hnodes : s'.nodes = Function.update s.nodes p x)
    (hx : p ≠ d.masterNode → EmptyPartOk (batches p) x) : EmptyPartInv d batches s' := by
  intro q hq
  rw [hnodes, Function.update_apply]
  split
  · subst q
    exact hx hq
  · exact hinv q hq

/-- **一歩ごとに `EmptyPartInv` は保たれる。** -/
theorem EmptyPartInv.step (hG : d.expr.groupColumnIndices.length = 0)
    (hinv : EmptyPartInv d batches s) (hstep : ClusterStep d s s') : EmptyPartInv d batches s' := by
  cases hstep with
  | startTask hp h => exact hinv.setNode rfl fun hq => (hinv _ hq).start hG hq
  | addAccepted hp h =>
    exact hinv.setNode rfl fun hq => (hinv _ hq).replace [.incrementNodeCount _] h rfl
      rfl rfl (by simp) nofun (by simp) (by simp)
  | @addRejected q pre post t allowEmpty rest hp h ha =>
    refine hinv.setNode rfl fun hq => (hinv _ hq).replace [] h rfl rfl rfl id nofun
      (by simp) fun _ t' he => ?_
    cases he
    simp [accepts] at ha
  | increment hp h =>
    exact hinv.setNode rfl fun hq => (hinv _ hq).replace [] h rfl rfl rfl id nofun
      (by simp) fun _ _ => nofun
  | transmit hp h =>
    exact hinv.setNode rfl fun hq => (hinv _ hq).replace [] h rfl rfl rfl id nofun
      (by simp) fun _ _ => nofun
  | @setEmptyPart q pre post rest hp h =>
    refine hinv.setNode rfl fun hq => ?_
    -- 印を立てる前に、同じ task が空の table を cache に入れている
    have hne : (s.nodes q).cache ≠ [] := fun h0 => by
      obtain ⟨t, _, ht⟩ := (hinv q hq).pending h0 (.setEmptyPart :: rest) (by simp [h])
        (List.mem_cons_self _ _)
      cases ht
    exact ⟨fun _ => hne, fun h0 => absurd h0 hne, .inr (.inl rfl)⟩
  | @finishTask q pre post hp h =>
    refine hinv.setNode rfl fun hq => ?_
    have hold := hinv q hq
    refine ⟨hold.set, fun h0 acts ha hs => hold.pending h0 acts (by simp [h] at ha ⊢; tauto) hs, ?_⟩
    rcases hold.started with h' | h' | ⟨acts, ha, hs⟩
    · exact .inl h'
    · exact .inr (.inl h')
    · refine .inr (.inr ⟨acts, ?_, hs⟩)
      have hne : acts ≠ [] := by rintro rfl; simp at hs
      simp only [h, List.mem_append, List.mem_cons] at ha ⊢
      tauto
  | deliverData h =>
    exact hinv.setNode rfl fun hq => (hinv _ hq).frame rfl rfl rfl (by simp)
  | sendCounts hp | deliverCount hp | getTotal hp | release hp =>
    exact hinv.setNode rfl fun hq => (hinv _ hq).frame rfl rfl rfl id

theorem ClusterReachable.emptyPartInv (hG : d.expr.groupColumnIndices.length = 0)
    (hs : ClusterReachable d batches s) : EmptyPartInv d batches s := by
  induction hs with
  | refl => exact fun q _ => emptyPartOk_init (batches q)
  | tail _ hstep ih => exact ih.step hG hstep

/-- **batch のある master でない node の cache は、`wait_for_count` を抜けたとき空でない。**
最初に始まった task が印を false と読み、空の table を入れている。 -/
theorem cache_ne_nil_of_released (hG : d.expr.groupColumnIndices.length = 0)
    (hs : ClusterReachable d batches s) {q T : Nat} (hq : q ≠ d.masterNode)
    (hT : (s.nodes q).phase = .released T) (hb : batches q ≠ []) : (s.nodes q).cache ≠ [] := by
  obtain ⟨hw, hr⟩ := hs.settled.idle q (by simp [hT])
  exact (hs.emptyPartInv hG q hq).cache_ne_nil hw hr hb

end Preserve

/-! ## クラスタの法則 -/

section Law

variable {hash : Row → Nat} {dropEmpty : Bool} {e : GroupByExpression} {c : ClusterInput}
  {s : ClusterState}

/-- 全部の node が `wait_for_count` を抜けたとき、node `n` の cache を入力にした Merge は成功し、
master は全部の行に一度 aggregation をかけた一行を出し、ほかの node は行を出さない。 -/
theorem merge_cache_of_released {batches : Nat → List BlazingTable}
    (hG : e.groupColumnIndices.length = 0) (hA : e.aggregationTypes.length ≠ 0)
    (hbusy : ∀ p < c.totalNodes, p ≠ c.masterNode → c.batchesOf p ≠ [])
    (hbatch : c.batches.flatten ≠ [])
    (hb : ∀ p, (batches p).Perm ((c.batchesOf p).map (scalarPartial e)))
    (hs : ClusterReachable (c.distributeSetup hash e dropEmpty) batches s)
    (hdone : ∀ p < c.totalNodes, ∃ T, (s.nodes p).phase = .released T) {n : Nat}
    (hn : n < c.totalNodes) :
    ∃ out, MergeAggregateKernel.doProcess (c.context n) e (s.nodes n).cache = .ok out ∧
      out.rows = if n = c.masterNode then [wholeRow e c] else [] := by
  by_cases hnm : n = c.masterNode
  · rw [hnm, if_pos rfl]
    exact merge_master_scalar hG hA hbatch (cache_perm_master hG hb hs hdone)
  · -- master でない node の cache には、部分結果と同じ列名の空の table が一つ以上ある
    have hnames := (hs.tablesInv (tablesRules_names _ e.aggregationColumnAssignedAliases)
      fun p _ hb' => by obtain ⟨b, -, rfl⟩ := List.mem_map.mp ((hb p).subset hb'); rfl).cache n
    have hne : batches n ≠ [] := fun h => hbusy n hn hnm
      (List.map_eq_nil_iff.mp (h ▸ hb n).nil_eq.symm)
    obtain ⟨T, hT⟩ := hdone n hn
    rw [if_neg hnm]
    exact merge_nonMaster_scalar hG hA hnm (cache_ne_nil_of_released hG hs hnm hT hne)
      fun t ht => ⟨by rw [hnames t ht, e.aliases_length], (hs.scalarInv hG).cache n t ht hnm⟩

/--
**group のない aggregation は、master でない node がどれも batch を持ち、入力が空でなければ、
遷移系で全部の node が `wait_for_count` を抜けたとき、各 node の cache を入力にした Merge の
出力を合わせると、全部の行に一度 aggregation をかけたものになる。**

遷移系の Distribute の task は、各 node の Compute の出力（部分結果）を入力にする。
task がどの順に始まって重なり、data message がどの順に届いてもよい。master の cache には
部分結果が全部入り、master でない node の cache には空の table が一つ以上入る。
-/
theorem scalarLaw_of_released (hG : e.groupColumnIndices.length = 0)
    (hA : e.aggregationTypes.length ≠ 0)
    (hcols : ∀ i ∈ e.aggregationInputExpressions, i < c.schema.length)
    (hbusy : ∀ p < c.totalNodes, p ≠ c.masterNode → c.batchesOf p ≠ [])
    (hbatch : c.batches.flatten ≠ [])
    (hs : ClusterReachable (c.distributeSetup hash e dropEmpty)
      (fun p => (c.batchesOf p).map (scalarPartial e)) s)
    (hdone : ∀ p < c.totalNodes, ∃ T, (s.nodes p).phase = .released T) :
    ∃ outs, mergeOutputs e c (fun n => (s.nodes n).cache) = .ok outs ∧ DistributedLaw e c outs := by
  obtain ⟨outs, houts, hrel⟩ := mapM_eq_ok fun n hn =>
    merge_cache_of_released hG hA hbusy hbatch (fun _ => .refl _) hs hdone (List.mem_range.mp hn)
  exact ⟨outs, houts, distributedLaw_scalar hG hA hcols hbatch hrel⟩

end Law

/-- `twoKeyNodes` では、master でない node `1` も batch を持つ。 -/
theorem busy_twoKeyNodes :
    ∀ p < twoKeyNodes.totalNodes, p ≠ twoKeyNodes.masterNode → twoKeyNodes.batchesOf p ≠ [] := by
  intro p hp h0
  obtain rfl : p = 1 := by simp only [twoKeyNodes, twoNodes] at hp h0; omega
  simp [twoKeyNodes, twoNodes, ClusterInput.batchesOf]

/-- `SELECT SUM(v)` の Distribute が、二つの node とも `wait_for_count` を抜けるまでの実行。
node `1` の部分結果は master に送られ、node `1` の cache には空の table が入る。 -/
theorem twoKeyNodes_scalar_released :
    ∃ s, ClusterReachable (twoKeyNodes.distributeSetup valueSum (sumAll 1) false)
        (fun p => (twoKeyNodes.batchesOf p).map (scalarPartial (sumAll 1))) s ∧
      ∀ p < twoKeyNodes.totalNodes, ∃ T, (s.nodes p).phase = .released T :=
  exists_released_of_init _

theorem scalarLaw_of_released_twoKeyNodes :
    ∃ s, (sumAll 1).groupColumnIndices.length = 0 ∧ (sumAll 1).aggregationTypes.length ≠ 0 ∧
      (∀ i ∈ (sumAll 1).aggregationInputExpressions, i < twoKeyNodes.schema.length) ∧
      (∀ p < twoKeyNodes.totalNodes, p ≠ twoKeyNodes.masterNode → twoKeyNodes.batchesOf p ≠ []) ∧
      twoKeyNodes.batches.flatten ≠ [] ∧
      ClusterReachable (twoKeyNodes.distributeSetup valueSum (sumAll 1) false)
        (fun p => (twoKeyNodes.batchesOf p).map (scalarPartial (sumAll 1))) s ∧
      (∀ p < twoKeyNodes.totalNodes, ∃ T, (s.nodes p).phase = .released T) ∧
      ∃ outs, mergeOutputs (sumAll 1) twoKeyNodes (fun n => (s.nodes n).cache) = .ok outs ∧
        DistributedLaw (sumAll 1) twoKeyNodes outs := by
  obtain ⟨s, hs, hdone⟩ := twoKeyNodes_scalar_released
  exact ⟨s, rfl, by decide, by decide, busy_twoKeyNodes, by simp [twoKeyNodes, twoNodes], hs, hdone,
    scalarLaw_of_released rfl (by decide) (by decide) busy_twoKeyNodes
      (by simp [twoKeyNodes, twoNodes]) hs hdone⟩

end BlazingSql
