import BlazingSql.Properties.CacheContents
import BlazingSql.Properties.Completion
import BlazingSql.Properties.DistributedAggregation

/-!
# 遷移系と pipeline の Merge の入力

`BlazingSql/Pipeline.lean` は node ごとに Distribute の action を順に実行し、Merge の入力を
`mergeInputs` の並べ替えとして外から与える。`BlazingSql/Cluster.lean` の遷移系では、task は
どの順にも始まり、action はほかの遷移と交互に起こり、data message はどの順にも届く。
ここで二つを結ぶ。

* `ClusterInput.distributeSetup` — クラスタの入力 `c` の Distribute kernel
* `contents_grouped` — group のある形では、どの状態でも cache に入る table は失われず、
  二度は入らない
* `distributeActions_eq_taskActions` — group のある形では、pipeline の Distribute の action の列は、
  遷移系の task の action を batch の順につないだもの
* `coe_mergeInputs` — `mergeInputs` を多重集合で見ると、node ごとの `contribution` の和
* `cache_perm_mergeInputs` — 遷移系で全部の node が `wait_for_count` を抜けたとき、
  各 node の cache は `mergeInputs` の並べ替え
* `mergeLaw_of_released` — group の列が入力の先頭 `k` 列なら、そのときの cache を入力にした
  Merge の出力は分散 aggregation の法則を満たす
-/

namespace BlazingSql

/-- クラスタの入力 `c` の Distribute kernel に共通のもの。どの node の output cache も、
allowEmpty でない空の table を `dropEmpty` のとおりに扱う。 -/
def ClusterInput.distributeSetup (c : ClusterInput) (hash : Row → Nat) (e : GroupByExpression)
    (dropEmpty : Bool) : DistributeSetup :=
  ⟨c.totalNodes, c.masterNode, hash, e, fun _ => dropEmpty⟩

/-! ## Distribute の action -/

/-- group のある形の `do_process` は `set_empty_part_for_non_master_node` を読まない。 -/
theorem taskActions_grouped_flag {d : DistributeSetup} (hG : d.expr.groupColumnIndices.length ≠ 0)
    (p : Nat) (flag : Bool) (b : BlazingTable) :
    d.taskActions p flag b = d.taskActions p false b := by
  simp only [DistributeSetup.taskActions, DistributeAggregateKernel.doProcess, if_neg hG]

/--
**group のある形では、どの実行のどの状態でも、output cache に入る table は失われず、二度は
入らない。** どの node でも、output cache の中身と、これから入るもの（その node へ向かう data
message、実行中の task の残りの action、まだ始まっていない task）を多重集合として合わせると、
最初の状態でこれから入るものに等しい。
-/
theorem contents_grouped {d : DistributeSetup} {batches : Nat → List BlazingTable}
    {s : ClusterState} (hG : d.expr.groupColumnIndices.length ≠ 0)
    (hs : ClusterReachable d batches s) : Contents d batches s :=
  hs.contents fun p b => taskActions_grouped_flag hG p true b

/-- 二つの node の `SELECT k, SUM(v) GROUP BY k` で、node `0` の task が始まった直後。 -/
theorem contents_grouped_started :
    ∃ s, (sumBy 0 1).groupColumnIndices.length ≠ 0 ∧
      ClusterReachable ⟨2, 0, valueSum, sumBy 0 1, fun _ => false⟩
        (fun _ => [pairBatch "k" "v" 1 10]) s ∧
      Contents ⟨2, 0, valueSum, sumBy 0 1, fun _ => false⟩
        (fun _ => [pairBatch "k" "v" 1 10]) s := by
  have hs : ClusterReachable ⟨2, 0, valueSum, sumBy 0 1, fun _ => false⟩
      (fun _ => [pairBatch "k" "v" 1 10]) _ :=
    .single (@ClusterStep.startTask _ _ 0 [] [] _ (by decide) rfl)
  exact ⟨_, by decide, hs, contents_grouped (by decide) hs⟩

/-- **group のある形では、一つの node の Distribute が batch を順に処理した action の列は、
batch ごとの task の action をつないだもの。** -/
theorem processBatches_eq_taskActions {d : DistributeSetup}
    (hG : d.expr.groupColumnIndices.length ≠ 0) (p : Nat) :
    ∀ (flag : Bool) (Ps : List BlazingTable) {acts : List DistributeAction},
      DistributeAggregateKernel.processBatches d.hash (d.context p) d.expr
          (DistributeAggregateKernel.columnsToHash d.expr) flag Ps = .ok acts →
        acts = (Ps.map (d.taskActions p false)).flatten
  | _, [], _, h => by cases h; rfl
  | flag, P :: Ps, _, h => by
    rw [DistributeAggregateKernel.processBatches, bind_eq_ok] at h
    obtain ⟨a, ha, h⟩ := h
    rw [bind_eq_ok] at h
    obtain ⟨rest, hrest, h⟩ := h
    cases h
    have hP : d.taskActions p false P = a := by
      rw [← taskActions_grouped_flag hG p flag, DistributeSetup.taskActions, ha]
    rw [List.map_cons, List.flatten_cons, hP, processBatches_eq_taskActions hG p _ Ps hrest]

/-- node `p` の Compute が `Ps` を出せば、pipeline の node `p` の Distribute の action の列は、
遷移系の task の action を `Ps` の順につないだもの。 -/
theorem distributeActions_eq_taskActions {hash : Row → Nat} (dropEmpty : Bool)
    {e : GroupByExpression} {c : ClusterInput} {p : Nat} {Ps : List BlazingTable}
    {acts : List DistributeAction} (hG : e.groupColumnIndices.length ≠ 0)
    (hcomp : (c.batchesOf p).mapM (ComputeAggregateKernel.doProcess e) = .ok Ps)
    (h : distributeActions hash e (DistributeAggregateKernel.columnsToHash e) c p = .ok acts) :
    acts = (Ps.map ((c.distributeSetup hash e dropEmpty).taskActions p false)).flatten := by
  rw [distributeActions, hcomp] at h
  exact processBatches_eq_taskActions (d := c.distributeSetup hash e dropEmpty) hG p false Ps h

/-! ## Merge の入力を多重集合で見る -/

theorem coe_flatten_map_range {α : Type} (F : Nat → List α) (N : Nat) :
    (((List.range N).map F).flatten : Multiset α) = ∑ p ∈ Finset.range N, (F p : Multiset α) := by
  induction N with
  | zero => rfl
  | succ N ih =>
    rw [List.range_succ, List.map_append, List.flatten_append, ← Multiset.coe_add, ih,
      Finset.sum_range_succ]
    simp

/-- node `p` の action の列を `A p` とすると、node `n` の Merge の入力は、多重集合で見れば
node ごとの `contribution` の和。 -/
theorem coe_mergeInputs (dropEmpty : Bool) (A : Nat → List DistributeAction) {N n : Nat}
    (hn : n < N) :
    (mergeInputs dropEmpty ((List.range N).map A) n : Multiset BlazingTable) =
      ∑ p ∈ Finset.range N, contribution dropEmpty (A p) p n := by
  rw [mergeInputs, getD_map_range _ hn, List.map_map, ← Multiset.coe_add,
    coe_flatten_map_range (messagesTo n ∘ A) N]
  simp only [contribution, Finset.sum_add_distrib, Finset.sum_ite_eq', Finset.mem_range, if_pos hn,
    Function.comp_apply]

/-! ## 全部の node が `wait_for_count` を抜けたときの cache -/

section Released

variable {hash : Row → Nat} {dropEmpty : Bool} {e : GroupByExpression} {c : ClusterInput}
  {s : ClusterState}

/-- 遷移系で全部の node が `wait_for_count` を抜けたとき、各 node の cache は、多重集合で見れば
pipeline の Merge の入力に等しい。node `p` の Distribute には、Compute の出力がどの順で
渡ってもよい。 -/
theorem coe_cache_eq_mergeInputs {batches B : Nat → List BlazingTable}
    {acts : List (List DistributeAction)} (hG : e.groupColumnIndices.length ≠ 0)
    (hcomp : ∀ p < c.totalNodes,
      (c.batchesOf p).mapM (ComputeAggregateKernel.doProcess e) = .ok (batches p))
    (hacts : (List.range c.totalNodes).mapM
      (distributeActions hash e (DistributeAggregateKernel.columnsToHash e) c) = .ok acts)
    (hB : ∀ p, (B p).Perm (batches p))
    (hs : ClusterReachable (c.distributeSetup hash e dropEmpty) B s)
    (hdone : ∀ p < c.totalNodes, ∃ T, (s.nodes p).phase = .released T) {n : Nat}
    (hn : n < c.totalNodes) :
    ((s.nodes n).cache : Multiset BlazingTable) = mergeInputs dropEmpty acts n := by
  set d := c.distributeSetup hash e dropEmpty
  -- pipeline の action は、task の action を batch の順につないだもの
  have hA : ∀ p ∈ List.range c.totalNodes,
      distributeActions hash e (DistributeAggregateKernel.columnsToHash e) c p =
        .ok ((batches p).map (d.taskActions p false)).flatten := by
    intro p hp
    have hp := List.mem_range.mp hp
    have h := getD_of_forall₂_range (forall₂_of_mapM_eq_ok hacts) [] hp
    rwa [distributeActions_eq_taskActions dropEmpty hG (hcomp p hp) h] at h
  have hacts' : acts = (List.range c.totalNodes).map fun p =>
      ((batches p).map (d.taskActions p false)).flatten :=
    Except.ok.inj (hacts.symm.trans (mapM_eq_ok_map hA))
  rw [cache_eq_of_released (fun p b => taskActions_grouped_flag hG p true b) hs hdone hn, hacts',
    coe_mergeInputs dropEmpty _ hn]
  simp only [ClusterState.toCome, ClusterState.init, DistNode.toCome, DistNode.init, payloadsTo_nil,
    List.map_nil, List.sum_nil, zero_add, contribution_flatten, List.map_map, Function.comp_def]
  exact Finset.sum_congr rfl fun p _ => ((hB p).map _).sum_eq

/--
**遷移系で全部の node が `wait_for_count` を抜けたとき、各 node の cache は、pipeline で
node ごとに Distribute の action を順に実行したときの Merge の入力の並べ替え。**

group のある形で、node `p` の Compute が `batches p` を出し、pipeline の Distribute が
どの node でも成功するとする。task がどの順に始まり、action がほかの遷移とどう交互に起こり、
data message がどの順に届いても、Merge が読む cache の中身は同じ。
-/
theorem cache_perm_mergeInputs {batches : Nat → List BlazingTable}
    {acts : List (List DistributeAction)} (hG : e.groupColumnIndices.length ≠ 0)
    (hcomp : ∀ p < c.totalNodes,
      (c.batchesOf p).mapM (ComputeAggregateKernel.doProcess e) = .ok (batches p))
    (hacts : (List.range c.totalNodes).mapM
      (distributeActions hash e (DistributeAggregateKernel.columnsToHash e) c) = .ok acts)
    (hs : ClusterReachable (c.distributeSetup hash e dropEmpty) batches s)
    (hdone : ∀ p < c.totalNodes, ∃ T, (s.nodes p).phase = .released T) :
    ∀ n < c.totalNodes, (s.nodes n).cache.Perm (mergeInputs dropEmpty acts n) :=
  fun _ hn => Multiset.coe_eq_coe.mp
    (coe_cache_eq_mergeInputs hG hcomp hacts (fun _ => .refl _) hs hdone hn)

/--
**group の列が入力の先頭 `k` 列なら、遷移系で全部の node が `wait_for_count` を抜けたとき、
各 node の cache を入力にした Merge の出力を合わせると、全部の行に一度 aggregation を
かけたものの並べ替えになる。**

遷移系の Distribute の task は、各 node の Compute の出力（部分結果）を入力にする。
-/
theorem mergeLaw_of_released (hlead : e.groupColumnIndices = List.range e.groupColumnIndices.length)
    (hG : e.groupColumnIndices.length ≠ 0)
    (hcols : ∀ i ∈ e.aggregationInputExpressions ++ e.groupColumnIndices, i < c.schema.length)
    (hbatch : c.batches.flatten ≠ [])
    (hs : ClusterReachable (c.distributeSetup hash e dropEmpty)
      (fun p => (c.batchesOf p).map (partialTable e)) s)
    (hdone : ∀ p < c.totalNodes, ∃ T, (s.nodes p).phase = .released T) :
    ∃ outs, mergeOutputs e c (fun n => (s.nodes n).cache) = .ok outs ∧ DistributedLaw e c outs := by
  obtain ⟨acts, hacts, hall⟩ := @lawForEveryOrder_grouped hash dropEmpty e c hG hcols hbatch
  have hcomp : ∀ p < c.totalNodes, (c.batchesOf p).mapM (ComputeAggregateKernel.doProcess e) =
      .ok ((c.batchesOf p).map (partialTable e)) := fun p _ =>
    mapM_eq_ok_map fun b hb => compute_grouped hG (by rw [names_of_mem_batchesOf hb]; exact hcols)
  rw [← hlead] at hacts
  exact hall _ fun n hn =>
    Multiset.coe_eq_coe.mp (coe_cache_eq_mergeInputs hG hcomp hacts (fun _ => .refl _) hs hdone hn)

end Released

/-! ## 二つの node のクラスタ -/

/-- master の node `0` が一行 `(k, v) = (1, 10)`、node `1` が一行 `(2, 5)` を持つクラスタ。
key の値の和で hash すると、key `1` の部分結果は node `1` に、key `2` の部分結果は node `0` に
行くので、どちらの node の cache にもほかの node から届いた table が入る。 -/
def twoKeyNodes : ClusterInput := twoNodes "k" "v" (1, 10) (2, 5)

/-- `SELECT k, SUM(v) GROUP BY k` の Distribute が、二つの node とも `wait_for_count` を抜ける
までの実行。 -/
theorem twoKeyNodes_released :
    ∃ s, ClusterReachable (twoKeyNodes.distributeSetup valueSum (sumBy 0 1) false)
        (fun p => (twoKeyNodes.batchesOf p).map (partialTable (sumBy 0 1))) s ∧
      ∀ p < twoKeyNodes.totalNodes, ∃ T, (s.nodes p).phase = .released T :=
  exists_released_of_init _

/-- 二つの node の Compute は、どの batch にも部分結果を出す。 -/
theorem twoKeyNodes_compute :
    ∀ p < twoKeyNodes.totalNodes,
      (twoKeyNodes.batchesOf p).mapM (ComputeAggregateKernel.doProcess (sumBy 0 1)) =
        .ok ((twoKeyNodes.batchesOf p).map (partialTable (sumBy 0 1))) := fun _ _ =>
  mapM_eq_ok_map fun _ hb => compute_grouped (by decide) (by rw [names_of_mem_batchesOf hb]; decide)

theorem cache_perm_mergeInputs_twoKeyNodes :
    ∃ s acts, (sumBy 0 1).groupColumnIndices.length ≠ 0 ∧
      (∀ p < twoKeyNodes.totalNodes,
        (twoKeyNodes.batchesOf p).mapM (ComputeAggregateKernel.doProcess (sumBy 0 1)) =
          .ok ((twoKeyNodes.batchesOf p).map (partialTable (sumBy 0 1)))) ∧
      (List.range twoKeyNodes.totalNodes).mapM (distributeActions valueSum (sumBy 0 1)
        (DistributeAggregateKernel.columnsToHash (sumBy 0 1)) twoKeyNodes) = .ok acts ∧
      ClusterReachable (twoKeyNodes.distributeSetup valueSum (sumBy 0 1) false)
        (fun p => (twoKeyNodes.batchesOf p).map (partialTable (sumBy 0 1))) s ∧
      (∀ p < twoKeyNodes.totalNodes, ∃ T, (s.nodes p).phase = .released T) ∧
      ∀ n < twoKeyNodes.totalNodes, (s.nodes n).cache.Perm (mergeInputs false acts n) := by
  obtain ⟨s, hs, hdone⟩ := twoKeyNodes_released
  obtain ⟨acts, hacts⟩ : ∃ acts, (List.range twoKeyNodes.totalNodes).mapM (distributeActions
      valueSum (sumBy 0 1) (DistributeAggregateKernel.columnsToHash (sumBy 0 1)) twoKeyNodes) =
        .ok acts :=
    ⟨_, rfl⟩
  exact ⟨s, acts, by decide, twoKeyNodes_compute, hacts, hs, hdone,
    cache_perm_mergeInputs (by decide) twoKeyNodes_compute hacts hs hdone⟩

theorem mergeLaw_of_released_twoKeyNodes :
    ∃ s, (sumBy 0 1).groupColumnIndices = List.range (sumBy 0 1).groupColumnIndices.length ∧
      (sumBy 0 1).groupColumnIndices.length ≠ 0 ∧
      (∀ i ∈ (sumBy 0 1).aggregationInputExpressions ++ (sumBy 0 1).groupColumnIndices,
        i < twoKeyNodes.schema.length) ∧
      twoKeyNodes.batches.flatten ≠ [] ∧
      ClusterReachable (twoKeyNodes.distributeSetup valueSum (sumBy 0 1) false)
        (fun p => (twoKeyNodes.batchesOf p).map (partialTable (sumBy 0 1))) s ∧
      (∀ p < twoKeyNodes.totalNodes, ∃ T, (s.nodes p).phase = .released T) ∧
      ∃ outs, mergeOutputs (sumBy 0 1) twoKeyNodes (fun n => (s.nodes n).cache) = .ok outs ∧
        DistributedLaw (sumBy 0 1) twoKeyNodes outs := by
  obtain ⟨s, hs, hdone⟩ := twoKeyNodes_released
  exact ⟨s, rfl, by decide, by decide, by simp [twoKeyNodes, twoNodes], hs, hdone,
    mergeLaw_of_released rfl (by decide) (by decide) (by simp [twoKeyNodes, twoNodes]) hs hdone⟩

end BlazingSql
