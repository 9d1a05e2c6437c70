import BlazingSql.Properties.Completion
import BlazingSql.Properties.Estimate
import BlazingSql.Properties.KernelRun
import BlazingSql.Properties.ScalarRelease

/-!
# 三つの kernel をつなぐ

aggregation は、どの node でも Compute・Distribute・Merge の三つの kernel を通る。Compute と Merge の
`run()` は executor の遷移系（`BlazingSql/Executor.lean`）で、Distribute はクラスタの遷移系
（`BlazingSql/Cluster.lean`）で書いた。ここで三つをつなぐ。各 node の Compute の `run()` が返って
output cache に残したものを、その node の Distribute の task が受け取る。全部の node が
`wait_for_count` を抜けた後、各 node の Merge の `run()` がその node の cache を入力にして返る。

Merge の task は `do_process` の失敗を output に残す（`BlazingSql/Tasks.lean`）。失敗した実行では
`run()` は正常に返らないので、正常に返ったことを `MergeReturned` で表す。

* `MergeReturned` — Merge の `run()` が正常に返り、output cache に table の列を残した
* `computeReturned_scalar`・`computeReturned_grouped` — Compute の `run()` が返ったとき、
  output cache は batch ごとの部分結果の並べ替え
* `rows_of_mergeReturned` — Merge の `run()` が正常に返ったなら `do_process` は成功していて、
  output cache の行はその出力の行
* `scalarPipeline_law`・`groupedPipeline_law` — 三つの kernel の実行がどの順に進んでも、
  全部の node の Merge の output cache を合わせると、全部の行に一度 aggregation をかけたものの
  並べ替えになる
* `exists_scalarPipeline_returned`・`exists_groupedPipeline_returned` — その前提の入力では、
  三つの kernel の実行は最後まで進み、どの node の Merge も正常に返る。group のない形で
  master でない node に batch がなければ、その node の Merge は入力がなく落ちる
  （`BlazingSql/Properties/EmptyMerge.lean`）
-/

namespace BlazingSql

/-- Merge の `run()` が `inputs` を入力にして正常に返り、output cache に `out` を残した。
task が `do_process` の失敗を残した実行は、正常には返っていない。 -/
def MergeReturned (ctx : Context) (dropEmpty : Bool) (e : GroupByExpression)
    (inputs out : List BlazingTable) : Prop :=
  KernelReturned .merge (MergeAggregateKernel.task ctx dropEmpty e) inputs (out.map .ok)

section Stages

variable {e : GroupByExpression} {dropEmpty : Bool}

/-- group のない形で、`run()` が返ったときの Compute の output cache にあるはずのもの。 -/
theorem returnedOutput_compute_scalar {stream : List BlazingTable}
    (hG : e.groupColumnIndices.length = 0) (hA : e.aggregationTypes.length ≠ 0)
    (hcols : ∀ b ∈ stream, ∀ i ∈ e.aggregationInputExpressions, i < b.names.length) :
    returnedOutput .compute (ComputeAggregateKernel.task dropEmpty e) stream =
      stream.map (scalarPartial e) := by
  show (stream.map fun b => ComputeAggregateKernel.task dropEmpty e [b]).flatten = _
  rw [List.map_congr_left fun b hb => task_scalar dropEmpty hG hA (hcols b hb), ← List.flatMap_def,
    ← List.map_eq_flatMap]

/-- **group のない形の Compute の `run()` が返ったとき、output cache は batch ごとの部分結果の
並べ替え。** 部分結果は一行なので、空の table を捨てる cache でも受理される。 -/
theorem computeReturned_scalar {stream out : List BlazingTable}
    (hG : e.groupColumnIndices.length = 0) (hA : e.aggregationTypes.length ≠ 0)
    (hcols : ∀ b ∈ stream, ∀ i ∈ e.aggregationInputExpressions, i < b.names.length)
    (h : KernelReturned .compute (ComputeAggregateKernel.task dropEmpty e) stream out) :
    out.Perm (stream.map (scalarPartial e)) := by
  obtain ⟨s, hs, hpc, rfl⟩ := h
  exact returnedOutput_compute_scalar hG hA hcols ▸ output_perm_of_returned hs hpc

/-- **Merge の `run()` が正常に返ったなら、`do_process` は成功していて、output cache の行は
その出力の行。** 失敗は output に残るので、正常に返った実行には現れない。空の table を捨てる
cache が捨てるのは、行のない table だけ。 -/
theorem rows_of_mergeReturned {ctx : Context} {inputs merged : List BlazingTable}
    (h : MergeReturned ctx dropEmpty e inputs merged) :
    ∃ out, MergeAggregateKernel.doProcess ctx e inputs = .ok out ∧
      (merged.map BlazingTable.rows).flatten = out.rows := by
  obtain ⟨s, hs, hpc, hout⟩ := h
  have hperm := hout ▸ output_perm_of_returned hs hpc
  cases hdo : MergeAggregateKernel.doProcess ctx e inputs with
  | error f =>
    -- output には失敗があるが、`merged` から来るものはどれも `.ok`
    simp only [returnedOutput, MergeAggregateKernel.task, hdo] at hperm
    obtain ⟨_, -, hf⟩ := List.mem_map.mp (hperm.symm.subset (List.mem_singleton_self _))
    cases hf
  | ok out =>
    refine ⟨out, rfl, ?_⟩
    simp only [returnedOutput, MergeAggregateKernel.task, hdo] at hperm
    split_ifs at hperm with hacc
    · obtain ⟨t, _, rfl, ht, hnil⟩ := List.map_eq_cons_iff.mp (List.perm_singleton.mp hperm)
      cases ht
      simp [List.map_eq_nil_iff.mp hnil]
    · -- 捨てられたのは行のない table
      simp [accepts, BlazingTable.numRows] at hacc
      obtain rfl := List.map_eq_nil_iff.mp hperm.eq_nil
      simp [hacc.2]

/-- Merge の `do_process` が成功すれば、`run()` は正常に返ることができる。 -/
theorem mergeReturned_of_doProcess {ctx : Context} {inputs : List BlazingTable} {out : BlazingTable}
    (hdo : MergeAggregateKernel.doProcess ctx e inputs = .ok out) :
    MergeReturned ctx dropEmpty e inputs (if accepts dropEmpty out false then [out] else []) := by
  have h := kernelReturned_returnedOutput .merge (MergeAggregateKernel.task ctx dropEmpty e) inputs
  simp only [returnedOutput, MergeAggregateKernel.task, hdo] at h
  unfold MergeReturned
  split_ifs at h ⊢ <;> exact h

/-- どの node の Merge の `do_process` も成功すれば、どの node の Merge の `run()` も正常に
返ることができる。 -/
theorem exists_mergeReturned (dropEmpty : Bool) {ctx : Nat → Context}
    {arrivals : Nat → List BlazingTable} {N : Nat}
    (h : ∀ n < N, ∃ out, MergeAggregateKernel.doProcess (ctx n) e (arrivals n) = .ok out) :
    ∃ merged : Nat → List BlazingTable,
      ∀ n < N, MergeReturned (ctx n) dropEmpty e (arrivals n) (merged n) := by
  haveI : Nonempty BlazingTable := ⟨⟨[], [], nofun⟩⟩
  choose! out hout using h
  exact ⟨_, fun n hn => mergeReturned_of_doProcess (hout n hn)⟩

/-- 行のある batch の部分結果には行がある。 -/
theorem numRows_partialTable_pos {b : BlazingTable} (h : 0 < b.numRows) :
    0 < (partialTable e b).numRows := by
  obtain ⟨r, hr⟩ := List.exists_mem_of_length_pos h
  have hk : rowKey e.groupColumnIndices r ∈ groupKeys e.groupColumnIndices b.rows :=
    mem_groupKeys.mpr ⟨r, hr, rfl⟩
  simpa [BlazingTable.numRows, partialRows] using List.length_pos_of_mem hk

/-- group のある形で、`run()` が返ったときの Compute の output cache にあるはずのもの。
cache が空の table を捨てるなら、どの batch にも行があるとする。 -/
theorem returnedOutput_compute_grouped {stream : List BlazingTable}
    (hG : e.groupColumnIndices.length ≠ 0)
    (hcols : ∀ b ∈ stream, ∀ i ∈ e.aggregationInputExpressions ++ e.groupColumnIndices,
      i < b.names.length)
    (hkeep : dropEmpty = false ∨ ∀ b ∈ stream, 0 < b.numRows) :
    returnedOutput .compute (ComputeAggregateKernel.task dropEmpty e) stream =
      stream.map (partialTable e) := by
  have htask : ∀ b ∈ stream, ComputeAggregateKernel.task dropEmpty e [b] = [partialTable e b] := by
    intro b hb
    have hacc : accepts dropEmpty (partialTable e b) false = true := by
      rcases hkeep with h | h
      · simp [accepts, h]
      · simp [accepts, numRows_partialTable_pos (h b hb)]
    simp only [ComputeAggregateKernel.task, compute_grouped hG (hcols b hb)]
    exact if_pos hacc
  show (stream.map fun b => ComputeAggregateKernel.task dropEmpty e [b]).flatten = _
  rw [List.map_congr_left htask, ← List.flatMap_def, ← List.map_eq_flatMap]

/-- **group のある形の Compute の `run()` が返ったとき、output cache は batch ごとの部分結果の
並べ替え。** -/
theorem computeReturned_grouped {stream out : List BlazingTable}
    (hG : e.groupColumnIndices.length ≠ 0)
    (hcols : ∀ b ∈ stream, ∀ i ∈ e.aggregationInputExpressions ++ e.groupColumnIndices,
      i < b.names.length)
    (hkeep : dropEmpty = false ∨ ∀ b ∈ stream, 0 < b.numRows)
    (h : KernelReturned .compute (ComputeAggregateKernel.task dropEmpty e) stream out) :
    out.Perm (stream.map (partialTable e)) := by
  obtain ⟨s, hs, hpc, rfl⟩ := h
  exact returnedOutput_compute_grouped hG hcols hkeep ▸ output_perm_of_returned hs hpc

end Stages

/-- node の batch は、どれも全部の batch の中にある。 -/
theorem mem_flatten_of_mem_batchesOf {c : ClusterInput} {p : Nat} {b : BlazingTable}
    (hb : b ∈ c.batchesOf p) : b ∈ c.batches.flatten := by
  unfold ClusterInput.batchesOf at hb
  rw [List.getD_eq_getElem?_getD] at hb
  cases h : c.batches[p]? with
  | none => simp [h] at hb
  | some bs =>
    rw [h, Option.getD_some] at hb
    exact List.mem_flatten.mpr ⟨bs, List.getElem?_mem h, hb⟩

/-- 法則は Merge の出力の行だけで決まる。 -/
theorem DistributedLaw.of_rows_perm {e : GroupByExpression} {c : ClusterInput}
    {outs outs' : List BlazingTable} (h : DistributedLaw e c outs)
    (hrows : (outs'.map BlazingTable.rows).flatten.Perm (outs.map BlazingTable.rows).flatten) :
    DistributedLaw e c outs' := by
  obtain ⟨whole, expected, hw, he, hp⟩ := h
  exact ⟨whole, expected, hw, he, hrows.trans hp⟩

/-- node `n` の Merge の `run()` が `arrivals n` を入力にして正常に返れば、全部の node の
output cache の行を合わせると、`mergeOutputs` の出力の行の並べ替え。 -/
theorem rows_perm_of_mergeOutputs {e : GroupByExpression} {c : ClusterInput} {dropEmpty : Bool}
    {arrivals merged : Nat → List BlazingTable} {outs : List BlazingTable}
    (houts : mergeOutputs e c arrivals = .ok outs)
    (hmerge : ∀ n < c.totalNodes, MergeReturned (c.context n) dropEmpty e (arrivals n) (merged n)) :
    (((List.range c.totalNodes).map merged).flatten.map BlazingTable.rows).flatten.Perm
      (outs.map BlazingTable.rows).flatten := by
  -- node ごとの Merge の `do_process` の出力をもう一度並べ、`mapM` の答えが一つなことで `outs` に戻す
  obtain ⟨ys, hys, hrel⟩ := mapM_eq_ok (l := List.range c.totalNodes)
      (Q := fun n (out : BlazingTable) => out.rows.Perm ((merged n).map BlazingTable.rows).flatten)
      fun n hn => by
    obtain ⟨out, hdo, hrows⟩ := rows_of_mergeReturned (hmerge n (List.mem_range.mp hn))
    exact ⟨out, hdo, List.Perm.of_eq hrows.symm⟩
  obtain rfl : ys = outs := Except.ok.inj (hys.symm.trans houts)
  rw [List.map_flatten, List.flatten_flatten, List.map_map, List.map_map]
  exact (perm_flatten_of_forall₂ hrel).symm

/-! ## 三つの kernel -/

section Pipeline

variable {hash : Row → Nat} {dropEmpty : Bool} {e : GroupByExpression} {c : ClusterInput}
  {s : ClusterState}

/-- group のない形の各 node の Compute の `run()` は、batch ごとの部分結果を残して返る。 -/
theorem kernelReturned_compute_scalar (computeDropEmpty : Bool)
    (hG : e.groupColumnIndices.length = 0) (hA : e.aggregationTypes.length ≠ 0)
    (hcols : ∀ i ∈ e.aggregationInputExpressions, i < c.schema.length) (p : Nat) :
    KernelReturned .compute (ComputeAggregateKernel.task computeDropEmpty e) (c.batchesOf p)
      ((c.batchesOf p).map (scalarPartial e)) := by
  have h := kernelReturned_returnedOutput .compute (ComputeAggregateKernel.task computeDropEmpty e)
    (c.batchesOf p)
  rwa [returnedOutput_compute_scalar hG hA fun _ hb => by rw [names_of_mem_batchesOf hb]; exact hcols]
    at h

/-- group のある形の各 node の Compute の `run()` は、batch ごとの部分結果を残して返る。 -/
theorem kernelReturned_compute_grouped (computeDropEmpty : Bool)
    (hG : e.groupColumnIndices.length ≠ 0)
    (hcols : ∀ i ∈ e.aggregationInputExpressions ++ e.groupColumnIndices, i < c.schema.length)
    (hkeep : computeDropEmpty = false ∨ ∀ b ∈ c.batches.flatten, 0 < b.numRows) (p : Nat) :
    KernelReturned .compute (ComputeAggregateKernel.task computeDropEmpty e) (c.batchesOf p)
      ((c.batchesOf p).map (partialTable e)) := by
  have h := kernelReturned_returnedOutput .compute (ComputeAggregateKernel.task computeDropEmpty e)
    (c.batchesOf p)
  rwa [returnedOutput_compute_grouped hG (fun _ hb => by rw [names_of_mem_batchesOf hb]; exact hcols)
    (hkeep.imp_right fun h b hb => h b (mem_flatten_of_mem_batchesOf hb))] at h

/-- group のある形で、Compute の出力を受け取ったクラスタの全部の node が `wait_for_count` を
抜ければ、どの node の Merge の `do_process` もその node の cache で成功する。hash する列は
部分結果の列の中にあるとする。 -/
theorem doProcess_ok_of_released_grouped (hG : e.groupColumnIndices.length ≠ 0)
    (hcols : ∀ i ∈ e.aggregationInputExpressions ++ e.groupColumnIndices, i < c.schema.length)
    (hkeys : ∀ i ∈ e.groupColumnIndices,
      i < e.groupColumnIndices.length + e.aggregationTypes.length)
    (hbatch : c.batches.flatten ≠ []) {computed : Nat → List BlazingTable}
    (hb : ∀ p, (computed p).Perm ((c.batchesOf p).map (partialTable e)))
    (hs : ClusterReachable (c.distributeSetup hash e dropEmpty) computed s)
    (hdone : ∀ p < c.totalNodes, ∃ T, (s.nodes p).phase = .released T) :
    ∀ n < c.totalNodes,
      ∃ out, MergeAggregateKernel.doProcess (c.context n) e (s.nodes n).cache = .ok out := by
  obtain ⟨acts, hacts, hall⟩ := mergeOutputs_grouped hash dropEmpty hG hcols hkeys hbatch
  have hcomp : ∀ p < c.totalNodes, (c.batchesOf p).mapM (ComputeAggregateKernel.doProcess e) =
      .ok ((c.batchesOf p).map (partialTable e)) := fun p _ =>
    mapM_eq_ok_map fun b hb => compute_grouped hG (by rw [names_of_mem_batchesOf hb]; exact hcols)
  obtain ⟨outs, houts, -⟩ := hall _ fun n hn =>
    Multiset.coe_eq_coe.mp (coe_cache_eq_mergeInputs hG hcomp hacts hb hs hdone hn)
  exact fun n hn => ⟨_, getD_of_forall₂_range (forall₂_of_mapM_eq_ok houts) ⟨[], [], nofun⟩ hn⟩

/--
**group のない aggregation は、master でない node がどれも batch を持ち、入力が空でなければ、
三つの kernel の実行がどの順に進んでも、全部の node の Merge の output cache を合わせると、
全部の行に一度 aggregation をかけたものになる。**

node `p` の Compute の `run()` は `c.batchesOf p` を入力にして返り、output cache に `computed p` を
残す。クラスタの Distribute は `computed p` を受け取り、全部の node が `wait_for_count` を抜ける。
node `n` の Merge の `run()` は `n` の cache を入力にして正常に返り、output cache に `merged n` を
残す。どの kernel の output cache も、空の table を捨ててよい。
-/
theorem scalarPipeline_law (computeDropEmpty mergeDropEmpty : Bool)
    (hG : e.groupColumnIndices.length = 0) (hA : e.aggregationTypes.length ≠ 0)
    (hcols : ∀ i ∈ e.aggregationInputExpressions, i < c.schema.length)
    (hbusy : ∀ p < c.totalNodes, p ≠ c.masterNode → c.batchesOf p ≠ [])
    (hbatch : c.batches.flatten ≠ []) {computed merged : Nat → List BlazingTable}
    (hcompute : ∀ p, KernelReturned .compute (ComputeAggregateKernel.task computeDropEmpty e)
      (c.batchesOf p) (computed p))
    (hs : ClusterReachable (c.distributeSetup hash e dropEmpty) computed s)
    (hdone : ∀ p < c.totalNodes, ∃ T, (s.nodes p).phase = .released T)
    (hmerge : ∀ n < c.totalNodes,
      MergeReturned (c.context n) mergeDropEmpty e (s.nodes n).cache (merged n)) :
    DistributedLaw e c ((List.range c.totalNodes).map merged).flatten := by
  have hb : ∀ p, (computed p).Perm ((c.batchesOf p).map (scalarPartial e)) := fun p =>
    computeReturned_scalar hG hA (fun b hb => by rw [names_of_mem_batchesOf hb]; exact hcols)
      (hcompute p)
  refine distributedLaw_of_wholeRow hG hA hcols hbatch ?_
  rw [List.map_flatten, List.flatten_flatten, List.map_map, List.map_map]
  refine flatten_rows_master _ _ fun n hn => ?_
  obtain ⟨out, hout, hrows⟩ := merge_cache_of_released hG hA hbusy hbatch hb hs hdone hn
  obtain ⟨out', hdo, hrows'⟩ := rows_of_mergeReturned (hmerge n hn)
  obtain rfl : out' = out := Except.ok.inj (hdo.symm.trans hout)
  exact hrows'.trans hrows

/--
**group の列が入力の先頭 `k` 列なら、三つの kernel の実行がどの順に進んでも、全部の node の
Merge の output cache を合わせると、全部の行に一度 aggregation をかけたものの並べ替えになる。**

Compute の output cache が空の table を捨てるなら、どの batch にも行があるとする
（行のない batch の部分結果は捨てられる）。Distribute と Merge の output cache は、空の table を
捨ててもよい。
-/
theorem groupedPipeline_law (computeDropEmpty mergeDropEmpty : Bool)
    (hlead : e.groupColumnIndices = List.range e.groupColumnIndices.length)
    (hG : e.groupColumnIndices.length ≠ 0)
    (hcols : ∀ i ∈ e.aggregationInputExpressions ++ e.groupColumnIndices, i < c.schema.length)
    (hbatch : c.batches.flatten ≠ [])
    (hkeep : computeDropEmpty = false ∨ ∀ b ∈ c.batches.flatten, 0 < b.numRows)
    {computed merged : Nat → List BlazingTable}
    (hcompute : ∀ p, KernelReturned .compute (ComputeAggregateKernel.task computeDropEmpty e)
      (c.batchesOf p) (computed p))
    (hs : ClusterReachable (c.distributeSetup hash e dropEmpty) computed s)
    (hdone : ∀ p < c.totalNodes, ∃ T, (s.nodes p).phase = .released T)
    (hmerge : ∀ n < c.totalNodes,
      MergeReturned (c.context n) mergeDropEmpty e (s.nodes n).cache (merged n)) :
    DistributedLaw e c ((List.range c.totalNodes).map merged).flatten := by
  have hnames : ∀ {p b}, b ∈ c.batchesOf p →
      ∀ i ∈ e.aggregationInputExpressions ++ e.groupColumnIndices, i < b.names.length :=
    fun hb => by rw [names_of_mem_batchesOf hb]; exact hcols
  -- Compute：各 node の output cache は部分結果の並べ替え
  have hb : ∀ p, (computed p).Perm ((c.batchesOf p).map (partialTable e)) := fun p =>
    computeReturned_grouped hG (fun _ hb => hnames hb)
      (hkeep.imp_right fun h b hb => h b (mem_flatten_of_mem_batchesOf hb)) (hcompute p)
  -- Distribute：cache は pipeline の Merge の入力の並べ替えで、そこで法則が成り立つ
  obtain ⟨acts, hacts, hall⟩ := @lawForEveryOrder_grouped hash dropEmpty e c hG hcols hbatch
  have hcomp : ∀ p < c.totalNodes, (c.batchesOf p).mapM (ComputeAggregateKernel.doProcess e) =
      .ok ((c.batchesOf p).map (partialTable e)) := fun p _ =>
    mapM_eq_ok_map fun b hb => compute_grouped hG (hnames hb)
  rw [← hlead] at hacts
  obtain ⟨outs, houts, hlaw⟩ := hall _ fun n hn =>
    Multiset.coe_eq_coe.mp (coe_cache_eq_mergeInputs hG hcomp hacts hb hs hdone hn)
  -- Merge：各 node の output cache の行は、Merge の `do_process` の出力の行
  exact hlaw.of_rows_perm (rows_perm_of_mergeOutputs houts hmerge)

/--
**group のない aggregation は、master でない node がどれも batch を持ち、入力が空でなければ、
三つの kernel の実行を最後まで進められ、どの node の Merge の `run()` も正常に返る。**

各 node の Compute の `run()` が返り、クラスタの全部の node が `wait_for_count` を抜け、
各 node の Merge の `do_process` はその node の cache で成功する。
-/
theorem exists_scalarPipeline_returned (hash : Row → Nat)
    (computeDropEmpty dropEmpty mergeDropEmpty : Bool)
    (hG : e.groupColumnIndices.length = 0) (hA : e.aggregationTypes.length ≠ 0)
    (hcols : ∀ i ∈ e.aggregationInputExpressions, i < c.schema.length)
    (hbusy : ∀ p < c.totalNodes, p ≠ c.masterNode → c.batchesOf p ≠ [])
    (hbatch : c.batches.flatten ≠ []) :
    ∃ (computed : Nat → List BlazingTable) (s : ClusterState) (merged : Nat → List BlazingTable),
      (∀ p, KernelReturned .compute (ComputeAggregateKernel.task computeDropEmpty e)
        (c.batchesOf p) (computed p)) ∧
      ClusterReachable (c.distributeSetup hash e dropEmpty) computed s ∧
      (∀ p < c.totalNodes, ∃ T, (s.nodes p).phase = .released T) ∧
      ∀ n < c.totalNodes,
        MergeReturned (c.context n) mergeDropEmpty e (s.nodes n).cache (merged n) := by
  -- Distribute：全部の node が `wait_for_count` を抜ける
  obtain ⟨s, hs, hdone⟩ := exists_released_of_init (d := c.distributeSetup hash e dropEmpty)
    fun p => (c.batchesOf p).map (scalarPartial e)
  -- Merge：どの node の `do_process` も成功する
  obtain ⟨merged, hmerged⟩ := exists_mergeReturned mergeDropEmpty fun n hn =>
    (merge_cache_of_released hG hA hbusy hbatch (fun _ => .refl _) hs hdone hn).imp fun _ h => h.1
  exact ⟨_, s, merged, kernelReturned_compute_scalar computeDropEmpty hG hA hcols, hs, hdone,
    hmerged⟩

end Pipeline

/-! ## 二つの node のクラスタ -/

theorem exists_scalarPipeline_returned_twoKeyNodes :
    (sumAll 1).groupColumnIndices.length = 0 ∧ (sumAll 1).aggregationTypes.length ≠ 0 ∧
      (∀ i ∈ (sumAll 1).aggregationInputExpressions, i < twoKeyNodes.schema.length) ∧
      (∀ p < twoKeyNodes.totalNodes, p ≠ twoKeyNodes.masterNode → twoKeyNodes.batchesOf p ≠ []) ∧
      twoKeyNodes.batches.flatten ≠ [] ∧
      ∃ (computed : Nat → List BlazingTable) (s : ClusterState) (merged : Nat → List BlazingTable),
        (∀ p, KernelReturned .compute (ComputeAggregateKernel.task false (sumAll 1))
          (twoKeyNodes.batchesOf p) (computed p)) ∧
        ClusterReachable (twoKeyNodes.distributeSetup valueSum (sumAll 1) false) computed s ∧
        (∀ p < twoKeyNodes.totalNodes, ∃ T, (s.nodes p).phase = .released T) ∧
        ∀ n < twoKeyNodes.totalNodes,
          MergeReturned (twoKeyNodes.context n) true (sumAll 1) (s.nodes n).cache (merged n) :=
  ⟨by rfl, by decide, by decide, busy_twoKeyNodes, by simp [twoKeyNodes, twoNodes],
    exists_scalarPipeline_returned valueSum false false true (by rfl) (by decide) (by decide)
      busy_twoKeyNodes (by simp [twoKeyNodes, twoNodes])⟩

theorem scalarPipeline_law_twoKeyNodes :
    ∃ computed s merged, (sumAll 1).groupColumnIndices.length = 0 ∧
      (sumAll 1).aggregationTypes.length ≠ 0 ∧
      (∀ i ∈ (sumAll 1).aggregationInputExpressions, i < twoKeyNodes.schema.length) ∧
      (∀ p < twoKeyNodes.totalNodes, p ≠ twoKeyNodes.masterNode → twoKeyNodes.batchesOf p ≠ []) ∧
      twoKeyNodes.batches.flatten ≠ [] ∧
      (∀ p, KernelReturned .compute (ComputeAggregateKernel.task false (sumAll 1))
        (twoKeyNodes.batchesOf p) (computed p)) ∧
      ClusterReachable (twoKeyNodes.distributeSetup valueSum (sumAll 1) false) computed s ∧
      (∀ p < twoKeyNodes.totalNodes, ∃ T, (s.nodes p).phase = .released T) ∧
      (∀ n < twoKeyNodes.totalNodes,
        MergeReturned (twoKeyNodes.context n) true (sumAll 1) (s.nodes n).cache (merged n)) ∧
      DistributedLaw (sumAll 1) twoKeyNodes
        ((List.range twoKeyNodes.totalNodes).map merged).flatten := by
  obtain ⟨s, hs, hdone⟩ := twoKeyNodes_scalar_released
  obtain ⟨merged, hmerged⟩ := exists_mergeReturned (e := sumAll 1) true fun n hn =>
    (merge_cache_of_released (by rfl) (by decide) busy_twoKeyNodes
      (by simp [twoKeyNodes, twoNodes]) (fun _ => .refl _) hs hdone hn).imp fun _ h => h.1
  have hcompute := kernelReturned_compute_scalar (c := twoKeyNodes) (e := sumAll 1) false (by rfl)
    (by decide) (by decide)
  exact ⟨_, s, merged, rfl, by decide, by decide, busy_twoKeyNodes,
    by simp [twoKeyNodes, twoNodes], hcompute, hs, hdone, hmerged,
    scalarPipeline_law false true (by rfl) (by decide) (by decide) busy_twoKeyNodes
      (by simp [twoKeyNodes, twoNodes]) hcompute hs hdone hmerged⟩

theorem groupedPipeline_law_twoKeyNodes :
    ∃ computed s merged,
      (sumBy 0 1).groupColumnIndices = List.range (sumBy 0 1).groupColumnIndices.length ∧
      (sumBy 0 1).groupColumnIndices.length ≠ 0 ∧
      (∀ i ∈ (sumBy 0 1).aggregationInputExpressions ++ (sumBy 0 1).groupColumnIndices,
        i < twoKeyNodes.schema.length) ∧
      twoKeyNodes.batches.flatten ≠ [] ∧
      (true = false ∨ ∀ b ∈ twoKeyNodes.batches.flatten, 0 < b.numRows) ∧
      (∀ p, KernelReturned .compute (ComputeAggregateKernel.task true (sumBy 0 1))
        (twoKeyNodes.batchesOf p) (computed p)) ∧
      ClusterReachable (twoKeyNodes.distributeSetup valueSum (sumBy 0 1) false) computed s ∧
      (∀ p < twoKeyNodes.totalNodes, ∃ T, (s.nodes p).phase = .released T) ∧
      (∀ n < twoKeyNodes.totalNodes,
        MergeReturned (twoKeyNodes.context n) true (sumBy 0 1) (s.nodes n).cache (merged n)) ∧
      DistributedLaw (sumBy 0 1) twoKeyNodes
        ((List.range twoKeyNodes.totalNodes).map merged).flatten := by
  have hrows : ∀ b ∈ twoKeyNodes.batches.flatten, 0 < b.numRows := by decide
  obtain ⟨s, hs, hdone⟩ := twoKeyNodes_released
  obtain ⟨merged, hmerged⟩ := exists_mergeReturned (e := sumBy 0 1) true
    (doProcess_ok_of_released_grouped (by decide) (by decide) (by decide)
      (by simp [twoKeyNodes, twoNodes]) (fun _ => .refl _) hs hdone)
  have hcompute := kernelReturned_compute_grouped (c := twoKeyNodes) (e := sumBy 0 1) true
    (by decide) (by decide) (.inr hrows)
  exact ⟨_, s, merged, rfl, by decide, by decide, by simp [twoKeyNodes, twoNodes], .inr hrows,
    hcompute, hs, hdone, hmerged, groupedPipeline_law true true rfl (by decide) (by decide)
      (by simp [twoKeyNodes, twoNodes]) (.inr hrows) hcompute hs hdone hmerged⟩

end BlazingSql
