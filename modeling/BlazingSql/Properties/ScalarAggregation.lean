import BlazingSql.Properties.DistributedAggregation
import BlazingSql.Properties.EmptyMerge

/-!
# group のない aggregation の法則

`SELECT SUM(v)` のように group の列がない aggregation では、Distribute は hash しない。
master は部分結果を自分の cache に入れ、master でない node は部分結果を master に送り、
最初の batch で同じ列名の空の table を一つ自分の cache に入れる
（`set_empty_part_for_non_master_node`）。Merge は master でだけ演算をかけ直す。

batch のない master でない node では Merge が失敗する（`BlazingSql/Properties/EmptyMerge.lean`）。
ここでは逆に、master でない node がどれも batch を持てば法則が成り立つことを示す。

* `processBatches_master`・`processBatches_nonMaster` — 一つの node の Distribute の action の列
* `aggregateRow_merge_scalar` — 部分結果の行に書き換えた演算をかけると、全部の行に
  元の演算をかけた行になる
* `mergeOutputs_scalar` — Merge の入力がどの順で届いても、master は全部の行に一度
  aggregation をかけた一行を出し、ほかの node は行を出さない
* `lawForEveryOrder_scalar` — したがって法則が成り立つ
-/

namespace BlazingSql

/-- group のない形の Compute の出力。batch の全部の行から作った一行。 -/
def scalarPartial (e : GroupByExpression) (b : BlazingTable) : BlazingTable :=
  ⟨e.aggregationColumnAssignedAliases, [aggregateRow e.aggregations b.rows], by
    simp [e.aliases_length]⟩

@[simp] theorem scalarPartial_names (e : GroupByExpression) (b : BlazingTable) :
    (scalarPartial e b).names = e.aggregationColumnAssignedAliases := rfl

@[simp] theorem scalarPartial_rows (e : GroupByExpression) (b : BlazingTable) :
    (scalarPartial e b).rows = [aggregateRow e.aggregations b.rows] := rfl

/-- group がなく aggregation がある形では、Compute は `scalarPartial` を返す。 -/
theorem compute_scalar {e : GroupByExpression} {b : BlazingTable}
    (hG : e.groupColumnIndices.length = 0) (hA : e.aggregationTypes.length ≠ 0)
    (hcols : ∀ i ∈ e.aggregationInputExpressions, i < b.names.length) :
    ComputeAggregateKernel.doProcess e b = .ok (scalarPartial e b) := by
  simp only [ComputeAggregateKernel.doProcess, if_neg hA, if_pos hG,
    computeAggregationsWithoutGroupby, checkColumns_eq_ok.mpr hcols]
  rfl

/-! ## Distribute -/

section Distribute

variable {hash : Row → Nat} {e : GroupByExpression} {cols : List Nat} {ctx : Context}

/-- **master の Distribute は、部分結果をどれもそのまま自分の cache に入れる。** -/
theorem processBatches_master (hG : e.groupColumnIndices.length = 0)
    (hm : ctx.isMasterNode = true) :
    ∀ (flag : Bool) (Ps : List BlazingTable),
      DistributeAggregateKernel.processBatches hash ctx e cols flag Ps =
        .ok (Ps.map fun P => .addToCache P false)
  | _, [] => rfl
  | flag, P :: Ps => by
    simp only [DistributeAggregateKernel.processBatches, DistributeAggregateKernel.doProcess,
      if_pos hG, if_pos hm, bind, Except.bind]
    rw [processBatches_master hG hm _ Ps]
    rfl

/--
**master でない node の Distribute は、部分結果をどれも master に送る。**
`set_empty_part_for_non_master_node` が立っていなければ、その前に、最初の部分結果と同じ
列名の空の table を一つ自分の cache に入れ、flag を立てる。
-/
theorem processBatches_nonMaster (hG : e.groupColumnIndices.length = 0)
    (hm : ctx.isMasterNode = false) :
    ∀ (flag : Bool) (Ps : List BlazingTable),
      DistributeAggregateKernel.processBatches hash ctx e cols flag Ps =
        .ok ((((if flag then [] else Ps.take 1).map fun P =>
            [.addToCache (createEmptyTable P) true, .setEmptyPart]).flatten ++
          (Ps.map fun P => sendMessage P ctx.masterNode).flatten))
  | flag, [] => by cases flag <;> rfl
  | flag, P :: Ps => by
    simp only [DistributeAggregateKernel.processBatches, DistributeAggregateKernel.doProcess,
      if_pos hG, hm, Bool.false_eq_true, if_false, bind, Except.bind]
    rw [processBatches_nonMaster hG hm _ Ps]
    cases flag <;> simp [setsEmptyPart, pure, Except.pure]

theorem localDeposits_map_addToCache (d : Bool) (Ps : List BlazingTable) :
    localDeposits d (Ps.map fun P => .addToCache P false) =
      Ps.filter fun P => accepts d P false := by
  induction Ps with
  | nil => rfl
  | cons P Ps ih =>
    simp only [List.map_cons, localDeposits, ih, List.filter_cons]
    split <;> rfl

theorem messagesTo_map_addToCache (n : Nat) (Ps : List BlazingTable) :
    messagesTo n (Ps.map fun P => .addToCache P false) = [] := by
  induction Ps with
  | nil => rfl
  | cons P Ps ih => simp [messagesTo, ih]

theorem localDeposits_nonMaster (d flag : Bool) (m : Nat) (Ps : List BlazingTable) :
    localDeposits d ((((if flag then [] else Ps.take 1).map fun P =>
        [.addToCache (createEmptyTable P) true, .setEmptyPart]).flatten ++
      (Ps.map fun P => sendMessage P m).flatten)) =
      (if flag then [] else Ps.take 1).map createEmptyTable := by
  simp [localDeposits_flatten, Function.comp_def, localDeposits, accepts, sendMessage]
  exact (List.map_eq_flatMap _ _).symm

theorem messagesTo_nonMaster (n : Nat) (flag : Bool) (m : Nat) (Ps : List BlazingTable) :
    messagesTo n ((((if flag then [] else Ps.take 1).map fun P =>
        [.addToCache (createEmptyTable P) true, .setEmptyPart]).flatten ++
      (Ps.map fun P => sendMessage P m).flatten)) = if m = n then Ps else [] := by
  simp [messagesTo_flatten, Function.comp_def, messagesTo, sendMessage]
  split
  · exact List.flatMap_singleton' Ps
  · simp

end Distribute

/--
**group のない形の node `p` の Distribute。** master は部分結果を全部自分の cache に入れ、
master でない node は全部 master に送るので、どの node からも master には自分の部分結果が
そのまま届く。自分には何も送らず、master でない node は最初の部分結果の空の table だけを
自分の cache に入れる。
-/
theorem distributeActions_scalar {hash : Row → Nat} (d : Bool) {e : GroupByExpression}
    {cols : List Nat} {c : ClusterInput} (hG : e.groupColumnIndices.length = 0)
    (hA : e.aggregationTypes.length ≠ 0)
    (hcols : ∀ i ∈ e.aggregationInputExpressions, i < c.schema.length) (p : Nat) :
    ∃ acts, distributeActions hash e cols c p = .ok acts ∧
      arrivalsFrom d acts p c.masterNode = (c.batchesOf p).map (scalarPartial e) ∧
      messagesTo p acts = [] ∧
      (p ≠ c.masterNode →
        localDeposits d acts =
          (((c.batchesOf p).map (scalarPartial e)).take 1).map createEmptyTable) := by
  have hcompute : (c.batchesOf p).mapM (ComputeAggregateKernel.doProcess e) =
      .ok ((c.batchesOf p).map (scalarPartial e)) :=
    mapM_eq_ok_map fun b hb => compute_scalar hG hA (by rw [names_of_mem_batchesOf hb]; exact hcols)
  simp only [distributeActions, hcompute, bind, Except.bind]
  by_cases hp : p = c.masterNode
  · have hm : (c.context p).isMasterNode = true := by
      simp [Context.isMasterNode, ClusterInput.context, hp]
    rw [processBatches_master hG hm]
    refine ⟨_, rfl, ?_, messagesTo_map_addToCache p _, fun h => absurd hp h⟩
    rw [arrivalsFrom, if_pos hp, localDeposits_map_addToCache, List.filter_eq_self]
    simp [accepts, BlazingTable.numRows]
  · have hm : (c.context p).isMasterNode = false := by
      simp [Context.isMasterNode, ClusterInput.context, hp]
    rw [processBatches_nonMaster hG hm]
    refine ⟨_, rfl, ?_, ?_, fun _ => localDeposits_nonMaster d false _ _⟩
    · rw [arrivalsFrom, if_neg hp, messagesTo_nonMaster]
      simp [ClusterInput.context]
    · rw [messagesTo_nonMaster, if_neg (Ne.symm hp : (c.context p).masterNode ≠ p)]

/-! ## Merge -/

/-- **batch ごとの部分結果の一行に書き換えた演算をかけると、全部の行に元の演算をかけた
一行になる。** batch は一つ以上あればよく、行のない batch があってもよい。 -/
theorem aggregateRow_merge_scalar {types : List AggregateKind} {inputs : List Nat}
    (hlen : inputs.length = types.length) {Bs : List (List Row)} (hBs : Bs ≠ []) :
    aggregateRow ((types.map mergeKind).zip (List.range types.length))
        (Bs.map (aggregateRow (types.zip inputs))) =
      aggregateRow (types.zip inputs) Bs.flatten := by
  apply List.ext_getElem (by simp [hlen])
  intro i h1 h2
  have hi : i < types.length := by simpa using h1
  have hi' : i < inputs.length := by omega
  simp only [aggregateRow, List.getElem_map, List.getElem_zip, List.getElem_range, List.map_map,
    Function.comp_def, List.map_flatten]
  rw [← aggregate_mergeKind_flatten _ (by simpa using hBs), List.map_map]
  congr 1
  refine List.map_congr_left fun rows _ => ?_
  simp [List.getD_eq_getElem?_getD, hi, hi']

/-- **group のない形の Merge。** 入力が一つ以上あり、どれも aggregation の数だけ列を持つなら、
master は入力の行をつないだものに書き換えた演算をかけた一行を出し、ほかの node は
つないだ行をそのまま出す。 -/
theorem merge_scalar (ctx : Context) {e : GroupByExpression}
    (hG : e.groupColumnIndices.length = 0) (hA : e.aggregationTypes.length ≠ 0)
    {ts : List BlazingTable} (hne : ts ≠ [])
    (hnames : ∀ t ∈ ts, t.names.length = e.aggregationTypes.length) :
    ∃ out, MergeAggregateKernel.doProcess ctx e ts = .ok out ∧
      out.rows = if ctx.isMasterNode then
          [aggregateRow
            ((e.aggregationTypes.map mergeKind).zip (List.range e.aggregationTypes.length))
            (ts.map BlazingTable.rows).flatten]
        else (ts.map BlazingTable.rows).flatten := by
  obtain ⟨t, ts, rfl⟩ := List.exists_cons_of_ne_nil hne
  have ht := hnames t (List.mem_cons_self t ts)
  obtain ⟨C, hC, hCnames, hCrows⟩ := @concatTables_rows t ts fun u hu => by
    rw [hnames u (List.mem_cons_of_mem t hu), ht]
  have hwidth : C.names.length = e.aggregationTypes.length := by rw [hCnames, ht]
  simp only [MergeAggregateKernel.doProcess, hC, bind, Except.bind,
    MergeAggregateKernel.mergeConcatenated, modGroupByParametersForMerge, hG, hwidth, if_neg hA,
    zero_add, le_refl, or_true, dite_true, if_true, add_zero, List.map_id']
  cases ctx.isMasterNode
  · exact ⟨C, rfl, by simp [hCrows]⟩
  · have hcheck : checkColumns C (List.range e.aggregationTypes.length) = .ok () :=
      checkColumns_eq_ok.mpr fun i hi => hwidth ▸ List.mem_range.mp hi
    simp only [computeAggregationsWithoutGroupby, if_true, hcheck, bind, Except.bind, pure,
      Except.pure]
    exact ⟨_, rfl, by simp [hCrows, GroupByExpression.aggregations]⟩

/-! ## クラスタ全体 -/

/-- 全部の batch の全部の行に一度 aggregation をかけた一行。 -/
def wholeRow (e : GroupByExpression) (c : ClusterInput) : Row :=
  aggregateRow e.aggregations (c.batches.flatten.map BlazingTable.rows).flatten

section Cluster

variable {e : GroupByExpression} {c : ClusterInput}

/-- **部分結果が全部、どの順ででも master に届けば、master の Merge は全部の行に一度
aggregation をかけた一行を出す。** -/
theorem merge_master_scalar (hG : e.groupColumnIndices.length = 0)
    (hA : e.aggregationTypes.length ≠ 0) (hbatch : c.batches.flatten ≠ []) {ts : List BlazingTable}
    (hts : ts.Perm (c.batches.flatten.map (scalarPartial e))) :
    ∃ out, MergeAggregateKernel.doProcess (c.context c.masterNode) e ts = .ok out ∧
      out.rows = [wholeRow e c] := by
  have hne : ts ≠ [] := fun h => by
    rw [h] at hts
    exact hbatch (List.map_eq_nil_iff.mp hts.nil_eq.symm)
  obtain ⟨out, hout, hrows⟩ := merge_scalar (c.context c.masterNode) hG hA hne fun t ht => by
    obtain ⟨b, -, rfl⟩ := List.mem_map.mp (hts.subset ht)
    simp [e.aliases_length]
  have hm : (c.context c.masterNode).isMasterNode = true := by
    simp [Context.isMasterNode, ClusterInput.context]
  refine ⟨out, hout, ?_⟩
  rw [hrows, if_pos hm, aggregateRow_perm _ ((hts.map BlazingTable.rows).flatten), wholeRow,
    GroupByExpression.aggregations, ← aggregateRow_merge_scalar e.inputs_length
      (mt List.map_eq_nil_iff.mp hbatch)]
  simp only [List.map_map, Function.comp_def, scalarPartial_rows,
    GroupByExpression.aggregations, ← List.flatMap_def, ← List.map_eq_flatMap]

/-- master でない node の Merge は、aggregation の数だけ列を持つ行のない table を一つ以上
受け取れば、行を出さない。 -/
theorem merge_nonMaster_scalar (hG : e.groupColumnIndices.length = 0)
    (hA : e.aggregationTypes.length ≠ 0) {n : Nat} (hn : n ≠ c.masterNode) {ts : List BlazingTable}
    (hne : ts ≠ []) (hts : ∀ t ∈ ts, t.names.length = e.aggregationTypes.length ∧ t.rows = []) :
    ∃ out, MergeAggregateKernel.doProcess (c.context n) e ts = .ok out ∧ out.rows = [] := by
  obtain ⟨out, hout, hrows⟩ := merge_scalar (c.context n) hG hA hne fun t ht => (hts t ht).1
  have hm : (c.context n).isMasterNode = false := by
    simpa [Context.isMasterNode, ClusterInput.context] using hn
  refine ⟨out, hout, ?_⟩
  simpa [hrows, hm, List.flatten_eq_nil_iff] using fun t ht => (hts t ht).2

/-- Merge の出力の行を全部合わせると、全部の行に一度 aggregation をかけた一行だけなら、
分散 aggregation の法則が成り立つ。 -/
theorem distributedLaw_of_wholeRow (hG : e.groupColumnIndices.length = 0)
    (hA : e.aggregationTypes.length ≠ 0)
    (hcols : ∀ i ∈ e.aggregationInputExpressions, i < c.schema.length)
    (hbatch : c.batches.flatten ≠ []) {outs : List BlazingTable}
    (hrows : (outs.map BlazingTable.rows).flatten.Perm [wholeRow e c]) :
    DistributedLaw e c outs := by
  obtain ⟨whole, hwhole, hwnames, hwrows⟩ := concatTables_batches hbatch
  exact ⟨whole, _, hwhole, compute_scalar hG hA (hwnames ▸ hcols),
    hrows.trans (List.Perm.of_eq (by simp [wholeRow, hwrows]))⟩

/-- master だけが一行 `w` を出し、ほかの node が行を出さなければ、node の行を合わせると `[w]`。 -/
theorem flatten_rows_master (R : Nat → List Row) (w : Row)
    (hR : ∀ n < c.totalNodes, R n = if n = c.masterNode then [w] else []) :
    ((List.range c.totalNodes).map R).flatten.Perm [w] := by
  have hone := perm_flatten_map_ite [w] (fun _ => []) (List.nodup_range c.totalNodes)
    (List.mem_range.mpr c.master_lt)
  have hR' : (List.range c.totalNodes).map R = (List.range c.totalNodes).map fun n =>
      if c.masterNode = n then [w] ++ (fun _ => ([] : List Row)) n else (fun _ => []) n :=
    List.map_congr_left fun n hn => by rw [hR n (List.mem_range.mp hn)]; simp [eq_comm]
  rw [hR']
  exact hone.trans (by simp)

/-- master が全部の行に一度 aggregation をかけた一行を出し、ほかの node が行を出さなければ、
分散 aggregation の法則が成り立つ。 -/
theorem distributedLaw_scalar (hG : e.groupColumnIndices.length = 0)
    (hA : e.aggregationTypes.length ≠ 0)
    (hcols : ∀ i ∈ e.aggregationInputExpressions, i < c.schema.length)
    (hbatch : c.batches.flatten ≠ []) {outs : List BlazingTable}
    (hrel : List.Forall₂ (fun n out => out.rows = if n = c.masterNode then [wholeRow e c] else [])
      (List.range c.totalNodes) outs) :
    DistributedLaw e c outs :=
  distributedLaw_of_wholeRow hG hA hcols hbatch
    ((perm_flatten_of_forall₂ (hrel.imp fun _ _ h => List.Perm.of_eq h)).trans
      (flatten_rows_master _ _ fun _ _ => rfl))

/--
**group のない aggregation の各 node の Merge の出力。**

master でない node がどれも batch を持ち、入力が空でなければ、Merge の入力がどの順で
届いても、master は全部の行に一度 aggregation をかけた一行を出し、ほかの node は
空の table を一つだけ受け取って、行を出さない。
-/
theorem mergeOutputs_scalar (hash : Row → Nat) (dropEmpty : Bool) (cols : List Nat)
    (hG : e.groupColumnIndices.length = 0) (hA : e.aggregationTypes.length ≠ 0)
    (hcols : ∀ i ∈ e.aggregationInputExpressions, i < c.schema.length)
    (hbusy : ∀ p < c.totalNodes, p ≠ c.masterNode → c.batchesOf p ≠ [])
    (hbatch : c.batches.flatten ≠ []) :
    ∃ acts, (List.range c.totalNodes).mapM (distributeActions hash e cols c) = .ok acts ∧
      ∀ arrivals : Nat → List BlazingTable,
        (∀ n < c.totalNodes, (arrivals n).Perm (mergeInputs dropEmpty acts n)) →
        ∃ outs, mergeOutputs e c arrivals = .ok outs ∧
          List.Forall₂ (fun n out => out.rows = if n = c.masterNode then [wholeRow e c] else [])
            (List.range c.totalNodes) outs := by
  set N := c.totalNodes
  set m := c.masterNode
  choose actsOf hacts harrM hself hlocal using
    fun p => @distributeActions_scalar hash dropEmpty e cols c hG hA hcols p
  have hmapM : (List.range N).mapM (distributeActions hash e cols c) =
      .ok ((List.range N).map actsOf) :=
    mapM_eq_ok_map fun p _ => hacts p
  refine ⟨_, hmapM, fun arrivals harr => ?_⟩
  set acts := (List.range N).map actsOf
  -- master には、どの node からも部分結果が全部届く
  have hmaster : (arrivals m).Perm (c.batches.flatten.map (scalarPartial e)) := by
    refine (harr m c.master_lt).trans ((perm_mergeInputs dropEmpty actsOf c.master_lt
      (hself m)).trans (List.Perm.of_eq ?_))
    rw [batches_eq_map_batchesOf c, List.map_flatten, List.map_map]
    exact congrArg List.flatten (List.map_congr_left fun p _ => harrM p)
  -- master でない node には、自分の最初の部分結果の空の table が一つだけ
  have hother : ∀ n < N, n ≠ m → ∃ b, arrivals n = [createEmptyTable (scalarPartial e b)] := by
    intro n hn hnm
    obtain ⟨b, bs, hbs⟩ := List.exists_cons_of_ne_nil (hbusy n hn hnm)
    have hsent : (acts.map (messagesTo n)).flatten = [] := by
      simp only [List.flatten_eq_nil_iff, List.mem_map]
      rintro _ ⟨a, ha, rfl⟩
      obtain ⟨q, -, rfl⟩ := List.mem_map.mp ha
      exact messagesTo_distributeActions_scalar hG hnm (hacts q)
    have hin : mergeInputs dropEmpty acts n = [createEmptyTable (scalarPartial e b)] := by
      rw [mergeInputs, hsent, List.append_nil, getD_map_range _ hn, hlocal n hnm, hbs]
      rfl
    exact ⟨b, List.perm_singleton.mp (hin ▸ harr n hn)⟩
  have hmerge : ∀ n ∈ List.range N, ∃ out,
      MergeAggregateKernel.doProcess (c.context n) e (arrivals n) = .ok out ∧
      out.rows = if n = m then [wholeRow e c] else [] := by
    intro n hn
    have hn : n < N := List.mem_range.mp hn
    by_cases hnm : n = m
    · rw [hnm, if_pos rfl]
      exact merge_master_scalar hG hA hbatch hmaster
    · obtain ⟨b, hb⟩ := hother n hn hnm
      rw [if_neg hnm]
      exact merge_nonMaster_scalar hG hA hnm (by simp [hb]) (by simp [hb, e.aliases_length])
  exact mapM_eq_ok hmerge

/--
**group のない aggregation は、master でない node がどれも batch を持ち、入力が空でなければ、
Merge の入力がどの順で届いても、全部の行に一度 aggregation をかけたものに等しい。**

Distribute は hash しないので、`columnsToHash` は何でもよい。
-/
theorem lawForEveryOrder_scalar {hash : Row → Nat} (dropEmpty : Bool) (cols : List Nat)
    (hG : e.groupColumnIndices.length = 0) (hA : e.aggregationTypes.length ≠ 0)
    (hcols : ∀ i ∈ e.aggregationInputExpressions, i < c.schema.length)
    (hbusy : ∀ p < c.totalNodes, p ≠ c.masterNode → c.batchesOf p ≠ [])
    (hbatch : c.batches.flatten ≠ []) :
    LawForEveryOrder hash dropEmpty e cols c := by
  obtain ⟨acts, hacts, hall⟩ := mergeOutputs_scalar hash dropEmpty cols hG hA hcols hbusy hbatch
  refine ⟨acts, hacts, fun arrivals harr => ?_⟩
  obtain ⟨outs, houts, hrel⟩ := hall arrivals harr
  exact ⟨outs, houts, distributedLaw_scalar hG hA hcols hbatch hrel⟩

end Cluster

/-- 二つの node がどちらも batch を持つクラスタの `SELECT SUM(v)`。 -/
theorem lawForEveryOrder_scalar_twoNodes :
    (sumAll 1).groupColumnIndices.length = 0 ∧ (sumAll 1).aggregationTypes.length ≠ 0 ∧
    (∀ i ∈ (sumAll 1).aggregationInputExpressions,
      i < (twoNodes "k" "v" (1, 10) (1, 5)).schema.length) ∧
    (∀ p < (twoNodes "k" "v" (1, 10) (1, 5)).totalNodes,
      p ≠ (twoNodes "k" "v" (1, 10) (1, 5)).masterNode →
        (twoNodes "k" "v" (1, 10) (1, 5)).batchesOf p ≠ []) ∧
    (twoNodes "k" "v" (1, 10) (1, 5)).batches.flatten ≠ [] ∧
    LawForEveryOrder valueSum false (sumAll 1) (DistributeAggregateKernel.columnsToHash (sumAll 1))
      (twoNodes "k" "v" (1, 10) (1, 5)) :=
  have hbusy : ∀ p < (twoNodes "k" "v" (1, 10) (1, 5)).totalNodes,
      p ≠ (twoNodes "k" "v" (1, 10) (1, 5)).masterNode →
        (twoNodes "k" "v" (1, 10) (1, 5)).batchesOf p ≠ [] := by
    intro p hp h0
    obtain rfl : p = 1 := by simp only [twoNodes] at hp h0; omega
    simp [twoNodes, ClusterInput.batchesOf]
  ⟨rfl, by decide, by decide, hbusy, by simp [twoNodes],
    lawForEveryOrder_scalar false _ rfl (by decide) (by decide) hbusy (by simp [twoNodes])⟩

example : (runAggregation valueSum false (sumAll 1) (twoNodes "k" "v" (1, 10) (1, 5))).map
    (·.map BlazingTable.rows) = .ok [[[some 15]], []] := rfl

end BlazingSql
