import BlazingSql.Properties.GroupBy
import BlazingSql.Properties.Routing

/-!
# 分散 aggregation の法則

クラスタ全体の Merge の出力を合わせたものと、全部の行に一度 aggregation をかけたものを比べる。

* `mergeOutputs_grouped` — group のある aggregation で、Distribute が部分結果のどの列で
  hash しても、node `n` の Merge は hash が `n` になる部分結果の行を group し直したものを出す
* `lawForEveryOrder_grouped` — 部分結果の key の列（先頭 `k` 列）で hash すれば、
  Merge の入力がどの順で届いても法則が成り立つ
* `lawForEveryOrder_leading_keys` — src/ の Distribute は `group_column_indices` の位置で hash する。
  group の列が入力の先頭 `k` 列ならこれは部分結果の key の列と同じで、法則が成り立つ
* `runAggregation_key_split` — group の列が先頭にないと、同じ key が二つの node に分かれる
-/

namespace BlazingSql

/-- Merge の入力がどの順で届いても、法則が成り立つ。 -/
def LawForEveryOrder (hash : Row → Nat) (dropEmpty : Bool) (e : GroupByExpression)
    (columnsToHash : List Nat) (c : ClusterInput) : Prop :=
  ∃ acts, (List.range c.totalNodes).mapM (distributeActions hash e columnsToHash c) = .ok acts ∧
    ∀ arrivals : Nat → List BlazingTable,
      (∀ n < c.totalNodes, (arrivals n).Perm (mergeInputs dropEmpty acts n)) →
      ∃ outs, mergeOutputs e c arrivals = .ok outs ∧ DistributedLaw e c outs

/-! ## Compute -/

/-- group のある形では、Compute は `groupedTable` を返す（aggregation がなくても同じ式）。 -/
theorem compute_grouped {e : GroupByExpression} {b : BlazingTable}
    (hG : e.groupColumnIndices.length ≠ 0)
    (hcols : ∀ i ∈ e.aggregationInputExpressions ++ e.groupColumnIndices, i < b.names.length) :
    ComputeAggregateKernel.doProcess e b = .ok (groupedTable b e.groupColumnIndices e.aggregations
      e.aggregationColumnAssignedAliases (by simp [e.aliases_length])) := by
  unfold ComputeAggregateKernel.doProcess
  split
  · rename_i h0
    have hg : ∀ i ∈ e.groupColumnIndices, i < b.names.length :=
      fun i hi => hcols i (List.mem_append_right _ hi)
    have htypes : e.aggregationTypes = [] := List.eq_nil_of_length_eq_zero h0
    have haggs : e.aggregations = [] := by simp [GroupByExpression.aggregations, htypes]
    have haliases : e.aggregationColumnAssignedAliases = [] :=
      List.eq_nil_of_length_eq_zero (by rw [e.aliases_length, h0])
    simp only [computeGroupbyWithoutAggregations, checkColumns_eq_ok.mpr hg, bind, Except.bind,
      pure, Except.pure, Except.ok.injEq]
    ext1 <;> simp [groupedTable, haggs, haliases]
  · simp only [if_neg hG, computeAggregationsWithGroupby, checkColumns_eq_ok.mpr hcols]
    rfl

/-- group のある形の Compute の出力。 -/
def partialTable (e : GroupByExpression) (b : BlazingTable) : BlazingTable :=
  groupedTable b e.groupColumnIndices e.aggregations e.aggregationColumnAssignedAliases
    (by simp [e.aliases_length])

@[simp] theorem partialTable_rows (e : GroupByExpression) (b : BlazingTable) :
    (partialTable e b).rows = partialRows e.groupColumnIndices e.aggregations b.rows := rfl

theorem partialTable_names (e : GroupByExpression) (b : BlazingTable) :
    (partialTable e b).names =
      e.groupColumnIndices.map (b.names.getD · "") ++ e.aggregationColumnAssignedAliases := rfl

theorem length_partialTable_names (e : GroupByExpression) (b : BlazingTable) :
    (partialTable e b).names.length =
      e.groupColumnIndices.length + e.aggregationTypes.length := by
  simp [partialTable_names, e.aliases_length]

/-! ## 入力 -/

theorem names_of_mem_batchesOf {c : ClusterInput} {n : Nat} {b : BlazingTable}
    (h : b ∈ c.batchesOf n) : b.names = c.schema := by
  unfold ClusterInput.batchesOf at h
  rw [List.getD_eq_getElem?_getD] at h
  cases hb : c.batches[n]? with
  | none => simp [hb] at h
  | some bs =>
    rw [hb, Option.getD_some] at h
    exact c.schema_eq bs (List.getElem?_mem hb) b h

theorem batches_eq_map_batchesOf (c : ClusterInput) :
    c.batches = (List.range c.totalNodes).map c.batchesOf := by
  apply List.ext_getElem (by simp [c.batches_length])
  intro i h1 h2
  simp [ClusterInput.batchesOf, List.getD_eq_getElem?_getD, List.getElem?_eq_getElem h1]

/-! ## Distribute の partition -/

/-- 部分結果 `P` の partition の列 `ps` が満たすこと：partition `i` は bucket `i` の行を持ち、
どれも `P` の列名を持つ。 -/
def PiecesOf (hash : Row → Nat) (cols : List Nat) (numPartitions : Nat) (P : BlazingTable)
    (ps : List BlazingTable) : Prop :=
  ps.map BlazingTable.rows = (List.range numPartitions).map (bucketRows hash cols numPartitions P.rows) ∧
    ∀ q ∈ ps, q.names = P.names

section Grouped

variable {hash : Row → Nat} {e : GroupByExpression} {c : ClusterInput}

/-- **group のある形では、node `p` の Distribute の action は、部分結果ごとの scatter を
つないだものになる。** partition は部分結果の `columnsToHash` の列で hash する。 -/
theorem distributeActions_grouped {columnsToHash : List Nat} (hG : e.groupColumnIndices.length ≠ 0)
    (hcols : ∀ i ∈ e.aggregationInputExpressions ++ e.groupColumnIndices, i < c.schema.length)
    (hhash : ∀ i ∈ columnsToHash, i < e.groupColumnIndices.length + e.aggregationTypes.length)
    (p : Nat) :
    ∃ pss, distributeActions hash e columnsToHash c p =
        .ok ((pss.map (scatter (c.context p))).flatten) ∧
      List.Forall₂ (PiecesOf hash columnsToHash c.totalNodes)
        ((c.batchesOf p).map (partialTable e)) pss := by
  have hcompute : (c.batchesOf p).mapM (ComputeAggregateKernel.doProcess e) =
      .ok ((c.batchesOf p).map (partialTable e)) :=
    mapM_eq_ok_map fun b hb => compute_grouped hG (by rw [names_of_mem_batchesOf hb]; exact hcols)
  have hparts : ∀ P ∈ (c.batchesOf p).map (partialTable e), ∃ ps,
      DistributeAggregateKernel.partitions hash (c.context p) columnsToHash P = .ok ps ∧
      PiecesOf hash columnsToHash c.totalNodes P ps := by
    intro P hP
    obtain ⟨b, -, rfl⟩ := List.mem_map.mp hP
    exact partitions_rows c.nodes_pos fun i hi => by rw [length_partialTable_names]; exact hhash i hi
  obtain ⟨pss, hpss, hrel⟩ := mapM_eq_ok hparts
  refine ⟨pss, ?_, hrel⟩
  simp only [distributeActions, hcompute, bind, Except.bind,
    processBatches_grouped hG, hpss]
  rfl

/-- node `n` に届く partition の行は、部分結果ごとの bucket `n` の行をつないだもの。 -/
theorem rows_pieces {cols : List Nat} {N n : Nat} (hn : n < N) :
    ∀ {partials : List BlazingTable} {pss : List (List BlazingTable)},
      List.Forall₂ (PiecesOf hash cols N) partials pss →
      (((pss.map fun ps => ps[n]?.toList).flatten).map BlazingTable.rows).flatten =
        (partials.map fun P => bucketRows hash cols N P.rows n).flatten
  | [], [], .nil => rfl
  | P :: partials, ps :: pss, .cons hP hrest => by
    have hrow : (ps.map BlazingTable.rows)[n]? = some (bucketRows hash cols N P.rows n) := by
      rw [hP.1]; simp [hn]
    rw [List.getElem?_map] at hrow
    obtain ⟨q, hq, hqrows⟩ := Option.map_eq_some'.mp hrow
    simp only [List.map_cons, List.flatten_cons, List.map_append, hq, Option.toList_some,
      List.map_singleton, List.flatten_append, List.flatten_singleton, hqrows,
      rows_pieces hn hrest, List.map_nil, List.flatten_nil, List.append_nil]

/-- node `n` に届く partition は、どれも部分結果の列名を持つ。 -/
theorem names_pieces {cols : List Nat} {N n : Nat} {names : List String} :
    ∀ {partials : List BlazingTable} {pss : List (List BlazingTable)},
      List.Forall₂ (PiecesOf hash cols N) partials pss → (∀ P ∈ partials, P.names = names) →
      ∀ q ∈ (pss.map fun ps => ps[n]?.toList).flatten, q.names = names
  | [], [], .nil, _ => by simp
  | P :: partials, ps :: pss, .cons hP hrest, hnames => by
    intro q hq
    simp only [List.map_cons, List.flatten_cons, List.mem_append] at hq
    rcases hq with hq | hq
    · rw [hP.2 q (List.getElem?_mem (Option.mem_toList.mp hq)),
        hnames P (List.mem_cons_self P partials)]
    · exact names_pieces hrest (fun P' hP' => hnames P' (List.mem_cons_of_mem P hP')) q hq

/-- 部分結果が一つでもあれば、どの node にも partition が一つ以上届く。 -/
theorem pieces_ne_nil {cols : List Nat} {N n : Nat} (hn : n < N) :
    ∀ {partials : List BlazingTable} {pss : List (List BlazingTable)},
      List.Forall₂ (PiecesOf hash cols N) partials pss → partials ≠ [] →
      (pss.map fun ps => ps[n]?.toList).flatten ≠ []
  | P :: _, ps :: _, .cons hP _, _ => by
    have hlen : ps.length = N := by simpa using congrArg List.length hP.1
    simp [List.getElem?_eq_getElem (show n < ps.length by omega)]

end Grouped

/-! ## Merge -/

/-- Merge が部分結果の行 `X` から作る行。先頭 `k` 列で group し直し、書き換えた演算をかける。 -/
def mergedRows (e : GroupByExpression) (X : List Row) : List Row :=
  partialRows (List.range e.groupColumnIndices.length)
    ((e.aggregationTypes.map mergeKind).zip
      ((List.range e.aggregationTypes.length).map (· + e.groupColumnIndices.length))) X

/--
**group のある形の Merge。** 入力が一つ以上あり、どれも幅 `k + aggregation の数` の同じ列名を
持つなら、出力の行は、つないだ行から作った `mergedRows`。
-/
theorem merge_grouped (ctx : Context) {e : GroupByExpression}
    (hG : e.groupColumnIndices.length ≠ 0) {ts : List BlazingTable} (hne : ts ≠ [])
    {names : List String} (hnames : ∀ t ∈ ts, t.names = names)
    (hlen : names.length = e.groupColumnIndices.length + e.aggregationTypes.length) :
    ∃ out, MergeAggregateKernel.doProcess ctx e ts = .ok out ∧
      out.rows = mergedRows e (ts.map BlazingTable.rows).flatten := by
  obtain ⟨t, ts, rfl⟩ := List.exists_cons_of_ne_nil hne
  have ht : t.names = names := hnames t (List.mem_cons_self t ts)
  obtain ⟨C, hC, hCnames, hCrows⟩ := @concatTables_rows t ts fun u hu => by
    rw [hnames u (List.mem_cons_of_mem t hu), ht]
  have hmod : modGroupByParametersForMerge e.groupColumnIndices e.aggregationTypes C.names =
      .ok { groupColumnIndices := List.range e.groupColumnIndices.length
            aggregationInputExpressions :=
              (List.range e.aggregationTypes.length).map (· + e.groupColumnIndices.length)
            aggregationTypes := e.aggregationTypes.map mergeKind
            aggregationColumnAssignedAliases :=
              (C.names.drop e.groupColumnIndices.length).take e.aggregationTypes.length
            inputs_length := by simp
            aliases_length := by simp [hCnames, ht, hlen] } := by
    rw [modGroupByParametersForMerge, dif_pos (Or.inr (by rw [hCnames, ht, hlen]))]
  have hwidth : C.names.length = e.groupColumnIndices.length + e.aggregationTypes.length := by
    rw [hCnames, ht, hlen]
  have hkeys : checkColumns C (List.range e.groupColumnIndices.length) = .ok () :=
    checkColumns_eq_ok.mpr fun i hi => by rw [hwidth]; have := List.mem_range.mp hi; omega
  have hall : checkColumns C ((List.range e.aggregationTypes.length).map
      (· + e.groupColumnIndices.length) ++ List.range e.groupColumnIndices.length) = .ok () :=
    checkColumns_eq_ok.mpr fun i hi => by
      simp only [List.mem_append, List.mem_map, List.mem_range] at hi
      rw [hwidth]
      omega
  simp only [MergeAggregateKernel.doProcess, hC, bind, Except.bind,
    MergeAggregateKernel.mergeConcatenated, hmod, if_neg hG]
  split
  · rename_i h0
    simp only [computeGroupbyWithoutAggregations, hkeys, bind, Except.bind, pure, Except.pure]
    exact ⟨_, rfl, by
      simp [groupedTable, mergedRows, partialRows, hCrows, List.eq_nil_of_length_eq_zero h0]⟩
  · simp only [computeAggregationsWithGroupby, hall, bind, Except.bind, pure, Except.pure]
    exact ⟨_, rfl, by simp [groupedTable, mergedRows, partialRows, hCrows, GroupByExpression.aggregations]⟩

/-! ## クラスタ全体 -/

/-- 全部の batch の部分結果の行。 -/
def computedRows (e : GroupByExpression) (c : ClusterInput) : List Row :=
  ((c.batches.flatten.map BlazingTable.rows).map
    (partialRows e.groupColumnIndices e.aggregations)).flatten

/-- 部分結果の行のうち、`columnsToHash` の列の hash で node `n` に行くもの。 -/
def routedRows (hash : Row → Nat) (columnsToHash : List Nat) (e : GroupByExpression)
    (c : ClusterInput) (n : Nat) : List Row :=
  (computedRows e c).filter fun pr => decide (bucketOf hash columnsToHash c.totalNodes pr = n)

/-- 入力が一つ以上あれば、全部の batch をつないだ table がある。列名は表の列名。 -/
theorem concatTables_batches {c : ClusterInput} (hbatch : c.batches.flatten ≠ []) :
    ∃ whole, concatTables c.batches.flatten = .ok (some whole) ∧ whole.names = c.schema ∧
      whole.rows = (c.batches.flatten.map BlazingTable.rows).flatten := by
  have hnames : ∀ b ∈ c.batches.flatten, b.names = c.schema := fun b hb => by
    obtain ⟨bs, hbs, hb⟩ := List.mem_flatten.mp hb
    exact c.schema_eq bs hbs b hb
  obtain ⟨b, bs, hbs⟩ := List.exists_cons_of_ne_nil hbatch
  have hb : b.names = c.schema := hnames b (by rw [hbs]; exact List.mem_cons_self b bs)
  obtain ⟨whole, hwhole, hwnames, hwrows⟩ := @concatTables_rows b bs fun u hu => by
    rw [hnames u (by rw [hbs]; exact List.mem_cons_of_mem b hu), hb]
  exact ⟨whole, by rw [hbs]; exact hwhole, hwnames.trans hb, by rw [hbs]; exact hwrows⟩

/-- 入力が一つ以上あれば、つないだ batch に Compute をかけた結果がある。 -/
theorem whole_grouped {e : GroupByExpression} {c : ClusterInput}
    (hG : e.groupColumnIndices.length ≠ 0)
    (hcols : ∀ i ∈ e.aggregationInputExpressions ++ e.groupColumnIndices, i < c.schema.length)
    (hbatch : c.batches.flatten ≠ []) :
    ∃ whole, concatTables c.batches.flatten = .ok (some whole) ∧
      ComputeAggregateKernel.doProcess e whole = .ok (partialTable e whole) ∧
      whole.rows = (c.batches.flatten.map BlazingTable.rows).flatten := by
  obtain ⟨whole, hwhole, hwnames, hwrows⟩ := concatTables_batches hbatch
  exact ⟨whole, hwhole, compute_grouped hG (by rw [hwnames]; exact hcols), hwrows⟩

/--
**group のある aggregation の各 node の Merge の出力。**

Distribute が部分結果の `columnsToHash` の列で hash すると、Merge の入力がどの順で届いても、
node `n` の出力の行は `routedRows … n` から作った `mergedRows` の並べ替えになる。
-/
theorem mergeOutputs_grouped (hash : Row → Nat) (dropEmpty : Bool) {e : GroupByExpression}
    {c : ClusterInput} {columnsToHash : List Nat} (hG : e.groupColumnIndices.length ≠ 0)
    (hcols : ∀ i ∈ e.aggregationInputExpressions ++ e.groupColumnIndices, i < c.schema.length)
    (hhash : ∀ i ∈ columnsToHash, i < e.groupColumnIndices.length + e.aggregationTypes.length)
    (hbatch : c.batches.flatten ≠ []) :
    ∃ acts, (List.range c.totalNodes).mapM (distributeActions hash e columnsToHash c) = .ok acts ∧
      ∀ arrivals : Nat → List BlazingTable,
        (∀ n < c.totalNodes, (arrivals n).Perm (mergeInputs dropEmpty acts n)) →
        ∃ outs, mergeOutputs e c arrivals = .ok outs ∧
          List.Forall₂ (fun n out => out.rows.Perm (mergedRows e (routedRows hash columnsToHash e c n)))
            (List.range c.totalNodes) outs := by
  set N := c.totalNodes
  have H : ∀ p, ∃ pss, distributeActions hash e columnsToHash c p =
        .ok ((pss.map (scatter (c.context p))).flatten) ∧
      List.Forall₂ (PiecesOf hash columnsToHash N) ((c.batchesOf p).map (partialTable e)) pss :=
    fun p => distributeActions_grouped hG hcols hhash p
  choose pssOf hpss hrel using H
  -- 各 node の Distribute の action
  have hmapM : (List.range N).mapM (distributeActions hash e columnsToHash c) =
      .ok ((List.range N).map fun p => ((pssOf p).map (scatter (c.context p))).flatten) :=
    mapM_eq_ok_map fun p _ => hpss p
  refine ⟨_, hmapM, fun arrivals harr => ?_⟩
  -- node `n` に届く table
  set T : Nat → List BlazingTable := fun n =>
    ((List.range N).map fun p => ((pssOf p).map fun ps => ps[n]?.toList).flatten).flatten
  have harrT : ∀ n < N, (arrivals n).Perm (T n) := by
    intro n hn
    have hself : messagesTo n (((pssOf n).map (scatter (c.context n))).flatten) = [] := by
      rw [messagesTo_flatten, List.map_map, Function.comp_def]
      simp [messagesTo_scatter, ClusterInput.context]
    refine (harr n hn).trans ((perm_mergeInputs dropEmpty _ hn hself).trans (List.Perm.of_eq ?_))
    exact congrArg List.flatten (List.map_congr_left fun p _ =>
      arrivalsFrom_scatters dropEmpty (c.context p) n (pssOf p))
  -- 部分結果の列名
  set names := e.groupColumnIndices.map (c.schema.getD · "") ++ e.aggregationColumnAssignedAliases
  have hPnames : ∀ p, ∀ P ∈ (c.batchesOf p).map (partialTable e), P.names = names := by
    intro p P hP
    obtain ⟨b, hb, rfl⟩ := List.mem_map.mp hP
    rw [partialTable_names, names_of_mem_batchesOf hb]
  have hlen : names.length = e.groupColumnIndices.length + e.aggregationTypes.length := by
    simp [names, e.aliases_length]
  have hTrows : ∀ n < N, ((T n).map BlazingTable.rows).flatten =
      routedRows hash columnsToHash e c n := by
    intro n hn
    have hpieces : ∀ p,
        ((((pssOf p).map fun ps => ps[n]?.toList).flatten).map BlazingTable.rows).flatten =
          ((c.batchesOf p).map fun b => (partialRows e.groupColumnIndices e.aggregations b.rows).filter
            fun pr => decide (bucketOf hash columnsToHash N pr = n)).flatten := fun p => by
      rw [rows_pieces hn (hrel p), List.map_map]; rfl
    simp only [List.map_flatten, List.flatten_flatten, List.map_map, Function.comp_def] at hpieces
    rw [routedRows, computedRows, List.filter_flatten, batches_eq_map_batchesOf c]
    simp only [T, List.map_flatten, List.flatten_flatten, List.map_map, Function.comp_def, hpieces]
  -- 各 node の Merge
  have hmerge : ∀ n ∈ List.range N, ∃ out,
      MergeAggregateKernel.doProcess (c.context n) e (arrivals n) = .ok out ∧
      out.rows.Perm (mergedRows e (routedRows hash columnsToHash e c n)) := by
    intro n hn
    have hn : n < N := List.mem_range.mp hn
    obtain ⟨p₀, hp₀, hne₀⟩ : ∃ p < N, c.batchesOf p ≠ [] := by
      obtain ⟨b, hb⟩ := List.exists_mem_of_ne_nil _ hbatch
      rw [batches_eq_map_batchesOf c] at hb
      simp only [List.mem_flatten, List.mem_map, List.mem_range] at hb
      obtain ⟨_, ⟨p, hp, rfl⟩, hb⟩ := hb
      exact ⟨p, hp, List.ne_nil_of_mem hb⟩
    have hTne : T n ≠ [] := by
      simp only [T, ne_eq, List.flatten_eq_nil_iff, List.mem_map, List.mem_range, not_forall]
      exact ⟨_, ⟨p₀, hp₀, rfl⟩, pieces_ne_nil hn (hrel p₀) (by simpa using hne₀)⟩
    have hTnames : ∀ t ∈ T n, t.names = names := by
      intro t ht
      simp only [T, List.mem_flatten, List.mem_map, List.mem_range] at ht
      obtain ⟨_, ⟨p, -, rfl⟩, ht⟩ := ht
      exact names_pieces (hrel p) (hPnames p) t ht
    obtain ⟨out, hout, hrows⟩ := merge_grouped (c.context n) hG
      (fun h => hTne (List.Perm.eq_nil (h ▸ harrT n hn).symm))
      (fun t ht => hTnames t ((harrT n hn).subset ht)) hlen
    refine ⟨out, hout, hrows ▸ partialRows_perm ?_⟩
    exact hTrows n hn ▸ ((harrT n hn).map _).flatten
  exact mapM_eq_ok hmerge

/-! ## 法則 -/

/-- 要素ごとに並べ替えで対応する二つの列は、写してつなぐと並べ替えで対応する。 -/
theorem perm_flatten_of_forall₂ {α β γ : Type} {f : α → List γ} {g : β → List γ} :
    ∀ {l : List α} {l' : List β}, List.Forall₂ (fun a b => (g b).Perm (f a)) l l' →
      (l'.map g).flatten.Perm (l.map f).flatten
  | [], [], .nil => .nil
  | _ :: _, _ :: _, .cons h hrest => h.append (perm_flatten_of_forall₂ hrest)

/-- 二列 `x, y` の一行 `[a, b]` の batch。 -/
def pairBatch (x y : String) (a b : Int) : BlazingTable := ⟨[x, y], [[some a, some b]], by simp⟩

/-- 二つの node が一行ずつ持つクラスタ。master は node `0`。 -/
def twoNodes (x y : String) (r₀ r₁ : Int × Int) : ClusterInput where
  totalNodes := 2
  masterNode := 0
  schema := [x, y]
  batches := [[pairBatch x y r₀.1 r₀.2], [pairBatch x y r₁.1 r₁.2]]
  nodes_pos := by decide
  master_lt := by decide
  batches_length := rfl
  schema_eq := by simp [pairBatch]

/-- `SELECT key, SUM(val) AS s GROUP BY key`。 -/
def sumBy (key val : Nat) : GroupByExpression := ⟨[key], [val], [.sum], ["s"], rfl, rfl⟩

/-- hash の一例。key の値の和。 -/
def valueSum (key : Row) : Nat := (key.map fun v => (v.getD 0).toNat).sum

/--
**group のある aggregation は、Distribute が部分結果の key の列で hash すれば、
Merge の入力がどの順で届いても、全部の行に一度 aggregation をかけたものに等しい。**

部分結果の key は先頭 `k` 列にあるので、`k` 列の hash は key の値だけで決まり、
同じ key の部分結果はどれも同じ node に届く。入力の列の位置 `group_column_indices` は
どこでもよい。
-/
theorem lawForEveryOrder_grouped {hash : Row → Nat} (dropEmpty : Bool) {e : GroupByExpression}
    {c : ClusterInput} (hG : e.groupColumnIndices.length ≠ 0)
    (hcols : ∀ i ∈ e.aggregationInputExpressions ++ e.groupColumnIndices, i < c.schema.length)
    (hbatch : c.batches.flatten ≠ []) :
    LawForEveryOrder hash dropEmpty e (List.range e.groupColumnIndices.length) c := by
  have hkeys : ∀ i ∈ List.range e.groupColumnIndices.length,
      i < e.groupColumnIndices.length + e.aggregationTypes.length :=
    fun i hi => by have := List.mem_range.mp hi; omega
  obtain ⟨acts, hacts, hall⟩ := mergeOutputs_grouped hash dropEmpty hG hcols hkeys hbatch
  refine ⟨acts, hacts, fun arrivals harr => ?_⟩
  obtain ⟨outs, houts, hrel⟩ := hall arrivals harr
  obtain ⟨whole, hwhole, hcompute, hwrows⟩ := whole_grouped hG hcols hbatch
  refine ⟨outs, houts, whole, _, hwhole, hcompute, ?_⟩
  rw [partialTable_rows, hwrows]
  exact (perm_flatten_of_forall₂ hrel).trans (flatten_merged_perm e.inputs_length
    (fun key => Nat.mod_lt _ c.nodes_pos) fun n _ => List.Perm.refl _)

/--
**src/ の Distribute は `group_column_indices` の位置で hash する。group の列が入力の先頭
`k` 列なら、それは部分結果の key の列と同じなので、法則が成り立つ。**
-/
theorem lawForEveryOrder_leading_keys {hash : Row → Nat} (dropEmpty : Bool)
    {e : GroupByExpression} {c : ClusterInput}
    (hlead : e.groupColumnIndices = List.range e.groupColumnIndices.length)
    (hG : e.groupColumnIndices.length ≠ 0)
    (hcols : ∀ i ∈ e.aggregationInputExpressions ++ e.groupColumnIndices, i < c.schema.length)
    (hbatch : c.batches.flatten ≠ []) :
    LawForEveryOrder hash dropEmpty e (DistributeAggregateKernel.columnsToHash e) c := by
  rw [DistributeAggregateKernel.columnsToHash, hlead]
  exact lawForEveryOrder_grouped dropEmpty hG hcols hbatch

theorem lawForEveryOrder_leading_keys_twoNodes :
    (sumBy 0 1).groupColumnIndices = List.range (sumBy 0 1).groupColumnIndices.length ∧
    (sumBy 0 1).groupColumnIndices.length ≠ 0 ∧
    (∀ i ∈ (sumBy 0 1).aggregationInputExpressions ++ (sumBy 0 1).groupColumnIndices,
      i < (twoNodes "k" "v" (1, 10) (1, 5)).schema.length) ∧
    (twoNodes "k" "v" (1, 10) (1, 5)).batches.flatten ≠ [] ∧
    LawForEveryOrder valueSum false (sumBy 0 1)
      (DistributeAggregateKernel.columnsToHash (sumBy 0 1)) (twoNodes "k" "v" (1, 10) (1, 5)) :=
  ⟨rfl, by decide, by decide, by simp [twoNodes],
    lawForEveryOrder_leading_keys false rfl (by decide) (by decide) (by simp [twoNodes])⟩

/-! ## key の列が先頭にないとき -/

/--
**group の列が先頭にないと、src/ の Distribute は同じ key の部分結果を別の partition に入れる。**

二つの batch の部分結果 `[1, 10]` と `[1, 5]` は key が同じだが、`columns_to_hash` の列
（部分結果の二列目）の値が違うので、`10` と `5` の bucket が違えば別の partition に入る。
-/
theorem partitions_key_split (hash : Row → Nat) (hsep : hash [some 10] % 2 ≠ hash [some 5] % 2) :
    ∃ ps qs, DistributeAggregateKernel.partitions hash ((twoNodes "v" "k" (10, 1) (5, 1)).context 0)
        (DistributeAggregateKernel.columnsToHash (sumBy 1 0))
        (partialTable (sumBy 1 0) (pairBatch "v" "k" 10 1)) = .ok ps ∧
      DistributeAggregateKernel.partitions hash ((twoNodes "v" "k" (10, 1) (5, 1)).context 1)
        (DistributeAggregateKernel.columnsToHash (sumBy 1 0))
        (partialTable (sumBy 1 0) (pairBatch "v" "k" 5 1)) = .ok qs ∧
      ∃ i j, i ≠ j ∧
        ps.map BlazingTable.rows = (List.range 2).map (fun n => if n = i then [[some 1, some 10]] else []) ∧
        qs.map BlazingTable.rows = (List.range 2).map (fun n => if n = j then [[some 1, some 5]] else []) := by
  have hcols : ∀ v : Int, ∀ i ∈ DistributeAggregateKernel.columnsToHash (sumBy 1 0),
      i < (partialTable (sumBy 1 0) (pairBatch "v" "k" v 1)).names.length := fun v => by
    rw [length_partialTable_names]; decide
  have hbucket : ∀ v : Int, (List.range 2).map (bucketRows hash
      (DistributeAggregateKernel.columnsToHash (sumBy 1 0)) 2
        (partialTable (sumBy 1 0) (pairBatch "v" "k" v 1)).rows) =
      (List.range 2).map (fun n => if n = hash [some v] % 2 then [[some 1, some v]] else []) := by
    intro v
    refine List.map_congr_left fun n _ => ?_
    have hrows : (partialTable (sumBy 1 0) (pairBatch "v" "k" v 1)).rows = [[some 1, some v]] := by
      simp [partialRows, groupKeys, groupRow, aggregateRow, rowKey, aggregate, sumBy, pairBatch,
        GroupByExpression.aggregations, Option.merge]
    rw [hrows]
    by_cases h : n = hash [some v] % 2 <;>
      simp [bucketRows, bucketOf, rowKey, DistributeAggregateKernel.columnsToHash, sumBy, h, eq_comm]
  obtain ⟨ps, hps, hpsrows, -⟩ := @partitions_rows hash ((twoNodes "v" "k" (10, 1) (5, 1)).context 0)
    _ _ (by decide) (hcols 10)
  obtain ⟨qs, hqs, hqsrows, -⟩ := @partitions_rows hash ((twoNodes "v" "k" (10, 1) (5, 1)).context 1)
    _ _ (by decide) (hcols 5)
  exact ⟨ps, qs, hps, hqs, _, _, hsep, hpsrows.trans (hbucket 10), hqsrows.trans (hbucket 5)⟩

theorem partitions_key_split_valueSum :
    valueSum [some 10] % 2 ≠ valueSum [some 5] % 2 ∧
    ∃ ps qs, DistributeAggregateKernel.partitions valueSum ((twoNodes "v" "k" (10, 1) (5, 1)).context 0)
        (DistributeAggregateKernel.columnsToHash (sumBy 1 0))
        (partialTable (sumBy 1 0) (pairBatch "v" "k" 10 1)) = .ok ps ∧
      DistributeAggregateKernel.partitions valueSum ((twoNodes "v" "k" (10, 1) (5, 1)).context 1)
        (DistributeAggregateKernel.columnsToHash (sumBy 1 0))
        (partialTable (sumBy 1 0) (pairBatch "v" "k" 5 1)) = .ok qs ∧
      ∃ i j, i ≠ j ∧
        ps.map BlazingTable.rows = (List.range 2).map (fun n => if n = i then [[some 1, some 10]] else []) ∧
        qs.map BlazingTable.rows = (List.range 2).map (fun n => if n = j then [[some 1, some 5]] else []) :=
  ⟨by decide, partitions_key_split valueSum (by decide)⟩

/-- key `1` の行を node `0` と node `1` が一つずつ持つとき、部分結果の行は `[1, 10]` と `[1, 5]`。 -/
theorem computedRows_twoNodes :
    computedRows (sumBy 1 0) (twoNodes "v" "k" (10, 1) (5, 1)) =
      [[some 1, some 10], [some 1, some 5]] := by decide

theorem routedRows_twoNodes (hash : Row → Nat) (n : Nat) :
    routedRows hash (DistributeAggregateKernel.columnsToHash (sumBy 1 0)) (sumBy 1 0)
        (twoNodes "v" "k" (10, 1) (5, 1)) n =
      (if hash [some 10] % 2 = n then [[some 1, some 10]] else []) ++
        (if hash [some 5] % 2 = n then [[some 1, some 5]] else []) := by
  rw [routedRows, computedRows_twoNodes]
  show List.filter (fun pr => decide (hash (rowKey [1] pr) % 2 = n)) _ = _
  by_cases h10 : hash [some 10] % 2 = n <;> by_cases h5 : hash [some 5] % 2 = n <;>
    simp [rowKey, h10, h5]

/--
**group の列が先頭にないと、src/ の Distribute は同じ key の部分結果を別々の node に送る。**

`GROUP BY k` の `k` は入力の二列目だが、部分結果では一列目にある。
Distribute は部分結果の二列目、つまり `SUM` の値で hash するので、`10` と `5` の bucket が
違えば、key `1` の行が二つの node から一つずつ出る。全部の行に一度 aggregation をかけると
`[1, 15]` の一行になる。
-/
theorem runAggregation_key_split (hash : Row → Nat) (dropEmpty : Bool)
    (hsep : hash [some 10] % 2 ≠ hash [some 5] % 2) :
    ∃ outs, runAggregation hash dropEmpty (sumBy 1 0) (twoNodes "v" "k" (10, 1) (5, 1)) = .ok outs ∧
      (outs.map BlazingTable.rows).flatten.Perm [[some 1, some 10], [some 1, some 5]] ∧
      ¬ DistributedLaw (sumBy 1 0) (twoNodes "v" "k" (10, 1) (5, 1)) outs := by
  have hG : (sumBy 1 0).groupColumnIndices.length ≠ 0 := by decide
  have hcols : ∀ i ∈ (sumBy 1 0).aggregationInputExpressions ++ (sumBy 1 0).groupColumnIndices,
      i < (twoNodes "v" "k" (10, 1) (5, 1)).schema.length := by decide
  have hhash : ∀ i ∈ DistributeAggregateKernel.columnsToHash (sumBy 1 0),
      i < (sumBy 1 0).groupColumnIndices.length + (sumBy 1 0).aggregationTypes.length := by decide
  have hbatch : (twoNodes "v" "k" (10, 1) (5, 1)).batches.flatten ≠ [] := by simp [twoNodes]
  obtain ⟨acts, hacts, hall⟩ := mergeOutputs_grouped hash dropEmpty hG hcols hhash hbatch
  obtain ⟨outs, houts, hrel⟩ := hall _ fun n _ => List.Perm.refl _
  have hrun : runAggregation hash dropEmpty (sumBy 1 0) (twoNodes "v" "k" (10, 1) (5, 1)) =
      .ok outs := by
    rw [runAggregation, runAggregationHashing, hacts]
    exact houts
  -- node ごとの出力
  have hm10 : mergedRows (sumBy 1 0) [[some 1, some 10]] = [[some 1, some 10]] := by decide
  have hm5 : mergedRows (sumBy 1 0) [[some 1, some 5]] = [[some 1, some 5]] := by decide
  have hout : (outs.map BlazingTable.rows).flatten.Perm [[some 1, some 10], [some 1, some 5]] := by
    rw [show List.range (twoNodes "v" "k" (10, 1) (5, 1)).totalNodes = [0, 1] from rfl] at hrel
    obtain _ | ⟨h0, _ | ⟨h1, _ | _⟩⟩ := hrel
    simp only [List.map_cons, List.map_nil, List.flatten_cons, List.flatten_nil, List.append_nil]
    simp only [routedRows_twoNodes] at h0 h1
    obtain ⟨h10, h5⟩ | ⟨h10, h5⟩ : hash [some 10] % 2 = 0 ∧ hash [some 5] % 2 = 1 ∨
        hash [some 10] % 2 = 1 ∧ hash [some 5] % 2 = 0 := by omega
    · simp only [h10, h5, if_true, if_false, List.append_nil, hm10, hm5] at h0 h1
      exact h0.append h1
    · simp only [h10, h5, if_true, if_false, List.nil_append, hm10, hm5] at h0 h1
      exact (h0.append h1).trans (List.perm_append_comm)
  refine ⟨_, hrun, hout, ?_⟩
  -- 全部の行に一度 aggregation をかけると一行
  rintro ⟨whole, expected, hwhole, hcompute, hperm⟩
  obtain ⟨whole', hwhole', hcompute', hrows'⟩ := whole_grouped hG hcols hbatch
  obtain rfl : whole = whole' := by simpa [hwhole'] using hwhole.symm
  obtain rfl : expected = partialTable (sumBy 1 0) whole := by simpa [hcompute'] using hcompute.symm
  have hexp : (partialTable (sumBy 1 0) whole).rows = [[some 1, some 15]] := by
    rw [partialTable_rows, hrows']
    decide
  rw [hexp] at hperm
  exact absurd (hperm.symm.trans hout).length_eq (by decide)

theorem runAggregation_key_split_valueSum :
    valueSum [some 10] % 2 ≠ valueSum [some 5] % 2 ∧
    ∃ outs, runAggregation valueSum false (sumBy 1 0) (twoNodes "v" "k" (10, 1) (5, 1)) = .ok outs ∧
      (outs.map BlazingTable.rows).flatten.Perm [[some 1, some 10], [some 1, some 5]] ∧
      ¬ DistributedLaw (sumBy 1 0) (twoNodes "v" "k" (10, 1) (5, 1)) outs :=
  ⟨by decide, runAggregation_key_split valueSum false (by decide)⟩

end BlazingSql
