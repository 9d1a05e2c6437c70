import BlazingSql.Aggregate

/-!
# operator library の primitive

kernel が呼ぶ primitive（spec §6 の capability interface）。どれも src/ には無いので、
spec の言葉から書く。

* group-by の三つの形（`computeGroupbyWithoutAggregations` ほか）。出力の行は
  group key の値の後に aggregation の値が続く（spec §8 S1・S2 の `(k, agg)` の並び）。
* `modGroupByParametersForMerge` — merge のための書き換え。部分結果の table では key が
  先頭 `k` 列、aggregation `i` が列 `k + i` にあるので、位置もそれに合わせて書き換える。
* `hashPartition` と `split` — 行を bucket ごとに並べ直し、境界で切る。

hash 関数は cudf の murmur3 だが、ここでは引数 `hash : Row → Nat` にする。
bucket が key の値と partition の数だけで決まる、という性質しか使わない。
-/

namespace BlazingSql

/-- `parseGroupByExpression` の結果。後ろの三つの列は aggregation ごとに同じ順に並ぶ。 -/
structure GroupByExpression where
  groupColumnIndices : List Nat
  aggregationInputExpressions : List Nat
  aggregationTypes : List AggregateKind
  aggregationColumnAssignedAliases : List String
  inputs_length : aggregationInputExpressions.length = aggregationTypes.length
  aliases_length : aggregationColumnAssignedAliases.length = aggregationTypes.length

namespace GroupByExpression

/-- aggregation ごとの（演算, 入力の列）。 -/
def aggregations (e : GroupByExpression) : List (AggregateKind × Nat) :=
  e.aggregationTypes.zip e.aggregationInputExpressions

@[simp] theorem length_aggregations (e : GroupByExpression) :
    e.aggregations.length = e.aggregationTypes.length := by
  simp [aggregations, e.inputs_length]

end GroupByExpression

/-! ## group-by -/

/-- 行の集まりに aggregation を一つずつかけた行。 -/
def aggregateRow (aggs : List (AggregateKind × Nat)) (rows : List Row) : Row :=
  aggs.map (fun a => aggregate a.1 (rows.map (·.getD a.2 none)))

@[simp] theorem length_aggregateRow (aggs : List (AggregateKind × Nat)) (rows : List Row) :
    (aggregateRow aggs rows).length = aggs.length := List.length_map _ _

/-- 行の集まりに現れる group key を、重複なく並べたもの。 -/
def groupKeys (g : List Nat) (rows : List Row) : List Row := (rows.map (rowKey g)).dedup

/-- key が `key` の group の出力行。key の後に aggregation の値が続く。 -/
def groupRow (g : List Nat) (aggs : List (AggregateKind × Nat)) (rows : List Row) (key : Row) :
    Row :=
  key ++ aggregateRow aggs (rows.filter (fun r => decide (rowKey g r = key)))

theorem length_of_mem_groupKeys {g : List Nat} {rows : List Row} {key : Row}
    (h : key ∈ groupKeys g rows) : key.length = g.length := by
  obtain ⟨r, -, rfl⟩ := List.mem_map.mp (List.mem_dedup.mp h)
  exact length_rowKey g r

/-- group ごとの出力行を並べた table。出力の列名は key の列名の後に `aliases` が続く。 -/
def groupedTable (t : BlazingTable) (g : List Nat) (aggs : List (AggregateKind × Nat))
    (aliases : List String) (h : aliases.length = aggs.length) : BlazingTable :=
  ⟨g.map (t.names.getD · "") ++ aliases, (groupKeys g t.rows).map (groupRow g aggs t.rows), by
    intro r hr
    obtain ⟨key, hk, rfl⟩ := List.mem_map.mp hr
    simp [groupRow, length_of_mem_groupKeys hk, h]⟩

/-- Modelled from the spec: group だけで aggregation のない形。key の tuple を重複なく並べる。 -/
def computeGroupbyWithoutAggregations (t : BlazingTable) (groupColumnIndices : List Nat) :
    Except Failure BlazingTable := do
  checkColumns t groupColumnIndices
  pure (groupedTable t groupColumnIndices [] [] rfl)

/-- Modelled from the spec: group のない aggregation。全部の行から一行を作る。 -/
def computeAggregationsWithoutGroupby (t : BlazingTable) (e : GroupByExpression) :
    Except Failure BlazingTable := do
  checkColumns t e.aggregationInputExpressions
  pure ⟨e.aggregationColumnAssignedAliases, [aggregateRow e.aggregations t.rows], by
    simp [e.aliases_length]⟩

/-- Modelled from the spec: group ごとの aggregation。 -/
def computeAggregationsWithGroupby (t : BlazingTable) (e : GroupByExpression) :
    Except Failure BlazingTable := do
  checkColumns t (e.aggregationInputExpressions ++ e.groupColumnIndices)
  pure (groupedTable t e.groupColumnIndices e.aggregations e.aggregationColumnAssignedAliases
    (by simp [e.aliases_length]))

/-! ## merge の書き換え -/

/--
Modelled from the spec: `modGroupByParametersForMerge(group_indices, types, names)`。

部分結果をつないだ table では、key が先頭 `k` 列に、aggregation `i` の値が列 `k + i` にある。
演算は `mergeKind` で書き換え、出力の名前は `names[k + i]` を引く。
aggregation があるのに `names` が短ければ、table の外の列を指している。
-/
def modGroupByParametersForMerge (groupColumnIndices : List Nat)
    (aggregationTypes : List AggregateKind) (mergingColumnNames : List String) :
    Except Failure GroupByExpression :=
  let k := groupColumnIndices.length
  if h : aggregationTypes.length = 0 ∨ k + aggregationTypes.length ≤ mergingColumnNames.length then
    .ok { groupColumnIndices := List.range k
          aggregationInputExpressions := (List.range aggregationTypes.length).map (· + k)
          aggregationTypes := aggregationTypes.map mergeKind
          aggregationColumnAssignedAliases := (mergingColumnNames.drop k).take aggregationTypes.length
          inputs_length := by simp
          aliases_length := by simp; omega }
  else .error (.columnOutOfRange (max k mergingColumnNames.length) mergingColumnNames.length)

/-! ## hash partition と split -/

/-- 行の bucket。key の hash を partition の数で割った余り。 -/
def bucketOf (hash : Row → Nat) (cols : List Nat) (numPartitions : Nat) (r : Row) : Nat :=
  hash (rowKey cols r) % numPartitions

/-- bucket の長さの列から、各 bucket の開始位置を作る。 -/
def bucketOffsets : Nat → List Nat → List Nat
  | _, [] => []
  | acc, l :: ls => acc :: bucketOffsets (acc + l) ls

/-- bucket `i` に入る行。元の順序のまま。 -/
def bucketRows (hash : Row → Nat) (cols : List Nat) (numPartitions : Nat) (rows : List Row)
    (i : Nat) : List Row :=
  rows.filter (fun r => decide (bucketOf hash cols numPartitions r = i))

/--
Modelled from the spec: `hash_partition(view, hash_columns, num_partitions) → (table, offsets)`。

行を bucket `0, 1, …` の順に並べ直した table と、各 bucket の開始位置を返す。
開始位置は `num_partitions` 個で、先頭は `0` である。
-/
def hashPartition (hash : Row → Nat) (t : BlazingTable) (columnsToHash : List Nat)
    (numPartitions : Nat) : Except Failure (BlazingTable × List Nat) := do
  checkColumns t columnsToHash
  let buckets := (List.range numPartitions).map (bucketRows hash columnsToHash numPartitions t.rows)
  pure (t.withRows buckets.flatten (by
      intro r hr
      obtain ⟨_, hb, hr⟩ := List.mem_flatten.mp hr
      obtain ⟨i, -, rfl⟩ := List.mem_map.mp hb
      exact List.mem_of_mem_filter hr),
    bucketOffsets 0 (buckets.map List.length))

/-- `split` の本体。`prev` は直前の切れ目。 -/
def splitFrom (t : BlazingTable) : Nat → List Nat → List BlazingTable
  | prev, [] => [t.drop prev]
  | prev, s :: ss => (t.drop prev).take (s - prev) :: splitFrom t s ss

/--
Modelled from the spec: `cudf::split(view, split_indexes)`。`k` 個の位置で切って
`k + 1` 個の区間にする。位置は単調で行数以下であること（cudf はそれを確かめる）。
-/
def split (t : BlazingTable) (splitIndexes : List Nat) : List BlazingTable := splitFrom t 0 splitIndexes

end BlazingSql
