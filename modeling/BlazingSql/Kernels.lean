import BlazingSql.Operators

/-!
# 三つの kernel の `do_process`

`BatchAggregationProcessing` の `ComputeAggregateKernel`、`DistributeAggregateKernel`、
`MergeAggregateKernel` の `do_process` を、src/ の分岐どおりに書く。

* Compute と Merge は出力の table を一つ返す。`output->addToCache(columns)` は
  executor のモデル（`BlazingSql/Executor.lean`）の側で起きる。
* Distribute は cache や peer に対する副作用を起こすので、その列（`DistributeAction`）を返す。
  副作用を起こすのは `distributing_kernel` の `scatter`・`send_message`・
  `increment_node_count` で、src/ に無いので spec §4.5 から書く。

node は `0, …, totalNodes - 1` の番号で表す。partition `i` の行き先は node `i` である。
-/

namespace BlazingSql

/-- `Context` のうち kernel が読むもの。 -/
structure Context where
  totalNodes : Nat
  selfNode : Nat
  masterNode : Nat
  deriving DecidableEq, Repr

/-- `context->isMasterNode(self_node)` -/
def Context.isMasterNode (ctx : Context) : Bool := ctx.selfNode == ctx.masterNode

/-! ## ComputeAggregateKernel -/

/-- `ComputeAggregateKernel::do_process`。演算の形で三つの primitive を選ぶ。 -/
def ComputeAggregateKernel.doProcess (e : GroupByExpression) (input : BlazingTable) :
    Except Failure BlazingTable :=
  if e.aggregationTypes.length = 0 then
    computeGroupbyWithoutAggregations input e.groupColumnIndices
  else if e.groupColumnIndices.length = 0 then
    computeAggregationsWithoutGroupby input e
  else
    computeAggregationsWithGroupby input e

/-! ## DistributeAggregateKernel -/

/-- Distribute の task が順に起こす副作用。 -/
inductive DistributeAction where
  /-- 自分の output cache に入れる。受理されたら自分宛ての count を一つ増やす。 -/
  | addToCache (t : BlazingTable) (allowEmpty : Bool)
  /-- `increment_node_count(node)` -/
  | incrementNodeCount (node : Nat)
  /-- data message を node `target` に送る。 -/
  | transmit (t : BlazingTable) (target : Nat)
  /-- `set_empty_part_for_non_master_node = true` -/
  | setEmptyPart

/-- Modelled from the spec: `send_message`。宛先の count を増やしてから送る。 -/
def sendMessage (t : BlazingTable) (target : Nat) : List DistributeAction :=
  [.incrementNodeCount target, .transmit t target]

/-- `scatter` の本体。`i` は次の partition の番号。 -/
def scatterFrom (ctx : Context) : Nat → List BlazingTable → List DistributeAction
  | _, [] => []
  | i, p :: ps =>
    (if i = ctx.selfNode then [.addToCache p true] else sendMessage p i) ++ scatterFrom ctx (i + 1) ps

/-- Modelled from the spec: `scatter(partitions, output)`。partition `i` は node `i` へ行き、
自分宛てのものは自分の cache に入れる。 -/
def scatter (ctx : Context) (partitions : List BlazingTable) : List DistributeAction :=
  scatterFrom ctx 0 partitions

/-- `DistributeAggregateKernel::run` が作る `columns_to_hash`。group の列の位置をそのまま写す。 -/
def DistributeAggregateKernel.columnsToHash (e : GroupByExpression) : List Nat :=
  e.groupColumnIndices

/-- grouped の枝で scatter に渡す partition。行があれば hash で分けて切り、なければ空の view を
node の数だけ並べる。`hashPartition` の結果は既に入力の列名を持つ。 -/
def DistributeAggregateKernel.partitions (hash : Row → Nat) (ctx : Context)
    (columnsToHash : List Nat) (input : BlazingTable) : Except Failure (List BlazingTable) :=
  if 0 < input.numRows then do
    let (hashedData, hasedDataOffsets) ← hashPartition hash input columnsToHash ctx.totalNodes
    pure (split hashedData (hasedDataOffsets.drop 1))
  else
    pure (List.replicate ctx.totalNodes input)

/--
`DistributeAggregateKernel::do_process`。

group のない aggregation では、master は batch を自分の cache に入れる。
master でない node は、最初の batch でだけ同じ列名の空の table を自分の cache に入れ、
batch そのものは master に送る。group のある aggregation では scatter する。
-/
def DistributeAggregateKernel.doProcess (hash : Row → Nat) (ctx : Context) (e : GroupByExpression)
    (columnsToHash : List Nat) (setEmptyPartForNonMasterNode : Bool) (input : BlazingTable) :
    Except Failure (List DistributeAction) :=
  if e.groupColumnIndices.length = 0 then
    if ctx.isMasterNode then
      .ok [.addToCache input false]
    else
      .ok ((if !setEmptyPartForNonMasterNode then
          [.addToCache (createEmptyTable input) true, .setEmptyPart] else []) ++
        sendMessage input ctx.masterNode)
  else
    scatter ctx <$> DistributeAggregateKernel.partitions hash ctx columnsToHash input

/-! ## MergeAggregateKernel -/

/-- `MergeAggregateKernel::do_process` のうち、つないだ後の部分。
`concatenated->names()` は null を確かめずに参照する。 -/
def MergeAggregateKernel.mergeConcatenated (ctx : Context) (e : GroupByExpression) :
    Option BlazingTable → Except Failure BlazingTable
  | none => .error .nullTable
  | some concatenated => do
    let m ← modGroupByParametersForMerge e.groupColumnIndices e.aggregationTypes
      concatenated.names
    if e.aggregationTypes.length = 0 then
      computeGroupbyWithoutAggregations concatenated m.groupColumnIndices
    else if e.groupColumnIndices.length = 0 then
      if ctx.isMasterNode then computeAggregationsWithoutGroupby concatenated m
      else pure concatenated
    else
      computeAggregationsWithGroupby concatenated m

/-- `MergeAggregateKernel::do_process`。入力を全部つないでから、書き換えた演算をかける。 -/
def MergeAggregateKernel.doProcess (ctx : Context) (e : GroupByExpression)
    (inputs : List BlazingTable) : Except Failure BlazingTable :=
  concatTables inputs >>= MergeAggregateKernel.mergeConcatenated ctx e

end BlazingSql
