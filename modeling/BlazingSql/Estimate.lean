import BlazingSql.Double
import BlazingSql.Executor
import BlazingSql.Tasks

/-!
# Compute の出力の行の数の見積もり

query graph は kernel に出力の行の数を `get_estimated_output_num_rows` で尋ねる。
`ComputeAggregateKernel` は、group のない aggregation なら 1 と答え、ほかでは上流の見積もりを
今までに出した行の数と受け取った行の数の比で縮める。どちらの数も cache の
`total_rows_added()` から読む。

* `ComputeAggregateKernel.task`（`BlazingSql/Tasks.lean`）— executor の worker が実行する
  Compute の task。`do_process` の出力を output cache に `addToCache` する
* `KernelState.inputRowsAdded`・`KernelState.outputRowsAdded` — 入力と出力の cache の
  `total_rows_added()`。どちらも table の列の行の数の和 `totalRows`
* `ComputeAggregateKernel.getEstimatedOutputNumRows` — 見積もり。`double` への cast と `double` の
  `*`・`/` は `roundDouble`（`BlazingSql/Double.lean`）で丸め、`uint64_t` への cast は切り捨てる
-/

namespace BlazingSql

/-- table の列の行の数の和。 -/
def totalRows (ts : List BlazingTable) : Nat := (ts.map BlazingTable.numRows).sum

@[simp] theorem totalRows_nil : totalRows [] = 0 := rfl

@[simp] theorem totalRows_cons (t : BlazingTable) (ts : List BlazingTable) :
    totalRows (t :: ts) = t.numRows + totalRows ts := by
  simp [totalRows]

@[simp] theorem totalRows_append (ts us : List BlazingTable) :
    totalRows (ts ++ us) = totalRows ts + totalRows us := by
  simp [totalRows]

namespace KernelState

variable {α β : Type}

/-- Modelled from the spec: 入力の cache の `total_rows_added()`。上流が入れた batch の行の数の和。
入った batch は、task に渡ったか、Merge が集めた中か、まだ cache にある。 -/
def inputRowsAdded (s : KernelState BlazingTable β) : Nat :=
  totalRows ((s.tasks.map TaskRec.inputs).flatten ++ s.pc.collected ++ s.inputCache)

/-- Modelled from the spec: output cache の `total_rows_added()`。受理した table の行の数の和。 -/
def outputRowsAdded (s : KernelState α BlazingTable) : Nat := totalRows s.output

end KernelState

namespace ComputeAggregateKernel

/--
`ComputeAggregateKernel::get_estimated_output_num_rows`。`totalIn` は
`query_graph->get_estimated_input_rows_to_kernel(kernel_id)` の答え。

`out_so_far` と `in_so_far` は `total_rows_added()` を `double` に直したもの。
`(uint64_t)(((double)total_in.second) * out_so_far / in_so_far)` は、cast と `*` と `/` の
それぞれで `roundDouble` に丸め、最後に切り捨てる。商が `2^64` 以上なら C++ の cast は未定義で、
ここでは切り捨てた値のままにする。
-/
def getEstimatedOutputNumRows (e : GroupByExpression) (totalIn : Bool × Nat)
    (s : KernelState BlazingTable BlazingTable) : Bool × Nat :=
  if 0 < e.aggregationTypes.length ∧ e.groupColumnIndices.length = 0 then
    (true, 1)
  else if totalIn.1 then
    let outSoFar := roundDouble s.outputRowsAdded
    let inSoFar := roundDouble s.inputRowsAdded
    if inSoFar = 0 then (false, 0)
    else (true, ⌊roundDouble (roundDouble (roundDouble totalIn.2 * outSoFar) / inSoFar)⌋₊)
  else
    (false, 0)

end ComputeAggregateKernel

end BlazingSql
