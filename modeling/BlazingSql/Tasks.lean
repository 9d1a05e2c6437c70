import BlazingSql.Pipeline

/-!
# executor の worker が実行する task

executor の worker は、task の入力の batch を kernel の `do_process` に渡す。Compute と Merge の
`do_process` は、最後に出力の table を `output->addToCache(columns)` で output cache に入れる。
`allow_empty` は既定の false なので、`dropEmpty` の cache は空の table を捨てる。

* `ComputeAggregateKernel.task` — `inputs[0]` に Compute の `do_process` をかける。`do_process`
  が投げた task は何も入れない
* `MergeAggregateKernel.task` — 入力を全部 Merge の `do_process` に渡す。`do_process` が
  失敗した task は、その失敗を残す。入力が空なら line 294 の `concatenated->names()` は null を
  参照して process が落ち、ほかの失敗は例外として `run()` が投げ直す（spec §4.2、§7）ので、
  どちらでも `run()` は正常には返らない
-/

namespace BlazingSql

namespace ComputeAggregateKernel

/-- Compute の task が output cache に入れるもの。`inputs[0]` に `do_process` をかけ、
`output->addToCache(columns)` で入れる。 -/
def task (dropEmpty : Bool) (e : GroupByExpression) : List BlazingTable → List BlazingTable
  | [] => []
  | input :: _ =>
    match doProcess e input with
    | .ok columns => if accepts dropEmpty columns false then [columns] else []
    | .error _ => []

end ComputeAggregateKernel

namespace MergeAggregateKernel

/-- Merge の task が残すもの。入力を全部 `do_process` に渡し、成功すれば出力を
`output->addToCache(columns)` で output cache に入れる（`.ok`）。失敗すれば、その失敗 `.error f`
を残す。`.error` が残った実行では、`run()` は正常には返らない。 -/
def task (ctx : Context) (dropEmpty : Bool) (e : GroupByExpression) (inputs : List BlazingTable) :
    List (Except Failure BlazingTable) :=
  match doProcess ctx e inputs with
  | .ok columns => if accepts dropEmpty columns false then [.ok columns] else []
  | .error f => [.error f]

end MergeAggregateKernel

end BlazingSql
