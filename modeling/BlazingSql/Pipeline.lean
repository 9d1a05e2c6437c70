import BlazingSql.Kernels

/-!
# クラスタを通した aggregation

Compute → Distribute → Merge を node の数だけ並べ、batch を順に処理したときの結果。
task の実行順と message の届く順は `BlazingSql/Cluster.lean` の遷移系で扱う。
ここでは Distribute の action を順に実行し、Merge の入力の並び `arrivals` を外から与える。

* `DistributeAggregateKernel.processBatches` — 一つの node の Distribute が batch を順に処理する。
  `set_empty_part_for_non_master_node` は task の間で引き継ぐ
* `mergeInputs` — node `n` の Merge の入力：自分の cache に入った table と、
  各 node から届いた table
* `DistributedLaw` — 全部の node の出力を合わせると、全部の行に一度だけ aggregation を
  かけたものの並べ替えになる、という性質
-/

namespace BlazingSql

/-- cache が table を受理するか。`dropEmpty` の cache は、allowEmpty でない空の table を捨てる。 -/
def accepts (dropEmpty : Bool) (t : BlazingTable) (allowEmpty : Bool) : Bool :=
  allowEmpty || !dropEmpty || decide (0 < t.numRows)

/-- action の列を順に実行したとき、自分の cache に入る table。 -/
def localDeposits (dropEmpty : Bool) : List DistributeAction → List BlazingTable
  | [] => []
  | .addToCache t allowEmpty :: acts =>
    (if accepts dropEmpty t allowEmpty then [t] else []) ++ localDeposits dropEmpty acts
  | _ :: acts => localDeposits dropEmpty acts

/-- action の列が node `n` に送る table。 -/
def messagesTo (n : Nat) : List DistributeAction → List BlazingTable
  | [] => []
  | .transmit t m :: acts => (if m = n then [t] else []) ++ messagesTo n acts
  | _ :: acts => messagesTo n acts

/-- `set_empty_part_for_non_master_node = true` を含むか。 -/
def setsEmptyPart (acts : List DistributeAction) : Bool :=
  acts.any fun | .setEmptyPart => true | _ => false

@[simp] theorem localDeposits_append (dropEmpty : Bool) (a b : List DistributeAction) :
    localDeposits dropEmpty (a ++ b) = localDeposits dropEmpty a ++ localDeposits dropEmpty b := by
  induction a with
  | nil => rfl
  | cons x a ih => cases x <;> simp [localDeposits, ih]

@[simp] theorem messagesTo_append (n : Nat) (a b : List DistributeAction) :
    messagesTo n (a ++ b) = messagesTo n a ++ messagesTo n b := by
  induction a with
  | nil => rfl
  | cons x a ih => cases x <;> simp [messagesTo, ih]

/-- 一つの node の Distribute が batch を一つずつ順に処理したときの action の列。 -/
def DistributeAggregateKernel.processBatches (hash : Row → Nat) (ctx : Context)
    (e : GroupByExpression) (columnsToHash : List Nat) :
    Bool → List BlazingTable → Except Failure (List DistributeAction)
  | _, [] => .ok []
  | flag, b :: bs => do
    let acts ← DistributeAggregateKernel.doProcess hash ctx e columnsToHash flag b
    let rest ← processBatches hash ctx e columnsToHash (flag || setsEmptyPart acts) bs
    pure (acts ++ rest)

/-- クラスタへの入力。node `n` の Compute が受け取る batch の列と、表の列名。
node は一つ以上あり、master はその一つで、どの batch も同じ列名を持つ。 -/
structure ClusterInput where
  totalNodes : Nat
  masterNode : Nat
  schema : List String
  batches : List (List BlazingTable)
  nodes_pos : 0 < totalNodes
  master_lt : masterNode < totalNodes
  batches_length : batches.length = totalNodes
  schema_eq : ∀ bs ∈ batches, ∀ b ∈ bs, b.names = schema

namespace ClusterInput

/-- node `n` の `Context`。 -/
def context (c : ClusterInput) (n : Nat) : Context := ⟨c.totalNodes, n, c.masterNode⟩

/-- node `n` の Compute が受け取る batch。 -/
def batchesOf (c : ClusterInput) (n : Nat) : List BlazingTable := c.batches.getD n []

end ClusterInput

/-- node `n` で Compute と Distribute を通した action の列。 -/
def distributeActions (hash : Row → Nat) (e : GroupByExpression) (columnsToHash : List Nat)
    (c : ClusterInput) (n : Nat) : Except Failure (List DistributeAction) := do
  let partials ← (c.batchesOf n).mapM (ComputeAggregateKernel.doProcess e)
  DistributeAggregateKernel.processBatches hash (c.context n) e columnsToHash false partials

/-- node `n` の Merge の入力。自分の cache に入った table の後に、各 node から届いた table。 -/
def mergeInputs (dropEmpty : Bool) (acts : List (List DistributeAction)) (n : Nat) :
    List BlazingTable :=
  localDeposits dropEmpty (acts.getD n []) ++ (acts.map (messagesTo n)).flatten

/-- 入力が node `n` に `arrivals n` の並びで届いたときの、各 node の Merge の出力。 -/
def mergeOutputs (e : GroupByExpression) (c : ClusterInput) (arrivals : Nat → List BlazingTable) :
    Except Failure (List BlazingTable) :=
  (List.range c.totalNodes).mapM fun n =>
    MergeAggregateKernel.doProcess (c.context n) e (arrivals n)

/-- クラスタ全体を通した、各 node の Merge の出力。Distribute は `columnsToHash` で hash する。 -/
def runAggregationHashing (hash : Row → Nat) (dropEmpty : Bool) (e : GroupByExpression)
    (columnsToHash : List Nat) (c : ClusterInput) : Except Failure (List BlazingTable) := do
  let acts ← (List.range c.totalNodes).mapM (distributeActions hash e columnsToHash c)
  mergeOutputs e c (mergeInputs dropEmpty acts)

/-- src/ のとおり、`columns_to_hash` を `group_column_indices` から作ったもの。 -/
def runAggregation (hash : Row → Nat) (dropEmpty : Bool) (e : GroupByExpression)
    (c : ClusterInput) : Except Failure (List BlazingTable) :=
  runAggregationHashing hash dropEmpty e (DistributeAggregateKernel.columnsToHash e) c

/-- 全部の node の出力を合わせると、全部の行をつないだ一つの batch に一度だけ aggregation を
かけたものの並べ替えになる。 -/
def DistributedLaw (e : GroupByExpression) (c : ClusterInput) (outs : List BlazingTable) : Prop :=
  ∃ whole expected, concatTables c.batches.flatten = .ok (some whole) ∧
    ComputeAggregateKernel.doProcess e whole = .ok expected ∧
    (outs.map BlazingTable.rows).flatten.Perm expected.rows

end BlazingSql
