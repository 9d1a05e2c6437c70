import BlazingSql.Pipeline

/-!
# Distribute kernel のクラスタと partition の数

`DistributeAggregateKernel` は node ごとに、宛先ごとの partition の数（`node_count`）を
`increment_node_count` で数える。`run()` は task が全部終わると
`send_total_partition_counts` でその数を peer に送り、`get_total_partition_counts` で
自分の数と peer から届いた数を足し、`output_cache()->wait_for_count(total_count)` で待つ。

クラスタ全体を一つの遷移系 `ClusterStep` にする。どの node のどの遷移も、どの順にも起こる。

* task — worker が batch を一つ取って `do_process` を始め、そのとき
  `set_empty_part_for_non_master_node` を読む。以後 `do_process` の action
  （`DistributeAction`）を一つずつ起こす。別の task や別の node の遷移がその間に入る
* `addToCache` が受理されたら、task は続けて `increment_node_count(self)` を呼ぶ。
  受理と数の増加の間にも別の遷移が入る
* data message と count message は届くまで network にあり、どの順にも届く
* `run()` — task が全部終わったら count を送る（barrier の中は
  `BlazingSql/Executor.lean` で確かめたので、ここでは task の集合が空になることだけを書く）。
  peer 全部から count が届いたら合計を作り、output cache がその数を受理したら抜ける

`distributing_kernel` の数と通信の部分と、届いた data message を output cache に入れる
受け手は src/ に無いので spec §4.5・§7 から書く。
-/

namespace BlazingSql

/-- 数の表の欄 `p` を一つ増やす。 -/
def bump (f : Nat → Nat) (p : Nat) : Nat → Nat := fun q => if q = p then f q + 1 else f q

@[simp] theorem bump_apply (f : Nat → Nat) (p q : Nat) :
    bump f p q = f q + if q = p then 1 else 0 := by
  unfold bump
  split <;> rfl

/-- クラスタの Distribute kernel に共通のもの。`dropEmpty n` は node `n` の output cache が
allowEmpty でない空の table を捨てるか。 -/
structure DistributeSetup where
  totalNodes : Nat
  masterNode : Nat
  hash : Row → Nat
  expr : GroupByExpression
  dropEmpty : Nat → Bool

namespace DistributeSetup

/-- node `p` の `Context`。 -/
def context (d : DistributeSetup) (p : Nat) : Context := ⟨d.totalNodes, p, d.masterNode⟩

/-- node `p` の worker が batch `b` の task を始め、`set_empty_part_for_non_master_node` を
`flag` と読んだときの `do_process` の action。`columns_to_hash` は `run()` が作ったもの。
`do_process` が例外を投げたら task は何もせずに終わる。 -/
def taskActions (d : DistributeSetup) (p : Nat) (flag : Bool) (b : BlazingTable) :
    List DistributeAction :=
  match DistributeAggregateKernel.doProcess d.hash (d.context p) d.expr
      (DistributeAggregateKernel.columnsToHash d.expr) flag b with
  | .ok acts => acts
  | .error _ => []

end DistributeSetup

/-- data message。partition と、送った node・宛先の node。 -/
structure DataMessage where
  source : Nat
  target : Nat
  payload : BlazingTable

/-- partition の数の報告 `(source, destination, count)`。 -/
structure CountMessage where
  source : Nat
  target : Nat
  count : Nat
  deriving DecidableEq, Repr

/-- `DistributeAggregateKernel::run` の位置のうち、partition の数に関わるもの。 -/
inductive DistPhase where
  /-- batch の loop と `kernel_cv` の barrier -/
  | working
  /-- `send_total_partition_counts` を終え、`get_total_partition_counts` で peer の数を待つ -/
  | countsSent
  /-- `get_total_partition_counts` が `total` を返し、`wait_for_count(total)` で待つ -/
  | counted (total : Nat)
  /-- `wait_for_count(total)` を抜けた -/
  | released (total : Nat)
  deriving DecidableEq, Repr

/-- `total_count` を作った後なら、その値。 -/
def DistPhase.totalCount : DistPhase → Option Nat
  | .counted total | .released total => some total
  | _ => none

/-- 一つの node の Distribute kernel と、その output cache。 -/
structure DistNode where
  /-- worker がまだ始めていない task の batch -/
  waiting : List BlazingTable
  /-- 始まった task の、まだ起こしていない action -/
  running : List (List DistributeAction)
  /-- `set_empty_part_for_non_master_node` -/
  emptyPartSet : Bool
  /-- `node_count`：宛先の node ごとの partition の数 -/
  nodeCount : Nat → Nat
  /-- output cache が受理した batch。受理した順に並ぶ。Merge の入力の cache でもある -/
  cache : List BlazingTable
  /-- output cache が受理した batch の数（`wait_for_count` が見る数） -/
  accepted : Nat
  /-- 受理した batch を、それを出した node ごとに数えたもの。証明のための記録 -/
  acceptedFrom : Nat → Nat
  /-- peer から届いた partition の数 -/
  reported : Nat → Option Nat
  phase : DistPhase

/-- batch の列 `batches` を受け取る前の node。 -/
def DistNode.init (batches : List BlazingTable) : DistNode :=
  ⟨batches, [], false, fun _ => 0, [], 0, fun _ => 0, fun _ => none, .working⟩

/-- クラスタの全部の node と network。 -/
structure ClusterState where
  nodes : Nat → DistNode
  /-- 送られて、まだ届いていない data message -/
  dataInFlight : List DataMessage
  /-- 送られて、まだ届いていない count message -/
  countsInFlight : List CountMessage

namespace ClusterState

/-- node `p` が `batches p` を受け取る前のクラスタ。 -/
def init (batches : Nat → List BlazingTable) : ClusterState :=
  ⟨fun p => .init (batches p), [], []⟩

/-- node `p` の状態を `x` にする。 -/
def setNode (s : ClusterState) (p : Nat) (x : DistNode) : ClusterState :=
  { s with nodes := Function.update s.nodes p x }

@[simp] theorem setNode_nodes (s : ClusterState) (p : Nat) (x : DistNode) (q : Nat) :
    (s.setNode p x).nodes q = if q = p then x else s.nodes q :=
  Function.update_apply _ _ _ _

@[simp] theorem setNode_dataInFlight (s : ClusterState) (p : Nat) (x : DistNode) :
    (s.setNode p x).dataInFlight = s.dataInFlight := rfl

@[simp] theorem setNode_countsInFlight (s : ClusterState) (p : Nat) (x : DistNode) :
    (s.setNode p x).countsInFlight = s.countsInFlight := rfl

/-- `x` が node `p` の field `f` を変えなければ、どの node の `f` も変わらない。 -/
theorem setNode_nodes_field {β : Type} (f : DistNode → β) {s : ClusterState} {p : Nat}
    {x : DistNode} (hx : f x = f (s.nodes p)) (q : Nat) :
    f ((s.setNode p x).nodes q) = f (s.nodes q) := by
  rw [setNode_nodes]
  split
  · rename_i h
    rw [h, hx]
  · rfl

/-- node `n` へ向かって network にある data message の数。 -/
def inflightTo (s : ClusterState) (n : Nat) : Nat := s.dataInFlight.countP fun m => m.target = n

end ClusterState

open ClusterState

/-- node `p` が peer に送る count message。自分の `node_count` の peer の欄。 -/
def countMessages (totalNodes p : Nat) (nodeCount : Nat → Nat) : List CountMessage :=
  ((List.range totalNodes).filter (· ≠ p)).map fun q => ⟨p, q, nodeCount q⟩

/-- `get_total_partition_counts`：自分宛ての数と、peer 全部から届いた数の和。 -/
def totalPartitionCounts (totalNodes p : Nat) (x : DistNode) : Nat :=
  x.nodeCount p + ∑ q ∈ (Finset.range totalNodes).erase p, (x.reported q).getD 0

/-- クラスタの一歩。node `p` の遷移は `p < totalNodes` の node だけが起こす。 -/
inductive ClusterStep (d : DistributeSetup) : ClusterState → ClusterState → Prop
  /-- worker が node `p` の batch `b` の task を始める。`do_process` はこのとき
  `set_empty_part_for_non_master_node` を読む。 -/
  | startTask {s : ClusterState} {p : Nat} {pre post : List BlazingTable} {b : BlazingTable}
      (hp : p < d.totalNodes) (h : (s.nodes p).waiting = pre ++ b :: post) :
      ClusterStep d s (s.setNode p { s.nodes p with
        waiting := pre ++ post
        running := (s.nodes p).running ++ [d.taskActions p (s.nodes p).emptyPartSet b] })
  /-- `addToCache` が受理する。task は続けて `increment_node_count(self)` を呼ぶ。 -/
  | addAccepted {s : ClusterState} {p : Nat} {pre post : List (List DistributeAction)}
      {t : BlazingTable} {allowEmpty : Bool} {rest : List DistributeAction}
      (hp : p < d.totalNodes)
      (h : (s.nodes p).running = pre ++ (.addToCache t allowEmpty :: rest) :: post)
      (ha : accepts (d.dropEmpty p) t allowEmpty = true) :
      ClusterStep d s (s.setNode p { s.nodes p with
        running := pre ++ (.incrementNodeCount p :: rest) :: post
        cache := (s.nodes p).cache ++ [t]
        accepted := (s.nodes p).accepted + 1
        acceptedFrom := bump (s.nodes p).acceptedFrom p })
  /-- `addToCache` が空の table を捨てて false を返す。 -/
  | addRejected {s : ClusterState} {p : Nat} {pre post : List (List DistributeAction)}
      {t : BlazingTable} {allowEmpty : Bool} {rest : List DistributeAction}
      (hp : p < d.totalNodes)
      (h : (s.nodes p).running = pre ++ (.addToCache t allowEmpty :: rest) :: post)
      (ha : accepts (d.dropEmpty p) t allowEmpty = false) :
      ClusterStep d s (s.setNode p { s.nodes p with running := pre ++ rest :: post })
  /-- `increment_node_count(q)` -/
  | increment {s : ClusterState} {p q : Nat} {pre post : List (List DistributeAction)}
      {rest : List DistributeAction} (hp : p < d.totalNodes)
      (h : (s.nodes p).running = pre ++ (.incrementNodeCount q :: rest) :: post) :
      ClusterStep d s (s.setNode p { s.nodes p with
        running := pre ++ rest :: post
        nodeCount := bump (s.nodes p).nodeCount q })
  /-- data message を node `q` に送る。 -/
  | transmit {s : ClusterState} {p q : Nat} {pre post : List (List DistributeAction)}
      {t : BlazingTable} {rest : List DistributeAction} (hp : p < d.totalNodes)
      (h : (s.nodes p).running = pre ++ (.transmit t q :: rest) :: post) :
      ClusterStep d s { s.setNode p { s.nodes p with running := pre ++ rest :: post } with
        dataInFlight := s.dataInFlight ++ [⟨p, q, t⟩] }
  /-- `set_empty_part_for_non_master_node = true` -/
  | setEmptyPart {s : ClusterState} {p : Nat} {pre post : List (List DistributeAction)}
      {rest : List DistributeAction} (hp : p < d.totalNodes)
      (h : (s.nodes p).running = pre ++ (.setEmptyPart :: rest) :: post) :
      ClusterStep d s (s.setNode p { s.nodes p with
        running := pre ++ rest :: post
        emptyPartSet := true })
  /-- `do_process` が終わり、task が kernel の task の集合から除かれる。 -/
  | finishTask {s : ClusterState} {p : Nat} {pre post : List (List DistributeAction)}
      (hp : p < d.totalNodes) (h : (s.nodes p).running = pre ++ [] :: post) :
      ClusterStep d s (s.setNode p { s.nodes p with running := pre ++ post })
  /-- Modelled from the spec: data message が届き、受け手の output cache が受理する。 -/
  | deliverData {s : ClusterState} {pre post : List DataMessage} {m : DataMessage}
      (h : s.dataInFlight = pre ++ m :: post) :
      ClusterStep d s ({ s with dataInFlight := pre ++ post }.setNode m.target { s.nodes m.target with
        cache := (s.nodes m.target).cache ++ [m.payload]
        accepted := (s.nodes m.target).accepted + 1
        acceptedFrom := bump (s.nodes m.target).acceptedFrom m.source })
  /-- task が全部終わって barrier を抜け、`send_total_partition_counts` を呼ぶ。 -/
  | sendCounts {s : ClusterState} {p : Nat} (hp : p < d.totalNodes)
      (hph : (s.nodes p).phase = .working) (hw : (s.nodes p).waiting = [])
      (hr : (s.nodes p).running = []) :
      ClusterStep d s { s.setNode p { s.nodes p with phase := .countsSent } with
        countsInFlight := s.countsInFlight ++ countMessages d.totalNodes p (s.nodes p).nodeCount }
  /-- count message が届く。 -/
  | deliverCount {s : ClusterState} {pre post : List CountMessage} {m : CountMessage}
      (h : s.countsInFlight = pre ++ m :: post) :
      ClusterStep d s ({ s with countsInFlight := pre ++ post }.setNode m.target { s.nodes m.target with
        reported := Function.update (s.nodes m.target).reported m.source (some m.count) })
  /-- peer 全部から数が届き、`get_total_partition_counts` が合計を返す。 -/
  | getTotal {s : ClusterState} {p : Nat} (hp : p < d.totalNodes)
      (hph : (s.nodes p).phase = .countsSent)
      (hrep : ∀ q < d.totalNodes, q ≠ p → ((s.nodes p).reported q).isSome) :
      ClusterStep d s (s.setNode p { s.nodes p with
        phase := .counted (totalPartitionCounts d.totalNodes p (s.nodes p)) })
  /-- output cache が `total` 個を受理したので `wait_for_count(total)` を抜ける。 -/
  | release {s : ClusterState} {p total : Nat} (hp : p < d.totalNodes)
      (hph : (s.nodes p).phase = .counted total) (hT : total ≤ (s.nodes p).accepted) :
      ClusterStep d s (s.setNode p { s.nodes p with phase := .released total })

/-- node `p` が `batches p` を受け取ったクラスタから、何歩か進んで着く状態。 -/
def ClusterReachable (d : DistributeSetup) (batches : Nat → List BlazingTable)
    (s : ClusterState) : Prop :=
  Relation.ReflTransGen (ClusterStep d) (ClusterState.init batches) s

end BlazingSql
