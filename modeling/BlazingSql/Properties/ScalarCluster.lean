import BlazingSql.Properties.Completion
import BlazingSql.Properties.TableInvariant

/-!
# group のない aggregation のクラスタ

group のない aggregation では、Distribute の task は batch を master に送る。master でない node は
自分の output cache に空の table だけを入れる。クラスタのどの実行でもそれが保たれるので、
master でない node の Merge は行を出さない（spec の scalar-aggregate uniqueness）。

`set_empty_part_for_non_master_node` は task の始まりに読まれ、空の table を入れた後で立つ。
その間に同じ node の別の task が始まると、その task も空の table を入れる。
「最初の batch でだけ空の table を入れる」は、task が一つずつ進む実行でしか成り立たない。

* `ScalarInv` — master でない node の cache には空の table しかなく、data message は全部
  master 宛てで、実行中の task の action もそれを守る。`TablesInv` の一つの場合
* `nonMaster_merge_empty` — 到達できるどの状態でも、master でない node の Merge の
  `do_process` が成功すれば、出力に行はない
* `exists_two_empty_parts` — master でない node の二つの task が重なると、その output cache に
  空の table が二つ入る
-/

namespace BlazingSql

open ClusterState

variable {d : DistributeSetup}

/-! ## task の action -/

/-- group のない aggregation で node `q` の action が守ること。`q` が master でなければ、
自分の cache に入れる table は空。送る先は master。 -/
def ScalarSafe (d : DistributeSetup) (q : Nat) : DistributeAction → Prop
  | .addToCache t _ => q ≠ d.masterNode → t.rows = []
  | .transmit _ r => r = d.masterNode
  | _ => True

/-- group のない aggregation の `do_process`。master は batch を自分の cache に入れる。
master でない node は、印が立っていなければ空の table を入れて印を立て、batch を master に送る。 -/
theorem taskActions_scalar (hG : d.expr.groupColumnIndices.length = 0) (p : Nat) (flag : Bool)
    (b : BlazingTable) :
    d.taskActions p flag b =
      if p = d.masterNode then [.addToCache b false]
      else (if flag then [] else [.addToCache (createEmptyTable b) true, .setEmptyPart]) ++
        sendMessage b d.masterNode := by
  by_cases hp : p = d.masterNode <;> cases flag <;>
    simp [DistributeSetup.taskActions, DistributeAggregateKernel.doProcess, hG, hp,
      Context.isMasterNode, DistributeSetup.context]

theorem scalarSafe_taskActions (hG : d.expr.groupColumnIndices.length = 0) (p : Nat) (flag : Bool)
    (b : BlazingTable) : ∀ a ∈ d.taskActions p flag b, ScalarSafe d p a := by
  rw [taskActions_scalar hG]
  split_ifs with hp <;> simp [ScalarSafe, sendMessage, hp]

/-! ## 不変条件 -/

/-- 到達できる状態が満たすこと。master でない node の output cache には空の table しかなく、
data message は全部 master 宛てで、実行中の task の action もそれを守る。 -/
def ScalarInv (d : DistributeSetup) (s : ClusterState) : Prop :=
  TablesInv (fun q t => q ≠ d.masterNode → t.rows = []) (fun m => m.target = d.masterNode)
    (ScalarSafe d) (fun _ _ => True) s

/-- group のない形の action は、`ScalarInv` を一歩ごとに保つ。届いた data message は
master の cache に入るので、master でない node の cache には入らない。 -/
theorem tablesRules_scalar (hG : d.expr.groupColumnIndices.length = 0) :
    TablesRules d (fun q t => q ≠ d.masterNode → t.rows = []) (fun m => m.target = d.masterNode)
      (ScalarSafe d) (fun _ _ => True) :=
  ⟨fun p flag b _ => scalarSafe_taskActions hG p flag b, fun _ _ _ h => h, fun _ _ _ h => h,
    fun _ h hne => absurd h hne, fun _ => trivial⟩

theorem ClusterReachable.scalarInv {batches : Nat → List BlazingTable} {s : ClusterState}
    (hG : d.expr.groupColumnIndices.length = 0) (hs : ClusterReachable d batches s) :
    ScalarInv d s :=
  hs.tablesInv (tablesRules_scalar hG) fun _ _ _ => trivial

/-- 列 `v` に一行だけの batch。 -/
def vBatch (v : Int) : BlazingTable := ⟨["v"], [[some v]], by simp⟩

/-- master でない node `1` だけが batch を二つ持つ。 -/
def twoBatchesOnNode1 (p : Nat) : List BlazingTable := if p = 1 then [vBatch 10, vBatch 5] else []

/-! ## master でない node の Merge -/

/-- つないだ table の行は、つないだ table の行を順に並べたもの。 -/
theorem rows_of_concatTables {ts : List BlazingTable} {c : BlazingTable}
    (h : concatTables ts = .ok (some c)) : c.rows = (ts.map BlazingTable.rows).flatten := by
  cases ts with
  | nil => cases h
  | cons t ts =>
    by_cases hw : ∀ u ∈ ts, u.names.length = t.names.length
    · obtain ⟨c', hc', -, hrows⟩ := concatTables_rows hw
      rw [hc'] at h
      cases h
      exact hrows
    · simp [concatTables, hw] at h

/--
**group のない aggregation では、どの実行の到達できるどの状態でも、master でない node の
Merge は行を出さない。**

master でない node の output cache には空の table しか入らないので、`do_process` が成功すれば
その出力に行はない。同じ node の task が重なって空の table がいくつ入っても変わらない。
-/
theorem nonMaster_merge_empty {batches : Nat → List BlazingTable} {s : ClusterState} {q : Nat}
    {t : BlazingTable} (hG : d.expr.groupColumnIndices.length = 0)
    (hs : ClusterReachable d batches s) (hq : q ≠ d.masterNode)
    (h : MergeAggregateKernel.doProcess (d.context q) d.expr (s.nodes q).cache = .ok t) :
    t.rows = [] := by
  have hcache := fun t ht => (hs.scalarInv hG).cache q t ht hq
  obtain ⟨oc, hc, h⟩ := bind_eq_ok.mp h
  cases oc with
  | none => cases h
  | some c =>
    have hrows : c.rows = [] := by
      rw [rows_of_concatTables hc, List.flatten_eq_nil_iff]
      simpa using hcache
    unfold MergeAggregateKernel.mergeConcatenated at h
    obtain ⟨m, -, h⟩ := bind_eq_ok.mp h
    have hmaster : (d.context q).isMasterNode = false := by
      simpa [Context.isMasterNode, DistributeSetup.context] using hq
    simp only [hG, hmaster, if_true, Bool.false_eq_true, if_false] at h
    split_ifs at h
    · obtain ⟨_, -, h⟩ := bind_eq_ok.mp h
      cases h
      simp [groupedTable, groupKeys, hrows]
    · cases h; exact hrows

theorem nonMaster_merge_empty_scalarSetup :
    ∃ s t, ClusterReachable scalarSetup twoBatchesOnNode1 s ∧
      MergeAggregateKernel.doProcess (scalarSetup.context 1) scalarSetup.expr (s.nodes 1).cache =
        .ok t ∧ t.rows = [] := by
  have h₁ := @ClusterStep.startTask scalarSetup (ClusterState.init twoBatchesOnNode1) 1 []
    [vBatch 5] (vBatch 10) (by decide) rfl
  have hreach : ClusterReachable scalarSetup twoBatchesOnNode1 _ :=
    (Relation.ReflTransGen.single h₁).tail
      (@ClusterStep.addAccepted scalarSetup _ 1 [] [] _ true _ (by decide) rfl rfl)
  exact ⟨_, _, hreach, rfl,
    nonMaster_merge_empty (d := scalarSetup) (q := 1) rfl hreach (by decide) rfl⟩

/-! ## 重なった task -/

/--
**master でない node の二つの task が重なると、その output cache に空の table が二つ入る。**

二つ目の task は、一つ目の task が `set_empty_part_for_non_master_node` を立てる前に始まれば、
印を false と読む。task が一つずつ進む実行では、空の table は最初の batch の一つだけ。
-/
theorem exists_two_empty_parts {batches : Nat → List BlazingTable} {p : Nat}
    {b₁ b₂ : BlazingTable} {rest : List BlazingTable} (hG : d.expr.groupColumnIndices.length = 0)
    (hp : p < d.totalNodes) (hm : p ≠ d.masterNode) (hb : batches p = b₁ :: b₂ :: rest) :
    ∃ s, ClusterReachable d batches s ∧
      (s.nodes p).cache = [createEmptyTable b₁, createEmptyTable b₂] := by
  have hA : ∀ b, d.taskActions p false b =
      .addToCache (createEmptyTable b) true :: .setEmptyPart :: sendMessage b d.masterNode := by
    intro b
    simp [taskActions_scalar hG, hm]
  have h₁ := @ClusterStep.startTask d (ClusterState.init batches) p [] (b₂ :: rest) b₁ hp
    (by simp [ClusterState.init, DistNode.init, hb])
  refine ⟨_, (((Relation.ReflTransGen.single h₁).tail
    (@ClusterStep.startTask d _ p [] rest b₂ hp (by simp))).tail
    (@ClusterStep.addAccepted d _ p [] [d.taskActions p false b₂] (createEmptyTable b₁) true
      (.setEmptyPart :: sendMessage b₁ d.masterNode) hp
      (by simp [hA, ClusterState.init, DistNode.init]) rfl)).tail
    (@ClusterStep.addAccepted d _ p
      [.incrementNodeCount p :: .setEmptyPart :: sendMessage b₁ d.masterNode] []
      (createEmptyTable b₂) true (.setEmptyPart :: sendMessage b₂ d.masterNode) hp
      (by simp [hA]) rfl), by simp [ClusterState.init, DistNode.init]⟩

theorem exists_two_empty_parts_scalarSetup :
    ∃ s, ClusterReachable scalarSetup twoBatchesOnNode1 s ∧
      (s.nodes 1).cache = [createEmptyTable (vBatch 10), createEmptyTable (vBatch 5)] :=
  exists_two_empty_parts (d := scalarSetup) rfl (by decide) (by decide) rfl

end BlazingSql
