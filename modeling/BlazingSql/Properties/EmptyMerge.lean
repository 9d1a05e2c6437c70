import BlazingSql.Properties.Routing

/-!
# 入力のない Merge

`MergeAggregateKernel::run` は、入力の cache に batch が一つも来なくても merge の task を出す。
`do_process` は入力を全部つなぎ、つないだ table の `names()` を null か確かめずに読む。

* `MergeAggregateKernel.doProcess_nil` — 入力がなければ、つないだ table は null
* `messagesTo_distributeActions_scalar` — group のない aggregation では、Distribute は
  master にしか送らない
* `mergeFailsAt_of_no_input` — 入力が全部空のクラスタでは、どの node でも、
  group のない aggregation では batch のない master でない node で、
  Merge の入力がどの順で届いても、Merge は null の table を参照し、クラスタは出力を返さない
-/

namespace BlazingSql

/-- 入力がなければ、`concatTables` は null を返し、`concatenated->names()` で失敗する。 -/
theorem MergeAggregateKernel.doProcess_nil (ctx : Context) (e : GroupByExpression) :
    MergeAggregateKernel.doProcess ctx e [] = .error .nullTable := rfl

/-! ## group のない aggregation の Distribute -/

section Scalar

variable {hash : Row → Nat} {e : GroupByExpression} {cols : List Nat} {p : Nat}

/-- group のない形の Distribute は、一つの batch で master 以外に message を送らない。 -/
theorem messagesTo_doProcess_scalar {ctx : Context} {flag : Bool} {input : BlazingTable}
    {acts : List DistributeAction} (hG : e.groupColumnIndices.length = 0)
    (hp : p ≠ ctx.masterNode)
    (h : DistributeAggregateKernel.doProcess hash ctx e cols flag input = .ok acts) :
    messagesTo p acts = [] := by
  rw [DistributeAggregateKernel.doProcess, if_pos hG] at h
  split at h <;> cases h
  · rfl
  · rw [messagesTo_append]
    split <;> simp [messagesTo, sendMessage, Ne.symm hp]

theorem messagesTo_processBatches_scalar {ctx : Context} (hG : e.groupColumnIndices.length = 0)
    (hp : p ≠ ctx.masterNode) :
    ∀ (flag : Bool) (bs : List BlazingTable) {acts : List DistributeAction},
      DistributeAggregateKernel.processBatches hash ctx e cols flag bs = .ok acts →
      messagesTo p acts = []
  | _, [], _, h => by cases h; rfl
  | flag, b :: bs, _, h => by
    rw [DistributeAggregateKernel.processBatches, bind_eq_ok] at h
    obtain ⟨a, ha, h⟩ := h
    rw [bind_eq_ok] at h
    obtain ⟨rest, hrest, h⟩ := h
    cases h
    rw [messagesTo_append, messagesTo_doProcess_scalar hG hp ha,
      messagesTo_processBatches_scalar hG hp _ bs hrest]
    rfl

/-- **group のない aggregation では、どの node の Distribute も master にしか送らない。** -/
theorem messagesTo_distributeActions_scalar {c : ClusterInput} {q : Nat}
    {acts : List DistributeAction} (hG : e.groupColumnIndices.length = 0)
    (hp : p ≠ c.masterNode) (h : distributeActions hash e cols c q = .ok acts) :
    messagesTo p acts = [] := by
  rw [distributeActions, bind_eq_ok] at h
  obtain ⟨partials, -, h⟩ := h
  exact messagesTo_processBatches_scalar hG hp false partials h

end Scalar

/-! ## batch のない node -/

/-- batch のない node の Distribute は何もしない。 -/
theorem distributeActions_of_batchesOf_nil {hash : Row → Nat} {e : GroupByExpression}
    {cols : List Nat} {c : ClusterInput} {p : Nat} (hnone : c.batchesOf p = []) :
    distributeActions hash e cols c p = .ok [] := by
  rw [distributeActions, hnone]
  rfl

/-- 入力が全部空なら、どの node も batch を持たない。 -/
theorem batchesOf_eq_nil {c : ClusterInput} (h : c.batches.flatten = []) (p : Nat) :
    c.batchesOf p = [] := by
  unfold ClusterInput.batchesOf
  rw [List.getD_eq_getElem?_getD]
  cases hb : c.batches[p]? with
  | none => rfl
  | some bs => exact List.flatten_eq_nil_iff.mp h bs (List.getElem?_mem hb)

/-- node `p` の Merge が、Distribute の結果と届く順によらず、null の table で失敗し、
クラスタが出力を返さないこと。 -/
def MergeFailsAt (hash : Row → Nat) (dropEmpty : Bool) (e : GroupByExpression)
    (columnsToHash : List Nat) (c : ClusterInput) (p : Nat) : Prop :=
  ∀ acts, (List.range c.totalNodes).mapM (distributeActions hash e columnsToHash c) = .ok acts →
    ∀ arrivals : Nat → List BlazingTable,
      (∀ n < c.totalNodes, (arrivals n).Perm (mergeInputs dropEmpty acts n)) →
      MergeAggregateKernel.doProcess (c.context p) e (arrivals p) = .error .nullTable ∧
        ∀ outs, mergeOutputs e c arrivals ≠ .ok outs

/--
**Merge の入力が一つも来ない node では、merge の task は null の table を参照する。**

入力が全部空のクラスタのどの node も、group のない aggregation で batch を持たない
master でない node も、そうなる。`MergeAggregateKernel::run` は task を出すので、
クラスタ全体も出力を返さない。
-/
theorem mergeFailsAt_of_no_input (hash : Row → Nat) (dropEmpty : Bool) {e : GroupByExpression}
    {columnsToHash : List Nat} {c : ClusterInput} {p : Nat} (hp : p < c.totalNodes)
    (hnone : c.batchesOf p = [])
    (hquiet : c.batches.flatten = [] ∨ e.groupColumnIndices.length = 0 ∧ p ≠ c.masterNode) :
    MergeFailsAt hash dropEmpty e columnsToHash c p := by
  intro acts hacts arrivals harr
  have hrel := forall₂_of_mapM_eq_ok hacts
  -- 自分の cache には何も入らない
  have hself : acts.getD p [] = [] := by
    have := getD_of_forall₂_range hrel [] hp
    rw [distributeActions_of_batchesOf_nil hnone] at this
    exact (Except.ok.inj this).symm
  -- どの node からも何も届かない
  have hsent : ∀ a ∈ acts, messagesTo p a = [] := by
    intro a ha
    obtain ⟨q, -, hqa⟩ := exists_of_mem_forall₂ hrel a ha
    rcases hquiet with hall | ⟨hG, hpm⟩
    · rw [distributeActions_of_batchesOf_nil (batchesOf_eq_nil hall q)] at hqa
      cases hqa
      rfl
    · exact messagesTo_distributeActions_scalar hG hpm hqa
  have hnil : mergeInputs dropEmpty acts p = [] := by
    simp only [mergeInputs, hself, List.append_eq_nil, List.flatten_eq_nil_iff, List.mem_map]
    exact ⟨rfl, fun _ ⟨a, ha, h⟩ => h ▸ hsent a ha⟩
  have harr_nil : arrivals p = [] := List.Perm.eq_nil (hnil ▸ harr p hp)
  refine ⟨by rw [harr_nil]; rfl, fun outs houts => ?_⟩
  have hout := getD_of_forall₂_range (forall₂_of_mapM_eq_ok houts) ⟨[], [], by simp⟩ hp
  rw [harr_nil, MergeAggregateKernel.doProcess_nil] at hout
  cases hout

/-- `SELECT SUM(val) AS s`。 -/
def sumAll (val : Nat) : GroupByExpression := ⟨[], [val], [.sum], ["s"], rfl, rfl⟩

/-- 二つの node のうち、master の node `0` だけが一行の batch を持つクラスタ。 -/
def masterOnly : ClusterInput where
  totalNodes := 2
  masterNode := 0
  schema := ["v"]
  batches := [[⟨["v"], [[some 10]], by simp⟩], []]
  nodes_pos := by decide
  master_lt := by decide
  batches_length := rfl
  schema_eq := by simp

theorem mergeFailsAt_masterOnly :
    1 < masterOnly.totalNodes ∧ masterOnly.batchesOf 1 = [] ∧
    (masterOnly.batches.flatten = [] ∨
      (sumAll 0).groupColumnIndices.length = 0 ∧ 1 ≠ masterOnly.masterNode) ∧
    MergeFailsAt (fun _ => 0) false (sumAll 0) (DistributeAggregateKernel.columnsToHash (sumAll 0))
      masterOnly 1 :=
  ⟨by decide, rfl, .inr ⟨rfl, by decide⟩,
    mergeFailsAt_of_no_input (fun _ => 0) false (by decide) rfl (.inr ⟨rfl, by decide⟩)⟩

example : runAggregation (fun _ => 0) false (sumAll 0) masterOnly = .error .nullTable := rfl

end BlazingSql
