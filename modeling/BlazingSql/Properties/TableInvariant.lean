import BlazingSql.Properties.ClusterRefinement

/-!
# cache と network の table が守ること

Distribute の task が cache に入れる table と送る table がある性質を守れば、クラスタの
どの実行でも、どの node の cache の table も network の table もその性質を守る。
一歩ごとに見るのは、table を動かす action だけである。

* `TablesInv` — node ごとの cache の table、data message、実行中の task の action、
  まだ始まっていない task の batch が、それぞれ `C`・`M`・`A`・`W` を満たす
* `TablesRules` — 一歩ごとに `TablesInv` が保たれるための、action の側の条件
* `ClusterReachable.tablesInv` — 到達できるどの状態でも `TablesInv` が成り立つ
* `taskActions_names` — どの形の `do_process` も、入力の batch と同じ列名の table しか
  cache に入れず、送らない
* `concatTables_cache` — 入力の batch がどれも同じ列名なら、どの実行のどの状態でも、
  どの node の cache も Merge の `concatTables` で失敗しない
-/

namespace BlazingSql

open ClusterState

section Tables

variable {C : Nat → BlazingTable → Prop} {M : DataMessage → Prop}
  {A : Nat → DistributeAction → Prop} {W : Nat → BlazingTable → Prop}

/-- 遷移系の table が守ること。node `q` の cache の table は `C q`、data message は `M`、
node `q` の実行中の task のまだ起こしていない action は `A q`、まだ始まっていない task の
batch は `W q` を満たす。 -/
structure TablesInv (C : Nat → BlazingTable → Prop) (M : DataMessage → Prop)
    (A : Nat → DistributeAction → Prop) (W : Nat → BlazingTable → Prop) (s : ClusterState) :
    Prop where
  cache : ∀ q, ∀ t ∈ (s.nodes q).cache, C q t
  inFlight : ∀ m ∈ s.dataInFlight, M m
  running : ∀ q, ∀ a ∈ (s.nodes q).running.flatten, A q a
  waiting : ∀ q, ∀ b ∈ (s.nodes q).waiting, W q b

/-- 一歩ごとに `TablesInv` が保たれるための条件。始まる task の action は `A` を守り、
cache に入る table、送られる message、届いた message の中身は、それぞれの性質を守る。
受理された `addToCache` の後に置かれる `increment_node_count(self)` も `A` を守る。 -/
structure TablesRules (d : DistributeSetup) (C : Nat → BlazingTable → Prop)
    (M : DataMessage → Prop) (A : Nat → DistributeAction → Prop)
    (W : Nat → BlazingTable → Prop) : Prop where
  start : ∀ p flag b, W p b → ∀ a ∈ d.taskActions p flag b, A p a
  add : ∀ p t allowEmpty, A p (.addToCache t allowEmpty) → C p t
  send : ∀ p q t, A p (.transmit t q) → M ⟨p, q, t⟩
  deliver : ∀ m, M m → C m.target m.payload
  increment : ∀ p, A p (.incrementNodeCount p)

theorem tablesInv_init {batches : Nat → List BlazingTable} (hW : ∀ q, ∀ b ∈ batches q, W q b) :
    TablesInv C M A W (ClusterState.init batches) :=
  ⟨fun _ _ h => by simp [ClusterState.init, DistNode.init] at h, nofun,
    fun _ _ h => by simp [ClusterState.init, DistNode.init] at h, hW⟩

/-- 実行中の task の列で、一つの task の先頭の action を `new` に置き換えても、`P` は保たれる。 -/
theorem forall_mem_flatten_replace {α : Type} {P : α → Prop} {pre post : List (List α)} {c : α}
    {rest : List α} (new : List α) (h : ∀ a ∈ (pre ++ (c :: rest) :: post).flatten, P a)
    (hnew : ∀ a ∈ new, P a) : ∀ a ∈ (pre ++ (new ++ rest) :: post).flatten, P a := by
  intro a ha
  simp only [List.flatten_append, List.flatten_cons, List.mem_append] at h ha
  rcases ha with ha | (ha | ha) | ha
  · exact h a (by simp [ha])
  · exact hnew a ha
  · exact h a (by simp [ha])
  · exact h a (by simp [ha])

section Preserve

variable {s s' : ClusterState} {p : Nat} {x : DistNode}

/-- node `p` を `x` に替える一歩は、`x` と network が守れば不変条件を保つ。 -/
theorem TablesInv.setNode (hinv : TablesInv C M A W s)
    (hnodes : s'.nodes = Function.update s.nodes p x) (hD : ∀ m ∈ s'.dataInFlight, M m)
    (hcache : ∀ t ∈ x.cache, C p t) (hrun : ∀ a ∈ x.running.flatten, A p a)
    (hwait : ∀ b ∈ x.waiting, W p b) : TablesInv C M A W s' := by
  refine ⟨fun q => ?_, hD, fun q => ?_, fun q => ?_⟩ <;> rw [hnodes] <;> by_cases hqp : q = p
  · subst hqp; simpa using hcache
  · simpa [hqp] using hinv.cache q
  · subst hqp; simpa using hrun
  · simpa [hqp] using hinv.running q
  · subst hqp; simpa using hwait
  · simpa [hqp] using hinv.waiting q

/-- node `p` の実行中の task の action を一つ `new` に置き換え、cache も batch も network も
変えない一歩。 -/
theorem TablesInv.setRunning (hinv : TablesInv C M A W s)
    {pre post : List (List DistributeAction)} {c : DistributeAction} {rest : List DistributeAction}
    (new : List DistributeAction) (h : (s.nodes p).running = pre ++ (c :: rest) :: post)
    (hx : x.cache = (s.nodes p).cache) (hw : x.waiting = (s.nodes p).waiting)
    (hr : x.running = pre ++ (new ++ rest) :: post) (hnew : ∀ a ∈ new, A p a) :
    TablesInv C M A W (s.setNode p x) :=
  hinv.setNode rfl hinv.inFlight (hx ▸ hinv.cache p)
    (hr ▸ forall_mem_flatten_replace new (h ▸ hinv.running p) hnew) (hw ▸ hinv.waiting p)

variable {d : DistributeSetup}

/-- **一歩ごとに不変条件は保たれる。** -/
theorem TablesInv.step (hrules : TablesRules d C M A W) (hinv : TablesInv C M A W s)
    (hstep : ClusterStep d s s') : TablesInv C M A W s' := by
  cases hstep with
  | @startTask q pre post b hp h =>
    have hb : W q b := hinv.waiting q b (by simp [h])
    refine hinv.setNode rfl hinv.inFlight (hinv.cache q) (fun a ha => ?_) fun u hu =>
      hinv.waiting q u (by simp only [h, List.mem_append, List.mem_cons] at hu ⊢; tauto)
    simp only [List.flatten_append, List.flatten_cons, List.flatten_nil, List.append_nil,
      List.mem_append] at ha
    exact ha.elim (hinv.running q a) (hrules.start q _ b hb a)
  | @addAccepted q pre post t allowEmpty rest hp h ha =>
    have hA : A q (.addToCache t allowEmpty) := hinv.running q _ (by simp [h])
    refine hinv.setNode rfl hinv.inFlight (fun u hu => ?_)
      (forall_mem_flatten_replace [.incrementNodeCount q] (h ▸ hinv.running q)
        (by simpa using hrules.increment q)) (hinv.waiting q)
    rcases List.mem_append.mp hu with hu | hu
    · exact hinv.cache q u hu
    · rw [List.mem_singleton.mp hu]; exact hrules.add q t allowEmpty hA
  | addRejected hp h => exact hinv.setRunning [] h rfl rfl rfl (List.forall_mem_nil _)
  | increment hp h => exact hinv.setRunning [] h rfl rfl rfl (List.forall_mem_nil _)
  | @transmit q r pre post t rest hp h =>
    have hA : A q (.transmit t r) := hinv.running q _ (by simp [h])
    refine hinv.setNode rfl (fun m hm => ?_) (hinv.cache q)
      (forall_mem_flatten_replace [] (h ▸ hinv.running q) (List.forall_mem_nil _)) (hinv.waiting q)
    rcases List.mem_append.mp hm with hm | hm
    · exact hinv.inFlight m hm
    · rw [List.mem_singleton.mp hm]; exact hrules.send q r t hA
  | setEmptyPart hp h => exact hinv.setRunning [] h rfl rfl rfl (List.forall_mem_nil _)
  | finishTask hp h =>
    refine hinv.setNode rfl hinv.inFlight (hinv.cache _) (fun a ha => ?_) (hinv.waiting _)
    exact hinv.running _ a (by simpa [h] using ha)
  | @deliverData pre post m h =>
    have hm := hinv.inFlight m (by simp [h])
    refine hinv.setNode rfl (fun m' hm' => hinv.inFlight m' (by simp [h] at hm' ⊢; tauto))
      (fun u hu => ?_) (hinv.running m.target) (hinv.waiting m.target)
    rcases List.mem_append.mp hu with hu | hu
    · exact hinv.cache m.target u hu
    · rw [List.mem_singleton.mp hu]; exact hrules.deliver m hm
  | sendCounts hp | deliverCount hp | getTotal hp | release hp =>
    exact hinv.setNode rfl hinv.inFlight (hinv.cache _) (hinv.running _) (hinv.waiting _)

end Preserve

theorem ClusterReachable.tablesInv {d : DistributeSetup} {batches : Nat → List BlazingTable}
    {s : ClusterState} (hrules : TablesRules d C M A W) (hW : ∀ q, ∀ b ∈ batches q, W q b)
    (hs : ClusterReachable d batches s) : TablesInv C M A W s := by
  induction hs with
  | refl => exact tablesInv_init hW
  | tail _ hstep ih => exact ih.step hrules hstep

end Tables

/-! ## 列名 -/

/-- action が cache に入れる table と送る table の列名が `names`。 -/
def ActionNames (names : List String) : DistributeAction → Prop
  | .addToCache t _ => t.names = names
  | .transmit t _ => t.names = names
  | _ => True

theorem names_of_hashPartition {hash : Row → Nat} {t hashed : BlazingTable} {cols : List Nat}
    {n : Nat} {offsets : List Nat} (h : hashPartition hash t cols n = .ok (hashed, offsets)) :
    hashed.names = t.names := by
  obtain ⟨_, -, h⟩ := bind_eq_ok.mp h
  cases h
  rfl

/-- scatter に渡る partition は、成功すればどれも入力の列名を持つ。 -/
theorem names_of_partitions {hash : Row → Nat} {ctx : Context} {cols : List Nat}
    {input : BlazingTable} {ps : List BlazingTable}
    (h : DistributeAggregateKernel.partitions hash ctx cols input = .ok ps) :
    ∀ p ∈ ps, p.names = input.names := by
  unfold DistributeAggregateKernel.partitions at h
  split at h
  · obtain ⟨⟨hashed, offsets⟩, hh, h⟩ := bind_eq_ok.mp h
    cases h
    intro p hp
    rw [names_of_mem_splitFrom hp, names_of_hashPartition hh]
  · cases h
    intro p hp
    rw [List.eq_of_mem_replicate hp]

theorem actionNames_scatterFrom {names : List String} (ctx : Context) :
    ∀ (i : Nat) (ps : List BlazingTable), (∀ p ∈ ps, p.names = names) →
      ∀ a ∈ scatterFrom ctx i ps, ActionNames names a
  | _, [], _ => List.forall_mem_nil _
  | i, p :: ps, h => by
    have hp := h p (List.mem_cons_self p ps)
    intro a ha
    simp only [scatterFrom, List.mem_append] at ha
    rcases ha with ha | ha
    · split at ha <;> simp only [sendMessage, List.mem_cons, List.mem_singleton,
        List.not_mem_nil, or_false] at ha <;> rcases ha with rfl | rfl <;>
        simp [ActionNames, hp]
    · exact actionNames_scatterFrom ctx (i + 1) ps (fun q hq => h q (List.mem_cons_of_mem p hq)) a ha

/-- **どの形の `do_process` も、入力の batch と同じ列名の table しか cache に入れず、送らない。**
group のない形は batch そのものか同じ列名の空の table を、group のある形は batch を
hash で分けた partition を扱う。 -/
theorem taskActions_names (d : DistributeSetup) (p : Nat) (flag : Bool) (b : BlazingTable) :
    ∀ a ∈ d.taskActions p flag b, ActionNames b.names a := by
  unfold DistributeSetup.taskActions DistributeAggregateKernel.doProcess
  split
  · rename_i acts h
    split at h
    · split at h <;> cases h <;> intro a ha
      · simp only [List.mem_singleton] at ha
        simp [ha, ActionNames]
      · cases flag <;> simp only [sendMessage, Bool.not_false, Bool.not_true, if_true,
          Bool.false_eq_true, if_false, List.nil_append, List.cons_append, List.singleton_append,
          List.mem_cons, List.mem_singleton, List.not_mem_nil, or_false] at ha <;>
          rcases ha with rfl | rfl | rfl | rfl <;> simp [ActionNames]
    · cases hps : DistributeAggregateKernel.partitions d.hash (d.context p)
        (DistributeAggregateKernel.columnsToHash d.expr) b with
      | error _ => simp [hps] at h
      | ok ps =>
        simp only [hps, Functor.map, Except.map, Except.ok.injEq] at h
        subst h
        exact actionNames_scatterFrom _ 0 ps (names_of_partitions hps)
  · exact List.forall_mem_nil _

/-- 入力の batch がどれも列名 `names` を持つときの、`TablesRules` の四つの性質。 -/
theorem tablesRules_names (d : DistributeSetup) (names : List String) :
    TablesRules d (fun _ t => t.names = names) (fun m => m.payload.names = names)
      (fun _ => ActionNames names) (fun _ b => b.names = names) :=
  ⟨fun p flag b hb => hb ▸ taskActions_names d p flag b, fun _ _ _ h => h, fun _ _ _ h => h,
    fun _ h => h, fun _ => trivial⟩

/--
**入力の batch がどれも同じ列名 `names` を持てば、どの実行の到達できるどの状態でも、
どの node の cache も Merge の `concatTables` で失敗しない。** つないだ table があれば、
その列名は `names`。

task がどの順に始まり、action がどう交互に起こり、data message がどの順に届いても、
cache に入る table は、batch か、batch と同じ列名の空の table か、batch を分けた partition である。
-/
theorem concatTables_cache {d : DistributeSetup} {batches : Nat → List BlazingTable}
    {s : ClusterState} {names : List String} (hb : ∀ q, ∀ b ∈ batches q, b.names = names)
    (hs : ClusterReachable d batches s) (n : Nat) :
    ∃ o, concatTables (s.nodes n).cache = .ok o ∧ ∀ t ∈ o, t.names = names := by
  have hcache := (hs.tablesInv (tablesRules_names d names) hb).cache n
  cases h : (s.nodes n).cache with
  | nil => exact ⟨none, rfl, nofun⟩
  | cons t ts =>
    rw [h] at hcache
    have ht := hcache t (List.mem_cons_self t ts)
    obtain ⟨c, hc, hcnames, -⟩ := @concatTables_rows t ts fun u hu => by
      rw [hcache u (List.mem_cons_of_mem t hu), ht]
    exact ⟨some c, hc, fun u hu => by
      rw [Option.mem_def, Option.some_inj] at hu
      rw [← hu, hcnames, ht]⟩

/-- 二つの node のクラスタで `SELECT k, SUM(v) GROUP BY k` の Distribute が `wait_for_count` を
抜けたとき、node `0` の cache には、自分の batch の空の partition と、node `1` から届いた
partition の二つがあり、つなげる。 -/
theorem concatTables_cache_twoKeyNodes :
    ∃ s o, (∀ q, ∀ b ∈ (twoKeyNodes.batchesOf q).map (partialTable (sumBy 0 1)),
        b.names = ["k", "s"]) ∧
      ClusterReachable (twoKeyNodes.distributeSetup valueSum (sumBy 0 1) false)
        (fun p => (twoKeyNodes.batchesOf p).map (partialTable (sumBy 0 1))) s ∧
      (s.nodes 0).cache.length = 2 ∧
      concatTables (s.nodes 0).cache = .ok o ∧ ∀ t ∈ o, t.names = ["k", "s"] := by
  have hb : ∀ q, ∀ b ∈ (twoKeyNodes.batchesOf q).map (partialTable (sumBy 0 1)),
      b.names = ["k", "s"] := fun _ _ hb => by
    obtain ⟨b, hmem, rfl⟩ := List.mem_map.mp hb
    rw [partialTable_names, names_of_mem_batchesOf hmem]
    rfl
  obtain ⟨s, hs, hdone⟩ := twoKeyNodes_released
  have hcache := coe_cache_eq_mergeInputs (by decide) twoKeyNodes_compute rfl (fun _ => .refl _) hs
    hdone (n := 0) (by decide)
  obtain ⟨o, ho, hnames⟩ := concatTables_cache hb hs 0
  refine ⟨s, o, hb, hs, ?_, ho, hnames⟩
  rw [← Multiset.coe_card, hcache]
  rfl

end BlazingSql
