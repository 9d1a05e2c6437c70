import BlazingSql.Cluster

/-!
# partition の数の一致

`BlazingSql/Cluster.lean` のクラスタのどの実行でも、node `n` の `get_total_partition_counts` が
返す数は、`n` の output cache が最後に受理する数に等しい。受理した数がそれを超えることはなく、
`wait_for_count(total_count)` は `n` へ向かう data message が全部届いたときにちょうど抜けられる。

二つの不変条件から導く。

1. `Balance` — 送り手 `p` と宛先 `n` の組ごとの保存則。`p` の `node_count` の `n` の欄と、
   `p` の task がこれから数える回数の和は、`n` が `p` から受理した数と、network にある
   `p` から `n` への data message の数と、`p` の task がこれから送る数の和に等しい。
   `do_process` の action の列は数える回数と送る回数が等しく（`balanced_taskActions`）、
   受理された `addToCache` は受理した数とこれから数える回数を一つずつ増やす。
2. `Settled` — barrier を抜けた node は task を持たないので、その `node_count` はもう変わらない。
   count message と届いた count はその値であり、合計を作った node は、全部の node が
   barrier を抜けた後にその値を足した。

* `partitionCounts_agree` — 到達できるどの状態でも、どの node についても `CountsAgree`
-/

namespace BlazingSql

open ClusterState

/-! ## action の列が数える回数と送る回数 -/

namespace DistributeAction

/-- `increment_node_count(n)` か。 -/
def countsFor (n : Nat) : DistributeAction → Bool
  | .incrementNodeCount m => m == n
  | _ => false

/-- node `n` への送信か。 -/
def sendsTo (n : Nat) : DistributeAction → Bool
  | .transmit _ m => m == n
  | _ => false

variable {n : Nat}

@[simp] theorem countsFor_addToCache (t : BlazingTable) (allowEmpty : Bool) :
    (addToCache t allowEmpty).countsFor n = false := rfl
@[simp] theorem countsFor_incrementNodeCount (m : Nat) :
    (incrementNodeCount m).countsFor n = (m == n) := rfl
@[simp] theorem countsFor_transmit (t : BlazingTable) (m : Nat) :
    (transmit t m).countsFor n = false := rfl
@[simp] theorem countsFor_setEmptyPart : setEmptyPart.countsFor n = false := rfl
@[simp] theorem sendsTo_addToCache (t : BlazingTable) (allowEmpty : Bool) :
    (addToCache t allowEmpty).sendsTo n = false := rfl
@[simp] theorem sendsTo_incrementNodeCount (m : Nat) :
    (incrementNodeCount m).sendsTo n = false := rfl
@[simp] theorem sendsTo_transmit (t : BlazingTable) (m : Nat) :
    (transmit t m).sendsTo n = (m == n) := rfl
@[simp] theorem sendsTo_setEmptyPart : setEmptyPart.sendsTo n = false := rfl

end DistributeAction

/-- action の列が `node_count` の `n` の欄を増やす回数と、`n` に送る回数が等しい。 -/
def Balanced (n : Nat) (acts : List DistributeAction) : Prop :=
  acts.countP (·.countsFor n) = acts.countP (·.sendsTo n)

theorem Balanced.append {n : Nat} {a b : List DistributeAction} (ha : Balanced n a)
    (hb : Balanced n b) : Balanced n (a ++ b) := by
  unfold Balanced at *
  rw [List.countP_append, List.countP_append, ha, hb]

theorem balanced_sendMessage (n : Nat) (t : BlazingTable) (q : Nat) :
    Balanced n (sendMessage t q) := by
  simp [Balanced, sendMessage, List.countP_cons]

theorem balanced_scatterFrom (n : Nat) (ctx : Context) :
    ∀ (i : Nat) (ps : List BlazingTable), Balanced n (scatterFrom ctx i ps)
  | _, [] => rfl
  | i, p :: ps => by
    refine Balanced.append ?_ (balanced_scatterFrom n ctx (i + 1) ps)
    split
    · rfl
    · exact balanced_sendMessage n p i

/-- `do_process` の action の列は、どの宛先についても数える回数と送る回数が等しい。 -/
theorem balanced_doProcess {hash : Row → Nat} {ctx : Context} {e : GroupByExpression}
    {cols : List Nat} {flag : Bool} {input : BlazingTable} {acts : List DistributeAction} (n : Nat)
    (h : DistributeAggregateKernel.doProcess hash ctx e cols flag input = .ok acts) :
    Balanced n acts := by
  unfold DistributeAggregateKernel.doProcess at h
  split at h
  · split at h <;> cases h
    · rfl
    · exact Balanced.append (by split <;> rfl) (balanced_sendMessage n input _)
  · cases hp : DistributeAggregateKernel.partitions hash ctx cols input <;> rw [hp] at h <;>
      cases h
    exact balanced_scatterFrom n ctx 0 _

theorem balanced_taskActions (d : DistributeSetup) (p : Nat) (flag : Bool) (b : BlazingTable)
    (n : Nat) : Balanced n (d.taskActions p flag b) := by
  unfold DistributeSetup.taskActions
  split
  · exact balanced_doProcess n ‹_›
  · rfl

/-! ## 保存則 -/

/-- 実行中の task がこれから `node_count` の `n` の欄を増やす回数。 -/
def pendingCounts (running : List (List DistributeAction)) (n : Nat) : Nat :=
  (running.map fun acts => acts.countP (·.countsFor n)).sum

/-- 実行中の task がこれから node `n` に送る回数。 -/
def pendingSends (running : List (List DistributeAction)) (n : Nat) : Nat :=
  (running.map fun acts => acts.countP (·.sendsTo n)).sum

/-- node `p` から node `n` へ向かって network にある data message の数。 -/
def ClusterState.inflight (s : ClusterState) (p n : Nat) : Nat :=
  s.dataInFlight.countP fun m => m.source = p ∧ m.target = n

theorem sum_bump {f : Nat → Nat} {p N : Nat} (hp : p < N) :
    ∑ q ∈ Finset.range N, bump f p q = ∑ q ∈ Finset.range N, f q + 1 := by
  simp [Finset.sum_add_distrib, hp]

/-- 送り手が全部 node なら、送り手ごとの数の和は宛先への数。 -/
theorem sum_inflight {N n : Nat} :
    ∀ {l : List DataMessage}, (∀ m ∈ l, m.source < N) →
      ∑ p ∈ Finset.range N, l.countP (fun m => m.source = p ∧ m.target = n) =
        l.countP fun m => m.target = n
  | [], _ => by simp
  | m :: l, hl => by
    have ih := sum_inflight (n := n) fun m' hm' => hl m' (List.mem_cons_of_mem m hm')
    simp only [List.countP_cons, Finset.sum_add_distrib, ih]
    by_cases ht : m.target = n <;> simp [ht, hl m (List.mem_cons_self m l)]

variable {d : DistributeSetup} {s s' : ClusterState}

/-- 送り手と宛先の組ごとの保存則と、受理した数の内訳。 -/
structure Balance (d : DistributeSetup) (s : ClusterState) : Prop where
  account : ∀ p n, (s.nodes p).nodeCount n + pendingCounts (s.nodes p).running n =
    (s.nodes n).acceptedFrom p + s.inflight p n + pendingSends (s.nodes p).running n
  accepted_eq : ∀ n,
    (s.nodes n).accepted = ∑ p ∈ Finset.range d.totalNodes, (s.nodes n).acceptedFrom p
  source_lt : ∀ m ∈ s.dataInFlight, m.source < d.totalNodes

theorem balance_init (batches : Nat → List BlazingTable) : Balance d (ClusterState.init batches) :=
  ⟨fun _ _ => rfl, fun _ => by simp [ClusterState.init, DistNode.init], fun _ h => nomatch h⟩

/-- 数と受理した数と network を変えない遷移は、保存則を保つ。 -/
theorem Balance.frame (hb : Balance d s)
    (hn : ∀ p, (s'.nodes p).nodeCount = (s.nodes p).nodeCount ∧
      (s'.nodes p).running = (s.nodes p).running ∧
      (s'.nodes p).acceptedFrom = (s.nodes p).acceptedFrom ∧
      (s'.nodes p).accepted = (s.nodes p).accepted)
    (hD : s'.dataInFlight = s.dataInFlight) : Balance d s' := by
  refine ⟨fun p n => ?_, fun n => ?_, hD ▸ hb.source_lt⟩
  · simpa only [(hn p).1, (hn p).2.1, (hn n).2.2.1, ClusterState.inflight, hD] using hb.account p n
  · simpa only [(hn n).2.2.1, (hn n).2.2.2] using hb.accepted_eq n

/-- node `q` の task の一歩で、受理した数を変えないもの。送り手 `q` の欄だけを確かめればよい。 -/
theorem Balance.setNode (hb : Balance d s) {q : Nat} {x : DistNode} {D : List DataMessage}
    (hfrom : x.acceptedFrom = (s.nodes q).acceptedFrom) (hacc : x.accepted = (s.nodes q).accepted)
    (hD : ∀ p n, p ≠ q → D.countP (fun m => m.source = p ∧ m.target = n) = s.inflight p n)
    (hsrc : ∀ m ∈ D, m.source < d.totalNodes)
    (hq : ∀ n, x.nodeCount n + pendingCounts x.running n = (s.nodes n).acceptedFrom q +
      D.countP (fun m => m.source = q ∧ m.target = n) + pendingSends x.running n) :
    Balance d { s.setNode q x with dataInFlight := D } := by
  have hnode : ∀ n, (if n = q then x else s.nodes n).acceptedFrom = (s.nodes n).acceptedFrom :=
    fun n => by split <;> simp_all
  refine ⟨fun p n => ?_, fun n => ?_, hsrc⟩
  · simp only [setNode_nodes, hnode, ClusterState.inflight]
    by_cases hpq : p = q
    · subst hpq
      simpa using hq n
    · rw [hD p n hpq]
      simpa [hpq] using hb.account p n
  · simp only [setNode_nodes]
    split
    · subst n
      rw [hacc, hfrom]
      exact hb.accepted_eq _
    · exact hb.accepted_eq n

/-- task の action 列を一つ置き換えたときの数。 -/
theorem pending_replace {running pre post : List (List DistributeAction)}
    {l : List DistributeAction} (h : running = pre ++ l :: post) (l' : List DistributeAction)
    (n : Nat) :
    pendingCounts (pre ++ l' :: post) n + l.countP (·.countsFor n) =
      pendingCounts running n + l'.countP (·.countsFor n) ∧
    pendingSends (pre ++ l' :: post) n + l.countP (·.sendsTo n) =
      pendingSends running n + l'.countP (·.sendsTo n) := by
  subst h
  constructor <;> simp only [pendingCounts, pendingSends, List.map_append, List.map_cons,
    List.sum_append, List.sum_cons] <;> omega

/-- 数と task と受理した数を変えない node `q` の一歩（`run()` の段階と届いた count だけが変わる）。 -/
theorem Balance.setNode_frame (hb : Balance d s) {q : Nat} {x : DistNode}
    (hnodes : s'.nodes = Function.update s.nodes q x) (hD : s'.dataInFlight = s.dataInFlight)
    (hx : x.nodeCount = (s.nodes q).nodeCount ∧ x.running = (s.nodes q).running ∧
      x.acceptedFrom = (s.nodes q).acceptedFrom ∧ x.accepted = (s.nodes q).accepted) :
    Balance d s' := by
  refine hb.frame (fun p => ?_) hD
  rw [hnodes, Function.update_apply]
  split
  · subst p
    exact hx
  · exact ⟨rfl, rfl, rfl, rfl⟩

/-- node `q` の output cache が node `r` からの batch を一つ受理しても、受理した数の内訳は合う。 -/
theorem Balance.accepted_eq_accept (hb : Balance d s) {q r : Nat} (hr : r < d.totalNodes)
    {x : DistNode} (hacc : x.accepted = (s.nodes q).accepted + 1)
    (hfrom : x.acceptedFrom = bump (s.nodes q).acceptedFrom r) (n : Nat) :
    (if n = q then x else s.nodes n).accepted =
      ∑ p ∈ Finset.range d.totalNodes, (if n = q then x else s.nodes n).acceptedFrom p := by
  split
  · subst n
    rw [hacc, hfrom, sum_bump hr, hb.accepted_eq]
  · exact hb.accepted_eq n

theorem Balance.step (hb : Balance d s) (hstep : ClusterStep d s s') : Balance d s' := by
  cases hstep with
  | @startTask q pre post b hp h =>
    refine hb.setNode rfl rfl (fun _ _ _ => rfl) hb.source_lt fun n => ?_
    have hbal := balanced_taskActions d q (s.nodes q).emptyPartSet b n
    have := hb.account q n
    simp only [Balanced] at hbal
    simp only [pendingCounts, pendingSends, ClusterState.inflight, List.map_append,
      List.sum_append, List.map_cons, List.map_nil, List.sum_cons, List.sum_nil] at this ⊢
    omega
  | @addAccepted q pre post t allowEmpty rest hp h ha =>
    refine ⟨fun p n => ?_, fun n => ?_, hb.source_lt⟩
    · have := hb.account p n
      have hr := pending_replace h (.incrementNodeCount q :: rest) n
      simp only [List.countP_cons, DistributeAction.countsFor_incrementNodeCount,
        DistributeAction.sendsTo_incrementNodeCount, DistributeAction.countsFor_addToCache,
        DistributeAction.sendsTo_addToCache] at hr
      simp only [setNode_nodes, ClusterState.inflight] at this ⊢
      by_cases hpq : p = q
      · subst hpq
        by_cases hnp : n = p
        · subst hnp
          simp only [Bool.decide_and, Bool.false_eq_true, ↓reduceIte, beq_self_eq_true, bump_apply,
            setNode_dataInFlight] at this hr ⊢
          omega
        · simp only [Bool.decide_and, Bool.false_eq_true, ↓reduceIte, beq_iff_eq, Ne.symm hnp, hnp,
            setNode_dataInFlight] at this hr ⊢
          omega
      · by_cases hnq : n = q
        · subst hnq
          simp only [Bool.decide_and, hpq, ↓reduceIte, bump_apply, setNode_dataInFlight] at this ⊢
          omega
        · simp only [Bool.decide_and, hpq, ↓reduceIte, hnq, setNode_dataInFlight] at this ⊢
          omega
    · simp only [setNode_nodes]
      exact hb.accepted_eq_accept hp rfl rfl n
  | @addRejected q pre post t allowEmpty rest hp h ha =>
    refine hb.setNode rfl rfl (fun _ _ _ => rfl) hb.source_lt fun n => ?_
    have := hb.account q n
    have hr := pending_replace h rest n
    simp [ClusterState.inflight, List.countP_cons] at this hr ⊢
    omega
  | @increment q r pre post rest hp h =>
    refine hb.setNode rfl rfl (fun _ _ _ => rfl) hb.source_lt fun n => ?_
    have := hb.account q n
    have hr := pending_replace h rest n
    simp [ClusterState.inflight, List.countP_cons] at this hr ⊢
    split_ifs at * <;> omega
  | @transmit q r pre post t rest hp h =>
    refine hb.setNode rfl rfl (fun p n hpq => ?_) (fun m hm => ?_) fun n => ?_
    · simp [ClusterState.inflight, List.countP_append, Ne.symm hpq]
    · rcases List.mem_append.mp hm with hm | hm
      · exact hb.source_lt m hm
      · rw [List.mem_singleton.mp hm]
        exact hp
    · have := hb.account q n
      have hr := pending_replace h rest n
      simp [ClusterState.inflight, List.countP_cons, List.countP_append] at this hr ⊢
      split_ifs at * <;> omega
  | @setEmptyPart q pre post rest hp h =>
    refine hb.setNode rfl rfl (fun _ _ _ => rfl) hb.source_lt fun n => ?_
    have := hb.account q n
    have hr := pending_replace h rest n
    simp [ClusterState.inflight, List.countP_cons] at this hr ⊢
    omega
  | @finishTask q pre post hp h =>
    refine hb.setNode rfl rfl (fun _ _ _ => rfl) hb.source_lt fun n => ?_
    have := hb.account q n
    simp [ClusterState.inflight, pendingCounts, pendingSends, h] at this ⊢
    omega
  | @deliverData pre post m h =>
    have hsrc := hb.source_lt m (h ▸ List.mem_append_right pre (List.mem_cons_self m post))
    refine ⟨fun p n => ?_, fun n => ?_, fun m' hm' => hb.source_lt m' ?_⟩
    · have := hb.account p n
      rw [setNode_nodes_field DistNode.nodeCount ?_ p, setNode_nodes_field DistNode.running ?_ p]
      rotate_left
      · rfl
      · rfl
      simp only [setNode_nodes, ClusterState.inflight, h, List.countP_append,
        List.countP_cons] at this ⊢
      by_cases hnt : n = m.target
      · subst hnt
        by_cases hps : p = m.source
        · subst hps
          simp only [Bool.decide_and, and_self, decide_True, ↓reduceIte, bump_apply,
            setNode_dataInFlight, List.countP_append] at this ⊢
          omega
        · simp only [Bool.decide_and, Ne.symm hps, and_true, decide_False, Bool.false_eq_true,
            ↓reduceIte, bump_apply, hps, setNode_dataInFlight, List.countP_append] at this ⊢
          omega
      · simp only [Bool.decide_and, Ne.symm hnt, and_false, decide_False, Bool.false_eq_true,
          ↓reduceIte, hnt, setNode_dataInFlight, List.countP_append] at this ⊢
        omega
    · simp only [setNode_nodes]
      exact hb.accepted_eq_accept hsrc rfl rfl n
    · rw [h]
      rcases List.mem_append.mp hm' with hm' | hm'
      · exact List.mem_append_left _ hm'
      · exact List.mem_append_right _ (List.mem_cons_of_mem m hm')
  | sendCounts => exact hb.setNode_frame rfl rfl ⟨rfl, rfl, rfl, rfl⟩
  | deliverCount => exact hb.setNode_frame rfl rfl ⟨rfl, rfl, rfl, rfl⟩
  | getTotal => exact hb.setNode_frame rfl rfl ⟨rfl, rfl, rfl, rfl⟩
  | release => exact hb.setNode_frame rfl rfl ⟨rfl, rfl, rfl, rfl⟩

theorem ClusterReachable.balance {batches : Nat → List BlazingTable}
    (hs : ClusterReachable d batches s) : Balance d s := by
  induction hs with
  | refl => exact balance_init batches
  | tail _ hstep ih => exact ih.step hstep

/-! ## barrier を抜けた node -/

/-- barrier を抜けた node は task を持たず、count message と届いた count はその node の
`node_count` の値。合計を作った node は、全部の node が barrier を抜けた後にその和を作った。 -/
structure Settled (d : DistributeSetup) (s : ClusterState) : Prop where
  idle : ∀ p, (s.nodes p).phase ≠ .working → (s.nodes p).waiting = [] ∧ (s.nodes p).running = []
  countsTrue : ∀ m ∈ s.countsInFlight,
    m.count = (s.nodes m.source).nodeCount m.target ∧ (s.nodes m.source).phase ≠ .working
  reportedTrue : ∀ n r k, (s.nodes n).reported r = some k →
    k = (s.nodes r).nodeCount n ∧ (s.nodes r).phase ≠ .working
  total : ∀ n T, (s.nodes n).phase.totalCount = some T → n < d.totalNodes ∧
    T = ∑ p ∈ Finset.range d.totalNodes, (s.nodes p).nodeCount n ∧
    ∀ p < d.totalNodes, (s.nodes p).phase ≠ .working

theorem settled_init (batches : Nat → List BlazingTable) : Settled d (ClusterState.init batches) :=
  ⟨fun _ h => absurd rfl h, fun _ h => (nomatch h), fun _ _ _ h => (nomatch h),
    fun _ _ h => (nomatch h)⟩

theorem Settled.working_of_running (hs : Settled d s) {q : Nat}
    {pre post : List (List DistributeAction)} {l : List DistributeAction}
    (h : (s.nodes q).running = pre ++ l :: post) : (s.nodes q).phase = .working := by
  by_contra hne
  simp [(hs.idle q hne).2] at h

theorem Settled.working_of_waiting (hs : Settled d s) {q : Nat} {pre post : List BlazingTable}
    {b : BlazingTable} (h : (s.nodes q).waiting = pre ++ b :: post) :
    (s.nodes q).phase = .working := by
  by_contra hne
  simp [(hs.idle q hne).1] at h

/-- barrier の前の node `q` の task の一歩。段階と届いた count は変わらない。 -/
theorem Settled.setWorking (hs : Settled d s) {q : Nat} {x : DistNode} {D : List DataMessage}
    (hq : q < d.totalNodes) (hw : (s.nodes q).phase = .working) (hx : x.phase = (s.nodes q).phase)
    (hrep : x.reported = (s.nodes q).reported) :
    Settled d { s.setNode q x with dataInFlight := D } := by
  have hphase : ∀ p, (if p = q then x else s.nodes p).phase = (s.nodes p).phase :=
    fun p => by split <;> simp_all
  have hne : ∀ p, (s.nodes p).phase ≠ .working → p ≠ q := fun p h hpq => h (hpq ▸ hw)
  refine ⟨fun p hp => ?_, fun m hm => ?_, fun n r k hk => ?_, fun n T hT => ?_⟩
  · simp only [setNode_nodes, hphase] at hp ⊢
    rw [if_neg (hne p hp)]
    exact hs.idle p hp
  · obtain ⟨hc, hph⟩ := hs.countsTrue m hm
    simp only [setNode_nodes, if_neg (hne _ hph)]
    exact ⟨hc, hph⟩
  · have hk' : (s.nodes n).reported r = some k := by
      simp only [setNode_nodes] at hk
      split at hk <;> simp_all
    obtain ⟨hk, hph⟩ := hs.reportedTrue n r k hk'
    simp only [setNode_nodes, if_neg (hne _ hph)]
    exact ⟨hk, hph⟩
  · simp only [setNode_nodes, hphase] at hT
    exact absurd hw ((hs.total n T hT).2.2 q hq)

/-- node `q` の `run()` の一歩。段階を barrier の後の `ph` にし、count message `C` を送る。 -/
theorem Settled.setPhase (hs : Settled d s) {q : Nat} {ph : DistPhase} {C : List CountMessage}
    (hq : (s.nodes q).phase ≠ .working ∨
      (s.nodes q).waiting = [] ∧ (s.nodes q).running = [])
    (hph : ph ≠ .working)
    (hC : ∀ m ∈ C, m.source = q ∧ m.count = (s.nodes q).nodeCount m.target)
    (hT : ∀ T, ph.totalCount = some T → q < d.totalNodes ∧
      T = ∑ p ∈ Finset.range d.totalNodes, (s.nodes p).nodeCount q ∧
      ∀ p < d.totalNodes, p ≠ q → (s.nodes p).phase ≠ .working)
    (hnodes : s'.nodes = Function.update s.nodes q { s.nodes q with phase := ph })
    (hcounts : s'.countsInFlight = s.countsInFlight ++ C) : Settled d s' := by
  have hidle : (s.nodes q).waiting = [] ∧ (s.nodes q).running = [] := hq.elim (hs.idle q) id
  have hself : s'.nodes q = { s.nodes q with phase := ph } := by
    rw [hnodes, Function.update_same]
  have hother : ∀ p, p ≠ q → s'.nodes p = s.nodes p := fun p h => by
    rw [hnodes, Function.update_noteq h]
  have hcount : ∀ p, (s'.nodes p).nodeCount = (s.nodes p).nodeCount := fun p => by
    by_cases h : p = q
    · subst h
      rw [hself]
    · rw [hother p h]
  have hnw : ∀ p, ((s.nodes p).phase ≠ .working ∨ p = q) → (s'.nodes p).phase ≠ .working := by
    intro p hp
    by_cases h : p = q
    · subst h
      rw [hself]
      exact hph
    · rw [hother p h]
      exact hp.resolve_right h
  refine ⟨fun p hp => ?_, fun m hm => ?_, fun n r k hk => ?_, fun n T hT' => ?_⟩
  · by_cases h : p = q
    · subst h
      rw [hself]
      exact hidle
    · rw [hother p h] at hp ⊢
      exact hs.idle p hp
  · rw [hcount]
    rcases List.mem_append.mp (hcounts ▸ hm) with hm | hm
    · obtain ⟨hc, hph'⟩ := hs.countsTrue m hm
      exact ⟨hc, hnw _ (.inl hph')⟩
    · obtain ⟨hsrc, hc⟩ := hC m hm
      subst hsrc
      exact ⟨hc, hnw _ (.inr rfl)⟩
  · have hk' : (s.nodes n).reported r = some k := by
      by_cases h : n = q
      · subst h
        rwa [hself] at hk
      · rwa [hother n h] at hk
    obtain ⟨hk, hph'⟩ := hs.reportedTrue n r k hk'
    rw [hcount]
    exact ⟨hk, hnw _ (.inl hph')⟩
  · simp only [hcount]
    by_cases h : n = q
    · subst h
      rw [hself] at hT'
      obtain ⟨hq', hsum, hall⟩ := hT T hT'
      refine ⟨hq', hsum, fun p hp => hnw p ?_⟩
      by_cases hpn : p = n
      · exact .inr hpn
      · exact .inl (hall p hp hpn)
    · rw [hother n h] at hT'
      obtain ⟨hn, hsum, hall⟩ := hs.total n T hT'
      exact ⟨hn, hsum, fun p hp => hnw p (.inl (hall p hp))⟩

/-- message が届く一歩。task と段階と数は変わらず、新しく届いた count は count message の値。 -/
theorem Settled.deliver (hs : Settled d s)
    (hwait : ∀ p, (s'.nodes p).waiting = (s.nodes p).waiting)
    (hrun : ∀ p, (s'.nodes p).running = (s.nodes p).running)
    (hcount : ∀ p, (s'.nodes p).nodeCount = (s.nodes p).nodeCount)
    (hphase : ∀ p, (s'.nodes p).phase = (s.nodes p).phase)
    (hc : ∀ m ∈ s'.countsInFlight, m ∈ s.countsInFlight)
    (hrep : ∀ n r k, (s'.nodes n).reported r = some k →
      (s.nodes n).reported r = some k ∨ ⟨r, n, k⟩ ∈ s.countsInFlight) : Settled d s' := by
  refine ⟨fun p hp => ?_, fun m hm => ?_, fun n r k hk => ?_, fun n T hT => ?_⟩
  · rw [hphase] at hp
    rw [hwait, hrun]
    exact hs.idle p hp
  · rw [hcount, hphase]
    exact hs.countsTrue m (hc m hm)
  · rw [hcount, hphase]
    exact (hrep n r k hk).elim (hs.reportedTrue n r k) (hs.countsTrue _)
  · rw [hphase] at hT
    simp only [hcount, hphase]
    exact hs.total n T hT

/-- `get_total_partition_counts` の値は、全部の node の `node_count` の欄の和。 -/
theorem Settled.totalPartitionCounts_eq (hs : Settled d s) {q : Nat} (hq : q < d.totalNodes)
    (hrep : ∀ p < d.totalNodes, p ≠ q → ((s.nodes q).reported p).isSome) :
    totalPartitionCounts d.totalNodes q (s.nodes q) =
      ∑ p ∈ Finset.range d.totalNodes, (s.nodes p).nodeCount q := by
  have hpeer : ∀ p ∈ (Finset.range d.totalNodes).erase q,
      ((s.nodes q).reported p).getD 0 = (s.nodes p).nodeCount q := by
    intro p hp
    obtain ⟨hpq, hp⟩ := Finset.mem_erase.mp hp
    obtain ⟨k, hk⟩ := Option.isSome_iff_exists.mp (hrep p (Finset.mem_range.mp hp) hpq)
    rw [hk, (hs.reportedTrue q p k hk).1]
    rfl
  rw [totalPartitionCounts, Finset.sum_congr rfl hpeer]
  exact Finset.add_sum_erase _ (fun p => (s.nodes p).nodeCount q) (Finset.mem_range.mpr hq)

theorem Settled.step (hs : Settled d s) (hstep : ClusterStep d s s') : Settled d s' := by
  cases hstep with
  | startTask hp h => exact hs.setWorking hp (hs.working_of_waiting h) rfl rfl
  | addAccepted hp h _ => exact hs.setWorking hp (hs.working_of_running h) rfl rfl
  | addRejected hp h _ => exact hs.setWorking hp (hs.working_of_running h) rfl rfl
  | increment hp h => exact hs.setWorking hp (hs.working_of_running h) rfl rfl
  | transmit hp h => exact hs.setWorking hp (hs.working_of_running h) rfl rfl
  | setEmptyPart hp h => exact hs.setWorking hp (hs.working_of_running h) rfl rfl
  | finishTask hp h => exact hs.setWorking hp (hs.working_of_running h) rfl rfl
  | @deliverData pre post m h =>
    refine hs.deliver (fun p => ?_) (fun p => ?_) (fun p => ?_) (fun p => ?_) (fun _ hm => hm)
      fun n r k hk => .inl ?_
    all_goals simp only [setNode_nodes] at *
    any_goals (split <;> simp_all)
    split at hk <;> simp_all
  | @deliverCount pre post m h =>
    refine hs.deliver (fun p => ?_) (fun p => ?_) (fun p => ?_) (fun p => ?_) (fun m' hm' => ?_)
      fun n r k hk => ?_
    any_goals simp only [setNode_nodes]; split <;> simp_all
    · rw [h]
      rcases List.mem_append.mp hm' with hm' | hm'
      · exact List.mem_append_left _ hm'
      · exact List.mem_append_right _ (List.mem_cons_of_mem m hm')
    · simp only [setNode_nodes] at hk
      split at hk
      · subst n
        simp only [Function.update_apply] at hk
        split at hk
        · subst r
          cases hk
          exact .inr (h ▸ List.mem_append_right pre (List.mem_cons_self m post))
        · exact .inl hk
      · exact .inl hk
  | @sendCounts q hp hph hw hr =>
    refine hs.setPhase (.inr ⟨hw, hr⟩) (by simp) (fun m hm => ?_) (fun _ h => by cases h) rfl rfl
    obtain ⟨r, -, rfl⟩ := List.mem_map.mp hm
    exact ⟨rfl, rfl⟩
  | @getTotal q hp hph hrep =>
    refine hs.setPhase (C := []) (.inl (by simp [hph])) (by simp) (fun _ h => nomatch h)
      (fun T hT => ?_) rfl (List.append_nil _).symm
    cases hT
    refine ⟨hp, hs.totalPartitionCounts_eq hp hrep, fun p _ hpq => ?_⟩
    obtain ⟨k, hk⟩ := Option.isSome_iff_exists.mp (hrep p ‹_› hpq)
    exact (hs.reportedTrue q p k hk).2
  | @release q T hp hph hT =>
    have hq : (s.nodes q).phase.totalCount = some T := by simp [hph, DistPhase.totalCount]
    refine hs.setPhase (C := []) (.inl (by simp [hph])) (by simp) (fun _ h => nomatch h)
      (fun T' hT' => ?_) rfl (List.append_nil _).symm
    cases hT'
    obtain ⟨hq', hsum, hall⟩ := hs.total q T hq
    exact ⟨hq', hsum, fun p hp _ => hall p hp⟩

theorem ClusterReachable.settled {batches : Nat → List BlazingTable}
    (hs : ClusterReachable d batches s) : Settled d s := by
  induction hs with
  | refl => exact settled_init batches
  | tail _ hstep ih => exact ih.step hstep

/-! ## 合計を作った後 -/

/-- どの一歩も、output cache が受理した数を減らさない。 -/
theorem ClusterStep.accepted_le (hstep : ClusterStep d s s') (n : Nat) :
    (s.nodes n).accepted ≤ (s'.nodes n).accepted := by
  cases hstep <;> simp only [setNode_nodes] <;> split <;> subst_vars <;> simp

/-- 合計を作った node の合計は、以後変わらない。 -/
theorem ClusterStep.totalCount_eq (hstep : ClusterStep d s s') {n T : Nat}
    (hT : (s.nodes n).phase.totalCount = some T) : (s'.nodes n).phase.totalCount = some T := by
  cases hstep <;> simp only [setNode_nodes] <;> split <;> subst_vars <;> try exact hT
  all_goals simp_all [DistPhase.totalCount]

theorem accepted_le_of_run (h : Relation.ReflTransGen (ClusterStep d) s s') (n : Nat) :
    (s.nodes n).accepted ≤ (s'.nodes n).accepted := by
  induction h with
  | refl => exact le_rfl
  | tail _ hstep ih => exact ih.trans (hstep.accepted_le n)

theorem totalCount_eq_of_run (h : Relation.ReflTransGen (ClusterStep d) s s') {n T : Nat}
    (hT : (s.nodes n).phase.totalCount = some T) : (s'.nodes n).phase.totalCount = some T := by
  induction h with
  | refl => exact hT
  | tail _ hstep ih => exact hstep.totalCount_eq ih

/-- 合計は、受理した数と `n` へ向かって network にある data message の数の和。 -/
theorem total_eq_accepted_add_inflight (hb : Balance d s) (hset : Settled d s) {n T : Nat}
    (hT : (s.nodes n).phase.totalCount = some T) : T = (s.nodes n).accepted + s.inflightTo n := by
  obtain ⟨-, rfl, hall⟩ := hset.total n T hT
  have hsender : ∀ p ∈ Finset.range d.totalNodes,
      (s.nodes p).nodeCount n = (s.nodes n).acceptedFrom p + s.inflight p n := by
    intro p hp
    have := hb.account p n
    rw [(hset.idle p (hall p (Finset.mem_range.mp hp))).2] at this
    simpa [pendingCounts, pendingSends] using this
  rw [Finset.sum_congr rfl hsender, Finset.sum_add_distrib, ← hb.accepted_eq]
  simp only [ClusterState.inflight, inflightTo, sum_inflight hb.source_lt]

/-- node `n` の `get_total_partition_counts` と `wait_for_count` について成り立つこと。 -/
structure CountsAgree (d : DistributeSetup) (s : ClusterState) (n : Nat) : Prop where
  /-- 合計は、全部の node の `node_count` の `n` の欄（自分の数と、peer が数えた数）の和 -/
  total_eq_sum : ∀ T, (s.nodes n).phase.totalCount = some T →
    T = ∑ p ∈ Finset.range d.totalNodes, (s.nodes p).nodeCount n
  /-- 合計は、受理した数と `n` へ向かう data message の数の和 -/
  total_eq_accepted : ∀ T, (s.nodes n).phase.totalCount = some T →
    T = (s.nodes n).accepted + s.inflightTo n
  /-- 以後どう進んでも合計は変わらず、受理する数はそれを超えず、`n` へ向かう data message が
  無くなればそれに等しい -/
  later : ∀ T, (s.nodes n).phase.totalCount = some T →
    ∀ s', Relation.ReflTransGen (ClusterStep d) s s' →
      (s'.nodes n).phase.totalCount = some T ∧ (s'.nodes n).accepted ≤ T ∧
      (s'.inflightTo n = 0 → (s'.nodes n).accepted = T)
  /-- 合計を作る前にも、受理した数は後で作る合計を超えない -/
  earlier : ∀ s' T, Relation.ReflTransGen (ClusterStep d) s s' →
    (s'.nodes n).phase.totalCount = some T → (s.nodes n).accepted ≤ T
  /-- `wait_for_count(total)` を抜けられるのは、`n` へ向かう data message が無いときに限る -/
  release_iff : ∀ T, (s.nodes n).phase = .counted T →
    (T ≤ (s.nodes n).accepted ↔ s.inflightTo n = 0)
  /-- `wait_for_count(total)` で待つ node は、抜けるか、data message を一つ受け取って進める -/
  progress : ∀ T, (s.nodes n).phase = .counted T → ∃ s', ClusterStep d s s' ∧
    ((s'.nodes n).phase = .released T ∨
      (s'.nodes n).accepted = (s.nodes n).accepted + 1 ∧ s'.inflightTo n + 1 = s.inflightTo n)

/-- `wait_for_count` で待つ node には、抜ける一歩か、data message を一つ届ける一歩がある。 -/
theorem exists_step_of_counted (hb : Balance d s) (hset : Settled d s) {n T : Nat}
    (hph : (s.nodes n).phase = .counted T) : ∃ s', ClusterStep d s s' ∧
      ((s'.nodes n).phase = .released T ∨
        (s'.nodes n).accepted = (s.nodes n).accepted + 1 ∧ s'.inflightTo n + 1 = s.inflightTo n) := by
  have hT : (s.nodes n).phase.totalCount = some T := by simp [hph, DistPhase.totalCount]
  have htot := total_eq_accepted_add_inflight hb hset hT
  by_cases hdone : T ≤ (s.nodes n).accepted
  · exact ⟨_, .release (hset.total n T hT).1 hph hdone, .inl (by simp)⟩
  · obtain ⟨m, hm, hmn⟩ := List.countP_pos_iff.mp (show 0 < s.inflightTo n by
      unfold inflightTo at htot ⊢
      omega)
    obtain ⟨pre, post, hsplit⟩ := List.append_of_mem hm
    have hmn : m.target = n := of_decide_eq_true hmn
    subst hmn
    refine ⟨_, .deliverData hsplit, .inr ⟨by simp, ?_⟩⟩
    simp [inflightTo, hsplit, List.countP_append, List.countP_cons]
    omega

/--
**partition の数は、どの実行でもどの node でも一致する。**

`get_total_partition_counts` の合計は、全部の node が `n` に数えた partition の数の和で、
`n` の output cache がそれまでに受理した数と、`n` へ向かってまだ network にある data message の
数の和に等しい。受理する数は合計を超えず、data message が全部届けば合計に等しい。
したがって `wait_for_count(total_count)` は `n` へ向かう partition が全部届いたときに
ちょうど抜けられ、待っている間はいつも、抜けるか data message を受け取るかで進める。
-/
theorem partitionCounts_agree {batches : Nat → List BlazingTable}
    (hs : ClusterReachable d batches s) (n : Nat) : CountsAgree d s n where
  total_eq_sum T hT := (hs.settled.total n T hT).2.1
  total_eq_accepted T hT := total_eq_accepted_add_inflight hs.balance hs.settled hT
  later T hT s' hrun := by
    have hs' : ClusterReachable d batches s' := hs.trans hrun
    have hT' := totalCount_eq_of_run hrun hT
    have := total_eq_accepted_add_inflight hs'.balance hs'.settled hT'
    exact ⟨hT', by omega, by omega⟩
  earlier s' T hrun hT := by
    have hs' : ClusterReachable d batches s' := hs.trans hrun
    have := total_eq_accepted_add_inflight hs'.balance hs'.settled hT
    have := accepted_le_of_run hrun n
    omega
  release_iff T hph := by
    have := total_eq_accepted_add_inflight hs.balance hs.settled
      (show (s.nodes n).phase.totalCount = some T by simp [hph, DistPhase.totalCount])
    omega
  progress T hph := exists_step_of_counted hs.balance hs.settled hph

/-- 二つの node の `SELECT SUM(v) AS s`。master は node `0`。 -/
def scalarSetup : DistributeSetup := ⟨2, 0, fun _ => 0, ⟨[], [0], [.sum], ["s"], rfl, rfl⟩, fun _ => false⟩

/-- node `1` だけが一行の batch を持つ。 -/
def oneBatchOnNode1 (p : Nat) : List BlazingTable :=
  if p = 1 then [⟨["v"], [[some 10]], by simp⟩] else []

/-- node `1` が空の部分を自分に入れ、batch を master に送り、両方の node が数を送り合った後、
master が合計 `1` を作った状態。data message はまだ届いていないので、master は待つ。 -/
theorem partitionCounts_agree_scalar :
    ∃ s, ClusterReachable scalarSetup oneBatchOnNode1 s ∧ (s.nodes 0).phase = .counted 1 ∧
      (s.nodes 0).accepted = 0 ∧ CountsAgree scalarSetup s 0 := by
  have h₀ : ClusterReachable scalarSetup oneBatchOnNode1 (ClusterState.init oneBatchOnNode1) :=
    .refl
  have h₁ := h₀.tail (@ClusterStep.startTask _ _ 1 [] [] _ (by decide) rfl)
  have h₂ := h₁.tail (@ClusterStep.addAccepted _ _ 1 [] [] _ _ _ (by decide) rfl rfl)
  have h₃ := h₂.tail (@ClusterStep.increment _ _ 1 1 [] [] _ (by decide) rfl)
  have h₄ := h₃.tail (@ClusterStep.setEmptyPart _ _ 1 [] [] _ (by decide) rfl)
  have h₅ := h₄.tail (@ClusterStep.increment _ _ 1 0 [] [] _ (by decide) rfl)
  have h₆ := h₅.tail (@ClusterStep.transmit _ _ 1 0 [] [] _ _ (by decide) rfl)
  have h₇ := h₆.tail (@ClusterStep.finishTask _ _ 1 [] [] (by decide) rfl)
  have h₈ := h₇.tail (@ClusterStep.sendCounts _ _ 1 (by decide) rfl rfl rfl)
  have h₉ := h₈.tail (@ClusterStep.sendCounts _ _ 0 (by decide) rfl rfl rfl)
  have h₁₀ := h₉.tail (@ClusterStep.deliverCount _ _ [] _ _ rfl)
  have h₁₁ := h₁₀.tail (@ClusterStep.getTotal _ _ 0 (by decide) rfl (by decide))
  exact ⟨_, h₁₁, by decide, rfl, partitionCounts_agree h₁₁ 0⟩

end BlazingSql
