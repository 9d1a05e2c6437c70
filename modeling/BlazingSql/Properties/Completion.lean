import BlazingSql.Properties.PartitionCounts

/-!
# partition の数の交換は deadlock しない

`partitionCounts_agree` は、`wait_for_count` で待つ node がいつも一歩進めることを言う。
ここではクラスタ全体について、到達できるどの状態からも、全部の node の Distribute kernel が
`wait_for_count(total_count)` を抜けた状態に行けることを示す。そのとき network は空で、
どの node の output cache もちょうど合計の数の batch を受理している。

次の六段の実行を作る。

1. node を一つずつ、task を全部終わらせる（`exists_drain`）
2. barrier の前の node が `send_total_partition_counts` を呼ぶ
3. count message を全部届ける
4. 各 node が `get_total_partition_counts` を終える。barrier を抜けた peer の数は、届いたか
   network にある（`CountsDelivered`）ので、3. の後には全部届いている
5. data message を全部届ける
6. 各 node が `wait_for_count` を抜ける。data message が無いので合計は受理した数に等しい

* `exists_all_released` — 到達できるどの状態からも、全部の node が `wait_for_count` を
  抜け、network が空になった状態に行ける
* `exists_released_of_init` — 初めの状態から、全部の node が `wait_for_count` を抜けた状態に
  行ける。ほかの module の実行の例はこれで作る
-/

namespace BlazingSql

open ClusterState

variable {d : DistributeSetup} {s s₁ s₂ : ClusterState} {p : Nat}

/-! ## 一つの node の task -/

/-- `s` から `s'` までに変わったのは、node `p` の段階でない部分と data message だけ。 -/
structure OnlyAt (p : Nat) (s s' : ClusterState) : Prop where
  phase : (s'.nodes p).phase = (s.nodes p).phase
  others : ∀ q, q ≠ p → s'.nodes q = s.nodes q
  counts : s'.countsInFlight = s.countsInFlight

theorem OnlyAt.refl : OnlyAt p s s := ⟨rfl, fun _ _ => rfl, rfl⟩

theorem OnlyAt.trans (h₁ : OnlyAt p s s₁) (h₂ : OnlyAt p s₁ s₂) : OnlyAt p s s₂ :=
  ⟨h₂.phase.trans h₁.phase, fun q hq => (h₂.others q hq).trans (h₁.others q hq),
    h₂.counts.trans h₁.counts⟩

theorem onlyAt_setNode {x : DistNode} (hx : x.phase = (s.nodes p).phase) :
    OnlyAt p s (s.setNode p x) :=
  ⟨by simpa using hx, fun q hq => by simp [hq], rfl⟩

/-- data message を送っても同じ。 -/
theorem OnlyAt.withData {s' : ClusterState} (h : OnlyAt p s s') (D : List DataMessage) :
    OnlyAt p s { s' with dataInFlight := D } :=
  ⟨h.phase, h.others, h.counts⟩

/-- 先頭の task の先頭の action を起こせる。受理された `addToCache` は、続く
`increment_node_count(self)` まで進める。 -/
theorem exists_action (hp : p < d.totalNodes) {a : DistributeAction}
    {rest : List DistributeAction} {post : List (List DistributeAction)}
    (h : (s.nodes p).running = (a :: rest) :: post) :
    ∃ s', Relation.ReflTransGen (ClusterStep d) s s' ∧ (s'.nodes p).running = rest :: post ∧
      (s'.nodes p).waiting = (s.nodes p).waiting ∧ OnlyAt p s s' := by
  cases a with
  | addToCache t allowEmpty =>
    cases ha : accepts (d.dropEmpty p) t allowEmpty
    · exact ⟨_, .single (@ClusterStep.addRejected d s p [] post t allowEmpty rest hp h ha),
        by simp, by simp, onlyAt_setNode (by rfl)⟩
    · have h₁ := @ClusterStep.addAccepted d s p [] post t allowEmpty rest hp h ha
      exact ⟨_, .tail (.single h₁) (@ClusterStep.increment d _ p p [] post rest hp (by simp)),
        by simp, by simp, (onlyAt_setNode (by rfl)).trans (onlyAt_setNode (by rfl))⟩
  | incrementNodeCount q =>
    exact ⟨_, .single (@ClusterStep.increment d s p q [] post rest hp h), by simp, by simp,
      onlyAt_setNode (by rfl)⟩
  | transmit t q =>
    exact ⟨_, .single (@ClusterStep.transmit d s p q [] post t rest hp h), by simp, by simp,
      (onlyAt_setNode (by rfl)).withData _⟩
  | setEmptyPart =>
    exact ⟨_, .single (@ClusterStep.setEmptyPart d s p [] post rest hp h), by simp, by simp,
      onlyAt_setNode (by rfl)⟩

/-- 先頭の task を最後まで実行し、task の集合から除ける。 -/
theorem exists_finish_task (hp : p < d.totalNodes) :
    ∀ (acts : List DistributeAction) {s : ClusterState} {post : List (List DistributeAction)},
      (s.nodes p).running = acts :: post →
      ∃ s', Relation.ReflTransGen (ClusterStep d) s s' ∧ (s'.nodes p).running = post ∧
        (s'.nodes p).waiting = (s.nodes p).waiting ∧ OnlyAt p s s'
  | [], s, post, h =>
    ⟨_, .single (@ClusterStep.finishTask d s p [] post hp h), by simp, by simp,
      onlyAt_setNode (by rfl)⟩
  | _ :: rest, _, _, h => by
    obtain ⟨s₁, h₁, hr₁, hw₁, ho₁⟩ := exists_action hp h
    obtain ⟨s₂, h₂, hr₂, hw₂, ho₂⟩ := exists_finish_task hp rest hr₁
    exact ⟨s₂, h₁.trans h₂, hr₂, hw₂.trans hw₁, ho₁.trans ho₂⟩

/-- worker が待っている先頭の batch の task を始められる。 -/
theorem exists_start (hp : p < d.totalNodes) {b : BlazingTable} {batches : List BlazingTable}
    (h : (s.nodes p).waiting = b :: batches) :
    ∃ s', ClusterStep d s s' ∧ (s'.nodes p).waiting = batches ∧ OnlyAt p s s' :=
  ⟨_, @ClusterStep.startTask d s p [] batches b hp h, by simp, onlyAt_setNode (by rfl)⟩

/-- 実行中の task を全部終わらせられる。 -/
theorem exists_finish_running (hp : p < d.totalNodes) :
    ∀ (tasks : List (List DistributeAction)) {s : ClusterState}, (s.nodes p).running = tasks →
      ∃ s', Relation.ReflTransGen (ClusterStep d) s s' ∧ (s'.nodes p).running = [] ∧
        (s'.nodes p).waiting = (s.nodes p).waiting ∧ OnlyAt p s s'
  | [], s, h => ⟨s, .refl, h, rfl, .refl⟩
  | acts :: tasks, _, h => by
    obtain ⟨s₁, h₁, hr₁, hw₁, ho₁⟩ := exists_finish_task hp acts h
    obtain ⟨s₂, h₂, hr₂, hw₂, ho₂⟩ := exists_finish_running hp tasks hr₁
    exact ⟨s₂, h₁.trans h₂, hr₂, hw₂.trans hw₁, ho₁.trans ho₂⟩

/-- **node `p` の batch の task を全部始めて、全部終わらせられる。** -/
theorem exists_drain (hp : p < d.totalNodes) :
    ∀ (batches : List BlazingTable) {s : ClusterState}, (s.nodes p).waiting = batches →
      ∃ s', Relation.ReflTransGen (ClusterStep d) s s' ∧ (s'.nodes p).waiting = [] ∧
        (s'.nodes p).running = [] ∧ OnlyAt p s s'
  | [], s, h => by
    obtain ⟨s₁, h₁, hr₁, hw₁, ho₁⟩ := exists_finish_running hp _ (s := s) rfl
    exact ⟨s₁, h₁, hw₁.trans h, hr₁, ho₁⟩
  | b :: batches, s, h => by
    obtain ⟨s₁, h₁, hr₁, hw₁, ho₁⟩ := exists_finish_running hp _ (s := s) rfl
    obtain ⟨s₂, h₂, hw₂, ho₂⟩ := exists_start hp (hw₁.trans h)
    obtain ⟨s₃, h₃, hw₃, hr₃, ho₃⟩ := exists_drain hp batches hw₂
    exact ⟨s₃, h₁.trans (.head h₂ h₃), hw₃, hr₃, (ho₁.trans ho₂).trans ho₃⟩

/-! ## node を順に進める -/

/-- node を一つずつ、ほかの node の `Q` を壊さずに `Q` にできれば、全部の node を
`Q` にできる。 -/
theorem exists_each_node (N : Nat) (P : ClusterState → Prop) (Q : ClusterState → Nat → Prop)
    (hstep : ∀ s k, k < N → P s → ∃ s', Relation.ReflTransGen (ClusterStep d) s s' ∧ P s' ∧
      Q s' k ∧ ∀ q, q ≠ k → Q s q → Q s' q)
    (hs : P s) :
    ∃ s', Relation.ReflTransGen (ClusterStep d) s s' ∧ P s' ∧ ∀ q < N, Q s' q := by
  suffices ∀ k ≤ N, ∃ s', Relation.ReflTransGen (ClusterStep d) s s' ∧ P s' ∧ ∀ q < k, Q s' q
    from this N le_rfl
  intro k hk
  induction k with
  | zero => exact ⟨s, .refl, hs, fun _ h => absurd h (Nat.not_lt_zero _)⟩
  | succ k ih =>
    obtain ⟨s₁, h₁, hP₁, hQ₁⟩ := ih (Nat.le_of_succ_le hk)
    obtain ⟨s₂, h₂, hP₂, hk₂, hkeep⟩ := hstep s₁ k hk hP₁
    refine ⟨s₂, h₁.trans h₂, hP₂, fun q hq => ?_⟩
    rcases Nat.lt_succ_iff_lt_or_eq.mp hq with hq | rfl
    · exact hkeep q (Nat.ne_of_lt hq) (hQ₁ q hq)
    · exact hk₂

/-! ## count message は失われない -/

/-- barrier を抜けた node `q` の、node `p` 宛ての count は、届いたか network にある。 -/
def CountsDelivered (d : DistributeSetup) (s : ClusterState) : Prop :=
  ∀ p q, p < d.totalNodes → q ≠ p → (s.nodes q).phase ≠ .working →
    ((s.nodes p).reported q).isSome ∨ ∃ m ∈ s.countsInFlight, m.source = q ∧ m.target = p

theorem countsDelivered_init (batches : Nat → List BlazingTable) :
    CountsDelivered d (ClusterState.init batches) :=
  fun _ _ _ _ h => absurd rfl h

/-- 段階と届いた count と count message を変えない一歩。 -/
theorem CountsDelivered.frame (h : CountsDelivered d s)
    (hph : ∀ q, (s'.nodes q).phase = (s.nodes q).phase)
    (hrep : ∀ q, (s'.nodes q).reported = (s.nodes q).reported)
    (hc : s'.countsInFlight = s.countsInFlight) : CountsDelivered d s' := by
  intro p q hp hqp hq
  rw [hph] at hq
  rw [hrep, hc]
  exact h p q hp hqp hq

/-- barrier を抜けた node の段階だけを変える一歩。 -/
theorem CountsDelivered.setPhase (h : CountsDelivered d s) {r : Nat} {ph : DistPhase}
    (hr : (s.nodes r).phase ≠ .working) :
    CountsDelivered d (s.setNode r { s.nodes r with phase := ph }) := by
  intro p q hp hqp hq
  have hq' : (s.nodes q).phase ≠ .working := by
    by_cases hqr : q = r
    · rw [hqr]
      exact hr
    · simpa [hqr] using hq
  rw [setNode_nodes_field DistNode.reported (x := { s.nodes r with phase := ph }) rfl p]
  exact h p q hp hqp hq'

theorem CountsDelivered.step (h : CountsDelivered d s) (hstep : ClusterStep d s s') :
    CountsDelivered d s' := by
  cases hstep with
  | startTask =>
    exact h.frame (setNode_nodes_field _ (by rfl)) (setNode_nodes_field _ (by rfl)) rfl
  | addAccepted =>
    exact h.frame (setNode_nodes_field _ (by rfl)) (setNode_nodes_field _ (by rfl)) rfl
  | addRejected =>
    exact h.frame (setNode_nodes_field _ (by rfl)) (setNode_nodes_field _ (by rfl)) rfl
  | increment =>
    exact h.frame (setNode_nodes_field _ (by rfl)) (setNode_nodes_field _ (by rfl)) rfl
  | transmit =>
    exact h.frame (setNode_nodes_field _ (by rfl)) (setNode_nodes_field _ (by rfl)) rfl
  | setEmptyPart =>
    exact h.frame (setNode_nodes_field _ (by rfl)) (setNode_nodes_field _ (by rfl)) rfl
  | finishTask =>
    exact h.frame (setNode_nodes_field _ (by rfl)) (setNode_nodes_field _ (by rfl)) rfl
  | deliverData =>
    exact h.frame (setNode_nodes_field _ (by rfl)) (setNode_nodes_field _ (by rfl)) rfl
  | @sendCounts r hp hph hw hr =>
    intro p q hpN hqp hq
    rw [setNode_nodes_field DistNode.reported (x := { s.nodes r with phase := .countsSent }) rfl p]
    by_cases hqr : q = r
    · subst hqr
      refine .inr ⟨⟨q, p, (s.nodes q).nodeCount p⟩, List.mem_append_right _ ?_, rfl, rfl⟩
      exact List.mem_map.mpr
        ⟨p, List.mem_filter.mpr ⟨List.mem_range.mpr hpN, by simpa using Ne.symm hqp⟩, rfl⟩
    · rcases h p q hpN hqp (by simpa [hqr] using hq) with h' | ⟨m, hm, hsrc, htgt⟩
      · exact .inl h'
      · exact .inr ⟨m, List.mem_append_left _ hm, hsrc, htgt⟩
  | @deliverCount pre post m hm =>
    intro p q hpN hqp hq
    have hq' : (s.nodes q).phase ≠ .working := by
      rwa [setNode_nodes_field DistNode.phase (by rfl) q] at hq
    rcases h p q hpN hqp hq' with h' | ⟨m', hm', hsrc, htgt⟩
    · left
      simp only [setNode_nodes]
      split_ifs with hpt
      · rw [← hpt]
        simp only [Function.update_apply]
        split
        · rfl
        · exact h'
      · exact h'
    · rw [hm] at hm'
      rcases List.mem_append.mp hm' with hm' | hm'
      · exact .inr ⟨m', List.mem_append_left _ hm', hsrc, htgt⟩
      · rcases List.mem_cons.mp hm' with rfl | hm'
        · subst hsrc htgt
          left
          simp
        · exact .inr ⟨m', List.mem_append_right _ hm', hsrc, htgt⟩
  | getTotal hp hph => exact h.setPhase (by simp [hph])
  | release hp hph => exact h.setPhase (by simp [hph])

theorem ClusterReachable.countsDelivered {batches : Nat → List BlazingTable}
    (hs : ClusterReachable d batches s) : CountsDelivered d s := by
  induction hs with
  | refl => exact countsDelivered_init batches
  | tail _ hstep ih => exact ih.step hstep

/-! ## message を一つ届ける -/

/-- 先頭の count message を届けられる。段階と task は変わらない。 -/
theorem exists_deliverCount {m : CountMessage} {rest : List CountMessage}
    (h : s.countsInFlight = m :: rest) :
    ∃ s', ClusterStep d s s' ∧ s'.countsInFlight = rest ∧ s'.dataInFlight = s.dataInFlight ∧
      ∀ q, (s'.nodes q).phase = (s.nodes q).phase :=
  ⟨_, @ClusterStep.deliverCount d s [] rest m h, rfl, rfl, setNode_nodes_field _ (by rfl)⟩

/-- 先頭の data message を届けられる。段階は変わらない。 -/
theorem exists_deliverData {m : DataMessage} {rest : List DataMessage}
    (h : s.dataInFlight = m :: rest) :
    ∃ s', ClusterStep d s s' ∧ s'.dataInFlight = rest ∧ s'.countsInFlight = s.countsInFlight ∧
      ∀ q, (s'.nodes q).phase = (s.nodes q).phase :=
  ⟨_, @ClusterStep.deliverData d s [] rest m h, rfl, rfl, setNode_nodes_field _ (by rfl)⟩

/-! ## 六段の実行 -/

section Schedule

variable {batches : Nat → List BlazingTable}

/-- 1. node を一つずつ、task を全部終わらせる。 -/
theorem exists_all_drained (hs : ClusterReachable d batches s) :
    ∃ s', Relation.ReflTransGen (ClusterStep d) s s' ∧ ClusterReachable d batches s' ∧
      ∀ q < d.totalNodes, (s'.nodes q).waiting = [] ∧ (s'.nodes q).running = [] := by
  refine exists_each_node d.totalNodes (ClusterReachable d batches)
    (fun s q => (s.nodes q).waiting = [] ∧ (s.nodes q).running = []) (fun s₀ k hk hs₀ => ?_) hs
  obtain ⟨s₁, h₁, hw, hr, ho⟩ := exists_drain hk _ rfl
  exact ⟨s₁, h₁, hs₀.trans h₁, ⟨hw, hr⟩, fun q hq hQ => by simp only [ho.others q hq]; exact hQ⟩

/-- 2. barrier の前の node が `send_total_partition_counts` を呼ぶ。 -/
theorem exists_all_sent (hs : ClusterReachable d batches s)
    (hidle : ∀ q < d.totalNodes, (s.nodes q).waiting = [] ∧ (s.nodes q).running = []) :
    ∃ s', Relation.ReflTransGen (ClusterStep d) s s' ∧ ClusterReachable d batches s' ∧
      ∀ q < d.totalNodes, (s'.nodes q).phase ≠ .working := by
  refine (exists_each_node d.totalNodes
    (fun s => ClusterReachable d batches s ∧
      ∀ q < d.totalNodes, (s.nodes q).waiting = [] ∧ (s.nodes q).running = [])
    (fun s q => (s.nodes q).phase ≠ .working) ?_ ⟨hs, hidle⟩).imp
    fun _ ⟨h, ⟨hs', _⟩, hq⟩ => ⟨h, hs', hq⟩
  rintro s₀ k hk ⟨hs₀, hidle₀⟩
  by_cases hw : (s₀.nodes k).phase = .working
  · have hstep := ClusterStep.sendCounts hk hw (hidle₀ k hk).1 (hidle₀ k hk).2
    refine ⟨_, .single hstep, ⟨hs₀.tail hstep, fun q hq => ?_⟩, by simp,
      fun q hqk hQ => by simpa [hqk] using hQ⟩
    rw [setNode_nodes_field DistNode.waiting (by rfl) q,
      setNode_nodes_field DistNode.running (by rfl) q]
    exact hidle₀ q hq
  · exact ⟨s₀, .refl, ⟨hs₀, hidle₀⟩, hw, fun _ _ h => h⟩

/-- 3. count message を全部届ける。 -/
theorem exists_counts_delivered (hs : ClusterReachable d batches s)
    (hph : ∀ q < d.totalNodes, (s.nodes q).phase ≠ .working) :
    ∃ s', Relation.ReflTransGen (ClusterStep d) s s' ∧ ClusterReachable d batches s' ∧
      s'.countsInFlight = [] ∧ ∀ q < d.totalNodes, (s'.nodes q).phase ≠ .working := by
  generalize hC : s.countsInFlight = C
  induction C generalizing s with
  | nil => exact ⟨s, .refl, hs, hC, hph⟩
  | cons m rest ih =>
    obtain ⟨s₁, h₁, hc₁, -, hn₁⟩ := exists_deliverCount hC
    obtain ⟨s₂, h₂, hs₂, hc₂, hph₂⟩ :=
      ih (hs.tail h₁) (fun q hq => by rw [hn₁ q]; exact hph q hq) hc₁
    exact ⟨s₂, .head h₁ h₂, hs₂, hc₂, hph₂⟩

/-- 4. 各 node が `get_total_partition_counts` を終える。peer の count は全部届いている。 -/
theorem exists_all_counted (hs : ClusterReachable d batches s) (hc : s.countsInFlight = [])
    (hph : ∀ q < d.totalNodes, (s.nodes q).phase ≠ .working) :
    ∃ s', Relation.ReflTransGen (ClusterStep d) s s' ∧ ClusterReachable d batches s' ∧
      s'.countsInFlight = [] ∧ ∀ q < d.totalNodes, ((s'.nodes q).phase.totalCount).isSome := by
  refine (exists_each_node d.totalNodes
    (fun s => ClusterReachable d batches s ∧ s.countsInFlight = [] ∧
      ∀ q < d.totalNodes, (s.nodes q).phase ≠ .working)
    (fun s q => ((s.nodes q).phase.totalCount).isSome) ?_ ⟨hs, hc, hph⟩).imp
    fun _ ⟨h, ⟨hs', hc', _⟩, hq⟩ => ⟨h, hs', hc', hq⟩
  rintro s₀ k hk ⟨hs₀, hc₀, hph₀⟩
  cases hk' : (s₀.nodes k).phase with
  | working => exact absurd hk' (hph₀ k hk)
  | countsSent =>
    have hrep : ∀ q < d.totalNodes, q ≠ k → ((s₀.nodes k).reported q).isSome := fun q hq hqk =>
      (hs₀.countsDelivered k q hk hqk (hph₀ q hq)).resolve_right (by simp [hc₀])
    have hstep := ClusterStep.getTotal hk hk' hrep
    refine ⟨_, .single hstep, ⟨hs₀.tail hstep, hc₀, fun q hq => ?_⟩,
      by simp [DistPhase.totalCount], fun q hqk hQ => by simpa [hqk] using hQ⟩
    by_cases hqk : q = k
    · simp [hqk]
    · simpa [hqk] using hph₀ q hq
  | counted T =>
    exact ⟨s₀, .refl, ⟨hs₀, hc₀, hph₀⟩, by simp [hk', DistPhase.totalCount], fun _ _ h => h⟩
  | released T =>
    exact ⟨s₀, .refl, ⟨hs₀, hc₀, hph₀⟩, by simp [hk', DistPhase.totalCount], fun _ _ h => h⟩

/-- 5. data message を全部届ける。 -/
theorem exists_data_delivered (hs : ClusterReachable d batches s) (hc : s.countsInFlight = [])
    (htot : ∀ q < d.totalNodes, ((s.nodes q).phase.totalCount).isSome) :
    ∃ s', Relation.ReflTransGen (ClusterStep d) s s' ∧ ClusterReachable d batches s' ∧
      s'.dataInFlight = [] ∧ s'.countsInFlight = [] ∧
      ∀ q < d.totalNodes, ((s'.nodes q).phase.totalCount).isSome := by
  generalize hD : s.dataInFlight = D
  induction D generalizing s with
  | nil => exact ⟨s, .refl, hs, hD, hc, htot⟩
  | cons m rest ih =>
    obtain ⟨s₁, h₁, hD₁, hc₁, hn₁⟩ := exists_deliverData hD
    obtain ⟨s₂, h₂, hs₂, hD₂, hc₂, htot₂⟩ :=
      ih (hs.tail h₁) (hc₁.trans hc) (fun q hq => by rw [hn₁ q]; exact htot q hq) hD₁
    exact ⟨s₂, .head h₁ h₂, hs₂, hD₂, hc₂, htot₂⟩

/-- 6. 各 node が `wait_for_count` を抜ける。data message が無いので、合計は受理した数。 -/
theorem exists_all_released_of_counted (hs : ClusterReachable d batches s)
    (hD : s.dataInFlight = []) (hc : s.countsInFlight = [])
    (htot : ∀ q < d.totalNodes, ((s.nodes q).phase.totalCount).isSome) :
    ∃ s', Relation.ReflTransGen (ClusterStep d) s s' ∧ s'.dataInFlight = [] ∧
      s'.countsInFlight = [] ∧
      ∀ q < d.totalNodes, ∃ T, (s'.nodes q).phase = .released T ∧ (s'.nodes q).accepted = T := by
  refine (exists_each_node d.totalNodes
    (fun s => ClusterReachable d batches s ∧ s.dataInFlight = [] ∧ s.countsInFlight = [] ∧
      ∀ q < d.totalNodes, ((s.nodes q).phase.totalCount).isSome)
    (fun s q => ∃ T, (s.nodes q).phase = .released T ∧ (s.nodes q).accepted = T) ?_
    ⟨hs, hD, hc, htot⟩).imp fun _ ⟨h, ⟨_, hD', hc', _⟩, hq⟩ => ⟨h, hD', hc', hq⟩
  rintro s₀ k hk ⟨hs₀, hD₀, hc₀, htot₀⟩
  have haccepted : ∀ T, (s₀.nodes k).phase.totalCount = some T → (s₀.nodes k).accepted = T :=
    fun T hT => by
      have := total_eq_accepted_add_inflight hs₀.balance hs₀.settled hT
      simp [inflightTo, hD₀] at this
      omega
  cases hk' : (s₀.nodes k).phase with
  | working => simpa [hk', DistPhase.totalCount] using htot₀ k hk
  | countsSent => simpa [hk', DistPhase.totalCount] using htot₀ k hk
  | counted T =>
    have hT := haccepted T (by simp [hk', DistPhase.totalCount])
    have hstep := ClusterStep.release hk hk' hT.ge
    refine ⟨_, .single hstep, ⟨hs₀.tail hstep, hD₀, hc₀, fun q hq => ?_⟩, ⟨T, by simp, by simpa⟩,
      fun q hqk hQ => by simpa [hqk] using hQ⟩
    by_cases hqk : q = k
    · simp [hqk, DistPhase.totalCount]
    · simpa [hqk] using htot₀ q hq
  | released T =>
    exact ⟨s₀, .refl, ⟨hs₀, hD₀, hc₀, htot₀⟩,
      ⟨T, hk', haccepted T (by simp [hk', DistPhase.totalCount])⟩, fun _ _ h => h⟩

/-- 六段の実行をつなぐ。到達できる状態 `s` から、全部の node が `wait_for_count` を抜け、
network が空になった状態 `s'` に行ける。`s'` も最初の状態から到達できる。 -/
theorem exists_released_run {batches : Nat → List BlazingTable}
    (hs : ClusterReachable d batches s) :
    ∃ s', Relation.ReflTransGen (ClusterStep d) s s' ∧ ClusterReachable d batches s' ∧
      s'.dataInFlight = [] ∧ s'.countsInFlight = [] ∧
      ∀ p < d.totalNodes, ∃ T, (s'.nodes p).phase = .released T ∧ (s'.nodes p).accepted = T := by
  obtain ⟨s₁, h₁, hs₁, hidle₁⟩ := exists_all_drained hs
  obtain ⟨s₂, h₂, hs₂, hph₂⟩ := exists_all_sent hs₁ hidle₁
  obtain ⟨s₃, h₃, hs₃, hc₃, hph₃⟩ := exists_counts_delivered hs₂ hph₂
  obtain ⟨s₄, h₄, hs₄, hc₄, htot₄⟩ := exists_all_counted hs₃ hc₃ hph₃
  obtain ⟨s₅, h₅, hs₅, hD₅, hc₅, htot₅⟩ := exists_data_delivered hs₄ hc₄ htot₄
  obtain ⟨s₆, h₆, hD₆, hc₆, hrel⟩ := exists_all_released_of_counted hs₅ hD₅ hc₅ htot₅
  exact ⟨s₆, h₁.trans (h₂.trans (h₃.trans (h₄.trans (h₅.trans h₆)))), hs₅.trans h₆, hD₆, hc₆,
    hrel⟩

end Schedule

/-- 初めの状態から、全部の node が `wait_for_count` を抜けた状態に行ける。 -/
theorem exists_released_of_init (batches : Nat → List BlazingTable) :
    ∃ s, ClusterReachable d batches s ∧
      ∀ p < d.totalNodes, ∃ T, (s.nodes p).phase = .released T := by
  obtain ⟨s, -, hs, -, -, hrel⟩ :=
    exists_released_run (.refl : ClusterReachable d batches (.init _))
  exact ⟨s, hs, fun p hp => (hrel p hp).imp fun _ h => h.1⟩

/--
**partition の数の交換は deadlock しない。**

到達できるどの状態からも、全部の node が `wait_for_count(total_count)` を抜けた状態に行ける。
そのとき network に message は残っておらず、どの node の output cache も合計とちょうど同じ数の
batch を受理している。
-/
theorem exists_all_released {batches : Nat → List BlazingTable}
    (hs : ClusterReachable d batches s) :
    ∃ s', Relation.ReflTransGen (ClusterStep d) s s' ∧ s'.dataInFlight = [] ∧
      s'.countsInFlight = [] ∧
      ∀ p < d.totalNodes, ∃ T, (s'.nodes p).phase = .released T ∧ (s'.nodes p).accepted = T := by
  obtain ⟨s', h, -, hrest⟩ := exists_released_run hs
  exact ⟨s', h, hrest⟩

theorem exists_all_released_scalar :
    ∃ s', Relation.ReflTransGen (ClusterStep scalarSetup) (ClusterState.init oneBatchOnNode1) s' ∧
      s'.dataInFlight = [] ∧ s'.countsInFlight = [] ∧
      ∀ p < scalarSetup.totalNodes, ∃ T, (s'.nodes p).phase = .released T ∧
        (s'.nodes p).accepted = T :=
  exists_all_released
    (show ClusterReachable scalarSetup oneBatchOnNode1 (ClusterState.init oneBatchOnNode1) from .refl)

end BlazingSql
