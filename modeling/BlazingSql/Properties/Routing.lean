import BlazingSql.Pipeline
import BlazingSql.Properties.Partition

/-!
# Distribute の行き先

Distribute の action を順に実行したとき、どの table がどの node の Merge に届くか。

* `localDeposits_scatter`・`messagesTo_scatter` — scatter は partition `i` を node `i` に届ける。
  自分の分は自分の cache に、ほかは message で
* `processBatches_grouped` — grouped の枝では、Distribute の action は batch ごとの scatter を
  つないだもので、`set_empty_part_for_non_master_node` は関わらない
* `perm_mergeInputs` — node `n` の Merge の入力は、各 node から `n` に届いたものを
  node の順に並べたものの並べ替え
-/

namespace BlazingSql

/-! ## Except の `mapM` -/

/-- どの要素でも成功すれば、`mapM` は成功し、結果は要素ごとに対応する。 -/
theorem mapM_eq_ok {α β ε : Type} {f : α → Except ε β} {Q : α → β → Prop} :
    ∀ {l : List α}, (∀ x ∈ l, ∃ y, f x = .ok y ∧ Q x y) →
      ∃ ys, l.mapM f = .ok ys ∧ List.Forall₂ Q l ys
  | [], _ => ⟨[], rfl, .nil⟩
  | x :: l, h => by
    obtain ⟨y, hy, hq⟩ := h x (List.mem_cons_self x l)
    obtain ⟨ys, hys, hqs⟩ := mapM_eq_ok fun z hz => h z (List.mem_cons_of_mem x hz)
    exact ⟨y :: ys, by rw [List.mapM_cons, hy, hys]; rfl, .cons hq hqs⟩

/-- すべて `g` で成功するなら、`mapM` は `map g` で成功する。 -/
theorem mapM_eq_ok_map {α β ε : Type} {f : α → Except ε β} {g : α → β} :
    ∀ {l : List α}, (∀ x ∈ l, f x = .ok (g x)) → l.mapM f = .ok (l.map g)
  | [], _ => rfl
  | x :: l, h => by
    rw [List.mapM_cons, h x (List.mem_cons_self x l),
      mapM_eq_ok_map fun z hz => h z (List.mem_cons_of_mem x hz)]
    rfl

/-- `bind` が成功するのは、前半が成功し、その値で後半が成功するとき。 -/
theorem bind_eq_ok {α β ε : Type} {x : Except ε α} {f : α → Except ε β} {r : β} :
    x >>= f = .ok r ↔ ∃ a, x = .ok a ∧ f a = .ok r := by
  cases x <;> simp [bind, Except.bind]

/-- `mapM` が成功すれば、どの要素でも成功している。 -/
theorem forall₂_of_mapM_eq_ok {α β ε : Type} {f : α → Except ε β} :
    ∀ {l : List α} {ys : List β}, l.mapM f = .ok ys → List.Forall₂ (fun x y => f x = .ok y) l ys
  | [], _, h => by cases h; exact .nil
  | x :: l, _, h => by
    rw [List.mapM_cons, bind_eq_ok] at h
    obtain ⟨y, hy, h⟩ := h
    rw [bind_eq_ok] at h
    obtain ⟨ys, hys, h⟩ := h
    cases h
    exact .cons hy (forall₂_of_mapM_eq_ok hys)

/-- node の番号の列に沿って対応する列の、`p` 番目。 -/
theorem getD_of_forall₂_range {β : Type} {R : Nat → β → Prop} {N : Nat} {ys : List β}
    (h : List.Forall₂ R (List.range N) ys) (d : β) {p : Nat} (hp : p < N) : R p (ys.getD p d) := by
  have hlen : ys.length = N := by simpa using h.length_eq.symm
  have := h.get (by simpa using hp) (by omega)
  simpa [List.getD_eq_getElem?_getD, List.getElem?_eq_getElem (show p < ys.length by omega)]
    using this

/-- 対応する列の要素には、相手の列の要素が対応する。 -/
theorem exists_of_mem_forall₂ {α β : Type} {R : α → β → Prop} :
    ∀ {l : List α} {ys : List β}, List.Forall₂ R l ys → ∀ y ∈ ys, ∃ x ∈ l, R x y
  | _, _, .nil, _, hy => absurd hy (List.not_mem_nil _)
  | x :: _, _, .cons hxy hrest, y, hy => by
    rcases List.mem_cons.mp hy with rfl | hy
    · exact ⟨x, List.mem_cons_self _ _, hxy⟩
    · obtain ⟨x', hx', h⟩ := exists_of_mem_forall₂ hrest y hy
      exact ⟨x', List.mem_cons_of_mem _ hx', h⟩

/-! ## scatter -/

theorem localDeposits_flatten (d : Bool) (L : List (List DistributeAction)) :
    localDeposits d L.flatten = (L.map (localDeposits d)).flatten := by
  induction L with
  | nil => rfl
  | cons a L ih => rw [List.flatten_cons, localDeposits_append, ih]; rfl

theorem messagesTo_flatten (n : Nat) (L : List (List DistributeAction)) :
    messagesTo n L.flatten = (L.map (messagesTo n)).flatten := by
  induction L with
  | nil => rfl
  | cons a L ih => rw [List.flatten_cons, messagesTo_append, ih]; rfl

theorem localDeposits_scatterFrom (d : Bool) (ctx : Context) :
    ∀ (i : Nat) (ps : List BlazingTable), localDeposits d (scatterFrom ctx i ps) =
      if i ≤ ctx.selfNode then ps[ctx.selfNode - i]?.toList else []
  | i, [] => by split <;> rfl
  | i, p :: ps => by
    rw [scatterFrom, localDeposits_append, localDeposits_scatterFrom d ctx (i + 1) ps]
    by_cases h : i = ctx.selfNode
    · subst h; simp [localDeposits, accepts]
    · rw [if_neg h]
      simp only [sendMessage, localDeposits, List.nil_append]
      by_cases hlt : i < ctx.selfNode
      · obtain ⟨m, hm⟩ : ∃ m, ctx.selfNode - i = m + 1 := ⟨ctx.selfNode - i - 1, by omega⟩
        rw [if_pos (Nat.succ_le_of_lt hlt), if_pos hlt.le, hm, List.getElem?_cons_succ,
          show ctx.selfNode - (i + 1) = m by omega]
      · rw [if_neg (by omega), if_neg (by omega)]

theorem messagesTo_scatterFrom (ctx : Context) (n : Nat) :
    ∀ (i : Nat) (ps : List BlazingTable), messagesTo n (scatterFrom ctx i ps) =
      if i ≤ n ∧ n ≠ ctx.selfNode then ps[n - i]?.toList else []
  | i, [] => by split <;> rfl
  | i, p :: ps => by
    rw [scatterFrom, messagesTo_append, messagesTo_scatterFrom ctx n (i + 1) ps]
    by_cases hin : i = n
    · subst hin
      by_cases h : i = ctx.selfNode
      · simp [h, messagesTo, localDeposits]
      · simp [h, sendMessage, messagesTo]
    · have hhead : messagesTo n (if i = ctx.selfNode then [.addToCache p true]
          else sendMessage p i) = [] := by
        split <;> simp [messagesTo, sendMessage, hin]
      rw [hhead, List.nil_append]
      by_cases hlt : i < n
      · obtain ⟨m, hm⟩ : ∃ m, n - i = m + 1 := ⟨n - i - 1, by omega⟩
        by_cases hs : n = ctx.selfNode
        · simp [hs]
        · rw [if_pos ⟨Nat.succ_le_of_lt hlt, hs⟩, if_pos ⟨hlt.le, hs⟩, hm,
            List.getElem?_cons_succ, show n - (i + 1) = m by omega]
      · rw [if_neg (by omega), if_neg (by omega)]

/-- scatter は partition `selfNode` を自分の cache に入れる。 -/
theorem localDeposits_scatter (d : Bool) (ctx : Context) (ps : List BlazingTable) :
    localDeposits d (scatter ctx ps) = ps[ctx.selfNode]?.toList := by
  simp [scatter, localDeposits_scatterFrom]

/-- scatter は自分以外の node `n` に partition `n` を送る。 -/
theorem messagesTo_scatter (ctx : Context) (n : Nat) (ps : List BlazingTable) :
    messagesTo n (scatter ctx ps) = if n ≠ ctx.selfNode then ps[n]?.toList else [] := by
  simp [scatter, messagesTo_scatterFrom]

theorem setsEmptyPart_scatterFrom (ctx : Context) :
    ∀ (i : Nat) (ps : List BlazingTable), setsEmptyPart (scatterFrom ctx i ps) = false
  | _, [] => rfl
  | i, p :: ps => by
    have := setsEmptyPart_scatterFrom ctx (i + 1) ps
    simp only [setsEmptyPart, List.any_eq_false] at this ⊢
    simp only [scatterFrom, List.mem_append]
    rintro a (ha | ha)
    · split at ha <;> simp [sendMessage] at ha <;> rcases ha with rfl | rfl <;> simp
    · exact this a ha

/-! ## grouped の枝 -/

/-- **grouped の枝では、Distribute の action は batch ごとの scatter をつないだもの。** -/
theorem processBatches_grouped {hash : Row → Nat} {ctx : Context} {e : GroupByExpression}
    {cols : List Nat} (hG : e.groupColumnIndices.length ≠ 0) :
    ∀ (flag : Bool) (partials : List BlazingTable),
      DistributeAggregateKernel.processBatches hash ctx e cols flag partials =
        (fun pss => (pss.map (scatter ctx)).flatten) <$>
          partials.mapM (DistributeAggregateKernel.partitions hash ctx cols)
  | _, [] => rfl
  | flag, b :: bs => by
    simp only [DistributeAggregateKernel.processBatches, DistributeAggregateKernel.doProcess,
      if_neg hG, List.mapM_cons]
    cases hp : DistributeAggregateKernel.partitions hash ctx cols b with
    | error err => rfl
    | ok ps =>
      simp only [Functor.map, Except.map, bind, Except.bind, scatter,
        setsEmptyPart_scatterFrom, Bool.or_false]
      rw [processBatches_grouped hG flag bs]
      cases List.mapM (DistributeAggregateKernel.partitions hash ctx cols) bs <;> rfl

/-! ## Merge の入力 -/

/-- node `n` に、node `p` の action から届く table。 -/
def arrivalsFrom (d : Bool) (acts : List DistributeAction) (p n : Nat) : List BlazingTable :=
  if p = n then localDeposits d acts else messagesTo n acts

/-- scatter をつないだ action の列からは、どの node にも、その node の番号の partition が届く。 -/
theorem arrivalsFrom_scatters (d : Bool) (c : Context) (n : Nat) (pss : List (List BlazingTable)) :
    arrivalsFrom d ((pss.map (scatter c)).flatten) c.selfNode n =
      (pss.map fun ps => ps[n]?.toList).flatten := by
  unfold arrivalsFrom
  split
  · rename_i h
    subst h
    simp only [localDeposits_flatten, List.map_map, Function.comp_def, localDeposits_scatter]
  · rename_i h
    simp only [messagesTo_flatten, List.map_map, Function.comp_def, messagesTo_scatter,
      if_pos (Ne.symm h)]

/-- node の番号の列に写した列の、`p` 番目。 -/
theorem getD_map_range {β : Type} (f : Nat → List β) {N p : Nat} (hp : p < N) :
    ((List.range N).map f).getD p [] = f p := by
  simp [List.getD_eq_getElem?_getD, hp]

/-- node `p` の action の列が `A p` で、node `n` が自分に message を送らなければ、
node `n` の Merge の入力は、各 node から届く table を node の順に並べたものの並べ替え。 -/
theorem perm_mergeInputs (d : Bool) (A : Nat → List DistributeAction) {N n : Nat} (hn : n < N)
    (hself : messagesTo n (A n) = []) :
    (mergeInputs d ((List.range N).map A) n).Perm
      ((List.range N).map fun p => arrivalsFrom d (A p) p n).flatten := by
  -- 自分の cache に入ったものを、node `n` の欄へ動かす
  have hmoved := perm_flatten_map_ite (localDeposits d (A n)) (fun p => messagesTo n (A p))
    (List.nodup_range N) (List.mem_range.mpr hn)
  have hterm : ∀ p, (if n = p then localDeposits d (A n) ++ messagesTo n (A p)
      else messagesTo n (A p)) = arrivalsFrom d (A p) p n := by
    intro p
    by_cases h : p = n
    · subst h
      simp [arrivalsFrom, hself]
    · simp [arrivalsFrom, h, Ne.symm h]
  simp only [hterm] at hmoved
  rw [mergeInputs, getD_map_range _ hn, List.map_map]
  exact hmoved.symm

end BlazingSql
