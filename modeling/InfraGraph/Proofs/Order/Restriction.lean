import InfraGraph.Proofs.Order.Position

/-!
The order of a part. Where no edge connects the vertices of a part with others, the part of the order follows
the rule of the queue for the part, since places and edges keep their order when the others are left out.
-/
namespace InfraGraph.Order
variable {α δ : Type} {f : δ → Option (α × α)} {vs : List α} {ds : List δ} {order : List α}

section Restriction
variable {p : α → Bool} {q : δ → Bool}
  (closed : ∀ d ∈ ds, ∀ u w, f d = some (u,w) → (q d = p u ∧ q d = p w))
include closed

/-- The kept edges are those that lead to kept vertices, which is to say those that leave kept vertices. -/
theorem mem_kept {u w : α} : (u,w) ∈ (ds.filter q).filterMap f ↔ (u,w) ∈ ds.filterMap f ∧ p w = true := by
  simp only [List.mem_filterMap,List.mem_filter]
  constructor
  · rintro ⟨d,⟨member,kept⟩,is⟩
    exact ⟨⟨d,member,is⟩,by rw [← (closed d member u w is).2,kept]⟩
  · rintro ⟨⟨d,member,is⟩,inside⟩
    exact ⟨d,⟨member,by rw [(closed d member u w is).2,inside]⟩,is⟩

private theorem kept_source {u w : α} (edge : (u,w) ∈ ds.filterMap f) (inside : p w = true) : p u = true := by
  obtain ⟨d,member,is⟩ := List.mem_filterMap.mp edge
  rw [← (closed d member u w is).1,(closed d member u w is).2,inside]

/-- What releases a kept vertex among the kept ones releases it among all. -/
theorem ReleasedAt.unrestrict {place number : Nat → Nat} (rises : StrictMono place) (grows : StrictMono number)
    (places : ∀ i, (order.filter p)[i]? = order[place i]?) (numbers : ∀ j, (ds.filter q)[j]? = ds[number j]?)
    (covers : ∀ n x, order[n]? = some x → p x = true → ∃ i, place i = n)
    (counts : ∀ n d, ds[n]? = some d → q d = true → ∃ j, number j = n) {w : α} {i j : Nat}
    (released : ReleasedAt f (ds.filter q) (order.filter p) w i j) :
    ReleasedAt f ds order w (place i) (number j) := by
  obtain ⟨u,at_u,edge⟩ := released.predecessor
  have inside : p w = true := ((mem_kept closed).mp edge).2
  refine ⟨⟨⟨u,by rw [← places,at_u],((mem_kept closed).mp edge).1⟩,?_⟩,⟨?_,?_⟩⟩
  · rintro n ⟨x,at_x,entering⟩
    obtain ⟨k,rfl⟩ := covers n x at_x (kept_source closed entering inside)
    have bound := released.latest.2 ⟨x,by rw [places,at_x],(mem_kept closed).mpr ⟨entering,inside⟩⟩
    exact rises.monotone bound
  · obtain ⟨x,d,at_x,at_d,is⟩ := released.last.1
    exact ⟨x,d,by rw [← places,at_x],by rw [← numbers,at_d],is⟩
  · rintro n ⟨x,d,at_x,at_d,is⟩
    have member := List.mem_iff_getElem?.mpr ⟨n,at_d⟩
    have kept : q d = true := by rw [(closed d member x w is).2,inside]
    obtain ⟨k,rfl⟩ := counts n d at_d kept
    have bound := released.last.2 ⟨x,d,by rw [places,at_x],by rw [numbers,at_d],is⟩
    exact grows.monotone bound

variable [DecidableEq α]

omit closed [DecidableEq α] in
private theorem pair_filter {u w : α} (first : p u = true) (second : p w = true) :
    [u,w].Sublist (order.filter p) ↔ [u,w].Sublist order := by
  constructor
  · exact fun before => before.trans List.filter_sublist
  · intro before
    have kept := before.filter p
    rwa [List.filter_cons_of_pos first,List.filter_cons_of_pos second,List.filter_nil] at kept

/-- Where no edge connects kept vertices with others, the rule of the queue holds of what is kept. -/
theorem QueueOrder.filter (rule : QueueOrder f vs ds order) :
    QueueOrder f (vs.filter p) (ds.filter q) (order.filter p) := by
  obtain ⟨place,rises,places,covers⟩ := filter_places p order
  obtain ⟨number,grows,numbers,counts⟩ := filter_places q ds
  refine ⟨rule.all.filter p,?_,?_⟩
  · have sources : sources (vs.filter p) ((ds.filter q).filterMap f) = (sources vs (ds.filterMap f)).filter p := by
      rw [Order.sources,Order.sources,List.filter_filter,List.filter_filter]
      apply List.filter_congr
      intro v _
      by_cases inside : p v = true
      · have same : waiting ((ds.filter q).filterMap f) [] v = 0 ↔ waiting (ds.filterMap f) [] v = 0 := by
          simp only [waiting_eq_zero,mem_kept closed,inside,and_true]
        simp [inside,same]
      · simp [inside]
    rw [sources]
    exact rule.first.filter p
  · intro u v i j k l first second
    have left : p u = true := ((mem_kept closed).mp first.predecessor.choose_spec.2).2
    have right : p v = true := ((mem_kept closed).mp second.predecessor.choose_spec.2).2
    rw [pair_filter left right,rule.later u v _ _ _ _
      (first.unrestrict closed rises grows places numbers covers counts)
      (second.unrestrict closed rises grows places numbers covers counts)]
    rw [rises.lt_iff_lt,rises.injective.eq_iff,grows.lt_iff_lt]

end Restriction

/-- The rule of the queue only looks at the ends of the given edges. -/
theorem QueueOrder.congr [DecidableEq α] {f' : δ → Option (α × α)} (rule : QueueOrder f vs ds order)
    (same : ∀ d ∈ ds, f d = f' d) : QueueOrder f' vs ds order := by
  have edges : ds.filterMap f' = ds.filterMap f := List.filterMap_congr fun d member => (same d member).symm
  have released {w : α} {i j : Nat} (rel : ReleasedAt f' ds order w i j) : ReleasedAt f ds order w i j := by
    have numbers : {j : Nat | ∃ u d, order[i]? = some u ∧ ds[j]? = some d ∧ f' d = some (u,w)} =
        {j : Nat | ∃ u d, order[i]? = some u ∧ ds[j]? = some d ∧ f d = some (u,w)} := by
      ext n
      refine exists_congr fun u => exists_congr fun d => and_congr_right fun _ => and_congr_right fun at_d => ?_
      rw [same d (List.mem_iff_getElem?.mpr ⟨n,at_d⟩)]
    exact ⟨edges ▸ rel.latest,numbers ▸ rel.last⟩
  exact ⟨rule.all,edges ▸ rule.first,fun u v i j k l first second => rule.later u v i j k l (released first) (released second)⟩

end InfraGraph.Order
