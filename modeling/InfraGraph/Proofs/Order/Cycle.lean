import InfraGraph.Proofs.Order.Invariant
import InfraGraph.Proofs.Precedence
import Mathlib.Data.Fintype.Card
import Mathlib.Data.Set.Finite.List
import Mathlib.Logic.Relation
import Mathlib.Order.WellFounded

/-!
Which vertices a run cannot order. A vertex below a cycle is never taken, since every edge points
forward in the order. Conversely each vertex that is left over has a predecessor that is left over, and
in a finite graph going back along such predecessors has to lead round a cycle. An edge more can close cycles
through itself only.
-/
open Relation (TransGen ReflTransGen)
namespace InfraGraph.Order
variable {α : Type}

/-- A vertex lies on a cycle of a relation or can be reached from one. -/
def BelowCycle (R : α → α → Prop) (v : α) : Prop := ∃ c, TransGen R c c ∧ ReflTransGen R c v

/-- The edges as a relation. -/
def Edge (es : List (α × α)) (u v : α) : Prop := (u,v) ∈ es

/-- In a finite collection whose members all have predecessors in it, every member is below a cycle. -/
theorem belowCycle_of_predecessors {R : α → α → Prop} {left : List α} (each : ∀ v ∈ left, ∃ u ∈ left, R u v)
    {v : α} (member : v ∈ left) : BelowCycle R v := by
  by_contra clear
  -- Without a cycle above `v`, going back from `v` is well-founded and would have to end.
  let Above := { u : α // u ∈ left ∧ ReflTransGen R u v }
  have finite : Finite Above := Set.Finite.subset (List.finite_toSet left) fun u above => above.1
  let back : Above → Above → Prop := fun a b => TransGen R a.1 b.1
  have transitive : IsTrans Above back := ⟨fun _ _ _ first second => first.trans second⟩
  have irreflexive : Std.Irrefl back := ⟨fun a round => clear ⟨a.1,round,a.2.2⟩⟩
  have founded : WellFounded back := Finite.wellFounded_of_trans_of_irrefl back
  obtain ⟨first,_,least⟩ := founded.has_min Set.univ ⟨⟨v,member,.refl⟩,trivial⟩
  obtain ⟨u,inside,edge⟩ := each first.1 first.2.1
  exact least ⟨u,inside,first.2.2.head edge⟩ trivial (.single edge)

/-! ### One edge more -/

section Snoc
variable {es : List (α × α)} {a b : α}

theorem edge_snoc {u v : α} : Edge (es ++ [(a,b)]) u v ↔ Edge es u v ∨ u = a ∧ v = b := by
  simp [Edge]

private theorem path_mono {u v : α} (path : ReflTransGen (Edge es) u v) : ReflTransGen (Edge (es ++ [(a,b)])) u v :=
  path.lift (fun v => v) fun _ _ edge => edge_snoc.mpr (.inl edge)
private theorem round_mono {c : α} (round : TransGen (Edge es) c c) : TransGen (Edge (es ++ [(a,b)])) c c :=
  round.lift (fun v => v) fun _ _ edge => edge_snoc.mpr (.inl edge)

theorem path_snoc {u v : α} : ReflTransGen (Edge (es ++ [(a,b)])) u v ↔
    ReflTransGen (Edge es) u v ∨ ReflTransGen (Edge es) u a ∧ ReflTransGen (Edge es) b v := by
  constructor
  · intro path
    induction path with
    | refl => exact .inl .refl
    | tail _ edge ih =>
      rcases edge_snoc.mp edge with old | ⟨rfl,rfl⟩
      · exact ih.imp (·.tail old) fun ⟨first,second⟩ => ⟨first,second.tail old⟩
      · -- However the path came to `a`, an old one leads there.
        exact .inr ⟨ih.elim (fun path => path) (fun path => path.1),.refl⟩
  · rintro (old | ⟨first,second⟩)
    · exact path_mono old
    · exact (path_mono first).trans (.head (edge_snoc.mpr (.inr ⟨rfl,rfl⟩)) (path_mono second))

/-- A cycle that was not there before leads through the edge. -/
theorem round_snoc {c : α} (round : TransGen (Edge (es ++ [(a,b)])) c c) :
    TransGen (Edge es) c c ∨ ReflTransGen (Edge es) c a ∧ ReflTransGen (Edge es) b c := by
  obtain ⟨m,path,edge⟩ := TransGen.tail'_iff.mp round
  rcases edge_snoc.mp edge with old | ⟨rfl,rfl⟩
  · exact (path_snoc.mp path).imp (TransGen.tail' · old) fun ⟨first,second⟩ => ⟨first,second.tail old⟩
  · exact .inr ⟨(path_snoc.mp path).elim (fun path => path) (fun path => path.1),.refl⟩

/-- What is below a cycle after an edge was added: what was so before and, if the edge starts below a cycle or closes one,
    whatever its end leads to. -/
theorem belowCycle_snoc {v : α} : BelowCycle (Edge (es ++ [(a,b)])) v ↔ BelowCycle (Edge es) v ∨
    (BelowCycle (Edge es) a ∨ ReflTransGen (Edge es) b a) ∧ ReflTransGen (Edge es) b v := by
  have added : Edge (es ++ [(a,b)]) a b := edge_snoc.mpr (.inr ⟨rfl,rfl⟩)
  constructor
  · rintro ⟨c,round,path⟩
    rcases round_snoc round with old | ⟨first,second⟩
    · rcases path_snoc.mp path with onward | ⟨before,after⟩
      · exact .inl ⟨c,old,onward⟩
      · exact .inr ⟨.inl ⟨c,old,before⟩,after⟩
    · rcases path_snoc.mp path with onward | ⟨_,after⟩
      · exact .inr ⟨.inr (second.trans first),second.trans onward⟩
      · exact .inr ⟨.inr (second.trans first),after⟩
  · rintro (⟨c,round,path⟩ | ⟨⟨c,round,path⟩ | closing,onward⟩)
    · exact ⟨c,round_mono round,path_mono path⟩
    · exact ⟨c,round_mono round,((path_mono path).tail added).trans (path_mono onward)⟩
    · exact ⟨b,.tail' (path_mono closing) added,path_mono onward⟩

end Snoc

namespace Finished
variable [DecidableEq α] {vs : List α} {es : List (α × α)} {order : List α}

theorem before_of_path (finished : Finished vs es order) {u v : α} (path : TransGen (Edge es) u v)
    (member : v ∈ order) : [u,v].Sublist order := by
  induction path with
  | single edge => exact finished.forward _ _ edge member
  | tail _ edge ih =>
    have last := finished.forward _ _ edge member
    obtain ⟨i,k,less,first,middle⟩ := pair_sublist_iff.mp (ih (last.subset (by simp)))
    obtain ⟨l,m,more,again,target⟩ := pair_sublist_iff.mp last
    have same := place_unique finished.distinct middle again
    exact pair_sublist_iff.mpr ⟨i,m,by omega,first,target⟩

theorem mem_of_path (finished : Finished vs es order) {u v : α} (path : ReflTransGen (Edge es) u v)
    (member : v ∈ order) : u ∈ order := by
  induction path with
  | refl => exact member
  | tail _ edge ih => exact ih ((finished.forward _ _ edge member).subset (by simp))

theorem mem_iff_not_belowCycle (finished : Finished vs es order) (known : ∀ e ∈ es, e.1 ∈ vs) {v : α}
    (inside : v ∈ vs) : v ∈ order ↔ ¬ BelowCycle (Edge es) v := by
  constructor
  · rintro member ⟨c,round,path⟩
    have before := finished.before_of_path round (finished.mem_of_path path member)
    exact before_asymm finished.distinct before before
  · intro clear
    by_contra absent
    have each : ∀ w ∈ vs.filter (· ∉ order), ∃ u ∈ vs.filter (· ∉ order), Edge es u w := by
      intro w member
      obtain ⟨vertex,left⟩ := List.mem_filter.mp member
      have blocked := mt (finished.mem_iff vertex).mpr (by simpa using left)
      simp only [not_forall,exists_prop] at blocked
      obtain ⟨u,edge,missing⟩ := blocked
      exact ⟨u,List.mem_filter.mpr ⟨known _ edge,by simpa using missing⟩,edge⟩
    exact clear (belowCycle_of_predecessors each (List.mem_filter.mpr ⟨inside,by simpa using absent⟩))

end Finished

end InfraGraph.Order
